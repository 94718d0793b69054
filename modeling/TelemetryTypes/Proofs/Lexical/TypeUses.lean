import Mathlib.Data.List.SplitBy
import TelemetryTypes.Proofs.Lexical.Declarations

/-!
# Uses of types as they are read

Where a source uses a type name is read off its code: a word that stands where a type can stand, and
neither gives a name to something nor belongs to the language itself. With each use come the type
parameters that are bound around it, those of the first line everywhere and those of a method on its
line.

Lines are read token by token: a token is a word, a sign, or the first quote of a string. What a
piece of a line comes to is said by `Spelled`, and by `Delimited` if no word can go on behind it, and
pieces are put together like the lines that are written.
-/

namespace TelemetryTypes.Lexical

open SourceLine (renderAll renderAll_append renderAll_singleton)
open Text (isIdentifier isIdentifierPart)

/-! ### Tokens -/

/-- Of a string nothing is shown but its first quote, which still is code. -/
def outsideStrings : Mode → Bool
  | .string _ => false
  | .escape _ => false
  | _ => true

/-- The words and signs of a text, without the blanks between them. -/
def tokens (chars : List Char) : List String :=
  ((chars.splitBy fun a b => isIdentifierPart a && isIdentifierPart b).filter (· ≠ [' '])).map
    String.ofList

/-- The tokens of a text, line by line; empty lines do not count. -/
def tokenLines (chars : List Char) : List (List String) :=
  ((Text.pieces chars).map tokens).filter (· ≠ [])

def isWord (token : String) : Bool := token.toList.head?.any isIdentifierPart

/-! ### Uses of type names -/

/-- The words of the language that stand where a type can stand. -/
def valueWords : List String := ["this", "true", "false"]

/-- The words behind which a name is given to a type. -/
def namingWords : List String := ["interface", "type", "class"]

/-- The signs behind the name of a member or a parameter, and the quote behind a word that says how
a member is declared. -/
def memberSigns : List String := [":", "?", "(", "'"]

/-- Whether a token, between its neighbours, is the use of a type name. A word of the syntax has the
word behind it that it is about. -/
@[simp] def usesType (previous : Option String) (token : String) (next : Option String) : Bool :=
  isWord token && !valueWords.contains token && previous.any (!namingWords.contains ·)
    && next.all fun sign => !isWord sign && !memberSigns.contains sign

@[simp] def usedAfter : Option String → List String → List String
  | _, [] => []
  | previous, token :: rest =>
    (if usesType previous token rest.head? then [token] else [])
      ++ usedAfter (some token) rest

/-- The type names that a line uses. -/
@[simp] def usedIn (line : List String) : List String := usedAfter none line

/-- The type parameter that a line binds behind the name it declares. -/
@[simp] def parameters (line : List String) : List String :=
  let rest := line.dropWhile isWord
  if rest.head? = some "<" then rest.tail.take 1 else []

/-- The uses of a line, each with the type parameters that are bound around it. -/
@[simp] def lineUses (outer line : List String) : List (String × List String) :=
  (usedIn line).map (·, parameters line ++ outer)

/-- The uses of a declaration, whose first line binds its type parameters. -/
@[simp] def usesOf : List (List String) → List (String × List String)
  | [] => []
  | headline :: body => lineUses [] headline ++ body.flatMap (lineUses (parameters headline))

/-- The uses of type names in the text of a declaration, if there is no fault in it. -/
def typeUses? (text : String) : Option (List (String × List String)) :=
  (scan text).map fun _ =>
    usesOf (tokenLines (State.start.keptIn outsideStrings text.toList))

example :
    typeUses? ("/** Omit */\nexport interface A<T extends B> \x7b\n"
        ++ "  run<U>(f: 'x:y'): Pick<C, T>\n\x7d\n")
      = some [("B", ["T"]), ("U", ["U", "T"]), ("Pick", ["U", "T"]), ("C", ["U", "T"]),
        ("T", ["U", "T"])] := by
  decide

/-! ### Pieces of lines -/

theorem tokens_append {front back : List Char}
    (h : ∀ x ∈ front.getLast?, ∀ y ∈ back.head?,
      (isIdentifierPart x && isIdentifierPart y) = false) :
    tokens (front ++ back) = tokens front ++ tokens back := by
  rw [tokens, List.splitBy_append h, List.filter_append, List.map_append]
  rfl

/-- What is shown of a text that is read as code between brackets. -/
def shown (outer : List Char) (text : String) : List Char :=
  State.keptIn outsideStrings ⟨.code, outer, []⟩ text.toList

/-- The edge of a text, with its character there if it has any, is not in the middle of a word. -/
def Breaks (edge : Option Char) : Prop := ∀ c ∈ edge, isIdentifierPart c = false

instance (edge : Option Char) : Decidable (Breaks edge) :=
  decidable_of_iff (edge.all (!isIdentifierPart ·) = true) (by cases edge <;> simp [Breaks])

/-- Between brackets a text is a piece of a line with the given tokens. -/
structure Spelled (outer : List Char) (text : String) (inner : List Char) (line : List String) :
    Prop where
  reads : ∃ literals, Reads outer text inner literals
  unbroken : '\n' ∉ shown outer text
  tokens_eq : tokens (shown outer text) = line

/-- A piece of a line behind which no word goes on. -/
structure Delimited (outer : List Char) (text : String) (inner : List Char) (line : List String) :
    Prop extends Spelled outer text inner line where
  last : Breaks (shown outer text).getLast?

theorem shown_append {outer inner last : List Char} {text next : String}
    (h : ∃ literals, Reads outer text inner literals)
    (hnext : ∃ literals, Reads inner next last literals) :
    shown outer (text ++ next) = shown outer text ++ shown inner next := by
  obtain ⟨first, hfirst⟩ := h
  obtain ⟨second, hsecond⟩ := hnext
  have hunder := State.keptIn_under outsideStrings hsecond [] first
  rw [State.under, List.append_nil, List.append_nil] at hunder
  rw [shown, String.toList_append, State.keptIn_append outsideStrings hfirst, hunder]
  rfl

theorem shown_of_isPlain {chars : List Char} (h : ∀ c ∈ chars, isPlain c = true)
    (outer : List Char) : State.keptIn outsideStrings ⟨.code, outer, []⟩ chars = chars := by
  induction chars with
  | nil => rfl
  | cons c rest ih =>
      rw [List.forall_mem_cons] at h
      have hslash : c ≠ '/' := fun heq => absurd (heq ▸ h.1) (by decide)
      rw [State.keptIn_cons outsideStrings (State.step_of_isPlain h.1 outer []), ih h.2]
      simp [State.keeps, outsideStrings, hslash]

theorem shown_plain {text : String} (h : Plain text) (outer : List Char) :
    shown outer text = text.toList :=
  shown_of_isPlain (plain_iff.mp h) outer

/-- Of a literal only the quote that opens it is shown. -/
theorem shown_literal (outer : List Char) (value : String) :
    shown outer (Text.literal value) = ['\''] := by
  have hinside (read : List Char) (c : Char) :
      State.keptIn outsideStrings ⟨.string read, outer, []⟩ (Text.escapeLiteral c) = [] := by
    rcases escapeLiteral_cases c with ⟨hself, -⟩ | ⟨e, hescape, hmeant⟩
    · rw [hself, State.keptIn]
      cases State.step ⟨.string read, outer, []⟩ c <;> rfl
    · rw [hescape, State.keptIn_cons outsideStrings (t := ⟨.escape read, outer, []⟩) rfl,
        State.keptIn]
      cases State.step ⟨.escape read, outer, []⟩ e <;> rfl
  have hbody (read chars : List Char) :
      State.keptIn outsideStrings ⟨.string read, outer, []⟩ (chars.flatMap Text.escapeLiteral)
        = [] := by
    induction chars generalizing read with
    | nil => rfl
    | cons c rest ih =>
        rw [List.flatMap_cons,
          State.keptIn_append outsideStrings (State.run_escapeLiteral read outer [] c), hinside,
          ih, List.append_nil]
  have hopen : State.step ⟨.code, outer, []⟩ '\'' = some ⟨.string [], outer, []⟩ := rfl
  have hclose :
      State.keptIn outsideStrings ⟨.string ([] ++ value.toList), outer, []⟩ ['\''] = [] := by
    rw [State.keptIn]
    cases State.step ⟨.string ([] ++ value.toList), outer, []⟩ '\'' <;> rfl
  rw [shown, Text.toList_literal, Text.literalChars, State.keptIn_cons outsideStrings hopen,
    State.keptIn_append outsideStrings (State.run_flatMap_escapeLiteral [] outer [] value.toList),
    hbody, hclose]
  rfl

/-- A text in which nothing varies, as it is found by computing. -/
def Fixed (outer : List Char) (text : String) (inner : List Char) (line : List String) : Prop :=
  Reads outer text inner [] ∧ '\n' ∉ shown outer text ∧ tokens (shown outer text) = line

instance (outer : List Char) (text : String) (inner : List Char) (line : List String) :
    Decidable (Fixed outer text inner line) :=
  inferInstanceAs (Decidable (_ ∧ _ ∧ _))

/-- A fixed text that can stand behind a word, and a word behind it. -/
structure Sign (outer : List Char) (text : String) (inner : List Char) (line : List String) :
    Prop where
  fixed : Fixed outer text inner line
  shown_ne : shown outer text ≠ []
  head : Breaks (shown outer text).head?
  last : Breaks (shown outer text).getLast?

instance (outer : List Char) (text : String) (inner : List Char) (line : List String) :
    Decidable (Sign outer text inner line) :=
  decidable_of_iff (_ ∧ _ ∧ _ ∧ _) ⟨fun h => ⟨h.1, h.2.1, h.2.2.1, h.2.2.2⟩,
    fun h => ⟨h.fixed, h.shown_ne, h.head, h.last⟩⟩

section Pieces

variable {outer inner last : List Char} {text next : String} {line more : List String}

theorem Fixed.spelled (h : Fixed outer text inner line) : Spelled outer text inner line :=
  ⟨⟨[], h.1⟩, h.2.1, h.2.2⟩

theorem Fixed.delimited (h : Fixed outer text inner line)
    (hlast : Breaks (shown outer text).getLast?) : Delimited outer text inner line :=
  ⟨h.spelled, hlast⟩

/-- Pieces are put together where no word goes on from one to the other. -/
theorem Spelled.append (h : Spelled outer text inner line) (hnext : Spelled inner next last more)
    (hbetween : ∀ x ∈ (shown outer text).getLast?, ∀ y ∈ (shown inner next).head?,
      (isIdentifierPart x && isIdentifierPart y) = false) :
    Spelled outer (text ++ next) last (line ++ more) := by
  obtain ⟨first, hfirst⟩ := h.reads
  obtain ⟨second, hsecond⟩ := hnext.reads
  have hshown := shown_append h.reads hnext.reads
  refine ⟨⟨first ++ second, hfirst.append hsecond⟩, ?_, ?_⟩
  · rw [hshown, List.mem_append]
    exact not_or.mpr ⟨h.unbroken, hnext.unbroken⟩
  · rw [hshown, tokens_append hbetween, h.tokens_eq, hnext.tokens_eq]

theorem Delimited.append (h : Delimited outer text inner line)
    (hnext : Spelled inner next last more) :
    Spelled outer (text ++ next) last (line ++ more) :=
  h.toSpelled.append hnext fun x hx y _ => by rw [h.last x hx, Bool.false_and]

theorem Spelled.sign (h : Spelled outer text inner line) (hnext : Sign inner next last more) :
    Delimited outer (text ++ next) last (line ++ more) := by
  have hspelled := hnext.fixed.spelled
  refine ⟨h.append hspelled fun x _ y hy => ?_, ?_⟩
  · rw [hnext.head y hy, Bool.and_false]
  · rw [shown_append h.reads hspelled.reads, List.getLast?_append_of_ne_nil _ hnext.shown_ne]
    exact hnext.last

theorem spelled_identifier {name : String} (h : isIdentifier name = true) (outer : List Char) :
    Spelled outer name outer [name] := by
  have hword := word_of_isIdentifier h
  have hpart := word_iff.mp hword
  refine ⟨⟨[], .plain hword.plain outer⟩, ?_, ?_⟩
  · rw [shown_plain hword.plain]
    exact fun hmem => absurd (hpart _ hmem) (by decide)
  · have hchars : name.toList ≠ [] := fun hnil => by
      rw [String.toList_eq_nil_iff.mp hnil] at h
      exact absurd h (by decide)
    have hchain : name.toList.IsChain fun a b => isIdentifierPart a && isIdentifierPart b :=
      (List.pairwise_of_forall_mem_list fun a ha b hb => by
        rw [hpart a ha, hpart b hb]
        rfl).isChain
    have hblank : name.toList ≠ [' '] := fun heq =>
      absurd (hpart ' ' (heq ▸ List.mem_singleton_self ' ')) (by decide)
    rw [shown_plain hword.plain, tokens, List.splitBy_of_isChain hchars hchain]
    simp [hblank]

theorem delimited_literal (outer : List Char) (value : String) :
    Delimited outer (Text.literal value) outer ["'"] := by
  refine ⟨⟨⟨[value], .literal outer value⟩, ?_, ?_⟩, ?_⟩ <;> rw [shown_literal] <;> decide

theorem isWord_of_isIdentifier {name : String} (h : isIdentifier name = true) :
    isWord name = true := by
  unfold isIdentifier Text.isIdentifierChars at h
  unfold isWord
  cases hchars : name.toList with
  | nil => simp [hchars] at h
  | cons c rest =>
      rw [hchars, Bool.and_eq_true] at h
      exact Text.isIdentifierPart_of_start h.1

/-- What a property key comes to. -/
def keyToken (name : String) : String := if isIdentifier name then name else "'"

theorem spelled_propertyKey (outer : List Char) (name : String) :
    Spelled outer (Text.propertyKey name) outer [keyToken name] := by
  unfold Text.propertyKey keyToken
  split_ifs with hname
  · exact spelled_identifier hname outer
  · exact (delimited_literal outer name).toSpelled

theorem isWord_or_eq_of_keyToken (name : String) :
    isWord (keyToken name) = true ∨ keyToken name = "'" := by
  unfold keyToken
  split_ifs with hname
  · exact .inl (isWord_of_isIdentifier hname)
  · exact .inr rfl

theorem Delimited.literal (h : Delimited outer text inner line) (value : String) :
    Delimited outer (text ++ Text.literal value) inner (line ++ ["'"]) := by
  have hvalue := delimited_literal inner value
  refine ⟨h.append hvalue.toSpelled, ?_⟩
  rw [shown_append h.reads hvalue.reads, shown_literal, List.getLast?_append_of_ne_nil _ (by simp)]
  decide

/-- Tokens that are signs and quotes. -/
def Wordless (line : List String) : Prop := ∀ token ∈ line, isWord token = false

instance (line : List String) : Decidable (Wordless line) :=
  inferInstanceAs (Decidable (∀ token ∈ line, _))

/-- A list of literals comes to nothing but quotes and the signs between them. -/
theorem Delimited.literalList (h : Delimited outer text inner line) {separator : String}
    (hsep : Sign inner separator inner more) (hmore : Wordless more) (values : List String) :
    ∃ found, Wordless found
      ∧ Delimited outer (text ++ Source.literalList separator values) inner (line ++ found) := by
  have hquote : Wordless ["'"] := by decide
  induction values generalizing text line with
  | nil =>
      refine ⟨[], List.forall_mem_nil _, ?_⟩
      rw [List.append_nil]
      exact (String.append_empty (s := text)).symm ▸ h
  | cons value rest ih =>
      cases rest with
      | nil =>
          refine ⟨["'"], hquote, ?_⟩
          rw [Source.literalList, List.map_singleton, String.intercalate_singleton]
          exact h.literal value
      | cons second others =>
          obtain ⟨found, hfound, hdelimited⟩ := ih ((h.literal value).toSpelled.sign hsep)
          refine ⟨["'"] ++ more ++ found, ?_, ?_⟩
          · exact List.forall_mem_append.mpr ⟨List.forall_mem_append.mpr ⟨hquote, hmore⟩, hfound⟩
          · rw [Source.literalList, List.map_cons, List.map_cons, String.intercalate_cons_cons,
              ← List.append_assoc, ← List.append_assoc, ← String.append_assoc,
              ← String.append_assoc]
            exact hdelimited

end Pieces

/-! ### Lines -/

theorem tokens_blanks (n : Nat) : tokens (List.replicate n ' ') = [] := by
  induction n with
  | zero => rfl
  | succ n ih =>
      have hblank : tokens [' '] = [] := by decide
      rw [List.replicate_succ, ← List.singleton_append, tokens_append, hblank, ih]
      · rfl
      · rintro x hx y -
        obtain rfl : ' ' = x := by simpa using hx
        rfl

theorem tokenLines_lineEnd (front back : List Char) :
    tokenLines (front ++ '\n' :: back) = tokenLines front ++ tokenLines back := by
  rw [tokenLines, Text.pieces_lineEnd, List.map_append, List.filter_append]
  rfl

theorem tokenLines_of_not_mem {chars : List Char} (h : '\n' ∉ chars) :
    tokenLines chars = [tokens chars].filter (· ≠ []) := by
  rw [tokenLines, Text.pieces_of_not_mem h, List.map_singleton]

theorem showsLineEnds_outsideStrings : State.ShowsLineEnds outsideStrings := ⟨rfl, rfl, rfl⟩

/-- Lines between brackets with the given tokens, line by line. -/
structure SpelledLines (outer : List Char) (lines : List SourceLine) (inner : List Char)
    (found : List (List String)) : Prop where
  reads : ∃ literals, Reads outer (renderAll lines) inner literals
  found_eq : tokenLines (leftBy outsideStrings outer lines) = found

namespace SpelledLines

variable {outer inner last : List Char} {lines : List SourceLine} {found more : List (List String)}

theorem nil (outer : List Char) : SpelledLines outer [] outer [] := ⟨⟨[], rfl⟩, rfl⟩

theorem line {text : String} {line : List String} (h : Spelled outer text inner line)
    (hline : line ≠ []) (depth : Nat) : SpelledLines outer [⟨depth, text⟩] inner [line] := by
  obtain ⟨literals, hreads⟩ := h.reads
  have hindent := plain_indentation depth
  have hend : Plain "\n" := by decide
  have hfront := (Reads.plain hindent outer).append hreads
  have hshown : leftBy outsideStrings outer [⟨depth, text⟩]
      = (List.replicate (4 * depth) ' ' ++ shown outer text) ++ ['\n'] := by
    change shown outer (renderAll [⟨depth, text⟩]) = _
    rw [renderAll_singleton, SourceLine.render, shown_append ⟨_, hfront⟩ ⟨_, .plain hend inner⟩,
      shown_append ⟨_, .plain hindent outer⟩ h.reads, shown_plain hindent, shown_plain hend,
      String.toList_ofList]
    rfl
  have hunbroken : '\n' ∉ List.replicate (4 * depth) ' ' ++ shown outer text := by
    rw [List.mem_append, not_or]
    exact ⟨fun hmem => absurd (List.eq_of_mem_replicate hmem) (by decide), h.unbroken⟩
  have htokens : tokens (List.replicate (4 * depth) ' ' ++ shown outer text) = line := by
    rw [tokens_append, tokens_blanks, h.tokens_eq, List.nil_append]
    intro x hx y _
    rw [List.eq_of_mem_replicate (List.mem_of_getLast? hx)]
    rfl
  refine ⟨⟨literals, hreads.render depth⟩, ?_⟩
  rw [hshown, tokenLines_lineEnd, tokenLines_of_not_mem hunbroken, htokens]
  simp [hline, tokenLines, Text.pieces, tokens]

theorem fixed {text token : String} {rest : List String}
    (h : Fixed [] text [] (token :: rest)) (depth : Nat) :
    SpelledLines [] [⟨depth, text⟩] [] [token :: rest] :=
  .line h.spelled (List.cons_ne_nil token rest) depth

theorem append {back : List SourceLine} (h : SpelledLines outer lines inner found)
    (hback : SpelledLines inner back last more) :
    SpelledLines outer (lines ++ back) last (found ++ more) := by
  obtain ⟨first, hfirst⟩ := h.reads
  obtain ⟨second, hsecond⟩ := hback.reads
  refine ⟨⟨first ++ second, ?_⟩, ?_⟩
  · rw [renderAll_append]
    exact hfirst.append hsecond
  · rw [read_leftBy_append rfl tokenLines_lineEnd showsLineEnds_outsideStrings hfirst hsecond,
      h.found_eq, hback.found_eq]

theorem under (h : SpelledLines outer lines inner found) (around : List Char) :
    SpelledLines (outer ++ around) lines (inner ++ around) found := by
  obtain ⟨literals, hreads⟩ := h.reads
  exact ⟨⟨literals, hreads.under around⟩, leftBy_under hreads around ▸ h.found_eq⟩

theorem flatMap {α : Type} {items : List α} {lines : α → List SourceLine}
    {found : α → List (List String)} (h : ∀ a ∈ items, SpelledLines [] (lines a) [] (found a)) :
    SpelledLines [] (items.flatMap lines) [] (items.flatMap found) := by
  induction items with
  | nil => exact nil []
  | cons a rest ih =>
      rw [List.flatMap_cons, List.flatMap_cons]
      exact (h a List.mem_cons_self).append (ih fun b hb => h b (List.mem_cons_of_mem a hb))

theorem comment (depth : Nat) (text : Option String) (deprecated : Bool) :
    SpelledLines [] (Comment.lines depth text deprecated) [] [] := by
  refine ⟨⟨[], ReadsLines.comment depth text deprecated⟩, ?_⟩
  have hcode : outsideStrings .code = true := rfl
  rcases leftBy_comment hcode depth text deprecated with hnone | hblank
  · rw [hnone]
    rfl
  · have hblanks : '\n' ∉ List.replicate (4 * depth) ' ' := fun h =>
      absurd (List.eq_of_mem_replicate h) (by decide)
    rw [hblank, tokenLines_lineEnd, tokenLines_of_not_mem hblanks, tokens_blanks]
    rfl

theorem blank : SpelledLines [] [.blank] [] [] := ⟨⟨[], ReadsLines.blank⟩, by decide⟩

theorem block {header : String} {body : List SourceLine} {line : List String}
    (hheader : Spelled [] header [] line) (hbody : SpelledLines [] body [] found) (depth : Nat) :
    SpelledLines [] (Source.block depth header body) []
      ((line ++ ["\x7b"]) :: (found ++ [["\x7d"]])) := by
  have hopen : Sign [] " \x7b" ['\x7d'] ["\x7b"] := by decide
  have hclose : Fixed ['\x7d'] "\x7d" [] ["\x7d"] := by decide
  have hall := ((SpelledLines.line (hheader.sign hopen).toSpelled (by simp) depth).append
    (hbody.under ['\x7d'])).append (.line hclose.spelled (by simp) depth)
  exact hall

end SpelledLines

/-! ### What signs come to -/

theorem usedAfter_wordless {line : List String} (h : Wordless line)
    (previous : Option String) : usedAfter previous line = [] := by
  induction line generalizing previous with
  | nil => rfl
  | cons token rest ih =>
      rw [Wordless, List.forall_mem_cons] at h
      rw [usedAfter, ih h.2, usesType, h.1]
      rfl

/-- What stands behind a sign is no matter of what stands before it. -/
theorem usedAfter_sign {sign : String} {more : List String} (hmore : Wordless (sign :: more))
    (line : List String) (previous : Option String) :
    usedAfter previous (line ++ sign :: more) = usedAfter previous (line ++ [sign]) := by
  induction line generalizing previous with
  | nil =>
      have hsign : Wordless [sign] := List.forall_mem_singleton.mpr (hmore sign List.mem_cons_self)
      rw [List.nil_append, List.nil_append, usedAfter_wordless hmore,
        usedAfter_wordless hsign]
  | cons token rest ih =>
      have hhead : (rest ++ sign :: more).head? = (rest ++ [sign]).head? := by
        cases rest <;> rfl
      rw [List.cons_append, List.cons_append, usedAfter, usedAfter, ih, hhead]

theorem parameters_brace (line more : List String) :
    parameters (line ++ "\x7b" :: more) = parameters (line ++ ["\x7b"]) := by
  induction line with
  | nil => rfl
  | cons token rest ih =>
      unfold parameters at ih ⊢
      rw [List.cons_append, List.cons_append, List.dropWhile_cons, List.dropWhile_cons]
      split_ifs with hword
      · exact ih
      · cases rest <;> rfl

theorem lineUses_wordless {line : List String} (h : Wordless line) (outer : List String) :
    lineUses outer line = [] := by
  rw [lineUses, usedIn, usedAfter_wordless h]
  rfl

theorem lineUses_brace {more : List String} (h : Wordless more) (outer line : List String) :
    lineUses outer (line ++ "\x7b" :: more) = lineUses outer (line ++ ["\x7b"]) := by
  have hmore : Wordless ("\x7b" :: more) := List.forall_mem_cons.mpr ⟨by decide, h⟩
  rw [lineUses, lineUses, usedIn, usedIn, usedAfter_sign hmore, parameters_brace]

/-- A block uses what its header and its body use, whether it has a body or not. -/
theorem SpelledLines.blockOrEmpty {header : String} {body : List SourceLine} {line : List String}
    {found : List (List String)} (hheader : Spelled [] header [] line)
    (hbody : SpelledLines [] body [] found) (depth : Nat) :
    ∃ all, SpelledLines [] (Source.blockOrEmpty depth header body) [] all
      ∧ usesOf all = usesOf ((line ++ ["\x7b"]) :: found) := by
  cases body with
  | nil =>
      have hempty : Sign [] " \x7b\x7d" [] ["\x7b", "\x7d"] := by decide
      have hfound : found = [] := hbody.found_eq.symm
      refine ⟨_, .line (hheader.sign hempty).toSpelled (by simp) depth, ?_⟩
      rw [hfound, usesOf, usesOf, lineUses_brace (by decide)]
      rfl
  | cons first rest =>
      refine ⟨_, .block hheader hbody depth, ?_⟩
      have hclose : lineUses (parameters (line ++ ["\x7b"])) ["\x7d"] = [] :=
        lineUses_wordless (by decide) _
      rw [usesOf, usesOf, List.flatMap_append, List.flatMap_singleton, hclose, List.append_nil]

/-! ### Uses in a text -/

/-- An identifier that is the name of a type where it stands for one. -/
structure TypeWord (name : String) : Prop where
  identifier : isIdentifier name = true
  free : name ∉ valueWords

namespace TypeWord

variable {name : String}

theorem spelled (h : TypeWord name) (outer : List Char) : Spelled outer name outer [name] :=
  spelled_identifier h.identifier outer

theorem isWord (h : TypeWord name) : isWord name = true := isWord_of_isIdentifier h.identifier

end TypeWord

/-- The uses in a text are those of its lines. -/
theorem typeUses?_renderAll {lines : List SourceLine} {found : List (List String)}
    (h : SpelledLines [] lines [] found) : typeUses? (renderAll lines) = some (usesOf found) := by
  obtain ⟨literals, hreads⟩ := h.reads
  rw [typeUses?, scan_eq_of_reads hreads, Option.map_some, ← h.found_eq]
  rfl

/-- Lines whose type names are used as given. -/
def UsesIn (lines : List SourceLine) (uses : List (String × List String)) : Prop :=
  ∃ found, SpelledLines [] lines [] found ∧ usesOf found = uses

theorem UsesIn.comment {lines : List SourceLine} {uses : List (String × List String)}
    (h : UsesIn lines uses) (text : Option String) :
    UsesIn (Comment.lines 0 text false ++ lines) uses := by
  obtain ⟨found, hlines, huses⟩ := h
  exact ⟨found, (SpelledLines.comment 0 text false).append hlines, huses⟩


end TelemetryTypes.Lexical
