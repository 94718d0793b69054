import TelemetryTypes.Proofs.Lexical.Literals
import TelemetryTypes.Proofs.Text.Pieces

/-!
# Values as they are read

Readers of what a source holds as data: literals, lists of them, property keys and flags. A reader
goes by the characters alone and returns the value and what follows it, so it can be asked what any
text says. Of a text that was written for a value, each returns that value and leaves what follows,
whatever the value is; a key and a list have to be told from what follows, and are.
-/

namespace TelemetryTypes.Lexical

open Text (escapeLiteral isIdentifier isIdentifierPart)

/-! ### Words among other text -/

theorem Word.takeWhile_append {name : String} {rest : List Char} (h : Word name)
    (hrest : ∀ c ∈ rest.head?, isIdentifierPart c = false) :
    (name.toList ++ rest).takeWhile isIdentifierPart = name.toList := by
  have hstop : rest.takeWhile isIdentifierPart = [] := by
    cases rest with
    | nil => rfl
    | cons c more => simp [hrest c rfl]
  rw [List.takeWhile_append_of_pos (word_iff.mp h), hstop, List.append_nil]

theorem Word.dropWhile_append {name : String} {rest : List Char} (h : Word name)
    (hrest : ∀ c ∈ rest.head?, isIdentifierPart c = false) :
    (name.toList ++ rest).dropWhile isIdentifierPart = rest := by
  rw [List.dropWhile_append_of_pos (word_iff.mp h)]
  cases rest with
  | nil => rfl
  | cons c more => simp [hrest c rfl]

/-! ### Readers -/

/-- Reads a value at the front of a text, and returns it and what follows. -/
abbrev Reader := StateT (List Char) Option

namespace Reader

/-- Passes over a text, which has to be there. -/
def expect (text : String) : Reader Unit := fun s => (text.toList.isPrefixOf? s).map ((), ·)

/-- The characters of a literal behind its opening quote, and what follows its closing one. -/
def literalBody : List Char → Option (List Char × List Char)
  | [] => none
  | '\'' :: rest => some ([], rest)
  | '\\' :: c :: rest =>
    (escaped? c).bind fun e => (literalBody rest).map fun (value, rest) => (e :: value, rest)
  | c :: rest =>
    if c = '\\' ∨ c = '\n' ∨ c = '\r' then none
    else (literalBody rest).map fun (value, rest) => (c :: value, rest)

def literal : Reader String
  | '\'' :: rest => (literalBody rest).map fun (value, rest) => (String.ofList value, rest)
  | _ => none

/-- Reads a property key: a literal, or else as much of an identifier as there is. -/
def key : Reader String := fun s =>
  if s.head? = some '\'' then literal s
  else
    let name := String.ofList (s.takeWhile isIdentifierPart)
    if isIdentifier name then some (name, s.dropWhile isIdentifierPart) else none

/-- Reads as much of a word as there is. -/
def word : Reader String := fun s =>
  some (String.ofList (s.takeWhile isIdentifierPart), s.dropWhile isIdentifierPart)

def flag : Reader Bool := fun s =>
  match "true".toList.isPrefixOf? s with
  | some rest => some (true, rest)
  | none => ("false".toList.isPrefixOf? s).map (false, ·)

/-- Reads literals for as long as there is a separator before the next one. -/
def literalsAfter (separator : String) (s : List Char) : Option (List String × List Char) :=
  match separator.toList.isPrefixOf? s with
  | none => some ([], s)
  | some next =>
    match literal next with
    | none => none
    | some (value, rest) =>
      if _shorter : rest.length < s.length then
        (literalsAfter separator rest).map fun (values, rest) => (value :: values, rest)
      else none
termination_by s.length

/-- Reads a list of literals, which may be empty. -/
def literals (separator : String) : Reader (List String) := fun s =>
  if s.head? = some '\'' then
    (literal s).bind fun (value, rest) =>
      (literalsAfter separator rest).map fun (values, rest) => (value :: values, rest)
  else some ([], s)

/-! ### Reading what was written -/

variable {α β : Type} {s rest : List Char}

theorem bind_of_eq {r : Reader α} {a : α} (h : r s = some (a, rest)) (next : α → Reader β) :
    (r >>= next) s = next a rest := by
  change (r s >>= fun p => next p.1 p.2) = _
  rw [h]
  rfl

theorem isPrefixOf?_append (front rest : List Char) :
    front.isPrefixOf? (front ++ rest) = some rest := by
  induction front with
  | nil => rfl
  | cons c more ih => simp [List.isPrefixOf?, ih]

theorem expect_append (text : String) (rest : List Char) :
    expect text (text.toList ++ rest) = some ((), rest) := by
  rw [expect, isPrefixOf?_append, Option.map_some]

theorem flag_append (b : Bool) (rest : List Char) :
    flag ((if b then "true" else "false").toList ++ rest) = some (b, rest) := by
  cases b <;> rfl

/-! ### Literals -/

/-- A character that needs no escape stands for itself. -/
theorem literalBody_cons {c : Char} (h : c ∉ ['\'', '\\', '\n', '\r']) (s : List Char) :
    literalBody (c :: s) = (literalBody s).map fun (value, rest) => (c :: value, rest) := by
  simp only [List.mem_cons, List.not_mem_nil, or_false, not_or] at h
  rw [literalBody, if_neg (by simp [h])]
  · exact h.1
  · exact fun _ _ hc => absurd hc h.2.1

theorem literalBody_escape {e c : Char} (h : escaped? e = some c) (s : List Char) :
    literalBody ('\\' :: e :: s)
      = (literalBody s).map fun (value, rest) => (c :: value, rest) := by
  rw [literalBody, h, Option.bind_some]

theorem literalBody_escapeLiteral (c : Char) (s : List Char) :
    literalBody (escapeLiteral c ++ s)
      = (literalBody s).map fun (value, rest) => (c :: value, rest) := by
  rcases escapeLiteral_cases c with ⟨hself, hnot⟩ | ⟨e, hescape, hmeant⟩
  · rw [hself, List.singleton_append]
    exact literalBody_cons (mt (List.mem_append_left ['\t']) hnot) s
  · rw [hescape]
    exact literalBody_escape hmeant s

theorem literalBody_flatMap_escapeLiteral (chars rest : List Char) :
    literalBody (chars.flatMap escapeLiteral ++ '\'' :: rest) = some (chars, rest) := by
  induction chars with
  | nil => rfl
  | cons c more ih =>
      rw [List.flatMap_cons, List.append_assoc, literalBody_escapeLiteral, ih, Option.map_some]

/-- A literal is read as the value it was made from. -/
theorem literal_append (value : String) (rest : List Char) :
    literal ((Text.literal value).toList ++ rest) = some (value, rest) := by
  rw [Text.toList_literal, Text.literalChars, List.cons_append, List.append_assoc,
    List.singleton_append, literal, literalBody_flatMap_escapeLiteral, Option.map_some]
  simp only [String.ofList_toList]

theorem literalsAfter_flatMap {separator : String} (hend : separator.toList.isPrefixOf? rest = none)
    (values : List String) :
    literalsAfter separator
        (values.flatMap (fun v => separator.toList ++ (Text.literal v).toList) ++ rest)
      = some (values, rest) := by
  induction values with
  | nil => rw [List.flatMap_nil, List.nil_append, literalsAfter, hend]
  | cons v more ih =>
      generalize hmore : more.flatMap (fun v => separator.toList ++ (Text.literal v).toList) ++ rest
        = next at ih
      have htext :
          (v :: more).flatMap (fun v => separator.toList ++ (Text.literal v).toList) ++ rest
            = separator.toList ++ ((Text.literal v).toList ++ next) := by
        rw [List.flatMap_cons, List.append_assoc, List.append_assoc, hmore]
      have hshorter :
          next.length < (separator.toList ++ ((Text.literal v).toList ++ next)).length := by
        simp [Text.literalChars]
        omega
      rw [htext, literalsAfter, isPrefixOf?_append]
      simp only [literal_append, dif_pos hshorter, ih, Option.map_some]

theorem toList_literalList_cons (separator v : String) (values : List String) :
    (Source.literalList separator (v :: values)).toList
      = (Text.literal v).toList
        ++ values.flatMap fun w => separator.toList ++ (Text.literal w).toList := by
  rw [Source.literalList, List.map_cons, Text.toList_intercalate_cons, List.flatMap_map]

/-- A list of literals is read as the values it was made from, if what follows it goes on with
neither a separator nor a literal. -/
theorem literals_append {separator : String} (hend : separator.toList.isPrefixOf? rest = none)
    (hquote : rest.head? ≠ some '\'') (values : List String) :
    literals separator ((Source.literalList separator values).toList ++ rest)
      = some (values, rest) := by
  cases values with
  | nil =>
      have hempty : (Source.literalList separator []).toList = [] := rfl
      rw [hempty, List.nil_append, literals, if_neg hquote]
  | cons v more =>
      have hopen : ((Text.literal v).toList ++ (more.flatMap
          (fun w => separator.toList ++ (Text.literal w).toList) ++ rest)).head? = some '\'' := by
        simp [Text.literalChars]
      rw [toList_literalList_cons, List.append_assoc, literals, if_pos hopen, literal_append]
      simp only [Option.bind_some, literalsAfter_flatMap hend, Option.map_some]

/-! ### Property keys and words -/

/-- A word is read as it stands, if what follows it is no part of one. -/
theorem word_append {name : String} (h : Word name)
    (hrest : ∀ c ∈ rest.head?, isIdentifierPart c = false) :
    word (name.toList ++ rest) = some (name, rest) := by
  rw [word, h.takeWhile_append hrest, h.dropWhile_append hrest, String.ofList_toList]

theorem key_eq_literal {s : List Char} (h : s.head? = some '\'') : key s = literal s := if_pos h

/-- A bare key is read as it stands, if what follows it is no part of one. -/
theorem key_append_of_isIdentifier {name : String} (h : isIdentifier name = true)
    (hrest : ∀ c ∈ rest.head?, isIdentifierPart c = false) :
    key (name.toList ++ rest) = some (name, rest) := by
  have hword := word_of_isIdentifier h
  have hopen : (name.toList ++ rest).head? ≠ some '\'' := by
    cases hchars : name.toList with
    | nil => simp [isIdentifier, hchars, Text.isIdentifierChars] at h
    | cons c more =>
        have hc := word_iff.mp hword c (hchars ▸ List.mem_cons_self)
        rintro heq
        obtain rfl : c = '\'' := by simpa using heq
        exact absurd hc (by decide)
  rw [key, if_neg hopen, hword.takeWhile_append hrest, hword.dropWhile_append hrest,
    String.ofList_toList, if_pos h]

/-- A property key is read as the name it was made from, if what follows it is no part of one. -/
theorem key_append (hrest : ∀ c ∈ rest.head?, isIdentifierPart c = false) (name : String) :
    key ((Text.propertyKey name).toList ++ rest) = some (name, rest) := by
  unfold Text.propertyKey
  split_ifs with hname
  · exact key_append_of_isIdentifier hname hrest
  · have hopen : ((Text.literal name).toList ++ rest).head? = some '\'' := by
      simp [Text.literalChars]
    rw [key_eq_literal hopen, literal_append]

end Reader

end TelemetryTypes.Lexical
