import Mathlib.Tactic.IntervalCases
import TelemetryTypes.Json.Parser
import TelemetryTypes.Json.Printer
import TelemetryTypes.Proofs.Json.Entries
import TelemetryTypes.Proofs.Text.Pieces

/-!
# Printed values as they are read

A value that is printed in lines is read back as it was: a string whatever characters it has, an
array with its items, an object with its entries. What a reader does with the text of a value does
not depend on what follows it, so texts are taken one behind the other. `Legible` leaves out
numbers, and what has brackets too deep within each other or keys out of order.
-/

namespace TelemetryTypes.Json

/-- A value without numbers that opens at most so many brackets within each other and has the keys
of every object in strict order. -/
inductive Legible : Nat → Json → Prop
  | null {depth : Nat} : Legible depth .null
  | bool {depth : Nat} (b : Bool) : Legible depth (.bool b)
  | string {depth : Nat} (s : String) : Legible depth (.string s)
  | array {depth : Nat} {items : List Json} (hitems : ∀ item ∈ items, Legible depth item) :
    Legible (depth + 1) (.array items)
  | object {depth : Nat} {entries : List (String × Json)}
    (hkeys : entries.Pairwise (·.1 < ·.1)) (hvalues : ∀ entry ∈ entries, Legible depth entry.2) :
    Legible (depth + 1) (.object entries)

variable {done rest : List Char} {depth : Nat}

theorem legible_ofEntries {es : List (String × Json)} (hnodup : (es.map Prod.fst).Nodup)
    (hvalues : ∀ e ∈ es, Legible depth e.2) : Legible (depth + 1) (ofEntries es) := by
  refine .object (pairwise_foldl_insert .nil) fun e he => ?_
  exact hvalues e ((@foldl_insert_perm es [] hnodup).mem_iff.mp he)

/-! ### Strings -/

theorem hexUnit?_control {n : Nat} (hn : n < 0x20) (rest : List Char) :
    hexUnit? (List.replicate (4 - (Text.hexDigits n).length) '0' ++ Text.hexDigits n ++ rest)
      = some (n, rest) := by
  interval_cases n <;> rfl

theorem codeEscape_of_hexUnit? {s : List Char} {n : Nat} (hn : n < 0x20)
    (h : hexUnit? s = some (n, rest)) : codeEscape s = .ok (Char.ofNat n, rest) := by
  have hunit : hexUnit s = .ok (n, rest) := by rw [hexUnit, h]
  have htrail : ¬(0xDC00 ≤ n && n ≤ 0xDFFF) = true := by simp; omega
  have hplain : (n < 0xD800 || 0xDBFF < n) = true := by simp; omega
  rw [codeEscape, hunit]
  change (if _ then _ else _) = _
  rw [if_neg htrail, if_pos hplain]

theorem stringBody_of_escape {c : Char} {s : List Char} (h : escape s = .ok (c, rest))
    (hshorter : rest.length < s.length + 1) (done : List Char) :
    stringBody done ('\\' :: s) = stringBody (c :: done) rest := by
  rw [stringBody, h]
  exact dif_pos hshorter

theorem stringBody_escapeChar (done : List Char) (c : Char) (rest : List Char) :
    stringBody done (escapeChar c ++ rest) = stringBody (c :: done) rest := by
  have hshort (e : Char) : rest.length < (e :: rest).length + 1 := by
    rw [List.length_cons]
    omega
  unfold escapeChar
  split_ifs with hquote hbackslash hfeed hreturn htab hback hform hcontrol
  · rw [hquote]
    exact stringBody_of_escape rfl (hshort '"') done
  · rw [hbackslash]
    exact stringBody_of_escape rfl (hshort '\\') done
  · rw [hfeed]
    exact stringBody_of_escape rfl (hshort 'n') done
  · rw [hreturn]
    exact stringBody_of_escape rfl (hshort 'r') done
  · rw [htab]
    exact stringBody_of_escape rfl (hshort 't') done
  · rw [hback]
    exact stringBody_of_escape rfl (hshort 'b') done
  · rw [hform]
    exact stringBody_of_escape rfl (hshort 'f') done
  · have hcode := codeEscape_of_hexUnit? hcontrol (hexUnit?_control hcontrol rest)
    rw [Char.ofNat_toNat] at hcode
    have hescape : escape ('u' :: (List.replicate (4 - (Text.hexDigits c.toNat).length) '0'
        ++ Text.hexDigits c.toNat ++ rest)) = .ok (c, rest) := hcode
    refine Eq.trans ?_ (stringBody_of_escape hescape (by simp; omega) done)
    simp
  · rw [List.singleton_append, stringBody, if_neg hcontrol]
    · exact hquote
    · exact fun h => absurd h hbackslash

theorem stringBody_flatMap_escapeChar (done chars rest : List Char) :
    stringBody done (chars.flatMap escapeChar ++ '"' :: rest)
      = .ok (String.ofList (done.reverse ++ chars), rest) := by
  induction chars generalizing done with
  | nil => rw [List.flatMap_nil, List.nil_append, stringBody, List.append_nil]
  | cons c more ih =>
      rw [List.flatMap_cons, List.append_assoc, stringBody_escapeChar, ih, List.reverse_cons,
        List.append_assoc, List.singleton_append]

theorem toList_stringText (s : String) :
    (stringText s).toList = '"' :: (s.toList.flatMap escapeChar ++ ['"']) := by
  rw [stringText, String.toList_ofList]

/-- A string is read as it was, whatever characters it has. -/
theorem stringBody_stringText (s : String) (rest : List Char) :
    stringBody [] (s.toList.flatMap escapeChar ++ '"' :: rest) = .ok (s, rest) := by
  rw [stringBody_flatMap_escapeChar, List.reverse_nil, List.nil_append, String.ofList_toList]

/-! ### Between values -/

/-- The characters that the text of a value begins with. -/
def openers : List Char := ['n', 't', 'f', '"', '[', '\x7b']

/-- A reader reads a text as a value, whatever follows it. -/
def ReadsBack (item : List Char → Attempt (Json × List Char)) (text : String) (value : Json) :
    Prop :=
  (∃ c more, text.toList = c :: more ∧ c ∈ openers)
    ∧ ∀ rest, item (text.toList ++ rest) = .ok (value, rest)

theorem ReadsBack.of_toList {item : List Char → Attempt (Json × List Char)} {text : String}
    {value : Json} {c : Char} {tail : List Char} (htext : text.toList = c :: tail)
    (hc : c ∈ openers) (hread : ∀ rest, item (c :: (tail ++ rest)) = .ok (value, rest)) :
    ReadsBack item text value := by
  refine ⟨⟨c, tail, htext, hc⟩, fun rest => ?_⟩
  rw [htext]
  exact hread rest

theorem skipSpace_newline {c : Char} (hc : isSpace c = false) (level : Nat) (rest : List Char) :
    skipSpace ((newline level).toList ++ c :: rest) = c :: rest := by
  have hblank : ∀ e ∈ (newline level).toList, isSpace e = true := by
    intro e he
    simp only [newline, String.toList_append, String.toList_ofList] at he
    rcases List.mem_append.mp he with hfeed | hspace
    · rw [List.mem_singleton.mp hfeed]
      rfl
    · rw [List.eq_of_mem_replicate hspace]
      rfl
  rw [skipSpace, List.dropWhile_append_of_pos hblank, List.dropWhile_cons_of_neg]
  simp [hc]

theorem opener_apart {c : Char} (hc : c ∈ openers) :
    isSpace c = false ∧ c ≠ ']' ∧ c ≠ '\x7d' := by
  have hall : openers.all (fun c => !isSpace c && c != ']' && c != '\x7d') = true := by decide
  simpa [and_assoc] using List.all_eq_true.mp hall c hc

section Brackets

variable {item : List Char → Attempt (Json × List Char)}

theorem items_cons {c : Char} {tail next : List Char} {v : Json} (hc : c ∈ openers)
    (hread : item (c :: (tail ++ next)) = .ok (v, next)) (level : Nat) (done : List Json) :
    items item done (',' :: ((newline level).toList ++ c :: (tail ++ next)))
      = items item (v :: done) next := by
  obtain ⟨hspace, hclose, -⟩ := opener_apart hc
  have hcomma : skipSpace (',' :: ((newline level).toList ++ c :: (tail ++ next)))
      = ',' :: ((newline level).toList ++ c :: (tail ++ next)) := rfl
  have hshorter :
      next.length < (',' :: ((newline level).toList ++ c :: (tail ++ next))).length := by
    simp only [List.length_cons, List.length_append]
    omega
  rw [items, hcomma]
  simp only [skipSpace_newline hspace]
  split
  next heq => cases heq
  next heq => exact absurd (List.cons.inj heq).1 hclose
  next => rw [hread]; exact dif_pos hshorter

theorem items_flatMap {text : Json → String} {values : List Json}
    (h : ∀ v ∈ values, ReadsBack item (text v) v) (level outer : Nat) (done : List Json) :
    items item done (values.flatMap (fun v => ',' :: ((newline level).toList ++ (text v).toList))
        ++ ((newline outer).toList ++ ']' :: rest))
      = .ok (done.reverse ++ values, rest) := by
  induction values generalizing done with
  | nil =>
      rw [List.flatMap_nil, List.nil_append, items, skipSpace_newline rfl, List.append_nil]
      rfl
  | cons v more ih =>
      rw [List.forall_mem_cons] at h
      obtain ⟨⟨⟨c, tail, htext, hc⟩, hread⟩, hmore⟩ := h
      specialize ih hmore (v :: done)
      rw [List.flatMap_cons, List.append_assoc]
      generalize more.flatMap (fun v => ',' :: ((newline level).toList ++ (text v).toList))
        ++ ((newline outer).toList ++ ']' :: rest) = next at ih
      rw [htext] at hread
      rw [htext, List.cons_append, List.append_assoc, List.cons_append,
        items_cons hc (hread next), ih, List.reverse_cons, List.append_assoc, List.singleton_append]

theorem arrayBody_append {text : Json → String} {first : Json} {more : List Json}
    (h : ∀ v ∈ first :: more, ReadsBack item (text v) v) (level outer : Nat) :
    arrayBody item ((newline level).toList ++ ((text first).toList
        ++ (more.flatMap (fun v => ',' :: ((newline level).toList ++ (text v).toList))
          ++ ((newline outer).toList ++ ']' :: rest))))
      = .ok (.array (first :: more), rest) := by
  rw [List.forall_mem_cons] at h
  obtain ⟨⟨⟨c, tail, htext, hc⟩, hread⟩, hmore⟩ := h
  obtain ⟨hspace, hclose, -⟩ := opener_apart hc
  have hitems := @items_flatMap rest item text more hmore level outer [first]
  generalize more.flatMap (fun v => ',' :: ((newline level).toList ++ (text v).toList))
    ++ ((newline outer).toList ++ ']' :: rest) = next at hitems
  have hfirst := hread next
  rw [htext, List.cons_append] at hfirst ⊢
  rw [arrayBody, skipSpace_newline hspace]
  split
  next heq => cases heq
  next heq => exact absurd (List.cons.inj heq).1 hclose
  next =>
    rw [hfirst]
    change (items item [first] next >>= _) = _
    rw [hitems]
    rfl

variable (hskip : ∀ s, item (' ' :: s) = item s)
include hskip

theorem entry_append {text : String} {v : Json} (h : ReadsBack item text v) (key : String)
    (next : List Char) :
    entry item ((stringText key).toList ++ ':' :: ' ' :: (text.toList ++ next))
      = .ok ((key, v), next) := by
  rw [toList_stringText, List.cons_append, List.append_assoc, List.singleton_append, entry,
    stringBody_stringText]
  change (item (' ' :: (text.toList ++ next)) >>= _) = _
  rw [hskip, h.2]
  rfl

theorem entries_cons {text : String} {v : Json} (h : ReadsBack item text v) (level : Nat)
    (key : String) (next : List Char) (done : List (String × Json)) :
    entries item done (',' :: ((newline level).toList
        ++ ((stringText key).toList ++ ':' :: ' ' :: (text.toList ++ next))))
      = entries item ((key, v) :: done) next := by
  have hread := entry_append hskip h key next
  have hcomma (s : List Char) : skipSpace (',' :: s) = ',' :: s := rfl
  have hquote : isSpace '"' = false := rfl
  have hshorter : next.length < (',' :: ((newline level).toList
      ++ ((stringText key).toList ++ ':' :: ' ' :: (text.toList ++ next)))).length := by
    simp
    omega
  rw [toList_stringText, List.cons_append] at hread hshorter ⊢
  rw [entries, hcomma]
  simp only [skipSpace_newline hquote]
  split
  next heq => cases heq
  next heq => exact absurd (List.cons.inj heq).1 (by decide)
  next => rw [hread]; exact dif_pos hshorter

theorem entries_flatMap {text : Json → String} {es : List (String × Json)}
    (h : ∀ e ∈ es, ReadsBack item (text e.2) e.2) (level outer : Nat)
    (done : List (String × Json)) :
    entries item done (es.flatMap (fun e => ',' :: ((newline level).toList
          ++ ((stringText e.1).toList ++ ':' :: ' ' :: (text e.2).toList)))
        ++ ((newline outer).toList ++ '\x7d' :: rest))
      = .ok (done.reverse ++ es, rest) := by
  induction es generalizing done with
  | nil =>
      rw [List.flatMap_nil, List.nil_append, entries, skipSpace_newline rfl, List.append_nil]
      rfl
  | cons e more ih =>
      rw [List.forall_mem_cons] at h
      specialize ih h.2 (e :: done)
      rw [List.flatMap_cons, List.append_assoc]
      generalize more.flatMap (fun e => ',' :: ((newline level).toList
        ++ ((stringText e.1).toList ++ ':' :: ' ' :: (text e.2).toList)))
        ++ ((newline outer).toList ++ '\x7d' :: rest) = next at ih
      simp only [List.cons_append, List.append_assoc]
      rw [entries_cons hskip h.1, ih, List.reverse_cons, List.append_assoc, List.singleton_append]

theorem objectBody_append {text : Json → String} {first : String × Json}
    {more : List (String × Json)} (h : ∀ e ∈ first :: more, ReadsBack item (text e.2) e.2)
    (level outer : Nat) :
    objectBody item ((newline level).toList
        ++ ((stringText first.1).toList ++ ':' :: ' ' :: ((text first.2).toList
          ++ (more.flatMap (fun e => ',' :: ((newline level).toList
              ++ ((stringText e.1).toList ++ ':' :: ' ' :: (text e.2).toList)))
            ++ ((newline outer).toList ++ '\x7d' :: rest)))))
      = .ok (.ofEntries (first :: more), rest) := by
  rw [List.forall_mem_cons] at h
  have hentries := @entries_flatMap rest item hskip text more h.2 level outer [first]
  generalize more.flatMap (fun e => ',' :: ((newline level).toList
    ++ ((stringText e.1).toList ++ ':' :: ' ' :: (text e.2).toList)))
    ++ ((newline outer).toList ++ '\x7d' :: rest) = next at hentries
  have hfirst := entry_append hskip h.1 first.1 next
  have hquote : isSpace '"' = false := rfl
  rw [toList_stringText, List.cons_append] at hfirst ⊢
  rw [objectBody, skipSpace_newline hquote]
  split
  next heq => cases heq
  next heq => exact absurd (List.cons.inj heq).1 (by decide)
  next =>
    rw [hfirst]
    change (entries item [first] next >>= _) = _
    rw [hentries]
    rfl

end Brackets

/-! ### Values -/

theorem indentedItems_eq (level : Nat) (items : List Json) :
    indentedItems level items = items.map fun v => newline level ++ indented level v := by
  induction items with
  | nil => rfl
  | cons v more ih => rw [indentedItems, ih, List.map_cons]

theorem indentedEntries_eq (level : Nat) (entries : List (String × Json)) :
    indentedEntries level entries
      = entries.map fun e => newline level ++ stringText e.1 ++ ": " ++ indented level e.2 := by
  induction entries with
  | nil => rfl
  | cons e more ih => rw [indentedEntries, ih, List.map_cons]

theorem toList_indented_array (level : Nat) (first : Json) (more : List Json) :
    (indented level (.array (first :: more))).toList
      = '[' :: ((newline (level + 1)).toList ++ ((indented (level + 1) first).toList
        ++ (more.flatMap (fun v => ',' :: ((newline (level + 1)).toList
            ++ (indented (level + 1) v).toList)) ++ ((newline level).toList ++ [']'])))) := by
  rw [indented, indentedItems_eq, List.map_cons, String.toList_append, String.toList_append,
    String.toList_append, Text.toList_intercalate_cons]
  · simp [List.flatMap_map]
  · exact fun h => nomatch h

theorem toList_indented_object (level : Nat) (first : String × Json) (more : List (String × Json)) :
    (indented level (.object (first :: more))).toList
      = '\x7b' :: ((newline (level + 1)).toList ++ ((stringText first.1).toList
        ++ ':' :: ' ' :: ((indented (level + 1) first.2).toList
        ++ (more.flatMap (fun e => ',' :: ((newline (level + 1)).toList
            ++ ((stringText e.1).toList ++ ':' :: ' ' :: (indented (level + 1) e.2).toList)))
          ++ ((newline level).toList ++ ['\x7d']))))) := by
  rw [indented, indentedEntries_eq, List.map_cons, String.toList_append, String.toList_append,
    String.toList_append, Text.toList_intercalate_cons]
  · simp [List.flatMap_map]
  · exact fun h => nomatch h

theorem value_space (depth : Nat) (s : List Char) : value depth (' ' :: s) = value depth s := by
  have hskip : skipSpace (' ' :: s) = skipSpace s := rfl
  rw [value, value, hskip]

theorem value_stringText (depth : Nat) (s : String) (rest : List Char) :
    value depth ((stringText s).toList ++ rest) = .ok (.string s, rest) := by
  have hskip (more : List Char) : skipSpace ('"' :: more) = '"' :: more := rfl
  rw [toList_stringText, List.cons_append, List.append_assoc, List.singleton_append, value, hskip]
  change (stringBody [] _ >>= _) = _
  rw [stringBody_stringText]
  rfl

theorem value_array (depth : Nat) (s : List Char) :
    value (depth + 1) ('[' :: s) = arrayBody (value depth) s := by
  have hskip : skipSpace ('[' :: s) = '[' :: s := rfl
  rw [value, hskip]
  rfl

theorem value_object (depth : Nat) (s : List Char) :
    value (depth + 1) ('\x7b' :: s) = objectBody (value depth) s := by
  have hskip : skipSpace ('\x7b' :: s) = '\x7b' :: s := rfl
  rw [value, hskip]
  rfl

/-- What is printed of a value is read as the value, whatever follows it. -/
theorem readsBack_indented {v : Json} (h : Legible depth v) (level : Nat) :
    ReadsBack (value depth) (indented level v) v := by
  induction h generalizing level with
  | null =>
      have htext : (indented level .null).toList = ['n', 'u', 'l', 'l'] := by
        rw [indented]
        rfl
      refine .of_toList htext (by decide) fun rest => ?_
      rw [value]
      rfl
  | bool b =>
      cases b with
      | true =>
          have htext : (indented level (.bool true)).toList = ['t', 'r', 'u', 'e'] := by
            rw [indented]
            rfl
          refine .of_toList htext (by decide) fun rest => ?_
          rw [value]
          rfl
      | false =>
          have htext : (indented level (.bool false)).toList = ['f', 'a', 'l', 's', 'e'] := by
            rw [indented]
            rfl
          refine .of_toList htext (by decide) fun rest => ?_
          rw [value]
          rfl
  | string s =>
      have htext : indented level (.string s) = stringText s := by rw [indented]
      rw [htext]
      exact ⟨⟨_, _, toList_stringText s, by decide⟩, value_stringText _ s⟩
  | array hitems ih =>
      rename_i items
      cases items with
      | nil =>
          have htext : (indented level (.array [])).toList = ['[', ']'] := by
            rw [indented]
            rfl
          refine .of_toList htext (by decide) fun rest => ?_
          rw [value_array]
          rfl
      | cons first more =>
          refine .of_toList (toList_indented_array level first more) (by decide) fun rest => ?_
          rw [value_array]
          simp only [List.append_assoc, List.singleton_append]
          exact arrayBody_append (fun v hv => ih v hv (level + 1)) (level + 1) level
  | object hkeys hvalues ih =>
      rename_i entries
      cases entries with
      | nil =>
          have htext : (indented level (.object [])).toList = ['\x7b', '\x7d'] := by
            rw [indented]
            rfl
          refine .of_toList htext (by decide) fun rest => ?_
          rw [value_object]
          rfl
      | cons first more =>
          have hvalue (e : String × Json) (he : e ∈ first :: more) := ih e he (level + 1)
          refine .of_toList (toList_indented_object level first more) (by decide) fun rest => ?_
          rw [value_object, ← ofEntries_of_pairwise hkeys]
          simp only [List.append_assoc, List.cons_append, List.nil_append]
          exact objectBody_append (value_space _) hvalue (level + 1) level

/-- What is printed of a value as a document is read as the value. -/
theorem parse_pretty {v : Json} (h : Legible maxNesting v) : parse (v.pretty ++ "\n") = .ok v := by
  have hread := (readsBack_indented h 0).2 ['\n']
  have htext : (v.pretty ++ "\n").toList = (indented 0 v).toList ++ ['\n'] := by
    rw [String.toList_append]
    rfl
  have hdocument : document (v.pretty ++ "\n").toList = .ok v := by
    rw [document, htext, hread]
    rfl
  rw [parse, hdocument]

end TelemetryTypes.Json
