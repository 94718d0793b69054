import Mathlib.Data.List.Forall2
import TelemetryTypes.Proofs.Lexical.Values

/-!
# How values are spelled

A value can be spelled as a literal in more than one way, as a tab is by itself or by its escape,
and a name as a key bare or in quotes. Which texts are spellings is said here without the readers,
character by character, and a reader is shown to return a value exactly where a text begins with a
spelling of it (`Reader.literal_eq_some_iff`, `Reader.key_eq_some_iff`). So the readers know the
language and nothing of how values are written, and that they read back what was written says
something of the writing.
-/

namespace TelemetryTypes.Lexical

open Text (isIdentifier isIdentifierPart isIdentifierStart)

/-! ### Spellings -/

/-- How a character of a value is spelled in a literal. -/
inductive Spells : List Char → Char → Prop where
  | itself {c : Char} (h : c ∉ ['\'', '\\', '\n', '\r']) : Spells [c] c
  | escape {e c : Char} (h : escaped? e = some c) : Spells ['\\', e] c

/-- A text is a literal of a value. -/
def SpellsLiteral (text : List Char) (value : String) : Prop :=
  ∃ parts, List.Forall₂ Spells parts value.toList ∧ text = '\'' :: (parts.flatten ++ ['\''])

/-- The characters that a bare name is made of, a digit not being the first of them. -/
def Bare (c : Char) : Prop := c.isAlphanum = true ∨ c = '_' ∨ c = '$'

/-- In front of what follows it, a text is a property key of a name: a literal, or the name itself
with no more of it to come. -/
def SpellsKey (text : List Char) (name : String) (rest : List Char) : Prop :=
  SpellsLiteral text name
    ∨ text = name.toList ∧ (∃ first ∈ text.head?, first.isDigit = false) ∧ (∀ c ∈ text, Bare c)
      ∧ ∀ c ∈ rest.head?, ¬Bare c

/-! ### Identifiers -/

theorem isIdentifierPart_iff {c : Char} : isIdentifierPart c = true ↔ Bare c := by
  simp [isIdentifierPart, Bare, or_assoc]

theorem isDigit_of_isAlpha {c : Char} (h : c.isAlpha = true) : c.isDigit = false := by
  rw [Text.isAlpha_eq, Bool.or_eq_true, Text.isUpper_iff_toNat, Text.isLower_iff_toNat] at h
  rw [Bool.eq_false_iff, Ne, Char.isDigit_iff_toNat]
  change ¬(48 ≤ c.toNat ∧ c.toNat ≤ 57)
  omega

theorem isIdentifierStart_iff {c : Char} :
    isIdentifierStart c = true ↔ Bare c ∧ c.isDigit = false := by
  rw [← isIdentifierPart_iff]
  constructor
  · intro h
    refine ⟨Text.isIdentifierPart_of_start h, ?_⟩
    simp only [isIdentifierStart, Bool.or_eq_true, beq_iff_eq] at h
    rcases h with (halpha | rfl) | rfl
    · exact isDigit_of_isAlpha halpha
    · rfl
    · rfl
  · rintro ⟨hpart, hdigit⟩
    simpa [isIdentifierPart, isIdentifierStart, Char.isAlphanum, hdigit] using hpart

theorem isIdentifier_iff {name : String} :
    isIdentifier name = true
      ↔ (∃ first ∈ name.toList.head?, first.isDigit = false) ∧ ∀ c ∈ name.toList, Bare c := by
  rw [isIdentifier]
  cases name.toList with
  | nil => simp [Text.isIdentifierChars]
  | cons first rest =>
      simp only [Text.isIdentifierChars, Bool.and_eq_true, List.all_eq_true, isIdentifierPart_iff,
        isIdentifierStart_iff, List.head?_cons, Option.mem_some_iff, exists_eq_left',
        List.forall_mem_cons]
      tauto

/-! ### Literals -/

theorem Spells.literalBody_append {part : List Char} {c : Char} (h : Spells part c)
    (s : List Char) :
    Reader.literalBody (part ++ s)
      = (Reader.literalBody s).map fun (value, rest) => (c :: value, rest) := by
  cases h with
  | itself hc => exact Reader.literalBody_cons hc s
  | escape hmeant => exact Reader.literalBody_escape hmeant s

namespace Reader

variable {s rest value : List Char}

theorem exists_of_map_cons {c : Char}
    (h : (literalBody s).map (fun (value, rest) => (c :: value, rest)) = some (value, rest)) :
    ∃ more, literalBody s = some (more, rest) ∧ value = c :: more := by
  obtain ⟨⟨more, after⟩, hmore, hcons⟩ := Option.map_eq_some_iff.mp h
  obtain ⟨rfl, rfl⟩ := Prod.mk.inj hcons
  exact ⟨more, hmore, rfl⟩

/-- Behind the opening quote a literal is read exactly where its characters are spelled. -/
theorem literalBody_eq_some_iff :
    literalBody s = some (value, rest)
      ↔ ∃ parts, List.Forall₂ Spells parts value ∧ s = parts.flatten ++ '\'' :: rest := by
  constructor
  · intro h
    fun_induction literalBody s generalizing value with
    | case1 => cases h
    | case2 more =>
        obtain ⟨rfl, rfl⟩ := Prod.mk.inj (Option.some.inj h)
        exact ⟨[], .nil, rfl⟩
    | case3 e more ih =>
        obtain ⟨c, hmeant, hmore⟩ := Option.bind_eq_some_iff.mp h
        obtain ⟨others, hothers, rfl⟩ := exists_of_map_cons hmore
        obtain ⟨parts, hparts, rfl⟩ := ih hothers
        exact ⟨['\\', e] :: parts, .cons (.escape hmeant) hparts, rfl⟩
    | case4 => cases h
    | case5 c more hquote _ hnot ih =>
        obtain ⟨others, hothers, rfl⟩ := exists_of_map_cons h
        obtain ⟨parts, hparts, rfl⟩ := ih hothers
        have hitself : c ∉ ['\'', '\\', '\n', '\r'] := by
          rw [List.mem_cons, not_or]
          exact ⟨hquote, by simpa using hnot⟩
        exact ⟨[c] :: parts, .cons (.itself hitself) hparts, rfl⟩
  · rintro ⟨parts, hparts, rfl⟩
    induction hparts with
    | nil => rfl
    | cons hpart _ ih =>
        rw [List.flatten_cons, List.append_assoc, hpart.literalBody_append, ih, Option.map_some]

/-- A literal is read exactly where a text begins with one. -/
theorem literal_eq_some_iff {value : String} :
    literal s = some (value, rest) ↔ ∃ text, SpellsLiteral text value ∧ s = text ++ rest := by
  constructor
  · intro h
    unfold literal at h
    split at h
    · next body =>
        obtain ⟨⟨chars, after⟩, hbody, hvalue⟩ := Option.map_eq_some_iff.mp h
        obtain ⟨rfl, rfl⟩ := Prod.mk.inj hvalue
        obtain ⟨parts, hparts, rfl⟩ := literalBody_eq_some_iff.mp hbody
        rw [← String.toList_ofList (l := chars)] at hparts
        exact ⟨_, ⟨parts, hparts, rfl⟩, by simp⟩
    · cases h
  · rintro ⟨_, ⟨parts, hparts, rfl⟩, rfl⟩
    have hbody : literalBody (parts.flatten ++ '\'' :: rest) = some (value.toList, rest) :=
      literalBody_eq_some_iff.mpr ⟨parts, hparts, rfl⟩
    rw [List.cons_append, List.append_assoc, List.singleton_append, literal, hbody,
      Option.map_some]
    simp only [String.ofList_toList]

/-- A property key is read exactly where a text begins with one. -/
theorem key_eq_some_iff {name : String} :
    key s = some (name, rest) ↔ ∃ text, SpellsKey text name rest ∧ s = text ++ rest := by
  constructor
  · intro h
    by_cases hquote : s.head? = some '\''
    · rw [key_eq_literal hquote] at h
      obtain ⟨text, htext, rfl⟩ := literal_eq_some_iff.mp h
      exact ⟨text, .inl htext, rfl⟩
    · rw [key, if_neg hquote] at h
      obtain ⟨hname, hread⟩ := Option.ite_none_right_eq_some.mp h
      obtain ⟨rfl, rfl⟩ := Prod.mk.inj (Option.some.inj hread)
      obtain ⟨hfirst, hbare⟩ := isIdentifier_iff.mp hname
      rw [String.toList_ofList] at hfirst hbare
      refine ⟨s.takeWhile isIdentifierPart, .inr ⟨?_, hfirst, hbare, ?_⟩, ?_⟩
      · rw [String.toList_ofList]
      · intro c hc
        have hstop := List.head?_dropWhile_not isIdentifierPart s
        rw [Option.mem_def.mp hc] at hstop
        rw [← isIdentifierPart_iff, Bool.not_eq_true]
        exact hstop
      · exact List.takeWhile_append_dropWhile.symm
  · rintro ⟨text, hliteral | ⟨rfl, hfirst, hbare, hrest⟩, rfl⟩
    · have hquote : (text ++ rest).head? = some '\'' := by
        obtain ⟨parts, -, rfl⟩ := hliteral
        rfl
      rw [key_eq_literal hquote]
      exact literal_eq_some_iff.mpr ⟨text, hliteral, rfl⟩
    · refine key_append_of_isIdentifier (isIdentifier_iff.mpr ⟨hfirst, hbare⟩) fun c hc => ?_
      rw [← Bool.not_eq_true, isIdentifierPart_iff]
      exact hrest c hc

end Reader

/-- **What is written for a value is read as that value.** Whatever follows a literal, it is read to
its own end and as the string it was made from, and neither a line feed nor a carriage return nor a
tab stands in it as it is. Whatever follows a property key without going on with it, the key is read
as the name it was made from, so different names have different keys. The readers know only the
language: what one returns is spelled by what it passes over, and what is spelled it returns. -/
theorem literals_and_keys_read_back :
    (∀ value rest, Reader.literal ((Text.literal value).toList ++ rest) = some (value, rest))
      ∧ (∀ value, ∀ c ∈ (Text.literal value).toList, c ∉ ['\n', '\r', '\t'])
      ∧ (∀ name rest, (∀ c ∈ rest.head?, ¬Bare c) →
          Reader.key ((Text.propertyKey name).toList ++ rest) = some (name, rest))
      ∧ Function.Injective Text.propertyKey
      ∧ (∀ s value rest, Reader.literal s = some (value, rest)
          ↔ ∃ text, SpellsLiteral text value ∧ s = text ++ rest)
      ∧ ∀ s name rest, Reader.key s = some (name, rest)
          ↔ ∃ text, SpellsKey text name rest ∧ s = text ++ rest := by
  have hkey (name : String) (rest : List Char) (hrest : ∀ c ∈ rest.head?, ¬Bare c) :
      Reader.key ((Text.propertyKey name).toList ++ rest) = some (name, rest) :=
    Reader.key_append (fun c hc => by simpa [← isIdentifierPart_iff] using hrest c hc) name
  refine ⟨Reader.literal_append, fun _ _ => not_control_of_mem_literal, hkey, ?_,
    fun _ _ _ => Reader.literal_eq_some_iff, fun _ _ _ => Reader.key_eq_some_iff⟩
  intro first second hsame
  have hfirst := hkey first [] (by simp)
  have hsecond := hkey second [] (by simp)
  rw [hsame, hsecond] at hfirst
  exact (Prod.mk.inj (Option.some.inj hfirst)).1.symm

theorem literals_and_keys_read_back_sample :
    (∀ c ∈ ['?', ':'].head?, ¬Bare c)
      ∧ Reader.key ((Text.propertyKey "it's \\").toList ++ ['?', ':'])
        = some ("it's \\", ['?', ':']) := by
  have hrest : ∀ c ∈ ['?', ':'].head?, ¬Bare c := by simp [Bare]
  exact ⟨hrest, literals_and_keys_read_back.2.2.1 "it's \\" ['?', ':'] hrest⟩

end TelemetryTypes.Lexical
