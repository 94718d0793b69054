import TelemetryTypes.Declaration.Source
import TelemetryTypes.Proofs.Text.Pieces

/-!
# Comment ends

A text is safe in a comment if it has no comment end in it. Two safe texts make one that is not only
where a star of the first meets a slash of the second (`Unended.append`), so frames and what they
hold are looked at where they meet. Any text is safe parts with comment ends between them, and with
every one of these taken apart it is safe as a whole.
-/

namespace TelemetryTypes.Lexical

/-! ### Texts without comment ends -/

def commentEnd : List Char := ['*', '/']

/-- A text without a comment end. -/
def Unended (chars : List Char) : Prop := ¬commentEnd <:+: chars

instance (chars : List Char) : Decidable (Unended chars) := inferInstanceAs (Decidable (¬_))

theorem Unended.of_not_mem {chars : List Char} (h : '*' ∉ chars) : Unended chars :=
  fun hend => h (hend.subset List.mem_cons_self)

theorem Unended.singleton (c : Char) : Unended [c] :=
  fun hend => absurd hend.length_le (by simp [commentEnd])

/-- A comment end comes about between two texts only where a star meets a slash. -/
theorem Unended.append {front back : List Char} (hfront : Unended front) (hback : Unended back)
    (hmeet : front.getLast? = some '*' → back.head? ≠ some '/') : Unended (front ++ back) := by
  intro hend
  rcases List.infix_append_iff.mp hend with hleft | hright | ⟨left, right, hsplit, hleft, hright⟩
  · exact hfront hleft
  · exact hback hright
  · match left, right with
    | [], _ =>
        obtain rfl := hsplit
        exact hback hright.isInfix
    | [star], _ =>
        obtain ⟨rfl, rfl⟩ := List.cons.inj hsplit
        obtain ⟨before, rfl⟩ := hleft
        obtain ⟨after, rfl⟩ := hright
        exact hmeet List.getLast?_concat rfl
    | star :: slash :: more, _ =>
        obtain ⟨rfl, hrest⟩ := List.cons.inj hsplit
        obtain ⟨rfl, hnone⟩ := List.cons.inj hrest
        obtain ⟨rfl, -⟩ := List.append_eq_nil_iff.mp hnone.symm
        exact hfront hleft.isInfix

theorem Unended.indented {chars : List Char} (h : Unended chars) (n : Nat) :
    Unended (List.replicate n ' ' ++ chars) := by
  have hblanks : '*' ∉ List.replicate n ' ' := fun hmem => nomatch List.eq_of_mem_replicate hmem
  exact (Unended.of_not_mem hblanks).append h fun hlast => absurd (List.mem_of_getLast? hlast) hblanks

theorem Unended.tail {c : Char} {rest : List Char} (h : Unended (c :: rest)) : Unended rest :=
  fun hend => h (hend.trans (List.suffix_cons c rest).isInfix)

theorem Unended.head?_ne {c : Char} {rest : List Char} (h : Unended (c :: rest)) (hstar : c = '*') :
    rest.head? ≠ some '/' := by
  intro hslash
  obtain ⟨more, rfl⟩ := List.head?_eq_some_iff.mp hslash
  obtain rfl := hstar
  exact h (List.prefix_append commentEnd more).isInfix

/-! ### Taking comment ends apart -/

/-- Every comment end of a text is written with a backslash in it, and the rest as it is. -/
def EndsApart (raw written : List Char) : Prop :=
  ∃ parts, (∀ part ∈ parts, Unended part) ∧ raw = commentEnd.intercalate parts
    ∧ written = ['*', '\\', '/'].intercalate parts

/-- Every text is made of parts without a comment end and of comment ends between them. -/
theorem exists_parts (chars : List Char) :
    ∃ first others, (∀ part ∈ first :: others, Unended part)
      ∧ chars = commentEnd.intercalate (first :: others) := by
  -- A text begins with a comment end or with a character that goes to the first part.
  induction chars using Comment.escapeEnds.induct with
  | case1 rest ih =>
      obtain ⟨first, others, hparts, rfl⟩ := ih
      refine ⟨[], first :: others, List.forall_mem_cons.mpr ⟨by decide, hparts⟩, ?_⟩
      rw [List.intercalate_cons_cons]
      rfl
  | case2 c rest hends ih =>
      obtain ⟨first, others, hparts, rfl⟩ := ih
      rw [List.forall_mem_cons] at hparts
      refine ⟨c :: first, others, List.forall_mem_cons.mpr ⟨?_, hparts.2⟩, ?_⟩
      · have hmeet : [c].getLast? = some '*' → first.head? ≠ some '/' := by
          intro hstar hslash
          obtain ⟨more, rfl⟩ := List.head?_eq_some_iff.mp hslash
          refine hends (more ++ others.flatMap (commentEnd ++ ·)) (by simpa using hstar) ?_
          rw [Text.intercalate_cons]
          rfl
        exact (Unended.singleton c).append hparts.1 hmeet
      · rw [Text.intercalate_cons, Text.intercalate_cons, List.cons_append]
  | case3 => exact ⟨[], [], by decide, rfl⟩

/-- A text without a comment end is written as it is. -/
theorem escapeEnds_append {part rest : List Char} (h : Unended part)
    (hrest : rest.head? ≠ some '/') :
    Comment.escapeEnds (part ++ rest) = part ++ Comment.escapeEnds rest := by
  induction part with
  | nil => rfl
  | cons c more ih =>
      rw [List.cons_append, Comment.escapeEnds, ih h.tail, List.cons_append]
      intro tail hstar htail
      cases more with
      | nil =>
          obtain rfl : rest = '/' :: tail := htail
          exact hrest rfl
      | cons second others =>
          obtain ⟨rfl, -⟩ := List.cons.inj htail
          exact h.head?_ne hstar rfl

theorem escapeEnds_intercalate {first : List Char} {others : List (List Char)}
    (h : ∀ part ∈ first :: others, Unended part) :
    Comment.escapeEnds (commentEnd.intercalate (first :: others))
      = ['*', '\\', '/'].intercalate (first :: others) := by
  induction others generalizing first with
  | nil =>
      rw [List.forall_mem_singleton] at h
      have hall : Comment.escapeEnds (first ++ []) = first ++ Comment.escapeEnds [] :=
        escapeEnds_append h (by simp)
      simpa [List.intercalate_singleton, Comment.escapeEnds] using hall
  | cons second rest ih =>
      rw [List.forall_mem_cons] at h
      rw [List.intercalate_cons_cons, List.intercalate_cons_cons, List.append_assoc,
        escapeEnds_append h.1 (by simp [commentEnd]), ← ih h.2, List.append_assoc]
      rfl

theorem endsApart_escapeEnds (chars : List Char) :
    EndsApart chars (Comment.escapeEnds chars) := by
  obtain ⟨first, others, hparts, rfl⟩ := exists_parts chars
  exact ⟨first :: others, hparts, rfl, escapeEnds_intercalate hparts⟩

/-- With its comment ends taken apart a text has none. -/
theorem EndsApart.unended {raw written : List Char} (h : EndsApart raw written) :
    Unended written := by
  obtain ⟨parts, hparts, -, rfl⟩ := h
  induction parts with
  | nil => decide
  | cons first others ih =>
      rw [List.forall_mem_cons] at hparts
      cases others with
      | nil =>
          rw [List.intercalate_singleton]
          exact hparts.1
      | cons second rest =>
          have hapart : Unended ['*', '\\', '/'] := by decide
          have hfront : Unended (first ++ ['*', '\\', '/']) := hparts.1.append hapart (by simp)
          rw [List.intercalate_cons_cons]
          exact hfront.append (ih hparts.2) (by simp)

end TelemetryTypes.Lexical
