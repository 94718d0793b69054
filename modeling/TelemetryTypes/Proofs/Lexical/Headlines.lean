import TelemetryTypes.Proofs.Lexical.TextLines

/-!
# The lines that export something

Every declaration has one line that begins with a word at the margin, the one that exports it; its
other lines are indented, close a brace or belong to a comment (`Declaration.exports_headline`). So
what is asked of the lines of a text that begin with a word is asked of the declarations, in their
order (`Source.filter_lines`).
-/

namespace TelemetryTypes

open Source (literalList)

/-! ### Headlines -/

/-- The words that an exported item begins with. -/
inductive Keyword where
  | interface | type | const | abstractClass
  deriving DecidableEq

def Keyword.text : Keyword → String
  | interface => "export interface "
  | type => "export type "
  | const => "export const "
  | abstractClass => "export abstract class "

def Keyword.all : List Keyword := [interface, type, const, abstractClass]

theorem Keyword.mem_all (k : Keyword) : k ∈ all := by cases k <;> decide

theorem Keyword.eq_of_isPrefix {k k' : Keyword} (h : k.text.toList <+: k'.text.toList) :
    k = k' := by
  have hall : ∀ k ∈ all, ∀ k' ∈ all, k.text.toList <+: k'.text.toList → k = k' := by decide
  exact hall k k.mem_all k' k'.mem_all h

/-- How a header goes on: with a brace that opens, and closes at once if nothing stands in it. -/
def Source.opening (isEmpty : Bool) : String := if isEmpty then " \x7b\x7d" else " \x7b"

namespace Declaration

def keyword : Declaration → Keyword
  | interface _ | definitionShape | shapeMap _ | span _ | recorder _ => .interface
  | union _ | nameUnion | metadataOverride _ _ => .type
  | definitionsTable _ => .const
  | accessorBase _ => .abstractClass

def extension : Option String → String
  | some base => " extends " ++ base
  | none => ""

/-- A type parameter that is bounded by the base type and has it for its default. -/
def parameter (base : String) : String := "<T extends " ++ base ++ " = " ++ base ++ ">"

def recordOf (shape : String) (isEmpty : Bool) : String :=
  ": Record<string, " ++ shape ++ "> =" ++ Source.opening isEmpty

def overrideType (base : String) (overridable : List String) : String :=
  "<T extends " ++ base ++ "> = Partial<"
    ++ (if overridable.isEmpty then "Omit<T, keyof " ++ base ++ ">"
      else "Omit<T, keyof " ++ base ++ ">" ++ " & Pick<" ++ base ++ ", "
        ++ literalList " | " overridable ++ ">") ++ ">"

/-- What follows the name of a declaration on the line that exports it. -/
def ending : Declaration → String
  | interface i => extension i.extends? ++ Source.opening i.fields.isEmpty
  | union u => " = " ++ literalList " | " u.literals
  | definitionShape => Source.opening false
  | shapeMap entries => Source.opening entries.isEmpty
  | nameUnion => " = keyof " ++ shapeMapName
  | definitionsTable t => recordOf definitionShapeName t.entries.isEmpty
  | metadataOverride base overridable => overrideType base overridable
  | span base => parameter base ++ Source.opening false
  | recorder base => parameter base ++ Source.opening false
  | accessorBase _ => Source.opening false

/-- The line that exports a declaration. -/
def headline (d : Declaration) : String := d.keyword.text ++ d.name ++ d.ending

end Declaration

namespace Lexical

/-- A line that does not begin as the lines do that export something. -/
def Inner (l : SourceLine) : Prop := l.chars.head? ≠ some 'e'

instance (l : SourceLine) : Decidable (Inner l) := inferInstanceAs (Decidable (_ ≠ _))

theorem inner_of_depth {l : SourceLine} (h : 0 < l.depth) : Inner l := by
  obtain ⟨n, hn⟩ : ∃ n, 4 * l.depth = n + 1 := ⟨4 * l.depth - 1, by omega⟩
  rw [Inner, SourceLine.chars, hn, List.replicate_succ]
  simp

theorem inner_of_commentText {l : SourceLine} (h : CommentText l.text) : Inner l := by
  by_cases hdepth : l.depth = 0
  · rw [Inner, SourceLine.chars, hdepth, Nat.mul_zero, List.replicate_zero, List.nil_append]
    rcases h.1 with hhead | hhead <;> rw [hhead] <;> decide
  · exact inner_of_depth (Nat.pos_of_ne_zero hdepth)

theorem inner_of_mem_map {α : Type} {items : List α} {line : α → SourceLine}
    (hdepth : ∀ a, 0 < (line a).depth) : ∀ l ∈ items.map line, Inner l := by
  intro l hl
  obtain ⟨a, _, rfl⟩ := List.mem_map.mp hl
  exact inner_of_depth (hdepth a)

/-! ### One line among others -/

/-- Lines of which one exports something. -/
def Exports (lines : List SourceLine) (headline : String) : Prop :=
  ∃ before after, lines = before ++ ⟨0, headline⟩ :: after
    ∧ (∀ l ∈ before, Inner l) ∧ ∀ l ∈ after, Inner l

namespace Exports

variable {lines body : List SourceLine} {headline : String}

theorem of_eq {headline' : String} (h : Exports lines headline) (heq : headline = headline') :
    Exports lines headline' := heq ▸ h

theorem line (headline : String) : Exports [⟨0, headline⟩] headline :=
  ⟨[], [], rfl, List.forall_mem_nil _, List.forall_mem_nil _⟩

theorem comment (h : Exports lines headline) (depth : Nat) (text : Option String)
    (deprecated : Bool) : Exports (Comment.lines depth text deprecated ++ lines) headline := by
  obtain ⟨before, after, rfl, hbefore, hafter⟩ := h
  refine ⟨Comment.lines depth text deprecated ++ before, after, (List.append_assoc _ _ _).symm,
    List.forall_mem_append.mpr ⟨fun l hl => ?_, hbefore⟩, hafter⟩
  exact inner_of_commentText (commentText_of_mem hl)

theorem block (header : String) (hbody : ∀ l ∈ body, Inner l) :
    Exports (Source.block 0 header body) (header ++ Source.opening false) := by
  have hclose : Inner ⟨0, "\x7d"⟩ := by decide
  refine ⟨[], body ++ [⟨0, "\x7d"⟩], rfl, List.forall_mem_nil _, ?_⟩
  exact List.forall_mem_append.mpr ⟨hbody, List.forall_mem_singleton.mpr hclose⟩

theorem blockOrEmpty (header : String) (hbody : ∀ l ∈ body, Inner l) :
    Exports (Source.blockOrEmpty 0 header body) (header ++ Source.opening body.isEmpty) := by
  cases body with
  | nil => exact line _
  | cons l rest => exact block header hbody

/-- Of lines that begin like the one that exports something, there is no other. -/
theorem filter_eq (h : Exports lines headline) {p : List Char → Bool}
    (hp : ∀ line, p line = true → line.head? = some 'e') :
    (lines.map SourceLine.chars).filter p = [headline.toList].filter p := by
  obtain ⟨before, after, rfl, hbefore, hafter⟩ := h
  have hnone (others : List SourceLine) (hothers : ∀ l ∈ others, Inner l) :
      (others.map SourceLine.chars).filter p = [] := by
    rw [List.filter_eq_nil_iff]
    intro line hline hpass
    obtain ⟨l, hl, rfl⟩ := List.mem_map.mp hline
    exact hothers l hl (hp _ hpass)
  have hline : (⟨0, headline⟩ :: after).map SourceLine.chars
      = [headline.toList] ++ after.map SourceLine.chars := rfl
  rw [List.map_append, List.filter_append, hnone before hbefore, List.nil_append, hline,
    List.filter_append, hnone after hafter, List.append_nil]

end Exports

end Lexical

open Lexical

/-! ### Declarations -/

theorem Field.inner_of_mem {f : Field} {l : SourceLine} (hl : l ∈ f.lines 1) : Inner l := by
  rcases List.mem_append.mp hl with hcomment | hfield
  · exact inner_of_commentText (commentText_of_mem hcomment)
  · rw [List.mem_singleton.mp hfield]
    exact inner_of_depth Nat.one_pos

theorem Accessor.inner_of_mem {a : Accessor} {l : SourceLine} (hl : l ∈ a.lines) : Inner l := by
  have hblank : Inner .blank := by decide
  simp only [Accessor.lines, Source.block, List.mem_append, List.mem_singleton] at hl
  rcases hl with (hcomment | (rfl | rfl) | rfl) | rfl
  · exact inner_of_commentText (commentText_of_mem hcomment)
  · exact inner_of_depth Nat.one_pos
  · exact inner_of_depth Nat.two_pos
  · exact inner_of_depth Nat.one_pos
  · exact hblank

namespace Declaration

/-- Of the lines of a declaration its headline alone begins with a word at the margin. -/
theorem exports_headline (d : Declaration) : Exports d.lines d.headline := by
  cases d with
  | interface i =>
      have hempty : (i.fields.flatMap (Field.lines 1)).isEmpty = i.fields.isEmpty := by
        cases hfields : i.fields with
        | nil => rfl
        | cons f rest => simp [Field.lines]
      have hbody : ∀ l ∈ i.fields.flatMap (Field.lines 1), Inner l := by
        intro l hl
        obtain ⟨f, _, hmem⟩ := List.mem_flatMap.mp hl
        exact Field.inner_of_mem hmem
      have hheader : i.header = "export interface " ++ i.name ++ extension i.extends? := rfl
      have hblock := Exports.blockOrEmpty i.header hbody
      rw [hempty, hheader] at hblock
      refine (hblock.comment 0 i.doc false).of_eq ?_
      simp only [headline, keyword, Keyword.text, name, ending, String.append_assoc]
  | union u =>
      have hline :
          Exports [⟨0, "export type " ++ u.name ++ " = " ++ literalList " | " u.literals⟩] _ :=
        .line _
      refine hline.of_eq ?_
      simp only [headline, keyword, Keyword.text, name, ending, String.append_assoc]
  | definitionShape =>
      refine ((Exports.block _ (by decide)).comment 0 _ false).of_eq ?_
      simp only [headline, keyword, Keyword.text, name, ending]
  | shapeMap entries =>
      have hbody := @inner_of_mem_map _ entries
        (fun e => ⟨1, "readonly " ++ Text.propertyKey e.1 ++ ": " ++ e.2⟩) fun _ => Nat.one_pos
      have hblock := Exports.blockOrEmpty ("export interface " ++ shapeMapName) hbody
      rw [List.isEmpty_map] at hblock
      refine (hblock.comment 0 _ false).of_eq ?_
      simp only [headline, keyword, Keyword.text, name, ending]
  | nameUnion =>
      refine ((Exports.line _).comment 0 _ false).of_eq ?_
      simp only [headline, keyword, Keyword.text, name, ending, String.append_assoc]
  | definitionsTable t =>
      have hbody := @inner_of_mem_map _ t.entries (fun e => e.2.line e.1) fun _ => Nat.one_pos
      have hblock := Exports.blockOrEmpty ("export const " ++ definitionsTableName
        ++ ": Record<string, " ++ definitionShapeName ++ "> =") hbody
      rw [List.isEmpty_map] at hblock
      refine hblock.of_eq ?_
      unfold headline ending recordOf
      simp only [keyword, Keyword.text, name, String.append_assoc]
  | metadataOverride base overridable =>
      refine ((Exports.line _).comment 0 _ false).of_eq ?_
      simp only [headline, keyword, Keyword.text, name, ending, overrideType, String.append_assoc]
  | span base =>
      refine ((Exports.block _ (by decide)).comment 0 _ false).of_eq ?_
      simp only [headline, keyword, Keyword.text, name, ending, boundedBy, parameter,
        String.append_assoc]
  | recorder base =>
      refine ((Exports.block _ fun l hl => ?_).comment 0 _ false).of_eq ?_
      · simp only [List.mem_append, List.mem_singleton] at hl
        rcases hl with (((rfl | hcomment) | rfl) | hcomment) | rfl
        · exact inner_of_depth Nat.one_pos
        · exact inner_of_commentText (commentText_of_mem hcomment)
        · exact inner_of_depth Nat.one_pos
        · exact inner_of_commentText (commentText_of_mem hcomment)
        · exact inner_of_depth Nat.one_pos
      · simp only [headline, keyword, Keyword.text, name, ending, boundedBy, parameter,
          String.append_assoc]
  | accessorBase c =>
      refine Exports.block _ fun l hl => ?_
      rcases List.mem_append.mp hl with haccessor | hmethod
      · obtain ⟨a, _, hmem⟩ := List.mem_flatMap.mp haccessor
        exact Accessor.inner_of_mem hmem
      · rw [List.mem_singleton.mp hmethod]
        exact inner_of_depth Nat.one_pos

end Declaration

namespace Source

variable {p : List Char → Bool}

theorem filter_flatMap_lines (hp : ∀ line, p line = true → line.head? = some 'e')
    (declarations : List Declaration) :
    ((declarations.flatMap fun d => .blank :: d.lines).map SourceLine.chars).filter p
      = (declarations.map fun d => d.headline.toList).filter p := by
  have hblank : p SourceLine.blank.chars = false := by
    rw [Bool.eq_false_iff]
    exact fun h => nomatch hp _ h
  induction declarations with
  | nil => rfl
  | cons d rest ih =>
      rw [List.flatMap_cons, List.map_append, List.filter_append, ih, List.map_cons,
        List.filter_cons_of_neg (by simp [hblank]), d.exports_headline.filter_eq hp, List.map_cons,
        ← List.filter_append, List.singleton_append]

/-- The lines of a source that begin like those that export something are among the headlines of the
declarations, in their order. -/
theorem filter_lines (hp : ∀ line, p line = true → line.head? = some 'e')
    (declarations : List Declaration) :
    ((lines declarations).map SourceLine.chars).filter p
      = (declarations.map fun d => d.headline.toList).filter p := by
  have hbanner : ((banner.map fun text => (⟨0, text⟩ : SourceLine)).map SourceLine.chars).filter p
      = [] := by
    rw [List.filter_eq_nil_iff]
    have hinner : ∀ l ∈ banner.map fun text => (⟨0, text⟩ : SourceLine), Inner l := by decide
    intro line hline hpass
    obtain ⟨l, hl, rfl⟩ := List.mem_map.mp hline
    exact hinner l hl (hp _ hpass)
  rw [lines, List.map_append, List.filter_append, hbanner, List.nil_append,
    filter_flatMap_lines hp]

end Source

end TelemetryTypes
