import Mathlib.Data.List.Forall2
import TelemetryTypes.Proofs.Lexical.Contents

/-!
# Data is told apart by its text

Tables, unions and shape maps hold any strings at all, and these strings may look like what stands
between them. Still no two of them are written alike: `text_determines_data`. Each of their lines is
read back by a reader that goes by the characters alone, so equal lines hold equal data; and their
texts have equal lines when they are equal, since nothing that is written on a line breaks it.
-/

namespace TelemetryTypes

open Text (isIdentifier isIdentifierPart)

/-- The text that a declaration adds to a source, behind an empty line. -/
def Declaration.text (d : Declaration) : String := SourceLine.renderAll d.lines

/-- Declarations are added to a source behind the ones that are there. -/
theorem Source.render_append (front back : List Declaration) :
    render (front ++ back)
      = render front ++ SourceLine.renderAll (back.flatMap fun d => .blank :: d.lines) := by
  rw [render, lines_append, SourceLine.renderAll_append]
  rfl

theorem Source.render_concat (declarations : List Declaration) (d : Declaration) :
    render (declarations ++ [d]) = render declarations ++ "\n" ++ d.text := by
  have hblank : SourceLine.blank.render = "\n" := by decide
  rw [render_append, List.flatMap_singleton, SourceLine.renderAll_cons, hblank,
    ← String.append_assoc]
  rfl

namespace Lexical

/-! ### Lines of equal texts -/

theorem map_chars_eq_of_renderAll_eq {lines lines' : List SourceLine} (hwhole : Whole lines)
    (hwhole' : Whole lines') (h : SourceLine.renderAll lines = SourceLine.renderAll lines') :
    lines.map SourceLine.chars = lines'.map SourceLine.chars := by
  have hpieces := pieces_renderAll hwhole
  rw [h, pieces_renderAll hwhole'] at hpieces
  exact (List.append_cancel_right hpieces).symm

/-- Blocks under one header have equal bodies when they have equal lines. -/
theorem map_chars_eq_of_blockOrEmpty_eq {header : String} {body body' : List SourceLine}
    (h : (Source.blockOrEmpty 0 header body).map SourceLine.chars
      = (Source.blockOrEmpty 0 header body').map SourceLine.chars) :
    body.map SourceLine.chars = body'.map SourceLine.chars := by
  have hlength := congrArg List.length h
  cases body with
  | nil =>
      cases body' with
      | nil => rfl
      | cons l rest => simp [Source.blockOrEmpty, Source.block] at hlength
  | cons l rest =>
      cases body' with
      | nil => simp [Source.blockOrEmpty, Source.block] at hlength
      | cons l' rest' =>
          simp only [Source.blockOrEmpty, Source.block, List.isEmpty_cons, Bool.false_eq_true,
            if_false, List.map_append] at h
          exact List.append_cancel_left (List.append_cancel_right h)

/-- Items that can be read from what is written for them are known from it. -/
theorem eq_of_map_eq {α : Type} {items items' : List α} {line : α → List Char}
    {read? : List Char → Option α} (hread : ∀ a ∈ items, read? (line a) = some a)
    (hread' : ∀ a ∈ items', read? (line a) = some a) (h : items.map line = items'.map line) :
    items = items' := by
  have hback : ∀ {items : List α}, (∀ a ∈ items, read? (line a) = some a) →
      (items.map line).map read? = items.map some := by
    intro items hread
    rw [List.map_map]
    exact List.map_congr_left hread
  apply List.map_injective_iff.mpr fun _ _ => Option.some.inj
  rw [← hback hread, ← hback hread', h]

/-! ### Unions and shapes as they are read -/

namespace Reader

/-- Reads the declaration of a union. -/
def union : Reader LiteralUnion := do
  expect "export type "
  let name ← word
  expect " = "
  let values ← literals " | "
  return ⟨name, values⟩

/-- Reads an entry of a shape map. -/
def shape : Reader (String × String) := do
  expect "    readonly "
  let metric ← key
  expect ": "
  let type ← word
  return (metric, type)

/-- The entry that a line of a shape map holds, if it holds one and nothing else. -/
def shapeOn? (line : List Char) : Option (String × String) :=
  match shape line with
  | some (entry, []) => some entry
  | _ => none

theorem union_line {u : LiteralUnion} (hname : Word u.name) :
    union ("export type " ++ u.name ++ " = " ++ Source.literalList " | " u.literals).toList
      = some (u, []) := by
  have hequals (rest : List Char) :
      ∀ c ∈ (" = ".toList ++ rest).head?, isIdentifierPart c = false := by
    intro c hc
    obtain rfl : ' ' = c := Option.some.inj hc
    rfl
  have hend : " | ".toList.isPrefixOf? ([] : List Char) = none := rfl
  have hliterals := literals_append hend (by decide) u.literals
  rw [List.append_nil] at hliterals
  simp only [String.toList_append, List.append_assoc]
  rw [union, bind_of_eq (expect_append _ _), bind_of_eq (word_append hname (hequals _)),
    bind_of_eq (expect_append _ _), bind_of_eq hliterals]
  rfl

theorem shapeOn?_line {entry : String × String} (htype : Word entry.2) :
    shapeOn? (SourceLine.chars
      ⟨1, "readonly " ++ Text.propertyKey entry.1 ++ ": " ++ entry.2⟩) = some entry := by
  have hcolon (rest : List Char) :
      ∀ c ∈ (": ".toList ++ rest).head?, isIdentifierPart c = false := by
    intro c hc
    obtain rfl : ':' = c := Option.some.inj hc
    rfl
  have hline : SourceLine.chars ⟨1, "readonly " ++ Text.propertyKey entry.1 ++ ": " ++ entry.2⟩
      = "    readonly ".toList
        ++ ((Text.propertyKey entry.1).toList ++ (": ".toList ++ (entry.2.toList ++ []))) := by
    simp [SourceLine.chars]
  rw [shapeOn?, hline, shape, bind_of_eq (expect_append _ _),
    bind_of_eq (key_append (hcolon _) entry.1), bind_of_eq (expect_append _ _),
    bind_of_eq (word_append htype (by simp))]
  rfl

end Reader

end Lexical

open Lexical

namespace Declaration

theorem whole_definitionsTable (t : RuntimeTable) : Whole t.lines :=
  whole_lines (d := .definitionsTable t) fun _ hname => nomatch hname

theorem text_definitionsTable_injective {t t' : RuntimeTable}
    (h : (definitionsTable t).text = (definitionsTable t').text) : t = t' := by
  have hlines := map_chars_eq_of_renderAll_eq (whole_definitionsTable t)
    (whole_definitionsTable t') h
  have hread := Source.table?_lines t []
  rw [hlines, Source.table?_lines t' []] at hread
  exact (Option.some.inj hread).symm

/-- A table with records has a line for each of them, between the one that opens it and the one that
closes it. -/
theorem pieces_definitionsTable {t : RuntimeTable} (h : t.entries ≠ []) :
    Text.pieces (definitionsTable t).text.toList
      = (tableHeader ++ " \x7b").toList :: t.entries.map (fun e => (e.2.line e.1).chars)
        ++ [['\x7d'], []] := by
  have hbody : (t.entries.map fun e => e.2.line e.1).isEmpty = false := by
    simpa using h
  rw [text, lines, pieces_renderAll (whole_definitionsTable t), Source.lines_table,
    Source.blockOrEmpty, hbody]
  simp [Source.block, SourceLine.chars]

theorem text_union_injective {u v : LiteralUnion} (hu : Word u.name) (hv : Word v.name)
    (h : (union u).text = (union v).text) : u = v := by
  have hwhole {w : LiteralUnion} (hname : Word w.name) : Whole w.lines := by
    apply whole_lines (d := .union w)
    intro name hmem
    rw [List.mem_singleton.mp hmem]
    exact hname.unbroken
  have hlines := map_chars_eq_of_renderAll_eq (hwhole hu) (hwhole hv) h
  have hline : ("export type " ++ u.name ++ " = " ++ Source.literalList " | " u.literals).toList
      = ("export type " ++ v.name ++ " = " ++ Source.literalList " | " v.literals).toList :=
    (List.cons.inj hlines).1
  have hread := Reader.union_line hu
  rw [hline, Reader.union_line hv] at hread
  exact (congrArg Prod.fst (Option.some.inj hread)).symm

theorem text_shapeMap_injective {entries entries' : List (String × String)}
    (htypes : ∀ e ∈ entries, Word e.2) (htypes' : ∀ e ∈ entries', Word e.2)
    (h : (shapeMap entries).text = (shapeMap entries').text) : entries = entries' := by
  have hwhole {entries : List (String × String)} (htypes : ∀ e ∈ entries, Word e.2) :
      Whole (shapeMap entries).lines :=
    whole_shapeMapLines fun e he => (htypes e he).unbroken
  have hlines := map_chars_eq_of_renderAll_eq (hwhole htypes) (hwhole htypes') h
  simp only [lines, shapeMapLines, List.map_append] at hlines
  have hbody := map_chars_eq_of_blockOrEmpty_eq (List.append_cancel_left hlines)
  rw [List.map_map, List.map_map] at hbody
  exact eq_of_map_eq (fun e he => Reader.shapeOn?_line (htypes e he))
    (fun e he => Reader.shapeOn?_line (htypes' e he)) hbody

end Declaration

/-- **Data is told apart by its text.** Tables that are written alike are equal, whatever their
strings are, and a table with records has one line for each, which holds that record, between its
first and its last. Unions whose names are identifiers are equal when they are written alike,
whatever their literals are; so are shape maps whose types are identifiers, whatever their metrics
are called. -/
theorem text_determines_data :
    (∀ t t' : RuntimeTable,
        (Declaration.definitionsTable t).text = (Declaration.definitionsTable t').text → t = t')
      ∧ (∀ t : RuntimeTable, t.entries ≠ [] → ∃ records,
        Text.pieces (Declaration.definitionsTable t).text.toList
            = (tableHeader ++ " \x7b").toList :: records ++ [['\x7d'], []]
          ∧ List.Forall₂ (fun line entry => Reader.recordOn? line = some entry) records t.entries)
      ∧ (∀ u v : LiteralUnion, isIdentifier u.name = true → isIdentifier v.name = true →
        (Declaration.union u).text = (Declaration.union v).text → u = v)
      ∧ ∀ entries entries' : List (String × String),
        (∀ e ∈ entries, isIdentifier e.2 = true) → (∀ e ∈ entries', isIdentifier e.2 = true) →
          (Declaration.shapeMap entries).text = (Declaration.shapeMap entries').text →
            entries = entries' := by
  refine ⟨fun _ _ => Declaration.text_definitionsTable_injective, ?_, ?_, ?_⟩
  · intro t ht
    refine ⟨_, Declaration.pieces_definitionsTable ht, ?_⟩
    rw [List.forall₂_map_left_iff, List.forall₂_same]
    exact fun entry _ => Reader.recordOn?_line entry.1 entry.2
  · intro u v hu hv
    exact Declaration.text_union_injective (word_of_isIdentifier hu) (word_of_isIdentifier hv)
  · intro entries entries' htypes htypes'
    exact Declaration.text_shapeMap_injective
      (fun e he => word_of_isIdentifier (htypes e he))
      (fun e he => word_of_isIdentifier (htypes' e he))

end TelemetryTypes
