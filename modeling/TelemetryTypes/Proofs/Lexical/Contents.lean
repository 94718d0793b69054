import TelemetryTypes.Proofs.Lexical.Headlines
import TelemetryTypes.Proofs.Lexical.Source
import TelemetryTypes.Proofs.Lexical.Values

/-!
# What a text holds

Asked of a text alone: the table that its `definitions` constant holds, and how many interfaces of
metrics and unions of literals it declares. A record stands on a line of its own, and a declaration
is told by the line that exports it, so both are questions to lines; and of a source that was
written they get back what it was written from (`Source.definitionsIn?_render`,
`Source.countP_pieces_render`).
-/

namespace TelemetryTypes

namespace Lexical

open Text (isIdentifierPart)

/-! ### The table of definitions -/

namespace Reader

/-- Reads a record with its key. -/
def record : Reader (String × RuntimeRecord) := do
  let name ← key
  expect ": \x7b unit: "
  let unit ← literal
  expect ", passive: "
  let passive ← flag
  expect ", trackPerformance: "
  let trackPerformance ← flag
  expect ", requiredMetadata: ["
  let requiredMetadata ← literals ", "
  expect "] \x7d,"
  return (name, { unit, passive, trackPerformance, requiredMetadata })

/-- The record that a line holds, if it holds one and nothing else. -/
def recordOn? (line : List Char) : Option (String × RuntimeRecord) :=
  match (expect "    " >>= fun _ => record) line with
  | some (entry, []) => some entry
  | _ => none

/-- The records of the lines up to a closing brace. -/
def entries? : List (List Char) → Option (List (String × RuntimeRecord))
  | [] => none
  | line :: rest =>
    if line = ['\x7d'] then some []
    else (recordOn? line).bind fun entry => (entries? rest).map (entry :: ·)

end Reader

/-- How the line begins that exports the table. -/
def tableHeader : String := "export const definitions: Record<string, MetricDefinition> ="

def startsTable (line : List Char) : Bool := tableHeader.toList.isPrefixOf line

/-- The table of lines of which the first one exports it. -/
def table? : List (List Char) → Option RuntimeTable
  | [] => none
  | line :: rest =>
    if line = (tableHeader ++ " \x7b\x7d").toList then some ⟨[]⟩
    else if line = (tableHeader ++ " \x7b").toList then (Reader.entries? rest).map .mk
    else none

/-- The table of a text, from the first line that exports one. -/
def definitionsIn? (text : String) : Option RuntimeTable :=
  table? ((Text.pieces text.toList).dropWhile (!startsTable ·))

/-! ### Interfaces of metrics and unions -/

/-- What follows the name on a line that exports something with the given words. -/
def ending? (keyword : Keyword) (line : List Char) : Option (List Char) :=
  (keyword.text.toList.isPrefixOf? line).map (·.dropWhile isIdentifierPart)

/-- Whether a line exports an interface that extends another, as that of a metric does. -/
def opensMetric (line : List Char) : Bool :=
  (ending? .interface line).any (" extends ".toList.isPrefixOf ·)

/-- Whether a line exports a union of literals, be there literals or not. -/
def opensUnion (line : List Char) : Bool :=
  ((ending? .type line).bind (" = ".toList.isPrefixOf? ·)).any (·.head?.all (· == '\''))

example : opensMetric "export interface FileSave extends Base \x7b".toList = true := by decide

example : opensMetric "export interface Span<T extends Base = Base> \x7b".toList = false := by
  decide

example : opensUnion "export type MetricName = keyof MetricShapes".toList = false := by decide

def metricCount (text : String) : Nat := (Text.pieces text.toList).countP opensMetric

def unionCount (text : String) : Nat := (Text.pieces text.toList).countP opensUnion

/-! ### Records -/

namespace Reader

variable {rest : List Char}

theorem record_append (name : String) (r : RuntimeRecord) (rest : List Char) :
    record ((r.line name).text.toList ++ rest) = some ((name, r), rest) := by
  have hkey (more : List Char) :
      ∀ c ∈ (": \x7b unit: ".toList ++ more).head?, isIdentifierPart c = false := by
    intro c hc
    obtain rfl : ':' = c := Option.some.inj hc
    rfl
  have hend (more : List Char) : ", ".toList.isPrefixOf? ("] \x7d,".toList ++ more) = none := rfl
  have hquote (more : List Char) : ("] \x7d,".toList ++ more).head? ≠ some '\'' := by
    exact fun h => nomatch h
  rw [RuntimeRecord.line]
  simp only [String.toList_append, List.append_assoc]
  rw [record, bind_of_eq (key_append (hkey _) name), bind_of_eq (expect_append _ _),
    bind_of_eq (literal_append _ _), bind_of_eq (expect_append _ _),
    bind_of_eq (flag_append _ _), bind_of_eq (expect_append _ _),
    bind_of_eq (flag_append _ _), bind_of_eq (expect_append _ _),
    bind_of_eq (literals_append (hend _) (hquote _) _), bind_of_eq (expect_append _ _)]
  rfl

theorem recordOn?_line (name : String) (r : RuntimeRecord) :
    recordOn? (r.line name).chars = some (name, r) := by
  have hindent : (r.line name).chars = "    ".toList ++ ((r.line name).text.toList ++ []) := by
    rw [List.append_nil]
    rfl
  rw [recordOn?, hindent, bind_of_eq (expect_append _ _), record_append]

theorem entries?_append (entries : List (String × RuntimeRecord)) (after : List (List Char)) :
    entries? (entries.map (fun e => (e.2.line e.1).chars) ++ ['\x7d'] :: after) = some entries := by
  induction entries with
  | nil => rfl
  | cons e more ih =>
      have hline : (e.2.line e.1).chars ≠ ['\x7d'] := by
        intro h
        have hhead := congrArg List.head? h
        exact nomatch hhead
      rw [List.map_cons, List.cons_append, entries?, if_neg hline, recordOn?_line,
        Option.bind_some, ih, Option.map_some]

end Reader

/-! ### Headlines as they are read -/

theorem head?_of_isPrefix {keyword : Keyword} {line : List Char}
    (h : keyword.text.toList <+: line) : line.head? = some 'e' := by
  have hword : keyword.text.toList.head? = some 'e' := by cases keyword <;> decide
  obtain ⟨rest, rfl⟩ := h
  rw [List.head?_append, hword, Option.some_or]

theorem head?_of_ending? {keyword : Keyword} {line : List Char}
    (h : (ending? keyword line).isSome = true) : line.head? = some 'e' := by
  rw [ending?, Option.isSome_map, Option.isSome_iff_exists] at h
  obtain ⟨rest, hrest⟩ := h
  exact head?_of_isPrefix ⟨rest, List.isPrefixOf?_eq_some_iff_append_eq.mp hrest⟩

end Lexical

open Lexical
open Text (isIdentifierPart)

namespace Declaration

variable {d : Declaration}

theorem keyword_eq_of_isPrefix {keyword : Keyword}
    (h : keyword.text.toList <+: d.headline.toList) : keyword = d.keyword := by
  have hown : d.keyword.text.toList <+: d.headline.toList := by
    rw [headline, String.toList_append, String.toList_append, List.append_assoc]
    exact List.prefix_append _ _
  rcases List.prefix_or_prefix_of_prefix h hown with hle | hge
  · exact Keyword.eq_of_isPrefix hle
  · exact (Keyword.eq_of_isPrefix hge).symm

theorem word_name (hbare : ∀ name ∈ d.bareNames, Word name) : Word d.name := by
  cases d with
  | interface i => exact (forall_bareNames_interface.mp hbare).1
  | union u => exact hbare u.name (by simp [bareNames])
  | accessorBase c => exact (forall_bareNames_accessorBase.mp hbare).1
  | definitionShape => exact (by decide : Word definitionShapeName)
  | shapeMap entries => exact (by decide : Word shapeMapName)
  | nameUnion => exact (by decide : Word nameUnionName)
  | definitionsTable t => exact (by decide : Word definitionsTableName)
  | metadataOverride base overridable => exact (by decide : Word metadataOverrideName)
  | span base => exact (by decide : Word spanName)
  | recorder base => exact (by decide : Word recorderName)

/-! #### What stands behind the name -/

/-- What the ending of a declaration begins with. -/
def lead : Declaration → String
  | interface i => if i.extends?.isSome then " extends " else " \x7b"
  | definitionShape | shapeMap _ | accessorBase _ => " \x7b"
  | union _ => " = "
  | nameUnion => " = keyof "
  | definitionsTable _ => ": Record<string, "
  | metadataOverride _ _ | span _ | recorder _ => "<T extends "

def leads : List String :=
  [" extends ", " \x7b", " = ", " = keyof ", ": Record<string, ", "<T extends "]

theorem lead_mem (d : Declaration) : d.lead ∈ leads := by
  cases d with
  | interface i =>
      rw [lead]
      split_ifs <;> simp [leads]
  | _ => simp [lead, leads]

theorem lead_isPrefix (d : Declaration) : d.lead.toList <+: d.ending.toList := by
  have hopening (isEmpty : Bool) : " \x7b".toList <+: (Source.opening isEmpty).toList := by
    cases isEmpty <;> decide
  cases d with
  | interface i =>
      rw [lead, ending]
      cases i.extends? with
      | none => exact hopening i.fields.isEmpty
      | some base =>
          simp only [Option.isSome_some, if_true, extension, String.toList_append,
            List.append_assoc]
          exact List.prefix_append _ _
  | definitionShape => exact hopening false
  | shapeMap entries => exact hopening entries.isEmpty
  | accessorBase c => exact hopening false
  | definitionsTable t =>
      rw [lead, ending]
      unfold recordOf
      simp only [String.toList_append, List.append_assoc]
      exact List.prefix_append _ _
  | _ =>
      simp only [lead, ending, overrideType, parameter, String.toList_append, List.append_assoc]
      exact List.prefix_append _ _

theorem prefix_or_of_prefix_ending {text : String} (h : text.toList <+: d.ending.toList) :
    text.toList <+: d.lead.toList ∨ d.lead.toList <+: text.toList :=
  List.prefix_or_prefix_of_prefix h d.lead_isPrefix

theorem isIdentifierPart_ending (d : Declaration) :
    ∀ c ∈ d.ending.toList.head?, isIdentifierPart c = false := by
  have hleads : leads.all (fun l => l.toList.head?.any (!isIdentifierPart ·)) = true := by decide
  have hlead := List.all_eq_true.mp hleads d.lead d.lead_mem
  obtain ⟨c, hhead, hc⟩ := (Option.any_eq_true _ _).mp hlead
  obtain ⟨rest, hending⟩ := d.lead_isPrefix
  intro e he
  rw [← hending, List.head?_append, hhead, Option.some_or] at he
  obtain rfl : c = e := Option.some.inj he
  simpa using hc

/-- Of the words that something can be exported with, a headline begins with its own ones. -/
theorem isPrefixOf?_headline (d : Declaration) (keyword : Keyword) :
    keyword.text.toList.isPrefixOf? d.headline.toList
      = if keyword = d.keyword then some (d.name.toList ++ d.ending.toList) else none := by
  split_ifs with hkeyword
  · rw [hkeyword, headline, String.toList_append, String.toList_append, List.append_assoc,
      Reader.isPrefixOf?_append]
  · cases hread : keyword.text.toList.isPrefixOf? d.headline.toList with
    | none => rfl
    | some rest =>
        have hprefix := List.isPrefixOf?_eq_some_iff_append_eq.mp hread
        exact absurd (keyword_eq_of_isPrefix ⟨rest, hprefix⟩) hkeyword

theorem ending?_headline (hbare : ∀ name ∈ d.bareNames, Word name) (keyword : Keyword) :
    ending? keyword d.headline.toList
      = if keyword = d.keyword then some d.ending.toList else none := by
  rw [ending?, isPrefixOf?_headline]
  split_ifs
  · rw [Option.map_some, (word_name hbare).dropWhile_append d.isIdentifierPart_ending]
  · rfl

/-! #### What the reader takes a declaration for -/

/-- Whether a declaration is an interface that extends another. -/
def extendsAnother : Declaration → Bool
  | interface i => i.extends?.isSome
  | _ => false

def isUnion : Declaration → Bool
  | union _ => true
  | _ => false

theorem opensMetric_headline (hbare : ∀ name ∈ d.bareNames, Word name) :
    opensMetric d.headline.toList = d.extendsAnother := by
  have hapart : ∀ l ∈ leads, " extends ".toList <+: l.toList ∨ l.toList <+: " extends ".toList →
      l = " extends " := by decide
  have hextends : " extends ".toList.isPrefixOf d.ending.toList
      = decide (d.lead = " extends ") := by
    rw [Bool.eq_iff_iff, List.isPrefixOf_iff_prefix, decide_eq_true_iff]
    exact ⟨fun h => hapart d.lead d.lead_mem (prefix_or_of_prefix_ending h),
      fun h => h ▸ d.lead_isPrefix⟩
  rw [opensMetric, ending?_headline hbare, apply_ite (Option.any _), Option.any_some, hextends,
    Option.any_none]
  cases d with
  | interface i => cases hbase : i.extends? <;> simp [keyword, lead, extendsAnother, hbase]
  | _ => rfl

theorem opensUnion_headline (hbare : ∀ name ∈ d.bareNames, Word name) :
    opensUnion d.headline.toList = d.isUnion := by
  rw [opensUnion, ending?_headline hbare]
  cases d with
  | union u =>
      have hkeyword : Keyword.type = (union u).keyword := rfl
      have hending : (union u).ending.toList
          = " = ".toList ++ (Source.literalList " | " u.literals).toList := by
        rw [ending, String.toList_append]
      rw [if_pos hkeyword, Option.bind_some, hending, Reader.isPrefixOf?_append, Option.any_some]
      cases u.literals with
      | nil => rfl
      | cons v rest =>
          rw [Reader.toList_literalList_cons, Text.toList_literal]
          rfl
  | nameUnion => decide
  | metadataOverride base overridable =>
      have hkeyword : Keyword.type = (metadataOverride base overridable).keyword := rfl
      rw [if_pos hkeyword, Option.bind_some]
      cases hread : " = ".toList.isPrefixOf? (metadataOverride base overridable).ending.toList with
      | none => rfl
      | some rest =>
          have hprefix := List.isPrefixOf?_eq_some_iff_append_eq.mp hread
          have happart : ¬(" = ".toList <+: "<T extends ".toList
              ∨ "<T extends ".toList <+: " = ".toList) := by decide
          exact absurd (prefix_or_of_prefix_ending ⟨rest, hprefix⟩) happart
  | _ => rfl

end Declaration

namespace Source

/-! ### Sources as they are read -/

variable {declarations : List Declaration}

/-- What is counted of the lines of a source that begin with a keyword, is counted of its
declarations. -/
theorem countP_pieces_render {p : List Char → Bool} {q : Declaration → Bool}
    (hbare : ∀ d ∈ declarations, ∀ name ∈ d.bareNames, Word name)
    (hp : ∀ line, p line = true → line.head? = some 'e')
    (hq : ∀ d ∈ declarations, p d.headline.toList = q d) :
    (Text.pieces (render declarations).toList).countP p = declarations.countP q := by
  have hempty : p [] = false := by
    rw [Bool.eq_false_iff]
    exact fun h => nomatch hp _ h
  have hheadlines : declarations.countP (fun d => p d.headline.toList) = declarations.countP q :=
    List.countP_congr fun d hd => by rw [hq d hd]
  rw [pieces_render fun d hd name hname => (hbare d hd name hname).unbroken, List.countP_append,
    List.countP_eq_length_filter, filter_lines hp, ← List.countP_eq_length_filter, List.countP_map,
    List.countP_singleton, hempty, ← hheadlines]
  rfl

theorem metricCount_render (hbare : ∀ d ∈ declarations, ∀ name ∈ d.bareNames, Word name) :
    metricCount (render declarations) = declarations.countP Declaration.extendsAnother := by
  refine countP_pieces_render hbare (fun line h => ?_) fun d hd =>
    Declaration.opensMetric_headline (hbare d hd)
  exact head?_of_ending? (Option.isSome_of_any h)

theorem unionCount_render (hbare : ∀ d ∈ declarations, ∀ name ∈ d.bareNames, Word name) :
    unionCount (render declarations) = declarations.countP Declaration.isUnion := by
  refine countP_pieces_render hbare (fun line h => ?_) fun d hd =>
    Declaration.opensUnion_headline (hbare d hd)
  exact head?_of_ending? (Option.isSome_of_isSome_bind (Option.isSome_of_any h))

/-! ### The table of a source -/

theorem lines_append (front back : List Declaration) :
    lines (front ++ back) = lines front ++ back.flatMap fun d => .blank :: d.lines := by
  rw [lines, List.flatMap_append, ← List.append_assoc]
  rfl

theorem lines_table (t : RuntimeTable) :
    t.lines = blockOrEmpty 0 tableHeader (t.entries.map fun e => e.2.line e.1) := by
  have hheader : "export const " ++ Declaration.definitionsTableName ++ ": Record<string, "
      ++ Declaration.definitionShapeName ++ "> =" = tableHeader := by decide
  rw [RuntimeTable.lines, hheader]

theorem exists_startsTable (t : RuntimeTable) :
    ∃ first rest, t.lines.map SourceLine.chars = first :: rest ∧ startsTable first = true := by
  have hstarts (close : String) : startsTable (tableHeader ++ close).toList = true := by
    rw [startsTable, String.toList_append, List.isPrefixOf_iff_prefix]
    exact List.prefix_append _ _
  rw [lines_table, blockOrEmpty]
  split_ifs
  · exact ⟨_, _, rfl, hstarts _⟩
  · exact ⟨_, _, rfl, hstarts _⟩

theorem table?_lines (t : RuntimeTable) (after : List (List Char)) :
    table? (t.lines.map SourceLine.chars ++ after) = some t := by
  obtain ⟨entries⟩ := t
  rw [lines_table]
  cases entries with
  | nil =>
      have hlines : (blockOrEmpty 0 tableHeader []).map SourceLine.chars ++ after
          = (tableHeader ++ " \x7b\x7d").toList :: after := rfl
      rw [List.map_nil, hlines, table?, if_pos rfl]
  | cons e more =>
      have hopen : (tableHeader ++ " \x7b").toList ≠ (tableHeader ++ " \x7b\x7d").toList := by
        decide
      have hlines : (block 0 tableHeader ((e :: more).map fun e => e.2.line e.1)).map
          SourceLine.chars ++ after = (tableHeader ++ " \x7b").toList
            :: ((e :: more).map (fun e => (e.2.line e.1).chars) ++ ['\x7d'] :: after) := by
        rw [block, List.map_append, List.map_append, List.map_map, List.append_assoc,
          List.append_assoc]
        rfl
      have hbody : blockOrEmpty 0 tableHeader ((e :: more).map fun e => e.2.line e.1)
          = block 0 tableHeader ((e :: more).map fun e => e.2.line e.1) := rfl
      rw [hbody, hlines, table?, if_neg hopen, if_pos rfl, Reader.entries?_append, Option.map_some]

/-- The table that is read from a source is the one that it was written from. -/
theorem definitionsIn?_render {front back : List Declaration} {t : RuntimeTable}
    (hbare : ∀ d ∈ front ++ .definitionsTable t :: back, ∀ name ∈ d.bareNames, Word name)
    (hfirst : ∀ d ∈ front, d.keyword ≠ .const) :
    definitionsIn? (render (front ++ .definitionsTable t :: back)) = some t := by
  have hconst (line : List Char) (h : startsTable line = true) :
      Keyword.const.text.toList <+: line := by
    have hheader : Keyword.const.text.toList <+: tableHeader.toList := by decide
    exact hheader.trans (List.isPrefixOf_iff_prefix.mp h)
  have hnone : ((lines front).map SourceLine.chars).filter startsTable = [] := by
    rw [filter_lines fun line h => head?_of_isPrefix (hconst line h), List.filter_eq_nil_iff]
    intro line hline hstarts
    obtain ⟨d, hd, rfl⟩ := List.mem_map.mp hline
    exact hfirst d hd (Declaration.keyword_eq_of_isPrefix (hconst _ hstarts)).symm
  have hfront : ∀ line ∈ (lines front).map SourceLine.chars, (!startsTable line) = true := by
    intro line hline
    rw [Bool.not_eq_true', Bool.eq_false_iff]
    exact List.filter_eq_nil_iff.mp hnone line hline
  obtain ⟨first, rest, htable, hstarts⟩ := exists_startsTable t
  rw [definitionsIn?, pieces_render fun d hd name hname => (hbare d hd name hname).unbroken,
    lines_append, List.map_append, List.append_assoc, List.dropWhile_append_of_pos hfront,
    List.flatMap_cons, List.cons_append, List.map_cons, List.cons_append,
    List.dropWhile_cons_of_pos (by decide), Declaration.lines, List.map_append, List.append_assoc,
    htable, List.cons_append, List.dropWhile_cons_of_neg (by simp [hstarts]), ← List.cons_append,
    ← htable]
  exact table?_lines t _

end Source

/-! ### Units -/

namespace Synthesis

variable {c : Config}

theorem definitionsIn?_unitOf (hsettings : c.Valid) (d : Definitions) :
    definitionsIn? (unitOf c d).render = some (.ofMetrics (metricsOf c d)) := by
  have hbare := word_bareNames_unitOf hsettings (d := d)
  have hsplit : (unitOf c d).declarations
      = ([.interface (baseTypeOf d.types c)]
          ++ (metricsOf c d).map (fun m => .interface (m.interface c.baseTypeName))
          ++ (unionsOf c d).map .union
          ++ [.definitionShape, .shapeMap ((metricsOf c d).map fun m => (m.name, m.typeName)),
            .nameUnion])
        ++ .definitionsTable (.ofMetrics (metricsOf c d))
          :: [.metadataOverride c.baseTypeName c.overridableMetadata, .span c.baseTypeName,
            .recorder c.baseTypeName,
            .accessorBase (.ofMetrics c.clientClassName (metricsOf c d))] := by
    rw [List.append_assoc]
    rfl
  rw [hsplit] at hbare
  rw [SourceUnit.render, hsplit]
  refine Source.definitionsIn?_render hbare fun declaration hmem => ?_
  simp only [List.mem_append, List.mem_cons, List.mem_map, List.not_mem_nil, or_false] at hmem
  rcases hmem with ((rfl | ⟨m, _, rfl⟩) | ⟨u, _, rfl⟩) | rfl | rfl | rfl
  all_goals exact fun h => nomatch h

/-- Of the declarations of a unit the interfaces of the metrics alone extend another. -/
theorem metricCount_unitOf (hsettings : c.Valid) (d : Definitions) :
    metricCount (unitOf c d).render = (unitOf c d).metrics.length := by
  have hmetrics : ((metricsOf c d).map fun m => Declaration.interface (m.interface c.baseTypeName)
      ).countP Declaration.extendsAnother = (metricsOf c d).length := by
    rw [List.countP_map]
    exact List.countP_eq_length.mpr fun _ _ => rfl
  have hunions : ((unionsOf c d).map Declaration.union).countP Declaration.extendsAnother = 0 := by
    rw [List.countP_map]
    exact List.countP_eq_zero.mpr fun _ _ => Bool.false_ne_true
  rw [SourceUnit.render, Source.metricCount_render (word_bareNames_unitOf hsettings), unitOf,
    assemble, List.countP_append, List.countP_append, List.countP_append, hmetrics, hunions]
  exact Nat.zero_add _

theorem unionCount_unitOf (hsettings : c.Valid) (d : Definitions) :
    unionCount (unitOf c d).render = (unitOf c d).unions.length := by
  rw [SourceUnit.render, Source.unionCount_render (word_bareNames_unitOf hsettings),
    SourceUnit.unions, List.length_filterMap_eq_countP]
  refine List.countP_congr fun declaration _ => ?_
  cases declaration <;> rfl

end Synthesis

end TelemetryTypes
