import TelemetryTypes.Proofs.Lexical.TypeUses
import TelemetryTypes.Proofs.Synthesis.Scope

/-!
# Type names in the text of declarations

Read as a text, a declaration uses the type names that `Declaration.mentions` lists, each with the
type parameters that are bound around it, and no others. Names in quotes, in comments and of
properties are none, and what a declaration is named is no use.
-/

namespace TelemetryTypes

open Lexical

/-! ### Interfaces and unions -/

/-- What a read-only property comes to. -/
def propertyTokens (key : String) (optional : Bool) (type : String) : List String :=
  ["readonly"] ++ [keyToken key] ++ (if optional then ["?"] else []) ++ [":"] ++ [type]

theorem spelled_property (key : String) (optional : Bool) {type : String} (htype : TypeWord type) :
    Spelled []
      ("readonly " ++ Text.propertyKey key ++ (if optional then "?" else "") ++ ": " ++ type) []
      (propertyTokens key optional type) := by
  have hreadonly : Delimited [] "readonly " [] ["readonly"] :=
    Fixed.delimited (by decide) (by decide)
  have hquestion : Sign [] "?" [] ["?"] := by decide
  have hcolon : Sign [] ": " [] [":"] := by decide
  have hkey := hreadonly.append (spelled_propertyKey [] key)
  have hmark : Spelled [] ("readonly " ++ Text.propertyKey key ++ (if optional then "?" else "")) []
      (["readonly"] ++ [keyToken key] ++ (if optional then ["?"] else [])) := by
    cases optional with
    | false => simpa using hkey
    | true => exact (hkey.sign hquestion).toSpelled
  exact (hmark.sign hcolon).append (htype.spelled [])

theorem lineUses_property (outer : List String) (key : String) (optional : Bool) {type : String}
    (htype : TypeWord type) :
    lineUses outer (propertyTokens key optional type) = [(type, outer)] := by
  have hword := htype.isWord
  have hfree := htype.free
  rcases isWord_or_eq_of_keyToken key with hkey | hkey <;> cases optional <;>
    simp +decide [propertyTokens, hkey, hword, hfree]

theorem Field.spelled_lines {f : Field} (htype : TypeWord f.type.text) (depth : Nat) :
    SpelledLines [] (f.lines depth) [] [propertyTokens f.name f.optional f.type.text] :=
  (SpelledLines.comment depth f.doc f.deprecated).append
    (.line (spelled_property f.name f.optional htype) (by simp [propertyTokens]) depth)

/-- What the header of an interface comes to. -/
def Interface.headerTokens (i : Interface) : List String :=
  ["export", "interface"] ++ [i.name] ++ i.extends?.toList.flatMap (["extends", ·])

theorem Interface.spelled_header {i : Interface} (hname : TypeWord i.name)
    (hextends : ∀ base ∈ i.extends?, TypeWord base) :
    Spelled [] i.header [] i.headerTokens := by
  obtain ⟨name, doc, extends?, fields⟩ := i
  have hexport : Delimited [] "export interface " [] ["export", "interface"] :=
    Fixed.delimited (by decide) (by decide)
  have hstart := hexport.append (hname.spelled [])
  cases extends? with
  | none =>
      change Spelled [] ("export interface " ++ name ++ "") []
        (["export", "interface"] ++ [name] ++ [])
      rw [String.append_empty, List.append_nil]
      exact hstart
  | some base =>
      have hkeyword : Sign [] " extends " [] ["extends"] := by decide
      have hall := (hstart.sign hkeyword).append ((hextends base rfl).spelled [])
      rw [String.append_assoc, List.append_assoc] at hall
      exact hall

theorem Interface.lineUses_header {i : Interface} (hname : TypeWord i.name)
    (hextends : ∀ base ∈ i.extends?, TypeWord base) :
    lineUses [] (i.headerTokens ++ ["\x7b"]) = i.extends?.toList.map (·, [])
      ∧ parameters (i.headerTokens ++ ["\x7b"]) = [] := by
  obtain ⟨name, doc, extends?, fields⟩ := i
  have hword := hname.isWord
  cases extends? with
  | none =>
      simp +decide [headerTokens, hword]
  | some base =>
      have hbase := (hextends base rfl).isWord
      have hfree := (hextends base rfl).free
      simp +decide [headerTokens, hword, hbase, hfree]

/-- Properties use their types. -/
theorem flatMap_lineUses {α : Type} {items : List α} {line : α → List String} {type : α → String}
    {outer : List String} (h : ∀ a ∈ items, lineUses outer (line a) = [(type a, outer)]) :
    (items.flatMap fun a => [line a]).flatMap (lineUses outer)
      = items.map fun a => (type a, outer) := by
  rw [List.flatMap_assoc, List.map_eq_flatMap]
  refine List.flatMap_congr fun a ha => ?_
  rw [List.flatMap_singleton, h a ha]

theorem Interface.uses_lines {i : Interface} (hname : TypeWord i.name)
    (hextends : ∀ base ∈ i.extends?, TypeWord base)
    (htypes : ∀ f ∈ i.fields, TypeWord f.type.text) :
    UsesIn i.lines (i.extends?.toList.map (·, []) ++ i.fields.map (·.type.text, [])) := by
  have hbody : SpelledLines [] (i.fields.flatMap (Field.lines 1)) []
      (i.fields.flatMap fun f => [propertyTokens f.name f.optional f.type.text]) :=
    .flatMap fun f hf => f.spelled_lines (htypes f hf) 1
  obtain ⟨found, hlines, huses⟩ :=
    SpelledLines.blockOrEmpty (spelled_header hname hextends) hbody 0
  obtain ⟨hheader, hparameters⟩ := lineUses_header hname hextends
  refine UsesIn.comment ⟨found, hlines, ?_⟩ i.doc
  rw [huses, usesOf, hheader, hparameters]
  exact congrArg _ (flatMap_lineUses fun f hf =>
    lineUses_property [] f.name f.optional (htypes f hf))

theorem LiteralUnion.uses_lines {u : LiteralUnion} (hname : TypeWord u.name) :
    UsesIn u.lines [] := by
  have hexport : Delimited [] "export type " [] ["export", "type"] :=
    Fixed.delimited (by decide) (by decide)
  have hequals : Sign [] " = " [] ["="] := by decide
  have hbar : Sign [] " | " [] ["|"] := by decide
  have hstart := (hexport.append (hname.spelled [])).sign hequals
  obtain ⟨found, hfound, htext⟩ := hstart.literalList hbar (by decide) u.literals
  refine ⟨_, .line htext.toSpelled (by simp) 0, ?_⟩
  have hword := hname.isWord
  simp +decide [usedAfter_wordless hfound, hword]

/-! ### The runtime table -/

/-- A record uses no types. -/
theorem RuntimeRecord.spelled_line (name : String) (r : RuntimeRecord) :
    ∃ line, SpelledLines [] [r.line name] [] [line] ∧ usedIn line = [] := by
  have hbool (b : Bool) (outer : List Char) :
      Spelled outer (if b then "true" else "false") outer [if b then "true" else "false"] := by
    cases b <;> exact spelled_identifier (by decide) outer
  have hunit : Sign [] ": \x7b unit: " ['\x7d'] [":", "\x7b", "unit", ":"] := by decide
  have hpassive : Sign ['\x7d'] ", passive: " ['\x7d'] [",", "passive", ":"] := by decide
  have htrack : Sign ['\x7d'] ", trackPerformance: " ['\x7d'] [",", "trackPerformance", ":"] := by
    decide
  have hlist : Sign ['\x7d'] ", requiredMetadata: [" [']', '\x7d']
      [",", "requiredMetadata", ":", "["] := by decide
  have hcomma : Sign [']', '\x7d'] ", " [']', '\x7d'] [","] := by decide
  have hclose : Sign [']', '\x7d'] "] \x7d," [] ["]", "\x7d", ","] := by decide
  have hkey := ((spelled_propertyKey [] name).sign hunit).literal r.unit
  have hflag := (hkey.toSpelled.sign hpassive).append (hbool r.passive _)
  have hflags := (hflag.sign htrack).append (hbool r.trackPerformance _)
  obtain ⟨found, hfound, hrequired⟩ := (hflags.sign hlist).literalList hcomma (by decide)
    r.requiredMetadata
  have hrest : Wordless (found ++ ["]", "\x7d", ","]) :=
    List.forall_mem_append.mpr ⟨hfound, by decide⟩
  refine ⟨_, .line (hrequired.toSpelled.sign hclose).toSpelled (by simp) 1, ?_⟩
  rcases isWord_or_eq_of_keyToken name with hkey | hkey <;> cases r.passive <;>
    cases r.trackPerformance <;>
    simp +decide [usedAfter_wordless hrest, hkey]

theorem RuntimeTable.uses_lines (t : RuntimeTable) :
    UsesIn t.lines [("Record", []), ("string", []), (Declaration.definitionShapeName, [])] := by
  have hheader : Fixed [] ("export const " ++ Declaration.definitionsTableName
      ++ ": Record<string, " ++ Declaration.definitionShapeName ++ "> =") []
      ["export", "const", "definitions", ":", "Record", "<", "string", ",", "MetricDefinition", ">",
        "="] := by decide
  choose line hspelled hnone using fun e : String × RuntimeRecord => e.2.spelled_line e.1
  have hbody : SpelledLines [] (t.entries.map fun e => e.2.line e.1) []
      (t.entries.flatMap fun e => [line e]) := by
    rw [List.map_eq_flatMap]
    exact .flatMap fun e _ => hspelled e
  have huseless (outer : List String) :
      (t.entries.flatMap fun e => [line e]).flatMap (lineUses outer) = [] := by
    refine List.flatMap_eq_nil_iff.mpr fun l hl => ?_
    obtain ⟨e, -, hl⟩ := List.mem_flatMap.mp hl
    rw [List.mem_singleton.mp hl, lineUses, hnone]
    rfl
  obtain ⟨found, hlines, huses⟩ := SpelledLines.blockOrEmpty hheader.spelled hbody 0
  refine ⟨found, hlines, ?_⟩
  rw [huses, usesOf, huseless]
  decide

/-! ### The client class -/

/-- What an accessor comes to, line by line. -/
def Accessor.tokenLines (a : Accessor) : List (List String) :=
  [["public", "get", keyToken a.metric, "(", ")", ":", Declaration.recorderName, "<", a.shape, ">",
    "\x7b"], ["return", "this", ".", "getMetric", "(", "'", ")"], ["\x7d"]]

theorem Accessor.spelled_lines {a : Accessor} (hshape : TypeWord a.shape) :
    SpelledLines [] a.lines [] a.tokenLines := by
  have hget : Delimited [] "public get " [] ["public", "get"] :=
    Fixed.delimited (by decide) (by decide)
  have hcall : Sign [] ("(): " ++ Declaration.recorderName ++ "<") []
      ["(", ")", ":", Declaration.recorderName, "<"] := by decide
  have hend : Sign [] ">" [] [">"] := by decide
  have hheader := (((hget.append (spelled_propertyKey [] a.metric)).sign hcall).append
    (hshape.spelled [])).sign hend
  have hopen : Delimited [] "return this.getMetric(" [')']
      ["return", "this", ".", "getMetric", "("] := Fixed.delimited (by decide) (by decide)
  have hclose : Sign [')'] ")" [] [")"] := by decide
  have hreturn := (hopen.literal a.metric).toSpelled.sign hclose
  have hblock := SpelledLines.block hheader.toSpelled (.line hreturn.toSpelled (by simp) 2) 1
  have hall := ((SpelledLines.comment 1 (some a.doc) false).append hblock).append .blank
  simpa only [Accessor.lines, Accessor.tokenLines, String.append_assoc, List.cons_append,
    List.nil_append, List.append_nil] using hall

theorem Accessor.flatMap_lineUses {a : Accessor} (hshape : TypeWord a.shape) :
    a.tokenLines.flatMap (lineUses []) = [(Declaration.recorderName, []), (a.shape, [])] := by
  have hword := hshape.isWord
  have hfree := hshape.free
  rcases isWord_or_eq_of_keyToken a.metric with hkey | hkey <;>
    simp +decide [Accessor.tokenLines, hkey, hword, hfree]

theorem AccessorClass.uses_lines {c : AccessorClass} (hname : TypeWord c.name)
    (hshapes : ∀ a ∈ c.accessors, TypeWord a.shape) :
    UsesIn c.lines (c.accessors.flatMap (fun a => [(Declaration.recorderName, []), (a.shape, [])])
      ++ [("string", []), (Declaration.recorderName, [])]) := by
  have hclass : Delimited [] "export abstract class " [] ["export", "abstract", "class"] :=
    Fixed.delimited (by decide) (by decide)
  have hmethod : Fixed [] ("protected abstract getMetric(name: string): "
      ++ Declaration.recorderName) []
      ["protected", "abstract", "getMetric", "(", "name", ":", "string", ")", ":",
        Declaration.recorderName] := by decide
  have hbody := (SpelledLines.flatMap fun a ha => Accessor.spelled_lines (hshapes a ha)).append
    (.fixed hmethod 1)
  refine ⟨_, .block (hclass.append (hname.spelled [])) hbody 0, ?_⟩
  have hword := hname.isWord
  have hheader : lineUses [] (["export", "abstract", "class"] ++ [c.name] ++ ["\x7b"]) = [] := by
    simp +decide [hword]
  have hparameters : parameters (["export", "abstract", "class"] ++ [c.name] ++ ["\x7b"]) = [] := by
    simp +decide [hword]
  rw [usesOf, hheader, hparameters, List.flatMap_append, List.flatMap_append, List.flatMap_assoc,
    List.flatMap_congr fun a ha => Accessor.flatMap_lineUses (hshapes a ha), List.nil_append,
    List.append_assoc]
  refine congrArg _ ?_
  decide

/-! ### The other declarations -/

namespace Declaration

theorem uses_definitionShapeLines :
    UsesIn definitionShapeLines
      [("string", []), ("boolean", []), ("boolean", []), ("string", [])] := by
  have hheader : Fixed [] ("export interface " ++ definitionShapeName) []
      ["export", "interface", definitionShapeName] := by decide
  have hbody : SpelledLines [] [⟨1, "readonly unit: string"⟩, ⟨1, "readonly passive: boolean"⟩,
      ⟨1, "readonly trackPerformance: boolean"⟩,
      ⟨1, "readonly requiredMetadata: readonly string[]"⟩] []
      [["readonly", "unit", ":", "string"], ["readonly", "passive", ":", "boolean"],
        ["readonly", "trackPerformance", ":", "boolean"],
        ["readonly", "requiredMetadata", ":", "readonly", "string", "[", "]"]] :=
    (SpelledLines.fixed (by decide) 1).append ((SpelledLines.fixed (by decide) 1).append
      ((SpelledLines.fixed (by decide) 1).append (.fixed (by decide) 1)))
  exact UsesIn.comment ⟨_, .block hheader.spelled hbody 0, by decide⟩ _

theorem uses_shapeMapLines {entries : List (String × String)}
    (hshapes : ∀ e ∈ entries, TypeWord e.2) :
    UsesIn (shapeMapLines entries) (entries.map (·.2, [])) := by
  have hheader : Fixed [] ("export interface " ++ shapeMapName) []
      ["export", "interface", shapeMapName] := by decide
  have hbody : SpelledLines [] (entries.map fun e =>
        ⟨1, "readonly " ++ Text.propertyKey e.1 ++ ": " ++ e.2⟩) []
      (entries.flatMap fun e => [propertyTokens e.1 false e.2]) := by
    rw [List.map_eq_flatMap]
    refine .flatMap fun e he => .line ?_ (by simp [propertyTokens]) 1
    simpa using spelled_property e.1 false (hshapes e he)
  obtain ⟨found, hlines, huses⟩ := SpelledLines.blockOrEmpty hheader.spelled hbody 0
  refine UsesIn.comment ⟨found, hlines, ?_⟩ _
  have hnone : lineUses [] (["export", "interface", shapeMapName] ++ ["\x7b"]) = [] := by decide
  have hparameters : parameters (["export", "interface", shapeMapName] ++ ["\x7b"]) = [] := by
    decide
  rw [huses, usesOf, hnone, hparameters]
  exact flatMap_lineUses fun e he => lineUses_property [] e.1 false (hshapes e he)

theorem uses_nameUnionLines : UsesIn nameUnionLines [(shapeMapName, [])] := by
  have htext : Fixed [] ("export type " ++ nameUnionName ++ " = keyof " ++ shapeMapName) []
      ["export", "type", nameUnionName, "=", "keyof", shapeMapName] := by decide
  exact UsesIn.comment ⟨_, .fixed htext 0, by decide⟩ _

theorem uses_metadataOverrideLines {base : String} (hbase : TypeWord base)
    (overridable : List String) :
    UsesIn (metadataOverrideLines base overridable)
      ([(base, ["T"]), ("Partial", ["T"]), ("Omit", ["T"]), ("T", ["T"]), (base, ["T"])]
        ++ if overridable.isEmpty then [] else [("Pick", ["T"]), (base, ["T"])]) := by
  have hname : Delimited [] ("export type " ++ metadataOverrideName ++ "<T extends ") []
      ["export", "type", metadataOverrideName, "<", "T", "extends"] :=
    Fixed.delimited (by decide) (by decide)
  have homit : Sign [] ("> = Partial<" ++ "Omit<T, keyof ") []
      [">", "=", "Partial", "<", "Omit", "<", "T", ",", "keyof"] := by decide
  have hpick : Sign [] (">" ++ " & Pick<") [] [">", "&", "Pick", "<"] := by decide
  have hcomma : Sign [] ", " [] [","] := by decide
  have hbar : Sign [] " | " [] ["|"] := by decide
  have hend : Sign [] (">" ++ ">") [] [">", ">"] := by decide
  have hspecific := ((hname.append (hbase.spelled [])).sign homit).append (hbase.spelled [])
  have hword := hbase.isWord
  have hfree := hbase.free
  cases overridable with
  | nil =>
      have htext := (hspecific.sign hend).toSpelled
      have hline : SpelledLines [] [⟨0, _⟩] [] _ := .line htext (by simp) 0
      refine UsesIn.comment ⟨_, by simpa only [List.isEmpty_nil, if_true, String.append_assoc]
        using hline, ?_⟩ _
      simp +decide [metadataOverrideName, hword, hfree]
  | cons name rest =>
      have hpicked := ((hspecific.sign hpick).append (hbase.spelled [])).sign hcomma
      obtain ⟨found, hfound, hlist⟩ := hpicked.literalList hbar (by decide) (name :: rest)
      have htext := (hlist.toSpelled.sign hend).toSpelled
      have hrest : Wordless (found ++ [">", ">"]) :=
        List.forall_mem_append.mpr ⟨hfound, by decide⟩
      have hline : SpelledLines [] [⟨0, _⟩] [] _ := .line htext (by simp) 0
      refine UsesIn.comment ⟨_, by simpa only [List.isEmpty_cons, Bool.false_eq_true, if_false,
        String.append_assoc] using hline, ?_⟩ _
      simp +decide [usedAfter_wordless hrest, metadataOverrideName, hword, hfree]

theorem spelled_boundedBy {text name base : String} {line : List String}
    (h : Spelled [] (text ++ name) [] line) (hbase : TypeWord base) :
    Spelled [] (text ++ boundedBy name base) []
      (line ++ ["<", "T", "extends"] ++ [base] ++ ["="] ++ [base] ++ [">"]) := by
  have hextends : Sign [] "<T extends " [] ["<", "T", "extends"] := by decide
  have hdefault : Sign [] " = " [] ["="] := by decide
  have hend : Sign [] ">" [] [">"] := by decide
  have hbound := (h.sign hextends).append (hbase.spelled [])
  have hall := ((hbound.sign hdefault).append (hbase.spelled [])).sign hend
  simpa only [boundedBy, String.append_assoc] using hall.toSpelled

theorem uses_spanLines {base : String} (hbase : TypeWord base) :
    UsesIn (spanLines base)
      [(base, ["T"]), (base, ["T"]), ("Partial", ["T"]), ("T", ["T"])] := by
  have hname : Fixed [] ("export interface " ++ spanName) [] ["export", "interface", spanName] := by
    decide
  have hbody : SpelledLines [] [⟨1, "record(data: Partial<T>): this"⟩] []
      [["record", "(", "data", ":", "Partial", "<", "T", ">", ")", ":", "this"]] :=
    .fixed (by decide) 1
  refine UsesIn.comment ⟨_, .block (spelled_boundedBy hname.spelled hbase) hbody 0, ?_⟩ _
  have hword := hbase.isWord
  have hfree := hbase.free
  simp +decide [spanName, hword, hfree]

theorem uses_recorderLines {base : String} (hbase : TypeWord base) :
    UsesIn (recorderLines base)
      [(base, ["T"]), (base, ["T"]), ("string", ["T"]), ("T", ["T"]), ("void", ["T"]),
        ("U", ["U", "T"]), (spanName, ["U", "T"]), ("T", ["U", "T"]), ("U", ["U", "T"]),
        ("U", ["U", "T"])] := by
  have hname : Fixed [] ("export interface " ++ recorderName) []
      ["export", "interface", recorderName] := by decide
  have hbody : SpelledLines [] ([⟨1, "readonly name: string"⟩]
        ++ Comment.lines 1 (some "Records one instance of the metric immediately") false
        ++ [⟨1, "emit(data?: T): void"⟩]
        ++ Comment.lines 1
          (some "Calls `fn` and records the metric once it returns or throws") false
        ++ [⟨1, "run<U>(fn: (span: " ++ spanName ++ "<T>) => U): U"⟩]) []
      [["readonly", "name", ":", "string"],
        ["emit", "(", "data", "?", ":", "T", ")", ":", "void"],
        ["run", "<", "U", ">", "(", "fn", ":", "(", "span", ":", spanName, "<", "T", ">", ")", "=",
          ">", "U", ")", ":", "U"]] :=
    (((((SpelledLines.fixed (by decide) 1).append (.comment 1 _ false)).append
      (.fixed (by decide) 1)).append (.comment 1 _ false)).append (.fixed (by decide) 1))
  refine UsesIn.comment ⟨_, .block (spelled_boundedBy hname.spelled hbase) hbody 0, ?_⟩ _
  have hword := hbase.isWord
  have hfree := hbase.free
  simp +decide [spanName, hword, hfree, recorderName]

end Declaration

/-! ### What is used and what is mentioned -/

/-- A use of a type name as it is read. -/
def Mention.use (m : Mention) : String × List String := (m.name, m.bound)

namespace Declaration

theorem mem_map_use_interface {i : Interface} {use : String × List String} :
    use ∈ (interface i).mentions.map Mention.use
      ↔ use ∈ i.extends?.toList.map (·, []) ++ i.fields.map (·.type.text, []) := by
  have hfield (f : Field) : f.type.mention.use = (f.type.text, []) := by cases f.type <;> rfl
  simp [mentions, Mention.use, ← hfield]

/-- Read as a text, a declaration uses the type names that it mentions, and no others. -/
theorem uses_text {d : Declaration} (hbare : ∀ name ∈ d.bareNames, TypeWord name) :
    ∃ uses, typeUses? (SourceLine.renderAll d.lines) = some uses
      ∧ ∀ use, use ∈ uses ↔ use ∈ d.mentions.map Mention.use := by
  suffices h : ∃ uses, UsesIn d.lines uses
      ∧ ∀ use, use ∈ uses ↔ use ∈ d.mentions.map Mention.use by
    obtain ⟨uses, ⟨found, hlines, rfl⟩, hmentions⟩ := h
    exact ⟨_, typeUses?_renderAll hlines, hmentions⟩
  cases d with
  | interface i =>
      obtain ⟨hname, hextends, htypes⟩ := forall_bareNames_interface.mp hbare
      exact ⟨_, i.uses_lines hname hextends htypes, fun _ => mem_map_use_interface.symm⟩
  | union u => exact ⟨_, u.uses_lines (hbare u.name (by simp [bareNames])), fun _ => Iff.rfl⟩
  | definitionShape =>
      refine ⟨_, uses_definitionShapeLines, fun use => ?_⟩
      simp only [mentions, Mention.use, List.map_cons, List.map_nil, List.mem_cons]
      tauto
  | shapeMap entries =>
      refine ⟨_, uses_shapeMapLines fun e he => hbare e.2 (List.mem_map_of_mem he), fun use => ?_⟩
      simp [mentions, Mention.use]
  | nameUnion => exact ⟨_, uses_nameUnionLines, fun _ => Iff.rfl⟩
  | definitionsTable t => exact ⟨_, t.uses_lines, fun _ => Iff.rfl⟩
  | metadataOverride base overridable =>
      refine ⟨_, uses_metadataOverrideLines (hbare base (by simp [bareNames])) overridable,
        fun use => ?_⟩
      cases overridable <;>
        simp only [mentions, Mention.use, List.map_cons, List.map_nil, List.mem_cons,
          List.isEmpty_nil, List.isEmpty_cons, if_true, Bool.false_eq_true, if_false,
          List.map_append, List.mem_append] <;>
        tauto
  | span base =>
      refine ⟨_, uses_spanLines (hbare base (by simp [bareNames])), fun use => ?_⟩
      simp only [mentions, Mention.use, List.map_cons, List.map_nil, List.mem_cons]
      tauto
  | recorder base =>
      refine ⟨_, uses_recorderLines (hbare base (by simp [bareNames])), fun use => ?_⟩
      simp only [mentions, Mention.use, List.map_cons, List.map_nil, List.mem_cons]
      tauto
  | accessorBase c =>
      obtain ⟨hname, hshapes⟩ := forall_bareNames_accessorBase.mp hbare
      refine ⟨_, c.uses_lines hname hshapes, fun use => ?_⟩
      simp only [mentions, Mention.use, List.map_cons, List.map_nil, List.mem_cons, List.map_append,
        List.mem_append, List.mem_flatMap, List.map_map, List.mem_map, Function.comp]
      grind

end Declaration

end TelemetryTypes
