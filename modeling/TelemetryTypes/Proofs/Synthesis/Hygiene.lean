import TelemetryTypes.Definitions.Text
import TelemetryTypes.Proofs.Synthesis.Legality
import TelemetryTypes.Proofs.Synthesis.Mentions

/-!
# Sources that keep their names apart

The claims on type names keep what a source exports apart from each other, and the check of settings
asks for identifiers. Neither looks at the target language: at its words, at the types of its library
that the texts use, or at the parameter `T` under which three of the texts name the base type.
`Hygienic` is what a source has to be for its names to stand for what is meant, and `hygienic_iff`
says which settings and definitions give such a source; a run does not refuse the others. Which
names a text uses is read off the text itself in the end (`uses_faithful`).
-/

namespace TelemetryTypes

/-- A source none of whose own names gets in the way of its texts. -/
structure Hygienic (c : Config) (u : SourceUnit) : Prop where
  utility_free : ∀ declaration ∈ u.declarations, declaration.name ∉ Target.utilityTypes
  base_unbound : c.baseTypeName ≠ "T"
  base_free : c.baseTypeName ∉ Target.reservedWords ++ Target.predefinedTypes
  client_free : c.clientClassName ∉ Target.reservedWords ++ Target.predefinedTypes

namespace Mention

variable {u : SourceUnit} {name : String} {bound : List String}

theorem faithful_predefined (hname : name ∈ Target.predefinedTypes) :
    Faithful u ⟨name, bound, .predefined⟩ :=
  if_pos hname

theorem faithful_parameter (hbuiltin : name ∉ Target.predefinedTypes) (hbound : name ∈ bound) :
    Faithful u ⟨name, bound, .parameter⟩ :=
  referent_of_bound hbuiltin hbound

end Mention

namespace Hygienic

variable {c : Config} {u : SourceUnit}

theorem base_not_predefined (h : Hygienic c u) : c.baseTypeName ∉ Target.predefinedTypes :=
  fun hname => h.base_free (List.mem_append_right _ hname)

theorem faithful_library (h : Hygienic c u) {name : String} {bound : List String}
    (hutility : name ∈ Target.utilityTypes) (hfree : name ∉ bound) :
    Mention.Faithful u ⟨name, bound, .library⟩ := by
  have hbuiltin : ∀ word ∈ Target.utilityTypes, word ∉ Target.predefinedTypes := by decide
  exact Mention.referent_of_utility (hbuiltin name hutility) hfree hutility h.utility_free

end Hygienic

theorem Target.pascalCase_not_predefined (name : String) :
    Text.pascalCase name ∉ predefinedTypes :=
  Text.pascalCase_not_mem (by decide) name

namespace Synthesis

variable (c : Config) (d : Definitions)

theorem interface_mem_unitOf {i : Interface} (hi : i ∈ (unitOf c d).interfaces) :
    .interface i ∈ (unitOf c d).declarations := by
  obtain ⟨declaration, hmem, hsome⟩ := List.mem_filterMap.mp hi
  cases declaration with
  | interface j => exact Option.some.inj hsome ▸ hmem
  | _ => cases hsome

theorem union_mem_unitOf {v : LiteralUnion} (hv : v ∈ unionsOf c d) :
    .union v ∈ (unitOf c d).declarations := by
  simp [unitOf, assemble, hv]

theorem fixed_subset :
    [.definitionShape, .shapeMap ((metricsOf c d).map fun m => (m.name, m.typeName)), .nameUnion,
      .definitionsTable (.ofMetrics (metricsOf c d)),
      .metadataOverride c.baseTypeName c.overridableMetadata, .span c.baseTypeName,
      .recorder c.baseTypeName, .accessorBase (.ofMetrics c.clientClassName (metricsOf c d))]
        ⊆ (unitOf c d).declarations :=
  List.subset_append_right _ _

theorem utility_free_iff :
    (∀ declaration ∈ (unitOf c d).declarations, declaration.name ∉ Target.utilityTypes)
      ↔ c.baseTypeName ∉ Target.utilityTypes ∧ c.clientClassName ∉ Target.utilityTypes
        ∧ ∀ name ∈ d.metrics.map Metric.name ++ d.enumeratedNames c,
          Text.pascalCase name ∉ Target.utilityTypes := by
  have hfixed : ∀ name ∈ ["definitions", "MetricDefinition", "MetricShapes", "MetricName",
      "Metadata", "Span", "Metric"], name ∉ Target.utilityTypes := by decide
  have hnames : (∀ declaration ∈ (unitOf c d).declarations, declaration.name ∉ Target.utilityTypes)
      ↔ ∀ name ∈ "definitions" :: d.typeNames c, name ∉ Target.utilityTypes := by
    rw [← List.forall_mem_map (f := Declaration.name) (P := (· ∉ Target.utilityTypes))]
    simp only [(map_name_declarations_perm c d).mem_iff]
  rw [hnames]
  simp only [Definitions.typeNames, List.forall_mem_cons, List.forall_mem_append,
    List.forall_mem_map] at hfixed ⊢
  tauto

end Synthesis

namespace Acceptable

variable {d : Definitions} {c : Config}

theorem referent_of_mem (h : Acceptable d c) {declaration : Declaration}
    (hmem : declaration ∈ (Synthesis.unitOf c d).declarations)
    (htype : declaration.exportsType = true) {m : Mention} (hname : declaration.name = m.name)
    (hbuiltin : m.name ∉ Target.predefinedTypes) (hfree : m.name ∉ m.bound) :
    m.referent (Synthesis.unitOf c d) = .exported declaration := by
  have hnodup := (Synthesis.map_name_types_perm c d).nodup_iff.mpr h.typeNames_nodup
  exact Mention.referent_of_exported hbuiltin hfree hnodup hmem htype hname

theorem faithful_base (h : Acceptable d c) (hygienic : Hygienic c (Synthesis.unitOf c d))
    {bound : List String} (hfree : c.baseTypeName ∉ bound) :
    Mention.Faithful (Synthesis.unitOf c d) ⟨c.baseTypeName, bound, .base⟩ := by
  have hfirst := congrArg List.head? (Synthesis.interfaces_unitOf c d)
  exact ⟨_, hfirst, h.referent_of_mem List.mem_cons_self rfl rfl hygienic.base_not_predefined hfree⟩

theorem faithful_metric (h : Acceptable d c) {m : Metric} (hm : m ∈ d.metrics) :
    Mention.Faithful (Synthesis.unitOf c d) ⟨m.typeName, [], .metric⟩ := by
  have htail : (Synthesis.metricOf d.types c m).interface c.baseTypeName
      ∈ (Synthesis.unitOf c d).interfaces.tail := by
    rw [Synthesis.interfaces_unitOf]
    exact List.mem_map_of_mem (List.mem_map_of_mem hm)
  have hmem := Synthesis.interface_mem_unitOf c d (List.mem_of_mem_tail htail)
  exact ⟨_, htail,
    h.referent_of_mem hmem rfl rfl (Target.pascalCase_not_predefined m.name) List.not_mem_nil⟩

theorem faithful_union (h : Acceptable d c) {name : String} (hname : name ∈ d.enumeratedNames c) :
    Mention.Faithful (Synthesis.unitOf c d) ⟨Text.pascalCase name, [], .union⟩ := by
  have hunion : (Registration.ofName d.types name).union ∈ Synthesis.unionsOf c d := by
    rw [Synthesis.unionsOf_eq]
    exact List.mem_map_of_mem hname
  have hmem := Synthesis.union_mem_unitOf c d hunion
  refine ⟨_, Synthesis.unions_unitOf c d ▸ hunion, ?_⟩
  exact h.referent_of_mem hmem rfl rfl (Target.pascalCase_not_predefined name) List.not_mem_nil

theorem faithful_field (h : Acceptable d c) {i : Interface}
    (hi : i ∈ (Synthesis.unitOf c d).interfaces) {f : Field} (hf : f ∈ i.fields) :
    f.type.mention.Faithful (Synthesis.unitOf c d) := by
  cases htype : f.type with
  | named name =>
      obtain ⟨hname, rfl⟩ := Synthesis.enumerated_of_named c d hi hf htype
      exact h.faithful_union hname
  | string | number | boolean => exact Mention.faithful_predefined (by decide)

theorem faithful_definitionShape (h : Acceptable d c) :
    Mention.Faithful (Synthesis.unitOf c d)
      ⟨Declaration.definitionShapeName, [], .definitionShape⟩ :=
  h.referent_of_mem (Synthesis.fixed_subset c d (by simp)) rfl rfl (by decide) (by decide)

theorem faithful_shapeMap (h : Acceptable d c) :
    Mention.Faithful (Synthesis.unitOf c d) ⟨Declaration.shapeMapName, [], .shapeMap⟩ :=
  ⟨(Synthesis.metricsOf c d).map fun m => (m.name, m.typeName),
    h.referent_of_mem (Synthesis.fixed_subset c d (by simp)) rfl rfl (by decide) (by decide)⟩

theorem faithful_span (h : Acceptable d c) :
    Mention.Faithful (Synthesis.unitOf c d) ⟨Declaration.spanName, ["U", "T"], .span⟩ :=
  ⟨c.baseTypeName,
    h.referent_of_mem (Synthesis.fixed_subset c d (by simp)) rfl rfl (by decide) (by decide)⟩

theorem faithful_recorder (h : Acceptable d c) :
    Mention.Faithful (Synthesis.unitOf c d) ⟨Declaration.recorderName, [], .recorder⟩ :=
  ⟨c.baseTypeName,
    h.referent_of_mem (Synthesis.fixed_subset c d (by simp)) rfl rfl (by decide) (by decide)⟩

/-- In a hygienic source each name that a declaration uses stands for what is meant. -/
theorem faithful (h : Acceptable d c) (hygienic : Hygienic c (Synthesis.unitOf c d))
    {declaration : Declaration} (hmem : declaration ∈ (Synthesis.unitOf c d).declarations) :
    ∀ m ∈ declaration.mentions, m.Faithful (Synthesis.unitOf c d) := by
  have hshape : ∀ name ∈ declaration.shapes,
      Mention.Faithful (Synthesis.unitOf c d) ⟨name, [], .metric⟩ := by
    intro name hname
    obtain ⟨m, hm, rfl⟩ :=
      Synthesis.mem_shapes_unitOf c d (List.mem_flatMap.mpr ⟨declaration, hmem, hname⟩)
    exact h.faithful_metric hm
  have hbase : ∀ name ∈ declaration.bases, ∀ bound, bound ⊆ ["T"] →
      Mention.Faithful (Synthesis.unitOf c d) ⟨name, bound, .base⟩ := by
    intro name hname bound hbound
    rw [Synthesis.mem_bases_unitOf c d (List.mem_flatMap.mpr ⟨declaration, hmem, hname⟩)]
    exact h.faithful_base hygienic fun hin =>
      hygienic.base_unbound (List.mem_singleton.mp (hbound hin))
  have hparameter {bound : List String} (hT : "T" ∈ bound) :
      Mention.Faithful (Synthesis.unitOf c d) ⟨"T", bound, .parameter⟩ :=
    Mention.faithful_parameter (by decide) hT
  -- Only what a declaration is given depends on the run; the other names are fixed by its kind.
  cases declaration with
  | interface i =>
      have hi : i ∈ (Synthesis.unitOf c d).interfaces := List.mem_filterMap.mpr ⟨_, hmem, rfl⟩
      intro m hm
      rcases List.mem_append.mp hm with hextends | hfield
      · obtain ⟨name, hname, rfl⟩ := List.mem_map.mp hextends
        exact hbase name hname [] (List.nil_subset _)
      · obtain ⟨f, hf, rfl⟩ := List.mem_map.mp hfield
        exact h.faithful_field hi hf
  | union _ => exact List.forall_mem_nil _
  | definitionShape =>
      simp only [Declaration.mentions, List.forall_mem_cons]
      exact ⟨Mention.faithful_predefined (by decide), Mention.faithful_predefined (by decide),
        List.forall_mem_nil _⟩
  | shapeMap entries =>
      intro m hm
      obtain ⟨entry, hentry, rfl⟩ := List.mem_map.mp hm
      exact hshape _ (List.mem_map_of_mem hentry)
  | nameUnion =>
      simp only [Declaration.mentions, List.forall_mem_cons]
      exact ⟨h.faithful_shapeMap, List.forall_mem_nil _⟩
  | definitionsTable _ =>
      simp only [Declaration.mentions, List.forall_mem_cons]
      exact ⟨hygienic.faithful_library (by decide) (by decide),
        Mention.faithful_predefined (by decide), h.faithful_definitionShape, List.forall_mem_nil _⟩
  | metadataOverride base overridable =>
      simp only [Declaration.mentions, List.forall_mem_append, List.forall_mem_cons]
      refine ⟨⟨hbase base List.mem_cons_self _ (List.Subset.refl _),
        hygienic.faithful_library (by decide) (by decide),
        hygienic.faithful_library (by decide) (by decide), hparameter (by decide),
        List.forall_mem_nil _⟩, ?_⟩
      split
      · exact List.forall_mem_nil _
      · rw [List.forall_mem_singleton]
        exact hygienic.faithful_library (by decide) (by decide)
  | span base =>
      simp only [Declaration.mentions, List.forall_mem_cons]
      exact ⟨hbase base List.mem_cons_self _ (List.Subset.refl _),
        hygienic.faithful_library (by decide) (by decide), hparameter (by decide),
        List.forall_mem_nil _⟩
  | recorder base =>
      simp only [Declaration.mentions, List.forall_mem_cons]
      exact ⟨hbase base List.mem_cons_self _ (List.Subset.refl _),
        Mention.faithful_predefined (by decide), hparameter (by decide),
        Mention.faithful_predefined (by decide), h.faithful_span, hparameter (by decide),
        Mention.faithful_parameter (by decide) (by decide), List.forall_mem_nil _⟩
  | accessorBase client =>
      simp only [Declaration.mentions, List.forall_mem_append, List.forall_mem_cons]
      refine ⟨fun m hm => ?_, h.faithful_recorder, Mention.faithful_predefined (by decide),
        List.forall_mem_nil _⟩
      obtain ⟨accessor, haccessor, rfl⟩ := List.mem_map.mp hm
      exact hshape _ (List.mem_map_of_mem haccessor)

end Acceptable

/-- **Which sources keep their names apart.** A source that a run gives is hygienic exactly when
neither of the two names in the settings is a word of the language or a type of the library, the base
type is not named `T`, and no metric or union is named like a type of the library. In such a source
every type name stands for what the text means by it. -/
theorem hygienic_iff {documents : List Definitions} {c : Config} {u : SourceUnit}
    (h : generateDocuments documents c = .ok u) :
    (Hygienic c u ↔
      c.baseTypeName
          ∉ "T" :: Target.reservedWords ++ Target.predefinedTypes ++ Target.utilityTypes
        ∧ c.clientClassName
          ∉ Target.reservedWords ++ Target.predefinedTypes ++ Target.utilityTypes
        ∧ ∀ name ∈ (Definitions.merge (withBundled documents c)).metrics.map Metric.name
            ++ (Definitions.merge (withBundled documents c)).enumeratedNames c,
          Text.pascalCase name ∉ Target.utilityTypes)
      ∧ (Hygienic c u → ∀ declaration ∈ u.declarations, ∀ m ∈ declaration.mentions,
          m.Faithful u) := by
  obtain ⟨hacceptable, rfl⟩ := (generate_eq_ok_iff_acceptable _ c u).mp h
  refine ⟨⟨?_, ?_⟩, fun hygienic declaration hmem => hacceptable.faithful hygienic hmem⟩
  · rintro ⟨hutility, hunbound, hbase, hclient⟩
    obtain ⟨hbaseUtility, hclientUtility, hnames⟩ :=
      (Synthesis.utility_free_iff c _).mp hutility
    refine ⟨?_, ?_, hnames⟩
    · rw [List.cons_append, List.cons_append, List.mem_cons, List.mem_append]
      exact not_or.mpr ⟨hunbound, not_or.mpr ⟨hbase, hbaseUtility⟩⟩
    · rw [List.mem_append]
      exact not_or.mpr ⟨hclient, hclientUtility⟩
  · rintro ⟨hbase, hclient, hnames⟩
    rw [List.cons_append, List.cons_append, List.mem_cons, List.mem_append, not_or, not_or] at hbase
    obtain ⟨hunbound, hbase, hbaseUtility⟩ := hbase
    rw [List.mem_append, not_or] at hclient
    have hutility := (Synthesis.utility_free_iff c _).mpr ⟨hbaseUtility, hclient.2, hnames⟩
    exact ⟨hutility, hunbound, hbase, hclient.1⟩

theorem hygienic_sample :
    Hygienic .sample (Synthesis.unitOf .sample (.merge [.sample]))
      ∧ ∀ declaration ∈ (Synthesis.unitOf .sample (.merge [.sample])).declarations,
        ∀ m ∈ declaration.mentions, m.Faithful (Synthesis.unitOf .sample (.merge [.sample])) := by
  have hrun : generateDocuments [.sample] .sample
      = .ok (Synthesis.unitOf .sample (.merge [.sample])) := rfl
  have hygienic := (hygienic_iff hrun).1.mpr (by decide)
  exact ⟨hygienic, (hygienic_iff hrun).2 hygienic⟩

/-- A run refuses neither a base type that is named like a word of the language, nor an accepted
document whose union hides the library's type that the runtime table is written with. -/
theorem not_hygienic :
    (∀ word ∈ ["class", "enum", "string", "T", "Partial"], ∃ u,
      generateDocuments [] ⟨word, "TelemetryBase", [], [], false⟩ = .ok u
        ∧ ¬Hygienic ⟨word, "TelemetryBase", [], [], false⟩ u)
      ∧ ∃ document u,
        Definitions.ofJson (.ofEntries [
          ("types", .array [.ofEntries [("name", .string "record"),
            ("allowedValues", .array [.string "a"])]]),
          ("metrics", .array [.ofEntries [("name", .string "file_save"),
            ("description", .string "d"),
            ("metadata", .array [.ofEntries [("type", .string "record")]])]])]) "a.json"
            = .ok document
          ∧ generateDocuments [document] ⟨"MetricBase", "TelemetryBase", [], [], false⟩ = .ok u
          ∧ ¬Hygienic ⟨"MetricBase", "TelemetryBase", [], [], false⟩ u
          ∧ Mention.referent u ⟨"Record", [], .library⟩ = .exported (.union ⟨"Record", ["a"]⟩) := by
  constructor
  · simp only [List.forall_mem_cons]
    refine ⟨⟨_, rfl, fun h => ?_⟩, ⟨_, rfl, fun h => ?_⟩, ⟨_, rfl, fun h => ?_⟩,
      ⟨_, rfl, fun h => h.base_unbound rfl⟩, ⟨_, rfl, fun h => ?_⟩, List.forall_mem_nil _⟩
    · exact absurd h.base_free (by decide)
    · exact absurd h.base_free (by decide)
    · exact absurd h.base_free (by decide)
    · exact absurd h.utility_free (by decide)
  · refine ⟨⟨[.enumerated "record" ["a"]], [.bare "file_save" "d" [⟨"record", none, none⟩]]⟩, _,
      rfl, rfl, fun h => ?_, rfl⟩
    exact absurd h.utility_free (by decide)

/-! ### Names that are read off the text -/

namespace Synthesis

variable {c : Config} {d : Definitions}

/-- A bare name of a source is a claimed one, or a word for a type. -/
theorem bareName_cases {declaration : Declaration} (hmem : declaration ∈ (unitOf c d).declarations)
    {name : String} (hname : name ∈ declaration.bareNames) :
    name ∈ ["definitions", "string", "number", "boolean"] ∨ name ∈ d.typeNames c := by
  have hown : declaration.name ∈ ["definitions", "string", "number", "boolean"]
      ∨ declaration.name ∈ d.typeNames c := by
    have hnames := (map_name_declarations_perm c d).mem_iff.mp (List.mem_map_of_mem hmem)
    refine (List.mem_cons.mp hnames).imp_left fun heq => ?_
    rw [heq]
    exact List.mem_cons_self
  have hbase : ∀ name ∈ declaration.bases, name ∈ d.typeNames c := by
    intro name hname
    rw [mem_bases_unitOf c d (List.mem_flatMap.mpr ⟨declaration, hmem, hname⟩)]
    simp [Definitions.typeNames]
  have hshape : ∀ name ∈ declaration.shapes, name ∈ d.typeNames c := by
    intro name hname
    obtain ⟨m, hm, rfl⟩ := mem_shapes_unitOf c d (List.mem_flatMap.mpr ⟨declaration, hmem, hname⟩)
    exact List.mem_append_left _ (List.mem_append_right _ (List.mem_map_of_mem hm))
  cases declaration with
  | interface i =>
      have hi : i ∈ (unitOf c d).interfaces := List.mem_filterMap.mpr ⟨_, hmem, rfl⟩
      rcases List.mem_append.mp hname with hfirst | htype
      · rcases List.mem_cons.mp hfirst with rfl | hextends
        · exact hown
        · exact .inr (hbase name hextends)
      · obtain ⟨f, hf, rfl⟩ := List.mem_map.mp htype
        cases htype : f.type with
        | string | number | boolean => exact .inl (by decide)
        | named name =>
            obtain ⟨henumerated, rfl⟩ := enumerated_of_named c d hi hf htype
            exact .inr (List.mem_append_right _ (List.mem_map_of_mem henumerated))
  | union u =>
      rw [List.mem_singleton.mp hname]
      exact hown
  | shapeMap entries => exact .inr (hshape name hname)
  | metadataOverride base _ | span base | recorder base => exact .inr (hbase name hname)
  | accessorBase client =>
      rcases List.mem_cons.mp hname with rfl | hmetric
      · exact hown
      · exact .inr (hshape name hmetric)
  | definitionShape | nameUnion | definitionsTable _ => cases hname

end Synthesis

/-- Each claimed name of a hygienic source is read as the name of a type. -/
theorem Hygienic.not_valueWord {d : Definitions} {c : Config} {u : SourceUnit} (h : Hygienic c u) :
    ∀ name ∈ d.typeNames c, name ∉ Lexical.valueWords := by
  have hreserved : Lexical.valueWords ⊆ Target.reservedWords ++ Target.predefinedTypes := by decide
  have hpascal (name : String) : Text.pascalCase name ∉ Lexical.valueWords :=
    Text.pascalCase_not_mem (by decide) name
  have hfixed : ∀ name ∈ ["MetricDefinition", "MetricShapes", "MetricName", "Metadata", "Span",
      "Metric"], name ∉ Lexical.valueWords := by decide
  simp only [Definitions.typeNames, List.forall_mem_append, List.forall_mem_cons,
    List.forall_mem_map] at hfixed ⊢
  exact ⟨⟨⟨⟨mt (hreserved ·) h.base_free, mt (hreserved ·) h.client_free, List.forall_mem_nil _⟩,
    hfixed⟩, fun m _ => hpascal m.name⟩, fun name _ => hpascal name⟩

theorem Acceptable.typeWord {d : Definitions} {c : Config} (h : Acceptable d c) (hlawful : d.Lawful)
    (hygienic : Hygienic c (Synthesis.unitOf c d)) {declaration : Declaration}
    (hmem : declaration ∈ (Synthesis.unitOf c d).declarations) :
    ∀ name ∈ declaration.bareNames, Lexical.TypeWord name := by
  have hfixed : ∀ name ∈ ["definitions", "string", "number", "boolean"],
      Text.isIdentifier name = true ∧ name ∉ Lexical.valueWords := by decide
  intro name hname
  rcases Synthesis.bareName_cases hmem hname with hword | hclaimed
  · exact ⟨(hfixed name hword).1, (hfixed name hword).2⟩
  · exact ⟨h.isIdentifier_typeName hlawful hclaimed, hygienic.not_valueWord name hclaimed⟩

/-- **Every type name in the text stands for what is meant.** In a hygienic source that a run makes
from accepted documents, the uses of type names that are read off the text of a declaration are those
that it mentions, and each of them stands for what is meant by it. -/
theorem uses_faithful {documents : List Definitions} {c : Config} {u : SourceUnit}
    (haccepted : ∀ d ∈ documents, ∃ value source, Definitions.ofJson value source = .ok d)
    (h : generateDocuments documents c = .ok u) (hygienic : Hygienic c u) :
    ∀ declaration ∈ u.declarations, ∃ uses,
      Lexical.typeUses? (SourceLine.renderAll declaration.lines) = some uses
        ∧ (∀ use ∈ uses, ∃ m ∈ declaration.mentions, m.use = use ∧ m.Faithful u)
        ∧ ∀ m ∈ declaration.mentions, m.use ∈ uses := by
  obtain ⟨hacceptable, rfl⟩ := (generate_eq_ok_iff_acceptable _ c u).mp h
  have hlawful := Definitions.lawful_merge_withBundled c fun d hd => by
    obtain ⟨value, source, hvalue⟩ := haccepted d hd
    exact Definitions.lawful_of_ofJson hvalue
  intro declaration hmem
  obtain ⟨uses, htext, hmentions⟩ :=
    Declaration.uses_text (hacceptable.typeWord hlawful hygienic hmem)
  refine ⟨uses, htext, fun use huse => ?_, fun m hm => ?_⟩
  · obtain ⟨m, hm, rfl⟩ := List.mem_map.mp ((hmentions use).mp huse)
    exact ⟨m, hm, rfl, hacceptable.faithful hygienic hmem m hm⟩
  · exact (hmentions m.use).mpr (List.mem_map_of_mem hm)

end TelemetryTypes
