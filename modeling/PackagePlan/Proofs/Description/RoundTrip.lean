/-
  Reading a written description gives it back. Each part of a description is restored from its
  value, whatever the order of the entries, and with every optional part that was left out
  (`ofToml_toToml` for each type); each is a table that a document can hold; so the description is
  read back from its text (`render_parses_back`), paths letter by letter.
-/
import PackagePlan.Description.Toml
import PackagePlan.Proofs.Constraints
import PackagePlan.Proofs.Toml.Record

namespace PackagePlan

open Outcome (bind_eq_ok)
open Toml (Field IsRecord Record Restores Table Value)

namespace Toml

theorem restores_paths? (paths : List Path) :
    Restores (listOf Path.ofToml) (texts? (paths.map Path.text)) paths := by
  refine restores_unlessEmpty ?_
  have hvalue : texts (paths.map Path.text) = .array (paths.map Path.toToml) := by
    unfold texts
    rw [List.map_map]
    rfl
  rw [hvalue]
  exact listOf_array paths fun _ _ => rfl

theorem eq_nil_of_paths? {paths : List Path} (h : texts? (paths.map Path.text) = none) :
    [] = paths :=
  (List.map_eq_nil_iff.1 (eq_nil_of_texts? h).symm).symm

end Toml

open Toml

/-! ## Words and settings -/

theorem LanguageStandard.ofToml_toToml (standard : LanguageStandard) :
    ofToml standard.toToml.arranged = .ok standard := by
  show ofName standard.render = .ok standard
  cases standard <;> rfl

theorem Version.ofToml_render (v : Version) : ofToml (Value.string v.render).arranged = .ok v := by
  show (Version.parse v.render).mapError BuildError.asFault = .ok v
  rw [Version.parse_render]
  rfl

theorem ProductVisibility.ofToml_toToml (visibility : ProductVisibility) :
    ofToml visibility.toToml.arranged = .ok visibility := by
  cases visibility with
  | all => rfl
  | only names =>
    have hread : (names.map Value.string).mapM text = .ok names := by
      have hnames := listOf_texts names
      rw [arranged_of_isLine (isLine_texts names)] at hnames
      exact hnames
    show ofToml (texts names).arranged = .ok (.only names)
    rw [arranged_of_isLine (isLine_texts names), texts, ofToml, hread]

namespace CSettings

variable (settings : CSettings)

theorem isRecord_slots (room : Nat) : IsRecord room settings.slots := by
  constructor
  · show ["language_standard", "defines", "unsafe_flags"].Nodup
    decide
  · simp only [slots, List.forall_mem_cons]
    exact ⟨isSlot_map fun _ => .line rfl, isSlot_texts? room settings.defines,
      isSlot_texts? room settings.unsafeFlags, fun _ h => nomatch h⟩

theorem ofToml_toToml : ofToml settings.toToml.arranged = .ok settings := by
  have h := settings.isRecord_slots 0
  have hstandard := fun (standard : LanguageStandard) (_ : standard ∈ settings.languageStandard) =>
    standard.ofToml_toToml
  have hdefines := restores_texts? settings.defines
  have hflags := restores_texts? settings.unsafeFlags
  have hrecord : Record.of fields settings.toToml.arranged = .ok (.written settings.slots) :=
    Record.of_present h (.cons (passes_optional hstandard)
      (.cons (passes_field hdefines) (.cons (passes_field hflags) .nil)))
  refine bind_eq_ok.2 ⟨_, hrecord, ?_⟩
  refine bind_eq_ok.2 ⟨_, Record.optional_written h (by simp [slots]) hstandard, ?_⟩
  refine bind_eq_ok.2
    ⟨_, Record.withDefault_written h (by simp [slots]) hdefines eq_nil_of_texts?, ?_⟩
  refine bind_eq_ok.2
    ⟨_, Record.withDefault_written h (by simp [slots]) hflags eq_nil_of_texts?, ?_⟩
  rfl

end CSettings

/-! ## Targets and products -/

theorem Path.ofToml_toToml (path : Path) : ofToml path.toToml.arranged = .ok path := rfl

namespace Target

variable (target : Target)

theorem isRecord_slots (room : Nat) : IsRecord (room + 1) target.slots := by
  constructor
  · show ["name", "dependencies", "path", "sources", "exclude", "public_headers",
      "header_search_paths", "c_settings"].Nodup
    decide
  · simp only [slots, List.forall_mem_cons]
    exact ⟨isSlot_text _ target.name, isSlot_texts? _ target.dependencies,
      isSlot_text _ target.path.text, isSlot_texts? _ (target.sources.map Path.text),
      isSlot_texts? _ target.exclude, isSlot_map fun _ => .line rfl,
      isSlot_texts? _ (target.headerSearchPaths.map Path.text),
      isSlot_map fun settings => isWritable_record (settings.isRecord_slots room),
      fun _ h => nomatch h⟩

theorem ofToml_toToml : ofToml target.toToml.arranged = .ok target := by
  have h := target.isRecord_slots 0
  have hname := restores_text target.name
  have hdependencies := restores_texts? target.dependencies
  have hpath : Restores Path.ofToml (some target.path.toToml) target.path := restores_some rfl
  have hsources := restores_paths? target.sources
  have hexclude := restores_texts? target.exclude
  have hheaders := fun (path : Path) (_ : path ∈ target.publicHeaders) => path.ofToml_toToml
  have hsearch := restores_paths? target.headerSearchPaths
  have hsettings := fun (settings : CSettings) (_ : settings ∈ target.cSettings) =>
    settings.ofToml_toToml
  have hrecord : Record.of fields target.toToml.arranged = .ok (.written target.slots) :=
    Record.of_present h (.cons (passes_field hname) (.cons (passes_field hdependencies)
      (.cons (passes_field hpath) (.cons (passes_field hsources) (.cons (passes_field hexclude)
      (.cons (passes_optional hheaders) (.cons (passes_field hsearch)
      (.cons (passes_optional hsettings) .nil))))))))
  refine bind_eq_ok.2 ⟨_, hrecord, ?_⟩
  refine bind_eq_ok.2 ⟨_, Record.required_written h (by simp [slots]) hname, ?_⟩
  refine bind_eq_ok.2
    ⟨_, Record.withDefault_written h (by simp [slots]) hdependencies eq_nil_of_texts?, ?_⟩
  refine bind_eq_ok.2 ⟨_, Record.required_written h (by simp [slots]) hpath, ?_⟩
  refine bind_eq_ok.2
    ⟨_, Record.withDefault_written h (by simp [slots]) hsources eq_nil_of_paths?, ?_⟩
  refine bind_eq_ok.2
    ⟨_, Record.withDefault_written h (by simp [slots]) hexclude eq_nil_of_texts?, ?_⟩
  refine bind_eq_ok.2 ⟨_, Record.optional_written h (by simp [slots]) hheaders, ?_⟩
  refine bind_eq_ok.2
    ⟨_, Record.withDefault_written h (by simp [slots]) hsearch eq_nil_of_paths?, ?_⟩
  refine bind_eq_ok.2 ⟨_, Record.optional_written h (by simp [slots]) hsettings, ?_⟩
  rfl

end Target

namespace Product

variable (product : Product)

theorem isRecord_slots (room : Nat) : IsRecord room product.slots := by
  constructor
  · show ["name", "targets"].Nodup
    decide
  · simp only [slots, List.forall_mem_cons]
    exact ⟨isSlot_text _ product.name, isSlot_some (isWritable_texts room product.targets),
      fun _ h => nomatch h⟩

theorem ofToml_toToml : ofToml product.toToml.arranged = .ok product := by
  have h := product.isRecord_slots 0
  have hname := restores_text product.name
  have htargets : Restores (listOf text) (some (texts product.targets)) product.targets :=
    restores_some (listOf_texts product.targets)
  have hrecord : Record.of fields product.toToml.arranged = .ok (.written product.slots) :=
    Record.of_present h (.cons (passes_field hname) (.cons (passes_field htargets) .nil))
  refine bind_eq_ok.2 ⟨_, hrecord, ?_⟩
  refine bind_eq_ok.2 ⟨_, Record.required_written h (by simp [slots]) hname, ?_⟩
  refine bind_eq_ok.2 ⟨_, Record.required_written h (by simp [slots]) htargets, ?_⟩
  rfl

end Product

/-! ## Variants -/

namespace PlatformConstraints

variable (constraints : PlatformConstraints)

theorem isWritable_toToml (room : Nat) : constraints.toToml.IsWritable (room + 1) :=
  isWritable_tableOf constraints.toTable fun _ _ => .line rfl

theorem ofToml_toToml : ofToml constraints.toToml.arranged = .ok constraints := by
  have hstring : ∀ entry ∈ constraints.toTable.entries, (Value.string entry.2).IsWritable 0 :=
    fun _ _ => .line rfl
  have htable : catalogOf text constraints.toToml.arranged = .ok constraints.toTable :=
    catalogOf_tableOf constraints.toTable hstring fun _ _ => rfl
  refine bind_eq_ok.2 ⟨_, htable, ?_⟩
  rw [ofTable_toTable]
  rfl

theorem eq_empty_of_isEmpty (h : constraints.isEmpty = true) : {} = constraints := by
  obtain ⟨minimums⟩ := constraints
  exact congrArg mk (Catalog.eq_empty_of_isEmpty h)

end PlatformConstraints

namespace VariantSpec

variable (spec : VariantSpec)

theorem isRecord_slots (room : Nat) : IsRecord (room + 1) spec.slots := by
  constructor
  · show ["min_tools_version", "products", "platforms", "extra_exclude"].Nodup
    decide
  · have hproducts : spec.products.toToml.IsWritable (room + 1) := by
      cases spec.products with
      | all => exact .line rfl
      | only names => exact isWritable_texts _ names
    have hextra := isWritable_tableOf spec.extraExclude fun entry _ =>
      isWritable_texts room entry.2
    simp only [slots, List.forall_mem_cons]
    exact ⟨isSlot_text _ spec.minToolsVersion.render, isSlot_some hproducts,
      isSlot_unlessEmpty (spec.platforms.isWritable_toToml room), isSlot_unlessEmpty hextra,
      fun _ h => nomatch h⟩

theorem ofToml_toToml : ofToml spec.toToml.arranged = .ok spec := by
  have h := spec.isRecord_slots 0
  have hversion : Restores Version.ofToml (some (.string spec.minToolsVersion.render))
      spec.minToolsVersion := restores_some spec.minToolsVersion.ofToml_render
  have hproducts : Restores ProductVisibility.ofToml (some spec.products.toToml) spec.products :=
    restores_some spec.products.ofToml_toToml
  have hplatforms : Restores PlatformConstraints.ofToml
      (unlessEmpty spec.platforms.isEmpty spec.platforms.toToml) spec.platforms :=
    restores_unlessEmpty spec.platforms.ofToml_toToml
  have hextra : Restores (catalogOf (listOf text)) (unlessEmpty spec.extraExclude.isEmpty
      (tableOf texts spec.extraExclude.entries)) spec.extraExclude :=
    restores_unlessEmpty (catalogOf_tableOf spec.extraExclude
      (fun entry _ => isWritable_texts 0 entry.2) fun entry _ => listOf_texts entry.2)
  have hrecord : Record.of fields spec.toToml.arranged = .ok (.written spec.slots) :=
    Record.of_present h (.cons (passes_field hversion) (.cons (passes_field hproducts)
      (.cons (passes_field hplatforms) (.cons (passes_field hextra) .nil))))
  refine bind_eq_ok.2 ⟨_, hrecord, ?_⟩
  refine bind_eq_ok.2 ⟨_, Record.required_written h (by simp [slots]) hversion, ?_⟩
  refine bind_eq_ok.2 ⟨_, Record.withDefault_written h (by simp [slots]) hproducts nofun, ?_⟩
  refine bind_eq_ok.2 ⟨_, Record.withDefault_written h (by simp [slots]) hplatforms fun hnone =>
    spec.platforms.eq_empty_of_isEmpty (eq_true_of_unlessEmpty hnone), ?_⟩
  refine bind_eq_ok.2 ⟨_, Record.withDefault_written h (by simp [slots]) hextra fun hnone =>
    Catalog.eq_empty_of_isEmpty (eq_true_of_unlessEmpty hnone), ?_⟩
  rfl

end VariantSpec

/-! ## Descriptions -/

namespace PackageDescription

variable (description : PackageDescription)

theorem isRecord_slots (room : Nat) : IsRecord (room + 3) description.slots := by
  constructor
  · show ["name", "c_language_standard", "targets", "products", "variants"].Nodup
    decide
  · have htargets := isWritable_records description.targets fun target _ =>
      target.isRecord_slots (room + 1)
    have hproducts := isWritable_records description.products fun product _ =>
      product.isRecord_slots (room + 2)
    have hvariants : (tableOf VariantSpec.toToml description.variants.entries).IsWritable
        (room + 3) := isWritable_tableOf description.variants fun entry _ =>
      isWritable_record (entry.2.isRecord_slots room)
    simp only [slots, List.forall_mem_cons]
    exact ⟨isSlot_text _ description.name, isSlot_map fun _ => .line rfl, isSlot_some htargets,
      isSlot_some hproducts, isSlot_unlessEmpty hvariants, fun _ h => nomatch h⟩

/-- A description is restored from its table, whatever order its entries were written in. -/
theorem ofTable_arrange : ofTable (Toml.arrange description.toTable) = .ok description := by
  have h := description.isRecord_slots 0
  have hname := restores_text description.name
  have hstandard := fun (standard : LanguageStandard)
    (_ : standard ∈ description.cLanguageStandard) => standard.ofToml_toToml
  have htargets : Restores (listOf Target.ofToml)
      (some (.array (description.targets.map Target.toToml))) description.targets :=
    restores_some (listOf_array description.targets fun target _ => target.ofToml_toToml)
  have hproducts : Restores (listOf Product.ofToml)
      (some (.array (description.products.map Product.toToml))) description.products :=
    restores_some (listOf_array description.products fun product _ => product.ofToml_toToml)
  have hvariants : Restores (catalogOf VariantSpec.ofToml)
      (unlessEmpty description.variants.isEmpty
        (tableOf VariantSpec.toToml description.variants.entries)) description.variants :=
    restores_unlessEmpty (catalogOf_tableOf description.variants
      (fun entry _ => isWritable_record (entry.2.isRecord_slots 0))
      fun entry _ => entry.2.ofToml_toToml)
  have hrecord : Record.of fields (Value.table description.toTable).arranged =
      .ok (.written description.slots) :=
    Record.of_present h (.cons (passes_field hname) (.cons (passes_optional hstandard)
      (.cons (passes_field htargets) (.cons (passes_field hproducts)
      (.cons (passes_field hvariants) .nil)))))
  have hread : ofToml (Value.table description.toTable).arranged = .ok description := by
    refine bind_eq_ok.2 ⟨_, hrecord, ?_⟩
    refine bind_eq_ok.2 ⟨_, Record.required_written h (by simp [slots]) hname, ?_⟩
    refine bind_eq_ok.2 ⟨_, Record.optional_written h (by simp [slots]) hstandard, ?_⟩
    refine bind_eq_ok.2 ⟨_, Record.withDefault_written h (by simp [slots]) htargets nofun, ?_⟩
    refine bind_eq_ok.2 ⟨_, Record.withDefault_written h (by simp [slots]) hproducts nofun, ?_⟩
    refine bind_eq_ok.2 ⟨_, Record.withDefault_written h (by simp [slots]) hvariants fun hnone =>
      Catalog.eq_empty_of_isEmpty (eq_true_of_unlessEmpty hnone), ?_⟩
    rfl
  show (ofToml (Value.table description.toTable).arranged).mapError _ = _
  rw [hread]
  rfl

/-- Reading the text of a description gives the description back. -/
theorem render_parses_back : parse description.render = .ok description := by
  have h := description.isRecord_slots 76
  have htable := parse?_render (nodup_present h) fun _ => isWritable_of_mem_present h
  unfold parse render toTable
  rw [htable]
  exact description.ofTable_arrange

end PackageDescription

end PackagePlan
