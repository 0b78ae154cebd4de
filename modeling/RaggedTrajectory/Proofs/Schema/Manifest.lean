import Mathlib.Data.List.Forall2
import RaggedTrajectory.Layout
import RaggedTrajectory.Proofs.Schema.Extension
import RaggedTrajectory.Proofs.Schema.RoundTrip

/-!
# The manifest of a run, and the manifest of its files

A run that is planned has fields with distinct names, because a manifest refuses a name it has.
From the schema block of such a run a reader rebuilds the same fields, bound to arrays of their own
names: the variables of the time axis are not on the record axis, so they are no fields.

* `Registry.isPlanned_of_plan`: the fields of a planned run have distinct names.
* `FileSchema.manifest_eq_ok_iff`: which fields any schema has.
* `RunLayout.filter_isRecord`: the variables on the record axis are those of the fields.
* `RunLayout.manifest_fileSchema`: the manifest is rebuilt from the schema.
* `RunLayout.isExact_fileSchema`: the schema has no floating-point attributes.
-/

namespace RaggedTrajectory

/-! ## Distinct names -/

namespace Manifest

theorem names_nodup_of_push {manifest longer : Manifest} {field : Field}
    (distinct : manifest.names.Nodup) (pushed : manifest.push field = .ok longer) :
    longer.names.Nodup := by
  obtain ⟨new, rfl⟩ := (push_eq_ok_iff manifest longer field).1 pushed
  exact nodup_names_followedBy_iff.2 ⟨distinct, takes_cons_iff.2 ⟨new, takes_nil _⟩⟩

/-- Where names are distinct, a field is found by its name. -/
theorem find_of_nodup {manifest : Manifest} (distinct : manifest.names.Nodup) {index : Nat}
    {field : Field} (found : manifest.fields[index]? = some field) :
    manifest.position? field.name = some index ∧ manifest.get? field.name = some field := by
  obtain ⟨inside, rfl⟩ := List.getElem?_eq_some_iff.1 found
  have length : manifest.names.length = manifest.fields.length := List.length_map _
  have before : ∀ j (earlier : j < index),
      manifest.fields[j].name ≠ manifest.fields[index].name := by
    intro j earlier
    have apart := List.pairwise_iff_getElem.1 distinct j index (by omega) (by omega) earlier
    simpa [Manifest.names] using apart
  exact ⟨List.findIdx?_eq_some_iff_getElem.2 ⟨inside, by simp, by simpa using before⟩,
    List.find?_eq_some_iff_getElem.2 ⟨by simp, index, inside, rfl, by simpa using before⟩⟩

end Manifest

/-- A property of manifests that every step of a fold keeps. -/
theorem foldlM_keeps {α : Type} {step : Manifest → α → Except Error Manifest}
    {holds : Manifest → Prop} {items : List α} {start finish : Manifest}
    (keeps : ∀ manifest item next, holds manifest → step manifest item = .ok next → holds next)
    (begins : holds start) (folded : items.foldlM step start = .ok finish) : holds finish := by
  induction items generalizing start with
  | nil =>
    obtain rfl : start = finish := by simpa [pure, Except.pure] using folded
    exact begins
  | cons item items ih =>
    rw [List.foldlM_cons] at folded
    obtain ⟨next, first, others⟩ := Error.bind_eq_ok_iff.1 folded
    exact ih (keeps start item next begins first) others

namespace Attributes

theorem areExact_empty : empty.AreExact := by
  intro entry mem
  cases mem

theorem areExact_set {attributes : Attributes} {key : String} {value : AttributeValue}
    (exact : attributes.AreExact) (new : value.IsExact) : (attributes.set key value).AreExact := by
  obtain ⟨entries⟩ := attributes
  unfold AreExact set at *
  induction entries with
  | nil => simpa [setEntry] using new
  | cons entry entries ih =>
    simp only [List.forall_mem_cons] at exact
    rw [setEntry]
    split
    · exact List.forall_mem_cons.2 ⟨new, exact.2⟩
    · exact List.forall_mem_cons.2 ⟨exact.1, ih exact.2⟩

/-- Attributes set one after the other have the values that were set. -/
theorem areExact_ofList {entries : List (String × AttributeValue)}
    (exact : ∀ entry ∈ entries, entry.2.IsExact) : (ofList entries).AreExact := by
  suffices keeps : ∀ start : Attributes, start.AreExact →
      (entries.foldl (fun attributes entry => attributes.set entry.1 entry.2) start).AreExact from
    keeps empty areExact_empty
  induction entries with
  | nil => exact fun start held => held
  | cons entry entries ih =>
    obtain ⟨first, others⟩ := List.forall_mem_cons.1 exact
    exact fun start held => ih others _ (areExact_set held first)

end Attributes

namespace Registry

/-- What the manifest of a run is known for: distinct names, and attributes that are read back. -/
structure IsPlanned (manifest : Manifest) : Prop where
  distinct : manifest.names.Nodup
  exact : ∀ field ∈ manifest.fields, field.attributes.AreExact

theorem isPlanned_empty : IsPlanned .empty := ⟨List.nodup_nil, by simp [Manifest.empty]⟩

/-- A declared array is added with a new name and without attributes, or not at all. -/
theorem isPlanned_of_addSource {registry : Registry} {manifest next : Manifest} {source : Source}
    (planned : IsPlanned manifest) (added : registry.addSource manifest source = .ok next) :
    IsPlanned next := by
  unfold addSource at added
  split at added
  · obtain rfl : manifest = next := by simpa using added
    exact planned
  · split at added
    · simp at added
    · next shape _ =>
      -- The new field stands behind the old ones, which keep their attributes.
      refine ⟨Manifest.names_nodup_of_push planned.distinct added, fun field mem => ?_⟩
      obtain ⟨-, rfl⟩ := (Manifest.push_eq_ok_iff _ _ _).1 added
      rcases List.mem_append.1 mem with mem | mem
      · exact planned.exact field mem
      · obtain rfl := List.mem_singleton.1 mem
        exact Attributes.areExact_empty

theorem isPlanned_of_deriveExtended {registry : Registry} {sources : List Source}
    {manifest : Manifest} (derived : registry.deriveExtended sources = .ok manifest) :
    IsPlanned manifest :=
  foldlM_keeps (fun _ _ _ planned => isPlanned_of_addSource planned) isPlanned_empty derived

/-- The fields of an extended run are the standard ones and the derived ones behind them, if their
names are apart. -/
theorem manifestFor_true_eq_ok_iff {registry : Registry} {sources : Option (List Source)}
    {manifest : Manifest} :
    registry.manifestFor sources true = .ok manifest ↔
      ∃ declared derived, sources = some declared ∧
        registry.deriveExtended declared = .ok derived ∧
        registry.standard.Takes derived.fields ∧
        manifest = registry.standard.followedBy derived.fields := by
  unfold manifestFor
  rw [if_pos rfl]
  cases sources with
  | none => simp
  | some sources =>
    simp only [Error.bind_eq_ok_iff, Option.some.injEq, exists_and_left, exists_eq_left']
    refine exists_congr fun derived => and_congr_right fun _ => ?_
    rw [← Manifest.extend_eq_ok_iff]
    -- An extension that fails is a plan that fails, whatever it has left behind.
    split
    · next longer extended =>
      rw [extended]
      exact ⟨fun same => (by cases same; rfl), fun same => (by cases same; rfl)⟩
    · next e longer extended =>
      rw [extended]
      exact iff_of_false (fun same => by cases same) (fun same => by cases same)

/-- The fields of a run have distinct names if the standard ones have. -/
theorem names_nodup_of_manifestFor {registry : Registry} {sources : Option (List Source)}
    {extended : Bool} {manifest : Manifest} (distinct : registry.standard.names.Nodup)
    (made : registry.manifestFor sources extended = .ok manifest) : manifest.names.Nodup := by
  cases extended with
  | false =>
    obtain rfl : registry.standard = manifest := Except.ok.inj made
    exact distinct
  | true =>
    obtain ⟨declared, derived, -, -, takes, rfl⟩ := manifestFor_true_eq_ok_iff.1 made
    exact Manifest.nodup_names_followedBy_iff.2 ⟨distinct, takes⟩

theorem isPlanned_of_manifestFor {registry : Registry} {sources : Option (List Source)}
    {extended : Bool} {manifest : Manifest} (standard : IsPlanned registry.standard)
    (made : registry.manifestFor sources extended = .ok manifest) : IsPlanned manifest := by
  refine ⟨names_nodup_of_manifestFor standard.distinct made, fun field mem => ?_⟩
  cases extended with
  | false =>
    obtain rfl : registry.standard = manifest := Except.ok.inj made
    exact standard.exact field mem
  | true =>
    -- A field of the whole manifest is a standard one or a derived one.
    obtain ⟨declared, derived, -, own, -, rfl⟩ := manifestFor_true_eq_ok_iff.1 made
    exact (List.mem_append.1 mem).elim (standard.exact field)
      ((isPlanned_of_deriveExtended own).exact field)

/-- The standard fields have distinct names, texts and lists of integers. -/
theorem isPlanned_standardManifest : IsPlanned standardManifest := by
  refine ⟨by decide, fun field mem => ?_⟩
  simp only [standardManifest, List.mem_cons, List.not_mem_nil, or_false] at mem
  rcases mem with rfl | rfl | rfl | rfl | rfl | rfl | rfl | rfl <;>
    exact Attributes.areExact_ofList (by simp [AttributeValue.IsExact])

theorem isPlanned_of_plan {parameters : RunParameters} {extended : Bool} {layout : RunLayout}
    (planned : default.plan parameters extended = .ok layout) : IsPlanned layout.manifest := by
  unfold plan at planned
  split at planned
  · simp at planned
  · simp at planned
  · split at planned
    · simp at planned
    · obtain ⟨manifest, made, same⟩ := Error.bind_eq_ok_iff.1 planned
      cases same
      exact isPlanned_of_manifestFor isPlanned_standardManifest made

end Registry

/-! ## The fields of a file -/

namespace Field

/-- The field as a file declares it: read from the array of its own name. -/
def asDeclared (field : Field) : Field := field.boundTo (.array field.name)

end Field

namespace Variable

/-- A field is that of a variable on the record axis: it has its name, its type, its axes, its
attributes and its origin, and is read from the array of its name. -/
structure Declares (declared : Variable) (field : Field) : Prop where
  name : field.name = declared.name
  dtype : field.dtype = declared.dtype
  dimensions : declared.dimensions = field.shape.dimensions
  attributes : field.attributes = declared.attributes
  binding : field.binding = .array declared.name
  origin : field.origin = declared.origin.getD .extended

/-- On the record axis a variable has the shape whose axes are its own. -/
theorem shape?_eq_some_iff {declared : Variable} (record : declared.isRecord = true)
    {shape : FieldShape} :
    declared.shape? = some shape ↔ declared.dimensions = shape.dimensions := by
  obtain ⟨name, dtype, dimensions, attributes, origin⟩ := declared
  obtain ⟨rest, rfl⟩ : ∃ rest, dimensions = FieldShape.recordAxis :: rest := by
    simpa [isRecord, List.head?_eq_some_iff] using record
  rcases rest with _ | ⟨second, _ | ⟨third, rest⟩⟩
  · cases shape <;> simp [shape?, FieldShape.dimensions]
  · by_cases same : second = FieldShape.componentAxis <;> cases shape <;>
      simp [shape?, FieldShape.dimensions, same]
  · cases shape <;> simp [shape?, FieldShape.dimensions]

/-- The variable of a field is on the record axis. -/
theorem isRecord_ofField (field : Field) : (ofField field).isRecord = true := by
  obtain ⟨name, dtype, shape, attributes, binding, origin⟩ := field
  cases shape <;> rfl

theorem declares_asDeclared (field : Field) : (ofField field).Declares field.asDeclared :=
  ⟨rfl, rfl, rfl, rfl, rfl, rfl⟩

end Variable

namespace FileSchema

section Rebuilding

variable {manifest longer : Manifest}

/-- A variable that is not on the record axis is no field. -/
theorem addField_of_other {declared : Variable} (other : declared.isRecord = false) :
    addField manifest declared = .ok manifest := by
  rw [addField, if_neg (by simp [other])]

/-- A variable on the record axis adds its field, if it has one and its name is new. -/
theorem addField_eq_ok_iff {declared : Variable} (record : declared.isRecord = true) :
    addField manifest declared = .ok longer ↔
      ∃ field, declared.Declares field ∧ manifest.push field = .ok longer := by
  rw [addField, if_pos record]
  constructor
  · intro added
    split at added
    · cases added
    · next shape found =>
      exact ⟨_, ⟨rfl, rfl, (Variable.shape?_eq_some_iff record).1 found, rfl, rfl, rfl⟩, added⟩
  · rintro ⟨⟨name, dtype, shape, attributes, binding, origin⟩, declares, pushed⟩
    obtain ⟨rfl, rfl, dimensions, rfl, rfl, rfl⟩ := declares
    rw [(Variable.shape?_eq_some_iff record).2 dimensions]
    exact pushed

/-- A row of variables adds the fields of those on the record axis, in their order. -/
theorem foldlM_addField_eq_ok_iff {declarations : List Variable} :
    declarations.foldlM addField manifest = .ok longer ↔
      ∃ fields, List.Forall₂ Variable.Declares (declarations.filter Variable.isRecord) fields ∧
        manifest.Takes fields ∧ longer = manifest.followedBy fields := by
  -- The manifest grows along the row, and with it the names that are taken.
  induction declarations generalizing manifest with
  | nil => simp [pure, Except.pure, Manifest.takes_nil, eq_comm]
  | cons declared declarations ih =>
    rw [List.foldlM_cons, Error.bind_eq_ok_iff]
    cases record : declared.isRecord with
    | false =>
      rw [List.filter_cons_of_neg (by simp [record])]
      simp only [addField_of_other record, Except.ok.injEq, exists_eq_left', ih]
    | true =>
      rw [List.filter_cons_of_pos record]
      simp only [addField_eq_ok_iff record, ih]
      constructor
      · rintro ⟨next, ⟨field, declares, pushed⟩, fields, others, takes, rfl⟩
        obtain ⟨new, rfl⟩ := (Manifest.push_eq_ok_iff _ _ _).1 pushed
        exact ⟨field :: fields, .cons declares others, Manifest.takes_cons_iff.2 ⟨new, takes⟩,
          (manifest.followedBy_cons field fields).symm⟩
      · rintro ⟨fields, all, takes, rfl⟩
        cases all with
        | @cons _ field _ fields declares others =>
          obtain ⟨new, rest⟩ := Manifest.takes_cons_iff.1 takes
          exact ⟨_, ⟨field, declares, Manifest.push_of_new new⟩, fields, others, rest,
            manifest.followedBy_cons field fields⟩

/-- The fields of a file are those of its variables on the record axis, in their order. They are
found if each of these variables has a field and no two of them have the same name. -/
theorem manifest_eq_ok_iff {schema : FileSchema} :
    schema.manifest = .ok manifest ↔
      List.Forall₂ Variable.Declares (schema.declarations.filter Variable.isRecord)
        manifest.fields ∧ manifest.names.Nodup := by
  obtain ⟨own⟩ := manifest
  rw [FileSchema.manifest, foldlM_addField_eq_ok_iff]
  constructor
  · rintro ⟨fields, declared, takes, same⟩
    obtain rfl : own = fields := congrArg Manifest.fields same
    exact ⟨declared, takes.distinct⟩
  · rintro ⟨declared, distinct⟩
    exact ⟨own, declared, ⟨fun _ _ => List.not_mem_nil, distinct⟩, rfl⟩

/-- The fields of a file have distinct names, whatever its schema declares. -/
theorem names_nodup_of_manifest {schema : FileSchema} (made : schema.manifest = .ok manifest) :
    manifest.names.Nodup :=
  (manifest_eq_ok_iff.1 made).2

end Rebuilding

end FileSchema

namespace RunLayout

/-- The variables on the record axis are those of the fields, in their order, whatever the names of
the fields are. -/
theorem filter_isRecord (layout : RunLayout) (globals : GlobalAttributes) (created : Timestamp) :
    (layout.fileSchema globals created).declarations.filter Variable.isRecord =
      layout.manifest.fields.map Variable.ofField := by
  have time : layout.timeVariable.isRecord = false := rfl
  have count : countVariable.isRecord = false := rfl
  show List.filter _ (layout.timeVariable :: countVariable :: _) = _
  -- The two variables of the time axis are told apart by their axis, not by their names.
  rw [List.filter_cons_of_neg (by rw [time]; decide),
    List.filter_cons_of_neg (by rw [count]; decide), List.filter_eq_self]
  intro declared mem
  obtain ⟨field, -, rfl⟩ := List.mem_map.1 mem
  exact Variable.isRecord_ofField field

/-- The manifest of a file of a run has the fields of the run, bound to their own names. -/
theorem manifest_fileSchema {layout : RunLayout} (distinct : layout.manifest.names.Nodup)
    (globals : GlobalAttributes) (created : Timestamp) :
    (layout.fileSchema globals created).manifest =
      .ok ⟨layout.manifest.fields.map Field.asDeclared⟩ := by
  refine FileSchema.manifest_eq_ok_iff.2 ⟨?_, ?_⟩
  · rw [filter_isRecord, List.forall₂_map_left_iff, List.forall₂_map_right_iff, List.forall₂_same]
    exact fun field _ => Variable.declares_asDeclared field
  · -- A field keeps its name when it is bound to its own array.
    rw [Manifest.names, List.map_map]
    exact distinct

theorem isExact_fileSchema {layout : RunLayout} (planned : Registry.IsPlanned layout.manifest)
    (globals : GlobalAttributes) (created : Timestamp) :
    (layout.fileSchema globals created).IsExact := by
  refine ⟨Attributes.areExact_ofList (by simp [AttributeValue.IsExact]), fun declared mem => ?_⟩
  simp only [fileSchema, List.mem_cons, List.mem_map] at mem
  rcases mem with rfl | rfl | ⟨field, inside, rfl⟩
  · exact Attributes.areExact_ofList (by simp [AttributeValue.IsExact])
  · exact Attributes.areExact_ofList (by simp [AttributeValue.IsExact])
  · exact planned.exact field inside

end RunLayout

end RaggedTrajectory
