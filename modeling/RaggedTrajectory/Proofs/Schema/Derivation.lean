import RaggedTrajectory.Proofs.Schema.Manifest

/-!
# Planning takes the first declaration of a name

A registry goes through the declared arrays once. A name that is covered, or that was met before, is
passed over before its dimensions are looked at, so of every other name only the first declaration
counts. The derived fields have new names and the standard fields cover their own, so the two are
put together without a refusal.

* `Registry.firstDeclared_of_deriveExtended`: the derived fields are those of first declarations.
* `Registry.exists_deriveExtended_iff`: there are such fields if first declarations have a shape.
* `Registry.manifestFor_extended_eq_ok_iff`: an extended manifest fails only with its sources.
* `Registry.plansExactly_of_isMade`: planning, for every registry.
-/

namespace RaggedTrajectory

/-! ## Fields of declarations -/

namespace FieldShape

/-- The dimensions of the value of one particle. -/
def dims : FieldShape → List Nat
  | scalar => []
  | vector3 => [3]

/-- A shape is found for its dimensions, and for no others. -/
theorem ofDims?_eq_some_iff {dims : List Nat} {shape : FieldShape} :
    ofDims? dims = some shape ↔ dims = shape.dims := by
  unfold ofDims? vectorWidth
  by_cases none : dims = []
  · subst none
    cases shape <;> decide
  · by_cases three : dims = [3]
    · subst three
      cases shape <;> decide
    · rw [if_neg none, if_neg three]
      cases shape <;> simp [FieldShape.dims, none, three]

end FieldShape

/-- The first declaration of a name. -/
def Source.firstOf? (sources : List Source) (name : String) : Option Source :=
  sources.find? fun source => source.name = name

theorem Source.firstOf?_cons (source : Source) (sources : List Source) (name : String) :
    firstOf? (source :: sources) name =
      if source.name = name then some source else firstOf? sources name := by
  unfold firstOf?
  rw [List.find?_cons]
  by_cases same : source.name = name <;> simp [same]

/-- A field is that of a declared array: it has its name, its type and its shape, and is read from
it. -/
structure Source.Declares (source : Source) (field : Field) : Prop where
  name : field.name = source.name
  dtype : field.dtype = source.dtype
  shape : source.dims = field.shape.dims
  attributes : field.attributes = .empty
  binding : field.binding = .array source.name
  origin : field.origin = .extended

namespace Registry

/-- The fields of first declarations. Their names are the names that are not taken, in the order in
which they are first met, and each field is that of the first declaration of its name. -/
structure FirstDeclared (taken : String → Bool) (sources : List Source) (fields : List Field) :
    Prop where
  names : fields.map Field.name =
    ((sources.map Source.name).filter fun name => !taken name).eraseDups
  field : ∀ field ∈ fields, ∃ source, Source.firstOf? sources field.name = some source ∧
    source.Declares field

namespace FirstDeclared

variable {taken : String → Bool} {source : Source} {sources : List Source} {fields : List Field}

/-- The names of the fields are those that are declared and not taken. -/
theorem mem_names (declared : FirstDeclared taken sources fields) {name : String} :
    name ∈ fields.map Field.name ↔ name ∈ sources.map Source.name ∧ taken name = false := by
  rw [declared.names, List.mem_eraseDups, List.mem_filter]
  simp

theorem taken_name (declared : FirstDeclared taken sources fields) {field : Field}
    (mem : field ∈ fields) : taken field.name = false :=
  (declared.mem_names.1 (List.mem_map_of_mem mem)).2

/-- A declaration in front with a name that is taken does not matter. -/
theorem cons_of_taken (declared : FirstDeclared taken sources fields)
    (old : taken source.name = true) : FirstDeclared taken (source :: sources) fields := by
  refine ⟨?_, fun field mem => ?_⟩
  · rw [declared.names, List.map_cons, List.filter_cons_of_neg (by simp [old])]
  · obtain ⟨own, first, declares⟩ := declared.field field mem
    -- The field has a name that is not taken, which is not that of the declaration.
    have other : source.name ≠ field.name := by
      rintro same
      rw [same, declared.taken_name mem] at old
      cases old
    exact ⟨own, by rw [Source.firstOf?_cons, if_neg other, first], declares⟩

/-- A declaration in front with a new name takes it, and its field comes first. -/
theorem cons_of_new {field : Field} (new : taken source.name = false)
    (declares : source.Declares field)
    (declared : FirstDeclared (fun name => taken name || name == source.name) sources fields) :
    FirstDeclared taken (source :: sources) (field :: fields) := by
  refine ⟨?_, fun other mem => ?_⟩
  · rw [List.map_cons, List.map_cons, declares.name, declared.names,
      List.filter_cons_of_pos (by simp [new]), List.eraseDups_cons, List.filter_filter]
    -- Repetitions of the new name are erased on one side, and taken on the other.
    congr 3
    funext name
    rw [Bool.not_or, Bool.and_comm]
  · rcases List.mem_cons.1 mem with rfl | mem
    · exact ⟨source, by rw [Source.firstOf?_cons, if_pos declares.name.symm], declares⟩
    · obtain ⟨own, first, ownDeclares⟩ := declared.field other mem
      have apart : source.name ≠ other.name := by
        rintro same
        simpa [same] using declared.taken_name mem
      exact ⟨own, by rw [Source.firstOf?_cons, if_neg apart, first], ownDeclares⟩

end FirstDeclared

/-! ## One declaration -/

section Derivation

variable {registry : Registry}

/-- Whether a name is passed over, when there are some extended fields already. -/
def isTaken (registry : Registry) (extended : Manifest) (name : String) : Bool :=
  registry.isCovered name || extended.contains name

theorem isTaken_empty (registry : Registry) : registry.isTaken .empty = registry.isCovered := by
  funext name
  exact Bool.or_false _

/-- One more field takes its name. -/
theorem isTaken_concat (registry : Registry) (extended : Manifest) (field : Field) :
    registry.isTaken ⟨extended.fields ++ [field]⟩ =
      fun name => registry.isTaken extended name || name == field.name := by
  funext name
  rw [isTaken, isTaken, Bool.or_assoc]
  congr 1
  rw [Bool.eq_iff_iff, Manifest.contains_iff, Bool.or_eq_true, Manifest.contains_iff, beq_iff_eq]
  simp [Manifest.names]

theorem addSource_of_taken {extended : Manifest} {source : Source}
    (taken : registry.isTaken extended source.name = true) :
    registry.addSource extended source = .ok extended := if_pos taken

/-- A declaration of a new name is added if it has a shape. -/
theorem addSource_eq_ok_iff {extended longer : Manifest} {source : Source}
    (new : registry.isTaken extended source.name = false) :
    registry.addSource extended source = .ok longer ↔
      ∃ field, source.Declares field ∧ longer = ⟨extended.fields ++ [field]⟩ := by
  rw [addSource, if_neg (by simpa [isTaken] using new)]
  constructor
  · intro added
    split at added
    · cases added
    · next shape found =>
      obtain ⟨-, rfl⟩ := (Manifest.push_eq_ok_iff _ _ _).1 added
      have dims := FieldShape.ofDims?_eq_some_iff.1 found
      exact ⟨fieldOf source shape, ⟨rfl, rfl, dims, rfl, rfl, rfl⟩, rfl⟩
  · rintro ⟨⟨name, dtype, shape, attributes, binding, origin⟩, declares, rfl⟩
    obtain ⟨rfl, rfl, dims, rfl, rfl, rfl⟩ := declares
    rw [FieldShape.ofDims?_eq_some_iff.2 dims]
    -- The name is new in the manifest too, so it is not refused.
    have absent : source.name ∉ extended.names := by
      rw [← Manifest.contains_iff, (Bool.or_eq_false_iff.1 new).2]
      decide
    exact (Manifest.push_eq_ok_iff _ _ _).2 ⟨absent, rfl⟩

/-! ## All declarations -/

/-- What a pass over the declarations adds to the fields there are. -/
theorem firstDeclared_of_foldlM {extended derived : Manifest} {sources : List Source}
    (passed : sources.foldlM registry.addSource extended = .ok derived) :
    ∃ fields, derived.fields = extended.fields ++ fields ∧
      FirstDeclared (registry.isTaken extended) sources fields := by
  -- The fields there are grow along the pass, and with them the names that are taken.
  induction sources generalizing extended with
  | nil =>
    obtain rfl : extended = derived := by simpa [pure, Except.pure] using passed
    exact ⟨[], (List.append_nil _).symm, rfl, fun field mem => by cases mem⟩
  | cons source sources ih =>
    rw [List.foldlM_cons] at passed
    obtain ⟨next, added, passed⟩ := Error.bind_eq_ok_iff.1 passed
    obtain ⟨fields, behind, declared⟩ := ih passed
    cases taken : registry.isTaken extended source.name with
    | true =>
      obtain rfl : extended = next := Except.ok.inj ((addSource_of_taken taken).symm.trans added)
      exact ⟨fields, behind, declared.cons_of_taken taken⟩
    | false =>
      obtain ⟨field, declares, rfl⟩ := (addSource_eq_ok_iff taken).1 added
      rw [isTaken_concat, declares.name] at declared
      exact ⟨field :: fields, by rw [behind, List.append_assoc, List.singleton_append],
        declared.cons_of_new taken declares⟩

/-- A pass comes to its end if the first declarations of the names that are not taken have a
shape. -/
theorem exists_foldlM_iff {extended : Manifest} {sources : List Source} :
    (∃ derived, sources.foldlM registry.addSource extended = .ok derived) ↔
      ∀ name source, registry.isTaken extended name = false →
        Source.firstOf? sources name = some source →
          ∃ shape : FieldShape, source.dims = shape.dims := by
  induction sources generalizing extended with
  | nil => exact ⟨fun _ _ _ _ found => (by cases found), fun _ => ⟨extended, rfl⟩⟩
  | cons source sources ih =>
    simp only [List.foldlM_cons, Error.bind_eq_ok_iff, Source.firstOf?_cons]
    cases taken : registry.isTaken extended source.name with
    | true =>
      -- Only names that are not taken matter, and theirs are the same first declarations.
      simp only [addSource_of_taken taken, Except.ok.injEq, exists_eq_left', ih]
      refine forall_congr' fun name => forall_congr' fun own => imp_congr_right fun new => ?_
      have other : source.name ≠ name := by
        rintro rfl
        rw [taken] at new
        cases new
      rw [if_neg other]
    | false =>
      constructor
      · rintro ⟨derived, next, added, passed⟩ name own new first
        obtain ⟨field, declares, rfl⟩ := (addSource_eq_ok_iff taken).1 added
        split at first
        · next same =>
          cases first
          exact ⟨field.shape, declares.shape⟩
        · next other =>
          refine ih.1 ⟨derived, passed⟩ name own ?_ first
          simp [isTaken_concat, declares.name, new, Ne.symm other]
      · intro shaped
        -- This declaration is the first one of its name, so it has a shape and is added.
        obtain ⟨shape, dims⟩ := shaped source.name source taken (if_pos rfl)
        have added := (addSource_eq_ok_iff taken).2
          ⟨fieldOf source shape, ⟨rfl, rfl, dims, rfl, rfl, rfl⟩, rfl⟩
        have rest : ∀ name own,
            registry.isTaken ⟨extended.fields ++ [fieldOf source shape]⟩ name = false →
            Source.firstOf? sources name = some own →
              ∃ shape : FieldShape, own.dims = shape.dims := by
          intro name own new first
          rw [isTaken_concat, Bool.or_eq_false_iff, beq_eq_false_iff_ne] at new
          have other : source.name ≠ name := Ne.symm new.2
          exact shaped name own new.1 (by rw [if_neg other, first])
        obtain ⟨derived, passed⟩ := ih.2 rest
        exact ⟨derived, _, added, passed⟩

/-- The derived fields are those of the first declarations of the names that are not covered. -/
theorem firstDeclared_of_deriveExtended {sources : List Source} {derived : Manifest}
    (made : registry.deriveExtended sources = .ok derived) :
    FirstDeclared registry.isCovered sources derived.fields := by
  obtain ⟨fields, all, declared⟩ := firstDeclared_of_foldlM made
  rw [isTaken_empty] at declared
  rwa [all]

/-- Fields are derived if the first declaration of every name that is not covered has a shape. -/
theorem exists_deriveExtended_iff {sources : List Source} :
    (∃ derived, registry.deriveExtended sources = .ok derived) ↔
      ∀ name source, registry.isCovered name = false →
        Source.firstOf? sources name = some source →
          ∃ shape : FieldShape, source.dims = shape.dims := by
  unfold deriveExtended
  rw [exists_foldlM_iff, isTaken_empty]

/-- A declaration whose name is covered, or was declared before, changes nothing, whatever its type
and its dimensions are. -/
theorem deriveExtended_skip {before after : List Source} {source : Source}
    (taken : registry.isCovered source.name = true ∨ source.name ∈ before.map Source.name) :
    registry.deriveExtended (before ++ source :: after) =
      registry.deriveExtended (before ++ after) := by
  unfold deriveExtended
  rw [List.foldlM_append, List.foldlM_append]
  -- Both passes come to the same fields, or to the same error, before they come to it.
  cases passed : before.foldlM registry.addSource .empty with
  | error e => rfl
  | ok extended =>
    have declared : FirstDeclared registry.isCovered before extended.fields :=
      firstDeclared_of_deriveExtended passed
    have old : registry.isTaken extended source.name = true := by
      rw [isTaken, Bool.or_eq_true, Manifest.contains_iff]
      cases covered : registry.isCovered source.name with
      | true => exact .inl rfl
      | false =>
        rw [covered] at taken
        exact .inr (declared.mem_names.2 ⟨taken.resolve_left (by decide), covered⟩)
    rw [Error.ok_bind, Error.ok_bind, List.foldlM_cons, addSource_of_taken old, Error.ok_bind]

end Derivation

/-! ## Planning -/

/-- How registries are made: with the standard fields, or with given fields of distinct names. -/
inductive IsMade : Registry → Prop where
  | default : IsMade .default
  | withStandard {standard : Manifest} (distinct : standard.names.Nodup) (covered : List String) :
    IsMade (.withStandard standard covered)

/-- A registry whose standard fields have distinct names, which are covered, as are the names of the
time axis. -/
structure IsReserving (registry : Registry) : Prop where
  distinct : registry.standard.names.Nodup
  standard : ∀ name ∈ registry.standard.names, registry.isCovered name = true
  axes : ∀ name ∈ axisVariables, registry.isCovered name = true

theorem isReserving_withStandard {standard : Manifest} (distinct : standard.names.Nodup)
    (covered : List String) : (withStandard standard covered).IsReserving := by
  refine ⟨distinct, fun name mem => ?_, fun name mem => ?_⟩
  · exact decide_eq_true (List.mem_append_right _ mem)
  · exact decide_eq_true (List.mem_append_left _ (List.mem_append_right _ mem))

theorem IsMade.isReserving {registry : Registry} (made : registry.IsMade) :
    registry.IsReserving := by
  cases made with
  | default => exact isReserving_withStandard isPlanned_standardManifest.distinct _
  | withStandard distinct covered => exact isReserving_withStandard distinct covered

end Registry

namespace Registry

section Planning

variable {registry : Registry}

/-- No derived field has the name of a standard field. -/
theorem takes_of_deriveExtended (reserving : registry.IsReserving) {sources : List Source}
    {derived : Manifest} (made : registry.deriveExtended sources = .ok derived) :
    registry.standard.Takes derived.fields := by
  have declared := firstDeclared_of_deriveExtended made
  refine ⟨fun field mem standard => ?_, (isPlanned_of_deriveExtended made).distinct⟩
  have covered := reserving.standard field.name standard
  rw [(declared.mem_names.1 (List.mem_map_of_mem mem)).2] at covered
  cases covered

/-- The fields of an extended run are the standard ones and the derived ones behind them. -/
theorem manifestFor_extended_eq_ok_iff (reserving : registry.IsReserving)
    {sources : Option (List Source)} {manifest : Manifest} :
    registry.manifestFor sources true = .ok manifest ↔
      ∃ declared derived, sources = some declared ∧
        registry.deriveExtended declared = .ok derived ∧
        manifest = ⟨registry.standard.fields ++ derived.fields⟩ := by
  rw [manifestFor_true_eq_ok_iff]
  -- The names are distinct, so no field is refused.
  refine exists_congr fun declared => exists_congr fun derived => and_congr_right fun _ => ?_
  exact and_congr_right fun made => and_iff_right (takes_of_deriveExtended reserving made)

/-- A run is planned if its parameters are there and its fields can be put together. -/
theorem plan_eq_ok_iff {parameters : RunParameters} {extended : Bool} {layout : RunLayout} :
    registry.plan parameters extended = .ok layout ↔
      parameters.startTime = some layout.startTime ∧
      parameters.stepCount = some layout.stepCount ∧ layout.stepCount ≠ 0 ∧
      layout.uncertain = parameters.uncertain ∧
      registry.manifestFor parameters.sources extended = .ok layout.manifest := by
  obtain ⟨startTime, stepCount, uncertain, sources⟩ := parameters
  obtain ⟨start, count, twin, manifest⟩ := layout
  unfold plan
  cases startTime with
  | none => simp
  | some startTime =>
    cases stepCount with
    | none => simp
    | some stepCount =>
      by_cases none : stepCount = 0
      · simp only [if_pos none]
        constructor
        · intro planned
          cases planned
        · rintro ⟨-, ⟨⟩, positive, -⟩
          exact absurd none positive
      · simp only [if_neg none, Error.bind_eq_ok_iff]
        constructor
        · rintro ⟨_, made, same⟩
          cases same
          exact ⟨rfl, rfl, none, rfl, made⟩
        · rintro ⟨⟨⟩, ⟨⟩, -, rfl, made⟩
          exact ⟨manifest, made, rfl⟩

/-- The fields of a planned run have distinct names. -/
theorem names_nodup_of_plan (reserving : registry.IsReserving) {parameters : RunParameters}
    {extended : Bool} {layout : RunLayout}
    (planned : registry.plan parameters extended = .ok layout) :
    layout.manifest.names.Nodup := by
  obtain ⟨-, -, -, -, made⟩ := plan_eq_ok_iff.1 planned
  exact names_nodup_of_manifestFor reserving.distinct made

/-- What a registry plans, for any sources and any parameters. -/
structure PlansExactly (registry : Registry) : Prop where
  /-- Fields are derived if the first declaration of every name that is not covered is that of
  single values or of vectors. -/
  derivable : ∀ sources, (∃ derived, registry.deriveExtended sources = .ok derived) ↔
    ∀ name source, registry.isCovered name = false →
      Source.firstOf? sources name = some source → source.dims = [] ∨ source.dims = [3]
  derived : ∀ sources derived, registry.deriveExtended sources = .ok derived →
    FirstDeclared registry.isCovered sources derived.fields
  /-- Covered and repeated declarations have no effect, on errors neither. -/
  skipped : ∀ before source after,
    registry.isCovered source.name = true ∨ source.name ∈ before.map Source.name →
      registry.deriveExtended (before ++ source :: after) =
        registry.deriveExtended (before ++ after)
  extended : ∀ parameters layout, registry.plan parameters true = .ok layout ↔
    parameters.startTime = some layout.startTime ∧
    parameters.stepCount = some layout.stepCount ∧ layout.stepCount ≠ 0 ∧
    layout.uncertain = parameters.uncertain ∧
    ∃ sources derived, parameters.sources = some sources ∧
      registry.deriveExtended sources = .ok derived ∧
      layout.manifest = ⟨registry.standard.fields ++ derived.fields⟩
  distinct : ∀ parameters extended layout, registry.plan parameters extended = .ok layout →
    layout.manifest.names.Nodup
  /-- A run that is not extended has the standard fields, and its sources are not looked at. -/
  plain : ∀ parameters layout, registry.plan parameters false = .ok layout ↔
    parameters.startTime = some layout.startTime ∧
    parameters.stepCount = some layout.stepCount ∧ layout.stepCount ≠ 0 ∧
    layout.uncertain = parameters.uncertain ∧ layout.manifest = registry.standard
  unread : ∀ parameters sources,
    registry.plan { parameters with sources } false = registry.plan parameters false

/-- Planning is exact for every registry: which declarations become fields, which ones are passed
over, and when a run can be planned. -/
theorem plansExactly_of_isMade (made : registry.IsMade) : registry.PlansExactly where
  derivable sources := by
    rw [exists_deriveExtended_iff]
    have shapes (dims : List Nat) :
        (∃ shape : FieldShape, dims = shape.dims) ↔ dims = [] ∨ dims = [3] := by
      constructor
      · rintro ⟨_ | _, rfl⟩
        · exact .inl rfl
        · exact .inr rfl
      · rintro (rfl | rfl)
        · exact ⟨.scalar, rfl⟩
        · exact ⟨.vector3, rfl⟩
    simp only [shapes]
  derived _ _ := firstDeclared_of_deriveExtended
  skipped _ _ _ := deriveExtended_skip
  extended parameters layout := by
    rw [plan_eq_ok_iff, manifestFor_extended_eq_ok_iff made.isReserving]
  distinct _ _ _ := names_nodup_of_plan made.isReserving
  plain parameters layout := by
    have plain : registry.manifestFor parameters.sources false = .ok registry.standard := rfl
    rw [plan_eq_ok_iff, plain, Except.ok.injEq, eq_comm (a := registry.standard)]
  unread _ _ := rfl

end Planning

/-! ## Declarations that are passed over -/

namespace Repeated

def registry : Registry := .withStandard ⟨[.standard "mass" .float32 []]⟩ ["age"]

/-- A covered name, a name of the time axis and a name that was declared before, each with
dimensions that no field can have. -/
def sources : List Source :=
  [⟨"wind", .float64, [3]⟩, ⟨"age", .int8, [2]⟩, ⟨"time", .int8, [0]⟩, ⟨"wind", .int32, [3, 3]⟩,
    ⟨"density", .float32, []⟩]

def parameters : RunParameters := ⟨some ⟨2013, 2, 13, 9, 0, 0, 0⟩, some 4, false, some sources⟩

end Repeated

theorem plansExactly_repeated :
    Repeated.registry.IsMade ∧ ∃ derived,
      Repeated.registry.deriveExtended Repeated.sources = .ok derived ∧
      derived.names = ["wind", "density"] ∧
      Repeated.registry.plan Repeated.parameters true = .ok ⟨⟨2013, 2, 13, 9, 0, 0, 0⟩, 4, false,
        ⟨Repeated.registry.standard.fields ++ derived.fields⟩⟩ := by
  have made : Repeated.registry.IsMade := .withStandard (by decide) ["age"]
  have plans := plansExactly_of_isMade made
  have shaped : ∀ name source, Repeated.registry.isCovered name = false →
      Source.firstOf? Repeated.sources name = some source →
        source.dims = [] ∨ source.dims = [3] := by
    intro name source new first
    have own : source.name = name := by simpa using List.find?_some first
    have mem := List.mem_of_find?_eq_some first
    subst own
    simp only [Repeated.sources, List.mem_cons, List.not_mem_nil, or_false] at mem
    revert new first
    rcases mem with rfl | rfl | rfl | rfl | rfl <;> decide
  obtain ⟨derived, own⟩ := (plans.derivable Repeated.sources).2 shaped
  have positive : (4 : UInt32) ≠ 0 := by decide
  refine ⟨made, derived, own, ?_, (plans.extended _ _).2 ⟨rfl, rfl, positive, rfl, _, derived, rfl,
    own, rfl⟩⟩
  rw [Manifest.names, (plans.derived _ _ own).names]
  decide

end Registry

end RaggedTrajectory
