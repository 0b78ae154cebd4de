import RaggedTrajectory.Proofs.Schema.Derivation

/-!
# The names of the variables of a file

A file declares the variables of the time axis first, and behind them one variable for every field.
A registry keeps the names of the time axis free of extended fields, whatever the sources declare.
It does not keep them free of standard fields: whoever makes a registry may call a standard field
`time`, and then the files of a run have two variables of this name. No other name is ever declared
twice.

* `RunLayout.names_declarations`: the names in their order.
* `Registry.declares_distinct_names_iff`: when they are distinct, and which ones are not.
* `Registry.declares_time_twice`: a registry whose files have two variables named `time`.
-/

namespace RaggedTrajectory

namespace RunLayout

/-- The names of the variables of a file. -/
def declaredNames (layout : RunLayout) (globals : GlobalAttributes) (created : Timestamp) :
    List String :=
  (layout.fileSchema globals created).declarations.map Variable.name

/-- The variables of the time axis come first, then those of the fields. -/
theorem declaredNames_eq (layout : RunLayout) (globals : GlobalAttributes) (created : Timestamp) :
    layout.declaredNames globals created = axisVariables ++ layout.manifest.names := by
  show "time" :: "particle_count" :: (layout.manifest.fields.map Variable.ofField).map
    Variable.name = _
  rw [List.map_map]
  rfl

end RunLayout

namespace Registry

section Planned

variable {registry : Registry} {parameters : RunParameters} {extended : Bool} {layout : RunLayout}

/-- A field with the name of a variable of the time axis is a standard field. -/
theorem mem_standard_of_plan (reserving : registry.IsReserving)
    (planned : registry.plan parameters extended = .ok layout) {name : String}
    (axis : name ∈ axisVariables) :
    name ∈ layout.manifest.names ↔ name ∈ registry.standard.names := by
  obtain ⟨-, -, -, -, made⟩ := plan_eq_ok_iff.1 planned
  cases extended with
  | false =>
    obtain same : registry.standard = layout.manifest := Except.ok.inj made
    rw [same]
  | true =>
    obtain ⟨sources, derived, -, own, all⟩ := (manifestFor_extended_eq_ok_iff reserving).1 made
    -- A derived field has a name that is not covered, and this one is.
    have free : name ∉ derived.names := by
      intro mem
      have covered := reserving.axes name axis
      rw [((firstDeclared_of_deriveExtended own).mem_names.1 mem).2] at covered
      cases covered
    have names : layout.manifest.names = registry.standard.names ++ derived.names := by
      rw [all, Manifest.names, Manifest.names, Manifest.names, List.map_append]
    rw [names, List.mem_append, or_iff_left free]

/-- The names of the standard fields of the default registry are not those of the time axis. -/
theorem standard_default_free : ∀ name ∈ axisVariables, name ∉ default.standard.names := by decide

/-- The variables of the files of a planned run have distinct names exactly if no standard field of
the registry has the name of a variable of the time axis; other names are never declared twice. In
the default registry no standard field has such a name. -/
theorem declares_distinct_names_iff (made : registry.IsMade)
    (planned : registry.plan parameters extended = .ok layout) (globals : GlobalAttributes)
    (created : Timestamp) :
    ((layout.declaredNames globals created).Nodup ↔
      ∀ name ∈ axisVariables, name ∉ registry.standard.names) ∧
    (∀ name, 1 < (layout.declaredNames globals created).count name →
      name ∈ axisVariables ∧ name ∈ registry.standard.names) ∧
    (registry = .default → (layout.declaredNames globals created).Nodup) := by
  have reserving := made.isReserving
  have distinct := names_nodup_of_plan reserving planned
  have axes : axisVariables.Nodup := by decide
  have standard {name : String} (axis : name ∈ axisVariables) :
      name ∈ layout.manifest.names ↔ name ∈ registry.standard.names :=
    mem_standard_of_plan reserving planned axis
  rw [layout.declaredNames_eq]
  have free : (axisVariables ++ layout.manifest.names).Nodup ↔
      ∀ name ∈ axisVariables, name ∉ registry.standard.names := by
    rw [List.nodup_append]
    constructor
    · rintro ⟨-, -, apart⟩ name axis mem
      exact apart name axis name ((standard axis).2 mem) rfl
    · intro free
      refine ⟨axes, distinct, ?_⟩
      rintro name axis _ mem rfl
      exact free name axis ((standard axis).1 mem)
  refine ⟨free, fun name twice => ?_, ?_⟩
  · -- Neither the time axis nor the manifest has a name twice, so this one is in both.
    have first := List.nodup_iff_count.1 axes name
    have second := List.nodup_iff_count.1 distinct name
    rw [List.count_append] at twice
    have axis : name ∈ axisVariables := List.count_pos_iff.1 (by omega)
    exact ⟨axis, (standard axis).1 (List.count_pos_iff.1 (by omega))⟩
  · rintro rfl
    exact free.2 standard_default_free

end Planned

/-! ## A source and a standard field named `time` -/

namespace Reserved

def start : Timestamp := ⟨2013, 2, 13, 9, 0, 0, 0⟩

def sources : List Source := [⟨"time", .float64, []⟩, ⟨"density", .float32, []⟩]

/-- The layout of a run of which a source declares an array named `time`. -/
def layout : RunLayout :=
  ⟨start, 1, false, ⟨[.standard "mass" .float32 [], fieldOf ⟨"density", .float32, []⟩ .scalar]⟩⟩

/-- The field named `time` as a standard field. -/
def standard : Manifest := ⟨[.standard "time" .float64 []]⟩

end Reserved

theorem declares_distinct_names_density :
    (withStandard ⟨[.standard "mass" .float32 []]⟩ []).IsMade ∧
      (withStandard ⟨[.standard "mass" .float32 []]⟩ []).plan
        ⟨some Reserved.start, some 1, false, some Reserved.sources⟩ true = .ok Reserved.layout ∧
      (Reserved.layout.declaredNames {} Reserved.start).Nodup := by
  have made : (withStandard ⟨[.standard "mass" .float32 []]⟩ []).IsMade :=
    .withStandard (by decide) []
  have planned : (withStandard ⟨[.standard "mass" .float32 []]⟩ []).plan
      ⟨some Reserved.start, some 1, false, some Reserved.sources⟩ true = .ok Reserved.layout := rfl
  exact ⟨made, planned,
    (declares_distinct_names_iff made planned {} Reserved.start).1.2 (by decide)⟩

/-- A registry can be made whose files have two variables named `time`, with a manifest that took
the field without a refusal. -/
theorem declares_time_twice :
    Manifest.empty.push (.standard "time" .float64 []) = .ok Reserved.standard ∧
      ∃ layout, (withStandard Reserved.standard []).plan
          ⟨some Reserved.start, some 1, false, none⟩ false = .ok layout ∧
        layout.declaredNames {} Reserved.start = ["time", "particle_count", "time"] ∧
        ¬(layout.declaredNames {} Reserved.start).Nodup := by
  refine ⟨rfl, ⟨Reserved.start, 1, false, Reserved.standard⟩, rfl, rfl, ?_⟩
  rw [RunLayout.declaredNames_eq]
  decide

end Registry

end RaggedTrajectory
