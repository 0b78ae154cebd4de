import RaggedTrajectory.Field.Manifest

/-!
# Manifests are extended field by field

The fields of another manifest are added one after the other. A field is refused if its name is
taken, by an old field or by one that was added just before, and it ends the extension. So an
extension is no single step: the fields in front of the refused one are there, although the call has
failed, and a manifest is as it was before exactly if the very first field was refused.

* `Manifest.pushAll_append`: fields with new and distinct names are added, and the rest follows.
* `Manifest.takes_or_refuses`: a row of fields is taken whole, or there is a first refused field.
* `Manifest.extend_stops_at_refusal`: what an extension does, whether it succeeds or fails.
* `Manifest.extend_shared`: a failed extension that leaves a field behind.
-/

namespace RaggedTrajectory

namespace Manifest

/-- The manifest with fields behind its own. -/
def followedBy (manifest : Manifest) (fields : List Field) : Manifest :=
  ⟨manifest.fields ++ fields⟩

@[simp]
theorem names_followedBy (manifest : Manifest) (fields : List Field) :
    (manifest.followedBy fields).names = manifest.names ++ fields.map Field.name := by
  simp [followedBy, names]

@[simp]
theorem followedBy_nil (manifest : Manifest) : manifest.followedBy [] = manifest := by
  simp [followedBy]

theorem followedBy_append (manifest : Manifest) (fields more : List Field) :
    manifest.followedBy (fields ++ more) = (manifest.followedBy fields).followedBy more := by
  simp [followedBy]

theorem followedBy_cons (manifest : Manifest) (field : Field) (fields : List Field) :
    manifest.followedBy (field :: fields) = (manifest.followedBy [field]).followedBy fields :=
  manifest.followedBy_append [field] fields

theorem followedBy_eq_self_iff {manifest : Manifest} {fields : List Field} :
    manifest.followedBy fields = manifest ↔ fields = [] := by
  obtain ⟨old⟩ := manifest
  simp [followedBy]

/-- Fields that a manifest can be extended by: their names are new, and no two of them are the same.
Nothing is asked of the names the manifest has already. -/
structure Takes (manifest : Manifest) (fields : List Field) : Prop where
  new : ∀ field ∈ fields, field.name ∉ manifest.names
  distinct : (fields.map Field.name).Nodup

theorem takes_nil (manifest : Manifest) : manifest.Takes [] := ⟨by simp, List.nodup_nil⟩

/-- A row of fields is taken if the first one is, and the others behind it. -/
theorem takes_cons_iff {manifest : Manifest} {field : Field} {fields : List Field} :
    manifest.Takes (field :: fields) ↔
      field.name ∉ manifest.names ∧ (manifest.followedBy [field]).Takes fields := by
  constructor
  · rintro ⟨new, distinct⟩
    rw [List.map_cons, List.nodup_cons] at distinct
    refine ⟨new field List.mem_cons_self, fun other mem => ?_, distinct.2⟩
    -- The first field is an old one for those behind it.
    have same : other.name ≠ field.name := fun same => distinct.1 (same ▸ List.mem_map_of_mem mem)
    simpa [same] using new other (List.mem_cons_of_mem _ mem)
  · rintro ⟨own, new, distinct⟩
    have apart : ∀ other ∈ fields, other.name ∉ manifest.names ∧ other.name ≠ field.name := by
      intro other mem
      simpa [not_or] using new other mem
    refine ⟨List.forall_mem_cons.2 ⟨own, fun other mem => (apart other mem).1⟩, ?_⟩
    rw [List.map_cons, List.nodup_cons]
    refine ⟨fun again => ?_, distinct⟩
    obtain ⟨other, mem, same⟩ := List.mem_map.1 again
    exact (apart other mem).2 same

/-- Names stay distinct if the fields are taken, and only then. -/
theorem nodup_names_followedBy_iff {manifest : Manifest} {fields : List Field} :
    (manifest.followedBy fields).names.Nodup ↔ manifest.names.Nodup ∧ manifest.Takes fields := by
  rw [names_followedBy, List.nodup_append]
  constructor
  · rintro ⟨own, distinct, apart⟩
    exact ⟨own, fun field mem old => apart _ old _ (List.mem_map_of_mem mem) rfl, distinct⟩
  · rintro ⟨own, new, distinct⟩
    refine ⟨own, distinct, fun name old other mem same => ?_⟩
    obtain ⟨field, inside, rfl⟩ := List.mem_map.1 mem
    exact new field inside (same ▸ old)

/-! ## One field -/

theorem push_of_new {manifest : Manifest} {field : Field} (new : field.name ∉ manifest.names) :
    manifest.push field = .ok (manifest.followedBy [field]) :=
  (push_eq_ok_iff _ _ _).2 ⟨new, rfl⟩

theorem push_of_mem {manifest : Manifest} {field : Field} (taken : field.name ∈ manifest.names) :
    manifest.push field = .error (.schema (.duplicateField field.name)) := by
  rw [push, if_pos ((contains_iff _ _).2 taken)]

/-! ## A row of fields -/

/-- Fields with new and distinct names are added, and then the rest is. -/
theorem pushAll_append {manifest : Manifest} {fields : List Field} (takes : manifest.Takes fields)
    (rest : List Field) :
    manifest.pushAll (fields ++ rest) = (manifest.followedBy fields).pushAll rest := by
  -- The manifest grows by the field that is added, so the induction is for every manifest.
  induction fields generalizing manifest with
  | nil => rw [List.nil_append, followedBy_nil]
  | cons field fields ih =>
    obtain ⟨new, behind⟩ := takes_cons_iff.1 takes
    rw [List.cons_append, pushAll, push_of_new new]
    show (manifest.followedBy [field]).pushAll (fields ++ rest) = _
    rw [ih behind, ← followedBy_cons]

/-- All fields are added if their names are new and distinct. -/
theorem pushAll_of_takes {manifest : Manifest} {fields : List Field}
    (takes : manifest.Takes fields) :
    manifest.pushAll fields = (.ok (), manifest.followedBy fields) := by
  have all := pushAll_append takes []
  rwa [List.append_nil] at all

/-- A field whose name is taken ends the extension. The fields in front of it stay. -/
theorem pushAll_of_refused {manifest : Manifest} {before : List Field} {field : Field}
    (takes : manifest.Takes before)
    (taken : field.name ∈ (manifest.followedBy before).names) (after : List Field) :
    manifest.pushAll (before ++ field :: after) =
      (.error (.schema (.duplicateField field.name)), manifest.followedBy before) := by
  rw [pushAll_append takes, pushAll, push_of_mem taken]

/-- A row of fields is taken whole, or there is a first field whose name is taken. -/
theorem takes_or_refuses (manifest : Manifest) (fields : List Field) :
    manifest.Takes fields ∨
      ∃ before field after, fields = before ++ field :: after ∧ manifest.Takes before ∧
        field.name ∈ (manifest.followedBy before).names := by
  -- The fields that were looked at already count as fields of the manifest.
  induction fields generalizing manifest with
  | nil => exact .inl manifest.takes_nil
  | cons first fields ih =>
    by_cases taken : first.name ∈ manifest.names
    · refine .inr ⟨[], first, fields, rfl, manifest.takes_nil, ?_⟩
      rwa [followedBy_nil]
    · rcases ih (manifest.followedBy [first]) with all | ⟨before, field, after, rfl, some, last⟩
      · exact .inl (takes_cons_iff.2 ⟨taken, all⟩)
      · refine .inr ⟨first :: before, field, after, rfl, takes_cons_iff.2 ⟨taken, some⟩, ?_⟩
        rwa [followedBy_cons]

/-! ## The fields of another manifest -/

section Extension

variable {manifest other longer : Manifest}

/-- An extension succeeds if the names of the other fields are new and distinct, and not
otherwise. -/
theorem extend_eq_ok_iff :
    manifest.extend other = (.ok (), longer) ↔
      manifest.Takes other.fields ∧ longer = manifest.followedBy other.fields := by
  rw [extend]
  rcases manifest.takes_or_refuses other.fields with
    takes | ⟨before, field, after, parts, some, taken⟩
  · rw [pushAll_of_takes takes]
    simp [takes, eq_comm]
  · -- A row with a refused field in it is not taken.
    have refused : ¬manifest.Takes other.fields := by
      intro takes
      have both := pushAll_of_takes takes
      rw [parts, pushAll_of_refused some taken] at both
      cases both
    rw [parts, pushAll_of_refused some taken, ← parts]
    simp [refused]

/-- An extension fails at the first field whose name is taken, with its name, and the fields in
front of it have been added. -/
theorem extend_eq_error_iff {e : Error} :
    manifest.extend other = (.error e, longer) ↔
      ∃ before field after, other.fields = before ++ field :: after ∧ manifest.Takes before ∧
        field.name ∈ (manifest.followedBy before).names ∧
        e = .schema (.duplicateField field.name) ∧ longer = manifest.followedBy before := by
  rw [extend]
  constructor
  · intro failed
    rcases manifest.takes_or_refuses other.fields with
      takes | ⟨before, field, after, parts, some, taken⟩
    · rw [pushAll_of_takes takes] at failed
      cases failed
    · rw [parts, pushAll_of_refused some taken] at failed
      cases failed
      exact ⟨before, field, after, parts, some, taken, rfl, rfl⟩
  · rintro ⟨before, field, after, parts, some, taken, rfl, rfl⟩
    rw [parts, pushAll_of_refused some taken]

/-- A failed extension has left the manifest as it was exactly if the name of the very first field
was taken. -/
theorem extend_eq_error_self_iff :
    (∃ e, manifest.extend other = (.error e, manifest)) ↔
      ∃ field rest, other.fields = field :: rest ∧ field.name ∈ manifest.names := by
  constructor
  · rintro ⟨e, failed⟩
    obtain ⟨before, field, after, parts, -, taken, -, same⟩ := extend_eq_error_iff.1 failed
    obtain rfl := followedBy_eq_self_iff.1 same.symm
    rw [followedBy_nil] at taken
    exact ⟨field, after, parts, taken⟩
  · rintro ⟨field, rest, parts, taken⟩
    rw [← manifest.followedBy_nil] at taken
    refine ⟨_, extend_eq_error_iff.2 ⟨[], field, rest, parts, manifest.takes_nil, taken, rfl, ?_⟩⟩
    rw [followedBy_nil]

end Extension

/-- An extension by the fields of another manifest succeeds exactly if their names are new and
distinct, and then these fields stand behind the old ones in their order. Otherwise it fails with
the name of the first field that is refused, and leaves the fields in front of it behind the old
ones. So a failed extension changes nothing exactly if the very first field was refused. -/
theorem extend_stops_at_refusal (manifest other : Manifest) :
    (∀ longer, manifest.extend other = (.ok (), longer) ↔
      (∀ field ∈ other.fields, field.name ∉ manifest.names) ∧ other.names.Nodup ∧
        longer.fields = manifest.fields ++ other.fields) ∧
    (∀ e longer, manifest.extend other = (.error e, longer) ↔
      ∃ before field after, other.fields = before ++ field :: after ∧
        (∀ earlier ∈ before, earlier.name ∉ manifest.names) ∧ (before.map Field.name).Nodup ∧
        field.name ∈ manifest.names ++ before.map Field.name ∧
        e = .schema (.duplicateField field.name) ∧
        longer.fields = manifest.fields ++ before) ∧
    ((∃ e, manifest.extend other = (.error e, manifest)) ↔
      ∃ field rest, other.fields = field :: rest ∧ field.name ∈ manifest.names) := by
  -- A manifest is its fields.
  have fields (longer : Manifest) (behind : List Field) :
      longer = manifest.followedBy behind ↔ longer.fields = manifest.fields ++ behind := by
    obtain ⟨own⟩ := longer
    simp [followedBy]
  refine ⟨fun longer => ?_, fun e longer => ?_, extend_eq_error_self_iff⟩
  · rw [extend_eq_ok_iff, fields]
    exact ⟨fun ⟨takes, same⟩ => ⟨takes.new, takes.distinct, same⟩,
      fun ⟨new, distinct, same⟩ => ⟨⟨new, distinct⟩, same⟩⟩
  · rw [extend_eq_error_iff]
    simp only [fields, names_followedBy]
    constructor
    · rintro ⟨before, field, after, parts, takes, taken, cause, same⟩
      exact ⟨before, field, after, parts, takes.new, takes.distinct, taken, cause, same⟩
    · rintro ⟨before, field, after, parts, new, distinct, taken, cause, same⟩
      exact ⟨before, field, after, parts, ⟨new, distinct⟩, taken, cause, same⟩

/-! ## A shared name -/

namespace Shared

def mass : Field := .standard "mass" .float32 []

def density : Field := .standard "density" .float32 []

end Shared

/-- The second of two fields is refused, the first one has been added. -/
theorem extend_shared :
    (extend ⟨[Shared.mass]⟩ ⟨[Shared.density, Shared.mass]⟩).1 =
        .error (.schema (.duplicateField "mass")) ∧
      (extend ⟨[Shared.mass]⟩ ⟨[Shared.density, Shared.mass]⟩).2 ≠ ⟨[Shared.mass]⟩ ∧
      (extend ⟨[Shared.mass]⟩ ⟨[Shared.density, Shared.mass]⟩).2.names = ["mass", "density"] := by
  refine ⟨rfl, by decide, rfl⟩

end Manifest

end RaggedTrajectory
