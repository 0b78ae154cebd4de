import RaggedTrajectory.Proofs.Schema.Derivation

/-!
# Fields are found by their names

A field is looked up by its name: whether there is one, which one it is, and at which place. The
three answers come from three passes over the fields, and they fit together because no two fields
have the same name. That is kept by every way to make a manifest: by calls that add fields, also
when they are refused or stop half-way, by the derivation of extended fields, by planning, and by
reading the schema of a file. In all of them the fields stand in the order in which they came.

* `Manifest.agrees_of_nodup`: the three lookups agree where names are distinct.
* `Manifest.putsIn_apply`: what one call does, whether it is refused or not.
* `Manifest.inserts_run`: what a row of calls does.
* `Manifest.isIndexed_of_made`: every manifest that can be made.
-/

namespace RaggedTrajectory

namespace Manifest

/-! ## Lookups -/

/-- The lookups of a name agree: they find the only field of this name in its place, or there is
none and they report so. -/
inductive Agrees (manifest : Manifest) (name : String) : Prop where
  | found {index : Nat} {field : Field} (place : manifest.fields[index]? = some field)
    (named : field.name = name)
    (only : ∀ (other : Nat) (own : Field), manifest.fields[other]? = some own → own.name = name →
      other = index)
    (get : manifest.get? name = some field) (position : manifest.position? name = some index)
    (contains : manifest.contains name = true)
  | absent (free : ∀ field ∈ manifest.fields, field.name ≠ name) (get : manifest.get? name = none)
    (position : manifest.position? name = none) (contains : manifest.contains name = false)

/-- Where names are distinct, every name is found in its only place or nowhere. -/
theorem agrees_of_nodup {manifest : Manifest} (distinct : manifest.names.Nodup) (name : String) :
    manifest.Agrees name := by
  by_cases mem : name ∈ manifest.names
  · obtain ⟨field, inside, rfl⟩ := List.mem_map.1 mem
    obtain ⟨index, place⟩ := List.getElem?_of_mem inside
    obtain ⟨position, get⟩ := find_of_nodup distinct place
    refine .found place rfl (fun other own there same => ?_) get position
      ((contains_iff _ _).2 mem)
    -- A field of the same name is found in its own place, and there is one answer only.
    have again := (find_of_nodup distinct there).1
    rw [same, position] at again
    exact (Option.some.inj again).symm
  · have free : ∀ field ∈ manifest.fields, field.name ≠ name :=
      fun field inside same => mem (List.mem_map.2 ⟨field, inside, same⟩)
    refine .absent free ?_ ?_ ?_
    · exact List.find?_eq_none.2 (by simpa using free)
    · exact List.findIdx?_eq_none_iff.2 (by simpa using free)
    · exact Bool.eq_false_iff.2 fun inside => mem ((contains_iff _ _).1 inside)

/-- No two fields have the same name, so every name leads to one field at most. -/
structure IsIndexed (manifest : Manifest) : Prop where
  distinct : manifest.names.Nodup
  agrees : ∀ name, manifest.Agrees name

theorem isIndexed_iff {manifest : Manifest} : manifest.IsIndexed ↔ manifest.names.Nodup :=
  ⟨IsIndexed.distinct, fun distinct => ⟨distinct, agrees_of_nodup distinct⟩⟩

/-! ## Calls -/

/-- A call that is to add fields to a manifest. -/
inductive Edit where
  | push (field : Field)
  | extend (other : Manifest)

/-- The fields that a call is to add. -/
def Edit.offered : Edit → List Field
  | push field => [field]
  | extend other => other.fields

/-- The answer to a call, and the manifest after it, which is the one before it if a single field is
refused. -/
def apply (manifest : Manifest) : Edit → Except Error Unit × Manifest
  | .push field =>
    match manifest.push field with
    | .ok longer => (.ok (), longer)
    | .error e => (.error e, manifest)
  | .extend other => manifest.extend other

/-- The answers to calls that are made one after the other, and the manifest after them. -/
def run (manifest : Manifest) : List Edit → List (Except Error Unit) × Manifest
  | [] => ([], manifest)
  | edit :: edits =>
    let (answer, next) := manifest.apply edit
    let (answers, last) := next.run edits
    (answer :: answers, last)

/-- What a call does: it adds all fields, or those in front of the first one whose name is taken,
by a field of the manifest or by one that was just added. -/
inductive PutsIn (manifest : Manifest) : List Field → Except Error Unit → List Field → Prop where
  | all {fields : List Field} (takes : manifest.Takes fields) :
    PutsIn manifest fields (.ok ()) fields
  | upTo {before : List Field} {field : Field} (takes : manifest.Takes before)
    (taken : field.name ∈ manifest.names ++ before.map Field.name) (after : List Field) :
    PutsIn manifest (before ++ field :: after) (.error (.schema (.duplicateField field.name)))
      before

/-- What a row of calls does: the fields that each call has added, one call after the other. -/
inductive Inserts : Manifest → List Edit → List (Except Error Unit) → List Field → Prop where
  | nil (manifest : Manifest) : Inserts manifest [] [] []
  | cons {manifest : Manifest} {edit : Edit} {edits : List Edit} {answer : Except Error Unit}
    {answers : List (Except Error Unit)} {fields more : List Field}
    (first : manifest.PutsIn edit.offered answer fields)
    (others : Inserts (manifest.followedBy fields) edits answers more) :
    Inserts manifest (edit :: edits) (answer :: answers) (fields ++ more)

/-- A single field is added as a row of one field is. -/
theorem apply_eq_pushAll (manifest : Manifest) (edit : Edit) :
    manifest.apply edit = manifest.pushAll edit.offered := by
  cases edit with
  | push field =>
    rw [apply, Edit.offered, pushAll]
    cases manifest.push field <;> rfl
  | extend other => rfl

/-- A field is refused if its name is taken, and then nothing has changed. -/
theorem apply_push_eq_error_iff {manifest after : Manifest} {field : Field} {e : Error} :
    manifest.apply (.push field) = (.error e, after) ↔
      field.name ∈ manifest.names ∧ e = .schema (.duplicateField field.name) ∧
        after = manifest := by
  by_cases taken : field.name ∈ manifest.names
  · rw [apply, push_of_mem taken]
    simp [taken, eq_comm]
  · rw [apply, push_of_new taken]
    simp [taken]

/-- What a call adds can be taken; the fields from the first refused one on are left out. -/
theorem putsIn_apply (manifest : Manifest) (edit : Edit) :
    ∃ answer fields, manifest.apply edit = (answer, manifest.followedBy fields) ∧
      manifest.PutsIn edit.offered answer fields := by
  rw [apply_eq_pushAll]
  rcases manifest.takes_or_refuses edit.offered with
    takes | ⟨before, field, after, parts, takes, taken⟩
  · exact ⟨_, _, pushAll_of_takes takes, .all takes⟩
  · rw [parts]
    refine ⟨_, _, pushAll_of_refused takes taken after, .upTo takes ?_ after⟩
    rwa [names_followedBy] at taken

theorem PutsIn.takes {manifest : Manifest} {offered fields : List Field}
    {answer : Except Error Unit} (puts : manifest.PutsIn offered answer fields) :
    manifest.Takes fields := by
  cases puts with
  | all takes => exact takes
  | upTo takes => exact takes

/-- A row of calls adds behind the fields there are what each of them adds. -/
theorem inserts_run (manifest : Manifest) (edits : List Edit) :
    ∃ answers inserted, manifest.run edits = (answers, manifest.followedBy inserted) ∧
      Inserts manifest edits answers inserted := by
  -- Each call finds the manifest that those before it have left, so the induction is for all
  -- manifests.
  induction edits generalizing manifest with
  | nil => exact ⟨[], [], by rw [run, followedBy_nil], .nil manifest⟩
  | cons edit edits ih =>
    obtain ⟨answer, fields, applied, first⟩ := manifest.putsIn_apply edit
    obtain ⟨answers, more, ran, others⟩ := ih (manifest.followedBy fields)
    refine ⟨_, _, ?_, .cons first others⟩
    rw [run, applied]
    show (answer :: ((manifest.followedBy fields).run edits).1, _) = _
    rw [ran, followedBy_append]

/-- Names that are distinct stay so. -/
theorem Inserts.nodup {manifest : Manifest} {edits : List Edit}
    {answers : List (Except Error Unit)} {inserted : List Field}
    (inserts : Inserts manifest edits answers inserted) (distinct : manifest.names.Nodup) :
    (manifest.followedBy inserted).names.Nodup := by
  induction inserts with
  | nil manifest => rwa [followedBy_nil]
  | @cons manifest edit edits answer answers fields more first others ih =>
    rw [followedBy_append]
    exact ih (nodup_names_followedBy_iff.2 ⟨distinct, first.takes⟩)

/-! ## All manifests -/

/-- Every manifest that can be made is indexed, and its fields stand in the order in which they
came.

After any calls on the empty or the standard manifest, refused and half-done ones included, the
fields are those of the start and behind them what the calls have added, one call after the other;
a field is refused exactly if its name is taken, and then nothing changes. Extended fields stand in
the order of first declarations. The fields of a planned run are the standard ones and behind them
the extended ones. The fields of a file are those of the variables on the record axis, in their
order, and a schema has fields exactly if the manifest of these is indexed. -/
theorem isIndexed_of_made :
    (∀ start : Manifest, start = .empty ∨ start = standardManifest → ∀ edits : List Edit,
      ∃ answers inserted last, start.run edits = (answers, last) ∧
        Inserts start edits answers inserted ∧ last.fields = start.fields ++ inserted ∧
        last.IsIndexed) ∧
    (∀ (manifest : Manifest) (field : Field) (e : Error) (after : Manifest),
      manifest.apply (.push field) = (.error e, after) ↔
        field.name ∈ manifest.names ∧ e = .schema (.duplicateField field.name) ∧
          after = manifest) ∧
    (∀ (registry : Registry) (sources : List Source) (derived : Manifest),
      registry.deriveExtended sources = .ok derived →
        derived.IsIndexed ∧ Registry.FirstDeclared registry.isCovered sources derived.fields) ∧
    (∀ (registry : Registry) (parameters : RunParameters) (extended : Bool) (layout : RunLayout),
      registry.standard.names.Nodup → registry.plan parameters extended = .ok layout →
        layout.manifest.IsIndexed ∧
        (extended = false → layout.manifest = registry.standard) ∧
        (extended = true → ∃ sources derived, parameters.sources = some sources ∧
          registry.deriveExtended sources = .ok derived ∧
          layout.manifest.fields = registry.standard.fields ++ derived.fields)) ∧
    ∀ (schema : FileSchema) (manifest : Manifest), schema.manifest = .ok manifest ↔
      manifest.IsIndexed ∧ List.Forall₂ Variable.Declares
        (schema.declarations.filter Variable.isRecord) manifest.fields := by
  refine ⟨fun start origin edits => ?_, fun _ _ _ _ => apply_push_eq_error_iff,
    fun registry sources derived made => ?_,
    fun registry parameters extended layout distinct planned => ?_, fun schema manifest => ?_⟩
  · -- Both starts have distinct names, and calls keep them so.
    have distinct : start.names.Nodup := by
      rcases origin with rfl | rfl
      · exact List.nodup_nil
      · exact Registry.isPlanned_standardManifest.distinct
    obtain ⟨answers, inserted, ran, inserts⟩ := start.inserts_run edits
    exact ⟨answers, inserted, _, ran, inserts, rfl, isIndexed_iff.2 (inserts.nodup distinct)⟩
  · exact ⟨isIndexed_iff.2 (Registry.isPlanned_of_deriveExtended made).distinct,
      Registry.firstDeclared_of_deriveExtended made⟩
  · -- A plan whose extended fields were refused would have failed.
    obtain ⟨-, -, -, -, made⟩ := Registry.plan_eq_ok_iff.1 planned
    refine ⟨isIndexed_iff.2 (Registry.names_nodup_of_manifestFor distinct made), ?_, ?_⟩
    · rintro rfl
      exact (Except.ok.inj made).symm
    · rintro rfl
      obtain ⟨sources, derived, given, own, -, all⟩ := Registry.manifestFor_true_eq_ok_iff.1 made
      exact ⟨sources, derived, given, own, by rw [all, followedBy]⟩
  · rw [FileSchema.manifest_eq_ok_iff, isIndexed_iff, and_comm]

/-! ## A refused field, and an extension that stops half-way -/

namespace Interrupted

def mass : Field := .standard "mass" .float32 []

def density : Field := .standard "density" .float32 []

def edits : List Edit :=
  [.push mass, .push density, .extend ⟨[.standard "wind" .float64 [], density, mass]⟩]

def registry : Registry := .withStandard ⟨[mass]⟩ []

/-- A name of a standard field, and a name that was declared before. -/
def sources : List Source :=
  [⟨"wind", .float64, [3]⟩, ⟨"mass", .int8, [2]⟩, ⟨"wind", .int32, []⟩, ⟨"salt", .float32, []⟩]

def derived : Manifest :=
  ⟨[Registry.fieldOf ⟨"wind", .float64, [3]⟩ .vector3,
    Registry.fieldOf ⟨"salt", .float32, []⟩ .scalar]⟩

def layout : RunLayout :=
  ⟨⟨2013, 2, 13, 9, 0, 0, 0⟩, 4, false, ⟨mass :: derived.fields⟩⟩

end Interrupted

theorem isIndexed_of_made_interrupted :
    (standardManifest.run Interrupted.edits).1 =
        [.error (.schema (.duplicateField "mass")), .ok (),
          .error (.schema (.duplicateField "density"))] ∧
      (standardManifest.run Interrupted.edits).2.names =
        standardManifest.names ++ ["density", "wind"] ∧
      (standardManifest.run Interrupted.edits).2.IsIndexed ∧
      Interrupted.registry.deriveExtended Interrupted.sources = .ok Interrupted.derived ∧
      Interrupted.derived.IsIndexed ∧
      Interrupted.registry.standard.names.Nodup ∧
      Interrupted.registry.plan ⟨some ⟨2013, 2, 13, 9, 0, 0, 0⟩, some 4, false,
        some Interrupted.sources⟩ true = .ok Interrupted.layout ∧
      Interrupted.layout.manifest.IsIndexed := by
  obtain ⟨edited, -, extended, planned, -⟩ := isIndexed_of_made
  have indexed : (standardManifest.run Interrupted.edits).2.IsIndexed := by
    obtain ⟨answers, inserted, last, ran, -, -, indexed⟩ :=
      edited standardManifest (.inr rfl) Interrupted.edits
    rwa [ran]
  have made : Interrupted.registry.deriveExtended Interrupted.sources = .ok Interrupted.derived :=
    rfl
  have distinct : Interrupted.registry.standard.names.Nodup := by decide
  have plan : Interrupted.registry.plan ⟨some ⟨2013, 2, 13, 9, 0, 0, 0⟩, some 4, false,
      some Interrupted.sources⟩ true = .ok Interrupted.layout := rfl
  exact ⟨rfl, rfl, indexed, made, (extended _ _ _ made).1, distinct, plan,
    (planned _ _ _ _ distinct plan).1⟩

end Manifest

end RaggedTrajectory
