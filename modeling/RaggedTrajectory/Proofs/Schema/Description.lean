import RaggedTrajectory.Proofs.Chunk.RoundTrip

/-!
# What a file says of itself

A reader knows of a run what the schema block says. The block is a text without tags, and still it
stands for one schema only: every name, key and text is read back character by character, every
integer as the number it was, and every attribute as the kind of value it was, unless it has
floating-point numbers. From the schema the reader takes the variables on the record axis, and no
others, as fields. What it does not learn is the array that a field was read from, and a chunk is
cut without it.

* `FileSchema.decode_block`: a block stands for one schema.
* `RunLayout.describes_fileSchema`: the fields of the reader are those of the run.
-/

namespace RaggedTrajectory

/-! ## Blocks -/

namespace FileSchema

/-- A schema without floating-point attributes is read back from its block, so two such schemas with
one block are the same. -/
theorem decode_block {schema : FileSchema} (exact : schema.IsExact) :
    decode schema.encode = .ok schema ∧
      ∀ other : FileSchema, other.IsExact → other.encode = schema.encode → other = schema := by
  have own := decode_encode exact
  refine ⟨own, ?_⟩
  intro other otherExact same
  -- The one block is read as both schemas.
  have back := decode_encode otherExact
  rw [same, own] at back
  exact (Except.ok.inj back).symm

end FileSchema

/-! ## Fields -/

namespace Field

/-- A field as a reader knows it: the same as in the run, but for the array that it is read from. -/
structure IsKnownAs (field known : Field) : Prop where
  name : known.name = field.name
  dtype : known.dtype = field.dtype
  shape : known.shape = field.shape
  attributes : known.attributes = field.attributes
  origin : known.origin = field.origin
  binding : known.binding = .array field.name

theorem isKnownAs_asDeclared (field : Field) : field.IsKnownAs field.asDeclared :=
  ⟨rfl, rfl, rfl, rfl, rfl, rfl⟩

end Field

namespace RunLayout

/-- A reader has the fields of the run. From the schema of a layout whose fields have distinct names
it rebuilds a manifest with the same fields in the same order, which cuts every byte string as the
manifest of the run does. -/
theorem describes_fileSchema {layout : RunLayout} (distinct : layout.manifest.names.Nodup)
    (globals : GlobalAttributes) (created : Timestamp) :
    ∃ known, (layout.fileSchema globals created).manifest = .ok known ∧
      known.length = layout.manifest.length ∧
      (∀ (index : Nat) (field : Field), layout.manifest.fields[index]? = some field →
        ∃ own, known.fields[index]? = some own ∧ field.IsKnownAs own) ∧
      (layout.fileSchema globals created).declarations.filter Variable.isRecord =
        layout.manifest.fields.map Variable.ofField ∧
      ∀ bytes, Chunk.decode known bytes = Chunk.decode layout.manifest bytes := by
  refine ⟨layout.manifest.asDeclared, layout.manifest_fileSchema distinct globals created,
    List.length_map _, ?_, layout.filter_isRecord globals created, ?_⟩
  · -- The fields of the reader are the declared ones, place by place.
    intro index field found
    refine ⟨field.asDeclared, ?_, field.isKnownAs_asDeclared⟩
    show (layout.manifest.fields.map Field.asDeclared)[index]? = _
    rw [List.getElem?_map, found]
    rfl
  · intro bytes
    exact Chunk.decode_asDeclared layout.manifest bytes

end RunLayout

/-! ## A run whose fields have the names of the time axis -/

namespace Shadowing

/-- Fields with the names of the variables of the time axis, and with attributes that look like
something else. -/
def manifest : Manifest where
  fields := [
    ⟨"time", .float64, .vector3, ⟨[("\"\\\n\x01", .text "[1, 2]"), ("", .integers [])]⟩,
      .component "positions" 2, .extended⟩,
    ⟨"particle_count", .int8, .scalar, ⟨[("é", .integer Int64.minValue), ("é", .text "7")]⟩,
      .array "counts", .standard⟩,
    ⟨"data", .int32, .scalar, ⟨[("range", .integers [3, Int64.maxValue, 3])]⟩,
      .array "world_point", .extended⟩]

def layout : RunLayout := ⟨⟨2020, 1, 2, 3, 4, 5, 0⟩, 0xFFFFFFFF, true, manifest⟩

def schema : FileSchema := layout.fileSchema {} layout.startTime

theorem isExact_schema : schema.IsExact := by
  apply RunLayout.isExact_fileSchema
  refine ⟨by decide, ?_⟩
  intro field mem
  simp only [layout, manifest, List.mem_cons, List.not_mem_nil, or_false] at mem
  rcases mem with rfl | rfl | rfl <;> simp [Attributes.AreExact, AttributeValue.IsExact]

theorem decode_block_shadowing :
    schema.IsExact ∧ FileSchema.decode schema.encode = .ok schema :=
  ⟨isExact_schema, (FileSchema.decode_block isExact_schema).1⟩

theorem describes_fileSchema_shadowing :
    manifest.names.Nodup ∧ ∃ known, schema.manifest = .ok known ∧ known.length = 3 ∧
      ∀ bytes, Chunk.decode known bytes = Chunk.decode manifest bytes := by
  have distinct : layout.manifest.names.Nodup := by decide
  obtain ⟨known, rebuilt, length, -, -, cut⟩ :=
    RunLayout.describes_fileSchema distinct {} layout.startTime
  exact ⟨distinct, known, rebuilt, length, cut⟩

end Shadowing

end RaggedTrajectory
