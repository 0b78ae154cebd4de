import RaggedTrajectory.FileSchema
import RaggedTrajectory.Proofs.Json.RoundTrip

/-!
# Schema blocks are read back

A schema is written as records in JSON. Attribute values carry no tags: what is read is the first
kind that fits, which is the kind that was written unless it has floating-point numbers.

* `FileSchema.decode_encode`: a schema without floating-point attributes is read back.
-/

namespace RaggedTrajectory

open Json (Value Numeral)

/-! ## Values -/

namespace Json.Value

theorem text?_ofText (text : String) : (ofText text).text? = some text := Utf8.decode_encode text

theorem integer?_ofInt {n : Int} (lower : -2 ^ 63 ≤ n) (upper : n < 2 ^ 64) :
    (ofInt n).integer? = some n := by
  rw [ofInt, integer?, Numeral.ofLexeme?_renderInteger lower upper]

theorem int64?_ofInt (n : Int64) : (ofInt n.toInt).int64? = some n := by
  have lower := n.le_toInt
  have upper := n.toInt_lt
  rw [int64?, integer?_ofInt lower (by omega)]
  simp only [if_pos (And.intro lower upper), Int64.ofInt_toInt]

theorem word?_ofInt {n : Nat} (h : n < 2 ^ 64) : (ofInt n).word? = some n := by
  rw [word?, integer?_ofInt (by omega) (by omega)]
  simp
  omega

theorem nullable?_ofText {α : Type} (read : Value → Option α) (text : String) :
    nullable? read (some (ofText text)) = (read (ofText text)).map some := rfl

theorem nullable?_ofInt {α : Type} (read : Value → Option α) (n : Int) :
    nullable? read (some (ofInt n)) = (read (ofInt n)).map some := rfl

/-- A list is read back if each item is. -/
theorem list?_map {α : Type} (read : Value → Option α) (write : α → Value) {items : List α}
    (each : ∀ item ∈ items, read (write item) = some item) :
    list? read (array (items.map write)) = some items := by
  rw [list?]
  induction items with
  | nil => rfl
  | cons item items ih =>
    rw [List.map_cons, List.mapM_cons, each item List.mem_cons_self,
      ih fun item mem => each item (List.mem_cons_of_mem _ mem)]
    rfl

theorem pair?_array {α β : Type} {first : Value → Option α} {second : Value → Option β}
    {a b : Value} {x : α} {y : β} (hx : first a = some x) (hy : second b = some y) :
    pair? first second (array [a, b]) = some (x, y) := by
  rw [pair?, hx, hy]
  rfl

/-- The keys of a record are texts. -/
theorem fields?_ofMembers (names : List (String × Presence)) (members : List (String × Value)) :
    fields? names (ofMembers members) = fieldsOfMembers? members names := by
  have keys : namedMembers? (members.map fun member => (Utf8.encode member.1, member.2)) =
      some members := by
    rw [namedMembers?]
    induction members with
    | nil => rfl
    | cons member members ih =>
      rw [List.map_cons, List.mapM_cons, ih]
      simp [Utf8.decode_encode]
  rw [ofMembers, fields?, keys]
  rfl

theorem hasIntegers_map {α : Type} {write : α → Value} {items : List α}
    (each : ∀ item ∈ items, (write item).HasIntegers) : (array (items.map write)).HasIntegers :=
  .array fun value mem => by
    obtain ⟨item, member, rfl⟩ := List.mem_map.1 mem
    exact each item member

theorem hasIntegers_ofMembers {members : List (String × Value)}
    (each : ∀ member ∈ members, member.2.HasIntegers) : (ofMembers members).HasIntegers :=
  .object fun value mem => by
    obtain ⟨member, inside, rfl⟩ := List.mem_map.1 mem
    exact each member inside

end Json.Value

/-! ## Attributes -/

namespace AttributeValue

/-- A value without floating-point numbers. -/
def IsExact : AttributeValue → Prop
  | float _ | floats _ => False
  | integer _ | text _ | integers _ => True

theorem ofJson?_toJson {value : AttributeValue} (exact : value.IsExact) :
    ofJson? value.toJson = some value := by
  cases value with
  | integer n => simp [ofJson?, toJson, Value.int64?_ofInt]
  | float x => exact exact.elim
  | text s =>
    -- A string is no number, so the kinds that are tried before do not fit.
    simp [ofJson?, toJson, Value.text?_ofText]
    simp [Value.ofText, Value.int64?, Value.integer?, Value.float?]
  | integers ns =>
    have list := Value.list?_map Value.int64? (fun n => .ofInt n.toInt) fun n (_ : n ∈ ns) =>
      Value.int64?_ofInt n
    -- Nor is a list a number or a string.
    simp [ofJson?, toJson, list]
    simp [Value.int64?, Value.integer?, Value.float?, Value.text?]
  | floats xs => exact exact.elim

theorem hasIntegers_toJson {value : AttributeValue} (exact : value.IsExact) :
    value.toJson.HasIntegers := by
  cases value with
  | integer n => exact .number _
  | float x => exact exact.elim
  | text s => exact .string _
  | integers ns => exact Value.hasIntegers_map fun n _ => .number _
  | floats xs => exact exact.elim

end AttributeValue

namespace Attributes

/-- Attributes whose values have no floating-point numbers. -/
def AreExact (attributes : Attributes) : Prop := ∀ entry ∈ attributes.entries, entry.2.IsExact

theorem ofJson?_toJson {attributes : Attributes} (exact : attributes.AreExact) :
    ofJson? attributes.toJson = some attributes := by
  rw [ofJson?, toJson, Value.list?_map]
  · rfl
  · intro entry mem
    exact Value.pair?_array (Value.text?_ofText _) (AttributeValue.ofJson?_toJson (exact entry mem))

theorem hasIntegers_toJson {attributes : Attributes} (exact : attributes.AreExact) :
    attributes.toJson.HasIntegers := by
  refine Value.hasIntegers_map fun entry mem => .array fun value inside => ?_
  simp only [List.mem_cons, List.not_mem_nil, or_false] at inside
  rcases inside with rfl | rfl
  · exact .string _
  · exact AttributeValue.hasIntegers_toJson (exact entry mem)

end Attributes

/-! ## Names of constants -/

theorem DataType.ofJson?_name (dtype : DataType) : ofJson? (.ofText dtype.name) = some dtype := by
  have named : ofName? dtype.name = some dtype := by cases dtype <;> decide
  simp [ofJson?, Value.constant?, Value.ofText, Utf8.decode_encode, named]

theorem FieldOrigin.ofJson?_name (origin : FieldOrigin) :
    ofJson? (.ofText origin.name) = some origin := by
  have named : ofName? origin.name = some origin := by cases origin <;> decide
  simp [ofJson?, Value.constant?, Value.ofText, Utf8.decode_encode, named]

/-! ## Axes and variables -/

namespace Dimension

theorem ofJson?_toJson (dimension : Dimension) : ofJson? dimension.toJson = some dimension := by
  obtain ⟨name, length⟩ := dimension
  cases length with
  | none =>
    simp [ofJson?, toJson, Value.fields?_ofMembers, Value.fieldsOfMembers?, Value.nullable?,
      Value.text?_ofText]
  | some n =>
    have bound := n.toNat_lt
    simp [ofJson?, toJson, Value.fields?_ofMembers, Value.fieldsOfMembers?,
      Value.nullable?_ofInt, Value.text?_ofText, Value.word?_ofInt bound]

theorem hasIntegers_toJson (dimension : Dimension) : dimension.toJson.HasIntegers := by
  refine Value.hasIntegers_ofMembers fun member mem => ?_
  simp only [List.mem_cons, List.not_mem_nil, or_false] at mem
  rcases mem with rfl | rfl
  · exact .string _
  · cases dimension.length
    · exact .null
    · exact .number _

end Dimension

namespace Variable

theorem ofJson?_toJson {declared : Variable} (exact : declared.attributes.AreExact) :
    ofJson? declared.toJson = some declared := by
  obtain ⟨name, dtype, dimensions, attributes, origin⟩ := declared
  have axes := Value.list?_map Value.text? Value.ofText fun text (_ : text ∈ dimensions) =>
    Value.text?_ofText text
  have values := Attributes.ofJson?_toJson exact
  cases origin with
  | none =>
    simp [ofJson?, toJson, Value.fields?_ofMembers, Value.fieldsOfMembers?, Value.nullable?,
      Value.text?_ofText, DataType.ofJson?_name, axes, values]
  | some origin =>
    simp [ofJson?, toJson, Value.fields?_ofMembers, Value.fieldsOfMembers?,
      Value.nullable?_ofText, Value.text?_ofText, DataType.ofJson?_name, axes, values,
      FieldOrigin.ofJson?_name]

theorem hasIntegers_toJson {declared : Variable} (exact : declared.attributes.AreExact) :
    declared.toJson.HasIntegers := by
  refine Value.hasIntegers_ofMembers fun member mem => ?_
  rcases List.mem_append.1 mem with mem | mem
  · simp only [List.mem_cons, List.not_mem_nil, or_false] at mem
    rcases mem with rfl | rfl | rfl | rfl
    · exact .string _
    · exact .string _
    · exact Value.hasIntegers_map fun text _ => .string _
    · exact Attributes.hasIntegers_toJson exact
  · obtain ⟨origin, -, rfl⟩ := List.mem_map.1 mem
    exact .string _

end Variable

namespace FileSchema

/-- A schema whose attributes have no floating-point numbers. -/
structure IsExact (schema : FileSchema) : Prop where
  globals : schema.globalAttributes.AreExact
  declared : ∀ declared ∈ schema.declarations, declared.attributes.AreExact

theorem ofJson?_toJson {schema : FileSchema} (exact : schema.IsExact) :
    ofJson? schema.toJson = some schema := by
  have globals := Attributes.ofJson?_toJson exact.globals
  have axes := Value.list?_map Dimension.ofJson? Dimension.toJson
    fun dimension (_ : dimension ∈ schema.dimensions) => Dimension.ofJson?_toJson dimension
  have declared := Value.list?_map Variable.ofJson? Variable.toJson
    fun declared mem => Variable.ofJson?_toJson (exact.declared declared mem)
  simp [ofJson?, toJson, Value.fields?_ofMembers, Value.fieldsOfMembers?, globals, axes, declared]

theorem hasIntegers_toJson {schema : FileSchema} (exact : schema.IsExact) :
    schema.toJson.HasIntegers := by
  refine Value.hasIntegers_ofMembers fun member mem => ?_
  simp only [List.mem_cons, List.not_mem_nil, or_false] at mem
  rcases mem with rfl | rfl | rfl
  · exact Attributes.hasIntegers_toJson exact.globals
  · exact Value.hasIntegers_map fun dimension _ => Dimension.hasIntegers_toJson dimension
  · exact Value.hasIntegers_map fun declared mem =>
      Variable.hasIntegers_toJson (exact.declared declared mem)

/-- A schema without floating-point attributes is read back from its block. -/
theorem decode_encode {schema : FileSchema} (exact : schema.IsExact) :
    decode schema.encode = .ok schema := by
  rw [decode, encode, Value.parse?_render (hasIntegers_toJson exact), Option.bind_some,
    ofJson?_toJson exact]

end FileSchema

end RaggedTrajectory
