import RaggedTrajectory.Compression.Policy
import RaggedTrajectory.Path
import RaggedTrajectory.Toml.Document

/-!
# Output configuration

What a user chooses: where the output goes, which fields it has, and how it is stored. A
configuration is kept as a TOML document.
-/

namespace RaggedTrajectory

/-- The choices of a user. -/
structure OutputConfig where
  /-- The primary file. -/
  path : Path
  /-- Whether every array of the sources is recorded, not only the standard fields. -/
  allData : Bool := false
  /-- Whether payloads are compressed. The classic format ignores it. -/
  compress : Bool := true
  format : FileFormat := .enhanced
  codec : Codec := .lz4
  deriving DecidableEq, Repr

namespace OutputConfig

/-- Accepts a configuration that can be used; otherwise gives the first fault. -/
def validate (config : OutputConfig) : Except Error Unit :=
  if config.path.text = "" then .error (.config .emptyPath)
  else if config.compress ∧ config.codec = .stored then .error (.config .noCodec)
  else .ok ()

/-- How payloads are compressed. -/
def policy (config : OutputConfig) : CompressionPolicy :=
  if config.compress ∧ config.format.supportsCompression then .ofCodec config.codec
  else .ofCodec .stored

/-- A truth value in a document. -/
def booleanText (value : Bool) : String := if value then "true" else "false"

/-- The document of a configuration. -/
def render (config : OutputConfig) : String :=
  "path = " ++ String.ofList (Toml.renderText config.path.text.toList) ++
  "\nall_data = " ++ booleanText config.allData ++
  "\ncompress = " ++ booleanText config.compress ++
  "\nformat = \"" ++ config.format.name ++
  "\"\ncodec = \"" ++ config.codec.name ++ "\"\n"

/-- The value of a setting, or its default where the document has no such key. -/
def setting {α : Type} (members : Toml.Members) (key : String) (read? : Toml.Value → Option α)
    (default : α) : Option α :=
  match members.lookup key with
  | none => some default
  | some value => read? value

/-- The configuration in a document. Keys that are no settings do not matter. -/
def ofMembers? (members : Toml.Members) : Option OutputConfig := do
  let path ← (← members.lookup "path").text?
  return {
    path := ⟨path⟩
    allData := ← setting members "all_data" Toml.Value.boolean? false
    compress := ← setting members "compress" Toml.Value.boolean? true
    format := ← setting members "format" (Toml.Value.choice? FileFormat.ofName?) .enhanced
    codec := ← setting members "codec" (Toml.Value.choice? Codec.ofName?) .lz4 }

/-- The configuration that a document stands for. -/
def parse (text : String) : Except Error OutputConfig :=
  match (Toml.parse? text.toList).bind ofMembers? with
  | none => .error (.config .unreadable)
  | some config => do
    config.validate
    return config

end OutputConfig

end RaggedTrajectory
