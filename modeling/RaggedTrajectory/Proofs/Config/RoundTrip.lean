import RaggedTrajectory.Config
import RaggedTrajectory.Proofs.Toml.Document

/-!
# Configurations are read back

The document of a configuration has a line for every setting, so that reading it back needs no
default, and the path is read back whatever characters it has. What is read is checked: a
configuration that cannot be used is not read from any document, its own one included.

* `OutputConfig.toList_render`: the lines of the document.
* `OutputConfig.ofMembers?_lines`: what the lines say.
* `OutputConfig.parse_render`: the document of any configuration.
* `OutputConfig.parse_render_eq_ok_iff`: which configurations are read back.
-/

namespace RaggedTrajectory.OutputConfig

/-- The lines of the document of a configuration. -/
def lines (config : OutputConfig) : List Toml.Line := [
  ⟨"path".toList, Toml.renderText config.path.text.toList, .text config.path.text⟩,
  ⟨"all_data".toList, (booleanText config.allData).toList, .boolean config.allData⟩,
  ⟨"compress".toList, (booleanText config.compress).toList, .boolean config.compress⟩,
  ⟨"format".toList, Toml.renderText config.format.name.toList, .text config.format.name⟩,
  ⟨"codec".toList, Toml.renderText config.codec.name.toList, .text config.codec.name⟩]

/-- The names of formats and codecs need no escapes. -/
theorem renderText_formatName (format : FileFormat) :
    Toml.renderText format.name.toList = '"' :: format.name.toList ++ ['"'] := by
  cases format <;> decide +kernel

theorem renderText_codecName (codec : Codec) :
    Toml.renderText codec.name.toList = '"' :: codec.name.toList ++ ['"'] := by
  cases codec <;> decide +kernel

theorem toList_render (config : OutputConfig) :
    config.render.toList = config.lines.flatMap Toml.Line.text := by
  -- The text is unfolded as it stands: an equation for it takes long to make.
  delta render
  simp [lines, Toml.Line.text, renderText_formatName, renderText_codecName]

/-- Every line has a bare key and the written form of its value. -/
theorem isSound_of_mem_lines {config : OutputConfig} {line : Toml.Line}
    (mem : line ∈ config.lines) : line.IsSound := by
  have text : ∀ content : String,
      Toml.Denotes (Toml.renderText content.toList) (.text content) := by
    intro content
    have denotes := Toml.denotes_renderText content.toList
    rw [String.ofList_toList] at denotes
    exact denotes
  have boolean : ∀ value, Toml.Denotes (booleanText value).toList (.boolean value) :=
    Toml.denotes_boolean
  have sound : ∀ {key : String} {written : List Char} {value : Toml.Value},
      key.toList ≠ [] → key.toList.all Toml.isBare = true → Toml.Denotes written value →
        Toml.Line.IsSound ⟨key.toList, written, value⟩ :=
    fun named bare denotes => ⟨named, List.all_eq_true.1 bare, denotes⟩
  simp only [lines, List.mem_cons, List.not_mem_nil, or_false] at mem
  rcases mem with rfl | rfl | rfl | rfl | rfl
  · exact sound (by simp) rfl (text _)
  · exact sound (by simp) rfl (boolean _)
  · exact sound (by simp) rfl (boolean _)
  · exact sound (by simp) rfl (text _)
  · exact sound (by simp) rfl (text _)

/-- The document has every setting once, whatever the values are. -/
theorem keys_lines (config : OutputConfig) :
    (config.lines.map Toml.Line.entry).map Prod.fst =
      ["path", "all_data", "compress", "format", "codec"] := by
  simp [lines, Toml.Line.entry]

/-- So no setting has its default. -/
theorem ofMembers?_lines (config : OutputConfig) :
    ofMembers? (config.lines.map Toml.Line.entry) = some config := by
  simp [ofMembers?, lines, Toml.Line.entry, setting, List.lookup_cons, Toml.Value.text?,
    Toml.Value.boolean?, Toml.Value.choice?, FileFormat.ofName?_name, Codec.ofName?_name]

/-- The document of a configuration gives the configuration back, or says why it cannot be used. -/
theorem parse_render (config : OutputConfig) :
    parse config.render = config.validate.map fun _ => config := by
  have members : Toml.parse? config.render.toList = some (config.lines.map Toml.Line.entry) := by
    rw [toList_render]
    refine Toml.parse?_lines (fun line mem => isSound_of_mem_lines mem) ?_
    rw [keys_lines]
    decide +kernel
  rw [parse, members, Option.bind_some, ofMembers?_lines]
  dsimp only
  cases config.validate <;> rfl

/-- What is read from a document has been checked. -/
theorem validate_of_parse {text : String} {config : OutputConfig}
    (read : parse text = .ok config) : config.validate = .ok () := by
  unfold parse at read
  split at read
  · cases read
  · obtain ⟨_, valid, same⟩ := Error.bind_eq_ok_iff.1 read
    cases same
    exact valid

/-- A configuration is read back from its document exactly if it can be used, and no document gives
one that cannot. -/
theorem parse_render_eq_ok_iff (config : OutputConfig) :
    (parse config.render = .ok config ↔ config.validate = .ok ()) ∧
      ∀ (text : String) (read : OutputConfig),
        parse text = .ok read → read.validate = .ok () := by
  refine ⟨⟨validate_of_parse, fun valid => ?_⟩, fun text read => validate_of_parse⟩
  rw [parse_render, valid]
  rfl

/-- Quotes of both kinds, alone and three in a row, a backslash, line ends, controls, a character
beyond one byte, and two quotes at the end. -/
def awkward : OutputConfig where
  path := ⟨"out/\"a\"\"\"b\"'c'''d'\\\n\r\n\x01\x7f ✓\"\""⟩
  allData := true
  compress := false
  format := .classic
  codec := .stored

theorem parse_render_awkward :
    awkward.validate = .ok () ∧ parse awkward.render = .ok awkward := by
  have read : parse awkward.render = .ok awkward :=
    (parse_render_eq_ok_iff awkward).1.2 rfl
  exact ⟨(parse_render_eq_ok_iff awkward).2 awkward.render awkward read, read⟩

end RaggedTrajectory.OutputConfig
