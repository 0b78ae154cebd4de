/-!
# Codecs and file formats

The tags by which a header names the codec of a payload and the format of a file.
-/

namespace RaggedTrajectory

/-- How a payload is stored. -/
inductive Codec where
  /-- As it is. -/
  | stored
  | lz4
  | zstd
  deriving DecidableEq, Repr, Inhabited

namespace Codec

/-- Every codec. -/
def all : List Codec := [stored, lz4, zstd]

/-- The tag of a codec in a header. -/
def tag : Codec → UInt8
  | stored => 0
  | lz4 => 1
  | zstd => 2

/-- The codec with a given tag. -/
def ofTag? (tag : UInt8) : Option Codec := all.find? fun codec => codec.tag = tag

/-- The name of a codec in a configuration. -/
def name : Codec → String
  | stored => "none"
  | lz4 => "lz4"
  | zstd => "zstd"

/-- The codec with a given name. -/
def ofName? (name : String) : Option Codec := all.find? fun codec => codec.name = name

/-- The name of a codec in a report. -/
def title : Codec → String
  | stored => "None"
  | lz4 => "Lz4"
  | zstd => "Zstd"

theorem ofTag?_tag (codec : Codec) : ofTag? codec.tag = some codec := by cases codec <;> decide

theorem ofName?_name (codec : Codec) : ofName? codec.name = some codec := by
  cases codec <;> decide

theorem tag_of_ofTag? {tag : UInt8} {codec : Codec} (h : ofTag? tag = some codec) :
    codec.tag = tag := by
  simpa using List.find?_some h

end Codec

/-- The variant of a file. -/
inductive FileFormat where
  /-- Payloads are stored as they are. -/
  | classic
  /-- Payloads may be compressed. -/
  | enhanced
  deriving DecidableEq, Repr, Inhabited

namespace FileFormat

/-- Every format. -/
def all : List FileFormat := [classic, enhanced]

/-- The tag of a format in a header. -/
def tag : FileFormat → UInt8
  | classic => 1
  | enhanced => 2

/-- The format with a given tag. -/
def ofTag? (tag : UInt8) : Option FileFormat := all.find? fun format => format.tag = tag

/-- The name of a format in a configuration. -/
def name : FileFormat → String
  | classic => "classic"
  | enhanced => "enhanced"

/-- The format with a given name. -/
def ofName? (name : String) : Option FileFormat := all.find? fun format => format.name = name

/-- The name of a format in a report. -/
def title : FileFormat → String
  | classic => "Classic"
  | enhanced => "Enhanced"

/-- Whether payloads may be compressed. -/
def supportsCompression (format : FileFormat) : Bool := format = enhanced

theorem ofTag?_tag (format : FileFormat) : ofTag? format.tag = some format := by
  cases format <;> decide

theorem ofName?_name (format : FileFormat) : ofName? format.name = some format := by
  cases format <;> decide

theorem tag_of_ofTag? {tag : UInt8} {format : FileFormat} (h : ofTag? tag = some format) :
    format.tag = tag := by
  simpa using List.find?_some h

end FileFormat

end RaggedTrajectory
