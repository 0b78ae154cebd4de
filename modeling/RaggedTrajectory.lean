import RaggedTrajectory.Bytes
import RaggedTrajectory.Checksum.Crc32
import RaggedTrajectory.Checksum.XxHash64
import RaggedTrajectory.Chunk
import RaggedTrajectory.Compression.Codec
import RaggedTrajectory.Compression.Lz4
import RaggedTrajectory.Compression.Policy
import RaggedTrajectory.Compression.Window
import RaggedTrajectory.Compression.Zstd.BitWriter
import RaggedTrajectory.Compression.Zstd.Bits
import RaggedTrajectory.Compression.Zstd.CodeLengths
import RaggedTrajectory.Compression.Zstd.Decoder
import RaggedTrajectory.Compression.Zstd.Encoder
import RaggedTrajectory.Compression.Zstd.Fse
import RaggedTrajectory.Compression.Zstd.Huffman
import RaggedTrajectory.Compression.Zstd.HuffmanCoder
import RaggedTrajectory.Compression.Zstd.LiteralSection
import RaggedTrajectory.Compression.Zstd.MatchFinder
import RaggedTrajectory.Compression.Zstd.Normalize
import RaggedTrajectory.Compression.Zstd.SequenceSection
import RaggedTrajectory.Compression.Zstd.Sequences
import RaggedTrajectory.Compression.Zstd.StateCoder
import RaggedTrajectory.Compression.Zstd.StoredFrame
import RaggedTrajectory.Config
import RaggedTrajectory.ConfigFile
import RaggedTrajectory.Destinations
import RaggedTrajectory.Disk.Basic
import RaggedTrajectory.Disk.Request
import RaggedTrajectory.Disk.Walk
import RaggedTrajectory.Error
import RaggedTrajectory.Field.Attributes
import RaggedTrajectory.Field.Data
import RaggedTrajectory.Field.DataType
import RaggedTrajectory.Field.Json
import RaggedTrajectory.Field.Manifest
import RaggedTrajectory.Field.Registry
import RaggedTrajectory.Field.Shape
import RaggedTrajectory.FileSchema
import RaggedTrajectory.Header
import RaggedTrajectory.Inspection.Arguments
import RaggedTrajectory.Inspection.Report
import RaggedTrajectory.Json.Numeral
import RaggedTrajectory.Json.Parser
import RaggedTrajectory.Json.Reading
import RaggedTrajectory.Json.Value
import RaggedTrajectory.Keyed
import RaggedTrajectory.Layout
import RaggedTrajectory.Lifecycle
import RaggedTrajectory.Main
import RaggedTrajectory.Number.Binary
import RaggedTrajectory.Number.Decimal
import RaggedTrajectory.Number.Interchange
import RaggedTrajectory.Number.Natural
import RaggedTrajectory.Number.Overflow
import RaggedTrajectory.Outputter
import RaggedTrajectory.Path
import RaggedTrajectory.Proofs.Checksum.SingleByte
import RaggedTrajectory.Proofs.Chunk.Bounds
import RaggedTrajectory.Proofs.Chunk.Canonical
import RaggedTrajectory.Proofs.Chunk.Damage
import RaggedTrajectory.Proofs.Chunk.Inverse
import RaggedTrajectory.Proofs.Chunk.Requirements
import RaggedTrajectory.Proofs.Chunk.RoundTrip
import RaggedTrajectory.Proofs.Chunk.Storage
import RaggedTrajectory.Proofs.Chunk.WellFormed
import RaggedTrajectory.Proofs.Compression.Expansion
import RaggedTrajectory.Proofs.Config.RoundTrip
import RaggedTrajectory.Proofs.Disk.Entries
import RaggedTrajectory.Proofs.Disk.Tree
import RaggedTrajectory.Proofs.Disk.Writes
import RaggedTrajectory.Proofs.Field.Attributes
import RaggedTrajectory.Proofs.Field.Encoding
import RaggedTrajectory.Proofs.Field.Saturation
import RaggedTrajectory.Proofs.File.Append
import RaggedTrajectory.Proofs.File.Image
import RaggedTrajectory.Proofs.File.Outages
import RaggedTrajectory.Proofs.File.Representation
import RaggedTrajectory.Proofs.File.Run
import RaggedTrajectory.Proofs.File.Torn
import RaggedTrajectory.Proofs.Header.Canonical
import RaggedTrajectory.Proofs.Header.Regions
import RaggedTrajectory.Proofs.Json.RoundTrip
import RaggedTrajectory.Proofs.Json.Tokens
import RaggedTrajectory.Proofs.Lifecycle.Acceptance
import RaggedTrajectory.Proofs.Lifecycle.Files
import RaggedTrajectory.Proofs.Lifecycle.Populations
import RaggedTrajectory.Proofs.Lifecycle.Records
import RaggedTrajectory.Proofs.Lifecycle.Refusals
import RaggedTrajectory.Proofs.Lifecycle.Views
import RaggedTrajectory.Proofs.Number.Integers
import RaggedTrajectory.Proofs.Outputter.Batches
import RaggedTrajectory.Proofs.Outputter.Caches
import RaggedTrajectory.Proofs.Outputter.Events
import RaggedTrajectory.Proofs.Outputter.Files
import RaggedTrajectory.Proofs.Outputter.Rewinding
import RaggedTrajectory.Proofs.Outputter.RunLock
import RaggedTrajectory.Proofs.Outputter.Storage
import RaggedTrajectory.Proofs.Patches
import RaggedTrajectory.Proofs.Path.Components
import RaggedTrajectory.Proofs.Path.Twin
import RaggedTrajectory.Proofs.Reader.Counts
import RaggedTrajectory.Proofs.Reader.Coverage
import RaggedTrajectory.Proofs.Reader.Crash
import RaggedTrajectory.Proofs.Reader.Damage
import RaggedTrajectory.Proofs.Reader.EmptySteps
import RaggedTrajectory.Proofs.Reader.Opening
import RaggedTrajectory.Proofs.Reader.Ranges
import RaggedTrajectory.Proofs.Reader.RoundTrip
import RaggedTrajectory.Proofs.Reader.Soundness
import RaggedTrajectory.Proofs.Reader.StepCounter
import RaggedTrajectory.Proofs.Reader.Structure
import RaggedTrajectory.Proofs.Reader.Sums
import RaggedTrajectory.Proofs.Reader.Tiling
import RaggedTrajectory.Proofs.Reader.WriteOrder
import RaggedTrajectory.Proofs.Records
import RaggedTrajectory.Proofs.Records.Canonical
import RaggedTrajectory.Proofs.Schema.Derivation
import RaggedTrajectory.Proofs.Schema.Description
import RaggedTrajectory.Proofs.Schema.Extension
import RaggedTrajectory.Proofs.Schema.Lookup
import RaggedTrajectory.Proofs.Schema.Manifest
import RaggedTrajectory.Proofs.Schema.Names
import RaggedTrajectory.Proofs.Schema.RoundTrip
import RaggedTrajectory.Proofs.Segments
import RaggedTrajectory.Proofs.Snapshot.Cache
import RaggedTrajectory.Proofs.Time.RoundTrip
import RaggedTrajectory.Proofs.Toml.Document
import RaggedTrajectory.Proofs.Toml.Quoted
import RaggedTrajectory.Reader
import RaggedTrajectory.Snapshot
import RaggedTrajectory.StepTable
import RaggedTrajectory.Target
import RaggedTrajectory.Text.Ascii
import RaggedTrajectory.Text.Blank
import RaggedTrajectory.Text.CodeRange
import RaggedTrajectory.Text.GraphemeExtend
import RaggedTrajectory.Text.Quoted
import RaggedTrajectory.Text.Unprintable
import RaggedTrajectory.Text.Utf8
import RaggedTrajectory.Time.Calendar
import RaggedTrajectory.Time.Format
import RaggedTrajectory.Time.Timestamp
import RaggedTrajectory.Toml.Document
import RaggedTrajectory.Toml.Quoted
import RaggedTrajectory.Toml.Scalar
import RaggedTrajectory.Toml.Value
import RaggedTrajectory.TrajectoryFile
import RaggedTrajectory.Writer
