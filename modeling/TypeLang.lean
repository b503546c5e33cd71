import TypeLang.Command.Folder
import TypeLang.Declaration.Printer
import TypeLang.Main
import TypeLang.Message.Session
import TypeLang.Wire.Writable
import TypeLang.Proofs.Message.Measurement
import TypeLang.Proofs.Wire.ByteStringForm
import TypeLang.Proofs.Declaration.Arguments
import TypeLang.Proofs.Schema.Soundness
import TypeLang.Proofs.Message.Grammar
import TypeLang.Proofs.Message.Masks
import TypeLang.Proofs.Wire.Emission
import TypeLang.Proofs.Message.Reading
import TypeLang.Proofs.Message.Progress
import TypeLang.Proofs.Message.Written
import TypeLang.Proofs.Message.Writing
import TypeLang.Proofs.Message.Length
import TypeLang.Proofs.Message.Building
import TypeLang.Proofs.Message.RoundTrip
import TypeLang.Proofs.Message.FieldByField
import TypeLang.Proofs.Message.Absent
import TypeLang.Proofs.Message.Rebuilding
import TypeLang.Proofs.Wire.Window
import TypeLang.Proofs.Message.Locality
import TypeLang.Proofs.Generate.Acceptance
import TypeLang.Proofs.Message.Faults
import TypeLang.Proofs.Declaration.Grammar
import TypeLang.Proofs.Token.Shape
import TypeLang.Proofs.Declaration.Blame
import TypeLang.Proofs.Declaration.Parsing
import TypeLang.Proofs.Token.Written
import TypeLang.Proofs.Declaration.Printing
import TypeLang.Proofs.Schema.Layout
import TypeLang.Proofs.Schema.Compatibility
import TypeLang.Proofs.Schema.Tables
import TypeLang.Proofs.Schema.Conflicts
import TypeLang.Proofs.Message.Walking
import TypeLang.Proofs.Message.Tiling
import TypeLang.Proofs.Message.Access
import TypeLang.Proofs.Message.Counting
import TypeLang.Proofs.Message.Guards
import TypeLang.Proofs.Message.Streaming
import TypeLang.Proofs.Token.Lossless
import TypeLang.Proofs.Token.Concatenation
import TypeLang.Proofs.Declaration.Shifting
import TypeLang.Proofs.Declaration.Concatenation
import TypeLang.Proofs.Schema.Order
import TypeLang.Proofs.Message.Order
import TypeLang.Proofs.Schema.Extension
import TypeLang.Proofs.Message.Extension
import TypeLang.Proofs.Generate.Names
import TypeLang.Proofs.Generate.Targets
import TypeLang.Proofs.Generate.Coverage
import TypeLang.Proofs.Message.Untagged
import TypeLang.Proofs.Message.LeastMasks
import TypeLang.Proofs.Message.Required
import TypeLang.Proofs.Wire.Confinement
import TypeLang.Proofs.Message.Confinement
import TypeLang.Proofs.Message.Settling
import TypeLang.Proofs.Message.Sizing
import TypeLang.Proofs.Message.Retrying
import TypeLang.Proofs.Wire.Padding
import TypeLang.Proofs.Message.Dispatch
import TypeLang.Proofs.Wire.VectorItems
import TypeLang.Proofs.Wire.Presence
import TypeLang.Proofs.Message.ZeroSized
import TypeLang.Proofs.Message.TypedVectors
import TypeLang.Proofs.Message.Profile
import TypeLang.Proofs.Generate.Accessors
import TypeLang.Proofs.Generate.Parameters
import TypeLang.Proofs.Generate.Shadowing
import TypeLang.Proofs.Message.Gates
import TypeLang.Proofs.Text.HexPairs
import TypeLang.Proofs.Token.Places
import TypeLang.Proofs.Declaration.Exhaustion
