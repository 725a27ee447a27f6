import LuaBytecode.Bytes
import LuaBytecode.Chunk.Cursor
import LuaBytecode.Chunk.DebugData
import LuaBytecode.Chunk.Error
import LuaBytecode.Chunk.Format
import LuaBytecode.Chunk.Listing
import LuaBytecode.Chunk.Loader
import LuaBytecode.Chunk.Prototype
import LuaBytecode.Chunk.Session
import LuaBytecode.Chunk.Writer
import LuaBytecode.Instruction.Operation
import LuaBytecode.Instruction.Word
import LuaBytecode.Json.Document
import LuaBytecode.Json.Export
import LuaBytecode.Json.Scan
import LuaBytecode.Number.Binary64
import LuaBytecode.Number.Numeral
import LuaBytecode.Number.Rounding
import LuaBytecode.Number.Shortest
import LuaBytecode.Proofs.Chunk.Coherence
import LuaBytecode.Proofs.Chunk.DepthCounter
import LuaBytecode.Proofs.Chunk.Footprint
import LuaBytecode.Proofs.Chunk.Grammar
import LuaBytecode.Proofs.Chunk.HeaderVerdict
import LuaBytecode.Proofs.Chunk.LeastWidth
import LuaBytecode.Proofs.Chunk.Listing
import LuaBytecode.Proofs.Chunk.Loaded
import LuaBytecode.Proofs.Chunk.Location
import LuaBytecode.Proofs.Chunk.NestingLimit
import LuaBytecode.Proofs.Chunk.Reading
import LuaBytecode.Proofs.Chunk.RoundTrip
import LuaBytecode.Proofs.Chunk.Session
import LuaBytecode.Proofs.Chunk.Shortage
import LuaBytecode.Proofs.Chunk.StepLaw
import LuaBytecode.Proofs.Chunk.Stripping
import LuaBytecode.Proofs.Chunk.Tree
import LuaBytecode.Proofs.Chunk.Truncation
import LuaBytecode.Proofs.Instruction.Layout
import LuaBytecode.Proofs.Instruction.Text
import LuaBytecode.Proofs.Number.Narrowing
import LuaBytecode.Proofs.Number.Nearest
import LuaBytecode.Proofs.Number.Order
import LuaBytecode.Proofs.Number.Reading
import LuaBytecode.Proofs.Number.Shortest
import LuaBytecode.Proofs.Number.Text
import LuaBytecode.Proofs.Number.Widening
import LuaBytecode.Proofs.Sequencing
import LuaBytecode.Proofs.Stack.Atomicity
import LuaBytecode.Proofs.Stack.Conversion
import LuaBytecode.Proofs.Stack.Invariant
import LuaBytecode.Proofs.Stack.Refinement
import LuaBytecode.Proofs.Stack.Reservation
import LuaBytecode.Proofs.Stack.Reversal
import LuaBytecode.Proofs.Stack.Rotation
import LuaBytecode.Proofs.Stack.Row
import LuaBytecode.Proofs.Stack.SlotRun
import LuaBytecode.Proofs.Text.Lines
import LuaBytecode.Proofs.Text.Utf8
import LuaBytecode.Setting
import LuaBytecode.Stack.Basic
import LuaBytecode.Stack.Command
import LuaBytecode.Stack.Inspect
import LuaBytecode.Stack.Rearrange
import LuaBytecode.Text.Blank
import LuaBytecode.Text.Formless
import LuaBytecode.Text.Quoted
import LuaBytecode.Text.Utf8
import LuaBytecode.Value.Basic
import LuaBytecode.Value.Kind
