/-
  A reading session: a list of steps on one input, each starting where the one before it left the cursor,
  whether that step succeeded or failed.

  Nested functions are counted within one step only, so every step that reads a function may open all the
  levels that the limit allows.
-/
import LuaBytecode.Chunk.Loader

namespace LuaBytecode

/-- A step of a session. -/
inductive ReadStep where
  | byte
  | word32
  | word64
  | integer
  | number
  | bytes (n : Nat)
  | string
  | header
  /-- A function inside a function with the given source. -/
  | prototype (parent : String)
  deriving DecidableEq

/-- What a step yields. -/
inductive ReadResult where
  | byte (b : UInt8)
  | word32 (n : UInt32)
  | word64 (n : UInt64)
  | integer (n : Int64)
  | number (f : Binary64)
  | bytes (bytes : Bytes)
  | header
  | prototype (p : Prototype)

/-- Runs a step under a nesting limit. -/
def ReadStep.run (limit : Nat) : ReadStep → ReadM ReadResult
  | byte => ReadResult.byte <$> ReadM.byte
  | word32 => ReadResult.word32 <$> ReadM.word32
  | word64 => ReadResult.word64 <$> ReadM.word64
  | integer => ReadResult.integer <$> ReadM.integer
  | number => ReadResult.number <$> ReadM.number
  | bytes n => ReadResult.bytes <$> ReadM.take n .bytes
  | string => ReadResult.bytes <$> ReadM.string
  | header => (fun _ => ReadResult.header) <$> ReadM.header
  | prototype parent => ReadResult.prototype <$> ReadM.prototype limit limit parent

/-- The cursor after a step, however the step ended. -/
def cursorAfter : EStateM.Result LoadError Cursor ReadResult → Cursor
  | .ok _ c => c
  | .error _ c => c

/-- The outcome of every step of a session. -/
def readSession (limit : Nat) :
    Cursor → List ReadStep → List (EStateM.Result LoadError Cursor ReadResult)
  | _, [] => []
  | c, step :: rest =>
    let outcome := step.run limit c
    outcome :: readSession limit (cursorAfter outcome) rest

end LuaBytecode
