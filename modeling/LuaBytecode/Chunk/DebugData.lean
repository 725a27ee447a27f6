/-
  Debug data of a function tree: sources that are left to the enclosing function, and stripping.

  An empty source means "as the function around it".  `resolveSources` says so outright, from the top
  down, each function handing its own resolved source to its children.  `stripDebugData` forgets the
  source, the line numbers and the names of every function and keeps what runs.
-/
import LuaBytecode.Chunk.Prototype

namespace LuaBytecode

namespace FunctionBody

/-- The source of a function inside a function with source `parent`. -/
def sourceWithin (f : FunctionBody) (parent : String) : String :=
  if f.source = "" then parent else f.source

/-- The function without its source, its line numbers and its names. -/
def stripDebugData (f : FunctionBody) : FunctionBody :=
  { f with source := "", lineInfo := [], localVariables := [], upvalueNames := [] }

end FunctionBody

namespace Prototype

/-- Gives every function without a source the source around it, `parent` being that around the
    root. -/
def resolveSources : Prototype → (parent : String) → Prototype :=
  fold fun f children parent =>
    let source := f.sourceWithin parent
    node { f with source } (children.map fun child => child source)

/-- Strips every function of the tree. -/
def stripDebugData : Prototype → Prototype := fold fun f children => node f.stripDebugData children

@[simp] theorem resolveSources_node (f : FunctionBody) (cs : List Prototype) (parent : String) :
    (node f cs).resolveSources parent
      = node { f with source := f.sourceWithin parent }
          (cs.map fun c => c.resolveSources (f.sourceWithin parent)) := by
  simp [resolveSources]

@[simp] theorem stripDebugData_node (f : FunctionBody) (cs : List Prototype) :
    (node f cs).stripDebugData = node f.stripDebugData (cs.map stripDebugData) := by
  simp [stripDebugData]

end Prototype

/-- The chunk with every source spelt out. -/
def Chunk.resolveSources (c : Chunk) : Chunk := { c with main := c.main.resolveSources "" }

/-- The chunk without debug data. -/
def Chunk.stripDebugData (c : Chunk) : Chunk := { c with main := c.main.stripDebugData }

end LuaBytecode
