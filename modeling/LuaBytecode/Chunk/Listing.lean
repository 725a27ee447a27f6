/-
  A readable listing of a function and of the functions nested in it.

  Each function gives a blank line, two header lines, one line for each instruction, and three sections:
  its constants, its local variables and its upvalues, each behind a line that announces their number.
  The nested functions follow, depth first.  Every line is the concatenation of its columns and one line
  end, so the shape of a listing can be read off the lists of lines below.  String constants are quoted,
  which keeps them on one line.
-/
import LuaBytecode.Chunk.Prototype
import LuaBytecode.Text.Quoted

namespace LuaBytecode

namespace Listing

/-- The plural ending after a number. -/
def plural (n : Nat) : String := if n = 1 then "" else "s"

/-- A number, a blank, and the noun it counts. -/
def counted (n : Nat) (noun : String) : String := naturalText n ++ " " ++ noun ++ plural n

/-- How the source of a function is shown: a leading `@` or `=` marks a name to be shown as it stands,
    an escape marks binary text, and anything else is program text. -/
def sourceText (source : String) : String :=
  match source.toList with
  | '@' :: rest => String.ofList rest
  | '=' :: rest => String.ofList rest
  | '\x1b' :: _ => "binary string"
  | _ => "string"

/-- Columns, each behind a tab. -/
def row (columns : List String) : String := String.join (columns.map fun c => "\t" ++ c)

/-! ## Lines of one function -/

/-- What the function is and where it comes from. -/
def titleLine (f : FunctionBody) : String :=
  (if f.isMain then "main" else "function") ++ " <" ++ sourceText f.source ++ ":"
    ++ naturalText f.firstLine.toNat ++ "," ++ naturalText f.lastLine.toNat ++ "> ("
    ++ counted f.code.length "instruction" ++ ")"

/-- How much of everything it has. -/
def summaryLine (f : FunctionBody) (childCount : Nat) : String :=
  naturalText f.parameterCount.toNat ++ (if f.hasVarargs then "+" else "") ++ " param"
    ++ plural f.parameterCount.toNat ++ ", " ++ counted f.slotCount.toNat "slot" ++ ", "
    ++ counted f.upvalues.length "upvalue" ++ ", " ++ counted f.localVariables.length "local" ++ ", "
    ++ counted f.constants.length "constant" ++ ", " ++ counted childCount "function"

/-- The instruction at position `pc`, numbered from one. -/
def instructionLine (f : FunctionBody) (pc : Nat) (i : Instruction) : String :=
  let line := match f.lineAt? pc with
    | some n => naturalText n.toNat
    | none => "-"
  row [naturalText (pc + 1), "[" ++ line ++ "]", i.text]

/-- A constant: strings quoted, everything else as it reads. -/
def constantText : Value → String
  | .str bytes => Quoted.encode (Utf8.decode bytes)
  | v => v.text

/-- The constant at position `k`, numbered from one. -/
def constantLine (k : Nat) (v : Value) : String := row [naturalText (k + 1), constantText v]

/-- The local variable at position `k` with the instructions it is alive between, numbered from
    one. -/
def localLine (k : Nat) (v : LocalVariable) : String :=
  row [naturalText k, v.name, naturalText (v.startPc.toNat + 1), naturalText (v.endPc.toNat + 1)]

/-- The upvalue at position `k`, with its name if it has one. -/
def upvalueLine (f : FunctionBody) (k : Nat) (u : Upvalue) : String :=
  row [naturalText k, f.upvalueNames[k]?.getD "-", naturalText u.inStack.toNat,
    naturalText u.index.toNat]

/-- A section's announcement. -/
def announcement (title : String) (n : Nat) : String := title ++ " (" ++ naturalText n ++ "):"

/-- All lines of one function. -/
def bodyLines (f : FunctionBody) (childCount : Nat) : List String :=
  ["", titleLine f, summaryLine f childCount]
    ++ f.code.mapIdx (instructionLine f)
    ++ announcement "constants" f.constants.length :: f.constants.mapIdx constantLine
    ++ announcement "locals" f.localVariables.length :: f.localVariables.mapIdx localLine
    ++ announcement "upvalues" f.upvalues.length :: f.upvalues.mapIdx (upvalueLine f)

/-! ## The whole tree -/

/-- All lines of a function and of the functions nested in it. -/
def lines : Prototype → List String :=
  Prototype.fold fun f children => bodyLines f children.length ++ children.flatten

end Listing

/-- The listing of a function. -/
def Prototype.listing (p : Prototype) : String :=
  String.join ((Listing.lines p).map fun line => line ++ "\n")

end LuaBytecode
