/-
  The kinds of Lua values, with the code and the name that Lua gives each.

  Only five kinds have values in this library; the others are named because their codes and names are
  part of the language.  `none` is the kind of an index that holds no value at all.
-/

namespace LuaBytecode

/-- A kind of Lua value. -/
inductive Kind where
  | none
  | nil
  | boolean
  | lightUserdata
  | number
  | string
  | table
  | function
  | userdata
  | thread
  deriving DecidableEq

namespace Kind

/-- The numeric code, which also orders the kinds. -/
def code : Kind → Int
  | none => -1
  | nil => 0
  | boolean => 1
  | lightUserdata => 2
  | number => 3
  | string => 4
  | table => 5
  | function => 6
  | userdata => 7
  | thread => 8

/-- The name a Lua program sees. -/
def name : Kind → String
  | none => "no value"
  | nil => "nil"
  | boolean => "boolean"
  | lightUserdata => "userdata"
  | number => "number"
  | string => "string"
  | table => "table"
  | function => "function"
  | userdata => "userdata"
  | thread => "thread"

/-- The tag that tells all kinds apart, light and full userdata included. -/
def tag : Kind → String
  | none => "None"
  | nil => "Nil"
  | boolean => "Boolean"
  | lightUserdata => "LightUserdata"
  | number => "Number"
  | string => "String"
  | table => "Table"
  | function => "Function"
  | userdata => "Userdata"
  | thread => "Thread"

/-- All kinds by ascending code. -/
def all : List Kind :=
  [none, nil, boolean, lightUserdata, number, string, table, function, userdata, thread]

/-- The kind with a given code. -/
def ofCode? (n : Int) : Option Kind := all.find? (·.code == n)

/-- Kinds compare by code. -/
def cmp (a b : Kind) : Ordering := compare a.code b.code

theorem ofCode?_code (k : Kind) : ofCode? k.code = some k := by
  cases k <;> decide

end Kind

end LuaBytecode
