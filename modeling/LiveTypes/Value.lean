import LiveTypes.Double.Decimal
import LiveTypes.Descriptor.Basic

/-!
# Values

What the operand stack, locals, fields and captured variables hold. Instances and closures are
references to objects of the heap: two values are the same instance just when they name the same
object, whatever it contains. A reference to an instance carries the name of its type, so whether a
value conforms to a type does not depend on the heap.
-/

namespace LiveTypes

/-- Identity of an object: its place in the heap. -/
abbrev ObjectId := Nat

inductive Value where
  | null
  | bool (b : Bool)
  | i32 (i : Int32)
  | i64 (i : Int64)
  | f64 (d : Double)
  | str (s : String)
  /-- An instance of the named type -/
  | object (id : ObjectId) (typeName : String)
  | closure (id : ObjectId)
deriving DecidableEq, Repr, Inhabited

namespace Value

/-- The value of a slot of a type before anything is stored in it. -/
def default : TypeDescriptor → Value
  | .bool => .bool false
  | .i32 => .i32 0
  | .i64 => .i64 0
  | .f64 => .f64 .zero
  | .void | .str | .object _ => .null

def isNull (v : Value) : Bool := v = .null

def i32? : Value → Option Int32
  | .i32 i => some i
  | _ => none

def i64? : Value → Option Int64
  | .i64 i => some i
  | _ => none

def bool? : Value → Option Bool
  | .bool b => some b
  | _ => none

/-- The object that a value refers to. -/
def object? : Value → Option ObjectId
  | .object id _ => some id
  | .closure id => some id
  | _ => none

/-- The kind of a value, for messages. -/
def kind : Value → String
  | .null => "null"
  | .bool _ => "bool"
  | .i32 _ => "i32"
  | .i64 _ => "i64"
  | .f64 _ => "f64"
  | .str _ => "string"
  | .object _ _ => "object"
  | .closure _ => "closure"

/-- Whether a value may be stored in a slot of a type. -/
def conforms : Value → TypeDescriptor → Bool
  | .bool _, .bool => true
  | .i32 _, .i32 => true
  | .i64 _, .i64 => true
  | .f64 _, .f64 => true
  | .null, .str | .str _, .str => true
  | .null, .object _ | .closure _, .object _ => true
  | .object _ typeName, .object name => typeName = name
  | _, _ => false

/-- Whether two values are equal: doubles as numbers, references by identity. -/
def same : Value → Value → Bool
  | .null, .null => true
  | .bool a, .bool b => a = b
  | .i32 a, .i32 b => a = b
  | .i64 a, .i64 b => a = b
  | .f64 a, .f64 b => a.numEq b
  | .str a, .str b => a = b
  | .object a _, .object b _ => a = b
  | .closure a, .closure b => a = b
  | _, _ => false

def text : Value → String
  | .null => "null"
  | .bool b => if b then "true" else "false"
  | .i32 i => s!"{i.toInt}i32"
  | .i64 i => s!"{i.toInt}i64"
  | .f64 d => d.text ++ "f64"
  | .str s => Text.quoted s
  | .object id typeName => s!"{typeName}@{id}"
  | .closure id => s!"closure@{id}"

/-- The default of a value type conforms to it. -/
theorem conforms_default {t : TypeDescriptor} (h : t ≠ .void) : (default t).conforms t = true := by
  cases t <;> first | rfl | exact absurd rfl h

end Value

end LiveTypes
