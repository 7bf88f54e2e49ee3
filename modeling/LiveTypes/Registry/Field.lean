import LiveTypes.Heap.Basic
import LiveTypes.Registry.LiveType

/-!
# Fields of instances

A field is read and written by name at its slot when the layout of the type has one, and at its
extension slot when only later versions declare it. A field that no version declares does not exist.
-/

namespace LiveTypes

namespace LiveType

/-- Where the value of a field of an instance lives. -/
inductive FieldPlace where
  /-- A slot of the layout -/
  | slot (index : Nat)
  /-- An extension slot, with the type of the field -/
  | extension (type : TypeDescriptor)
deriving DecidableEq, Repr

/-- The place of a field that some version declares. -/
def fieldPlace? (t : LiveType) (name : String) : Option FieldPlace :=
  match t.layout.slot? name with
  | some slot => some (.slot slot)
  | none => (t.fieldType? name).map .extension

end LiveType

namespace Heap

/-- The value at the place of a field; there is none at a slot that the instance does not have. -/
def valueAt? (h : Heap) (id : ObjectId) (name : String) : LiveType.FieldPlace → Option Value
  | .slot slot => h.getSlot? id slot
  | .extension type => some (h.extensions.read id name type)

/-- The heap after the place of a field was read; reading an extension field touches it. -/
def touchAt (h : Heap) (id : ObjectId) (name : String) : LiveType.FieldPlace → Heap
  | .slot _ => h
  | .extension type => { h with extensions := h.extensions.touch id name type }

/-- Put a value at the place of a field; nothing happens at a slot that the instance does not
have. -/
def storeAt (h : Heap) (id : ObjectId) (name : String) (v : Value) : LiveType.FieldPlace → Heap
  | .slot slot => h.setSlot id slot v
  | .extension type => { h with extensions := h.extensions.write id name type v }

def readField (h : Heap) (t : LiveType) (id : ObjectId) (name : String) :
    Option (Value × Heap) := do
  let place ← t.fieldPlace? name
  let v ← h.valueAt? id name place
  return (v, h.touchAt id name place)

def writeField (h : Heap) (t : LiveType) (id : ObjectId) (name : String) (v : Value) :
    Option Heap := do
  let place ← t.fieldPlace? name
  let _ ← h.valueAt? id name place
  return h.storeAt id name v place

end Heap

end LiveTypes
