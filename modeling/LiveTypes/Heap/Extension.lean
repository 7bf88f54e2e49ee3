import LiveTypes.AssocMap
import LiveTypes.Value
import Std.Data.ExtTreeMap

/-!
# Extension store

Fields that a type gained after its first version have no slot in the layout of its instances. Their
values live beside the objects, under the object and the name of the field. A slot is made when a
field is first touched, and it stays until its object is released.
-/

namespace LiveTypes

/-- The value of one field of one object outside the layout. -/
structure ExtensionSlot where
  /-- The type of the field when the slot was made -/
  type : TypeDescriptor
  value : Value
deriving DecidableEq, Repr

/-- Extension slots by object and field. -/
structure ExtensionStore where
  objects : Std.ExtTreeMap ObjectId (AssocMap String ExtensionSlot)
deriving DecidableEq

namespace ExtensionStore

def empty : ExtensionStore := ⟨∅⟩

instance : Inhabited ExtensionStore := ⟨empty⟩

def slotsOf (s : ExtensionStore) (id : ObjectId) : AssocMap String ExtensionSlot :=
  s.objects.getD id .empty

/-- The slot of a field, if it was made. -/
def slot? (s : ExtensionStore) (id : ObjectId) (field : String) : Option ExtensionSlot :=
  (s.slotsOf id).find? field

def slot (s : ExtensionStore) (id : ObjectId) (field : String) (type : TypeDescriptor) :
    ExtensionSlot :=
  (s.slot? id field).getD ⟨type, .default type⟩

def setSlot (s : ExtensionStore) (id : ObjectId) (field : String) (x : ExtensionSlot) :
    ExtensionStore :=
  ⟨s.objects.insert id ((s.slotsOf id).insert field x)⟩

/-- The store after a field was touched. -/
def touch (s : ExtensionStore) (id : ObjectId) (field : String) (type : TypeDescriptor) :
    ExtensionStore :=
  s.setSlot id field (s.slot id field type)

/-- The value of a field that is read; reading touches it. -/
def read (s : ExtensionStore) (id : ObjectId) (field : String) (type : TypeDescriptor) : Value :=
  (s.slot id field type).value

/-- Write a field; a slot keeps the type it was made with. -/
def write (s : ExtensionStore) (id : ObjectId) (field : String) (type : TypeDescriptor)
    (v : Value) : ExtensionStore :=
  s.setSlot id field { s.slot id field type with value := v }

/-- The value of a field, without touching it. -/
def get? (s : ExtensionStore) (id : ObjectId) (field : String) : Option Value :=
  (s.slot? id field).map ExtensionSlot.value

def slotCount (s : ExtensionStore) (id : ObjectId) : Nat := (s.slotsOf id).size

def objectCount (s : ExtensionStore) : Nat := s.objects.size

def release (s : ExtensionStore) (id : ObjectId) : ExtensionStore := ⟨s.objects.erase id⟩

@[simp] theorem slot?_setSlot (s : ExtensionStore) (id id' : ObjectId) (field field' : String)
    (x : ExtensionSlot) :
    (s.setSlot id field x).slot? id' field' =
      if id = id' ∧ field = field' then some x else s.slot? id' field' := by
  unfold setSlot slot? slotsOf
  by_cases hid : id = id'
  · subst hid
    by_cases hf : field = field' <;> simp [hf]
  · simp [Std.ExtTreeMap.getD_insert, hid]

@[simp] theorem slot?_release (s : ExtensionStore) (id id' : ObjectId) (field : String) :
    (s.release id).slot? id' field = if id = id' then none else s.slot? id' field := by
  unfold release slot? slotsOf
  by_cases hid : id = id'
  · simp [hid]
  · simp [Std.ExtTreeMap.getD_erase, hid]

end ExtensionStore

end LiveTypes
