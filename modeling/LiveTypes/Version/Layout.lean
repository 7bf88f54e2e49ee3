import LiveTypes.TypeUnit.Basic
import LiveTypes.Value

/-!
# Layouts

The slots that every instance of a type has, fixed by the first version of the type. Closure hosts
have none: their fields live in the closures.
-/

namespace LiveTypes

/-- Names and types of instance slots, in slot order. -/
structure Layout where
  fields : List (String × TypeDescriptor)
deriving DecidableEq, Repr

namespace Layout

def empty : Layout := ⟨[]⟩

/-- The layout that a first version fixes. -/
def ofUnit (u : TypeUnit) : Layout :=
  if u.isClosureHost then empty
  else
    let own := u.instanceFields.filter fun f => !f.isCaptured && !f.isEnclosing
    ⟨own.map fun f => (f.name, f.type)⟩

def size (l : Layout) : Nat := l.fields.length

/-- The last slot with a name. -/
def slotIn (name : String) : List (String × TypeDescriptor) → Option Nat
  | [] => none
  | (n, _) :: rest =>
    match slotIn name rest with
    | some i => some (i + 1)
    | none => if n = name then some 0 else none

def slot? (l : Layout) (name : String) : Option Nat := slotIn name l.fields

def slotName? (l : Layout) (slot : Nat) : Option String := l.fields[slot]?.map Prod.fst

def slotType? (l : Layout) (slot : Nat) : Option TypeDescriptor := l.fields[slot]?.map Prod.snd

def fieldType? (l : Layout) (name : String) : Option TypeDescriptor :=
  (l.slot? name).bind l.slotType?

/-- The slots of a new instance. -/
def defaults (l : Layout) : List Value := l.fields.map fun f => Value.default f.2

@[simp] theorem length_defaults (l : Layout) : l.defaults.length = l.size := by
  simp [defaults, size]

end Layout

end LiveTypes
