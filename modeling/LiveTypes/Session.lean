import LiveTypes.Machine.Invoke
import LiveTypes.Registry.Scope

/-!
# Sessions

A host that registers and reloads types, makes objects and calls into them. It holds values under
handles; an object that no handle and no other object refers to is released. Once the registry is
given up, its types stay as they are, and fields outside the layout can no longer be stored.
-/

namespace LiveTypes

/-- The state of a host. -/
structure Session where
  registry : Registry
  heap : Heap
  handles : AssocMap String Value
  maxCallDepth : Nat
  /-- Whether the registry is still there -/
  attached : Bool

namespace Session

def start (config : RegistryConfig) (maxCallDepth : Nat) : Session :=
  ⟨.create config, .empty, .empty, maxCallDepth, true⟩

def machine (s : Session) : Machine := ⟨s.registry, s.maxCallDepth⟩

/-- Release what the handles no longer reach. -/
def settle (s : Session) : Session := { s with heap := s.heap.release s.handles.values }

/-- Give up the registry. -/
def detach (s : Session) : Session := { s with attached := false }

/-! ### Types -/

def register (s : Session) (name : String) (bytes : List UInt8) :
    Except RegistryError (LiveType × Session) := do
  let (t, registry) ← s.registry.register name bytes
  return (t, { s with registry })

/-- Reload a type through the registry. -/
def reload (s : Session) (name label : String) (bytes : List UInt8) :
    Except RegistryError Session := do
  return { s with registry := ← s.registry.reload name label bytes }

/-- Reload a type that the host knows. -/
def reloadType (s : Session) (t : LiveType) (label : String) (bytes : List UInt8) :
    Except ReloadError Session :=
  if s.attached then do
    return { s with registry := ← s.registry.reloadType t label bytes }
  else .error ⟨t.name, label, .detached⟩

/-! ### Values -/

def value? (s : Session) (handle : String) : Option Value := s.handles.find? handle

def hold (s : Session) (handle : String) (v : Value) : Session :=
  { s with handles := s.handles.insert handle v }

def drop (s : Session) (handle : String) : Session :=
  { s with handles := s.handles.erase handle }

/-- Handles under which the very object of a value is held, in order. -/
def holders (s : Session) (v : Value) : List String :=
  let same := s.handles.entries.filter fun e => e.2.object? = v.object?
  (same.map Prod.fst).mergeSort fun a b => a ≤ b

def makeInstance (s : Session) (typeName : String) : Except VmError (Value × Session) := do
  let (v, heap) ← s.machine.makeInstance typeName s.heap
  return (v, { s with heap })

/-- The number of nested steps that an invocation may take. -/
def fuel : Nat := 1000000000000000000

/-- The state after an invocation, and what came of it. -/
def after (s : Session) (o : Option (Except VmError Value × Heap)) :
    Option (Except VmError Value × Session) :=
  o.map fun (result, heap) => (result, { s with heap })

def invokeStatic (s : Session) (typeName key : String) (arguments : List Value) :
    Option (Except VmError Value × Session) :=
  s.after (s.machine.invokeStaticMethod fuel typeName key arguments s.heap)

/-- Invoke a method of an instance or a closure; any other value has none. -/
def invokeOn (s : Session) (receiver : Value) (key : String) (arguments : List Value) :
    Option (Except VmError Value × Session) :=
  match receiver with
  | .object id typeName =>
    s.after (s.machine.invokeInstanceMethod fuel id typeName key arguments s.heap)
  | .closure id =>
    match s.heap.closure? id with
    | some c => s.after (s.machine.invokeClosureMethod fuel id c key arguments s.heap)
    | none => none
  | _ => none

/-! ### Fields -/

def getField (s : Session) (id : ObjectId) (typeName name : String) : Option (Value × Session) :=
  match s.registry.find? typeName with
  | none => none
  | some t =>
    match s.heap.readField t id name, s.attached with
    | none, _ => none
    | some (v, heap), true => some (v, { s with heap })
    | some (v, _), false =>
      match t.fieldPlace? name with
      | some (.extension type) => some (.default type, s)
      | _ => some (v, s)

def setField (s : Session) (id : ObjectId) (typeName name : String) (v : Value) :
    Option Session :=
  match s.registry.find? typeName with
  | none => none
  | some t =>
    match t.fieldPlace? name, s.attached with
    | some (.extension _), false => some s
    | _, _ => (s.heap.writeField t id name v).map fun heap => { s with heap }

def setSlot (s : Session) (id : ObjectId) (slot : Nat) (v : Value) : Option Session :=
  (s.heap.getSlot? id slot).map fun _ => { s with heap := s.heap.setSlot id slot v }

def readExtension (s : Session) (id : ObjectId) (field : String) (type : TypeDescriptor) :
    Value × Session :=
  if s.attached then
    let extensions := s.heap.extensions
    (extensions.read id field type,
      { s with heap := { s.heap with extensions := extensions.touch id field type } })
  else (.default type, s)

def writeExtension (s : Session) (id : ObjectId) (field : String) (type : TypeDescriptor)
    (v : Value) : Session :=
  if s.attached then
    { s with heap := { s.heap with extensions := s.heap.extensions.write id field type v } }
  else s

/-- Number of extension slots of an object; none are known without the registry. -/
def extensionSlots? (s : Session) (id : ObjectId) : Option Nat :=
  if s.attached then some (s.heap.extensions.slotCount id) else none

/-- Whether an extension slot of an object was ever made. -/
def isExtended (s : Session) (id : ObjectId) : Bool := s.heap.extensions.slotCount id ≠ 0

end Session

end LiveTypes
