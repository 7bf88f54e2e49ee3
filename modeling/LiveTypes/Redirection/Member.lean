import LiveTypes.Code.Instruction
import LiveTypes.Registry.Basic

/-!
# Redirecting members

How one instruction of a version is redirected through the engine. An access to a member is bound to
a baseline slot or to a dispatcher when the layout or the loaded unit of its owner has the member,
and resolved by name when it has not. A reference to an enclosing type that is not registered yet is
always resolved by name.
-/

namespace LiveTypes

/-- The type being redirected and what its code can see. -/
structure RedirectContext where
  typeId : TypeId
  /-- The version being made -/
  version : Nat
  layout : Layout
  /-- Whether each method of the loaded unit is static -/
  loadedMethods : AssocMap String Bool
  registry : Registry

/-- The context of a version of a type with the given first version. -/
def RedirectContext.ofBaseline (typeId : TypeId) (version : Nat) (first : TypeUnit)
    (registry : Registry) : RedirectContext where
  typeId
  version
  layout := Layout.ofUnit first
  loadedMethods := .ofList <| first.methods.map fun m => (m.key, m.isStatic)
  registry

/-- How often each kind of redirection was made. -/
structure RedirectStats where
  slotAccesses : Nat
  extensionAccesses : Nat
  dynamicInvokes : Nat
  captureSites : Nat
deriving DecidableEq, Repr

/-- What redirecting has made so far besides code. -/
structure RedirectState where
  constants : ConstantPool
  /-- Bindings of the sites met so far, in code order -/
  bindings : Array SiteBinding
  stats : RedirectStats
deriving DecidableEq, Repr

namespace RedirectState

def start (constants : ConstantPool) : RedirectState := ⟨constants, #[], ⟨0, 0, 0, 0⟩⟩

def countSlot (s : RedirectState) : RedirectState :=
  { s with stats := { s.stats with slotAccesses := s.stats.slotAccesses + 1 } }

def countExtension (s : RedirectState) : RedirectState :=
  { s with stats := { s.stats with extensionAccesses := s.stats.extensionAccesses + 1 } }

def countDynamic (s : RedirectState) : RedirectState :=
  { s with stats := { s.stats with dynamicInvokes := s.stats.dynamicInvokes + 1 } }

def addSite (s : RedirectState) (constants : ConstantPool) (b : SiteBinding) : RedirectState :=
  { constants
    bindings := s.bindings.push b
    stats := { s.stats with captureSites := s.stats.captureSites + 1 } }

end RedirectState

/-- The owner of a member that code refers to. -/
inductive Owner where
  /-- The type being redirected -/
  | own
  /-- Another registered type -/
  | registered (t : LiveType)
  /-- An enclosing type that is not registered yet -/
  | lateBound

namespace Redirection

variable (cx : RedirectContext) (u : TypeUnit) (m : MethodDecl)

/-- A failure in a method of the unit. -/
def malformed (detail : String) : RejectReason :=
  .malformedUnit s!"{u.name}.{m.key}: {detail}"

def stringAt (constants : ConstantPool) (index : UInt32) : Except RejectReason String :=
  match constants.string? index with
  | some s => .ok s
  | none => .error (malformed u m s!"bad constant index {index}")

def owner (name : String) : Except RejectReason Owner :=
  if name = u.name then .ok .own
  else
    match cx.registry.find? name with
    | some t => .ok (.registered t)
    | none =>
      if TypeName.isNestedIn u.name name then .ok .lateBound
      else .error (.unresolved u.name name)

/-- Place of a field among the captured fields of a unit. -/
def capturedPosition (name : String) : Nat :=
  (u.capturedFields.findIdx? fun f => f.name = name).getD 0

/-- Redirect an access to a field of the type itself. -/
def ownFieldAccess (write : Bool) (i : Instruction) (ownerIndex nameIndex : UInt32)
    (name : String) (s : RedirectState) : Except RejectReason (Instruction × RedirectState) :=
  match u.field? name with
  | none => .error (malformed u m s!"undeclared field {name}")
  | some f =>
    if f.isStatic then .error (malformed u m s!"static field {name} is not supported")
    else if f.isCaptured || f.isEnclosing then
      if write then .error (malformed u m s!"write to captured field {name}")
      else if f.isEnclosing then
        .ok ({ i with opcode := .getEnclosing, operands := .pair ownerIndex nameIndex }, s)
      else
        let position := UInt32.ofNat (capturedPosition u name)
        .ok ({ i with opcode := .getCaptured, operands := .pair ownerIndex position }, s)
    else
      match cx.layout.slot? name with
      | some slot =>
        let opcode := if write then .putFieldSlot else .getFieldSlot
        .ok ({ i with opcode, operands := .pair ownerIndex (UInt32.ofNat slot) }, s.countSlot)
      | none =>
        let opcode := if write then .putExtField else .getExtField
        .ok ({ i with opcode, operands := .pair ownerIndex nameIndex }, s.countExtension)

def fieldAccess (write : Bool) (i : Instruction) (ownerIndex nameIndex : UInt32)
    (s : RedirectState) : Except RejectReason (Instruction × RedirectState) := do
  let ownerName ← stringAt u m s.constants ownerIndex
  let name ← stringAt u m s.constants nameIndex
  let byName : Instruction × RedirectState :=
    ({ i with
       opcode := if write then .putExtField else .getExtField
       operands := .pair ownerIndex nameIndex }, s.countExtension)
  match ← owner cx u ownerName with
  | .own => ownFieldAccess cx u m write i ownerIndex nameIndex name s
  | .registered t =>
    if t.isClosureHost then
      throw (malformed u m s!"{ownerName} state is only reachable from its own code")
    match t.layout.slot? name with
    | some slot =>
      let opcode := if write then .putFieldSlot else .getFieldSlot
      return ({ i with opcode, operands := .pair ownerIndex (UInt32.ofNat slot) }, s.countSlot)
    | none =>
      if (t.fieldType? name).isNone then
        throw (malformed u m s!"unknown field {ownerName}.{name}")
      return byName
  | .lateBound => return byName

/-- Redirect a call. A call stays as it is when the loaded unit of its owner has the method. -/
def invocation (isStatic : Bool) (i : Instruction) (ownerIndex keyIndex : UInt32)
    (s : RedirectState) : Except RejectReason (Instruction × RedirectState) := do
  let ownerName ← stringAt u m s.constants ownerIndex
  let key ← stringAt u m s.constants keyIndex
  let loaded ← match ← owner cx u ownerName with
    | .own =>
      match u.method? key with
      | none => throw (malformed u m s!"call to undeclared method {key}")
      | some declared =>
        if declared.isStatic ≠ isStatic then
          throw (malformed u m s!"call kind mismatch for {key}")
        pure (cx.loadedMethods.find? key)
    | .registered t => pure (t.loadedKind? key)
    | .lateBound => pure none
  if loaded = some isStatic then return (i, s)
  let opcode := if isStatic then .invokeDynamicStatic else .invokeDynamicVirtual
  return ({ i with opcode }, s.countDynamic)

/-- Check an allocation; closure hosts have no instances. -/
def allocation (ownerIndex : UInt32) (s : RedirectState) : Except RejectReason Unit := do
  let ownerName ← stringAt u m s.constants ownerIndex
  let hosts := match ← owner cx u ownerName with
    | .own => u.isClosureHost
    | .registered t => t.isClosureHost
    | .lateBound => false
  if hosts then
    throw (malformed u m s!"{ownerName} hosts a closure and cannot be allocated directly")

/-- The identity, version and shape of a closure host. -/
def host (name : String) : Except RejectReason (TypeId × Nat × HostShape) := do
  match ← owner cx u name with
  | .own =>
    if u.isClosureHost then return (cx.typeId, cx.version, u.hostShape)
    else throw (malformed u m s!"{name} is not a closure host")
  | .registered t =>
    match t.currentShape? with
    | some (version, shape) => return (t.id, version, shape)
    | none => throw (malformed u m s!"{name} is not a closure host")
  | .lateBound => throw (.unresolved u.name name)

/-- Redirect the creation of a closure: its site takes the place of its host. -/
def closureCreation (ordinal : Nat) (i : Instruction) (hostIndex : UInt32) (count flags : UInt8)
    (s : RedirectState) : Except RejectReason (Instruction × RedirectState) := do
  let hostName ← stringAt u m s.constants hostIndex
  let (hostId, hostVersion, shape) ← host cx u m hostName
  if shape.captured.length ≠ count.toNat then
    throw (malformed u m
      s!"closure passes {count} values but {hostName} captures {shape.captured.length}")
  if capturesThis flags ≠ shape.capturesThis then
    throw (malformed u m s!"enclosing-instance capture does not match {hostName}")
  let site : SiteId := ⟨cx.typeId, m.key, ordinal⟩
  let (siteIndex, constants) := s.constants.intern site.key
  return ({ i with opcode := .makeCaptured, operands := .closure siteIndex count flags },
    s.addSite constants ⟨site, hostName, hostId, hostVersion, shape⟩)

/-- Redirect one instruction; `ordinal` counts the closure creations before it in its method. -/
def instruction (ordinal : Nat) (i : Instruction) (s : RedirectState) :
    Except RejectReason (Instruction × RedirectState) :=
  if i.opcode.isEngineOnly then
    .error (malformed u m s!"engine opcode {i.opcode.name} in supplied code")
  else
    match i.opcode, i.operands with
    | .getField, .pair a b => fieldAccess cx u m false i a b s
    | .putField, .pair a b => fieldAccess cx u m true i a b s
    | .invokeStatic, .pair a b => invocation cx u m true i a b s
    | .invokeVirtual, .pair a b => invocation cx u m false i a b s
    | .new, .index a => (allocation cx u m a s).map fun _ => (i, s)
    | .makeClosure, .closure a count flags => closureCreation cx u m ordinal i a count flags s
    | _, _ => .ok (i, s)

end Redirection

end LiveTypes
