import LiveTypes.Code.Instruction
import LiveTypes.Machine.State

/-!
# Single instructions

What each instruction does, and where control goes after it. Calls are not made here: an instruction
that calls names the implementation and the number of its arguments, which stay on the stack.
-/

namespace LiveTypes

/-- Where control goes after an instruction. -/
inductive Flow where
  /-- To the following instruction -/
  | next
  /-- To an instruction at an offset -/
  | jump (target : Nat)
  /-- Back to the caller -/
  | ret (v : Value)
  /-- Into an implementation, over the given number of arguments -/
  | call (target : Executable) (argc : Nat)

namespace Machine

variable (vm : Machine) (e : Executable)

/-! ### Resolution -/

@[inline] def stringOperand (index : UInt32) : Run String :=
  Run.require (.runtime (.badConstant e.key index)) (e.constants.string? index)

/-- The signature key at an index, and its signature. -/
def signatureOperand (index : UInt32) : Run (String × Signature) := do
  let key ← stringOperand e index
  match Signature.parseKey key with
  | .ok signature => return (key, signature)
  | .error cause => throw (.runtime (.badSignature e.key cause))

@[inline] def resolve (name : String) : Run LiveType :=
  Run.require (.unknownType name) (vm.registry.find? name)

def typeById (id : TypeId) : Run LiveType :=
  Run.require (.unknownType ("#" ++ toString id)) (vm.registry.byId? id)

def checkAccess (t : LiveType) : Run Unit :=
  if Access.allows e.unitName t.name t.loadedUnit.access then pure ()
  else throw (.illegalAccess e.unitName t.name)

def dispatcher (t : LiveType) (key : String) : Run Executable :=
  Run.require (.lookup (.noSuchMember t.name key)) (t.dispatcher? key)

def implementation (t : LiveType) (key : String) : Run Executable :=
  Run.lift ((t.executable key).mapError .lookup)

/-- Check that a method is static or not. -/
def expectKind (target : Executable) (isStatic : Bool) : Run Unit :=
  if target.isStatic = isStatic then pure ()
  else throw (.typeError (.kind target.typeName target.key target.isStatic))

def site (id : SiteId) : Run CaptureSite :=
  Run.require (.runtime (.unboundSite id)) (vm.registry.sites.find? id)

/-- The method of the current host of a closure. -/
def closureTarget (c : Closure) (key : String) : Run Executable := do
  let s ← site vm c.site
  let host ← typeById vm s.hostId
  let target ← implementation host key
  expectKind target false
  return target

/-- The type of the receiver under the given number of arguments. -/
def receiverType (owner : String) (params : Nat) : Run LiveType := do
  match ← Run.peek params with
  | .object _ typeName =>
    if typeName = owner then resolve vm owner
    else throw (.typeError (.receiver typeName owner))
  | .null => throw .nullPointer
  | v => throw (.typeError (.receiver v.kind owner))

/-! ### Plain instructions -/

@[inline] def binaryI32 (f : Int32 → Int32 → Except VmError Int32) : Run Flow := do
  let b ← Run.popI32
  let a ← Run.popI32
  Run.push (.i32 (← Run.lift (f a b)))
  return .next

@[inline] def binaryI64 (f : Int64 → Int64 → Except VmError Int64) : Run Flow := do
  let b ← Run.popI64
  let a ← Run.popI64
  Run.push (.i64 (← Run.lift (f a b)))
  return .next

@[inline] def binaryF64 (f : Double → Double → Double) : Run Flow := do
  let b ← Run.popF64
  let a ← Run.popF64
  Run.push (.f64 (f a b))
  return .next

/-- Push the result of comparing two integers of one width. -/
@[inline] def comparison (f : Int → Int → Bool) : Run Flow := do
  let (a, b) ← Run.popIntegers
  Run.push (.bool (f a b))
  return .next

@[inline] def pushNext (v : Value) : Run Flow := do
  Run.push v
  return .next

/-- An instruction without operands. -/
def stepPlain : Opcode → Run Flow
  | .nop => return .next
  | .pop => do
    let _ ← Run.pop
    return .next
  | .dup => do pushNext (← Run.peek 0)
  | .swap => do
    let b ← Run.pop
    let a ← Run.pop
    Run.push b
    pushNext a
  | .constNull => pushNext .null
  | .constTrue => pushNext (.bool true)
  | .constFalse => pushNext (.bool false)
  | .iadd => binaryI32 fun a b => .ok (a + b)
  | .isub => binaryI32 fun a b => .ok (a - b)
  | .imul => binaryI32 fun a b => .ok (a * b)
  | .idiv => binaryI32 fun a b => if b = 0 then .error .divisionByZero else .ok (a / b)
  | .imod => binaryI32 fun a b => if b = 0 then .error .divisionByZero else .ok (a % b)
  | .ineg => do pushNext (.i32 (-(← Run.popI32)))
  | .ladd => binaryI64 fun a b => .ok (a + b)
  | .lsub => binaryI64 fun a b => .ok (a - b)
  | .lmul => binaryI64 fun a b => .ok (a * b)
  | .ldiv => binaryI64 fun a b => if b = 0 then .error .divisionByZero else .ok (a / b)
  | .i2l => do pushNext (.i64 (← Run.popI32).toInt64)
  | .fadd => binaryF64 Double.add
  | .fsub => binaryF64 Double.sub
  | .fmul => binaryF64 Double.mul
  | .fdiv => binaryF64 Double.div
  | .ieq => comparison fun a b => a = b
  | .ine => comparison fun a b => a ≠ b
  | .ilt => comparison fun a b => a < b
  | .ile => comparison fun a b => a ≤ b
  | .igt => comparison fun a b => b < a
  | .ige => comparison fun a b => b ≤ a
  | .not => do pushNext (.bool (!(← Run.popBool)))
  | .ret => do return .ret (← Run.pop)
  | .retVoid => return .ret .null
  | op => throw (.runtime (.malformed op))

/-! ### Locals and jumps -/

/-- An instruction with a local slot. -/
def stepLocal (slot : UInt16) : Opcode → Run Flow
  | .loadLocal => do pushNext (← Run.loadLocal slot.toNat)
  | .storeLocal => do
    Run.storeLocal slot.toNat (← Run.pop)
    return .next
  | op => throw (.runtime (.malformed op))

/-- Go to the target of a jump, which has to lie in the code. -/
def takeJump (i : Instruction) : Run Flow :=
  match i.jumpTarget? with
  | some target =>
    if 0 ≤ target ∧ target.toNat < e.code.size then return .jump target.toNat
    else throw (.runtime (.badJump i.offset))
  | none => throw (.runtime (.badJump i.offset))

def stepJump (i : Instruction) : Run Flow :=
  match i.opcode with
  | .jmp => takeJump e i
  | .jmpIfFalse => do if ← Run.popBool then return .next else takeJump e i
  | .jmpIfTrue => do if ← Run.popBool then takeJump e i else return .next
  | op => throw (.runtime (.malformed op))

/-! ### Objects -/

def newInstance (t : LiveType) : HeapObject := .instanceOf ⟨t.id, t.name, t.layout.defaults⟩

/-- An instruction with one constant. -/
def stepIndex (index : UInt32) : Opcode → Run Flow
  | .constStr => do pushNext (.str (← stringOperand e index))
  | .new => do
    let t ← resolve vm (← stringOperand e index)
    checkAccess e t
    if t.isClosureHost then throw (.typeError (.allocatedHost t.name))
    let id ← Run.allocate (newInstance t)
    pushNext (.object id t.name)
  | .invokeClosure => do
    let (key, signature) ← signatureOperand e index
    match ← Run.peek signature.paramCount with
    | .closure id =>
      let c ← Run.require .nullPointer ((← get).heap.closure? id)
      return .call (← closureTarget vm c key) (signature.paramCount + 1)
    | .null => throw .nullPointer
    | v => throw (.typeError (.expected "closure" v.kind))
  | op => throw (.runtime (.malformed op))

def popOwner (owner : String) : Run ObjectId := do
  let (id, typeName) ← Run.popInstance
  if typeName = owner then return id
  else throw (.typeError (.fieldOwner owner typeName))

def checkStore (typeName field : String) (type : Option TypeDescriptor) (v : Value) : Run Unit :=
  match type with
  | none => throw (.noSuchField typeName field)
  | some type =>
    if v.conforms type then pure ()
    else throw (.typeError (.store v.kind typeName field type))

def getFieldSlot (ownerIndex slot : UInt32) : Run Flow := do
  let owner ← stringOperand e ownerIndex
  let id ← popOwner owner
  let v ← Run.require (.runtime (.noSlot owner slot)) ((← get).heap.getSlot? id slot.toNat)
  pushNext v

def putFieldSlot (ownerIndex slot : UInt32) : Run Flow := do
  let owner ← stringOperand e ownerIndex
  let v ← Run.pop
  let id ← popOwner owner
  let t ← resolve vm owner
  let field := (t.layout.slotName? slot.toNat).getD "?"
  checkStore owner field (t.layout.slotType? slot.toNat) v
  Run.modifyHeap fun heap => heap.setSlot id slot.toNat v
  return .next

/-- Read a field of an instance by name. -/
def getField (ownerIndex nameIndex : UInt32) : Run Flow := do
  let owner ← stringOperand e ownerIndex
  let name ← stringOperand e nameIndex
  let id ← popOwner owner
  let t ← resolve vm owner
  let place ← Run.require (.noSuchField owner name) (t.fieldPlace? name)
  let v ← Run.require (.noSuchField owner name) ((← get).heap.valueAt? id name place)
  Run.modifyHeap fun heap => heap.touchAt id name place
  pushNext v

/-- Write a field of an instance by name. -/
def putField (ownerIndex nameIndex : UInt32) : Run Flow := do
  let owner ← stringOperand e ownerIndex
  let name ← stringOperand e nameIndex
  let v ← Run.pop
  let id ← popOwner owner
  let t ← resolve vm owner
  checkStore owner name (t.fieldType? name) v
  if let some place := t.fieldPlace? name then
    Run.modifyHeap fun heap => heap.storeAt id name v place
  return .next

/-! ### Closures -/

/-- Put passed values, from a position on, in the slots of their positions. -/
def fillSlots (id : SiteId) (s : CaptureSite) (position : Nat) (captured : List Value) :
    List Value → Except VmError (List Value)
  | [] => .ok captured
  | v :: rest =>
    match s.slotFor? position with
    | none => .error (.runtime (.noPosition id position))
    | some slot =>
      match s.slotType? slot with
      | none => .error (.runtime (.noPosition id position))
      | some type =>
        if v.conforms type then
          fillSlots id s (position + 1) (captured.set slot v) rest
        else .error (.typeError (.capture v.kind type))

/-- Create a closure at a capture site. -/
def makeCaptured (keyIndex : UInt32) (count flags : UInt8) : Run Flow := do
  let key ← stringOperand e keyIndex
  let id ← Run.require (.runtime (.badSiteKey key)) (SiteId.ofKey? e.typeId key)
  let s ← site vm id
  let host ← typeById vm s.hostId
  checkAccess e host
  let values ← Run.popMany count.toNat []
  let enclosing ← if capturesThis flags then some <$> Run.pop else pure none
  let unfilled := s.slots.map fun slot => Value.default slot.type
  let captured ← Run.lift (fillSlots id s 0 unfilled values)
  let object ← Run.allocate (.closureOf ⟨id, enclosing, captured⟩)
  pushNext (.closure object)

/-- Read a captured variable by the position that it has in the version of the running code. A slot
made after the closure reads as the default of its type. -/
def getCaptured (position : UInt32) : Run Flow := do
  let c ← Run.popClosure
  let s ← site vm c.site
  let slot ← Run.require (.runtime (.noPosition c.site position.toNat))
    (s.slotAt? e.typeId e.version position.toNat)
  match c.captured[slot]? with
  | some v => pushNext v
  | none =>
    match s.slotType? slot with
    | some type => pushNext (.default type)
    | none => pushNext .null

def getEnclosing : Run Flow := do
  let c ← Run.popClosure
  pushNext (c.enclosing.getD .null)

/-! ### Calls -/

def invokeStatic (dynamic : Bool) (ownerIndex keyIndex : UInt32) : Run Flow := do
  let t ← resolve vm (← stringOperand e ownerIndex)
  checkAccess e t
  let key ← stringOperand e keyIndex
  let target ← if dynamic then implementation t key else dispatcher t key
  expectKind target true
  return .call target target.argSlots

def invokeVirtual (dynamic : Bool) (ownerIndex keyIndex : UInt32) : Run Flow := do
  let owner ← stringOperand e ownerIndex
  let (key, signature) ← signatureOperand e keyIndex
  let t ← receiverType vm owner signature.paramCount
  checkAccess e t
  let target ← if dynamic then implementation t key else dispatcher t key
  expectKind target false
  return .call target (signature.paramCount + 1)

/-- An instruction with an owner and a member, slot or position. -/
def stepPair (a b : UInt32) : Opcode → Run Flow
  | .invokeStatic => invokeStatic vm e false a b
  | .invokeVirtual => invokeVirtual vm e false a b
  | .invokeDynamicStatic => invokeStatic vm e true a b
  | .invokeDynamicVirtual => invokeVirtual vm e true a b
  | .getFieldSlot => getFieldSlot e a b
  | .putFieldSlot => putFieldSlot vm e a b
  | .getExtField => getField vm e a b
  | .putExtField => putField vm e a b
  | .getCaptured => getCaptured vm e b
  | .getEnclosing => getEnclosing
  | .getField => throw (.notRedirected .getField)
  | .putField => throw (.notRedirected .putField)
  | op => throw (.runtime (.malformed op))

/-- A dispatcher's call of the current implementation. -/
def stepDispatch (keyIndex : UInt32) (argc : UInt16) : Run Flow := do
  let key ← stringOperand e keyIndex
  let t ← typeById vm e.typeId
  return .call (← implementation t key) argc.toNat

def stepClosure (index : UInt32) (count flags : UInt8) : Opcode → Run Flow
  | .makeCaptured => makeCaptured vm e index count flags
  | .makeClosure => throw (.notRedirected .makeClosure)
  | op => throw (.runtime (.malformed op))

/-- One instruction of an executable. -/
def step (i : Instruction) : Run Flow :=
  match i.operands with
  | .none => stepPlain i.opcode
  | .i32 v => pushNext (.i32 v)
  | .i64 v => pushNext (.i64 v)
  | .f64 v => pushNext (.f64 v)
  | .index a => stepIndex vm e a i.opcode
  | .localSlot slot => stepLocal slot i.opcode
  | .jump _ => stepJump e i
  | .pair a b => stepPair vm e a b i.opcode
  | .dispatch signature argc => stepDispatch vm e signature argc
  | .closure index count flags => stepClosure vm e index count flags i.opcode

end Machine

end LiveTypes
