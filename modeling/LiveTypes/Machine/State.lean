import LiveTypes.Machine.Stack
import LiveTypes.Registry.Basic
import LiveTypes.Registry.Field

/-!
# Machine state

What running code reads and changes. The registry is read only: no instruction registers or reloads
a type.
-/

namespace LiveTypes

/-- The registry whose code runs, and the limit of its calls. -/
structure Machine where
  registry : Registry
  /-- Greatest nesting of calls -/
  maxCallDepth : Nat

/-- What running code changes. -/
structure MachineState where
  stack : Stack
  heap : Heap
  /-- Number of open calls -/
  depth : Nat

/-- An action of running code. A failure keeps the state that it arose in. -/
abbrev Run (α : Type) := EStateM VmError MachineState α

namespace Run

/-- Fail or go on as a pure computation says. -/
@[inline] def lift {α : Type} (r : Except VmError α) : Run α :=
  match r with
  | .ok a => pure a
  | .error e => throw e

@[inline] def require {α : Type} (e : VmError) (o : Option α) : Run α :=
  match o with
  | some a => pure a
  | none => throw e

/-- Change the stack by an operation that may fail. -/
@[inline] def onStack {α : Type} (f : Stack → Except VmError (α × Stack)) : Run α := fun s =>
  match s with
  | ⟨stack, heap, depth⟩ =>
    match f stack with
    | .ok (a, stack) => .ok a ⟨stack, heap, depth⟩
    | .error e => .error e ⟨stack, heap, depth⟩

@[inline] def push (v : Value) : Run Unit := onStack fun stack => (stack.push v).map ((), ·)

@[inline] def pop : Run Value := onStack Stack.pop

def openFrame (arguments locals : Nat) : Run Unit :=
  onStack fun stack => (stack.pushFrame arguments locals).map ((), ·)

def closeFrame : Run Frame := onStack Stack.popFrame

/-- The operand with `n` operands above it. -/
def peek (n : Nat) : Run Value := do lift ((← get).stack.peek n)

def loadLocal (index : Nat) : Run Value := do lift ((← get).stack.loadLocal index)

def storeLocal (index : Nat) (v : Value) : Run Unit :=
  onStack fun stack => (stack.storeLocal index v).map ((), ·)

@[inline] def modifyHeap (f : Heap → Heap) : Run Unit := fun s =>
  match s with
  | ⟨stack, heap, depth⟩ => .ok () ⟨stack, f heap, depth⟩

def allocate (o : HeapObject) : Run ObjectId := fun s =>
  match s with
  | ⟨stack, heap, depth⟩ =>
    let (id, heap) := heap.allocate o
    .ok id ⟨stack, heap, depth⟩

/-- Pop the given number of operands, the lowest first. -/
def popMany : Nat → List Value → Run (List Value)
  | 0, above => pure above
  | n + 1, above => do
    let v ← pop
    popMany n (v :: above)

@[inline] def popI32 : Run Int32 := do
  let v ← pop
  require (.typeError (.expected "i32" v.kind)) v.i32?

@[inline] def popI64 : Run Int64 := do
  let v ← pop
  require (.typeError (.expected "i64" v.kind)) v.i64?

@[inline] def popF64 : Run Double := do
  match ← pop with
  | .f64 d => return d
  | v => throw (.typeError (.expected "f64" v.kind))

@[inline] def popBool : Run Bool := do
  let v ← pop
  require (.typeError (.expected "bool" v.kind)) v.bool?

/-- Pop two integers of one width, the lower first. -/
def popIntegers : Run (Int × Int) := do
  let b ← pop
  let a ← pop
  match a, b with
  | .i32 a, .i32 b => return (a.toInt, b.toInt)
  | .i64 a, .i64 b => return (a.toInt, b.toInt)
  | _, _ => throw (.typeError (.comparison a.kind b.kind))

/-- Pop a reference to an instance: the object and the name of its type. -/
@[inline] def popInstance : Run (ObjectId × String) := do
  match ← pop with
  | .object id typeName => return (id, typeName)
  | .null => throw .nullPointer
  | v => throw (.typeError (.expected "object" v.kind))

def popClosure : Run Closure := do
  match ← pop with
  | .closure id =>
    require .nullPointer ((← get).heap.closure? id)
  | .null => throw .nullPointer
  | v => throw (.typeError (.expected "closure" v.kind))

end Run

end LiveTypes
