import LiveTypes.Machine.Run

/-!
# Invocations

How a host calls into the code of a registry: through the dispatchers of the loaded units, as its own
compiled code would, and through the current host of a closure. Every invocation runs on a stack of
its own.
-/

namespace LiveTypes

namespace Machine

/-- The state in which an invocation starts. -/
def startState (heap : Heap) : MachineState := ⟨.empty Stack.defaultLimit, heap, 0⟩

def pushAll : List Value → Run Unit
  | [] => pure ()
  | v :: rest => do
    Run.push v
    pushAll rest

/-- Check and push the receiver and the arguments of an invocation, and give their number. -/
def prepare (target : Executable) (receiver : Option Value) (arguments : List Value) :
    Run Nat := do
  let argc := arguments.length + receiver.toList.length
  if argc ≠ target.argSlots then
    throw (.typeError (.arguments target.key target.signature.paramCount arguments.length))
  pushAll (receiver.toList ++ arguments)
  return argc

/-- Find a target and call it over a receiver and arguments. -/
def invoke (vm : Machine) (fuel : Nat) (find : Run Executable) (receiver : Option Value)
    (arguments : List Value) (s : MachineState) : Option RunResult :=
  let start : Run (Executable × Nat) := do
    let target ← find
    return (target, ← prepare target receiver arguments)
  match start s with
  | .error e s => some (.error e s)
  | .ok (target, argc) s => call vm fuel target argc s

def outcome : RunResult → Except VmError Value × Heap
  | .ok v s => (.ok v, s.heap)
  | .error e s => (.error e, s.heap)

variable (vm : Machine) (fuel : Nat)

def invokeStaticMethod (typeName key : String) (arguments : List Value) (heap : Heap) :
    Option (Except VmError Value × Heap) :=
  let find : Run Executable := do
    let t ← resolve vm typeName
    let target ← dispatcher t key
    expectKind target true
    return target
  (invoke vm fuel find none arguments (startState heap)).map outcome

def invokeInstanceMethod (receiver : ObjectId) (typeName key : String) (arguments : List Value)
    (heap : Heap) : Option (Except VmError Value × Heap) :=
  let find : Run Executable := do
    let t ← resolve vm typeName
    let target ← dispatcher t key
    expectKind target false
    return target
  (invoke vm fuel find (some (.object receiver typeName)) arguments (startState heap)).map outcome

def invokeClosureMethod (id : ObjectId) (c : Closure) (key : String) (arguments : List Value)
    (heap : Heap) : Option (Except VmError Value × Heap) :=
  (invoke vm fuel (closureTarget vm c key) (some (.closure id)) arguments
    (startState heap)).map outcome

def makeInstance (typeName : String) (heap : Heap) : Except VmError (Value × Heap) :=
  match vm.registry.find? typeName with
  | none => .error (.unknownType typeName)
  | some t =>
    if t.isClosureHost then .error (.typeError (.instantiatedHost typeName))
    else
      let (id, heap) := heap.allocate (newInstance t)
      .ok (.object id t.name, heap)

end Machine

end LiveTypes
