import LiveTypes.Code.Instruction
import LiveTypes.Version.Rejection

/-!
# Dispatchers

The unit that is loaded under the name of a type keeps the members of the first version. Each of its
bodies only passes its arguments on to the current implementation:

    LOAD_LOCAL 0 … LOAD_LOCAL (argc - 1)
    DISPATCH   key, argc
    RETURN or RETURN_VOID
-/

namespace LiveTypes

namespace Dispatcher

def emit (op : Opcode) (operands : Operands) : List UInt8 := op.byte :: operands.encode

/-- The body that passes `argc` arguments on to the method of a signature constant. -/
def body (signature : UInt32) (argc : Nat) (returnsValue : Bool) : List UInt8 :=
  (List.range argc).flatMap (fun i => emit .loadLocal (.localSlot (UInt16.ofNat i))) ++
    emit .dispatch (.dispatch signature (UInt16.ofNat argc)) ++
    emit (if returnsValue then .ret else .retVoid) .none

/-- The dispatchers of methods, over one pool that grows from method to method. -/
def methods (constants : ConstantPool) :
    List MethodDecl → Except RejectReason (ConstantPool × List MethodDecl)
  | [] => .ok (constants, [])
  | m :: rest =>
    if 0x10000 ≤ m.argSlots then
      .error (.malformedUnit s!"{m.key} has too many parameters")
    else do
      let (signature, constants) := constants.intern m.key
      let code := body signature m.argSlots m.signature.returnsValue
      let (constants, rest) ← methods constants rest
      return (constants, { m with locals := UInt16.ofNat m.argSlots, code } :: rest)

end Dispatcher

/-- The unit that is loaded for a type with the given first version. -/
def TypeUnit.dispatcher (u : TypeUnit) : Except RejectReason TypeUnit := do
  let (constants, methods) ← Dispatcher.methods .empty u.methods
  return { u with access := u.access ||| Access.dispatching, constants, methods }

end LiveTypes
