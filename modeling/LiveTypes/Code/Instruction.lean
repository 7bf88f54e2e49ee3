import LiveTypes.Bytes.Cursor
import LiveTypes.Code.Opcode

/-!
# Instructions

An instruction is an opcode with its operands at an offset of a body. Bodies are byte strings that
instructions tile; `Instruction.decodeAll` finds the tiling, and encoding its instructions one after
the other gives the body back.
-/

namespace LiveTypes

inductive Operands where
  | none
  | i32 (value : Int32)
  | i64 (value : Int64)
  | f64 (value : Double)
  /-- A constant index -/
  | index (value : UInt32)
  /-- A local slot -/
  | localSlot (value : UInt16)
  /-- A jump offset, relative to the following instruction -/
  | jump (offset : Int32)
  /-- Two constant indices, or an owner and a slot or position -/
  | pair (first second : UInt32)
  /-- A signature constant and the number of argument slots -/
  | dispatch (signature : UInt32) (argc : UInt16)
  /-- A host or site constant, the number of captured values and flags -/
  | closure (constant : UInt32) (count flags : UInt8)
deriving DecidableEq, Repr

namespace Operands

/-- The form the operands have. -/
def form : Operands → OperandForm
  | .none => .none
  | .i32 _ => .i32
  | .i64 _ => .i64
  | .f64 _ => .f64
  | .index _ => .index
  | .localSlot _ => .localSlot
  | .jump _ => .jump
  | .pair _ _ => .pair
  | .dispatch _ _ => .dispatch
  | .closure _ _ _ => .closure

def encode : Operands → List UInt8
  | .none => []
  | .i32 v | .jump v => encodeI32 v
  | .i64 v => encodeI64 v
  | .f64 v => encodeU64 v.bits
  | .index v => encodeU32 v
  | .localSlot v => encodeU16 v
  | .pair a b => encodeU32 a ++ encodeU32 b
  | .dispatch signature argc => encodeU32 signature ++ encodeU16 argc
  | .closure constant count flags => encodeU32 constant ++ [count, flags]

@[simp] theorem length_encode (o : Operands) : o.encode.length = o.form.length := by
  cases o <;> simp [encode, form, OperandForm.length]

end Operands

def OperandForm.read : OperandForm → Decoder DecodeError Operands
  | .none => return .none
  | .i32 => return .i32 (← Decoder.i32)
  | .i64 => return .i64 (← Decoder.i64)
  | .f64 => return .f64 (← Decoder.f64)
  | .index => return .index (← Decoder.u32)
  | .localSlot => return .localSlot (← Decoder.u16)
  | .jump => return .jump (← Decoder.i32)
  | .pair => do
    let a ← Decoder.u32
    let b ← Decoder.u32
    return .pair a b
  | .dispatch => do
    let signature ← Decoder.u32
    let argc ← Decoder.u16
    return .dispatch signature argc
  | .closure => do
    let constant ← Decoder.u32
    let count ← Decoder.u8
    let flags ← Decoder.u8
    return .closure constant count flags

def Opcode.read : Decoder DecodeError Opcode := do
  let before ← get
  let b ← Decoder.u8
  match Opcode.ofByte? b with
  | some op => return op
  | none => throw (.invalidOpcode b before.pos)

structure Instruction where
  /-- Offset of the opcode byte -/
  offset : Nat
  opcode : Opcode
  operands : Operands
deriving DecidableEq, Repr

namespace Instruction

/-- Encoded length in bytes. -/
def length (i : Instruction) : Nat := 1 + i.opcode.operandLength

def next (i : Instruction) : Nat := i.offset + i.length

/-- Whether the operands have the form that the opcode asks for. -/
def Fits (i : Instruction) : Prop := i.operands.form = i.opcode.form

instance (i : Instruction) : Decidable i.Fits := inferInstanceAs (Decidable (_ = _))

/-- Absolute target of a jump, in signed arithmetic of 64 bits: a sum beyond the largest offset
comes round at the least one. -/
def jumpTarget? (i : Instruction) : Option Int :=
  match i.operands with
  | .jump offset => some (Int.bmod (i.next + offset.toInt) UInt64.size)
  | _ => none

/-- A target that fits is the next offset and the distance together. -/
theorem jumpTarget?_eq_some_of_fits (i : Instruction) (distance : Int32)
    (jump : i.operands = .jump distance)
    (fits : i.next + distance.toInt < 0x8000000000000000) :
    i.jumpTarget? = some (i.next + distance.toInt) := by
  have lower := distance.le_toInt
  simp only [jumpTarget?, jump]
  rw [Int.bmod_eq_of_le] <;> simp only [UInt64.size] <;> omega

def encode (i : Instruction) : List UInt8 := i.opcode.byte :: i.operands.encode

def read : Decoder DecodeError Instruction := do
  let before ← get
  let opcode ← Opcode.read
  let operands ← opcode.form.read
  return ⟨before.pos, opcode, operands⟩

/-- Read instructions up to the end of the bytes; `n` bounds their number. -/
def readAll : Nat → Cursor → List Instruction → Except DecodeError (List Instruction)
  | 0, _, done => .ok done.reverse
  | n + 1, c, done =>
    if c.atEnd then .ok done.reverse
    else
      match read c with
      | .ok i c => readAll n c (i :: done)
      | .error e _ => .error e

/-- The instructions that tile a body. -/
def decodeAll (code : List UInt8) : Except DecodeError (List Instruction) :=
  readAll code.length (.start code) []

/-- The body that instructions tile. -/
def encodeAll (l : List Instruction) : List UInt8 := l.flatMap encode

theorem length_encode {i : Instruction} (h : i.Fits) : i.encode.length = i.length := by
  unfold Fits at h
  simp only [encode, List.length_cons, Operands.length_encode, length, Opcode.operandLength_eq, h]
  omega

/-! ### Replacing in place -/

/-- Overwrite the bytes of an instruction with those of another at its offset. Nothing happens
unless both have the same offset and length. -/
def patch (code : List UInt8) (before after : Instruction) : Option (List UInt8) :=
  if before.offset = after.offset ∧ before.length = after.length then
    some (code.take before.offset ++ after.encode ++ code.drop before.next)
  else none

/-- Replace instructions of a body in place one after the other, those that are replaced by others. -/
def patchAll (code : List UInt8) : List (Instruction × Instruction) → Option (List UInt8)
  | [] => some code
  | (before, after) :: rest =>
    if before = after then patchAll code rest
    else (patch code before after).bind fun code => patchAll code rest

end Instruction

end LiveTypes
