import LiveTypes.Code.Instruction

/-!
# Assembling code

An assembler collects the bytes of a body. A jump forward is emitted with an open offset, which is
bound to the place reached later.
-/

namespace LiveTypes

/-- Code under construction. -/
structure Assembler where
  code : Array UInt8
deriving DecidableEq, Repr

namespace Assembler

def empty : Assembler := ⟨#[]⟩

instance : Inhabited Assembler := ⟨empty⟩

def bytes (a : Assembler) : List UInt8 := a.code.toList

/-- Number of bytes emitted so far. -/
def offset (a : Assembler) : Nat := a.code.size

def append (a : Assembler) (bytes : List UInt8) : Assembler := ⟨a.code ++ bytes⟩

/-! ### Numbers -/

def u8 (a : Assembler) (v : UInt8) : Assembler := a.append [v]

def u16 (a : Assembler) (v : UInt16) : Assembler := a.append (encodeU16 v)

def u32 (a : Assembler) (v : UInt32) : Assembler := a.append (encodeU32 v)

def i32 (a : Assembler) (v : Int32) : Assembler := a.append (encodeI32 v)

def i64 (a : Assembler) (v : Int64) : Assembler := a.append (encodeI64 v)

def f64 (a : Assembler) (v : Double) : Assembler := a.append (encodeU64 v.bits)

/-! ### Instructions -/

def opcode (a : Assembler) (op : Opcode) : Assembler := a.u8 op.byte

/-- Append an opcode and one constant index. -/
def withIndex (a : Assembler) (op : Opcode) (index : UInt32) : Assembler := (a.opcode op).u32 index

def withSlot (a : Assembler) (op : Opcode) (slot : UInt16) : Assembler := (a.opcode op).u16 slot

def withPair (a : Assembler) (op : Opcode) (first second : UInt32) : Assembler :=
  ((a.opcode op).u32 first).u32 second

def constI32 (a : Assembler) (v : Int32) : Assembler := (a.opcode .constI32).i32 v

def constI64 (a : Assembler) (v : Int64) : Assembler := (a.opcode .constI64).i64 v

def constF64 (a : Assembler) (v : Double) : Assembler := (a.opcode .constF64).f64 v

def constStr (a : Assembler) (index : UInt32) : Assembler := a.withIndex .constStr index

def loadLocal (a : Assembler) (slot : UInt16) : Assembler := a.withSlot .loadLocal slot

def storeLocal (a : Assembler) (slot : UInt16) : Assembler := a.withSlot .storeLocal slot

def ret (a : Assembler) : Assembler := a.opcode .ret

def retVoid (a : Assembler) : Assembler := a.opcode .retVoid

def invokeStatic (a : Assembler) (type signature : UInt32) : Assembler :=
  a.withPair .invokeStatic type signature

def invokeVirtual (a : Assembler) (owner signature : UInt32) : Assembler :=
  a.withPair .invokeVirtual owner signature

def invokeClosure (a : Assembler) (signature : UInt32) : Assembler :=
  a.withIndex .invokeClosure signature

def new (a : Assembler) (type : UInt32) : Assembler := a.withIndex .new type

def getField (a : Assembler) (owner field : UInt32) : Assembler := a.withPair .getField owner field

def putField (a : Assembler) (owner field : UInt32) : Assembler := a.withPair .putField owner field

def makeClosure (a : Assembler) (host : UInt32) (count flags : UInt8) : Assembler :=
  (((a.opcode .makeClosure).u32 host).u8 count).u8 flags

def dispatch (a : Assembler) (signature : UInt32) (argc : UInt16) : Assembler :=
  ((a.opcode .dispatch).u32 signature).u16 argc

def emit (a : Assembler) (op : Opcode) (operands : Operands) : Assembler :=
  a.append (op.byte :: operands.encode)

/-! ### Jumps -/

/-- Overwrite bytes from an offset on. -/
def overwrite (a : Assembler) (offset : Nat) : List UInt8 → Assembler
  | [] => a
  | b :: rest => overwrite ⟨a.code.setIfInBounds offset b⟩ (offset + 1) rest

/-- Leave room for four bytes and give their offset. -/
def reserve (a : Assembler) : Nat × Assembler := (a.offset, a.i32 0)

/-- Emit a jump with an open offset, and give the place of the offset. -/
def jump (a : Assembler) (op : Opcode) : Nat × Assembler := (a.opcode op).reserve

/-- Let the jump whose offset is at the given place lead here. -/
def bindJump (a : Assembler) (place : Nat) : Assembler :=
  a.overwrite place (encodeI32 (Int32.ofNat a.offset - (Int32.ofNat place + 4)))

/-! ### What is there afterwards -/

@[simp] theorem length_bytes (a : Assembler) : a.bytes.length = a.offset := by simp [bytes, offset]

@[simp] theorem bytes_append (a : Assembler) (l : List UInt8) :
    (a.append l).bytes = a.bytes ++ l := by
  simp [bytes, append]

@[simp] theorem bytes_u8 (a : Assembler) (v : UInt8) : (a.u8 v).bytes = a.bytes ++ [v] :=
  a.bytes_append [v]

@[simp] theorem bytes_u16 (a : Assembler) (v : UInt16) : (a.u16 v).bytes = a.bytes ++ encodeU16 v :=
  a.bytes_append (encodeU16 v)

@[simp] theorem bytes_u32 (a : Assembler) (v : UInt32) : (a.u32 v).bytes = a.bytes ++ encodeU32 v :=
  a.bytes_append (encodeU32 v)

@[simp] theorem bytes_i32 (a : Assembler) (v : Int32) : (a.i32 v).bytes = a.bytes ++ encodeI32 v :=
  a.bytes_append (encodeI32 v)

@[simp] theorem bytes_i64 (a : Assembler) (v : Int64) : (a.i64 v).bytes = a.bytes ++ encodeI64 v :=
  a.bytes_append (encodeI64 v)

@[simp] theorem bytes_f64 (a : Assembler) (v : Double) :
    (a.f64 v).bytes = a.bytes ++ encodeU64 v.bits :=
  a.bytes_append (encodeU64 v.bits)

@[simp] theorem bytes_opcode (a : Assembler) (op : Opcode) :
    (a.opcode op).bytes = a.bytes ++ [op.byte] :=
  a.bytes_u8 op.byte

@[simp] theorem offset_opcode (a : Assembler) (op : Opcode) : (a.opcode op).offset = a.offset + 1 := by
  simp [← length_bytes]

end Assembler

end LiveTypes
