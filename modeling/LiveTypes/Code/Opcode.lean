/-!
# Opcodes

Every opcode has a byte, a mnemonic and the form of the operands that follow it. Compilers emit
source opcodes; engine opcodes appear only in redirected code, and each one that replaces a source
opcode has operands of the same length.
-/

namespace LiveTypes

inductive Opcode where
  -- stack and constants
  | nop | pop | dup | swap
  | constNull | constTrue | constFalse | constI32 | constF64 | constStr | constI64
  -- locals
  | loadLocal | storeLocal
  -- integers
  | iadd | isub | imul | idiv | imod | ineg
  | ladd | lsub | lmul | ldiv | i2l
  -- doubles
  | fadd | fsub | fmul | fdiv
  -- comparison and logic
  | ieq | ine | ilt | ile | igt | ige | not
  -- control flow
  | jmp | jmpIfFalse | jmpIfTrue | ret | retVoid
  -- invocation
  | invokeStatic | invokeVirtual | invokeClosure
  -- objects
  | new | getField | putField
  -- engine
  | dispatch | invokeDynamicStatic | invokeDynamicVirtual
  | getFieldSlot | putFieldSlot | getExtField | putExtField
  | makeCaptured | getCaptured | getEnclosing
  -- closures
  | makeClosure
deriving DecidableEq, Repr

/-- The forms that operands take in the byte encoding. -/
inductive OperandForm where
  | none
  /-- Immediate 32-bit integer -/
  | i32
  /-- Immediate 64-bit integer -/
  | i64
  /-- Immediate double -/
  | f64
  /-- One constant index -/
  | index
  /-- One local slot -/
  | localSlot
  /-- Relative jump offset -/
  | jump
  /-- Two 32-bit words: an owner and a member, slot or position -/
  | pair
  /-- Signature constant and argument count -/
  | dispatch
  /-- Constant index, captured value count and flags -/
  | closure
deriving DecidableEq, Repr

/-- Encoded length of operands of a form. -/
def OperandForm.length : OperandForm → Nat
  | .none => 0
  | .localSlot => 2
  | .i32 | .index | .jump => 4
  | .dispatch | .closure => 6
  | .i64 | .f64 | .pair => 8

namespace Opcode

/-- Every opcode, by rising byte. -/
def all : List Opcode :=
  [nop, pop, dup, swap, constNull, constTrue, constFalse, constI32, constF64, constStr, constI64,
   loadLocal, storeLocal, iadd, isub, imul, idiv, imod, ineg, ladd, lsub, lmul, ldiv, i2l,
   fadd, fsub, fmul, fdiv, ieq, ine, ilt, ile, igt, ige, not,
   jmp, jmpIfFalse, jmpIfTrue, ret, retVoid, invokeStatic, invokeVirtual, invokeClosure,
   new, getField, putField, dispatch, invokeDynamicStatic, invokeDynamicVirtual,
   getFieldSlot, putFieldSlot, getExtField, putExtField, makeCaptured, getCaptured, getEnclosing,
   makeClosure]

def byte : Opcode → UInt8
  | nop => 0x00 | pop => 0x01 | dup => 0x02 | swap => 0x03
  | constNull => 0x04 | constTrue => 0x05 | constFalse => 0x06 | constI32 => 0x07
  | constF64 => 0x08 | constStr => 0x09 | constI64 => 0x0A
  | loadLocal => 0x10 | storeLocal => 0x11
  | iadd => 0x20 | isub => 0x21 | imul => 0x22 | idiv => 0x23 | imod => 0x24 | ineg => 0x25
  | ladd => 0x28 | lsub => 0x29 | lmul => 0x2A | ldiv => 0x2B | i2l => 0x2C
  | fadd => 0x30 | fsub => 0x31 | fmul => 0x32 | fdiv => 0x33
  | ieq => 0x50 | ine => 0x51 | ilt => 0x52 | ile => 0x53 | igt => 0x54 | ige => 0x55
  | not => 0x58
  | jmp => 0x90 | jmpIfFalse => 0x91 | jmpIfTrue => 0x92 | ret => 0x93 | retVoid => 0x94
  | invokeStatic => 0xA0 | invokeVirtual => 0xA1 | invokeClosure => 0xA2
  | new => 0xB0 | getField => 0xB1 | putField => 0xB2
  | dispatch => 0xE0 | invokeDynamicStatic => 0xE1 | invokeDynamicVirtual => 0xE2
  | getFieldSlot => 0xE3 | putFieldSlot => 0xE4 | getExtField => 0xE5 | putExtField => 0xE6
  | makeCaptured => 0xE7 | getCaptured => 0xE8 | getEnclosing => 0xE9
  | makeClosure => 0xF0

/-- The mnemonic of an opcode. -/
def name : Opcode → String
  | nop => "NOP" | pop => "POP" | dup => "DUP" | swap => "SWAP"
  | constNull => "CONST_NULL" | constTrue => "CONST_TRUE" | constFalse => "CONST_FALSE"
  | constI32 => "CONST_I32" | constF64 => "CONST_F64" | constStr => "CONST_STR"
  | constI64 => "CONST_I64"
  | loadLocal => "LOAD_LOCAL" | storeLocal => "STORE_LOCAL"
  | iadd => "IADD" | isub => "ISUB" | imul => "IMUL" | idiv => "IDIV" | imod => "IMOD"
  | ineg => "INEG"
  | ladd => "LADD" | lsub => "LSUB" | lmul => "LMUL" | ldiv => "LDIV" | i2l => "I2L"
  | fadd => "FADD" | fsub => "FSUB" | fmul => "FMUL" | fdiv => "FDIV"
  | ieq => "IEQ" | ine => "INE" | ilt => "ILT" | ile => "ILE" | igt => "IGT" | ige => "IGE"
  | not => "NOT"
  | jmp => "JMP" | jmpIfFalse => "JMP_IF_FALSE" | jmpIfTrue => "JMP_IF_TRUE"
  | ret => "RETURN" | retVoid => "RETURN_VOID"
  | invokeStatic => "INVOKE_STATIC" | invokeVirtual => "INVOKE_VIRTUAL"
  | invokeClosure => "INVOKE_CLOSURE"
  | new => "NEW" | getField => "GET_FIELD" | putField => "PUT_FIELD"
  | dispatch => "DISPATCH" | invokeDynamicStatic => "INVOKE_DYNAMIC_STATIC"
  | invokeDynamicVirtual => "INVOKE_DYNAMIC_VIRTUAL"
  | getFieldSlot => "GET_FIELD_SLOT" | putFieldSlot => "PUT_FIELD_SLOT"
  | getExtField => "GET_EXT_FIELD" | putExtField => "PUT_EXT_FIELD"
  | makeCaptured => "MAKE_CAPTURED" | getCaptured => "GET_CAPTURED"
  | getEnclosing => "GET_ENCLOSING"
  | makeClosure => "MAKE_CLOSURE"

def form : Opcode → OperandForm
  | constI32 => .i32
  | constI64 => .i64
  | constF64 => .f64
  | constStr | invokeClosure | new => .index
  | loadLocal | storeLocal => .localSlot
  | jmp | jmpIfFalse | jmpIfTrue => .jump
  | invokeStatic | invokeVirtual | getField | putField
  | invokeDynamicStatic | invokeDynamicVirtual | getFieldSlot | putFieldSlot
  | getExtField | putExtField | getCaptured | getEnclosing => .pair
  | dispatch => .dispatch
  | makeClosure | makeCaptured => .closure
  | _ => .none

/-- Number of operand bytes after the opcode byte. -/
def operandLength : Opcode → Nat
  | constI32 | constStr => 4
  | constF64 | constI64 => 8
  | loadLocal | storeLocal => 2
  | jmp | jmpIfFalse | jmpIfTrue => 4
  | invokeClosure | new => 4
  | invokeStatic | invokeVirtual | getField | putField => 8
  | dispatch => 6
  | invokeDynamicStatic | invokeDynamicVirtual => 8
  | getFieldSlot | putFieldSlot | getExtField | putExtField => 8
  | getCaptured | getEnclosing => 8
  | makeClosure | makeCaptured => 6
  | _ => 0

/-- There are as many operand bytes as operands of the form take. -/
theorem operandLength_eq (op : Opcode) : op.operandLength = op.form.length := by
  cases op <;> rfl

/-- The opcodes of all bytes. -/
def byByte : Array (Option Opcode) :=
  ((List.range 256).map fun n => all.find? fun op => op.byte == UInt8.ofNat n).toArray

/-- The opcode of a byte, if it has one. -/
def ofByte? (b : UInt8) : Option Opcode := byByte[b.toNat]?.join

theorem ofByte?_eq (b : UInt8) : ofByte? b = all.find? fun op => op.byte == b := by
  simp [ofByte?, byByte, b.toNat_lt]

def ofName? (s : String) : Option Opcode := all.find? fun op => op.name == s

def isJump (op : Opcode) : Bool := op = jmp || op = jmpIfFalse || op = jmpIfTrue

def isInvoke : Opcode → Bool
  | invokeStatic | invokeVirtual | invokeClosure
  | dispatch | invokeDynamicStatic | invokeDynamicVirtual => true
  | _ => false

/-- Whether the opcode leaves the method. -/
def isReturn (op : Opcode) : Bool := op = ret || op = retVoid

/-- Whether control never reaches the instruction after the opcode. -/
def isTerminator (op : Opcode) : Bool := op.isReturn || op = jmp

/-- Whether only redirected code may contain the opcode. -/
def isEngineOnly (op : Opcode) : Bool := 0xE0 ≤ op.byte && op.byte ≤ 0xEF

@[simp] theorem ofByte?_byte (op : Opcode) : ofByte? op.byte = some op := by
  rw [ofByte?_eq]
  cases op <;> rfl

theorem byte_of_ofByte? {b : UInt8} {op : Opcode} (h : ofByte? b = some op) : op.byte = b := by
  rw [ofByte?_eq] at h
  have := List.find?_some h
  simpa using this

end Opcode

/-- Whether the flags of a closure creation ask to capture the enclosing instance. -/
def capturesThis (flags : UInt8) : Bool := flags &&& 1 ≠ 0

end LiveTypes
