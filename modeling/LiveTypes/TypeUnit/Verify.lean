import LiveTypes.Code.Instruction
import LiveTypes.TypeUnit.Basic

/-!
# Verification

A verified unit has distinct members, and each of its bodies decodes, jumps only to instructions,
uses only constants and locals that exist, and never runs past its end. Units from a compiler may
not contain engine opcodes; units from the engine may.
-/

namespace LiveTypes

/-- Which opcodes a unit may contain. -/
inductive VerifyMode where
  /-- Made by a compiler: no engine opcodes -/
  | source
  /-- Made by the engine: all opcodes -/
  | engine
deriving DecidableEq, Repr

/-- Why a unit is not verified. Failures in a body name the method by its key. -/
inductive VerifyError where
  | decode (method : String) (cause : DecodeError)
  | emptyBody (method : String)
  | engineOpcode (method : String) (op : Opcode) (offset : Nat)
  | invalidJumpTarget (method : String) (target : Int) (offset : Nat)
  | invalidConstant (method : String) (index : UInt32) (offset : Nat)
  | invalidSignature (method : String) (key : String) (offset : Nat)
  | invalidLocal (method : String) (index locals : UInt16) (offset : Nat)
  | insufficientLocals (method : String) (locals : UInt16) (needed : Nat)
  | fallsOffEnd (method : String) (offset : Nat)
  | duplicateMethod (key : String)
  | duplicateField (name : String)
deriving DecidableEq, Repr

def VerifyError.code : VerifyError → String
  | .decode _ _ => "Decode"
  | .emptyBody _ => "EmptyBody"
  | .engineOpcode _ _ _ => "EngineOpcode"
  | .invalidJumpTarget _ _ _ => "InvalidJumpTarget"
  | .invalidConstant _ _ _ => "InvalidConstantRef"
  | .invalidSignature _ _ _ => "InvalidSignature"
  | .invalidLocal _ _ _ _ => "InvalidLocalRef"
  | .insufficientLocals _ _ _ => "InsufficientLocals"
  | .fallsOffEnd _ _ => "FallOffEnd"
  | .duplicateMethod _ => "DuplicateMethod"
  | .duplicateField _ => "DuplicateField"

open Text in
def VerifyError.message : VerifyError → String
  | .decode m e => s!"{m}: decode error: {e.message}"
  | .emptyBody m => s!"{m}: empty body"
  | .engineOpcode m op offset => s!"{m}: engine opcode {op.name} at offset {offset}"
  | .invalidJumpTarget m target offset =>
    s!"{m}: invalid jump target {target} at offset {offset}"
  | .invalidConstant m index offset =>
    s!"{m}: invalid constant pool reference {index} at offset {offset}"
  | .invalidSignature m key offset =>
    s!"{m}: {quoted key} is not a signature key (offset {offset})"
  | .invalidLocal m index locals offset =>
    s!"{m}: local {index} out of range (max {locals}) at offset {offset}"
  | .insufficientLocals m locals needed =>
    s!"{m}: {locals} locals cannot hold {needed} argument slots"
  | .fallsOffEnd m offset => s!"{m}: execution falls off end at offset {offset}"
  | .duplicateMethod key => s!"Duplicate method {key}"
  | .duplicateField name => s!"Duplicate field {name}"

/-- What an instruction needs of a constant that it refers to. -/
inductive ConstantUse where
  /-- Any string -/
  | string (index : UInt32)
  /-- A signature key -/
  | signature (index : UInt32)
deriving DecidableEq, Repr

/-- The constants that an instruction refers to, in the order in which they are checked. -/
def Instruction.constantUses (i : Instruction) : List ConstantUse :=
  match i.opcode, i.operands with
  | .constStr, .index a | .new, .index a => [.string a]
  | .invokeClosure, .index a => [.signature a]
  | .invokeStatic, .pair a b | .invokeVirtual, .pair a b
  | .invokeDynamicStatic, .pair a b | .invokeDynamicVirtual, .pair a b =>
    [.string a, .signature b]
  | .getField, .pair a b | .putField, .pair a b
  | .getExtField, .pair a b | .putExtField, .pair a b | .getEnclosing, .pair a b =>
    [.string a, .string b]
  | .getFieldSlot, .pair a _ | .putFieldSlot, .pair a _ | .getCaptured, .pair a _ => [.string a]
  | .dispatch, .dispatch a _ => [.signature a]
  | .makeClosure, .closure a _ _ | .makeCaptured, .closure a _ _ => [.string a]
  | _, _ => []

namespace Verify

def checkConstant (constants : ConstantPool) (method : String) (offset : Nat) :
    ConstantUse → Except VerifyError Unit
  | .string index =>
    match constants.string? index with
    | some _ => .ok ()
    | none => .error (.invalidConstant method index offset)
  | .signature index =>
    match constants.string? index with
    | none => .error (.invalidConstant method index offset)
    | some key =>
      match Signature.parseKey key with
      | .ok _ => .ok ()
      | .error _ => .error (.invalidSignature method key offset)

/-- Marks at the offsets where instructions start, in a body of the given size. -/
def boundaries (size : Nat) (l : List Instruction) : Array Bool :=
  l.foldl (fun marks i => marks.setIfInBounds i.offset true) (Array.replicate size false)

theorem getElem?_foldl_mark (l : List Instruction) (marks : Array Bool) (n : Nat) :
    (l.foldl (fun marks i => marks.setIfInBounds i.offset true) marks)[n]? = some true ↔
      marks[n]? = some true ∨ n < marks.size ∧ ∃ i ∈ l, i.offset = n := by
  induction l generalizing marks with
  | nil => simp
  | cons first rest ih =>
    rw [List.foldl_cons, ih]
    by_cases h : first.offset = n <;>
      by_cases hn : n < marks.size <;> simp [h, hn]

/-- The marks are at the offsets of the instructions. -/
theorem getElem?_boundaries (size : Nat) (l : List Instruction) (n : Nat) :
    (boundaries size l)[n]? = some true ↔ n < size ∧ ∃ i ∈ l, i.offset = n := by
  simp [boundaries, getElem?_foldl_mark, Array.getElem?_replicate]

/-- Check one instruction of a method whose instructions start at the marked offsets. -/
def checkInstruction (mode : VerifyMode) (constants : ConstantPool) (method : String)
    (locals : UInt16) (boundaries : Array Bool) (i : Instruction) : Except VerifyError Unit := do
  if mode = .source ∧ i.opcode.isEngineOnly then
    throw (.engineOpcode method i.opcode i.offset)
  if let some target := i.jumpTarget? then
    if target < 0 ∨ boundaries[target.toNat]? ≠ some true then
      throw (.invalidJumpTarget method target i.offset)
  if let .localSlot index := i.operands then
    if locals ≤ index then throw (.invalidLocal method index locals i.offset)
  i.constantUses.forM (checkConstant constants method i.offset)

def checkMethod (mode : VerifyMode) (constants : ConstantPool) (m : MethodDecl) :
    Except VerifyError Unit := do
  if m.locals.toNat < m.argSlots then
    throw (.insufficientLocals m.key m.locals m.argSlots)
  match Instruction.decodeAll m.code with
  | .error e => throw (.decode m.key e)
  | .ok instructions =>
    match instructions.getLast? with
    | none => throw (.emptyBody m.key)
    | some last =>
      let boundaries := boundaries m.code.length instructions
      instructions.forM (checkInstruction mode constants m.key m.locals boundaries)
      if !last.opcode.isTerminator then throw (.fallsOffEnd m.key last.offset)

/-- Check that no field name occurs twice; `seen` are the names before. -/
def checkFields (seen : List String) : List FieldDecl → Except VerifyError Unit
  | [] => .ok ()
  | f :: rest =>
    if f.name ∈ seen then .error (.duplicateField f.name)
    else checkFields (f.name :: seen) rest

/-- Check methods one after the other, each for its key first; `seen` are the keys before. -/
def checkMethods (mode : VerifyMode) (constants : ConstantPool) (seen : List String) :
    List MethodDecl → Except VerifyError Unit
  | [] => .ok ()
  | m :: rest =>
    if m.key ∈ seen then .error (.duplicateMethod m.key)
    else do
      checkMethod mode constants m
      checkMethods mode constants (m.key :: seen) rest

end Verify

def TypeUnit.verify (u : TypeUnit) (mode : VerifyMode) : Except VerifyError Unit := do
  Verify.checkFields [] u.fields
  Verify.checkMethods mode u.constants [] u.methods

end LiveTypes
