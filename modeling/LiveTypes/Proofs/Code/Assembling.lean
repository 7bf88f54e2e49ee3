import LiveTypes.Code.Assembler
import LiveTypes.Proofs.Code.Patching
import Mathlib.Algebra.Group.Nat.Defs

/-!
# What an assembler writes is what decoding finds

Whatever an assembler is asked to append, it appends the bytes of the instruction that this stands for
(`Emission.bytes_run`), and letting a jump lead to a place changes the distance of that jump and nothing
else (`Assembler.decodeAll_bindJump`). So after any calls the code decodes to the instructions that were
appended, one for each, where the jumps that were bound lead to where that happened
(`Assembler.Orderly.exists_accounts`).
-/

namespace LiveTypes

open Instruction (decodeAll encodeAll Tiles)

lemma Opcode.form_of_isJump {op : Opcode} (h : op.isJump) : op.form = .jump := by
  cases op <;> first | rfl | cases h

/-! ### Emissions -/

/-- What an assembler can be asked to append. -/
inductive Emission where
  /-- An opcode alone -/
  | opcode (op : Opcode)
  | constI32 (v : Int32)
  | constI64 (v : Int64)
  | constF64 (v : Double)
  | constStr (index : UInt32)
  | loadLocal (slot : UInt16)
  | storeLocal (slot : UInt16)
  /-- A jump with an open offset -/
  | jump (op : Opcode)
  | ret
  | retVoid
  | invokeStatic (type signature : UInt32)
  | invokeVirtual (owner signature : UInt32)
  | invokeClosure (signature : UInt32)
  | new (type : UInt32)
  | getField (owner field : UInt32)
  | putField (owner field : UInt32)
  | makeClosure (host : UInt32) (count flags : UInt8)
  | dispatch (signature : UInt32) (argc : UInt16)
  /-- Any opcode with any operands -/
  | emit (op : Opcode) (operands : Operands)
deriving DecidableEq, Repr

namespace Emission

variable {e : Emission}

def run (a : Assembler) : Emission → Assembler
  | .opcode op => a.opcode op
  | .constI32 v => a.constI32 v
  | .constI64 v => a.constI64 v
  | .constF64 v => a.constF64 v
  | .constStr index => a.constStr index
  | .loadLocal slot => a.loadLocal slot
  | .storeLocal slot => a.storeLocal slot
  | .jump op => (a.jump op).2
  | .ret => a.ret
  | .retVoid => a.retVoid
  | .invokeStatic type signature => a.invokeStatic type signature
  | .invokeVirtual owner signature => a.invokeVirtual owner signature
  | .invokeClosure signature => a.invokeClosure signature
  | .new type => a.new type
  | .getField owner field => a.getField owner field
  | .putField owner field => a.putField owner field
  | .makeClosure host count flags => a.makeClosure host count flags
  | .dispatch signature argc => a.dispatch signature argc
  | .emit op operands => a.emit op operands

/-- The instruction that it stands for at an offset. -/
def instruction (offset : Nat) : Emission → Instruction
  | .opcode op => ⟨offset, op, .none⟩
  | .constI32 v => ⟨offset, .constI32, .i32 v⟩
  | .constI64 v => ⟨offset, .constI64, .i64 v⟩
  | .constF64 v => ⟨offset, .constF64, .f64 v⟩
  | .constStr index => ⟨offset, .constStr, .index index⟩
  | .loadLocal slot => ⟨offset, .loadLocal, .localSlot slot⟩
  | .storeLocal slot => ⟨offset, .storeLocal, .localSlot slot⟩
  | .jump op => ⟨offset, op, .jump 0⟩
  | .ret => ⟨offset, .ret, .none⟩
  | .retVoid => ⟨offset, .retVoid, .none⟩
  | .invokeStatic type signature => ⟨offset, .invokeStatic, .pair type signature⟩
  | .invokeVirtual owner signature => ⟨offset, .invokeVirtual, .pair owner signature⟩
  | .invokeClosure signature => ⟨offset, .invokeClosure, .index signature⟩
  | .new type => ⟨offset, .new, .index type⟩
  | .getField owner field => ⟨offset, .getField, .pair owner field⟩
  | .putField owner field => ⟨offset, .putField, .pair owner field⟩
  | .makeClosure host count flags => ⟨offset, .makeClosure, .closure host count flags⟩
  | .dispatch signature argc => ⟨offset, .dispatch, .dispatch signature argc⟩
  | .emit op operands => ⟨offset, op, operands⟩

/-- Whether a whole instruction is appended: an opcode alone has no operands, a jump has the opcode of
one, and free operands are those of the opcode. -/
def Whole : Emission → Prop
  | .opcode op => op.form = .none
  | .jump op => op.isJump
  | .emit op operands => operands.form = op.form
  | _ => True

@[simp] lemma offset_instruction (n : Nat) (e : Emission) : (e.instruction n).offset = n := by
  cases e <;> rfl

lemma Whole.fits (h : e.Whole) (n : Nat) : (e.instruction n).Fits := by
  cases e with
  | opcode op => exact Eq.symm h
  | jump op => exact (Opcode.form_of_isJump h).symm
  | emit op operands => exact h
  | _ => rfl

/-- The bytes of the instruction are appended. -/
lemma bytes_run (a : Assembler) (e : Emission) :
    (e.run a).bytes = a.bytes ++ (e.instruction a.offset).encode := by
  cases e <;> simp [run, instruction, Instruction.encode, Operands.encode, Assembler.constI32,
    Assembler.constI64, Assembler.constF64, Assembler.constStr, Assembler.loadLocal,
    Assembler.storeLocal, Assembler.jump, Assembler.reserve, Assembler.ret, Assembler.retVoid,
    Assembler.invokeStatic, Assembler.invokeVirtual, Assembler.invokeClosure, Assembler.new,
    Assembler.getField, Assembler.putField, Assembler.makeClosure, Assembler.dispatch, Assembler.emit,
    Assembler.withIndex, Assembler.withSlot, Assembler.withPair]

lemma offset_run (a : Assembler) (e : Emission) :
    (e.run a).offset = a.offset + (e.instruction a.offset).encode.length := by
  rw [← Assembler.length_bytes, bytes_run, List.length_append, Assembler.length_bytes]

end Emission

namespace Assembler

variable {a : Assembler} {l : List Instruction} {e : Emission} {op : Opcode}

/-- One more instruction is decoded. -/
lemma decodeAll_run (h : decodeAll a.bytes = .ok l) (he : e.Whole) :
    decodeAll (e.run a).bytes = .ok (l ++ [e.instruction a.offset]) := by
  obtain ⟨htiles, hbytes⟩ := Instruction.decodeAll_eq_ok_iff.mp h
  have hfits := he.fits a.offset
  refine Instruction.decodeAll_eq_ok_iff.mpr ⟨htiles.append ⟨?_, hfits, ?_⟩, ?_⟩
  · rw [Emission.offset_instruction, length_bytes]
  · show Instruction.next _ = _
    rw [length_bytes, Emission.offset_run, Instruction.next, Emission.offset_instruction,
      Instruction.length_encode hfits]
  · rw [Emission.bytes_run, ← hbytes, encodeAll, encodeAll, List.flatMap_append, List.flatMap_singleton]

/-! ### Binding -/

lemma offset_overwrite (a : Assembler) (n : Nat) (bytes : List UInt8) :
    (a.overwrite n bytes).offset = a.offset := by
  induction bytes generalizing a n with
  | nil => rfl
  | cons b rest ih => rw [overwrite, ih, offset, Array.size_setIfInBounds, offset]

/-- Bytes that are overwritten leave those before and after them. -/
lemma bytes_overwrite {front old bytes back : List UInt8} (h : a.bytes = front ++ (old ++ back))
    (hlength : old.length = bytes.length) :
    (a.overwrite front.length bytes).bytes = front ++ (bytes ++ back) := by
  induction bytes generalizing a front old with
  | nil =>
    obtain rfl := List.length_eq_zero_iff.mp hlength
    exact h
  | cons b rest ih =>
    obtain ⟨b', old, rfl⟩ := List.exists_cons_of_length_eq_add_one hlength
    have hset : bytes ⟨a.code.setIfInBounds front.length b⟩ = (front ++ [b]) ++ (old ++ back) := by
      rw [bytes, Array.toList_setIfInBounds, show a.code.toList = _ from h]
      simp
    have hrest := ih hset (Nat.succ.inj hlength)
    rw [List.length_append, List.length_singleton] at hrest
    rw [overwrite, hrest]
    simp

/-- The distance that is written for a jump whose offset is at a place. -/
def distance (bound place : Nat) : Int32 := Int32.ofNat bound - (Int32.ofNat place + 4)

@[simp] lemma offset_bindJump (a : Assembler) (place : Nat) :
    (a.bindJump place).offset = a.offset :=
  offset_overwrite a place _

lemma place_jump (a : Assembler) (op : Opcode) : (a.jump op).1 = a.offset + 1 :=
  offset_opcode a op

/-- The jump at an offset with another distance, and any other instruction as it is. -/
def retargeted (start : Nat) (d : Int32) (i : Instruction) : Instruction :=
  if i.offset = start then { i with operands := .jump d } else i

/-- Binding changes the distance of one jump. -/
lemma decodeAll_bindJump {start : Nat} {d : Int32} (h : decodeAll a.bytes = .ok l)
    (hi : ⟨start, op, .jump d⟩ ∈ l) :
    decodeAll (a.bindJump (start + 1)).bytes =
      .ok (l.map (retargeted start (distance a.offset (start + 1)))) := by
  obtain ⟨htiles, hbytes⟩ := Instruction.decodeAll_eq_ok_iff.mp h
  obtain ⟨l₁, l₂, rfl⟩ := List.append_of_mem hi
  obtain ⟨middle, hfront, rfl, hfits, hback⟩ := htiles.split
  generalize hd : distance a.offset (start + 1) = d'
  have hmap : (l₁ ++ ⟨start, op, .jump d⟩ :: l₂).map (retargeted start d') =
      l₁ ++ ⟨start, op, .jump d'⟩ :: l₂ := by
    have hbefore (j : Instruction) (hj : j ∈ l₁) : retargeted start d' j = j :=
      if_neg (Nat.ne_of_lt (hfront.offset_mem.2 j hj).2)
    have hafter (j : Instruction) (hj : j ∈ l₂) : retargeted start d' j = j := by
      have hnext : start < Instruction.next ⟨start, op, .jump d⟩ :=
        Nat.lt_add_of_pos_right (Instruction.length_pos _)
      exact if_neg (Nat.ne_of_gt (Nat.lt_of_lt_of_le hnext (hback.offset_mem.2 j hj).1))
    rw [List.map_append, List.map_cons, List.map_congr_left hbefore, List.map_congr_left hafter,
      List.map_id', List.map_id', retargeted, if_pos rfl]
  -- the bytes before the distance, the distance, and those after it
  have hparts (d : Int32) : encodeAll (l₁ ++ ⟨start, op, .jump d⟩ :: l₂) =
      (encodeAll l₁ ++ [op.byte]) ++ (encodeI32 d ++ encodeAll l₂) := by
    simp [encodeAll, Instruction.encode, Operands.encode]
  have hplace : (encodeAll l₁ ++ [op.byte]).length = start + 1 := by
    rw [List.length_append, hfront.length_encodeAll, List.length_singleton]
  have hwritten : (a.overwrite (start + 1) (encodeI32 d')).bytes =
      encodeAll (l₁ ++ ⟨start, op, .jump d'⟩ :: l₂) := by
    rw [← hplace, bytes_overwrite (hbytes.symm.trans (hparts d)) (by simp), ← hparts]
  rw [hmap, bindJump, ← distance, hd, hwritten]
  exact Instruction.decodeAll_encodeAll (hfront.append ⟨rfl, hfits, hback⟩)

/-! ### Calls -/

/-- A call of an assembler. -/
inductive Call where
  | emit (e : Emission)
  /-- Let the jump whose offset is at a place lead to where the code is now -/
  | bind (place : Nat)
deriving DecidableEq, Repr

/-- Whether something is appended. -/
def Call.isEmit : Call → Bool
  | .emit _ => true
  | .bind _ => false

def call (a : Assembler) : Call → Assembler
  | .emit e => e.run a
  | .bind place => a.bindJump place

def assemble (calls : List Call) : Assembler := calls.foldl call empty

/-- Whether whole instructions are appended, and only jumps are bound, which were appended before, at the
places that were given for them. -/
inductive Orderly : List Call → Prop
  | nil : Orderly []
  | emit {calls : List Call} (h : Orderly calls) (e : Emission) (whole : e.Whole) :
      Orderly (calls ++ [.emit e])
  | bind (before : List Call) (op : Opcode) (between : List Call)
      (h : Orderly (before ++ .emit (.jump op) :: between)) :
      Orderly (before ++ .emit (.jump op) :: between ++ [.bind ((assemble before).jump op).1])

variable {calls before between after : List Call}

lemma assemble_append (calls after : List Call) :
    assemble (calls ++ after) = after.foldl call (assemble calls) :=
  List.foldl_append

lemma assemble_concat (calls : List Call) (c : Call) :
    assemble (calls ++ [c]) = (assemble calls).call c := by
  rw [assemble_append, List.foldl_cons, List.foldl_nil]

lemma offset_le_foldl (a : Assembler) (after : List Call) : a.offset ≤ (after.foldl call a).offset := by
  induction after generalizing a with
  | nil => exact Nat.le_refl _
  | cons c after ih =>
    refine Nat.le_trans ?_ (ih (a.call c))
    cases c with
    | emit e => exact Nat.le_trans (Nat.le_add_right _ _) (Nat.le_of_eq (e.offset_run a).symm)
    | bind place => exact Nat.le_of_eq (a.offset_bindJump place).symm

lemma offset_le_append (calls after : List Call) :
    (assemble calls).offset ≤ (assemble (calls ++ after)).offset := by
  rw [assemble_append]
  exact offset_le_foldl _ after

/-- An instruction that is appended lies before what is appended later. -/
lemma encode_le_append (before : List Call) (e : Emission) (after : List Call) :
    (assemble before).offset + (e.instruction (assemble before).offset).encode.length ≤
      (assemble (before ++ .emit e :: after)).offset := by
  rw [assemble_append, List.foldl_cons, call, ← Emission.offset_run]
  exact offset_le_foldl _ after

/-- What is appended after something else does not begin at the same offset. -/
lemma emit_eq_of_cons_eq {rest after' : List Call} {e' : Emission}
    (h : .emit e :: after = rest ++ .emit e' :: after')
    (hoffset : (assemble before).offset = (assemble (before ++ rest)).offset) : e = e' := by
  cases rest with
  | nil =>
    rw [List.nil_append, List.cons.injEq, Call.emit.injEq] at h
    exact h.1
  | cons c rest =>
    obtain ⟨rfl, -⟩ := List.cons.inj h
    have hle := encode_le_append before e rest
    have hpositive : 0 < (e.instruction (assemble before).offset).encode.length := Nat.succ_pos _
    omega

/-- No two instructions are appended at one offset. -/
lemma emit_eq_of_offset_eq {before' after' : List Call} {e' : Emission}
    (h : before ++ .emit e :: after = before' ++ .emit e' :: after')
    (hoffset : (assemble before).offset = (assemble before').offset) : e = e' := by
  rcases List.append_eq_append_iff.mp h with ⟨rest, rfl, hrest⟩ | ⟨rest, rfl, hrest⟩
  · exact emit_eq_of_cons_eq hrest hoffset
  · exact (emit_eq_of_cons_eq hrest hoffset.symm).symm

lemma Orderly.whole (h : Orderly calls) : ∀ e, .emit e ∈ calls → e.Whole := by
  induction h with
  | nil => simp
  | emit _ e₀ whole ih =>
    intro e he
    rcases List.mem_append.mp he with he | he
    · exact ih e he
    · obtain rfl := Call.emit.inj (List.mem_singleton.mp he)
      exact whole
  | bind before op between _ ih =>
    intro e he
    rcases List.mem_append.mp he with he | he
    · exact ih e he
    · cases List.mem_singleton.mp he

/-! ### Accounting for the code -/

/-- Whether instructions are what calls appended: one for each emission, which stands at the offset where
it was appended as it was appended, or leads to where it was bound last. -/
structure Accounts (calls : List Call) (l : List Instruction) : Prop where
  count : l.length = calls.countP Call.isEmit
  unbound : ∀ before e after, calls = before ++ .emit e :: after →
    (∀ op, e = .jump op → .bind ((assemble before).jump op).1 ∉ after) →
    e.instruction (assemble before).offset ∈ l
  bound : ∀ before op between after,
    calls = before ++ .emit (.jump op) :: between ++ .bind ((assemble before).jump op).1 :: after →
    .bind ((assemble before).jump op).1 ∉ after →
    ⟨(assemble before).offset, op, .jump (distance
      (assemble (before ++ .emit (.jump op) :: between)).offset ((assemble before).jump op).1)⟩ ∈ l

/-- Where a list with one more element is parted. -/
lemma concat_eq_append_cons {c c' : Call} :
    calls ++ [c] = before ++ c' :: after ↔
      (calls = before ∧ c = c' ∧ after = []) ∨
        ∃ after', after = after' ++ [c] ∧ calls = before ++ c' :: after' := by
  constructor
  · intro h
    rcases List.eq_nil_or_concat' after with rfl | ⟨after', c'', rfl⟩
    · obtain ⟨hcalls, hc⟩ := List.append_singleton_inj.mp h
      exact .inl ⟨hcalls, hc, rfl⟩
    · rw [← List.cons_append, ← List.append_assoc] at h
      obtain ⟨hcalls, rfl⟩ := List.append_singleton_inj.mp h
      exact .inr ⟨after', rfl, hcalls⟩
  · rintro (⟨rfl, rfl, rfl⟩ | ⟨after', rfl, rfl⟩)
    · rfl
    · simp

/-- A jump stands where it was appended, bound or not. -/
lemma Accounts.exists_jump (h : Accounts (before ++ .emit (.jump op) :: after) l) :
    ∃ d, ⟨(assemble before).offset, op, .jump d⟩ ∈ l := by
  by_cases hbound : .bind ((assemble before).jump op).1 ∈ after
  · obtain ⟨after', between, hreverse, hlast⟩ :=
      List.eq_append_cons_of_mem (List.mem_reverse.mpr hbound)
    have hafter := congrArg List.reverse hreverse
    rw [List.reverse_reverse, List.reverse_append, List.reverse_cons, List.append_assoc] at hafter
    refine ⟨_, h.bound before op between.reverse after'.reverse ?_ ?_⟩
    · simp [hafter]
    · simpa using hlast
  · refine ⟨0, h.unbound before (.jump op) after rfl fun op' hop => ?_⟩
    cases hop
    exact hbound

lemma accounts_nil : Accounts [] [] where
  count := rfl
  unbound := by simp
  bound := by simp

/-- One more emission is accounted for by its instruction. -/
lemma Accounts.emit (h : Accounts calls l) (e : Emission) :
    Accounts (calls ++ [.emit e]) (l ++ [e.instruction (assemble calls).offset]) where
  count := by simp [h.count, Call.isEmit]
  unbound := by
    intro before e' after hcalls hunbound
    rcases concat_eq_append_cons.mp hcalls with ⟨rfl, he, -⟩ | ⟨after', rfl, rfl⟩
    · obtain rfl := Call.emit.inj he
      exact List.mem_append_right _ (List.mem_singleton.mpr rfl)
    · exact List.mem_append_left _ (h.unbound before e' after' rfl fun op hop hmem =>
        hunbound op hop (List.mem_append_left _ hmem))
  bound := by
    intro before op between after hcalls hlast
    rcases concat_eq_append_cons.mp hcalls with ⟨-, hc, -⟩ | ⟨after', rfl, rfl⟩
    · cases hc
    · exact List.mem_append_left _ (h.bound before op between after' rfl fun hmem =>
        hlast (List.mem_append_left _ hmem))

lemma mem_map_retargeted {start : Nat} {d : Int32} {i : Instruction} (hi : i ∈ l)
    (hoffset : i.offset ≠ start) : i ∈ l.map (retargeted start d) :=
  List.mem_map.mpr ⟨i, hi, if_neg hoffset⟩

/-- Binding a jump again or for the first time is accounted for by its new distance. -/
lemma Accounts.bind (h : Accounts (before ++ .emit (.jump op) :: between) l) :
    Accounts (before ++ .emit (.jump op) :: between ++ [.bind ((assemble before).jump op).1])
      (l.map (retargeted (assemble before).offset (distance
        (assemble (before ++ .emit (.jump op) :: between)).offset ((assemble before).offset + 1)))) where
  count := by simp [h.count, List.countP_cons, Call.isEmit]
  unbound := by
    intro before' e after hcalls hunbound
    rcases concat_eq_append_cons.mp hcalls with ⟨-, hc, -⟩ | ⟨after', rfl, hcalls'⟩
    · cases hc
    · refine mem_map_retargeted (h.unbound before' e after' hcalls' fun op hop hmem =>
        hunbound op hop (List.mem_append_left _ hmem)) fun hoffset => ?_
      -- the emission at this offset is the jump that is bound
      rw [Emission.offset_instruction] at hoffset
      have he := emit_eq_of_offset_eq hcalls' hoffset.symm
      refine hunbound op he.symm (List.mem_append_right _ (List.mem_singleton.mpr ?_))
      rw [place_jump, place_jump, hoffset]
  bound := by
    intro before' op' between' after hcalls hlast
    rcases concat_eq_append_cons.mp hcalls with ⟨hcalls', hc, -⟩ | ⟨after', rfl, hcalls'⟩
    · have hoffset : (assemble before).offset = (assemble before').offset := by
        have hplace := Call.bind.inj hc
        rw [place_jump, place_jump] at hplace
        exact Nat.succ.inj hplace
      rw [hcalls', hoffset, place_jump]
      rw [hcalls'] at h
      obtain ⟨d, hd⟩ := h.exists_jump
      exact List.mem_map.mpr ⟨_, hd, if_pos rfl⟩
    · refine mem_map_retargeted (h.bound before' op' between' after' hcalls' fun hmem =>
        hlast (List.mem_append_left _ hmem)) fun hoffset => ?_
      refine hlast (List.mem_append_right _ (List.mem_singleton.mpr ?_))
      rw [place_jump, place_jump]
      exact congrArg (fun n => Call.bind (n + 1)) hoffset

/-- The code decodes to instructions that account for the calls. -/
theorem Orderly.exists_accounts (h : Orderly calls) :
    ∃ l, decodeAll (assemble calls).bytes = .ok l ∧ Accounts calls l := by
  induction h with
  | nil => exact ⟨[], rfl, accounts_nil⟩
  | emit _ e whole ih =>
    obtain ⟨l, hdecode, haccounts⟩ := ih
    rw [assemble_concat]
    exact ⟨_, decodeAll_run hdecode whole, haccounts.emit e⟩
  | bind before op between _ ih =>
    obtain ⟨l, hdecode, haccounts⟩ := ih
    obtain ⟨d, hd⟩ := haccounts.exists_jump
    rw [assemble_concat]
    refine ⟨_, ?_, haccounts.bind⟩
    rw [call, place_jump]
    exact decodeAll_bindJump hdecode hd

/-- A distance within signed words leads to where the jump was bound. -/
lemma jumpTarget?_distance {start bound : Nat} (hjump : op.isJump) (hle : start + 5 ≤ bound)
    (hlt : bound < 2 ^ 31) :
    Instruction.jumpTarget? ⟨start, op, .jump (distance bound (start + 1))⟩ = some (bound : Int) := by
  have hnext : Instruction.next ⟨start, op, .jump (distance bound (start + 1))⟩ = start + 5 := by
    rw [Instruction.next, Instruction.length, Opcode.operandLength_eq, Opcode.form_of_isJump hjump]
    rfl
  have hdistance : (distance bound (start + 1)).toInt = bound - (start + 5) := by
    have hplace : Int32.ofNat (start + 1) + 4 = Int32.ofNat (start + 5) :=
      (Int32.ofNat_add (start + 1) 4).symm
    rw [distance, hplace, Int32.toInt_sub, Int32.toInt_ofNat_of_lt hlt,
      Int32.toInt_ofNat_of_lt (by omega), Int.bmod_eq_of_le (by omega) (by omega)]
    omega
  rw [Instruction.jumpTarget?_eq_some_of_fits _ _ rfl (by omega), hnext, hdistance]
  congr 1
  omega

/-- Byte strings decode to the instructions that tile them, and those encode to the byte strings again;
instructions that tile a stretch are decoded from their bytes. Whatever is appended are the bytes of the
instruction that it stands for. After calls, code of less than 2 GiB decodes to one instruction for each
emission: as it was appended, unless it is a jump that was bound, which leads to where the code was when
that happened last. -/
theorem instruction_codec :
    (∀ code l, decodeAll code = .ok l → Tiles 0 l code.length ∧ encodeAll l = code) ∧
    (∀ l stop, Tiles 0 l stop → decodeAll (encodeAll l) = .ok l) ∧
    (∀ a e, (Emission.run a e).bytes = a.bytes ++ (e.instruction a.offset).encode) ∧
    ∀ calls, Orderly calls → (assemble calls).offset < 2 ^ 31 →
      ∃ l, decodeAll (assemble calls).bytes = .ok l ∧ l.length = calls.countP Call.isEmit ∧
        (∀ before e after, calls = before ++ .emit e :: after →
          (∀ op, e = .jump op → .bind ((assemble before).jump op).1 ∉ after) →
          e.instruction (assemble before).offset ∈ l) ∧
        ∀ before op between after,
          calls = before ++ .emit (.jump op) :: between ++
            .bind ((assemble before).jump op).1 :: after →
          .bind ((assemble before).jump op).1 ∉ after →
          ∃ i ∈ l, i.offset = (assemble before).offset ∧ i.opcode = op ∧
            i.jumpTarget? = some ((assemble (before ++ .emit (.jump op) :: between)).offset : Int) := by
  refine ⟨fun code l h => Instruction.decodeAll_eq_ok_iff.mp h,
    fun l stop h => Instruction.decodeAll_encodeAll h, Emission.bytes_run, fun calls horderly hlt => ?_⟩
  obtain ⟨l, hdecode, haccounts⟩ := horderly.exists_accounts
  refine ⟨l, hdecode, haccounts.count, haccounts.unbound, ?_⟩
  rintro before op between after rfl hlast
  have hjump : op.isJump := horderly.whole (.jump op) (by simp)
  have hmem := haccounts.bound before op between after rfl hlast
  rw [place_jump] at hmem
  refine ⟨_, hmem, rfl, rfl, jumpTarget?_distance hjump ?_ ?_⟩
  · have hle := encode_le_append before (.jump op) between
    exact hle
  · exact Nat.lt_of_le_of_lt (offset_le_append _ _) hlt

/-- Two jumps that cross: the first leads past the second, which leads to the end. -/
def crossing : List Call :=
  [.emit (.opcode .constTrue), .emit (.jump .jmpIfFalse), .emit (.constI32 (-23)), .emit (.jump .jmp),
    .bind 2, .emit (.opcode .nop), .bind 12, .emit .retVoid]

theorem orderly_crossing : Orderly crossing := by
  have hfirst := Orderly.nil.emit (.opcode .constTrue) rfl
  have hjump := hfirst.emit (.jump .jmpIfFalse) rfl
  have hother := (hjump.emit (.constI32 (-23)) trivial).emit (.jump .jmp) rfl
  have hbound := Orderly.bind [.emit (.opcode .constTrue)] .jmpIfFalse
    [.emit (.constI32 (-23)), .emit (.jump .jmp)] hother
  have hboth := Orderly.bind [.emit (.opcode .constTrue), .emit (.jump .jmpIfFalse),
    .emit (.constI32 (-23))] .jmp [.bind 2, .emit (.opcode .nop)] (hbound.emit (.opcode .nop) rfl)
  exact hboth.emit .retVoid trivial

/-- Both jumps of the crossing, what stands between them and the tiling. -/
theorem instruction_codec_crossing :
    Orderly crossing ∧ (assemble crossing).offset < 2 ^ 31 ∧
      ∃ l, decodeAll (assemble crossing).bytes = .ok l ∧ l.length = 6 ∧
        (∃ i ∈ l, i.offset = 1 ∧ i.opcode = .jmpIfFalse ∧ i.jumpTarget? = some 16) ∧
        (∃ i ∈ l, i.offset = 11 ∧ i.opcode = .jmp ∧ i.jumpTarget? = some 17) ∧
        ⟨6, .constI32, .i32 (-23)⟩ ∈ l ∧ Tiles 0 l 18 ∧ encodeAll l = (assemble crossing).bytes ∧
        decodeAll (encodeAll l) = .ok l := by
  obtain ⟨htiles, hencode, -, hcalls⟩ := instruction_codec
  have hlt : (assemble crossing).offset < 2 ^ 31 := by decide
  obtain ⟨l, hdecode, hcount, hunbound, hbound⟩ := hcalls crossing orderly_crossing hlt
  obtain ⟨htiled, hencoded⟩ := htiles _ _ hdecode
  have hfirst := hbound [.emit (.opcode .constTrue)] .jmpIfFalse
    [.emit (.constI32 (-23)), .emit (.jump .jmp)] [.emit (.opcode .nop), .bind 12, .emit .retVoid]
    (by decide) (by decide)
  have hsecond := hbound
    [.emit (.opcode .constTrue), .emit (.jump .jmpIfFalse), .emit (.constI32 (-23))] .jmp
    [.bind 2, .emit (.opcode .nop)] [.emit .retVoid] (by decide) (by decide)
  have hbetween := hunbound [.emit (.opcode .constTrue), .emit (.jump .jmpIfFalse)] (.constI32 (-23))
    [.emit (.jump .jmp), .bind 2, .emit (.opcode .nop), .bind 12, .emit .retVoid] (by decide) (by simp)
  exact ⟨orderly_crossing, hlt, l, hdecode, hcount, hfirst, hsecond, hbetween, htiled, hencoded,
    hencode l _ htiled⟩

end Assembler

end LiveTypes
