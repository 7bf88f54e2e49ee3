import LiveTypes.Proofs.Outcome
import LiveTypes.TypeUnit.Verify

/-!
# Verified units

What a unit that passes verification is known to be: its members have distinct names, and each body
is tiled by instructions that jump to each other, use constants and locals that exist, and end in
one after which control does not go on. Units from the engine need no more than that to pass
(`TypeUnit.Verified.verify_engine`).
-/

namespace LiveTypes

/-- Whether a pool has what an instruction needs of a constant. -/
def ConstantUse.Resolves (constants : ConstantPool) : ConstantUse → Prop
  | .string index => ∃ s, constants.string? index = some s
  | .signature index =>
    ∃ key signature, constants.string? index = some key ∧ Signature.parseKey key = .ok signature

/-- An instruction that fits into a body of the given size, made of the given instructions. -/
structure Instruction.Verified (constants : ConstantPool) (locals : UInt16) (size : Nat)
    (body : List Instruction) (i : Instruction) : Prop where
  jump : ∀ target, i.jumpTarget? = some target →
    0 ≤ target ∧ target.toNat < size ∧ ∃ i' ∈ body, i'.offset = target.toNat
  slot : ∀ index, i.operands = .localSlot index → index < locals
  uses : ∀ use ∈ i.constantUses, use.Resolves constants

/-- A method with a verified body. -/
structure MethodDecl.Verified (constants : ConstantPool) (m : MethodDecl)
    (body : List Instruction) : Prop where
  arguments_le : m.argSlots ≤ m.locals.toNat
  decoded : Instruction.decodeAll m.code = .ok body
  terminated : ∃ last, body.getLast? = some last ∧ last.opcode.isTerminator = true
  each : ∀ i ∈ body, i.Verified constants m.locals m.code.length body

def VerifyMode.Allows (mode : VerifyMode) (op : Opcode) : Prop :=
  mode = .source → op.isEngineOnly = false

namespace Verify

variable {mode : VerifyMode} {constants : ConstantPool}

lemma checkConstant_eq_ok {method : String} {offset : Nat} {use : ConstantUse} :
    checkConstant constants method offset use = .ok () ↔ use.Resolves constants := by
  cases use with
  | string index =>
    simp only [checkConstant, ConstantUse.Resolves]
    split
    · next s hs => simp [hs]
    · next hnone => simp [hnone]
  | signature index =>
    simp only [checkConstant, ConstantUse.Resolves]
    split
    · next hnone => simp [hnone]
    · next key hkey =>
      split
      · next signature hsignature => simp [hkey, hsignature]
      · next e herror => simp [hkey, herror]

/-- What is checked of the operands of an instruction. -/
lemma slot_and_uses_eq_ok {method : String} {locals : UInt16} {i : Instruction} :
    (match i.operands with
      | .localSlot index =>
        if locals ≤ index then do
          throw (VerifyError.invalidLocal method index locals i.offset)
          i.constantUses.forM (checkConstant constants method i.offset)
        else i.constantUses.forM (checkConstant constants method i.offset)
      | _ => i.constantUses.forM (checkConstant constants method i.offset)) = .ok () ↔
    (∀ index, i.operands = .localSlot index → index < locals) ∧
      ∀ use ∈ i.constantUses, use.Resolves constants := by
  have huses : i.constantUses.forM (checkConstant constants method i.offset) = .ok () ↔
      ∀ use ∈ i.constantUses, use.Resolves constants := by
    simp only [Outcome.forM_eq_ok, checkConstant_eq_ok]
  split
  · next index hindex =>
    simp only [Outcome.guard_eq_ok, huses, hindex, UInt16.not_le, Operands.localSlot.injEq,
      forall_eq']
  · next hother =>
    rw [huses]
    exact ⟨fun h => ⟨fun index hindex => (hother index hindex).elim, h⟩, And.right⟩

lemma checkInstruction_eq_ok {method : String} {locals : UInt16} {size : Nat}
    {body : List Instruction} {i : Instruction} :
    checkInstruction mode constants method locals (boundaries size body) i = .ok () ↔
      mode.Allows i.opcode ∧ i.Verified constants locals size body := by
  have hverified : i.Verified constants locals size body ↔
      (∀ target, i.jumpTarget? = some target →
        0 ≤ target ∧ target.toNat < size ∧ ∃ i' ∈ body, i'.offset = target.toNat) ∧
      (∀ index, i.operands = .localSlot index → index < locals) ∧
      ∀ use ∈ i.constantUses, use.Resolves constants :=
    ⟨fun h => ⟨h.jump, h.slot, h.uses⟩, fun h => ⟨h.1, h.2.1, h.2.2⟩⟩
  simp only [checkInstruction, Outcome.guard_eq_ok, hverified]
  refine and_congr (by simp [VerifyMode.Allows]) ?_
  have hoperands := @slot_and_uses_eq_ok constants method locals i
  split
  · next target htarget =>
    rw [Outcome.guard_eq_ok]
    refine and_congr ?_ hoperands
    simp only [htarget, not_or, Int.not_lt, ne_eq, not_not, getElem?_boundaries, Option.some.injEq,
      forall_eq']
  · next hnone =>
    refine Iff.trans hoperands ⟨fun h => ⟨fun target htarget => ?_, h⟩, And.right⟩
    exact (hnone target htarget).elim

lemma checkMethod_eq_ok {m : MethodDecl} :
    checkMethod mode constants m = .ok () ↔
      ∃ body, m.Verified constants body ∧ ∀ i ∈ body, mode.Allows i.opcode := by
  constructor
  · intro h
    simp only [checkMethod, Outcome.guard_eq_ok, Nat.not_lt] at h
    obtain ⟨harguments, h⟩ := h
    split at h
    · simp at h
    · next body hdecode =>
      split at h
      · simp at h
      · next last hlast =>
        simp only [Outcome.bind_eq_ok, Outcome.ite_throw_eq_ok, Bool.not_eq_true',
          Bool.not_eq_false] at h
        obtain ⟨_, heach, hterminated, -⟩ := h
        have heach (i : Instruction) (hi : i ∈ body) :=
          checkInstruction_eq_ok.mp (Outcome.forM_eq_ok.mp heach i hi)
        exact ⟨body, ⟨harguments, hdecode, ⟨last, hlast, hterminated⟩, fun i hi => (heach i hi).2⟩,
          fun i hi => (heach i hi).1⟩
  · rintro ⟨body, h, hallowed⟩
    obtain ⟨last, hlast, hterminated⟩ := h.terminated
    have heach : body.forM (checkInstruction mode constants m.key m.locals
        (boundaries m.code.length body)) = .ok () :=
      Outcome.forM_eq_ok.mpr fun i hi => checkInstruction_eq_ok.mpr ⟨hallowed i hi, h.each i hi⟩
    simp only [checkMethod, h.decoded, hlast, hterminated, Outcome.guard_eq_ok, Nat.not_lt]
    exact ⟨h.arguments_le, Outcome.bind_eq_ok.mpr ⟨(), heach, rfl⟩⟩

lemma checkFields_eq_ok {seen : List String} {fields : List FieldDecl} :
    checkFields seen fields = .ok () ↔
      (fields.map FieldDecl.name).Nodup ∧ ∀ f ∈ fields, f.name ∉ seen := by
  induction fields generalizing seen with
  | nil => simp [checkFields]
  | cons f rest ih =>
    rw [checkFields, List.map_cons, List.nodup_cons, List.forall_mem_cons]
    by_cases hseen : f.name ∈ seen
    · simp [hseen]
    · simp only [hseen, ↓reduceIte, ih, List.mem_cons, not_or, List.mem_map, not_exists, not_and,
        not_false_eq_true, true_and]
      grind

lemma checkMethods_eq_ok {seen : List String} {methods : List MethodDecl} :
    checkMethods mode constants seen methods = .ok () ↔
      ((methods.map MethodDecl.key).Nodup ∧ ∀ m ∈ methods, m.key ∉ seen) ∧
        ∀ m ∈ methods, ∃ body, m.Verified constants body ∧ ∀ i ∈ body, mode.Allows i.opcode := by
  induction methods generalizing seen with
  | nil => simp [checkMethods]
  | cons m rest ih =>
    rw [checkMethods, List.map_cons, List.nodup_cons, List.forall_mem_cons, List.forall_mem_cons]
    by_cases hseen : m.key ∈ seen
    · simp [hseen]
    · simp only [hseen, ↓reduceIte, Outcome.bind_eq_ok, Outcome.exists_unit, checkMethod_eq_ok, ih,
        List.mem_cons, not_or, List.mem_map, not_exists, not_and, not_false_eq_true, true_and]
      grind

end Verify

/-- A unit with distinct members and verified bodies. -/
structure TypeUnit.Verified (u : TypeUnit) : Prop where
  fields_nodup : (u.fields.map FieldDecl.name).Nodup
  methods_nodup : (u.methods.map MethodDecl.key).Nodup
  bodies : ∀ m ∈ u.methods, ∃ body, m.Verified u.constants body

/-- A unit passes verification when its members are distinct and each of its bodies is verified and
has no opcode that it may not contain. -/
theorem TypeUnit.verify_eq_ok {u : TypeUnit} {mode : VerifyMode} :
    u.verify mode = .ok () ↔
      (u.fields.map FieldDecl.name).Nodup ∧ (u.methods.map MethodDecl.key).Nodup ∧
        ∀ m ∈ u.methods, ∃ body, m.Verified u.constants body ∧
          ∀ i ∈ body, mode.Allows i.opcode := by
  rw [verify, Outcome.bind_eq_ok, Outcome.exists_unit, Verify.checkFields_eq_ok,
    Verify.checkMethods_eq_ok]
  simp

/-- A unit that passes verification is verified. -/
theorem TypeUnit.verified_of_verify {u : TypeUnit} {mode : VerifyMode}
    (h : u.verify mode = .ok ()) : u.Verified := by
  obtain ⟨hfields, hmethods, hbodies⟩ := verify_eq_ok.mp h
  refine ⟨hfields, hmethods, fun m hm => ?_⟩
  obtain ⟨body, hbody, -⟩ := hbodies m hm
  exact ⟨body, hbody⟩

/-- A verified unit passes verification as one from the engine. -/
theorem TypeUnit.Verified.verify_engine {u : TypeUnit} (h : u.Verified) :
    u.verify .engine = .ok () := by
  refine verify_eq_ok.mpr ⟨h.fields_nodup, h.methods_nodup, fun m hm => ?_⟩
  obtain ⟨body, hbody⟩ := h.bodies m hm
  exact ⟨body, hbody, fun _ _ hmode => nomatch hmode⟩

end LiveTypes
