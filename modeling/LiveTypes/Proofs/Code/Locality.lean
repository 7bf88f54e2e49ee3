import LiveTypes.Proofs.Code.Patching
import Mathlib.Data.List.Nodup

/-!
# Replacing an instruction is local

A replacement happens just when it has the offset and the length of the instruction that it is for. It
then changes the bytes of that instruction only, and the code decodes to the same list with one entry
replaced (`Instruction.decodeAll_patch`). So the instructions that were decoded before a sequence of
replacements stay as they are until their turn comes (`Instruction.decodeAll_patchEach`), and the order
of the sequence does not matter (`Instruction.replacing_local`).
-/

namespace LiveTypes

namespace Instruction

variable {code code' : List UInt8} {l l' : List Instruction} {before after : Instruction}

/-- Ask for a replacement in place: whether it happened, and the code after it. -/
def patchInPlace (code : List UInt8) (before after : Instruction) : Bool × List UInt8 :=
  match patch code before after with
  | some code' => (true, code')
  | none => (false, code)

/-- The code after asking for replacements of instructions of a list one after the other. -/
def patchEach (l : List Instruction) (code : List UInt8) (ps : List (Fin l.length × Instruction)) :
    List UInt8 :=
  ps.foldl (fun code p => (patchInPlace code l[p.1] p.2).2) code

/-! ### One replacement -/

/-- An instruction with operands of its opcode can stand where one of its length stood. -/
lemma displaces_iff (hafter : after.Fits) :
    after.Displaces before ↔ after.offset = before.offset ∧ after.length = before.length :=
  ⟨fun h => ⟨h.offset_eq, h.length_eq⟩, fun h => ⟨h.1, h.2, hafter⟩⟩

instance (after before : Instruction) : Decidable (after.Displaces before) :=
  decidable_of_iff (after.Fits ∧ after.offset = before.offset ∧ after.length = before.length)
    ⟨fun h => (displaces_iff h.1).mpr h.2, fun h => ⟨h.fits, (displaces_iff h.fits).mp h⟩⟩

/-- A replacement of another offset or length is refused. -/
lemma patchInPlace_of_not_displaces (hafter : after.Fits) (h : ¬ after.Displaces before) :
    patchInPlace code before after = (false, code) := by
  have hother : ¬ (before.offset = after.offset ∧ before.length = after.length) :=
    fun hsame => h ⟨hsame.1.symm, hsame.2.symm, hafter⟩
  rw [patchInPlace, patch, if_neg hother]

/-- The bytes before and after the replaced instruction are kept, and there are as many as before. -/
lemma frame_of_patch (hafter : after.Fits) (hle : before.next ≤ code.length)
    (h : patch code before after = some code') :
    code'.length = code.length ∧
      ∀ k, k < before.offset ∨ before.next ≤ k → code'[k]? = code[k]? := by
  obtain ⟨⟨-, hlength⟩, hcode⟩ := Option.ite_none_right_eq_some.mp h
  obtain rfl := Option.some.inj hcode
  have hnext : before.next = before.offset + after.encode.length := by
    rw [length_encode hafter, ← hlength]
    rfl
  have hfront : (code.take before.offset).length = before.offset := by
    rw [List.length_take]
    omega
  rw [List.append_assoc]
  refine ⟨?_, fun k hk => ?_⟩
  · rw [List.length_append, List.length_append, List.length_drop]
    omega
  · rcases hk with hk | hk
    · rw [List.getElem?_append_left (by omega), List.getElem?_take_of_lt hk]
    · rw [List.getElem?_append_right (by omega), List.getElem?_append_right (by omega),
        List.getElem?_drop]
      congr 1
      omega

/-- Between other instructions, one is replaced by another. -/
lemma patch_middle {l₁ l₂ : List Instruction} (h : decodeAll code = .ok (l₁ ++ before :: l₂))
    (hafter : after.Displaces before) :
    patch code before after = some (encodeAll (l₁ ++ after :: l₂)) ∧
      decodeAll (encodeAll (l₁ ++ after :: l₂)) = .ok (l₁ ++ after :: l₂) := by
  obtain ⟨htiles, rfl⟩ := decodeAll_eq_ok_iff.mp h
  obtain ⟨middle, hfront, rfl, hfits, hback⟩ := htiles.split
  have hparts (i : Instruction) :
      encodeAll (l₁ ++ i :: l₂) = encodeAll l₁ ++ (i.encode ++ encodeAll l₂) := by
    simp [encodeAll]
  constructor
  · rw [hparts, hparts]
    exact patch_append hfits hafter hfront.length_encodeAll _
  · rw [← hafter.next_eq] at hback
    exact decodeAll_encodeAll (hfront.append ⟨hafter.offset_eq, hafter.fits, hback⟩)

/-- The instructions of a stretch end within it. -/
lemma Tiles.next_le {start stop : Nat} {i : Instruction} (h : Tiles start l stop) (hi : i ∈ l) :
    i.next ≤ stop := by
  obtain ⟨l₁, l₂, rfl⟩ := List.append_of_mem hi
  obtain ⟨middle, -, -, -, hback⟩ := h.split
  exact hback.offset_mem.1

/-- An instruction of a body is replaced, and nothing else: neither in the bytes nor in what they decode
to. -/
theorem decodeAll_patch {i : Nat} (h : decodeAll code = .ok l) (hi : l[i]? = some before)
    (hafter : after.Displaces before) :
    ∃ code', patchInPlace code before after = (true, code') ∧
      decodeAll code' = .ok (l.set i after) ∧ code'.length = code.length ∧
      ∀ k, k < before.offset ∨ before.next ≤ k → code'[k]? = code[k]? := by
  have hle : before.next ≤ code.length :=
    (decodeAll_eq_ok_iff.mp h).1.next_le (List.mem_of_getElem? hi)
  obtain ⟨hlt, rfl⟩ := List.getElem?_eq_some_iff.mp hi
  obtain ⟨l₁, l₂, hl, -, hset⟩ := @List.exists_of_set _ i after l hlt
  rw [hl] at h
  obtain ⟨hpatch, hdecode⟩ := patch_middle h hafter
  refine ⟨_, ?_, hset ▸ hdecode, frame_of_patch hafter.fits hle hpatch⟩
  rw [patchInPlace, hpatch]

/-! ### Sequences of replacements -/

/-- The instructions after asking for the replacement of one that was in a list. -/
def replacedAt (l l' : List Instruction) (p : Fin l.length × Instruction) : List Instruction :=
  if p.2.Displaces l[p.1] then l'.set p.1 p.2 else l'

variable {p q : Fin l.length × Instruction} {ps qs : List (Fin l.length × Instruction)}

lemma getElem?_replacedAt (h : p.1 ≠ q.1) :
    (replacedAt l l' p)[q.1.val]? = l'[q.1.val]? := by
  unfold replacedAt
  split
  · exact List.getElem?_set_ne (Fin.val_ne_of_ne h)
  · rfl

/-- Replacements of different instructions can be exchanged. -/
lemma replacedAt_comm (h : p.1 ≠ q.1) :
    replacedAt l (replacedAt l l' p) q = replacedAt l (replacedAt l l' q) p := by
  unfold replacedAt
  split_ifs
  · exact List.set_comm _ _ (Fin.val_ne_of_ne h)
  all_goals rfl

/-- As long as an instruction is what it was, the code decodes to the instructions after its replacement. -/
lemma decodeAll_patchInPlace (h : decodeAll code = .ok l') (hp : l'[p.1.val]? = some l[p.1])
    (hfits : p.2.Fits) :
    decodeAll (patchInPlace code l[p.1] p.2).2 = .ok (replacedAt l l' p) := by
  by_cases hdisplaces : p.2.Displaces l[p.1]
  · obtain ⟨code', hpatch, hdecode, -⟩ := decodeAll_patch h hp hdisplaces
    rw [hpatch, replacedAt, if_pos hdisplaces]
    exact hdecode
  · rw [patchInPlace_of_not_displaces hfits hdisplaces, replacedAt, if_neg hdisplaces]
    exact h

/-- The instructions whose turn has not come are what they were, so each replacement finds its own. -/
theorem decodeAll_patchEach (hnodup : (ps.map Prod.fst).Nodup) (hfits : ∀ p ∈ ps, p.2.Fits)
    (h : decodeAll code = .ok l') (hkept : ∀ p ∈ ps, l'[p.1.val]? = some l[p.1]) :
    decodeAll (patchEach l code ps) = .ok (ps.foldl (replacedAt l) l') := by
  induction ps generalizing code l' with
  | nil => exact h
  | cons p ps ih =>
    obtain ⟨hp, hfits⟩ := List.forall_mem_cons.mp hfits
    obtain ⟨hkeptp, hkept⟩ := List.forall_mem_cons.mp hkept
    obtain ⟨hnotMem, hnodup⟩ := List.nodup_cons.mp hnodup
    refine ih hnodup hfits (decodeAll_patchInPlace h hkeptp hp) fun q hq => ?_
    have hne : p.1 ≠ q.1 := fun heq => hnotMem (heq ▸ List.mem_map_of_mem hq)
    rw [getElem?_replacedAt hne]
    exact hkept q hq

/-- Replacements of different instructions have the same outcome in every order. -/
lemma foldl_replacedAt_perm (hperm : ps.Perm qs) (hnodup : (ps.map Prod.fst).Nodup)
    (l' : List Instruction) : ps.foldl (replacedAt l) l' = qs.foldl (replacedAt l) l' := by
  refine hperm.foldl_eq' (fun p hp q hq l' => ?_) l'
  by_cases heq : p.1 = q.1
  · obtain rfl : p = q := List.inj_on_of_nodup_map hnodup hp hq heq
    rfl
  · exact replacedAt_comm heq

/-- Replacements of different instructions of a body give the bytes of the instructions after them. -/
lemma patchEach_of_decodeAll (h : decodeAll code = .ok l) (hnodup : (ps.map Prod.fst).Nodup)
    (hfits : ∀ p ∈ ps, p.2.Fits) : patchEach l code ps = encodeAll (ps.foldl (replacedAt l) l) :=
  (encodeAll_of_decodeAll (decodeAll_patchEach hnodup hfits h fun p _ =>
    List.getElem?_eq_getElem p.1.isLt)).symm

/-- A replacement for an instruction of a body happens just when it has its offset and its length. Then the
body is as long as before, decodes to the same instructions except for the replaced one, and has the same
bytes outside of it; the other jumps lead where they led. Otherwise nothing happens. Replacements for
different instructions of a body give the same code in every order. -/
theorem replacing_local (h : decodeAll code = .ok l) :
    (∀ (i : Fin l.length) (r : Instruction), r.Fits →
      ((patchInPlace code l[i] r).1 = true ↔ r.offset = l[i].offset ∧ r.length = l[i].length) ∧
      ((patchInPlace code l[i] r).1 = true →
        (patchInPlace code l[i] r).2.length = code.length ∧
        decodeAll (patchInPlace code l[i] r).2 = .ok (l.set i r) ∧
        (∀ k, k < l[i].offset ∨ l[i].next ≤ k → (patchInPlace code l[i] r).2[k]? = code[k]?) ∧
        ∀ j : Fin l.length, j ≠ i →
          (l.set i r)[j.val]?.map jumpTarget? = some l[j].jumpTarget?) ∧
      ((patchInPlace code l[i] r).1 = false → (patchInPlace code l[i] r).2 = code)) ∧
    ∀ ps qs : List (Fin l.length × Instruction), ps.Perm qs → (ps.map Prod.fst).Nodup →
      (∀ p ∈ ps, p.2.Fits) → patchEach l code ps = patchEach l code qs := by
  refine ⟨fun i r hfits => ?_, fun ps qs hperm hnodup hfits => ?_⟩
  · rw [← displaces_iff hfits]
    by_cases hdisplaces : r.Displaces l[i]
    · have hi : l[i.val]? = some l[i] := List.getElem?_eq_getElem i.isLt
      obtain ⟨code', hpatch, hdecode, hlength, hframe⟩ := decodeAll_patch h hi hdisplaces
      have htargets (j : Fin l.length) (hj : j ≠ i) :
          (l.set i r)[j.val]?.map jumpTarget? = some l[j].jumpTarget? := by
        rw [List.getElem?_set_ne (Fin.val_ne_of_ne hj.symm), List.getElem?_eq_getElem j.isLt]
        rfl
      rw [hpatch]
      exact ⟨iff_of_true rfl hdisplaces, fun _ => ⟨hlength, hdecode, hframe, htargets⟩, nofun⟩
    · rw [patchInPlace_of_not_displaces hfits hdisplaces]
      exact ⟨iff_of_false nofun hdisplaces, nofun, fun _ => rfl⟩
  · have hfits' : ∀ p ∈ qs, p.2.Fits := fun p hp => hfits p (hperm.mem_iff.mpr hp)
    have hnodup' : (qs.map Prod.fst).Nodup := (hperm.map Prod.fst).nodup_iff.mp hnodup
    calc patchEach l code ps
      _ = encodeAll (ps.foldl (replacedAt l) l) := patchEach_of_decodeAll h hnodup hfits
      _ = encodeAll (qs.foldl (replacedAt l) l) := by rw [foldl_replacedAt_perm hperm hnodup]
      _ = patchEach l code qs := (patchEach_of_decodeAll h hnodup' hfits').symm

def twoReads : List Instruction :=
  [⟨0, .constTrue, .none⟩, ⟨1, .jmpIfFalse, .jump 9⟩, ⟨6, .getField, .pair 1 2⟩,
    ⟨15, .getField, .pair 1 3⟩, ⟨24, .ret, .none⟩]

def slotRead : Fin twoReads.length × Instruction := (⟨2, by decide⟩, ⟨6, .getFieldSlot, .pair 1 0⟩)

def extensionRead : Fin twoReads.length × Instruction :=
  (⟨3, by decide⟩, ⟨15, .getExtField, .pair 1 3⟩)

/-- Both reads are replaced, in either order, and an instruction that is shorter is refused. -/
theorem replacing_local_twoReads :
    decodeAll (encodeAll twoReads) = .ok twoReads ∧
      (patchInPlace (encodeAll twoReads) twoReads[slotRead.1] slotRead.2).1 = true ∧
      decodeAll (patchInPlace (encodeAll twoReads) twoReads[slotRead.1] slotRead.2).2 =
        .ok (twoReads.set 2 slotRead.2) ∧
      (patchInPlace (encodeAll twoReads) twoReads[slotRead.1] ⟨6, .pop, .none⟩).2 =
        encodeAll twoReads ∧
      patchEach twoReads (encodeAll twoReads) [slotRead, extensionRead] =
        patchEach twoReads (encodeAll twoReads) [extensionRead, slotRead] := by
  have htiles : Tiles 0 twoReads 25 :=
    ⟨rfl, rfl, rfl, rfl, rfl, rfl, rfl, rfl, rfl, rfl, rfl⟩
  have hdecode := decodeAll_encodeAll htiles
  obtain ⟨hone, hmany⟩ := replacing_local hdecode
  obtain ⟨hiff, hdone, -⟩ := hone slotRead.1 slotRead.2 rfl
  obtain ⟨hiff', -, hrefused⟩ := hone slotRead.1 ⟨6, .pop, .none⟩ rfl
  have htrue := hiff.mpr ⟨rfl, rfl⟩
  have hfalse := Bool.eq_false_iff.mpr fun h => absurd (hiff'.mp h).2 (by decide)
  have hfits : ∀ p ∈ [slotRead, extensionRead], p.2.Fits :=
    List.forall_mem_cons.mpr ⟨rfl, List.forall_mem_singleton.mpr rfl⟩
  exact ⟨hdecode, htrue, (hdone htrue).2.1, hrefused hfalse,
    hmany _ _ (List.Perm.swap _ _ _) (by decide) hfits⟩

end Instruction

end LiveTypes
