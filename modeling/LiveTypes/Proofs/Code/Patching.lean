import LiveTypes.Proofs.Code.Tiling
import Mathlib.Data.List.Forall2

/-!
# Replacing instructions in place

A body is the bytes of its instructions. When instructions are replaced one after the other, each by one
that stands where it stood, no replacement touches the bytes of another: in the end the body is the bytes
of the new instructions, and decodes to them (`Instruction.patchAll_of_decodeAll`).
-/

namespace LiveTypes

open Decoder

/-! ### The bytes of a body -/

lemma OperandForm.takesForm_read (form : OperandForm) : TakesForm form.read Operands.encode := by
  cases form with
  | none => exact takesForm_pure rfl
  | i32 => exact takesForm_i32.map fun _ => rfl
  | i64 => exact takesForm_i64.map fun _ => rfl
  | f64 => exact takesForm_f64.map fun _ => rfl
  | index => exact takesForm_u32.map fun _ => rfl
  | localSlot => exact takesForm_u16.map fun _ => rfl
  | jump => exact takesForm_i32.map fun _ => rfl
  | pair =>
    intro c o c' h
    simp only [OperandForm.read, bind_eq_ok, pure_eq_ok] at h
    obtain ⟨a, c₁, ha, b, c₂, hb, rfl, rfl⟩ := h
    rw [takesForm_u32 _ _ _ ha, takesForm_u32 _ _ _ hb, Operands.encode, List.append_assoc]
  | dispatch =>
    intro c o c' h
    simp only [OperandForm.read, bind_eq_ok, pure_eq_ok] at h
    obtain ⟨signature, c₁, hsignature, argc, c₂, hargc, rfl, rfl⟩ := h
    rw [takesForm_u32 _ _ _ hsignature, takesForm_u16 _ _ _ hargc, Operands.encode,
      List.append_assoc]
  | closure =>
    intro c o c' h
    simp only [OperandForm.read, bind_eq_ok, pure_eq_ok] at h
    obtain ⟨constant, c₁, hconstant, count, c₂, hcount, flags, c₃, hflags, rfl, rfl⟩ := h
    rw [takesForm_u32 _ _ _ hconstant, takesForm_u8 _ _ _ hcount, takesForm_u8 _ _ _ hflags,
      Operands.encode, List.append_assoc]
    rfl

lemma Opcode.takesForm_read : TakesForm Opcode.read fun op => [op.byte] := by
  intro c op c' h
  obtain ⟨before, c₁, hget, h⟩ := bind_eq_ok.mp h
  obtain ⟨rfl, rfl⟩ := get_eq_ok.mp hget
  obtain ⟨b, c₂, hb, h⟩ := bind_eq_ok.mp h
  cases hop : Opcode.ofByte? b <;> rw [hop] at h
  · cases h
  · obtain ⟨rfl, rfl⟩ := pure_eq_ok.mp h
    rw [takesForm_u8 _ _ _ hb, ← byte_of_ofByte? hop]

namespace Instruction

variable {i i' : Instruction} {code : List UInt8} {l l' : List Instruction} {start stop : Nat}

lemma takesForm_read : TakesForm read encode := by
  intro c i c' h
  obtain ⟨before, c₀, hget, h⟩ := bind_eq_ok.mp h
  obtain ⟨rfl, rfl⟩ := get_eq_ok.mp hget
  obtain ⟨op, c₁, hop, h⟩ := bind_eq_ok.mp h
  obtain ⟨operands, c₂, hoperands, h⟩ := bind_eq_ok.mp h
  obtain ⟨rfl, rfl⟩ := pure_eq_ok.mp h
  rw [Opcode.takesForm_read _ _ _ hop, OperandForm.takesForm_read _ _ _ _ hoperands]
  rfl

/-- The bytes from an offset on are those of the instruction there, and then those after it. -/
lemma drop_of_readAt (h : readAt i.offset (code.drop i.offset) = .ok i) :
    code.drop i.offset = i.encode ++ code.drop i.next := by
  unfold readAt at h
  split at h
  · next j c hread =>
    obtain rfl := Except.ok.inj h
    obtain ⟨-, -, -, hrest, -⟩ := read_eq_ok hread
    have htaken : code.drop j.offset = j.encode ++ c.rest := takesForm_read _ _ _ hread
    rw [htaken, hrest, List.drop_drop]
    rfl
  · cases h

lemma Tiles.encodeAll_eq (h : Tiles start l code.length)
    (hread : ∀ i ∈ l, readAt i.offset (code.drop i.offset) = .ok i) :
    encodeAll l = code.drop start := by
  induction l generalizing start with
  | nil =>
    obtain rfl : start = code.length := h
    rw [List.drop_length]
    rfl
  | cons i rest ih =>
    obtain ⟨rfl, -, hrest⟩ := h
    obtain ⟨hi, hread⟩ := List.forall_mem_cons.mp hread
    rw [drop_of_readAt hi, ← ih hrest hread]
    rfl

/-- A body is the bytes of its instructions. -/
theorem encodeAll_of_decodeAll (h : decodeAll code = .ok l) : encodeAll l = code := by
  obtain ⟨htiles, hread⟩ := tiles_of_decodeAll h
  rw [htiles.encodeAll_eq fun i hi => (hread i hi).2, List.drop_zero]

/-- A body decodes to the instructions that tile it and have its bytes. -/
lemma decodeAll_eq_ok_iff : decodeAll code = .ok l ↔ Tiles 0 l code.length ∧ encodeAll l = code := by
  constructor
  · intro h
    exact ⟨(tiles_of_decodeAll h).1, encodeAll_of_decodeAll h⟩
  · rintro ⟨htiles, rfl⟩
    exact decodeAll_encodeAll htiles

/-! ### Replacing -/

/-- Whether an instruction can stand where another stood. -/
structure Displaces (i' i : Instruction) : Prop where
  offset_eq : i'.offset = i.offset
  length_eq : i'.length = i.length
  fits : i'.Fits

lemma Displaces.next_eq (h : i'.Displaces i) : i'.next = i.next := by
  rw [next, next, h.offset_eq, h.length_eq]

/-- Instructions that stand where others stood tile what those did. -/
lemma Tiles.displaced (h : Tiles start l stop) (hl : List.Forall₂ (fun i i' => i'.Displaces i) l l') :
    Tiles start l' stop := by
  induction hl generalizing start with
  | nil => exact h
  | cons hi _ ih =>
    obtain ⟨hoffset, -, hrest⟩ := h
    exact ⟨hi.offset_eq.trans hoffset, hi.fits, hi.next_eq ▸ ih hrest⟩

/-- One replacement leaves the bytes before and after the instruction. -/
lemma patch_append (hi : i.Fits) (h : i'.Displaces i) {before : List UInt8}
    (hbefore : before.length = i.offset) (after : List UInt8) :
    patch (before ++ (i.encode ++ after)) i i' = some (before ++ (i'.encode ++ after)) := by
  have htake : (before ++ (i.encode ++ after)).take i.offset = before := by
    rw [← hbefore, List.take_left]
  have hdrop : (before ++ (i.encode ++ after)).drop i.next = after := by
    rw [next, ← hbefore, ← length_encode hi, ← List.append_assoc, ← List.length_append,
      List.drop_left]
  rw [patch, if_pos ⟨h.offset_eq.symm, h.length_eq.symm⟩, htake, hdrop, List.append_assoc]

/-- The instructions before have been replaced, those after have not: replacing goes on from one to the
next. -/
lemma patchAll_encodeAll (h : Tiles start l stop)
    (hl : List.Forall₂ (fun i i' => i'.Displaces i) l l') (before : List UInt8)
    (hbefore : before.length = start) :
    patchAll (before ++ encodeAll l) (l.zip l') = some (before ++ encodeAll l') := by
  induction hl generalizing start before with
  | nil => rfl
  | @cons i i' rest rest' hi _ ih =>
    obtain ⟨rfl, hfits, hrest⟩ := h
    have hlength : (before ++ i'.encode).length = i.next := by
      rw [List.length_append, hbefore, length_encode hi.fits, hi.length_eq]
      rfl
    have hothers := ih hrest _ hlength
    rw [List.append_assoc, List.append_assoc] at hothers
    show patchAll (before ++ (i.encode ++ encodeAll rest)) ((i, i') :: rest.zip rest') =
      some (before ++ (i'.encode ++ encodeAll rest'))
    rw [patchAll]
    split_ifs with hsame
    · rw [hsame]
      exact hothers
    · rw [patch_append hfits hi hbefore]
      exact hothers

/-- Replacing instructions of a body in place gives the bytes of the new instructions, which decode to
them again. -/
theorem patchAll_of_decodeAll (h : decodeAll code = .ok l)
    (hl : List.Forall₂ (fun i i' => i'.Displaces i) l l') :
    patchAll code (l.zip l') = some (encodeAll l') ∧ decodeAll (encodeAll l') = .ok l' ∧
      (encodeAll l').length = code.length := by
  have htiles := (tiles_of_decodeAll h).1
  have htiles' := htiles.displaced hl
  refine ⟨?_, decodeAll_encodeAll htiles', htiles'.length_encodeAll⟩
  have hpatched := patchAll_encodeAll htiles hl [] rfl
  rwa [List.nil_append, List.nil_append, encodeAll_of_decodeAll h] at hpatched

end Instruction

end LiveTypes
