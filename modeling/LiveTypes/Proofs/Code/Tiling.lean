import LiveTypes.Code.Listing
import LiveTypes.Proofs.Bytes.Cursor

/-!
# Bodies are tiled by instructions

Decoding a body finds instructions that follow each other without a gap from the first byte to the
last (`tiles_of_decodeAll`), and decoding what such instructions encode to gives them back
(`decodeAll_encodeAll`).
-/

namespace LiveTypes

open Decoder

/-! ### Operands and instructions -/

lemma OperandForm.takes_read (form : OperandForm) : Takes form.read form.length := by
  cases form with
  | none => exact takes_pure _
  | i32 => exact takes_i32.map _
  | i64 => exact takes_i64.map _
  | f64 => exact takes_f64.map _
  | index => exact takes_u32.map _
  | localSlot => exact takes_u16.map _
  | jump => exact takes_i32.map _
  | pair => exact takes_u32.bind fun _ => takes_u32.map _
  | dispatch => exact takes_u32.bind fun _ => takes_u16.map _
  | closure => exact takes_u32.bind fun _ => takes_u8.bind fun _ => takes_u8.map _

/-- What is read has the form that was asked for. -/
lemma OperandForm.form_of_read {form : OperandForm} {c c' : Cursor} {o : Operands}
    (h : form.read c = .ok o c') : o.form = form := by
  cases form <;> simp only [OperandForm.read, bind_eq_ok, pure_eq_ok] at h
  case none => rw [← h.1]; rfl
  case pair | dispatch =>
    obtain ⟨_, _, -, _, _, -, rfl, -⟩ := h
    rfl
  case closure =>
    obtain ⟨_, _, -, _, _, -, _, _, -, rfl, -⟩ := h
    rfl
  all_goals
    obtain ⟨_, _, -, rfl, -⟩ := h
    rfl

lemma Operands.reads (o : Operands) : Reads o.form.read o.encode o := by
  cases o with
  | none => exact reads_pure _
  | i32 v => exact (reads_i32 v).map _
  | i64 v => exact (reads_i64 v).map _
  | f64 v => exact (reads_f64 v).map _
  | index v => exact (reads_u32 v).map _
  | localSlot v => exact (reads_u16 v).map _
  | jump v => exact (reads_i32 v).map _
  | pair a b => exact (reads_u32 a).bind ((reads_u32 b).map _)
  | dispatch a b => exact (reads_u32 a).bind ((reads_u16 b).map _)
  | closure a b c =>
    have hrest : Reads (do
        let count ← Decoder.u8
        let flags ← Decoder.u8
        return Operands.closure a count flags) ([b] ++ [c]) (.closure a b c) :=
      (reads_u8 b).bind ((reads_u8 c).map _)
    exact (reads_u32 a).bind hrest

lemma Opcode.takes_read : Takes Opcode.read 1 := by
  intro c op c' h
  obtain ⟨before, c₁, hget, h⟩ := bind_eq_ok.mp h
  obtain ⟨rfl, rfl⟩ := get_eq_ok.mp hget
  obtain ⟨b, c₂, hb, h⟩ := bind_eq_ok.mp h
  have htakes := takes_u8 _ _ _ hb
  cases hop : Opcode.ofByte? b <;> rw [hop] at h
  · cases h
  · obtain ⟨-, rfl⟩ := pure_eq_ok.mp h
    exact htakes

lemma Opcode.reads (op : Opcode) : Reads Opcode.read [op.byte] op := by
  intro p rest
  refine bind_eq_ok.mpr ⟨⟨p, op.byte :: rest⟩, ⟨p, op.byte :: rest⟩, rfl, ?_⟩
  refine bind_eq_ok.mpr ⟨op.byte, _, reads_u8 op.byte p rest, ?_⟩
  simp only [Opcode.ofByte?_byte]
  rfl

namespace Instruction

variable {i : Instruction} {code : List UInt8} {l : List Instruction}

lemma read_eq_ok {c c' : Cursor} (h : read c = .ok i c') :
    i.offset = c.pos ∧ i.Fits ∧ c'.pos = i.next ∧ c'.rest = c.rest.drop i.length ∧
      i.length ≤ c.rest.length := by
  obtain ⟨before, c₀, hget, h⟩ := bind_eq_ok.mp h
  obtain ⟨rfl, rfl⟩ := get_eq_ok.mp hget
  obtain ⟨op, c₁, hop, h⟩ := bind_eq_ok.mp h
  obtain ⟨operands, c₂, hoperands, h⟩ := bind_eq_ok.mp h
  obtain ⟨rfl, rfl⟩ := pure_eq_ok.mp h
  obtain ⟨hpos₁, hrest₁, hlength₁⟩ := Opcode.takes_read _ _ _ hop
  obtain ⟨hpos₂, hrest₂, hlength₂⟩ := OperandForm.takes_read op.form _ _ _ hoperands
  rw [hrest₁, List.length_drop] at hlength₂
  refine ⟨rfl, OperandForm.form_of_read hoperands, ?_, ?_, ?_⟩
  · simp only [next, length, Opcode.operandLength_eq]
    omega
  · rw [hrest₂, hrest₁, List.drop_drop, length, Opcode.operandLength_eq]
  · simp only [length, Opcode.operandLength_eq]
    omega

lemma read_encode (hfits : i.Fits) (rest : List UInt8) :
    read ⟨i.offset, i.encode ++ rest⟩ = .ok i ⟨i.next, rest⟩ := by
  have hoperands : Reads i.opcode.form.read i.operands.encode i.operands :=
    (show i.operands.form = _ from hfits) ▸ i.operands.reads
  have hread := (i.opcode.reads.bind (f := fun op => do
    let operands ← op.form.read
    return (⟨i.offset, op, operands⟩ : Instruction)) (hoperands.map _)) i.offset rest
  refine bind_eq_ok.mpr ⟨_, _, rfl, ?_⟩
  have hlength := length_encode hfits
  rw [show i.offset + ([i.opcode.byte] ++ i.operands.encode).length = i.next by
    rw [next, ← hlength]
    rfl] at hread
  exact hread

/-! ### Bodies -/

/-- Whether instructions follow each other without a gap between two offsets. -/
def Tiles : Nat → List Instruction → Nat → Prop
  | start, [], stop => start = stop
  | start, i :: rest, stop => i.offset = start ∧ i.Fits ∧ Tiles i.next rest stop

lemma length_pos (i : Instruction) : 0 < i.length := by
  rw [length]
  omega

lemma Tiles.append {start middle stop : Nat} {l' : List Instruction} (h : Tiles start l middle)
    (h' : Tiles middle l' stop) : Tiles start (l ++ l') stop := by
  induction l generalizing start with
  | nil =>
    obtain rfl : start = middle := h
    exact h'
  | cons i rest ih => exact ⟨h.1, h.2.1, ih h.2.2⟩

/-- What is tiled by two lists one after the other is tiled by each up to where they meet. -/
lemma Tiles.split {start stop : Nat} {l' : List Instruction} (h : Tiles start (l ++ l') stop) :
    ∃ middle, Tiles start l middle ∧ Tiles middle l' stop := by
  induction l generalizing start with
  | nil => exact ⟨start, rfl, h⟩
  | cons i rest ih =>
    obtain ⟨hoffset, hfits, hrest⟩ := h
    obtain ⟨middle, hfront, hback⟩ := ih hrest
    exact ⟨middle, ⟨hoffset, hfits, hfront⟩, hback⟩

/-- The instructions start within the stretch that they tile. -/
lemma Tiles.offset_mem {start stop : Nat} (h : Tiles start l stop) :
    start ≤ stop ∧ ∀ i ∈ l, start ≤ i.offset ∧ i.offset < stop := by
  induction l generalizing start with
  | nil => exact ⟨Nat.le_of_eq h, by simp⟩
  | cons i rest ih =>
    obtain ⟨rfl, -, hrest⟩ := h
    obtain ⟨hle, hwithin⟩ := ih hrest
    have hpositive := i.length_pos
    have hnext : i.next = i.offset + i.length := rfl
    refine ⟨by omega, List.forall_mem_cons.mpr ⟨by omega, fun j hj => ?_⟩⟩
    have := hwithin j hj
    omega

/-- Every instruction takes at least one byte. -/
lemma Tiles.length_le {start stop : Nat} (h : Tiles start l stop) : start + l.length ≤ stop := by
  induction l generalizing start with
  | nil => exact Nat.le_of_eq h
  | cons i rest ih =>
    obtain ⟨rfl, -, hrest⟩ := h
    have := ih hrest
    have := i.length_pos
    have : i.next = i.offset + i.length := rfl
    simp only [List.length_cons]
    omega

lemma Tiles.fits {start stop : Nat} (h : Tiles start l stop) : ∀ i ∈ l, i.Fits := by
  induction l generalizing start with
  | nil => simp
  | cons i rest ih => exact List.forall_mem_cons.mpr ⟨h.2.1, ih h.2.2⟩

/-- After an instruction comes another, unless it is the last. -/
lemma Tiles.next_mem {start stop : Nat} (h : Tiles start l stop) (hi : i ∈ l) :
    (∃ j ∈ l, j.offset = i.next) ∨ l.getLast? = some i := by
  induction l generalizing start with
  | nil => cases hi
  | cons i₀ rest ih =>
    obtain ⟨-, -, hrest⟩ := h
    rcases List.mem_cons.mp hi with rfl | hi
    · cases rest with
      | nil => exact .inr rfl
      | cons j rest => exact .inl ⟨j, by simp, hrest.1⟩
    · rcases ih hrest hi with ⟨j, hj, hnext⟩ | hlast
      · exact .inl ⟨j, List.mem_cons_of_mem _ hj, hnext⟩
      · refine .inr ?_
        rw [List.getLast?_cons, hlast]
        rfl

/-- What decoding from a cursor on finds, behind what was found before. -/
lemma readAll_eq_ok {n : Nat} {c : Cursor} {done : List Instruction} (hlength : c.rest.length ≤ n)
    (hrest : c.rest = code.drop c.pos) (hpos : c.pos ≤ code.length)
    (h : readAll n c done = .ok l) :
    ∃ l', l = done.reverse ++ l' ∧ Tiles c.pos l' code.length ∧
      ∀ i ∈ l', i.offset < code.length ∧ readAt i.offset (code.drop i.offset) = .ok i := by
  have hend (hempty : c.rest.length = 0) : c.pos = code.length := by
    rw [hrest, List.length_drop] at hempty
    omega
  induction n generalizing c done with
  | zero =>
    rw [readAll] at h
    exact ⟨[], by simpa using (Except.ok.inj h).symm, hend (by omega), by simp⟩
  | succ n ih =>
    rw [readAll] at h
    split at h
    · next hatEnd =>
      have hempty : c.rest.length = 0 := by simpa [Cursor.atEnd] using hatEnd
      exact ⟨[], by simpa using (Except.ok.inj h).symm, hend hempty, by simp⟩
    · split at h
      · next i c' hread =>
        obtain ⟨hoffset, hfits, hpos', hrest', hle⟩ := read_eq_ok hread
        have hpositive := i.length_pos
        have hnext : i.next = c.pos + i.length := by rw [← hoffset]; rfl
        have hdrop : c'.rest = code.drop c'.pos := by
          rw [hrest', hrest, List.drop_drop, hpos', hnext]
        have hle' : c'.pos ≤ code.length := by
          rw [hrest, List.length_drop] at hle
          omega
        obtain ⟨l', rfl, htiles, hall⟩ := ih (by rw [hrest', List.length_drop]; omega) hdrop hle' h
          fun hempty => by
            rw [hdrop, List.length_drop] at hempty
            omega
        refine ⟨i :: l', by simp, ⟨hoffset, hfits, hpos' ▸ htiles⟩,
          List.forall_mem_cons.mpr ⟨⟨?_, ?_⟩, hall⟩⟩
        · rw [hrest, List.length_drop] at hle
          omega
        · rw [readAt, hoffset, ← hrest, show (⟨c.pos, c.rest⟩ : Cursor) = c from rfl, hread]
      · cases h

/-- The instructions of a body tile it, and each is what reading at its offset gives. -/
theorem tiles_of_decodeAll (h : decodeAll code = .ok l) :
    Tiles 0 l code.length ∧
      ∀ i ∈ l, i.offset < code.length ∧ readAt i.offset (code.drop i.offset) = .ok i := by
  obtain ⟨l', rfl, htiles, hall⟩ :=
    readAll_eq_ok (c := .start code) (Nat.le_refl _) rfl (Nat.zero_le _) h
  exact ⟨htiles, hall⟩

lemma readAll_encodeAll {n start stop : Nat} {done : List Instruction} (h : Tiles start l stop)
    (hlength : (encodeAll l).length ≤ n) :
    readAll n ⟨start, encodeAll l⟩ done = .ok (done.reverse ++ l) := by
  induction l generalizing n start done with
  | nil => cases n <;> simp [readAll, encodeAll, Cursor.atEnd]
  | cons i rest ih =>
    obtain ⟨rfl, hfits, hrest⟩ := h
    have hcons : encodeAll (i :: rest) = i.encode ++ encodeAll rest := rfl
    rw [hcons, List.length_append, length_encode hfits] at hlength
    have hpositive := i.length_pos
    obtain ⟨n, rfl⟩ : ∃ m, n = m + 1 := ⟨n - 1, by omega⟩
    have hne : Cursor.atEnd ⟨i.offset, i.encode ++ encodeAll rest⟩ = false := rfl
    rw [hcons, readAll, hne, read_encode hfits]
    simp only [Bool.false_eq_true, ↓reduceIte]
    rw [ih hrest (by omega)]
    simp

/-- Decoding gives back the instructions that were encoded. -/
theorem decodeAll_encodeAll {stop : Nat} (h : Tiles 0 l stop) :
    decodeAll (encodeAll l) = .ok l :=
  readAll_encodeAll h (Nat.le_refl _)

/-- Instructions tile one stretch of code only. -/
lemma Tiles.stop_eq {start stop stop' : Nat} (h : Tiles start l stop) (h' : Tiles start l stop') :
    stop = stop' := by
  induction l generalizing start with
  | nil => exact h.symm.trans h'
  | cons i rest ih => exact ih h.2.2 h'.2.2

lemma Tiles.length_encodeAll {stop : Nat} (h : Tiles 0 l stop) : (encodeAll l).length = stop :=
  (tiles_of_decodeAll (decodeAll_encodeAll h)).1.stop_eq h

end Instruction

end LiveTypes
