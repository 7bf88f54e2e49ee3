import LiveTypes.Bytes.Checksum
import LiveTypes.Bytes.Word
import Mathlib.Algebra.Group.Nat.Defs
import Mathlib.Tactic.Common

/-!
# Checksums tell bursts apart

Feeding bits is linear in the state and loses nothing of it. So feeding the same bytes keeps different
states apart (`run_injective`), and up to four bytes are fed as one word that is added to the state
(`run_eq_shifts`), so that different ones lead to different states (`eq_of_run_eq`). Byte strings that
differ within four consecutive bytes only have different checksums (`checksum_burst_ne`).
-/

namespace LiveTypes

namespace Checksum

variable {n : Nat} {s : UInt32} {l l' : List UInt8}

/-! ### Bits -/

lemma toNat_and_one (s : UInt32) : (s &&& 1).toNat = s.toNat % 2 := by
  simp [UInt32.toNat_and, Nat.and_one_is_mod]

lemma toNat_shiftRight_one (s : UInt32) : (s >>> 1).toNat = s.toNat / 2 := by
  simp [UInt32.toNat_shiftRight, Nat.shiftRight_eq_div_pow]

lemma and_one_cases (s : UInt32) : s &&& 1 = 0 ∨ s &&& 1 = 1 := by
  have hmod := toNat_and_one s
  simp only [← UInt32.toNat_inj, UInt32.toNat_zero, UInt32.toNat_one]
  omega

lemma and_one_xor (s s' : UInt32) : (s ^^^ s') &&& 1 = (s &&& 1) ^^^ (s' &&& 1) := by
  rw [← UInt32.toNat_inj]
  simp only [UInt32.toNat_xor, toNat_and_one]
  exact Nat.xor_mod_two_pow (n := 1)

lemma shift_even (h : s &&& 1 = 0) : shift s = s >>> 1 := by simp [shift, h]

lemma shift_odd (h : s &&& 1 = 1) : shift s = (s >>> 1) ^^^ polynomial := by simp [shift, h]

/-- Feeding a zero bit is linear. -/
lemma shift_xor (s s' : UInt32) : shift (s ^^^ s') = shift s ^^^ shift s' := by
  have hlow := and_one_xor s s'
  rcases and_one_cases s with h | h <;> rcases and_one_cases s' with h' | h' <;> rw [h, h'] at hlow
  · rw [shift_even hlow, shift_even h, shift_even h', UInt32.shiftRight_xor]
  · rw [shift_odd hlow, shift_even h, shift_odd h', UInt32.shiftRight_xor, UInt32.xor_assoc]
  · rw [shift_odd hlow, shift_odd h, shift_even h', UInt32.shiftRight_xor]
    ac_rfl
  · -- the polynomial is added twice, which is not at all
    rw [shift_even hlow, shift_odd h, shift_odd h', UInt32.shiftRight_xor, UInt32.xor_assoc,
      UInt32.xor_comm polynomial, UInt32.xor_assoc, UInt32.xor_self, UInt32.xor_zero]

/-- Only the empty state is shifted to the empty one: the polynomial has the highest bit, which is never
left in place. -/
lemma eq_zero_of_shift (h : shift s = 0) : s = 0 := by
  have hmod := toNat_and_one s
  have hhalf := toNat_shiftRight_one s
  rcases and_one_cases s with hlow | hlow <;> rw [hlow] at hmod
  · rw [shift_even hlow] at h
    rw [h] at hhalf
    rw [← UInt32.toNat_inj, UInt32.toNat_zero]
    rw [UInt32.toNat_zero] at hmod hhalf
    omega
  · rw [shift_odd hlow, UInt32.xor_eq_zero_iff] at h
    have hhigh : (s >>> 1).toNat = 0xEDB88320 := congrArg UInt32.toNat h
    have hlt := s.toNat_lt
    omega

lemma shifts_xor (n : Nat) (s s' : UInt32) : shifts n (s ^^^ s') = shifts n s ^^^ shifts n s' := by
  induction n generalizing s s' with
  | zero => rfl
  | succ n ih => rw [shifts, shift_xor, ih, shifts, shifts]

lemma eq_zero_of_shifts (h : shifts n s = 0) : s = 0 := by
  induction n generalizing s with
  | zero => exact h
  | succ n ih => exact eq_zero_of_shift (ih h)

/-- Feeding zero bits keeps different states apart. -/
lemma shifts_injective (n : Nat) : Function.Injective (shifts n) := by
  intro s s' h
  rw [← UInt32.xor_eq_zero_iff] at h ⊢
  rw [← shifts_xor] at h
  exact eq_zero_of_shifts h

lemma shifts_add (m n : Nat) (s : UInt32) : shifts (m + n) s = shifts m (shifts n s) := by
  induction n generalizing s with
  | zero => rfl
  | succ n ih => exact ih (shift s)

/-- A state whose lowest bits are empty is only moved down. -/
lemma shifts_ofNat {k : Nat} (h : 2 ^ n * k < UInt32.size) :
    shifts n (UInt32.ofNat (2 ^ n * k)) = UInt32.ofNat k := by
  induction n with
  | zero => rw [Nat.pow_zero, Nat.one_mul, shifts]
  | succ n ih =>
    have hdouble : 2 ^ (n + 1) * k = 2 * (2 ^ n * k) := by rw [Nat.pow_succ]; ac_rfl
    rw [hdouble] at h ⊢
    have hlow : UInt32.ofNat (2 * (2 ^ n * k)) &&& 1 = 0 := by
      rw [← UInt32.toNat_inj, toNat_and_one, UInt32.toNat_ofNat_of_lt' h, UInt32.toNat_zero]
      omega
    have hhalf : UInt32.ofNat (2 * (2 ^ n * k)) >>> 1 = UInt32.ofNat (2 ^ n * k) := by
      rw [← UInt32.toNat_inj, toNat_shiftRight_one, UInt32.toNat_ofNat_of_lt' h,
        UInt32.toNat_ofNat_of_lt' (by omega)]
      omega
    rw [shifts, shift_even hlow, hhalf, ih (by omega)]

/-! ### Bytes -/

/-- Feeding a byte keeps different states apart. -/
lemma feed_injective (b : UInt8) : Function.Injective (feed · b) := fun _ _ h =>
  (UInt32.xor_left_inj _).mp (shifts_injective 8 h)

/-- Feeding the same bytes keeps different states apart. -/
lemma run_injective (l : List UInt8) : Function.Injective (run · l) := by
  induction l with
  | nil => exact Function.injective_id
  | cons b rest ih => exact ih.comp (feed_injective b)

/-- Numbers without a common bit are added without a carry. -/
lemma xor_eq_add {a : Nat} (h : a < 2 ^ n) (b : Nat) : a ^^^ (2 ^ n * b) = a + 2 ^ n * b := by
  apply Nat.eq_of_testBit_eq
  intro i
  rw [Nat.testBit_xor, Nat.testBit_two_pow_mul, Nat.add_comm, Nat.testBit_two_pow_mul_add _ h]
  split
  · next hi => simp [Nat.not_le.mpr hi]
  · next hi =>
    have hle : n ≤ i := Nat.not_lt.mp hi
    have hnone : a.testBit i = false :=
      Nat.testBit_lt_two_pow (Nat.lt_of_lt_of_le h (Nat.pow_le_pow_right Nat.two_pos hle))
    simp [hnone, hle]

/-- The number that up to four bytes stand for is a word. -/
lemma numberOf_lt_size (h : l.length ≤ 4) : numberOf l < UInt32.size :=
  Nat.lt_of_lt_of_le (numberOf_lt l) (Nat.pow_le_pow_right (by decide) h)

/-- Up to four bytes are fed as one word. -/
lemma run_eq_shifts (h : l.length ≤ 4) (s : UInt32) :
    run s l = shifts (8 * l.length) (s ^^^ UInt32.ofNat (numberOf l)) := by
  induction l generalizing s with
  | nil => exact (UInt32.xor_zero).symm
  | cons b rest ih =>
    have hsize : b.toNat + 2 ^ 8 * numberOf rest < UInt32.size := numberOf_lt_size h
    have hmoved : shifts 8 (UInt32.ofNat (2 ^ 8 * numberOf rest)) = UInt32.ofNat (numberOf rest) :=
      shifts_ofNat (by omega)
    have hword : UInt32.ofNat (numberOf (b :: rest)) =
        b.toUInt32 ^^^ UInt32.ofNat (2 ^ 8 * numberOf rest) := by
      show UInt32.ofNat (b.toNat + 2 ^ 8 * numberOf rest) = _
      rw [← xor_eq_add b.toNat_lt, UInt32.ofNat_xor, UInt32.ofNat_uInt8ToNat]
    calc run s (b :: rest)
        = shifts (8 * rest.length) (feed s b ^^^ UInt32.ofNat (numberOf rest)) :=
          ih (Nat.le_of_succ_le h) (feed s b)
      _ = shifts (8 * rest.length) (shifts 8 (s ^^^ UInt32.ofNat (numberOf (b :: rest)))) := by
          rw [hword, ← UInt32.xor_assoc, shifts_xor 8, hmoved]
          rfl
      _ = shifts (8 * (b :: rest).length) (s ^^^ UInt32.ofNat (numberOf (b :: rest))) := by
          rw [← shifts_add]
          rfl

/-- Up to four bytes lead to a state that no others lead to. -/
lemma eq_of_run_eq (hlength : l.length = l'.length) (hshort : l.length ≤ 4)
    (h : run s l = run s l') : l = l' := by
  rw [run_eq_shifts hshort, run_eq_shifts (hlength ▸ hshort), ← hlength] at h
  have hword := (UInt32.xor_right_inj _).mp (shifts_injective _ h)
  have hnumber : numberOf l = numberOf l' := by
    have htoNat := congrArg UInt32.toNat hword
    rwa [UInt32.toNat_ofNat_of_lt' (numberOf_lt_size hshort),
      UInt32.toNat_ofNat_of_lt' (numberOf_lt_size (hlength ▸ hshort))] at htoNat
  rw [← bytesOf_numberOf l, hnumber, hlength, bytesOf_numberOf]

end Checksum

/-- Byte strings that differ within up to four consecutive bytes have different checksums. -/
theorem checksum_burst_ne {burst burst' : List UInt8} (hlength : burst.length = burst'.length)
    (hshort : burst.length ≤ 4) (hne : burst ≠ burst') (front back : List UInt8) :
    checksum (front ++ burst ++ back) ≠ checksum (front ++ burst' ++ back) := by
  intro h
  have hrun := UInt32.not_inj.mp h
  simp only [Checksum.run_append] at hrun
  exact hne (Checksum.eq_of_run_eq hlength hshort (Checksum.run_injective back hrun))

end LiveTypes
