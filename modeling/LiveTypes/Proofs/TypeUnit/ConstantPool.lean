import LiveTypes.TypeUnit.ConstantPool
import Mathlib.Tactic.Common

/-!
# Constants stay in place

A pool only grows, so a constant stays at its index. The text that is interned is found at the index
that it was given, as long as there are indices enough (`string?_intern`). Integers and doubles stay as
they are.
-/

namespace LiveTypes.ConstantPool

/-- A pool with more strings than there are indices. -/
def Overfull (p : ConstantPool) : Prop := UInt32.size < p.strings.size

/-- A constant that is there stays where it is. -/
lemma string?_mono {p q : ConstantPool} {index : UInt32} {text : String}
    (h : p.strings.toList <+: q.strings.toList) (hp : p.string? index = some text) :
    q.string? index = some text := by
  rw [string?, ← Array.getElem?_toList] at hp ⊢
  obtain ⟨rest, hrest⟩ := h
  rw [← hrest, List.getElem?_append_left (List.getElem?_eq_some_iff.mp hp).1, hp]

lemma size_intern_le (p : ConstantPool) (text : String) :
    (p.intern text).2.strings.size ≤ p.strings.size + 1 := by
  unfold intern
  split
  · exact Nat.le_succ _
  · simp [addString]

/-- A text that is not there is appended. -/
lemma intern_of_not_mem {p : ConstantPool} {text : String} (h : text ∉ p.strings.toList) :
    p.intern text = p.addString text := by
  have hnone : p.strings.idxOf? text = none := by
    rw [← p.strings.toArray_toList, List.idxOf?_toArray, List.idxOf?_eq_none_iff]
    exact h
  rw [intern, hnone]

/-- A text is at the index that it was given, unless the pool is overfull. -/
lemma string?_intern {p q : ConstantPool} {text : String}
    (h : (p.intern text).2.strings.toList <+: q.strings.toList) :
    q.Overfull ∨ q.string? (p.intern text).1 = some text := by
  by_cases hfull : q.Overfull
  · exact .inl hfull
  · refine .inr (string?_mono h ?_)
    have hsize : (p.intern text).2.strings.size ≤ UInt32.size := by
      have hlength := h.length_le
      simp only [Array.length_toList] at hlength
      exact Nat.le_trans hlength (Nat.le_of_not_lt hfull)
    unfold intern at hsize ⊢
    cases hindex : p.strings.idxOf? text with
    | none =>
      rw [hindex] at hsize
      simp only [addString, Array.size_push] at hsize
      simp only [addString, string?]
      rw [UInt32.toNat_ofNat_of_lt' (by omega)]
      simp
    | some k =>
      rw [hindex] at hsize
      have hindex : p.strings.toList.idxOf? text = some k := by
        rw [← List.idxOf?_toArray]
        exact hindex
      obtain ⟨hlt, htext, -⟩ := List.idxOf?_eq_some_iff.mp hindex
      have hlt : k < p.strings.size := by simpa using hlt
      simp only [string?]
      rw [UInt32.toNat_ofNat_of_lt' (Nat.lt_of_lt_of_le hlt hsize)]
      simpa [hlt] using htext

/-- The integers and the doubles of a pool. -/
def literals (p : ConstantPool) : List Int64 × List Double := (p.integers, p.floats)

@[simp] lemma literals_intern (p : ConstantPool) (text : String) :
    (p.intern text).2.literals = p.literals := by
  unfold intern
  split <;> rfl

end LiveTypes.ConstantPool
