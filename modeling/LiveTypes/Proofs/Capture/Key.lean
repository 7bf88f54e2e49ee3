import LiveTypes.Capture.Site
import Mathlib.Tactic.Common

/-!
# Keys of capture sites

Redirected code names a site by the key of its method and its place there. The site is found again
from its key as long as that place is a 32-bit number (`ofKey?_key`).
-/

namespace LiveTypes

lemma Text.splitLast_append {sep : Char} {a b : List Char} (h : sep ∉ b) :
    splitLast sep (a ++ sep :: b) = some (a, b) := by
  induction a with
  | nil => simp [splitLast, splitLast_eq_none_iff.mpr h]
  | cons c rest ih => rw [List.cons_append, splitLast, ih]

namespace SiteId

lemma digit?_of_isDigit {c : Char} (h : c.isDigit = true) : digit? c = some (c.toNat - 48) := by
  rw [digit?, if_pos]
  · rfl
  · have hrange : 48 ≤ c.val ∧ c.val ≤ 57 := by simpa [Char.isDigit] using h
    exact hrange

lemma readDigits_of_isDigit {digits : List Char} {value : Nat}
    (h : ∀ c ∈ digits, c.isDigit = true) :
    readDigits value digits = some (Nat.ofDigitChars 10 digits value) := by
  induction digits generalizing value with
  | nil => rfl
  | cons c rest ih =>
    obtain ⟨hc, hrest⟩ := List.forall_mem_cons.mp h
    rw [readDigits, digit?_of_isDigit hc, Option.bind_some, ih hrest, Nat.ofDigitChars_cons]
    rfl

/-- A 32-bit number is read back from its decimal digits. -/
lemma readOrdinal_toDigits {n : Nat} (h : n < UInt32.size) :
    readOrdinal (Nat.toDigits 10 n) = some n := by
  have hdigits : ∀ c ∈ Nat.toDigits 10 n, c.isDigit = true := fun c hc =>
    Nat.isDigit_of_mem_toDigits (by decide) (Nat.le_refl 10) hc
  have hread : readDigits 0 (Nat.toDigits 10 n) = some n := by
    rw [readDigits_of_isDigit hdigits, Nat.ofDigitChars_ten_toDigits]
  unfold readOrdinal
  -- no digit is a plus sign
  split
  · next rest hplus =>
    have := hdigits '+' (hplus ▸ List.mem_cons_self)
    simp at this
  · rw [if_neg (by simp), hread]
    simpa using h

/-- A site is found again from its key. -/
theorem ofKey?_key {s : SiteId} (h : s.ordinal < UInt32.size) :
    ofKey? s.declaring s.key = some s := by
  have hdigits : '#' ∉ Nat.toDigits 10 s.ordinal := by
    intro hmem
    have := Nat.isDigit_of_mem_toDigits (by decide) (Nat.le_refl 10) hmem
    simp at this
  have hkey : s.key.toList = s.method.toList ++ '#' :: Nat.toDigits 10 s.ordinal := by
    simp [key, Nat.toList_repr]
  rw [ofKey?, hkey, Text.splitLast_append hdigits]
  simp [readOrdinal_toDigits h]

/-- The sites of one method have different keys. -/
lemma key_injective (declaring : TypeId) (method : String) :
    Function.Injective fun n => key ⟨declaring, method, n⟩ := by
  intro n n' h
  have hdigits : Nat.toDigits 10 n = Nat.toDigits 10 n' := by
    have hlist := congrArg String.toList h
    simpa [key, Nat.toList_repr] using hlist
  have hvalue := congrArg (fun digits => Nat.ofDigitChars 10 digits 0) hdigits
  simpa only [Nat.ofDigitChars_ten_toDigits] using hvalue

end SiteId

end LiveTypes
