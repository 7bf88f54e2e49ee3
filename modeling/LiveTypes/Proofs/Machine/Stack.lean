import LiveTypes.Machine.Stack
import Mathlib.Tactic.Common

/-!
# What stack operations give

Every operation either succeeds with a stack that is said here, or fails for lack of room or of
operands. Only a local that its frame does not have, or a frame that cannot hold its arguments, makes
a failure of another kind.
-/

namespace LiveTypes.Stack

variable {s : Stack} {v : Value}

lemma floor_cons {f : Frame} {rest : List Frame} (h : s.frames = f :: rest) :
    s.floor = f.base + f.locals := by
  unfold floor
  rw [h]
  rfl

lemma push_cases (s : Stack) (v : Value) :
    s.push v = .ok { s with slots := s.slots.push v } ∨ s.push v = .error .stackOverflow := by
  unfold push
  split
  · exact .inr rfl
  · exact .inl rfl

lemma pop_cases (s : Stack) :
    (∃ v, s.floor < s.slots.size ∧ s.slots.back? = some v ∧
        s.pop = .ok (v, { s with slots := s.slots.pop })) ∨
      s.pop = .error .stackUnderflow := by
  unfold pop
  split
  · exact .inr rfl
  · next hlt =>
    cases hback : s.slots.back? with
    | some v => exact .inl ⟨v, Nat.not_le.mp hlt, rfl, rfl⟩
    | none => exact .inr rfl

lemma peek_cases (s : Stack) (n : Nat) :
    (∃ v ∈ s.slots, s.peek n = .ok v) ∨ s.peek n = .error .stackUnderflow := by
  unfold peek
  split
  · exact .inr rfl
  · cases hv : s.slots[s.slots.size - 1 - n]? with
    | some v => exact .inl ⟨v, Array.mem_of_getElem? hv, rfl⟩
    | none => exact .inr rfl

def HasLocal (s : Stack) (index : Nat) : Prop :=
  ∃ f rest, s.frames = f :: rest ∧ index < f.locals

lemma localPlace_cases (s : Stack) (index : Nat) :
    (∃ place, s.localPlace index = .ok place) ∨
      ¬ s.HasLocal index ∧ ∃ e, s.localPlace index = .error e := by
  unfold localPlace HasLocal
  cases hframes : s.frames with
  | nil => exact .inr ⟨by simp, _, rfl⟩
  | cons f rest =>
    by_cases hlt : f.locals ≤ index
    · refine .inr ⟨?_, .runtime (.localOutOfBounds index f.locals), if_pos hlt⟩
      rintro ⟨f', rest', heq, hlt'⟩
      obtain ⟨rfl, rfl⟩ := List.cons.inj heq
      omega
    · exact .inl ⟨_, if_neg hlt⟩

lemma loadLocal_cases (s : Stack) (index : Nat) :
    (∃ v, (v ∈ s.slots ∨ v = .null) ∧ s.loadLocal index = .ok v) ∨
      ¬ s.HasLocal index ∧ ∃ e, s.loadLocal index = .error e := by
  unfold loadLocal
  rcases s.localPlace_cases index with ⟨place, hplace⟩ | ⟨hnone, e, he⟩
  · refine .inl ⟨s.slots.getD place .null, ?_, by rw [hplace]; rfl⟩
    rw [Array.getD_eq_getD_getElem?]
    cases hv : s.slots[place]? with
    | some v => exact .inl (Array.mem_of_getElem? hv)
    | none => exact .inr rfl
  · exact .inr ⟨hnone, e, by rw [he]; rfl⟩

lemma storeLocal_cases (s : Stack) (index : Nat) (v : Value) :
    (∃ place, s.storeLocal index v =
        .ok { s with slots := s.slots.setIfInBounds place v }) ∨
      ¬ s.HasLocal index ∧ ∃ e, s.storeLocal index v = .error e := by
  unfold storeLocal
  rcases s.localPlace_cases index with ⟨place, hplace⟩ | ⟨hnone, e, he⟩
  · exact .inl ⟨place, by rw [hplace]⟩
  · exact .inr ⟨hnone, e, by rw [he]⟩

lemma pushFrame_cases (hfloor : s.floor ≤ s.slots.size) (arguments locals : Nat) :
    (∃ base, s.floor ≤ base ∧ base + arguments = s.slots.size ∧ arguments ≤ locals ∧
        s.pushFrame arguments locals = .ok { s with
          slots := s.slots ++ Array.replicate (locals - arguments) Value.null
          frames := ⟨base, locals, arguments⟩ :: s.frames }) ∨
      ∃ e, s.pushFrame arguments locals = .error e ∧
        (e = .stackUnderflow ∨ e = .stackOverflow ∨
          locals < arguments ∧ e = .runtime (.argumentsDoNotFit arguments locals)) := by
  unfold pushFrame
  split
  · next hlt => exact .inr ⟨_, rfl, .inr (.inr ⟨hlt, rfl⟩)⟩
  · next hle =>
    split
    · exact .inr ⟨_, rfl, .inl rfl⟩
    · next henough =>
      dsimp only
      split
      · exact .inr ⟨_, rfl, .inr (.inl rfl)⟩
      · exact .inl ⟨_, by omega, by omega, Nat.not_lt.mp hle, rfl⟩

lemma popFrame_cons {f : Frame} {rest : List Frame} (h : s.frames = f :: rest) :
    s.popFrame = .ok (f, { s with slots := s.slots.shrink f.base, frames := rest }) := by
  unfold popFrame
  rw [h]

end LiveTypes.Stack
