import LiveTypes.Machine.State
import Mathlib.Tactic.Common

/-!
# Successful actions

What an action of running code did when it succeeded, part by part.
-/

namespace LiveTypes.Run

variable {α β : Type} {s s' : MachineState}

lemma bind_eq_ok {x : Run α} {f : α → Run β} {b : β} :
    (x >>= f) s = .ok b s' ↔ ∃ a s₁, x s = .ok a s₁ ∧ f a s₁ = .ok b s' := by
  show (EStateM.bind x f) s = _ ↔ _
  unfold EStateM.bind
  cases x s <;> simp

lemma bind_of_ok {x : Run α} {f : α → Run β} {a : α} (h : x s = .ok a s') :
    (x >>= f) s = f a s' := by
  show (EStateM.bind x f) s = _
  unfold EStateM.bind
  rw [h]

lemma bind_of_error {x : Run α} {f : α → Run β} {e : VmError} (h : x s = .error e s') :
    (x >>= f) s = .error e s' := by
  show (EStateM.bind x f) s = _
  unfold EStateM.bind
  rw [h]

lemma bind_eq_error {x : Run α} {f : α → Run β} {e : VmError} :
    (x >>= f) s = .error e s' ↔
      x s = .error e s' ∨ ∃ a s₁, x s = .ok a s₁ ∧ f a s₁ = .error e s' := by
  show (EStateM.bind x f) s = _ ↔ _
  unfold EStateM.bind
  cases x s <;> simp

lemma pure_eq_ok {a b : α} : (pure a : Run α) s = .ok b s' ↔ a = b ∧ s = s' := by
  show EStateM.Result.ok a s = _ ↔ _
  simp

lemma get_eq_ok {a : MachineState} : (get : Run MachineState) s = .ok a s' ↔ s = a ∧ s = s' := by
  show EStateM.Result.ok s s = _ ↔ _
  simp

lemma throw_ne_ok {e : VmError} {a : α} : (throw e : Run α) s ≠ .ok a s' := by
  show EStateM.Result.error e s ≠ _
  simp

lemma lift_eq_ok {r : Except VmError α} {a : α} : lift r s = .ok a s' ↔ r = .ok a ∧ s = s' := by
  cases r with
  | ok b => simp [lift, pure_eq_ok]
  | error e => simp [lift, throw_ne_ok]

lemma require_eq_ok {e : VmError} {o : Option α} {a : α} :
    require e o s = .ok a s' ↔ o = some a ∧ s = s' := by
  cases o with
  | some b => simp [require, pure_eq_ok]
  | none => simp [require, throw_ne_ok]

lemma ite_throw_eq_ok {p : Prop} [Decidable p] {e : VmError} {x : Run α} {a : α} :
    (if p then x else throw e) s = .ok a s' ↔ p ∧ x s = .ok a s' := by
  split_ifs with hp <;> simp [hp, throw_ne_ok]

lemma onStack_eq_ok {f : Stack → Except VmError (α × Stack)} {a : α} :
    onStack f s = .ok a s' ↔
      f s.stack = .ok (a, s'.stack) ∧ s'.heap = s.heap ∧ s'.depth = s.depth := by
  obtain ⟨stack, heap, depth⟩ := s
  obtain ⟨stack', heap', depth'⟩ := s'
  simp only [onStack]
  cases h : f stack with
  | error e => simp
  | ok r =>
    obtain ⟨b, stack''⟩ := r
    simp only [EStateM.Result.ok.injEq, MachineState.mk.injEq, Except.ok.injEq, Prod.mk.injEq]
    constructor
    · rintro ⟨rfl, rfl, rfl, rfl⟩
      exact ⟨⟨rfl, rfl⟩, rfl, rfl⟩
    · rintro ⟨⟨rfl, rfl⟩, rfl, rfl⟩
      exact ⟨rfl, rfl, rfl, rfl⟩

lemma onStack_of_error {f : Stack → Except VmError (α × Stack)} {e : VmError}
    (h : f s.stack = .error e) : onStack f s = .error e s := by
  obtain ⟨stack, heap, depth⟩ := s
  simp only [onStack]
  rw [show f stack = .error e from h]

/-- Popping takes the top of the slots. -/
lemma pop_eq_ok {v : Value} :
    pop s = .ok v s' ↔ s.stack.floor < s.stack.slots.size ∧ s.stack.slots.back? = some v ∧
      s' = { s with stack := { s.stack with slots := s.stack.slots.pop } } := by
  obtain ⟨stack', heap', depth'⟩ := s'
  rw [pop, onStack_eq_ok, Stack.pop]
  split_ifs with hfloor
  · simp
    omega
  · cases hback : s.stack.slots.back? with
    | none => simp
    | some w =>
      simp only [Except.ok.injEq, Prod.mk.injEq, Option.some.injEq, MachineState.mk.injEq]
      constructor
      · rintro ⟨⟨rfl, rfl⟩, rfl, rfl⟩
        exact ⟨by omega, rfl, rfl, rfl, rfl⟩
      · rintro ⟨-, rfl, rfl, rfl, rfl⟩
        exact ⟨⟨rfl, rfl⟩, rfl, rfl⟩

/-- Pushing puts a value on top of the slots. -/
lemma push_eq_ok {v : Value} {u : Unit} :
    push v s = .ok u s' ↔ s.stack.slots.size < s.stack.limit ∧
      s' = { s with stack := { s.stack with slots := s.stack.slots.push v } } := by
  obtain ⟨stack', heap', depth'⟩ := s'
  rw [push, onStack_eq_ok, Stack.push]
  split_ifs with hlimit
  · simp [Except.map]
    omega
  · simp only [Except.map, Except.ok.injEq, Prod.mk.injEq, true_and, MachineState.mk.injEq]
    constructor
    · rintro ⟨rfl, rfl, rfl⟩
      exact ⟨by omega, rfl, rfl, rfl⟩
    · rintro ⟨-, rfl, rfl, rfl⟩
      exact ⟨rfl, rfl, rfl⟩

/-- Nothing is pushed on a full stack. -/
lemma push_of_le {v : Value} (hfull : s.stack.limit ≤ s.stack.slots.size) :
    push v s = .error .stackOverflow s := by
  have hpush : s.stack.push v = .error .stackOverflow := if_pos hfull
  refine onStack_of_error ?_
  rw [hpush]
  rfl

lemma allocate_eq_ok {o : HeapObject} {id : ObjectId} :
    allocate o s = .ok id s' ↔ id = s.heap.objects.size ∧
      s' = { s with heap := { s.heap with objects := s.heap.objects.push o } } := by
  obtain ⟨stack, heap, depth⟩ := s
  simp only [allocate, Heap.allocate, EStateM.Result.ok.injEq]
  constructor <;> rintro ⟨rfl, rfl⟩ <;> exact ⟨rfl, rfl⟩

/-- Popping many takes the top of the slots, the lowest first. -/
lemma popMany_eq_ok {n : Nat} {above values : List Value} :
    popMany n above s = .ok values s' → ∃ taken, values = taken ++ above ∧ taken.length = n ∧
      s.stack.slots.toList = s'.stack.slots.toList ++ taken ∧ s'.heap = s.heap := by
  induction n generalizing s above with
  | zero =>
    intro h
    obtain ⟨rfl, rfl⟩ := pure_eq_ok.mp h
    exact ⟨[], rfl, rfl, by simp, rfl⟩
  | succ n ih =>
    intro h
    obtain ⟨v, s₁, hpop, hrest⟩ := bind_eq_ok.mp h
    obtain ⟨-, hback, rfl⟩ := pop_eq_ok.mp hpop
    obtain ⟨taken, rfl, hlength, hslots, hheap⟩ := ih hrest
    refine ⟨taken ++ [v], by simp, by simp [hlength], ?_, hheap⟩
    have hlast : s.stack.slots.toList = s.stack.slots.pop.toList ++ [v] := by
      obtain ⟨below, hbelow⟩ := Array.back?_eq_some_iff.mp hback
      simp [hbelow]
    rw [hlast, hslots, List.append_assoc]

end LiveTypes.Run
