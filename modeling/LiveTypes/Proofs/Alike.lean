import LiveTypes.Proofs.Outcome
import Mathlib.Data.List.Forall2

/-!
# Two computations side by side

Two computations are alike when they fail in the same way or give results that belong together, and they
are when their parts are. What is found at the same place of lists that belong together belongs together.
-/

namespace LiveTypes.Outcome

variable {ε ε' α α' β β' : Type} {R : α → α' → Prop} {Q : β → β' → Prop}

/-- Whether two computations fail in the same way, or give results that belong together. -/
inductive Alike (R : α → α' → Prop) : Except ε α → Except ε α' → Prop
  | ok {a : α} {a' : α'} (h : R a a') : Alike R (.ok a) (.ok a')
  | error (e : ε) : Alike R (.error e) (.error e)

namespace Alike

variable {x y : Except ε α} {x' y' : Except ε α'}

lemma of_eq {R : α → α → Prop} (h : x = y) (hR : ∀ a, R a a) : Alike R x y := by
  subst h
  cases x with
  | ok a => exact .ok (hR a)
  | error e => exact .error e

/-- What comes after results that belong together. -/
lemma bind_of_eq {f : α → Except ε β} {f' : α' → Except ε β'} (hx : Alike R x x')
    (hf : ∀ a a', x = .ok a → x' = .ok a' → R a a' → Alike Q (f a) (f' a')) :
    Alike Q (x >>= f) (x' >>= f') := by
  cases hx with
  | ok h => exact hf _ _ rfl rfl h
  | error e => exact .error e

lemma bind {f : α → Except ε β} {f' : α' → Except ε β'} (hx : Alike R x x')
    (hf : ∀ a a', R a a' → Alike Q (f a) (f' a')) : Alike Q (x >>= f) (x' >>= f') :=
  hx.bind_of_eq fun a a' _ _ h => hf a a' h

/-- What is the same in both computations comes to the same. -/
lemma after {f : α → Except ε β} {f' : α → Except ε β'} (hf : ∀ a, Alike Q (f a) (f' a)) :
    Alike Q (x >>= f) (x >>= f') := by
  cases x with
  | ok a => exact hf a
  | error e => exact .error e

lemma ite {p : Prop} [Decidable p] (hx : p → Alike R x x') (hy : ¬ p → Alike R y y') :
    Alike R (if p then x else y) (if p then x' else y') := by
  split_ifs with hp
  · exact hx hp
  · exact hy hp

lemma map {f : α → β} {f' : α' → β'} (hx : Alike R x x')
    (hf : ∀ a a', R a a' → Q (f a) (f' a')) : Alike Q (x.map f) (x'.map f') := by
  cases hx with
  | ok h => exact .ok (hf _ _ h)
  | error e => exact .error e

lemma mapError (f : ε → ε') (hx : Alike R x x') : Alike R (x.mapError f) (x'.mapError f) := by
  cases hx with
  | ok h => exact .ok h
  | error e => exact .error (f e)

end Alike

/-! ### Two successes -/

/-- Whether two computations give results that belong together when both give any. -/
def Meet (R : α → α' → Prop) (x : Except ε α) (x' : Except ε' α') : Prop :=
  ∀ a a', x = .ok a → x' = .ok a' → R a a'

namespace Meet

variable {x y : Except ε α} {x' y' : Except ε' α'}

lemma ok {a : α} {a' : α'} (h : R a a') : Meet R (.ok a : Except ε α) (.ok a' : Except ε' α') := by
  rintro _ _ ⟨⟩ ⟨⟩
  exact h

lemma error (e : ε) : Meet R (.error e) x' := nofun

lemma error' (e : ε') : Meet R x (.error e) := nofun

lemma bind_of_eq {f : α → Except ε β} {f' : α' → Except ε' β'} (hx : Meet R x x')
    (hf : ∀ a a', x = .ok a → x' = .ok a' → R a a' → Meet Q (f a) (f' a')) :
    Meet Q (x >>= f) (x' >>= f') := by
  intro b b' hb hb'
  obtain ⟨a, ha, hb⟩ := bind_eq_ok.mp hb
  obtain ⟨a', ha', hb'⟩ := bind_eq_ok.mp hb'
  exact hf a a' ha ha' (hx a a' ha ha') b b' hb hb'

lemma bind {f : α → Except ε β} {f' : α' → Except ε' β'} (hx : Meet R x x')
    (hf : ∀ a a', R a a' → Meet Q (f a) (f' a')) : Meet Q (x >>= f) (x' >>= f') :=
  hx.bind_of_eq fun a a' _ _ h => hf a a' h

/-- What is the same in both computations comes to the same. -/
lemma after {f : α → Except ε β} {f' : α → Except ε β'} (hf : ∀ a, x = .ok a → Meet Q (f a) (f' a)) :
    Meet Q (x >>= f) (x >>= f') := by
  have hx : Meet Eq x x := fun a a' ha ha' => Except.ok.inj (ha.symm.trans ha')
  exact hx.bind_of_eq fun a _ ha _ h => h ▸ hf a ha

lemma ite {p : Prop} [Decidable p] (hx : p → Meet R x x') (hy : ¬ p → Meet R y y') :
    Meet R (if p then x else y) (if p then x' else y') := by
  split_ifs with hp
  · exact hx hp
  · exact hy hp

/-- Where only the second computation asks. -/
lemma ite' {p : Prop} [Decidable p] (hx : p → Meet R x x') (hy : ¬ p → Meet R x y') :
    Meet R x (if p then x' else y') := by
  split_ifs with hp
  · exact hx hp
  · exact hy hp

end Meet

/-! ### Lists -/

/-- Two optional values that belong together are both there or both missing. -/
lemma rel_cases {o : Option α} {o' : Option α'} (h : Option.Rel R o o') :
    (o = none ∧ o' = none) ∨ ∃ a a', o = some a ∧ o' = some a' ∧ R a a' := by
  cases h with
  | none => exact .inl ⟨rfl, rfl⟩
  | some h => exact .inr ⟨_, _, rfl, rfl, h⟩

lemma rel_map {f : α → α'} (o : Option α) (h : ∀ a, R a (f a)) : Option.Rel R o (o.map f) := by
  cases o with
  | none => exact .none
  | some a => exact .some (h a)

variable {l : List α} {l' : List α'}

lemma rel_find? {p : α → Bool} {p' : α' → Bool} (h : List.Forall₂ R l l')
    (hp : ∀ a a', R a a' → p' a' = p a) : Option.Rel R (l.find? p) (l'.find? p') := by
  induction h with
  | nil => exact .none
  | cons ha _ ih =>
    rw [List.find?_cons, List.find?_cons, hp _ _ ha]
    split
    · exact .some ha
    · exact ih

lemma rel_getElem? (h : List.Forall₂ R l l') (k : Nat) : Option.Rel R l[k]? l'[k]? := by
  induction h generalizing k with
  | nil => exact .none
  | cons ha _ ih =>
    cases k with
    | zero => exact .some ha
    | succ k => exact ih k

lemma rel_getLast? (h : List.Forall₂ R l l') : Option.Rel R l.getLast? l'.getLast? := by
  rw [List.getLast?_eq_getElem?, List.getLast?_eq_getElem?, ← h.length_eq]
  exact rel_getElem? h _

/-- Each member of one list has its counterpart in the other. -/
lemma exists_mem_of_forall₂ {a : α} (h : List.Forall₂ R l l') (ha : a ∈ l) : ∃ a' ∈ l', R a a' := by
  obtain ⟨k, hk⟩ := List.mem_iff_getElem?.mp ha
  rcases rel_cases (rel_getElem? h k) with ⟨hnone, -⟩ | ⟨b, a', hb, ha', hrel⟩
  · rw [hk] at hnone
    cases hnone
  · rw [hk] at hb
    cases hb
    exact ⟨a', List.mem_of_getElem? ha', hrel⟩

lemma forall₂_set (h : List.Forall₂ R l l') (k : Nat) {a : α} {a' : α'} (ha : R a a') :
    List.Forall₂ R (l.set k a) (l'.set k a') := by
  induction h generalizing k with
  | nil => exact .nil
  | cons hb hl ih =>
    cases k with
    | zero => exact .cons ha hl
    | succ k => exact .cons hb (ih k)

/-- A check of every member of lists that belong together. -/
lemma forM_eq_forM {f : α → Except ε Unit} {f' : α' → Except ε Unit} (h : List.Forall₂ R l l')
    (hf : ∀ a a', R a a' → f' a' = f a) : l'.forM f' = l.forM f := by
  induction h with
  | nil => rfl
  | cons ha _ ih =>
    exact congrArg₂ (fun x (y : Except ε Unit) => x >>= fun _ => y) (hf _ _ ha) ih

end LiveTypes.Outcome
