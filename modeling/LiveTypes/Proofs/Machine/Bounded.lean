import LiveTypes.Proofs.Machine.Agree
import LiveTypes.Proofs.Machine.Comes
import LiveTypes.Proofs.Machine.Dispatch

/-!
# Bounded runs

A run is bounded by a number of steps, and a greater bound never changes what a run comes to
(`mono_run`). Two runs with bounds of their own match when each comes to a result as soon as the other
one does, and their results tally (`Matched`).
-/

namespace LiveTypes.Machine

open Run

variable {vm : Machine} {e target : Executable} {s : MachineState}

/-! ### One step -/

/-- What comes after a call came to a result. -/
def resume (vm : Machine) (e : Executable) (next : Nat) (target : Executable) (n : Nat) :
    RunResult → Option RunResult
  | .error cause s => some (.error cause s)
  | .ok v s =>
    match pushResult target v s with
    | .error cause s => some (.error cause s)
    | .ok _ s => run vm n e next s

/-- How a run goes on after a step. -/
def follow (vm : Machine) (e : Executable) (next n : Nat) :
    EStateM.Result VmError MachineState Flow → Option RunResult
  | .error cause s => some (.error cause s)
  | .ok .next s => run vm n e next s
  | .ok (.jump target) s => run vm n e target s
  | .ok (.ret v) s => some (.ok v s)
  | .ok (.call target argc) s => (call vm n target argc s).bind (resume vm e next target n)

lemma run_succ (vm : Machine) (n : Nat) (e : Executable) (offset : Nat) (s : MachineState) :
    run vm (n + 1) e offset s =
      match fetch e offset with
      | .error cause => some (.error cause s)
      | .ok i => follow vm e i.next n (step vm e i s) := by
  rw [run]
  cases fetch e offset with
  | error cause => rfl
  | ok i =>
    dsimp only
    rcases step vm e i s with ⟨flow, s₁⟩ | ⟨cause, s₁⟩
    · cases flow with
      | call target argc =>
        dsimp only [follow, call]
        rcases callBy vm (fun e s => run vm n e 0 s) target argc s₁ with - | ⟨v, s⟩ | ⟨cause, s⟩ <;>
          rfl
      | _ => rfl
    · rfl

lemma run_of_has {i : Instruction} (hi : e.Has i) (n : Nat) :
    run vm (n + 1) e i.offset s = follow vm e i.next n (step vm e i s) := by
  rw [run_succ, fetch_of_has hi]

/-! ### Greater bounds -/

lemma call_of_run {n m argc : Nat} {res : RunResult}
    (h : ∀ s res, run vm n target 0 s = some res → run vm m target 0 s = some res)
    (hres : call vm n target argc s = some res) : call vm m target argc s = some res := by
  simp only [call, callBy] at hres ⊢
  split at hres
  · exact hres
  · next s₁ _ =>
    obtain ⟨res₁, hres₁, rfl⟩ := Option.map_eq_some_iff.mp hres
    rw [h s₁ res₁ hres₁]
    rfl

lemma resume_of_run {n m next : Nat} {res res' : RunResult}
    (h : ∀ s res, run vm n e next s = some res → run vm m e next s = some res)
    (hres : resume vm e next target n res = some res') :
    resume vm e next target m res = some res' := by
  unfold resume at hres ⊢
  split at hres
  · exact hres
  · split at hres
    · exact hres
    · exact h _ _ hres

/-- A greater bound never changes what a run comes to. -/
theorem run_mono {n m offset : Nat} {res : RunResult} (hle : n ≤ m)
    (h : run vm n e offset s = some res) : run vm m e offset s = some res := by
  induction n generalizing m e offset s res with
  | zero => cases h
  | succ n ih =>
    obtain ⟨m, rfl⟩ : ∃ m', m = m' + 1 := ⟨m - 1, by omega⟩
    have hle : n ≤ m := Nat.le_of_succ_le_succ hle
    have hcall {target : Executable} {argc : Nat} {s : MachineState} {res : RunResult}
        (h : call vm n target argc s = some res) : call vm m target argc s = some res :=
      call_of_run (fun _ _ => ih hle) h
    rw [run_succ_eq_some] at h ⊢
    cases h with
    | unread fetched => exact .unread fetched
    | failed fetched done => exact .failed fetched done
    | next fetched done rest => exact .next fetched done (ih hle rest)
    | jump fetched done rest => exact .jump fetched done (ih hle rest)
    | ret fetched done => exact .ret fetched done
    | raised fetched done called => exact .raised fetched done (hcall called)
    | unpushed fetched done called pushed => exact .unpushed fetched done (hcall called) pushed
    | resumed fetched done called pushed rest =>
      exact .resumed fetched done (hcall called) pushed (ih hle rest)

/-- What code comes to in a bounded number of steps. -/
abbrev Bounded := Nat → Option RunResult

/-- Whether a greater bound never changes a result. -/
def Bounded.Mono (x : Bounded) : Prop := ∀ n m res, n ≤ m → x n = some res → x m = some res

lemma mono_const (o : Option RunResult) : Bounded.Mono fun _ => o := fun _ _ _ _ h => h

lemma mono_call (target : Executable) (argc : Nat) (s : MachineState) :
    Bounded.Mono fun n => call vm n target argc s :=
  fun _ _ _ hle h => call_of_run (fun _ _ => run_mono hle) h

lemma mono_invoke (find : Run Executable) (receiver : Option Value) (arguments : List Value)
    (s : MachineState) : Bounded.Mono fun n => invoke vm n find receiver arguments s := by
  intro n m res hle h
  simp only [invoke] at h ⊢
  split at h
  · exact h
  · exact mono_call _ _ _ n m res hle h

lemma mono_resume (next : Nat) (target : Executable) (res : RunResult) :
    Bounded.Mono fun n => resume vm e next target n res :=
  fun _ _ _ hle h => resume_of_run (fun _ _ => run_mono hle) h

namespace Bounded

variable {x x' y y' c c' : Bounded} {f f' : Nat → RunResult → Option RunResult} {k : Nat}
  {T U : RunResult → RunResult → Prop} {res res' : RunResult}

/-- All results of a bounded run are the same. -/
lemma Mono.eq (hx : x.Mono) {n m : Nat} (hn : x n = some res) (hm : x m = some res') :
    res = res' := by
  have hn' := hx n (max n m) res (Nat.le_max_left n m) hn
  have hm' := hx m (max n m) res' (Nat.le_max_right n m) hm
  exact Option.some.inj (hn'.symm.trans hm')

lemma Mono.map (hx : x.Mono) (f : RunResult → RunResult) : Mono fun n => (x n).map f := by
  intro n m res hle h
  obtain ⟨res₁, hres₁, rfl⟩ := Option.map_eq_some_iff.mp h
  show (x m).map f = _
  rw [hx n m res₁ hle hres₁]
  rfl

/-! ### Runs that match -/

/-- Whether what one run comes to within a bound belongs to whatever the other one comes to, or to
something that it does come to, if with another bound. -/
def Reaches (k : Nat) (T : RunResult → RunResult → Prop) (x x' : Bounded) : Prop :=
  ∀ n ≤ k, ∀ res, x n = some res →
    (∀ res', T res res') ∨ ∃ m res', x' m = some res' ∧ T res res'

/-- Whether two runs come to results that belong together, up to a bound. -/
structure Matched (k : Nat) (T : RunResult → RunResult → Prop) (x x' : Bounded) : Prop where
  left : Reaches k T x x'
  right : Reaches k (fun res' res => T res res') x' x

lemma Matched.imp (h : Matched k T x x') (hU : ∀ res res', T res res' → U res res') :
    Matched k U x x' where
  left n hn res hres := (h.left n hn res hres).imp (fun hfree res' => hU _ _ (hfree res'))
    fun ⟨m, res', hm, ht⟩ => ⟨m, res', hm, hU _ _ ht⟩
  right n hn res' hres' := (h.right n hn res' hres').imp (fun hfree res => hU _ _ (hfree res))
    fun ⟨m, res, hm, ht⟩ => ⟨m, res, hm, hU _ _ ht⟩

lemma Reaches.shift {a b : Nat} (hx : ∀ n, x (a + n) = y n) (hnone : ∀ n < a, x n = none)
    (hx' : ∀ n, x' (b + n) = y' n) (h : Reaches k T y y') : Reaches (k + a) T x x' := by
  intro n hn res hres
  rcases Nat.lt_or_ge n a with hlt | hge
  · rw [hnone n hlt] at hres
    cases hres
  · obtain ⟨n, rfl⟩ := Nat.exists_eq_add_of_le hge
    rw [hx] at hres
    rcases h n (by omega) res hres with hfree | ⟨m, res', hm, ht⟩
    · exact .inl hfree
    · exact .inr ⟨b + m, res', (hx' m).trans hm, ht⟩

/-- Runs that match after some steps on either side. -/
lemma Matched.shift {a b : Nat} (hx : ∀ n, x (a + n) = y n) (hnone : ∀ n < a, x n = none)
    (hx' : ∀ n, x' (b + n) = y' n) (hnone' : ∀ n < b, x' n = none) (h : Matched k T y y') :
    Matched (k + min a b) T x x' where
  left n hn := (h.left.shift hx hnone hx') n (by omega)
  right n hn := (h.right.shift hx' hnone' hx) n (by omega)

lemma Reaches.bind (hc : Reaches k T c c') (hc' : c'.Mono) (hf' : ∀ res, Mono fun n => f' n res)
    (hfree : ∀ n res out, (∀ res', T res res') → f n res = some out → ∀ out', U out out')
    (hf : ∀ n m res res', c n = some res → c' m = some res' → T res res' →
      Reaches k U (fun n => f n res) fun n => f' n res') :
    Reaches k U (fun n => (c n).bind (f n)) fun n => (c' n).bind (f' n) := by
  intro n hn out hout
  obtain ⟨res, hres, hout⟩ := Option.bind_eq_some_iff.mp hout
  rcases hc n hn res hres with hres' | ⟨m, res', hm, ht⟩
  · exact .inl (hfree n res out hres' hout)
  · rcases hf n m res res' hres hm ht n hn out hout with hout' | ⟨m', out', hm', hu⟩
    · exact .inl hout'
    · refine .inr ⟨max m m', out', Option.bind_eq_some_iff.mpr ⟨res', ?_, ?_⟩, hu⟩
      · exact hc' m _ _ (Nat.le_max_left m m') hm
      · exact hf' res' m' _ _ (Nat.le_max_right m m') hm'

/-- Runs that match and then go on to match. -/
lemma Matched.bind (hc : Matched k T c c') (hmono : c.Mono) (hmono' : c'.Mono)
    (hf : ∀ res, Mono fun n => f n res) (hf' : ∀ res, Mono fun n => f' n res)
    (hfree : ∀ n res out, (∀ res', T res res') → f n res = some out → ∀ out', U out out')
    (hfree' : ∀ n res' out', (∀ res, T res res') → f' n res' = some out' → ∀ out, U out out')
    (h : ∀ n res res', c n = some res → T res res' →
      Matched k U (fun n => f n res) fun n => f' n res') :
    Matched k U (fun n => (c n).bind (f n)) fun n => (c' n).bind (f' n) where
  left := hc.left.bind hmono' hf' hfree fun n _ res res' hres _ ht => (h n res res' hres ht).left
  right := hc.right.bind hmono hf hfree' fun _ n res' res _ hres ht => (h n res res' hres ht).right

/-- Matching runs whose results are brought to an end. -/
lemma Matched.map {f f' : RunResult → RunResult} (hc : Matched k T c c')
    (hfree : ∀ res, (∀ res', T res res') → ∀ out', U (f res) out')
    (hfree' : ∀ res', (∀ res, T res res') → ∀ out, U out (f' res'))
    (h : ∀ res res', T res res' → U (f res) (f' res')) :
    Matched k U (fun n => (c n).map f) fun n => (c' n).map f' := by
  constructor
  · intro n hn out hout
    obtain ⟨res, hres, rfl⟩ := Option.map_eq_some_iff.mp hout
    rcases hc.left n hn res hres with hres' | ⟨m, res', hm, ht⟩
    · exact .inl (hfree res hres')
    · exact .inr ⟨m, f' res', Option.map_eq_some_iff.mpr ⟨res', hm, rfl⟩, h res res' ht⟩
  · intro n hn out' hout'
    obtain ⟨res', hres', rfl⟩ := Option.map_eq_some_iff.mp hout'
    rcases hc.right n hn res' hres' with hres | ⟨m, res, hm, ht⟩
    · exact .inl (hfree' res' hres)
    · exact .inr ⟨m, f res, Option.map_eq_some_iff.mpr ⟨res, hm, rfl⟩, h res res' ht⟩

lemma Reaches.of_mono {n m : Nat} (hx : x.Mono) (hn : x n = some res) (hm : x' m = some res')
    (ht : T res res') : Reaches k T x x' := by
  intro n' _ out hout
  obtain rfl := hx.eq hn hout
  exact .inr ⟨m, res', hm, ht⟩

/-- Runs that both come to a result match when the results belong together. -/
lemma Matched.of_mono {n m : Nat} (hx : x.Mono) (hx' : x'.Mono) (hn : x n = some res)
    (hm : x' m = some res') (ht : T res res') : Matched k T x x' :=
  ⟨.of_mono hx hn hm ht, .of_mono hx' hm hn ht⟩

lemma Matched.const (ht : T res res') : Matched k T (fun _ => some res) fun _ => some res' :=
  .of_mono (n := 0) (m := 0) (mono_const _) (mono_const _) rfl rfl ht

/-- A run that comes to what belongs to everything matches every other one. -/
lemma Matched.of_free {n : Nat} (hx : x.Mono) (hn : x n = some res) (hfree : ∀ res', T res res') :
    Matched k T x x' := by
  constructor
  · intro m _ out hout
    obtain rfl := hx.eq hn hout
    exact .inl hfree
  · exact fun m _ res' _ => .inr ⟨n, res, hn, hfree res'⟩

lemma Matched.of_free' {n : Nat} (hx' : x'.Mono) (hn : x' n = some res')
    (hfree : ∀ res, T res res') : Matched k T x x' := by
  constructor
  · exact fun m _ res _ => .inr ⟨n, res', hn, hfree res⟩
  · intro m _ out hout
    obtain rfl := hx'.eq hn hout
    exact .inl hfree

lemma Matched.zero (hx : x 0 = none) (hx' : x' 0 = none) : Matched 0 T x x' := by
  constructor
  · intro n hn res hres
    rw [Nat.le_zero.mp hn, hx] at hres
    cases hres
  · intro n hn res hres
    rw [Nat.le_zero.mp hn, hx'] at hres
    cases hres

end Bounded

/-! ### Lack of room -/

section Tallies

variable {σ : Renaming} {P Q : MachineState → MachineState → Prop} {R : Value → Value → Prop}
  {res res' : RunResult}

/-- Only a lack of room belongs to every other result. -/
lemma limit_of_forall (h : ∀ res', Tallies σ P Q R res res') :
    ∃ e s s', res = .error e s ∧ e.IsLimit ∧ Q s s' := by
  have hok := h (.ok .null (startState .empty))
  cases hok with
  | limit he hs => exact ⟨_, _, _, rfl, he, hs⟩
  | ok =>
    have herror := h (.error .nullPointer (startState .empty))
    cases herror with
    | limit' he => exact he.elim

lemma limit_of_forall' (h : ∀ res, Tallies σ P Q R res res') :
    ∃ e s s', res' = .error e s' ∧ e.IsLimit ∧ Q s s' := by
  have hok := h (.ok .null (startState .empty))
  cases hok with
  | limit' he hs => exact ⟨_, _, _, rfl, he, hs⟩
  | ok =>
    have herror := h (.error .nullPointer (startState .empty))
    cases herror with
    | limit he => exact he.elim

end Tallies

end LiveTypes.Machine
