import LiveTypes.Machine.Run
import Mathlib.Tactic.Common

/-!
# How a run comes to a result

A run comes to a result by its first instruction and what follows it. There is one case for each way in
which this can go (`run_succ_eq_some`), so that what holds of every run is proved case by case.
-/

namespace LiveTypes.Machine

variable {vm : Machine} {n : Nat} {e : Executable} {offset : Nat} {s : MachineState} {res : RunResult}

/-- How a run from an offset comes to a result, when it has a number of nested steps left after the
first instruction. -/
inductive Comes (vm : Machine) (n : Nat) (e : Executable) (offset : Nat) (s : MachineState) :
    RunResult → Prop
  /-- There is no instruction to perform. -/
  | unread {cause : VmError} (fetched : fetch e offset = .error cause) :
      Comes vm n e offset s (.error cause s)
  /-- The instruction fails. -/
  | failed {i : Instruction} {cause : VmError} {s₁ : MachineState} (fetched : fetch e offset = .ok i)
      (done : step vm e i s = .error cause s₁) : Comes vm n e offset s (.error cause s₁)
  /-- The following instruction goes on. -/
  | next {i : Instruction} {s₁ : MachineState} {res : RunResult} (fetched : fetch e offset = .ok i)
      (done : step vm e i s = .ok .next s₁) (rest : run vm n e i.next s₁ = some res) :
      Comes vm n e offset s res
  /-- The target of a jump goes on. -/
  | jump {i : Instruction} {target : Nat} {s₁ : MachineState} {res : RunResult}
      (fetched : fetch e offset = .ok i) (done : step vm e i s = .ok (.jump target) s₁)
      (rest : run vm n e target s₁ = some res) : Comes vm n e offset s res
  /-- The body returns. -/
  | ret {i : Instruction} {v : Value} {s₁ : MachineState} (fetched : fetch e offset = .ok i)
      (done : step vm e i s = .ok (.ret v) s₁) : Comes vm n e offset s (.ok v s₁)
  /-- A call fails. -/
  | raised {i : Instruction} {target : Executable} {argc : Nat} {cause : VmError}
      {s₁ s₂ : MachineState} (fetched : fetch e offset = .ok i)
      (done : step vm e i s = .ok (.call target argc) s₁)
      (called : call vm n target argc s₁ = some (.error cause s₂)) :
      Comes vm n e offset s (.error cause s₂)
  /-- There is no room for what a call returned. -/
  | unpushed {i : Instruction} {target : Executable} {argc : Nat} {v : Value} {cause : VmError}
      {s₁ s₂ s₃ : MachineState} (fetched : fetch e offset = .ok i)
      (done : step vm e i s = .ok (.call target argc) s₁)
      (called : call vm n target argc s₁ = some (.ok v s₂))
      (pushed : pushResult target v s₂ = .error cause s₃) :
      Comes vm n e offset s (.error cause s₃)
  /-- The following instruction goes on after a call came back. -/
  | resumed {i : Instruction} {target : Executable} {argc : Nat} {v : Value}
      {s₁ s₂ s₃ : MachineState} {res : RunResult} (fetched : fetch e offset = .ok i)
      (done : step vm e i s = .ok (.call target argc) s₁)
      (called : call vm n target argc s₁ = some (.ok v s₂))
      (pushed : pushResult target v s₂ = .ok () s₃) (rest : run vm n e i.next s₃ = some res) :
      Comes vm n e offset s res

lemma comes_of_run (h : run vm (n + 1) e offset s = some res) : Comes vm n e offset s res := by
  rw [run] at h
  cases hi : fetch e offset with
  | error cause =>
    rw [hi] at h
    obtain rfl := Option.some.inj h
    exact .unread hi
  | ok i =>
    rw [hi] at h
    dsimp only at h
    cases hstep : step vm e i s with
    | error cause s₁ =>
      rw [hstep] at h
      obtain rfl := Option.some.inj h
      exact .failed hi hstep
    | ok flow s₁ =>
      rw [hstep] at h
      cases flow with
      | next => exact .next hi hstep h
      | jump target => exact .jump hi hstep h
      | ret v =>
        obtain rfl := Option.some.inj h
        exact .ret hi hstep
      | call target argc =>
        dsimp only at h
        split at h
        · cases h
        · next cause s₂ hcall =>
          obtain rfl := Option.some.inj h
          exact .raised hi hstep hcall
        · next v s₂ hcall =>
          split at h
          · next cause s₃ hpushed =>
            obtain rfl := Option.some.inj h
            exact .unpushed hi hstep hcall hpushed
          · next u s₃ hpushed => exact .resumed hi hstep hcall hpushed h

/-- A run comes to a result in one of these ways. -/
theorem run_succ_eq_some : run vm (n + 1) e offset s = some res ↔ Comes vm n e offset s res := by
  refine ⟨comes_of_run, fun h => ?_⟩
  rw [run]
  cases h with
  | unread fetched => rw [fetched]
  | failed fetched done | ret fetched done => simp only [fetched, done]
  | next fetched done rest | jump fetched done rest => simp only [fetched, done, rest]
  | raised fetched done called =>
    rw [call] at called
    simp only [fetched, done, called]
  | unpushed fetched done called pushed =>
    rw [call] at called
    simp only [fetched, done, called, pushed]
  | resumed fetched done called pushed rest =>
    rw [call] at called
    simp only [fetched, done, called, pushed, rest]

end LiveTypes.Machine
