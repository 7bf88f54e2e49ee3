import LiveTypes.Proofs.Machine.Callee
import LiveTypes.Proofs.Machine.Frames
import LiveTypes.Proofs.Machine.Visits

/-!
# The limit of depth

Running code cannot see the limit of its calls: until a call is refused for depth, a run under one limit
is the run under every greater one (`run_of_le`). A run that fails for depth ends at a call that is
refused while as many calls are open as the limit allows, each of a dispatcher or an implementation of a
registered type (`exists_refused_of_run`).
-/

namespace LiveTypes.Machine

open Run

variable {vm : Machine} {r : Registry} {d d' : Nat} {e target : Executable} {s s' : MachineState}
  {argc : Nat} {res : RunResult}

/-- Whether code came to a failure for depth. -/
def IsCut : RunResult → Prop
  | .ok _ _ => False
  | .error cause _ => cause.isCutoff = true

/-! ### Greater limits -/

/-- No instruction depends on the limit. -/
lemma step_limit (d d' : Nat) (i : Instruction) : step ⟨r, d⟩ e i = step ⟨r, d'⟩ e i := by
  unfold step
  cases i.operands <;> rfl

lemma enter_of_limit_le (hle : d ≤ d') (h : enter ⟨r, d⟩ target argc s = .ok () s') :
    enter ⟨r, d'⟩ target argc s = .ok () s' := by
  obtain ⟨hdepth, hargc, stack, hpush, rfl⟩ := enter_eq_ok.mp h
  exact enter_eq_ok.mpr ⟨Nat.lt_of_lt_of_le hdepth hle, hargc, stack, hpush, rfl⟩

lemma enter_error_of_limit_le {cause : VmError} (hle : d ≤ d')
    (h : enter ⟨r, d⟩ target argc s = .error cause s) (hcut : cause.isCutoff = false) :
    enter ⟨r, d'⟩ target argc s = .error cause s := by
  rcases Nat.lt_or_ge s.depth d with hdepth | hdepth
  · have hlimit : s.depth < (⟨r, d⟩ : Machine).maxCallDepth := hdepth
    have hlimit' : s.depth < (⟨r, d'⟩ : Machine).maxCallDepth := Nat.lt_of_lt_of_le hdepth hle
    rw [enter_of_lt hlimit']
    rwa [enter_of_lt hlimit] at h
  · have hlimit : (⟨r, d⟩ : Machine).maxCallDepth ≤ s.depth := hdepth
    rw [enter_of_le hlimit] at h
    obtain ⟨rfl, -⟩ := EStateM.Result.error.inj h
    cases hcut

/-- A call that is not cut off is the same under every greater limit, if its body is. -/
lemma call_of_limit_le {n : Nat} (hle : d ≤ d')
    (hrun : ∀ s res, run ⟨r, d⟩ n target 0 s = some res → ¬ IsCut res →
      run ⟨r, d'⟩ n target 0 s = some res)
    (h : call ⟨r, d⟩ n target argc s = some res) (hcut : ¬ IsCut res) :
    call ⟨r, d'⟩ n target argc s = some res := by
  rcases call_cases h with ⟨cause, hrefused, rfl⟩ | ⟨s₁, res₁, hentered, hres₁, heq, -⟩
  · have hrefused := enter_error_of_limit_le hle hrefused (Bool.not_eq_true _ ▸ hcut)
    unfold call callBy
    rw [hrefused]
  · have hcut₁ : ¬ IsCut res₁ := by
      rw [heq] at hcut
      cases res₁ <;> exact hcut
    unfold call callBy at h ⊢
    rw [hentered] at h
    rw [enter_of_limit_le hle hentered]
    dsimp only at h ⊢
    rw [hres₁] at h
    rw [hrun s₁ res₁ hres₁ hcut₁]
    exact h

/-- Until a call is refused for depth, a run is the same under every greater limit. -/
theorem run_of_limit_le (hle : d ≤ d') {n offset : Nat} (h : run ⟨r, d⟩ n e offset s = some res)
    (hcut : ¬ IsCut res) : run ⟨r, d'⟩ n e offset s = some res := by
  induction n generalizing e offset s res with
  | zero => cases h
  | succ n ih =>
    have hcall {target : Executable} {argc : Nat} {s : MachineState} {res : RunResult}
        (h : call ⟨r, d⟩ n target argc s = some res) (hcut : ¬ IsCut res) :
        call ⟨r, d'⟩ n target argc s = some res :=
      call_of_limit_le hle (fun _ _ => ih) h hcut
    have hstep {i : Instruction} {res : EStateM.Result VmError MachineState Flow}
        (h : step ⟨r, d⟩ e i s = res) : step ⟨r, d'⟩ e i s = res :=
      step_limit d d' i ▸ h
    rw [run_succ_eq_some] at h ⊢
    cases h with
    | unread fetched => exact .unread fetched
    | failed fetched done => exact .failed fetched (hstep done)
    | next fetched done rest => exact .next fetched (hstep done) (ih rest hcut)
    | jump fetched done rest => exact .jump fetched (hstep done) (ih rest hcut)
    | ret fetched done => exact .ret fetched (hstep done)
    | raised fetched done called =>
      exact .raised fetched (hstep done) (hcall called hcut)
    | unpushed fetched done called pushed =>
      exact .unpushed fetched (hstep done) (hcall called id) pushed
    | resumed fetched done called pushed rest =>
      exact .resumed fetched (hstep done) (hcall called id) pushed (ih rest hcut)

/-! ### Open calls -/

/-- Whether a run that starts at a point comes to another one, with calls of these bodies open there, the
innermost first. -/
inductive Point.Nests (vm : Machine) (start : Point) : List Executable → Point → Prop
  | start : Nests vm start [start.body] start
  /-- To the following instruction -/
  | next {bodies : List Executable} {p : Point} {i : Instruction} {s : MachineState}
      (nests : Nests vm start bodies p) (fetched : fetch p.body p.offset = .ok i)
      (done : step vm p.body i p.state = .ok .next s) : Nests vm start bodies ⟨p.body, i.next, s⟩
  /-- To the target of a jump -/
  | jump {bodies : List Executable} {p : Point} {i : Instruction} {target : Nat} {s : MachineState}
      (nests : Nests vm start bodies p) (fetched : fetch p.body p.offset = .ok i)
      (done : step vm p.body i p.state = .ok (.jump target) s) :
      Nests vm start bodies ⟨p.body, target, s⟩
  /-- Into the body that is called, which opens one more call -/
  | enter {bodies : List Executable} {p : Point} {i : Instruction} {target : Executable} {argc : Nat}
      {s s₁ : MachineState} (nests : Nests vm start bodies p)
      (fetched : fetch p.body p.offset = .ok i)
      (done : step vm p.body i p.state = .ok (.call target argc) s)
      (entered : enter vm target argc s = .ok () s₁) :
      Nests vm start (target :: bodies) ⟨target, 0, s₁⟩
  /-- Past a call that came back -/
  | resume {bodies : List Executable} {p : Point} {i : Instruction} {target : Executable}
      {argc fuel : Nat} {v : Value} {s s₁ s₂ : MachineState} (nests : Nests vm start bodies p)
      (fetched : fetch p.body p.offset = .ok i)
      (done : step vm p.body i p.state = .ok (.call target argc) s)
      (returned : call vm fuel target argc s = some (.ok v s₁))
      (pushed : pushResult target v s₁ = .ok () s₂) : Nests vm start bodies ⟨p.body, i.next, s₂⟩

/-- Whether these are the bodies whose calls are open in a state, the innermost first: each is a
dispatcher or an implementation, and each has a frame of its own and counts once in the depth. -/
structure Stacked (vm : Machine) (bodies : List Executable) (s : MachineState) : Prop where
  bodies_have : ∀ e ∈ bodies, vm.registry.HasBody e
  frames_eq : s.stack.frames.map Frame.locals = bodies.map fun e => e.locals.toNat
  depth_eq : s.depth = bodies.length
  depth_le : s.depth ≤ vm.maxCallDepth
  floor_le : s.stack.floor ≤ s.stack.slots.size

variable {bodies : List Executable} {start p : Point}

lemma Stacked.stays (h : Stacked vm bodies s) (hstays : s.stack.Stays s'.stack)
    (hdepth : s'.depth = s.depth) : Stacked vm bodies s' where
  bodies_have := h.bodies_have
  frames_eq := hstays.frames_eq ▸ h.frames_eq
  depth_eq := hdepth.trans h.depth_eq
  depth_le := hdepth ▸ h.depth_le
  floor_le := hstays.floor_le

/-- An action that stays in its frame opens and closes no call. -/
lemma Stacked.contained {α : Type} {x : Run α} {a : α} (h : Stacked vm bodies s)
    (hx : x.Contained) (hrun : x s = .ok a s') : Stacked vm bodies s' := by
  obtain ⟨hstays, hdepth⟩ := hx.of_ok h.floor_le hrun
  exact h.stays hstays hdepth

/-- A call that is entered is one more. -/
lemma Stacked.enter (h : Stacked vm bodies s) (htarget : vm.registry.HasBody target) {u : Unit}
    (hentered : enter vm target argc s = .ok u s') : Stacked vm (target :: bodies) s' := by
  obtain ⟨hdepth, -, stack, hpush, rfl⟩ := enter_eq_ok.mp hentered
  have hfloor := Stack.floor_le_pushFrame hpush
  obtain ⟨-, -, -, rfl⟩ := Stack.pushFrame_eq_ok.mp hpush
  exact ⟨List.forall_mem_cons.mpr ⟨htarget, h.bodies_have⟩, congrArg (List.cons _) h.frames_eq,
    congrArg Nat.succ h.depth_eq, hdepth, hfloor⟩

lemma Stacked.call {fuel : Nat} {v : Value} (h : Stacked vm bodies s)
    (hreturned : call vm fuel target argc s = some (.ok v s')) : Stacked vm bodies s' := by
  rcases call_cases hreturned with ⟨cause, -, hres⟩ | ⟨s₁, res₁, hentered, -, -, hunloaded⟩
  · cases hres
  · obtain ⟨-, -, stack, hpush, -⟩ := enter_eq_ok.mp hentered
    obtain ⟨-, hargc, -⟩ := Stack.pushFrame_eq_ok.mp hpush
    exact h.stays (hunloaded.stays h.floor_le hargc) hunloaded.depth_eq

/-- The bodies that a run has open at a point are those of its frames there. -/
theorem Point.Nests.stacked (hstart : Stacked vm [start.body] start.state)
    (h : start.Nests vm bodies p) : Stacked vm bodies p.state := by
  induction h with
  | start => exact hstart
  | next _ _ done ih => exact ih.contained (composes_contained.step vm _ _) done
  | jump _ _ done ih => exact ih.contained (composes_contained.step vm _ _) done
  | enter _ _ done entered ih =>
    exact (ih.contained (composes_contained.step vm _ _) done).enter (calls_body done) entered
  | resume _ _ done returned pushed ih =>
    exact ((ih.contained (composes_contained.step vm _ _) done).call returned).contained
      (composes_contained.pushResult _ _) pushed

lemma uncut_fetch {offset : Nat} {cause : VmError} (h : fetch e offset = .error cause) :
    cause.isCutoff = false := by
  unfold fetch at h
  split at h
  · cases h
  · obtain rfl := Except.error.inj h
    rfl
  · obtain rfl := Except.error.inj h
    rfl

/-- A run that fails for depth ends at a call that is refused for depth. -/
theorem exists_refused_of_run {n offset : Nat} {cause : VmError}
    (hnests : start.Nests vm bodies ⟨e, offset, s⟩)
    (h : run vm n e offset s = some (.error cause s')) (hcut : cause.isCutoff = true) :
    ∃ bodies p i target argc s₁, start.Nests vm bodies p ∧ fetch p.body p.offset = .ok i ∧
      step vm p.body i p.state = .ok (.call target argc) s₁ ∧
      Machine.enter vm target argc s₁ = .error cause s₁ := by
  induction n generalizing e offset s s' bodies with
  | zero => cases h
  | succ n ih =>
    cases comes_of_run h with
    | unread fetched =>
      rw [uncut_fetch fetched] at hcut
      cases hcut
    | failed fetched done =>
      rw [composes_uncut.step vm e _ _ _ _ done] at hcut
      cases hcut
    | next fetched done rest => exact ih (hnests.next fetched done) rest
    | jump fetched done rest => exact ih (hnests.jump fetched done) rest
    | raised fetched done called =>
      rcases call_cases called with ⟨cause, hrefused, heq⟩ | ⟨s₂, res, hentered, hres, heq, -⟩
      · obtain ⟨rfl, -⟩ := EStateM.Result.error.inj heq
        exact ⟨bodies, _, _, _, _, _, hnests, fetched, done, hrefused⟩
      · cases res with
        | ok v s₃ => cases heq
        | error cause s₃ =>
          obtain ⟨rfl, -⟩ := EStateM.Result.error.inj heq
          exact ih (hnests.enter fetched done hentered) hres
    | unpushed fetched done called pushed =>
      rw [composes_uncut.pushResult _ _ _ _ _ pushed] at hcut
      cases hcut
    | resumed fetched done called pushed rest =>
      exact ih (hnests.resume fetched done called pushed) rest

end LiveTypes.Machine
