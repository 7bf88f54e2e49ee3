import LiveTypes.Proofs.Machine.Missing
import LiveTypes.Proofs.Machine.Safety

/-!
# Where running code goes

A run goes from point to point: on in its body, into the body that it calls, and on again after the call
came back. Every point that a run of sound code visits is sound (`Point.Sound.visits`), and a run that
misses an owner misses it at a point that it visits (`exists_raises_of_run`).
-/

namespace LiveTypes.Machine

open Run

/-- A point of a run: a body, an offset of it and the state there. -/
structure Point where
  body : Executable
  offset : Nat
  state : MachineState

namespace Point

variable {vm : Machine} {p q : Point}

/-- Where a run goes from a point. -/
inductive Follows (vm : Machine) (p : Point) : Point → Prop
  /-- To the following instruction -/
  | next {i : Instruction} {s : MachineState} (fetched : fetch p.body p.offset = .ok i)
      (done : step vm p.body i p.state = .ok .next s) : Follows vm p ⟨p.body, i.next, s⟩
  /-- To the target of a jump -/
  | jump {i : Instruction} {target : Nat} {s : MachineState}
      (fetched : fetch p.body p.offset = .ok i)
      (done : step vm p.body i p.state = .ok (.jump target) s) : Follows vm p ⟨p.body, target, s⟩
  /-- Into the body that is called -/
  | enter {i : Instruction} {target : Executable} {argc : Nat} {s s₁ : MachineState}
      (fetched : fetch p.body p.offset = .ok i)
      (done : step vm p.body i p.state = .ok (.call target argc) s)
      (entered : enter vm target argc s = .ok () s₁) : Follows vm p ⟨target, 0, s₁⟩
  /-- Past a call that came back -/
  | resume {i : Instruction} {target : Executable} {argc fuel : Nat} {v : Value}
      {s s₁ s₂ : MachineState} (fetched : fetch p.body p.offset = .ok i)
      (done : step vm p.body i p.state = .ok (.call target argc) s)
      (returned : call vm fuel target argc s = some (.ok v s₁))
      (pushed : pushResult target v s₁ = .ok () s₂) : Follows vm p ⟨p.body, i.next, s₂⟩

/-- What the instruction at a point comes to, if it does not fail. -/
def performed? (vm : Machine) (p : Point) : Option (Instruction × Flow × MachineState) :=
  match fetch p.body p.offset with
  | .error _ => none
  | .ok i =>
    match step vm p.body i p.state with
    | .ok flow s => some (i, flow, s)
    | .error _ _ => none

lemma performed?_eq_some {i : Instruction} {flow : Flow} {s : MachineState} :
    p.performed? vm = some (i, flow, s) ↔
      fetch p.body p.offset = .ok i ∧ step vm p.body i p.state = .ok flow s := by
  unfold performed?
  cases hi : fetch p.body p.offset with
  | error cause => simp
  | ok j =>
    cases hstep : step vm p.body j p.state with
    | error cause s' => aesop
    | ok flow' s' => aesop

/-- Where a run goes from a point, and into the body if the point is at a call. -/
def onward? (vm : Machine) (p : Point) : Option Point :=
  match p.performed? vm with
  | some (i, .next, s) => some ⟨p.body, i.next, s⟩
  | some (_, .jump target, s) => some ⟨p.body, target, s⟩
  | some (_, .call target argc, s) =>
    match enter vm target argc s with
    | .ok () s => some ⟨target, 0, s⟩
    | .error _ _ => none
  | _ => none

lemma follows_of_onward? (h : p.onward? vm = some q) : p.Follows vm q := by
  unfold onward? at h
  split at h
  · next i s hperformed =>
    obtain ⟨hi, hstep⟩ := performed?_eq_some.mp hperformed
    obtain rfl := Option.some.inj h
    exact .next hi hstep
  · next i target s hperformed =>
    obtain ⟨hi, hstep⟩ := performed?_eq_some.mp hperformed
    obtain rfl := Option.some.inj h
    exact .jump hi hstep
  · next i target argc s hperformed =>
    obtain ⟨hi, hstep⟩ := performed?_eq_some.mp hperformed
    split at h
    · next s₁ hentered =>
      obtain rfl := Option.some.inj h
      exact .enter hi hstep hentered
    · cases h
  · cases h

/-- Whether a run that starts at a point comes to another. -/
abbrev Visits (vm : Machine) : Point → Point → Prop := Relation.ReflTransGen (Follows vm)

/-- Where a run comes to in a number of steps, going into every call. -/
def after? (vm : Machine) : Nat → Point → Option Point
  | 0, p => some p
  | n + 1, p => (p.onward? vm).bind (after? vm n)

lemma visits_of_after? {n : Nat} (h : p.after? vm n = some q) : p.Visits vm q := by
  induction n generalizing p with
  | zero =>
    obtain rfl := Option.some.inj h
    exact .refl
  | succ n ih =>
    obtain ⟨p₁, hfirst, hrest⟩ := Option.bind_eq_some_iff.mp h
    exact .head (follows_of_onward? hfirst) (ih hrest)

def Raises (vm : Machine) (p : Point) (cause : VmError) : Prop :=
  ∃ i s, fetch p.body p.offset = .ok i ∧ step vm p.body i p.state = .error cause s

/-- A point at an instruction of a body of the registry, in a frame of the body. -/
structure Sound (vm : Machine) (p : Point) : Prop where
  body : vm.registry.HasBody p.body
  starts : p.body.Starts p.offset
  state : p.state.Sound vm.registry
  frame : InFrameOf p.body p.state

/-- The instruction at a sound point is a sound one of its body. -/
lemma Sound.instruction (hcode : vm.registry.SoundCode) (h : p.Sound vm) {i : Instruction}
    (hi : fetch p.body p.offset = .ok i) : p.body.Has i ∧ i.Sound vm.registry p.body ∧
      (i.opcode.isTerminator = false → p.body.Starts i.next) := by
  exact sound_of_fetch hcode h.body h.starts hi

/-- A run of sound code goes from a sound point to sound points. -/
lemma Sound.follows (hcode : vm.registry.SoundCode) (h : p.Sound vm) (hq : p.Follows vm q) :
    q.Sound vm := by
  have hafter {i : Instruction} {flow : Flow} {s : MachineState}
      (hi : fetch p.body p.offset = .ok i) (hdone : step vm p.body i p.state = .ok flow s) :
      s.Sound vm.registry ∧ InFrameOf p.body s ∧ Flow.Lands vm.registry p.body i flow s := by
    obtain ⟨hs, hgrows, hlands, -⟩ :=
      kept_of_step hcode (survives_true vm) h.body h.starts h.state trivial h.frame hi hdone
    exact ⟨hs, h.frame.grows hgrows, hlands⟩
  cases hq with
  | next hi hdone =>
    obtain ⟨hs, hframe, hlands⟩ := hafter hi hdone
    exact ⟨h.body, (h.instruction hcode hi).2.2 hlands, hs, hframe⟩
  | jump hi hdone =>
    obtain ⟨hs, hframe, hlands⟩ := hafter hi hdone
    exact ⟨h.body, hlands, hs, hframe⟩
  | @enter i target argc s s₁ hi hdone hentered =>
    obtain ⟨hs, -, htarget, -⟩ := hafter hi hdone
    have hsound := hcode target htarget
    obtain ⟨hs₁, -, hframe⟩ := sound_of_enter hs hsound.arguments_le hentered
    exact ⟨htarget, hsound.starts_zero, hs₁, hframe⟩
  | @resume i target argc fuel v s s₁ s₂ hi hdone hreturned hpushed =>
    obtain ⟨hs, hframe, htarget, hnext⟩ := hafter hi hdone
    obtain ⟨⟨hs₁, hgrows₁, hv⟩, -⟩ :=
      call_settles hcode (survives_true vm) htarget hs trivial hreturned
    obtain ⟨hs₂, hgrows₂, -⟩ := (keeps_pushResult hs₁ hv).of_ok hpushed
    exact ⟨h.body, (h.instruction hcode hi).2.2 hnext, hs₂,
      hframe.grows (hgrows₁.trans hgrows₂)⟩

/-- What survives the code of a registry holds of the heap wherever a run of sound code goes. -/
lemma Sound.survives (hcode : vm.registry.SoundCode) {P : Heap → Prop} (hP : vm.Survives P)
    (h : p.Sound vm) (hbefore : P p.state.heap) (hq : p.Follows vm q) : P q.state.heap := by
  have hkept {i : Instruction} {flow : Flow} {s : MachineState}
      (hi : fetch p.body p.offset = .ok i) (hdone : step vm p.body i p.state = .ok flow s) :=
    kept_of_step hcode hP h.body h.starts h.state hbefore h.frame hi hdone
  cases hq with
  | next hi hdone => exact (hkept hi hdone).2.2.2
  | jump hi hdone => exact (hkept hi hdone).2.2.2
  | @enter i target argc s s₁ hi hdone hentered =>
    obtain ⟨hs, -, ⟨htarget, -⟩, hheap⟩ := hkept hi hdone
    exact (sound_of_enter hs (hcode target htarget).arguments_le hentered).2.1 ▸ hheap
  | @resume i target argc fuel v s s₁ s₂ hi hdone hreturned hpushed =>
    obtain ⟨hs, -, ⟨htarget, -⟩, hheap⟩ := hkept hi hdone
    have hreturned := (call_settles hcode hP htarget hs hheap hreturned).2
    exact ((quiet_pushResult v).heap_of_ok hpushed) ▸ hreturned

/-- Every point that a run of sound code visits is sound. -/
theorem Sound.visits (hcode : vm.registry.SoundCode) (h : p.Sound vm) (hq : p.Visits vm q) :
    q.Sound vm := by
  induction hq with
  | refl => exact h
  | tail _ hfollows ih => exact ih.follows hcode hfollows

/-- What survives the code of a registry holds of the heap at every point that a run of sound code
visits. -/
theorem Sound.survives_visits (hcode : vm.registry.SoundCode) {P : Heap → Prop}
    (hP : vm.Survives P) (h : p.Sound vm) (hbefore : P p.state.heap) (hq : p.Visits vm q) :
    P q.state.heap := by
  induction hq with
  | refl => exact hbefore
  | tail hvisits hfollows ih => exact (h.visits hcode hvisits).survives hcode hP ih hfollows

end Point

variable {vm : Machine} {e target : Executable} {s s' : MachineState} {cause : VmError}
  {owner : String}

/-! ### Failures that miss an owner -/

lemma missing?_of_fetch {offset : Nat} (h : fetch e offset = .error cause) :
    cause.missing? = none := by
  unfold fetch at h
  split at h
  · cases h
  · obtain rfl := Except.error.inj h
    rfl
  · obtain rfl := Except.error.inj h
    rfl

lemma plain_openFrame (arguments locals : Nat) : (openFrame arguments locals).Plain := by
  refine plain_onStack fun stack e he => ?_
  unfold Stack.pushFrame at he
  split at he
  · obtain rfl := Except.error.inj he
    rfl
  · split at he
    · obtain rfl := Except.error.inj he
      rfl
    · dsimp only at he
      split at he
      · obtain rfl := Except.error.inj he
        rfl
      · cases he

lemma plain_enter (argc : Nat) : (enter vm target argc).Plain := by
  intro s cause s' hrun
  rcases Nat.lt_or_ge s.depth vm.maxCallDepth with hdepth | hdepth
  · rw [enter_of_lt hdepth] at hrun
    split at hrun
    · exact plain_throw rfl s cause s' hrun
    · have hrest : Run.Plain (do
          openFrame argc target.locals.toNat
          modify fun s => { s with depth := s.depth + 1 }) :=
        (plain_openFrame _ _).bind fun _ _ _ _ h => nomatch h
      exact hrest s cause s' hrun
  · rw [enter_of_le hdepth] at hrun
    obtain ⟨rfl, -⟩ := EStateM.Result.error.inj hrun
    rfl

lemma plain_leave : leave.Plain := by
  have hclose : closeFrame.Plain := by
    refine plain_onStack fun stack e he => ?_
    unfold Stack.popFrame at he
    split at he
    · cases he
    · obtain rfl := Except.error.inj he
      rfl
  have hmodify : (modify fun s => { s with depth := s.depth - 1 } : Run Unit).Plain :=
    fun _ _ _ h => nomatch h
  exact hmodify.bind fun _ => hclose.bind fun _ => plain_pure _

/-- Closing the frame of a body misses no owner that the body did not miss. -/
lemma error_of_finish {res : RunResult} (h : finish res = .error cause s')
    (howner : cause.missing? = some owner) : ∃ s, res = .error cause s := by
  cases res with
  | ok v s =>
    unfold finish at h
    dsimp only at h
    split at h
    · cases h
    · next e s₁ hleave =>
      obtain ⟨rfl, rfl⟩ := EStateM.Result.error.inj h
      exact absurd howner (plain_leave.not_missing hleave)
  | error e s =>
    unfold finish at h
    dsimp only at h
    split at h
    · obtain ⟨rfl, -⟩ := EStateM.Result.error.inj h
      exact ⟨s, rfl⟩
    · next e' s₁ hleave =>
      obtain ⟨rfl, rfl⟩ := EStateM.Result.error.inj h
      exact absurd howner (plain_leave.not_missing hleave)

/-- A call that misses an owner does so in its body. -/
lemma exists_of_callBy {body : Executable → MachineState → Option RunResult} {argc : Nat}
    (h : callBy vm body target argc s = some (.error cause s'))
    (howner : cause.missing? = some owner) :
    ∃ s₁ s₂, enter vm target argc s = .ok () s₁ ∧ body target s₁ = some (.error cause s₂) := by
  unfold callBy at h
  cases hentered : enter vm target argc s with
  | error e s₁ =>
    rw [hentered] at h
    obtain ⟨rfl, rfl⟩ := EStateM.Result.error.inj (Option.some.inj h)
    exact absurd howner ((plain_enter argc).not_missing hentered)
  | ok u s₁ =>
    rw [hentered] at h
    obtain ⟨res, hres, hfinish⟩ := Option.map_eq_some_iff.mp h
    obtain ⟨s₂, rfl⟩ := error_of_finish hfinish howner
    exact ⟨s₁, s₂, rfl, hres⟩

lemma plain_pushResult (v : Value) : (pushResult target v).Plain := by
  unfold pushResult
  split
  · exact plain_push v
  · exact plain_pure ()

/-- A run that misses an owner misses it at a point that it visits. -/
theorem exists_raises_of_run {n offset : Nat} (h : run vm n e offset s = some (.error cause s'))
    (howner : cause.missing? = some owner) :
    ∃ p, Point.Visits vm ⟨e, offset, s⟩ p ∧ p.Raises vm cause := by
  induction n generalizing e offset s s' with
  | zero => cases h
  | succ n ih =>
    cases comes_of_run h with
    | unread fetched =>
      rw [missing?_of_fetch fetched] at howner
      cases howner
    | failed fetched done => exact ⟨_, .refl, _, _, fetched, done⟩
    | next fetched done rest =>
      obtain ⟨p, hvisits, hraises⟩ := ih rest
      exact ⟨p, hvisits.head (.next fetched done), hraises⟩
    | jump fetched done rest =>
      obtain ⟨p, hvisits, hraises⟩ := ih rest
      exact ⟨p, hvisits.head (.jump fetched done), hraises⟩
    | raised fetched done called =>
      obtain ⟨s₁, s₂, hentered, hbody⟩ := exists_of_callBy called howner
      obtain ⟨p, hvisits, hraises⟩ := ih hbody
      exact ⟨p, hvisits.head (.enter fetched done hentered), hraises⟩
    | unpushed fetched done called pushed =>
      exact absurd howner ((plain_pushResult _).not_missing pushed)
    | resumed fetched done called pushed rest =>
      obtain ⟨p, hvisits, hraises⟩ := ih rest
      exact ⟨p, hvisits.head (.resume fetched done called pushed), hraises⟩

end LiveTypes.Machine
