import LiveTypes.Machine.Invoke
import LiveTypes.Proofs.Machine.Comes
import LiveTypes.Proofs.Machine.Effect
import LiveTypes.Proofs.Machine.Sound

/-!
# Running sound code

A body of sound code starts at its first instruction in a frame with its locals, and control stays at
its instructions. So however long it runs and whatever it calls, it never fails structurally, and its
frame is the top one again when it comes to a result (`run_settles`). The same holds of everything
that a host invokes. What every single instruction keeps of the heap, they all keep (`Survives`).
-/

namespace LiveTypes.Machine

open Run

variable {vm : Machine} {e target : Executable} {s : MachineState}

/-- Whether the top frame is one for a body. -/
def InFrameOf (e : Executable) (s : MachineState) : Prop :=
  ∃ f rest, s.stack.frames = f :: rest ∧ f.locals = e.locals.toNat

lemma InFrameOf.hasLocal (h : InFrameOf e s) : ∀ n < e.locals.toNat, s.stack.HasLocal n := by
  obtain ⟨f, rest, hframes, hlocals⟩ := h
  intro n hn
  exact ⟨f, rest, hframes, hlocals ▸ hn⟩

lemma InFrameOf.grows {s' : MachineState} (h : InFrameOf e s) (hgrows : s.Grows s') :
    InFrameOf e s' := by
  obtain ⟨f, rest, hframes, hlocals⟩ := h
  exact ⟨f, rest, hgrows.frames_eq.trans hframes, hlocals⟩

/-- What holds of the value that running code gives. -/
abbrev Given (v : Value) (s : MachineState) : Prop := s.heap.Holds v

/-- Whether what holds of a heap still holds after any instruction of the code of the registry. -/
def Survives (vm : Machine) (P : Heap → Prop) : Prop :=
  ∀ e i s, vm.registry.HasBody e → e.Has i → s.Sound vm.registry → P s.heap →
    Ends P P (step vm e i) s

lemma survives_true (vm : Machine) : vm.Survives fun _ => True := by
  intro e i s _ _ _ _
  unfold Ends
  split <;> trivial

/-- What survives every effect that an instruction of the code may have survives the code. -/
lemma survives_of_effect {P : Heap → Prop} (hr : vm.registry.WellFormed)
    (h : ∀ e i heap write heap', vm.registry.HasBody e → e.Has i → P heap →
      TypedEffect vm.registry (vm.Makes e i) heap write heap' → P heap') : vm.Survives P := by
  intro e i s he hi hs hp
  have heffect := @step_affects vm e s i hr hs.stack
  unfold Ends
  split
  · next hrun => exact h e i s.heap _ _ he hi hp (heffect.of_ok hrun)
  · next hrun => exact h e i s.heap _ _ he hi hp (heffect.of_error hrun)

abbrev finalHeap (res : RunResult) : Heap := (outcome res).2

/-! ### Calls -/

lemma enter_of_le (hdepth : vm.maxCallDepth ≤ s.depth) (argc : Nat) :
    enter vm target argc s = .error (.callDepthExceeded vm.maxCallDepth) s := by
  show (if vm.maxCallDepth ≤ s.depth then _ else _ : Run Unit) s = _
  rw [if_pos hdepth]
  rfl

lemma enter_of_lt (hdepth : s.depth < vm.maxCallDepth) (argc : Nat) :
    enter vm target argc s = (if argc ≠ target.argSlots then
      throw (.typeError (.argumentSlots target.key target.argSlots argc)) else do
        Run.openFrame argc target.locals.toNat
        modify fun s => { s with depth := s.depth + 1 } : Run Unit) s := by
  show (if vm.maxCallDepth ≤ s.depth then _ else _ : Run Unit) s = _
  rw [if_neg (Nat.not_le.mpr hdepth)]
  split <;> rfl

lemma enter_of_pushFrame {argc : Nat} {stack : Stack} (hdepth : s.depth < vm.maxCallDepth)
    (hargc : argc = target.argSlots)
    (hpush : s.stack.pushFrame argc target.locals.toNat = .ok stack) :
    enter vm target argc s = .ok () ⟨stack, s.heap, s.depth + 1⟩ := by
  rw [enter_of_lt hdepth, if_neg (not_not.mpr hargc)]
  show EStateM.bind (Run.openFrame argc target.locals.toNat) _ s = _
  simp only [EStateM.bind, Run.openFrame, Run.onStack, hpush, Except.map]
  rfl

lemma enter_of_pushFrame_error {argc : Nat} {e : VmError} (hdepth : s.depth < vm.maxCallDepth)
    (hargc : argc = target.argSlots)
    (hpush : s.stack.pushFrame argc target.locals.toNat = .error e) :
    enter vm target argc s = .error e s := by
  rw [enter_of_lt hdepth, if_neg (not_not.mpr hargc)]
  show EStateM.bind (Run.openFrame argc target.locals.toNat) _ s = _
  simp only [EStateM.bind, Run.openFrame, Run.onStack, hpush, Except.map]

/-- A call either fails before its frame is opened or runs in a frame of its own. -/
lemma enter_cases {r : Registry} (hs : s.Sound r) (htarget : target.argSlots ≤ target.locals.toNat)
    (argc : Nat) :
    (∃ s', enter vm target argc s = .ok () s' ∧ s'.Sound r ∧ s'.heap = s.heap ∧
      s'.stack.limit = s.stack.limit ∧ ∃ f, s'.stack.frames = f :: s.stack.frames ∧
        f.locals = target.locals.toNat ∧ s.stack.floor ≤ f.base ∧
        f.base + argc = s.stack.slots.size) ∨
      ∃ e, enter vm target argc s = .error e s ∧ e.Tolerated r := by
  rcases (Nat.lt_or_ge s.depth vm.maxCallDepth).symm with hdepth | hdepth
  · exact .inr ⟨_, enter_of_le hdepth argc, .of_not id⟩
  by_cases heq : argc = target.argSlots
  · rcases Stack.pushFrame_cases hs.floor_le argc target.locals.toNat with
      ⟨base, hbase, hsize, hle, hpush⟩ | ⟨e, herror, he⟩
    · left
      refine ⟨⟨{ s.stack with
          slots := s.stack.slots ++ Array.replicate (target.locals.toNat - argc) Value.null
          frames := ⟨base, target.locals.toNat, argc⟩ :: s.stack.frames }, s.heap, s.depth + 1⟩,
        enter_of_pushFrame hdepth heq hpush, ⟨hs.heap, fun v hv => ?_, ?_⟩, rfl, rfl, _, rfl, rfl,
        hbase, hsize⟩
      · rcases Array.mem_append.mp hv with hv | hv
        · exact hs.stack v hv
        · rw [(Array.mem_replicate.mp hv).2]
          trivial
      · show base + target.locals.toNat ≤ _
        rw [Array.size_append, Array.size_replicate]
        omega
    · refine .inr ⟨e, enter_of_pushFrame_error hdepth heq herror, ?_⟩
      rcases he with rfl | rfl | ⟨hlt, -⟩
      · exact .of_not id
      · exact .of_not id
      · omega
  · rw [enter_of_lt hdepth, if_pos heq]
    exact .inr ⟨_, rfl, .of_not id⟩

/-- A call that is entered runs in a frame of its own, on the heap as it was. -/
lemma sound_of_enter {r : Registry} {argc : Nat} {u : Unit} {s' : MachineState} (hs : s.Sound r)
    (htarget : target.argSlots ≤ target.locals.toNat) (h : enter vm target argc s = .ok u s') :
    s'.Sound r ∧ s'.heap = s.heap ∧ InFrameOf target s' := by
  rcases @enter_cases vm target s r hs htarget argc with
    ⟨s₁, hentered, hs₁, hheap, -, f, hframes, hlocals, -⟩ | ⟨e, hrefused, -⟩
  · obtain ⟨-, rfl⟩ := EStateM.Result.ok.inj (hentered.symm.trans h)
    exact ⟨hs₁, hheap, f, _, hframes, hlocals⟩
  · rw [hrefused] at h
    cases h

/-- Closing the top frame gives the frames below it, and touches nothing else. -/
lemma leave_eq {f : Frame} {rest : List Frame} (h : s.stack.frames = f :: rest) :
    leave s = .ok () ⟨{ s.stack with slots := s.stack.slots.shrink f.base, frames := rest },
      s.heap, s.depth - 1⟩ := by
  show EStateM.bind Run.closeFrame _ { s with depth := s.depth - 1 } = _
  simp only [EStateM.bind, Run.closeFrame, Run.onStack, s.stack.popFrame_cons h]
  rfl

lemma mem_of_mem_shrink {a : Array Value} {n : Nat} {v : Value} (h : v ∈ a.shrink n) : v ∈ a := by
  rw [← Array.mem_toList_iff, Array.toList_shrink] at h
  exact Array.mem_toList_iff.mp (List.mem_of_mem_take h)

/-- A body that settles in a frame of its own settles for the caller when the frame is closed. -/
lemma finish_settles {r : Registry} {s₁ : MachineState} {f : Frame} {res : RunResult}
    (h : Settles r Given s₁ res) (hheap : s₁.heap = s.heap) (hlimit : s₁.stack.limit = s.stack.limit)
    (hframes : s₁.stack.frames = f :: s.stack.frames) (hbase : s.stack.floor ≤ f.base) :
    Settles r Given s (finish res) := by
  cases res with
  | ok v s₂ =>
    obtain ⟨hs₂, hgrows, hv⟩ := h
    have hframes₂ := hgrows.frames_eq.trans hframes
    rw [finish, leave_eq hframes₂]
    refine ⟨⟨hs₂.heap, fun w hw => hs₂.stack w (mem_of_mem_shrink hw), ?_⟩,
      ⟨rfl, hgrows.limit_eq.trans hlimit, hheap ▸ hgrows.heap⟩, hv⟩
    -- nothing below the operands of the frame was popped
    have hfloor := hs₂.floor_le
    rw [Stack.floor_cons hframes₂] at hfloor
    show s.stack.floor ≤ (s₂.stack.slots.shrink f.base).size
    rw [Array.size_shrink]
    omega
  | error e s₂ =>
    obtain ⟨hheap₂, hgrows, he⟩ := h
    rw [finish, leave_eq (hgrows.frames_eq.trans hframes)]
    exact ⟨hheap₂, ⟨rfl, hgrows.limit_eq.trans hlimit, hheap ▸ hgrows.heap⟩, he⟩

lemma finalHeap_finish {r : Registry} {s₁ : MachineState} {f : Frame} {res : RunResult}
    (h : Settles r Given s₁ res) (hframes : s₁.stack.frames = f :: s.stack.frames) :
    finalHeap (finish res) = finalHeap res := by
  cases res with
  | ok v s₂ => rw [finish, leave_eq (h.2.1.frames_eq.trans hframes)]; rfl
  | error e s₂ => rw [finish, leave_eq (h.2.1.frames_eq.trans hframes)]; rfl

/-- A call settles when the body that it runs does. -/
lemma callBy_settles {r : Registry} {P : Heap → Prop}
    {body : Executable → MachineState → Option RunResult} {argc : Nat} {res : RunResult}
    (hs : s.Sound r) (hp : P s.heap) (htarget : target.argSlots ≤ target.locals.toNat)
    (hbody : ∀ s' res, s'.Sound r → P s'.heap → InFrameOf target s' → body target s' = some res →
      Settles r Given s' res ∧ P (finalHeap res))
    (h : callBy vm body target argc s = some res) :
    Settles r Given s res ∧ P (finalHeap res) := by
  unfold callBy at h
  rcases @enter_cases vm target s r hs htarget argc with
    ⟨s₁, henter, hs₁, hheap, hlimit, f, hframes, hlocals, hbase, -⟩ | ⟨e, henter, he⟩
  · rw [henter] at h
    obtain ⟨res₁, hres₁, rfl⟩ := Option.map_eq_some_iff.mp h
    obtain ⟨hsettles, hfinal⟩ := hbody s₁ res₁ hs₁ (hheap ▸ hp) ⟨f, _, hframes, hlocals⟩ hres₁
    exact ⟨finish_settles hsettles hheap hlimit hframes hbase,
      finalHeap_finish hsettles hframes ▸ hfinal⟩
  · rw [henter] at h
    obtain rfl := Option.some.inj h
    exact ⟨⟨hs.heap, .refl s, he⟩, hp⟩

lemma keeps_pushResult {r : Registry} {v : Value} (hs : s.Sound r) (hv : s.heap.Holds v) :
    Keeps r (pushResult target v) (fun _ _ => True) s := by
  unfold pushResult
  split
  · exact (keeps_push hs hv).mono fun _ _ _ => trivial
  · exact keeps_pure hs trivial

lemma quiet_pushResult (v : Value) : (pushResult target v).Quiet := by
  unfold pushResult
  split
  · exact quiet_push v
  · exact quiet_pure ()

/-! ### Bodies -/

/-- The instruction at an offset of sound code is a sound one of its body. -/
lemma sound_of_fetch (hcode : vm.registry.SoundCode) {offset : Nat} (he : vm.registry.HasBody e)
    (hstarts : e.Starts offset) {i : Instruction} (hi : fetch e offset = .ok i) :
    e.Has i ∧ i.Sound vm.registry e ∧ (i.opcode.isTerminator = false → e.Starts i.next) := by
  obtain ⟨j, hj, hsound, hnext⟩ := (hcode e he).each offset hstarts
  rw [fetch, hj] at hi
  obtain rfl := Except.ok.inj hi
  exact ⟨Executable.has_of_starts hstarts hj, hsound, hnext⟩

lemma fetch_ne_error (hcode : vm.registry.SoundCode) {offset : Nat} {cause : VmError}
    (he : vm.registry.HasBody e) (hstarts : e.Starts offset) : fetch e offset ≠ .error cause := by
  obtain ⟨j, hj, -⟩ := (hcode e he).each offset hstarts
  rw [fetch, hj]
  exact nofun

/-- What an instruction of sound code keeps when it succeeds. -/
lemma kept_of_step (hcode : vm.registry.SoundCode) {P : Heap → Prop} (hp : vm.Survives P)
    {offset : Nat} {i : Instruction} {flow : Flow} {s₁ : MachineState} (he : vm.registry.HasBody e)
    (hstarts : e.Starts offset) (hs : s.Sound vm.registry) (hbefore : P s.heap)
    (hframe : InFrameOf e s) (fetched : fetch e offset = .ok i)
    (done : step vm e i s = .ok flow s₁) :
    s₁.Sound vm.registry ∧ s.Grows s₁ ∧ Flow.Lands vm.registry e i flow s₁ ∧ P s₁.heap := by
  obtain ⟨hi, hsound, -⟩ := sound_of_fetch hcode he hstarts fetched
  obtain ⟨hs₁, hgrows, hlands⟩ := (step_keeps he hsound hs hframe.hasLocal).of_ok done
  exact ⟨hs₁, hgrows, hlands, (hp e i s he hi hs hbefore).of_ok done⟩

/-- A body of sound code settles, from each of its instructions on, in a frame of its own. -/
theorem run_settles (hcode : vm.registry.SoundCode) {P : Heap → Prop} (hp : vm.Survives P)
    {n offset : Nat} {res : RunResult} (he : vm.registry.HasBody e) (hstarts : e.Starts offset)
    (hs : s.Sound vm.registry) (hbefore : P s.heap) (hframe : InFrameOf e s)
    (h : run vm n e offset s = some res) :
    Settles vm.registry Given s res ∧ P (finalHeap res) := by
  induction n generalizing e offset s res with
  | zero => cases h
  | succ n ih =>
    have hkept {i : Instruction} {flow : Flow} {s₁ : MachineState} (fetched : fetch e offset = .ok i)
        (done : step vm e i s = .ok flow s₁) :=
      kept_of_step hcode hp he hstarts hs hbefore hframe fetched done
    have hcalled {i : Instruction} {argc : Nat} {s₁ : MachineState} {target : Executable}
        {res₁ : RunResult} (fetched : fetch e offset = .ok i)
        (done : step vm e i s = .ok (.call target argc) s₁)
        (called : call vm n target argc s₁ = some res₁) :
        Settles vm.registry Given s res₁ ∧ P (finalHeap res₁) := by
      obtain ⟨hs₁, hgrows, ⟨htarget, -⟩, hp₁⟩ := hkept fetched done
      have htargetSound := hcode _ htarget
      exact (callBy_settles hs₁ hp₁ htargetSound.arguments_le (fun _ _ hs' hp' hframe' h' =>
        ih htarget htargetSound.starts_zero hs' hp' hframe' h') called).imp_left (·.trans hgrows)
    cases comes_of_run h with
    | unread fetched => exact absurd fetched (fetch_ne_error hcode he hstarts)
    | failed fetched done =>
      obtain ⟨hi, hsound, -⟩ := sound_of_fetch hcode he hstarts fetched
      exact ⟨(step_keeps he hsound hs hframe.hasLocal).of_error done,
        (hp e _ s he hi hs hbefore).of_error done⟩
    | next fetched done rest =>
      obtain ⟨hs₁, hgrows, hlands, hp₁⟩ := hkept fetched done
      have hstarts₁ := (sound_of_fetch hcode he hstarts fetched).2.2 hlands
      exact (ih he hstarts₁ hs₁ hp₁ (hframe.grows hgrows) rest).imp_left (·.trans hgrows)
    | jump fetched done rest =>
      obtain ⟨hs₁, hgrows, hlands, hp₁⟩ := hkept fetched done
      exact (ih he hlands hs₁ hp₁ (hframe.grows hgrows) rest).imp_left (·.trans hgrows)
    | ret fetched done =>
      obtain ⟨hs₁, hgrows, hlands, hp₁⟩ := hkept fetched done
      exact ⟨⟨hs₁, hgrows, hlands⟩, hp₁⟩
    | raised fetched done called => exact hcalled fetched done called
    | @unpushed _ _ _ _ _ _ _ s₃ fetched done called pushed =>
      obtain ⟨⟨hs₂, hgrows, hv⟩, hreturned⟩ := hcalled fetched done called
      have hpushed := (keeps_pushResult hs₂ hv).of_error pushed
      have hsame := (quiet_pushResult _).heap_of_error pushed
      have hp₃ : P s₃.heap := hsame ▸ hreturned
      exact ⟨Settles.trans hpushed hgrows, hp₃⟩
    | resumed fetched done called pushed rest =>
      obtain ⟨⟨hs₂, hgrows, hv⟩, hreturned⟩ := hcalled fetched done called
      obtain ⟨hs₃, hgrows₃, -⟩ := (keeps_pushResult hs₂ hv).of_ok pushed
      have hsame := (quiet_pushResult _).heap_of_ok pushed
      have hstarts₃ := (sound_of_fetch hcode he hstarts fetched).2.2 (hkept fetched done).2.2.1.2
      have hgrows := hgrows.trans hgrows₃
      exact (ih he hstarts₃ hs₃ (hsame ▸ hreturned) (hframe.grows hgrows) rest).imp_left
        (·.trans hgrows)

/-- A call of sound code settles. -/
lemma call_settles (hcode : vm.registry.SoundCode) {P : Heap → Prop} (hp : vm.Survives P)
    {fuel argc : Nat} {res : RunResult} (htarget : vm.registry.HasBody target)
    (hs : s.Sound vm.registry) (hbefore : P s.heap) (h : call vm fuel target argc s = some res) :
    Settles vm.registry Given s res ∧ P (finalHeap res) :=
  callBy_settles hs hbefore (hcode _ htarget).arguments_le (fun _ _ hs' hp' hframe' h' =>
    run_settles hcode hp htarget (hcode _ htarget).starts_zero hs' hp' hframe' h') h

/-- A call takes its arguments off the stack, and nothing else. -/
lemma size_of_call (hcode : vm.registry.SoundCode) {fuel argc : Nat} {v : Value}
    {s' : MachineState} (htarget : vm.registry.HasBody target) (hs : s.Sound vm.registry)
    (h : call vm fuel target argc s = some (.ok v s')) :
    s'.stack.slots.size + argc = s.stack.slots.size := by
  unfold call callBy at h
  rcases @enter_cases vm target s _ hs (hcode _ htarget).arguments_le argc with
    ⟨s₁, henter, hs₁, -, -, f, hframes, hlocals, -, hbase⟩ | ⟨e, henter, -⟩
  · rw [henter] at h
    obtain ⟨res, hres, hfinish⟩ := Option.map_eq_some_iff.mp h
    obtain ⟨hsettles, -⟩ := run_settles hcode (survives_true vm) htarget
      (hcode _ htarget).starts_zero hs₁ trivial ⟨f, _, hframes, hlocals⟩ hres
    cases res with
    | ok w s₂ =>
      obtain ⟨hs₂, hgrows, -⟩ := hsettles
      have hframes₂ := hgrows.frames_eq.trans hframes
      rw [finish, leave_eq hframes₂] at hfinish
      obtain ⟨-, rfl⟩ := EStateM.Result.ok.inj hfinish
      have hfloor := hs₂.floor_le
      rw [Stack.floor_cons hframes₂] at hfloor
      show (s₂.stack.slots.shrink f.base).size + argc = _
      rw [Array.size_shrink]
      omega
    | error e s₂ =>
      rw [finish, leave_eq (hsettles.2.1.frames_eq.trans hframes)] at hfinish
      cases hfinish
  · rw [henter] at h
    cases h

/-! ### Invocations -/

lemma keeps_pushAll {r : Registry} {values : List Value} (hs : s.Sound r)
    (h : ∀ v ∈ values, s.heap.Holds v) : Keeps r (pushAll values) (fun _ _ => True) s := by
  induction values generalizing s with
  | nil => exact keeps_pure hs trivial
  | cons v rest ih =>
    obtain ⟨hv, hrest⟩ := List.forall_mem_cons.mp h
    refine (keeps_push hs hv).bind fun _ s' hs' hgrows _ => ih hs' fun w hw => ?_
    exact (hrest w hw).grows hgrows.heap

lemma quiet_pushAll (values : List Value) : (pushAll values).Quiet := by
  induction values with
  | nil => exact quiet_pure ()
  | cons v rest ih => exact (quiet_push v).bind fun _ => ih

lemma quiet_prepare (receiver : Option Value) (arguments : List Value) :
    (prepare target receiver arguments).Quiet := by
  have hpush : Run.Quiet (do
      pushAll (receiver.toList ++ arguments)
      return arguments.length + receiver.toList.length) :=
    (quiet_pushAll _).bind fun _ => quiet_pure _
  unfold prepare
  dsimp only
  split
  · exact (quiet_throw _).bind fun _ => hpush
  · exact hpush

lemma keeps_prepare {r : Registry} {receiver : Option Value} {arguments : List Value}
    (hs : s.Sound r) (h : ∀ v ∈ receiver.toList ++ arguments, s.heap.Holds v) :
    Keeps r (prepare target receiver arguments) (fun _ _ => True) s := by
  have hpush : Keeps r (do
      pushAll (receiver.toList ++ arguments)
      return arguments.length + receiver.toList.length) (fun _ _ => True) s :=
    (keeps_pushAll hs h).bind fun _ _ hs' _ _ => keeps_pure hs' trivial
  unfold prepare
  dsimp only
  split
  · exact (keeps_throw hs (.of_not id) (Q := fun _ _ => False)).bind fun _ _ _ _ h => h.elim
  · exact hpush

/-- An invocation settles when it finds code of the registry. -/
lemma invoke_settles (hcode : vm.registry.SoundCode) {P : Heap → Prop} (hp : vm.Survives P)
    {fuel : Nat} {find : Run Executable} {receiver : Option Value} {arguments : List Value}
    {res : RunResult} (hs : s.Sound vm.registry) (hbefore : P s.heap) (hquiet : find.Quiet)
    (hfind : Keeps vm.registry find (fun target s' => vm.registry.HasBody target ∧ s = s') s)
    (hvalues : ∀ v ∈ receiver.toList ++ arguments, s.heap.Holds v)
    (h : invoke vm fuel find receiver arguments s = some res) :
    Settles vm.registry Given s res ∧ P (finalHeap res) := by
  have hstart : Keeps vm.registry (do
      let target ← find
      return (target, ← prepare target receiver arguments))
      (fun p _ => vm.registry.HasBody p.1) s := by
    refine hfind.bind ?_
    rintro target _ - - ⟨htarget, rfl⟩
    exact (keeps_prepare hs hvalues).bind fun _ _ hs' _ _ => keeps_pure hs' htarget
  have hsame : Run.Quiet (do
      let target ← find
      return (target, ← prepare target receiver arguments)) :=
    hquiet.bind fun target => (quiet_prepare receiver arguments).bind fun _ => quiet_pure _
  unfold invoke at h
  dsimp only at h
  split at h
  · next e s₁ hrun =>
    obtain rfl := Option.some.inj h
    have hheap : s₁.heap = s.heap := hsame.heap_of_error hrun
    have hp₁ : P s₁.heap := hheap ▸ hbefore
    exact ⟨hstart.of_error hrun, hp₁⟩
  · next target argc s₁ hrun =>
    obtain ⟨hs₁, hgrows, htarget⟩ := hstart.of_ok hrun
    have hheap : s₁.heap = s.heap := hsame.heap_of_ok hrun
    have hp₁ : P s₁.heap := hheap ▸ hbefore
    exact (call_settles hcode hp htarget hs₁ hp₁ h).imp_left (·.trans hgrows)

/-- Whether what comes of an invocation belongs to the registry and fails only as it may. -/
structure Settled (r : Registry) (h : Heap) (o : Except VmError Value × Heap) : Prop where
  heap : o.2.Sound r
  grows : h.Grows o.2
  value : ∀ v, o.1 = .ok v → o.2.Holds v
  failure : ∀ e, o.1 = .error e → e.Tolerated r

lemma sound_startState {r : Registry} {h : Heap} (hh : h.Sound r) : (startState h).Sound r :=
  ⟨hh, by simp [startState, Stack.empty], Nat.le_refl 0⟩

lemma settled_outcome {r : Registry} {res : RunResult} (h : Settles r Given s res) :
    Settled r s.heap (outcome res) := by
  cases res with
  | ok v s' => exact ⟨h.1.heap, h.2.1.heap, fun w hw => Except.ok.inj hw ▸ h.2.2, nofun⟩
  | error e s' => exact ⟨h.1, h.2.1.heap, nofun, fun e' he => Except.error.inj he ▸ h.2.2⟩

variable {heap : Heap} {fuel : Nat} {typeName key : String} {arguments : List Value}
  {o : Except VmError Value × Heap} {P : Heap → Prop}

/-- What a host does to find a static method or a method of an instance. -/
abbrev findDispatcher (vm : Machine) (typeName key : String) (isStatic : Bool) :
    Run Executable := do
  let t ← resolve vm typeName
  let target ← dispatcher t key
  expectKind target isStatic
  return target

lemma keeps_findDispatcher (hs : s.Sound vm.registry) (typeName key : String) (isStatic : Bool) :
    Keeps vm.registry (findDispatcher vm typeName key isStatic)
      (fun target s' => vm.registry.HasBody target ∧ s = s') s := by
  refine (keeps_resolve hs typeName).bind ?_
  rintro t _ hs - ⟨ht, rfl⟩
  refine (keeps_dispatcher hs (Registry.mem_of_find? ht) key).bind ?_
  rintro target _ hs - ⟨htarget, rfl⟩
  refine (keeps_expectKind hs target isStatic).bind ?_
  rintro _ _ hs - rfl
  exact keeps_pure hs ⟨htarget, rfl⟩

lemma quiet_findDispatcher (typeName key : String) (isStatic : Bool) :
    (findDispatcher vm typeName key isStatic).Quiet := by
  refine (quiet_resolve typeName).bind fun t => (quiet_dispatcher t key).bind fun target => ?_
  exact (quiet_expectKind target isStatic).bind fun _ => quiet_pure target

lemma settled_static (hcode : vm.registry.SoundCode) (hp : vm.Survives P)
    (hheap : heap.Sound vm.registry) (hbefore : P heap) (hvalues : ∀ v ∈ arguments, heap.Holds v)
    (h : invokeStaticMethod vm fuel typeName key arguments heap = some o) :
    Settled vm.registry heap o ∧ P o.2 := by
  obtain ⟨res, hres, rfl⟩ := Option.map_eq_some_iff.mp h
  have hs := sound_startState hheap
  exact (invoke_settles hcode hp hs hbefore (quiet_findDispatcher typeName key true)
    (keeps_findDispatcher hs typeName key true) (by simpa) hres).imp_left settled_outcome

lemma settled_instance (hcode : vm.registry.SoundCode) (hp : vm.Survives P)
    (hheap : heap.Sound vm.registry) (hbefore : P heap) {receiver : ObjectId}
    (hreceiver : heap.Holds (.object receiver typeName)) (hvalues : ∀ v ∈ arguments, heap.Holds v)
    (h : invokeInstanceMethod vm fuel receiver typeName key arguments heap = some o) :
    Settled vm.registry heap o ∧ P o.2 := by
  obtain ⟨res, hres, rfl⟩ := Option.map_eq_some_iff.mp h
  have hs := sound_startState hheap
  refine (invoke_settles hcode hp hs hbefore (quiet_findDispatcher typeName key false)
    (keeps_findDispatcher hs typeName key false) ?_ hres).imp_left settled_outcome
  exact List.forall_mem_cons.mpr ⟨hreceiver, hvalues⟩

lemma settled_closure (hcode : vm.registry.SoundCode) (hp : vm.Survives P)
    (hheap : heap.Sound vm.registry) (hbefore : P heap) {object : ObjectId} {c : Closure}
    (hc : heap.closure? object = some c) (hvalues : ∀ v ∈ arguments, heap.Holds v)
    (h : invokeClosureMethod vm fuel object c key arguments heap = some o) :
    Settled vm.registry heap o ∧ P o.2 := by
  obtain ⟨res, hres, rfl⟩ := Option.map_eq_some_iff.mp h
  have hs := sound_startState hheap
  refine (invoke_settles hcode hp hs hbefore (quiet_closureTarget c key)
    (keeps_closureTarget hs (hheap.closures object c hc) key) ?_ hres).imp_left settled_outcome
  exact List.forall_mem_cons.mpr ⟨⟨c, hc⟩, hvalues⟩

end LiveTypes.Machine
