import LiveTypes.Proofs.Machine.Compose
import LiveTypes.Proofs.Machine.Bounded

/-!
# Running code in its frame

Code that runs in a frame, sound or not, leaves the frames as they are and the slots below its own
(`run_stays`). So a call that opens a frame closes it again, whatever comes of its body, and only the
arguments are gone from the slots (`call_cases`).
-/

namespace LiveTypes

namespace Stack

variable {s s' s'' : Stack} {v : Value}

/-- The place of the first local of the top frame. -/
def base (s : Stack) : Nat :=
  match s.frames with
  | f :: _ => f.base
  | [] => 0

lemma base_cons {f : Frame} {rest : List Frame} (h : s.frames = f :: rest) : s.base = f.base := by
  unfold base
  rw [h]

lemma base_le_floor (s : Stack) : s.base ≤ s.floor := by
  unfold base floor
  cases s.frames with
  | nil => exact Nat.le_refl 0
  | cons f rest => exact Nat.le_add_right f.base f.locals

lemma getElem?_take (slots : Array Value) (n i : Nat) :
    (slots.take n)[i]? = if i < n then slots[i]? else none := by
  rw [Array.take_eq_extract, Array.getElem?_extract, Nat.zero_add]
  split
  · rw [if_pos (by omega)]
  · split
    · rw [Array.getElem?_eq_none (by omega)]
    · rfl

/-- Whether a stack differs from another, in which all locals are in place, only in the locals and
operands of the top frame. -/
structure Stays (s s' : Stack) : Prop where
  frames_eq : s'.frames = s.frames
  limit_eq : s'.limit = s.limit
  floor_le : s'.floor ≤ s'.slots.size
  below : ∀ i < s.base, s'.slots[i]? = s.slots[i]?

lemma Stays.refl (h : s.floor ≤ s.slots.size) : s.Stays s := ⟨rfl, rfl, h, fun _ _ => rfl⟩

lemma Stays.base_eq (h : s.Stays s') : s'.base = s.base := by
  unfold base
  rw [h.frames_eq]

lemma Stays.trans (h : s.Stays s') (h' : s'.Stays s'') : s.Stays s'' where
  frames_eq := h'.frames_eq.trans h.frames_eq
  limit_eq := h'.limit_eq.trans h.limit_eq
  floor_le := h'.floor_le
  below i hi := (h'.below i (h.base_eq ▸ hi)).trans (h.below i hi)

lemma stays_push (h : s.floor ≤ s.slots.size) (v : Value) :
    s.Stays { s with slots := s.slots.push v } where
  frames_eq := rfl
  limit_eq := rfl
  floor_le := by
    show s.floor ≤ _
    rw [Array.size_push]
    omega
  below i hi := by
    have hbase := s.base_le_floor
    exact Array.getElem?_push_lt (by omega) |>.trans (Array.getElem?_eq_getElem (by omega)).symm

lemma stays_pop (h : s.floor < s.slots.size) : s.Stays { s with slots := s.slots.pop } where
  frames_eq := rfl
  limit_eq := rfl
  floor_le := by
    show s.floor ≤ _
    rw [Array.size_pop]
    omega
  below i hi := by
    have hbase := s.base_le_floor
    rw [Array.getElem?_pop, if_pos (by omega)]

/-- A local lies in the top frame. -/
lemma localPlace_eq_ok {index place : Nat} : s.localPlace index = .ok place ↔
    ∃ f rest, s.frames = f :: rest ∧ index < f.locals ∧ place = f.base + index := by
  unfold localPlace
  cases s.frames with
  | nil => simp
  | cons f rest =>
    dsimp only
    split
    · simp only [reduceCtorEq, List.cons.injEq, false_iff]
      rintro ⟨_, _, ⟨rfl, rfl⟩, hlt, -⟩
      omega
    · rw [Except.ok.injEq]
      constructor
      · rintro rfl
        exact ⟨f, rest, rfl, by omega, rfl⟩
      · rintro ⟨_, _, heq, -, rfl⟩
        obtain ⟨rfl, rfl⟩ := List.cons.inj heq
        rfl

lemma storeLocal_eq_ok {index : Nat} : s.storeLocal index v = .ok s' ↔
    ∃ f rest, s.frames = f :: rest ∧ index < f.locals ∧
      s' = { s with slots := s.slots.setIfInBounds (f.base + index) v } := by
  unfold storeLocal
  cases hplace : s.localPlace index with
  | error e =>
    simp only [reduceCtorEq, false_iff]
    rintro ⟨f, rest, hframes, hlt, -⟩
    rw [localPlace_eq_ok.mpr ⟨f, rest, hframes, hlt, rfl⟩] at hplace
    cases hplace
  | ok place =>
    obtain ⟨f, rest, hframes, hlt, rfl⟩ := localPlace_eq_ok.mp hplace
    rw [Except.ok.injEq]
    constructor
    · rintro rfl
      exact ⟨f, rest, hframes, hlt, rfl⟩
    · rintro ⟨f', rest', hframes', -, rfl⟩
      obtain ⟨rfl, -⟩ := List.cons.inj (hframes.symm.trans hframes')
      rfl

lemma stays_storeLocal {index : Nat} (h : s.floor ≤ s.slots.size)
    (hs' : s.storeLocal index v = .ok s') : s.Stays s' := by
  obtain ⟨f, rest, hframes, hlt, rfl⟩ := storeLocal_eq_ok.mp hs'
  refine ⟨rfl, rfl, ?_, fun i hi => ?_⟩
  · show s.floor ≤ _
    rw [Array.size_setIfInBounds]
    exact h
  · rw [base_cons hframes] at hi
    exact Array.getElem?_setIfInBounds_ne (by omega)

/-- A frame is opened over operands of the top frame, and there is room for its locals. -/
lemma pushFrame_eq_ok {arguments locals : Nat} : s.pushFrame arguments locals = .ok s' ↔
    arguments ≤ locals ∧ arguments ≤ s.slots.size - s.floor ∧
      s.slots.size - arguments + locals ≤ s.limit ∧
      s' = { s with
        slots := s.slots ++ Array.replicate (locals - arguments) Value.null
        frames := ⟨s.slots.size - arguments, locals, arguments⟩ :: s.frames } := by
  unfold pushFrame
  split
  · simp only [reduceCtorEq, false_iff]
    omega
  · split
    · simp only [reduceCtorEq, false_iff]
      omega
    · dsimp only
      split
      · simp only [reduceCtorEq, false_iff]
        omega
      · rw [Except.ok.injEq, eq_comm]
        refine ⟨fun h => ⟨by omega, by omega, by omega, h⟩, fun h => h.2.2.2⟩

lemma floor_le_pushFrame {arguments locals : Nat} (h : s.pushFrame arguments locals = .ok s') :
    s'.floor ≤ s'.slots.size := by
  obtain ⟨hlocals, harguments, -, rfl⟩ := pushFrame_eq_ok.mp h
  rw [floor_cons rfl, Array.size_append, Array.size_replicate]
  dsimp only
  omega

end Stack

namespace Run

variable {α β : Type} {s s' : MachineState}

def endState : EStateM.Result VmError MachineState α → MachineState
  | .ok _ s => s
  | .error _ s => s

/-- Whether an action stays in the frame in which it starts. -/
def Contained (x : Run α) : Prop :=
  ∀ s, s.stack.floor ≤ s.stack.slots.size →
    s.stack.Stays (endState (x s)).stack ∧ (endState (x s)).depth = s.depth

lemma Contained.of_ok {x : Run α} {a : α} {s' : MachineState} (hx : x.Contained)
    (hs : s.stack.floor ≤ s.stack.slots.size) (h : x s = .ok a s') :
    s.stack.Stays s'.stack ∧ s'.depth = s.depth := by
  have hstays := hx s hs
  rwa [h] at hstays

lemma Contained.of_error {x : Run α} {e : VmError} {s' : MachineState} (hx : x.Contained)
    (hs : s.stack.floor ≤ s.stack.slots.size) (h : x s = .error e s') :
    s.stack.Stays s'.stack ∧ s'.depth = s.depth := by
  have hstays := hx s hs
  rwa [h] at hstays

/-- Whether no failure of an action is that calls are nested too deep. -/
def Uncut (x : Run α) : Prop := ∀ s cause s', x s = .error cause s' → cause.isCutoff = false

lemma contained_of_state {x : Run α} (h : ∀ s, (endState (x s)).stack = s.stack)
    (hdepth : ∀ s, (endState (x s)).depth = s.depth) : x.Contained := by
  intro s hs
  rw [h, hdepth]
  exact ⟨.refl hs, rfl⟩

lemma contained_onStack {f : Stack → Except VmError (α × Stack)}
    (h : ∀ s a s', s.floor ≤ s.slots.size → f s = .ok (a, s') → s.Stays s') :
    (onStack f).Contained := by
  rintro ⟨stack, heap, depth⟩ hs
  unfold onStack
  dsimp only
  cases hf : f stack with
  | error e => exact ⟨.refl hs, rfl⟩
  | ok r => exact ⟨h stack r.1 r.2 hs hf, rfl⟩

lemma contained_push (v : Value) : (push v).Contained := by
  refine contained_onStack fun s a s' hs h => ?_
  rcases s.push_cases v with hpush | hpush <;> rw [hpush] at h
  · obtain ⟨-, rfl⟩ := Prod.mk.inj (Except.ok.inj h)
    exact Stack.stays_push hs v
  · cases h

lemma contained_pop : pop.Contained := by
  refine contained_onStack fun s a s' hs h => ?_
  rcases s.pop_cases with ⟨v, hlt, -, hpop⟩ | hpop <;> rw [hpop] at h
  · obtain ⟨-, rfl⟩ := Prod.mk.inj (Except.ok.inj h)
    exact Stack.stays_pop hlt
  · cases h

lemma contained_storeLocal (index : Nat) (v : Value) : (storeLocal index v).Contained := by
  refine contained_onStack fun s a s' hs h => ?_
  cases hstore : s.storeLocal index v with
  | error e => rw [hstore] at h; cases h
  | ok s₁ =>
    rw [hstore] at h
    obtain ⟨-, rfl⟩ := Prod.mk.inj (Except.ok.inj h)
    exact Stack.stays_storeLocal hs hstore

lemma Contained.bind {x : Run α} {f : α → Run β} (hx : x.Contained) (hf : ∀ a, (f a).Contained) :
    (x >>= f).Contained := by
  intro s hs
  obtain ⟨hstays, hdepth⟩ := hx s hs
  cases hrun : x s with
  | error e s₁ =>
    rw [hrun] at hstays hdepth
    rw [bind_of_error hrun]
    exact ⟨hstays, hdepth⟩
  | ok a s₁ =>
    rw [hrun] at hstays hdepth
    rw [bind_of_ok hrun]
    obtain ⟨hstays', hdepth'⟩ := hf a s₁ hstays.floor_le
    exact ⟨hstays.trans hstays', hdepth'.trans hdepth⟩

/-- No instruction leaves its frame. -/
lemma composes_contained : Composes Contained where
  pure _ := contained_of_state (fun _ => rfl) fun _ => rfl
  throw _ _ := contained_of_state (fun _ => rfl) fun _ => rfl
  get := contained_of_state (fun _ => rfl) fun _ => rfl
  bind := Contained.bind
  push := contained_push
  pop := contained_pop
  storeLocal := contained_storeLocal
  modifyHeap _ := contained_of_state (fun _ => rfl) fun _ => rfl
  allocate _ := contained_of_state (fun _ => rfl) fun _ => rfl

lemma uncut_onStack {f : Stack → Except VmError (α × Stack)}
    (h : ∀ stack e, f stack = .error e → e.isCutoff = false) : (onStack f).Uncut := by
  rintro ⟨stack, heap, depth⟩ cause s' hrun
  unfold onStack at hrun
  dsimp only at hrun
  cases hf : f stack with
  | ok r => rw [hf] at hrun; cases hrun
  | error e =>
    rw [hf] at hrun
    obtain ⟨rfl, -⟩ := EStateM.Result.error.inj hrun
    exact h stack e hf

lemma Uncut.bind {x : Run α} {f : α → Run β} (hx : x.Uncut) (hf : ∀ a, (f a).Uncut) :
    (x >>= f).Uncut := by
  intro s cause s' hrun
  rcases bind_eq_error.mp hrun with hfirst | ⟨a, s₁, -, hrest⟩
  · exact hx _ _ _ hfirst
  · exact hf a _ _ _ hrest

lemma error_of_map {ε α β : Type} {x : Except ε α} {f : α → β} {e : ε}
    (h : x.map f = .error e) : x = .error e := by
  cases x with
  | ok a => cases h
  | error e' => exact congrArg _ (Except.error.inj h)

/-- No instruction fails for the depth of calls. -/
lemma composes_uncut : Composes Uncut where
  pure _ _ _ _ h := nomatch h
  throw e he := by
    intro s cause s' hrun
    obtain ⟨rfl, -⟩ := EStateM.Result.error.inj hrun
    exact he
  get _ _ _ h := nomatch h
  bind := Uncut.bind
  push _ := uncut_onStack fun _ _ h => Stack.not_cutoff_of_push (error_of_map h)
  pop := uncut_onStack fun _ _ => Stack.not_cutoff_of_pop
  storeLocal _ _ := uncut_onStack fun _ _ h => Stack.not_cutoff_of_storeLocal (error_of_map h)
  modifyHeap _ _ _ _ h := nomatch h
  allocate _ _ _ _ h := nomatch h

end Run

namespace Machine

open Run

variable {vm : Machine} {e target : Executable} {s s' : MachineState} {argc : Nat}

/-! ### Calls -/

/-- A call is entered when it is not nested too deep, its arguments are those of its body and there is
room for the frame. -/
lemma enter_eq_ok {u : Unit} : enter vm target argc s = .ok u s' ↔
    s.depth < vm.maxCallDepth ∧ argc = target.argSlots ∧
      ∃ stack, s.stack.pushFrame argc target.locals.toNat = .ok stack ∧
        s' = ⟨stack, s.heap, s.depth + 1⟩ := by
  constructor
  · intro h
    rcases Nat.lt_or_ge s.depth vm.maxCallDepth with hdepth | hdepth
    · by_cases hargc : argc = target.argSlots
      · cases hpush : s.stack.pushFrame argc target.locals.toNat with
        | error cause => rw [enter_of_pushFrame_error hdepth hargc hpush] at h; cases h
        | ok stack =>
          rw [enter_of_pushFrame hdepth hargc hpush] at h
          exact ⟨hdepth, hargc, stack, rfl, (EStateM.Result.ok.inj h).2.symm⟩
      · rw [enter_of_lt hdepth, if_pos hargc] at h
        cases h
    · rw [enter_of_le hdepth] at h
      cases h
  · rintro ⟨hdepth, hargc, stack, hpush, rfl⟩
    exact enter_of_pushFrame hdepth hargc hpush

/-- A call that is not entered changes nothing, and it is cut off only at the limit of depth. -/
lemma enter_eq_error {cause : VmError} (h : enter vm target argc s = .error cause s') :
    s' = s ∧ (cause.isCutoff = true → vm.maxCallDepth ≤ s.depth ∧
      cause = .callDepthExceeded vm.maxCallDepth) := by
  rcases Nat.lt_or_ge s.depth vm.maxCallDepth with hdepth | hdepth
  · by_cases hargc : argc = target.argSlots
    · cases hpush : s.stack.pushFrame argc target.locals.toNat with
      | ok stack => rw [enter_of_pushFrame hdepth hargc hpush] at h; cases h
      | error e =>
        rw [enter_of_pushFrame_error hdepth hargc hpush] at h
        obtain ⟨rfl, rfl⟩ := EStateM.Result.error.inj h
        refine ⟨rfl, fun hcut => ?_⟩
        unfold Stack.pushFrame at hpush
        split at hpush
        · obtain rfl := Except.error.inj hpush
          cases hcut
        · split at hpush
          · obtain rfl := Except.error.inj hpush
            cases hcut
          · dsimp only at hpush
            split at hpush
            · obtain rfl := Except.error.inj hpush
              cases hcut
            · cases hpush
    · rw [enter_of_lt hdepth, if_pos hargc] at h
      obtain ⟨rfl, rfl⟩ := EStateM.Result.error.inj h
      exact ⟨rfl, nofun⟩
  · rw [enter_of_le hdepth] at h
    obtain ⟨rfl, rfl⟩ := EStateM.Result.error.inj h
    exact ⟨rfl, fun _ => ⟨hdepth, rfl⟩⟩

def withState (s : MachineState) : RunResult → RunResult
  | .ok v _ => .ok v s
  | .error cause _ => .error cause s

/-- A body that ends in its frame keeps its result when the frame is closed. -/
lemma finish_eq {res : RunResult} {f : Frame} {rest : List Frame}
    (h : (endState res).stack.frames = f :: rest) : finish res =
      withState ⟨⟨(endState res).stack.slots.shrink f.base, rest, (endState res).stack.limit⟩,
        (endState res).heap, (endState res).depth - 1⟩ res := by
  cases res with
  | ok v s =>
    rw [finish, leave_eq (s := s) h]
    rfl
  | error cause s =>
    rw [finish, leave_eq (s := s) h]
    rfl

/-- Whether code came to a result in the frame in which it started. -/
def EndsInFrame (s : MachineState) (res : RunResult) : Prop :=
  s.stack.Stays (endState res).stack ∧ (endState res).depth = s.depth

/-- Whether a state has the frames and the depth of another, and its slots without the top ones. -/
structure Unloaded (count : Nat) (s s' : MachineState) : Prop where
  stack_eq : s'.stack =
    { s.stack with slots := s.stack.slots.take (s.stack.slots.size - count) }
  depth_eq : s'.depth = s.depth

lemma endState_withState (res : RunResult) : endState (withState s res) = s := by
  cases res <;> rfl

/-- A call whose body stays in its frame either fails before the frame is opened, with nothing changed,
or closes it and takes the arguments off the slots. -/
lemma callBy_cases {body : Executable → MachineState → Option RunResult} {res : RunResult}
    (hbody : ∀ s₁ res₁, s₁.stack.floor ≤ s₁.stack.slots.size → body target s₁ = some res₁ →
      EndsInFrame s₁ res₁)
    (h : callBy vm body target argc s = some res) :
    (∃ cause, enter vm target argc s = .error cause s ∧ res = .error cause s) ∨
      ∃ s₁ res₁, enter vm target argc s = .ok () s₁ ∧ body target s₁ = some res₁ ∧
        res = withState (endState res) res₁ ∧ Unloaded argc s (endState res) := by
  unfold callBy at h
  cases hentered : enter vm target argc s with
  | error cause s₁ =>
    obtain ⟨rfl, -⟩ := enter_eq_error hentered
    rw [hentered] at h
    exact .inl ⟨cause, rfl, (Option.some.inj h).symm⟩
  | ok u s₁ =>
    rw [hentered] at h
    obtain ⟨res₁, hres₁, rfl⟩ := Option.map_eq_some_iff.mp h
    obtain ⟨-, -, stack, hpush, rfl⟩ := enter_eq_ok.mp hentered
    obtain ⟨hstays, hdepth⟩ := hbody _ res₁ (Stack.floor_le_pushFrame hpush) hres₁
    obtain ⟨-, -, -, rfl⟩ := Stack.pushFrame_eq_ok.mp hpush
    refine .inr ⟨_, res₁, rfl, hres₁, ?_⟩
    rw [finish_eq hstays.frames_eq, endState_withState]
    refine ⟨rfl, Stack.mk.injEq .. ▸ ⟨?_, rfl, hstays.limit_eq⟩, Nat.sub_eq_of_eq_add hdepth⟩
    -- nothing below the first argument was touched
    apply Array.ext_getElem?
    intro i
    have hbelow := hstays.below i
    rw [Stack.base_cons rfl] at hbelow
    rw [Array.shrink_eq_take, Stack.getElem?_take, Stack.getElem?_take]
    split
    · next hlt =>
      rw [hbelow hlt]
      exact Array.getElem?_append_left (Nat.lt_of_lt_of_le hlt (Nat.sub_le _ argc))
    · rfl

/-- A call takes no operands off but its arguments, which lie above all locals. -/
lemma Unloaded.stays (h : Unloaded argc s s') (hs : s.stack.floor ≤ s.stack.slots.size)
    (hargc : argc ≤ s.stack.slots.size - s.stack.floor) : s.stack.Stays s'.stack := by
  rw [h.stack_eq]
  refine ⟨rfl, rfl, ?_, fun i hi => ?_⟩
  · show s.stack.floor ≤ _
    rw [Array.take_eq_extract, Array.size_extract]
    omega
  · have hbase := s.stack.base_le_floor
    rw [Stack.getElem?_take, if_pos (by omega)]

/-- Code in a frame comes to a result in the frame. -/
theorem run_stays {n offset : Nat} {res : RunResult} (hs : s.stack.floor ≤ s.stack.slots.size)
    (h : run vm n e offset s = some res) : EndsInFrame s res := by
  induction n generalizing e offset s res with
  | zero => cases h
  | succ n ih =>
    have hstep (i : Instruction) := composes_contained.step vm e i
    have hgo {s₁ : MachineState} {offset : Nat}
        (hstays : s.stack.Stays s₁.stack ∧ s₁.depth = s.depth)
        (h : run vm n e offset s₁ = some res) : EndsInFrame s res := by
      obtain ⟨hstays₁, hdepth₁⟩ := ih hstays.1.floor_le h
      exact ⟨hstays.1.trans hstays₁, hdepth₁.trans hstays.2⟩
    have hcalled {i : Instruction} {target : Executable} {argc : Nat} {s₁ : MachineState}
        {res₁ : RunResult} (done : step vm e i s = .ok (.call target argc) s₁)
        (called : call vm n target argc s₁ = some res₁) : EndsInFrame s res₁ := by
      obtain ⟨hstays, hdepth⟩ := (hstep i).of_ok hs done
      rcases callBy_cases (fun s₁ res₁ hs₁ => ih hs₁) called with
        ⟨cause, -, rfl⟩ | ⟨s₂, res₂, hentered, -, -, hunloaded⟩
      · exact ⟨hstays, hdepth⟩
      · obtain ⟨-, -, stack, hpush, -⟩ := enter_eq_ok.mp hentered
        obtain ⟨-, hargc, -⟩ := Stack.pushFrame_eq_ok.mp hpush
        exact ⟨hstays.trans (hunloaded.stays hstays.floor_le hargc),
          hunloaded.depth_eq.trans hdepth⟩
    cases comes_of_run h with
    | unread fetched => exact ⟨.refl hs, rfl⟩
    | failed fetched done => exact (hstep _).of_error hs done
    | next fetched done rest => exact hgo ((hstep _).of_ok hs done) rest
    | jump fetched done rest => exact hgo ((hstep _).of_ok hs done) rest
    | ret fetched done => exact (hstep _).of_ok hs done
    | raised fetched done called => exact hcalled done called
    | unpushed fetched done called pushed =>
      obtain ⟨hstays, hdepth⟩ := hcalled done called
      obtain ⟨hstays₁, hdepth₁⟩ :=
        (composes_contained.pushResult _ _).of_error hstays.floor_le pushed
      exact ⟨hstays.trans hstays₁, hdepth₁.trans hdepth⟩
    | resumed fetched done called pushed rest =>
      obtain ⟨hstays, hdepth⟩ := hcalled done called
      obtain ⟨hstays₁, hdepth₁⟩ := (composes_contained.pushResult _ _).of_ok hstays.floor_le pushed
      exact hgo ⟨hstays.trans hstays₁, hdepth₁.trans hdepth⟩ rest

/-- A call that is not entered changes nothing; every other one that comes to a result closes its
frame. -/
theorem call_cases {fuel : Nat} {res : RunResult} (h : call vm fuel target argc s = some res) :
    (∃ cause, enter vm target argc s = .error cause s ∧ res = .error cause s) ∨
      ∃ s₁ res₁, enter vm target argc s = .ok () s₁ ∧ run vm fuel target 0 s₁ = some res₁ ∧
        res = withState (endState res) res₁ ∧ Unloaded argc s (endState res) :=
  callBy_cases (fun _ _ hs₁ => run_stays hs₁) h

end Machine

end LiveTypes
