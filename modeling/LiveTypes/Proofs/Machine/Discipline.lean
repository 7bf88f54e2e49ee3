import LiveTypes.Proofs.Machine.Frames
import LiveTypes.Proofs.Outcome
import Mathlib.Data.List.Chain
import Mathlib.Data.List.Infix

/-!
# Stack discipline

Whatever is asked of a stack, its frames stay nested, its locals stay in place and its limit is kept
(`Stack.Orderly`). A frame guards what lies below it (`Guards`): as long as it is open nothing there is
read or changed, and closing it gives exactly what was there. Calls are orderly in the same way, whatever
code they run (`stack_and_calls_disciplined`).
-/

namespace LiveTypes

/-- What is asked of a stack. -/
inductive StackRequest where
  | push (v : Value)
  | pop
  | peek (n : Nat)
  | openFrame (arguments locals : Nat)
  | closeFrame
  | loadLocal (index : Nat)
  | storeLocal (index : Nat) (v : Value)

inductive StackReply where
  | done
  | value (v : Value)
  | frame (f : Frame)
deriving DecidableEq

namespace Stack

variable {s s' t : Stack} {request : StackRequest} {reply : StackReply} {f : Frame}
  {rest : List Frame}

/-- What a stack does when it is asked for something. -/
def serve : StackRequest → Stack → Except VmError (StackReply × Stack)
  | .push v, s => (s.push v).map (.done, ·)
  | .pop, s => s.pop.map fun (v, s) => (.value v, s)
  | .peek n, s => (s.peek n).map fun v => (.value v, s)
  | .openFrame arguments locals, s => (s.pushFrame arguments locals).map (.done, ·)
  | .closeFrame, s => s.popFrame.map fun (f, s) => (.frame f, s)
  | .loadLocal index, s => (s.loadLocal index).map fun v => (.value v, s)
  | .storeLocal index v, s => (s.storeLocal index v).map (.done, ·)

/-- What a stack may have done when it served a request. -/
inductive Serves (s : Stack) : StackRequest → Stack → Prop
  | push {v : Value} (room : s.slots.size < s.limit) :
      Serves s (.push v) { s with slots := s.slots.push v }
  | pop (operand : s.floor < s.slots.size) : Serves s .pop { s with slots := s.slots.pop }
  | peek {n : Nat} : Serves s (.peek n) s
  | openFrame {arguments locals : Nat} (fit : arguments ≤ locals)
      (operands : arguments ≤ s.slots.size - s.floor)
      (room : s.slots.size - arguments + locals ≤ s.limit) :
      Serves s (.openFrame arguments locals) { s with
        slots := s.slots ++ Array.replicate (locals - arguments) Value.null
        frames := ⟨s.slots.size - arguments, locals, arguments⟩ :: s.frames }
  | closeFrame {f : Frame} {rest : List Frame} (frames : s.frames = f :: rest) :
      Serves s .closeFrame { s with slots := s.slots.shrink f.base, frames := rest }
  | loadLocal {index : Nat} : Serves s (.loadLocal index) s
  | storeLocal {index : Nat} {v : Value} {f : Frame} {rest : List Frame}
      (frames : s.frames = f :: rest) (bound : index < f.locals) :
      Serves s (.storeLocal index v) { s with slots := s.slots.setIfInBounds (f.base + index) v }

lemma serves_of_serve (h : serve request s = .ok (reply, s')) : s.Serves request s' := by
  cases request with
  | push v =>
    obtain ⟨s₁, hpush, heq⟩ := Outcome.map_eq_ok.mp h
    obtain ⟨-, rfl⟩ := Prod.mk.inj heq
    unfold Stack.push at hpush
    split at hpush
    · cases hpush
    · obtain rfl := Except.ok.inj hpush
      exact .push (by omega)
  | pop =>
    obtain ⟨⟨v, s₁⟩, hpop, heq⟩ := Outcome.map_eq_ok.mp h
    obtain ⟨-, rfl⟩ := Prod.mk.inj heq
    rcases s.pop_cases with ⟨w, hlt, -, hcase⟩ | hcase <;> rw [hcase] at hpop
    · obtain ⟨-, rfl⟩ := Prod.mk.inj (Except.ok.inj hpop)
      exact .pop hlt
    · cases hpop
  | peek n =>
    obtain ⟨v, -, heq⟩ := Outcome.map_eq_ok.mp h
    obtain ⟨-, rfl⟩ := Prod.mk.inj heq
    exact .peek
  | openFrame arguments locals =>
    obtain ⟨s₁, hopen, heq⟩ := Outcome.map_eq_ok.mp h
    obtain ⟨-, rfl⟩ := Prod.mk.inj heq
    obtain ⟨hfit, hoperands, hroom, rfl⟩ := pushFrame_eq_ok.mp hopen
    exact .openFrame hfit hoperands hroom
  | closeFrame =>
    obtain ⟨⟨f, s₁⟩, hclose, heq⟩ := Outcome.map_eq_ok.mp h
    obtain ⟨-, rfl⟩ := Prod.mk.inj heq
    unfold popFrame at hclose
    split at hclose
    · next f rest hframes =>
      obtain ⟨-, rfl⟩ := Prod.mk.inj (Except.ok.inj hclose)
      exact .closeFrame hframes
    · cases hclose
  | loadLocal index =>
    obtain ⟨v, -, heq⟩ := Outcome.map_eq_ok.mp h
    obtain ⟨-, rfl⟩ := Prod.mk.inj heq
    exact .loadLocal
  | storeLocal index v =>
    obtain ⟨s₁, hstore, heq⟩ := Outcome.map_eq_ok.mp h
    obtain ⟨-, rfl⟩ := Prod.mk.inj heq
    obtain ⟨f, rest, hframes, hbound, rfl⟩ := storeLocal_eq_ok.mp hstore
    exact .storeLocal hframes hbound

/-! ### Nested frames -/

/-- Whether frames, the top one first, are nested, with no locals of one above the base of another. -/
def Nested (frames : List Frame) : Prop := frames.IsChain fun upper lower => lower.floor ≤ upper.base

/-- Whether the frames of a stack are nested, its locals are in place and its limit is kept. -/
structure Orderly (s : Stack) : Prop where
  nested : Nested s.frames
  floor_le : s.floor ≤ s.slots.size
  size_le : s.slots.size ≤ s.limit

lemma orderly_empty (limit : Nat) : (empty limit).Orderly :=
  ⟨.nil, Nat.zero_le _, Nat.zero_le _⟩

lemma floor_le_base (h : Nested (f :: s.frames)) : s.floor ≤ f.base := by
  unfold floor
  cases hframes : s.frames with
  | nil => exact Nat.zero_le _
  | cons g rest =>
    rw [hframes] at h
    exact (List.isChain_cons_cons.mp h).1

lemma nested_cons (h : Nested s.frames) (hbase : s.floor ≤ f.base) : Nested (f :: s.frames) := by
  unfold floor at hbase
  unfold Nested at h ⊢
  cases hframes : s.frames with
  | nil => exact .singleton f
  | cons g rest =>
    rw [hframes] at h hbase
    exact .cons_cons hbase h

/-- An orderly stack stays orderly. -/
lemma Orderly.serves (h : s.Orderly) (hserves : s.Serves request s') :
    s'.Orderly ∧ s'.limit = s.limit := by
  have hfloor := h.floor_le
  have hsize := h.size_le
  cases hserves with
  | push room =>
    refine ⟨⟨h.nested, ?_, ?_⟩, rfl⟩
    · show s.floor ≤ _
      rw [Array.size_push]
      omega
    · show _ ≤ s.limit
      rw [Array.size_push]
      omega
  | pop operand =>
    refine ⟨⟨h.nested, ?_, ?_⟩, rfl⟩
    · show s.floor ≤ _
      rw [Array.size_pop]
      omega
    · show _ ≤ s.limit
      rw [Array.size_pop]
      omega
  | peek | loadLocal => exact ⟨h, rfl⟩
  | openFrame fit operands room =>
    refine ⟨⟨nested_cons h.nested ?_, ?_, ?_⟩, rfl⟩
    · dsimp only
      omega
    · rw [floor_cons rfl, Array.size_append, Array.size_replicate]
      dsimp only
      omega
    · rw [Array.size_append, Array.size_replicate]
      dsimp only
      omega
  | @closeFrame f rest frames =>
    have hnested := h.nested
    rw [frames] at hnested
    rw [floor_cons frames] at hfloor
    refine ⟨⟨hnested.tail, ?_, ?_⟩, rfl⟩
    · have hbase := floor_le_base (s := { s with frames := rest }) hnested
      have heq : floor { s with frames := rest } =
        floor { s with slots := s.slots.shrink f.base, frames := rest } := rfl
      rw [← heq, Array.size_shrink]
      omega
    · show _ ≤ s.limit
      rw [Array.size_shrink]
      omega
  | storeLocal frames bound =>
    refine ⟨⟨h.nested, ?_, ?_⟩, rfl⟩
    · show s.floor ≤ _
      rw [Array.size_setIfInBounds]
      exact hfloor
    · show _ ≤ s.limit
      rw [Array.size_setIfInBounds]
      exact hsize

/-! ### What an open frame guards -/

/-- Whether stacks differ at most below a place. -/
structure AgreeFrom (n : Nat) (s t : Stack) : Prop where
  frames_eq : t.frames = s.frames
  limit_eq : t.limit = s.limit
  size_eq : t.slots.size = s.slots.size
  above : ∀ i, n ≤ i → t.slots[i]? = s.slots[i]?

lemma AgreeFrom.floor_eq {n : Nat} (h : AgreeFrom n s t) : t.floor = s.floor := by
  unfold floor
  rw [h.frames_eq]

/-- Whether two answers to a request are alike up to what lies below a place. -/
def Alike (n : Nat) : Except VmError (StackReply × Stack) → Except VmError (StackReply × Stack) → Prop
  | .ok (reply, s), .ok (reply', t) => reply' = reply ∧ AgreeFrom n s t
  | .error cause, .error cause' => cause' = cause
  | _, _ => False

/-- What lies below the top frame plays no part in what is asked of a stack. -/
lemma serve_alike {n : Nat} (h : AgreeFrom n s t) (hn : n ≤ s.base) (request : StackRequest) :
    Alike n (serve request s) (serve request t) := by
  have hfloor := h.floor_eq
  have hbase := s.base_le_floor
  cases request with
  | push v =>
    simp only [serve, push, h.size_eq, h.limit_eq]
    split
    · rfl
    · refine ⟨rfl, h.frames_eq, rfl, ?_, fun i hi => ?_⟩
      · simp [h.size_eq]
      · simp [Array.getElem?_push, h.size_eq, h.above i hi]
  | pop =>
    simp only [serve, pop, h.size_eq, hfloor]
    split
    · rfl
    · have htop : t.slots.back? = s.slots.back? := by
        rw [Array.back?_eq_getElem?, Array.back?_eq_getElem?, h.size_eq]
        exact h.above _ (by omega)
      rw [htop]
      cases s.slots.back? with
      | none => rfl
      | some v =>
        refine ⟨rfl, h.frames_eq, h.limit_eq, ?_, fun i hi => ?_⟩
        · simp [h.size_eq]
        · simp [Array.getElem?_pop, h.size_eq, h.above i hi]
  | peek m =>
    simp only [serve, peek, h.size_eq, hfloor]
    split
    · rfl
    · rw [h.above _ (by omega)]
      cases s.slots[s.slots.size - 1 - m]? with
      | none => rfl
      | some v => exact ⟨rfl, h⟩
  | openFrame arguments locals =>
    simp only [serve, pushFrame, h.size_eq, h.limit_eq, hfloor]
    split
    · rfl
    · split
      · rfl
      · split
        · rfl
        · refine ⟨rfl, congrArg (List.cons _) h.frames_eq, rfl, ?_, fun i hi => ?_⟩
          · simp [h.size_eq]
          · simp [Array.getElem?_append, h.size_eq, h.above i hi]
  | closeFrame =>
    simp only [serve, popFrame, h.frames_eq]
    cases hframes : s.frames with
    | nil => rfl
    | cons f rest =>
      refine ⟨rfl, rfl, h.limit_eq, ?_, fun i hi => ?_⟩
      · simp [h.size_eq]
      · simp only [Array.shrink_eq_take, getElem?_take, h.above i hi]
  | loadLocal index =>
    simp only [serve, loadLocal, localPlace, h.frames_eq]
    cases hframes : s.frames with
    | nil => rfl
    | cons f rest =>
      rw [base_cons hframes] at hn
      dsimp only
      split
      · rfl
      · refine ⟨?_, h⟩
        simp only [Array.getD_eq_getD_getElem?, h.above (f.base + index) (by omega)]
  | storeLocal index v =>
    simp only [serve, storeLocal, localPlace, h.frames_eq]
    cases hframes : s.frames with
    | nil => rfl
    | cons f rest =>
      dsimp only
      by_cases hbound : f.locals ≤ index
      · rw [if_pos hbound]
        rfl
      · rw [if_neg hbound]
        refine ⟨rfl, rfl, h.limit_eq, ?_, fun i hi => ?_⟩
        · simp [h.size_eq]
        · simp [Array.getElem?_setIfInBounds, h.size_eq, h.above i hi]

/-- What lies below the top frame is left alone by what is asked of a stack. -/
lemma Serves.below (h : s.Serves request s') (hs : s.floor ≤ s.slots.size) {i : Nat}
    (hi : i < s.base) : s'.slots[i]? = s.slots[i]? := by
  have hbase := s.base_le_floor
  cases h with
  | push room => simp [Array.getElem?_push, show i ≠ s.slots.size by omega]
  | pop operand => simp [show i < s.slots.size - 1 by omega]
  | peek | loadLocal => rfl
  | openFrame fit operands room => exact Array.getElem?_append_left (by omega)
  | closeFrame frames =>
    rw [base_cons frames] at hi
    rw [Array.shrink_eq_take, getElem?_take, if_pos hi]
  | storeLocal frames bound =>
    rw [base_cons frames] at hi
    exact Array.getElem?_setIfInBounds_ne (by omega)

/-- Whether a frame is open, with others below it. -/
def Open (f : Frame) (rest : List Frame) (s : Stack) : Prop := ∃ above, s.frames = above ++ f :: rest

lemma Open.base_le (h : s.Open f rest) (hs : Nested s.frames) : f.base ≤ s.base := by
  obtain ⟨above, hframes⟩ := h
  rw [hframes] at hs
  cases above with
  | nil => exact (base_cons hframes).ge
  | cons g above =>
    have hmem : f ∈ above ++ f :: rest := by simp
    rw [base_cons hframes]
    -- every frame ends where the next one above it starts, or before
    have hpairs : (g :: (above ++ f :: rest)).Pairwise fun upper lower => lower.floor ≤ upper.base := by
      have htrans : IsTrans Frame fun upper lower => lower.floor ≤ upper.base :=
        ⟨fun a b c hab hbc => hbc.trans (Nat.le_trans (Nat.le_add_right _ _) hab)⟩
      exact List.isChain_iff_pairwise.mp hs
    exact (Nat.le_add_right _ _).trans (List.rel_of_pairwise_cons hpairs hmem)

/-- A frame stays open until it is closed as the top one. -/
lemma Serves.open_or (h : s.Serves request s') (hopen : s.Open f rest) :
    s'.Open f rest ∨ request = .closeFrame ∧ s.frames = f :: rest := by
  obtain ⟨above, hframes⟩ := hopen
  cases h with
  | openFrame fit operands room => exact .inl ⟨_ :: above, congrArg _ hframes⟩
  | closeFrame frames =>
    cases above with
    | nil => exact .inr ⟨rfl, hframes⟩
    | cons g above => exact .inl ⟨above, (List.cons.inj (frames.symm.trans hframes)).2⟩
  | _ => exact .inl ⟨above, hframes⟩

end Stack

/-! ### Requests of running code -/

namespace StackRequest

open Run

variable {s s' : MachineState} {request : StackRequest} {f : Frame} {rest : List Frame}

/-- What running code does when it asks for something of the stack. -/
def act : StackRequest → Run StackReply
  | .push v => do
    Run.push v
    return .done
  | .pop => do return .value (← Run.pop)
  | .peek n => do return .value (← Run.peek n)
  | .openFrame arguments locals => do
    Run.openFrame arguments locals
    return .done
  | .closeFrame => do return .frame (← Run.closeFrame)
  | .loadLocal index => do return .value (← Run.loadLocal index)
  | .storeLocal index v => do
    Run.storeLocal index v
    return .done

def answer {α : Type} : EStateM.Result VmError MachineState α → Except VmError α
  | .ok a _ => .ok a
  | .error cause _ => .error cause

/-- The state after requests, served or not. -/
def after : List StackRequest → MachineState → MachineState
  | [], s => s
  | request :: more, s => after more (endState (request.act s))

def answers : List StackRequest → MachineState → List (Except VmError StackReply)
  | [], _ => []
  | request :: more, s => answer (request.act s) :: answers more (endState (request.act s))

lemma onStack_bind {α β : Type} (f : Stack → Except VmError (α × Stack)) (g : α → β) :
    (do return g (← onStack f)) = onStack fun s => (f s).map fun (a, s) => (g a, s) := by
  funext s
  obtain ⟨stack, heap, depth⟩ := s
  show EStateM.bind (onStack f) _ _ = _
  simp only [EStateM.bind, onStack]
  cases f stack <;> rfl

lemma look_bind {α β : Type} (f : Stack → Except VmError α) (g : α → β) :
    (do return g (← (do lift (f (← get).stack)))) =
      onStack fun s => (f s).map fun a => (g a, s) := by
  funext s
  obtain ⟨stack, heap, depth⟩ := s
  show EStateM.bind (fun s => lift (f s.stack) s) _ _ = _
  simp only [EStateM.bind, onStack]
  cases f stack <;> rfl

lemma change_bind (f : Stack → Except VmError Stack) :
    (do
      onStack fun s => (f s).map ((), ·)
      return StackReply.done) = onStack fun s => (f s).map (StackReply.done, ·) := by
  funext s
  obtain ⟨stack, heap, depth⟩ := s
  show EStateM.bind (onStack fun s => (f s).map ((), ·)) _ _ = _
  simp only [EStateM.bind, onStack]
  cases f stack <;> rfl

/-- A request is served by the stack alone. -/
lemma act_eq (request : StackRequest) : request.act = onStack (Stack.serve request) := by
  cases request with
  | push v => exact change_bind fun s => s.push v
  | pop => exact onStack_bind Stack.pop StackReply.value
  | peek n => exact look_bind (fun s => s.peek n) StackReply.value
  | openFrame arguments locals => exact change_bind fun s => s.pushFrame arguments locals
  | closeFrame => exact onStack_bind Stack.popFrame StackReply.frame
  | loadLocal index => exact look_bind (fun s => s.loadLocal index) StackReply.value
  | storeLocal index v => exact change_bind fun s => s.storeLocal index v

/-- A request that is not served changes nothing; one that is served changes only the stack. -/
lemma act_cases (request : StackRequest) (s : MachineState) :
    (∃ cause, Stack.serve request s.stack = .error cause ∧ request.act s = .error cause s) ∨
      ∃ reply stack, Stack.serve request s.stack = .ok (reply, stack) ∧
        request.act s = .ok reply { s with stack := stack } := by
  rw [act_eq]
  obtain ⟨stack, heap, depth⟩ := s
  unfold onStack
  dsimp only
  cases h : Stack.serve request stack with
  | error cause => exact .inl ⟨cause, rfl, rfl⟩
  | ok r => exact .inr ⟨r.1, r.2, rfl, rfl⟩

/-- What a request leaves of a stack that is orderly, served or not. -/
lemma endState_act (request : StackRequest) (s : MachineState) :
    (endState (request.act s)).stack = s.stack ∨
      s.stack.Serves request (endState (request.act s)).stack := by
  rcases act_cases request s with ⟨cause, -, hact⟩ | ⟨reply, stack, hserve, hact⟩ <;> rw [hact]
  · exact .inl rfl
  · exact .inr (Stack.serves_of_serve hserve)

lemma orderly_act (h : s.stack.Orderly) (request : StackRequest) :
    (endState (request.act s)).stack.Orderly ∧
      (endState (request.act s)).stack.limit = s.stack.limit := by
  rcases endState_act request s with heq | hserves
  · rw [heq]
    exact ⟨h, rfl⟩
  · exact h.serves hserves

/-- An orderly stack stays orderly whatever is asked of it. -/
theorem orderly_after (h : s.stack.Orderly) (requests : List StackRequest) :
    (after requests s).stack.Orderly ∧ (after requests s).stack.limit = s.stack.limit := by
  induction requests generalizing s with
  | nil => exact ⟨h, rfl⟩
  | cons request more ih =>
    obtain ⟨horderly, hlimit⟩ := orderly_act h request
    obtain ⟨hafter, hkept⟩ := ih horderly
    exact ⟨hafter, hkept.trans hlimit⟩

/-- What an open frame guards while requests are made that leave it open. -/
structure Guards (f : Frame) (rest : List Frame) (s : MachineState) (more : List StackRequest) :
    Prop where
  /-- Nothing below the frame is changed. -/
  below : ∀ i < f.base, (after more s).stack.slots[i]? = s.stack.slots[i]?
  /-- Nothing below the frame is read. -/
  unread : ∀ s', s.stack.AgreeFrom f.base s'.stack → answers more s' = answers more s ∧
    (after more s).stack.AgreeFrom f.base (after more s').stack
  /-- The frame stays open until it is closed as the top one. -/
  stays : ∀ request, ¬ (after (more ++ [request]) s).stack.Open f rest →
    request = .closeFrame ∧ (after more s).stack.frames = f :: rest
  /-- Closing the frame gives what was below it. -/
  closed : (after more s).stack.frames = f :: rest →
    closeFrame.act (after more s) = .ok (.frame f) { after more s with
      stack := ⟨s.stack.slots.take f.base, rest, s.stack.limit⟩ }

/-- One request guards what lies below an open frame. -/
lemma below_act (h : s.stack.Orderly) (hopen : s.stack.Open f rest) (request : StackRequest) :
    ∀ i < f.base, (endState (request.act s)).stack.slots[i]? = s.stack.slots[i]? := by
  intro i hi
  rcases endState_act request s with heq | hserves
  · rw [heq]
  · exact hserves.below h.floor_le (Nat.lt_of_lt_of_le hi (hopen.base_le h.nested))

lemma unread_act {s' : MachineState} (h : s.stack.Orderly) (hopen : s.stack.Open f rest)
    (hagree : s.stack.AgreeFrom f.base s'.stack) (request : StackRequest) :
    answer (request.act s') = answer (request.act s) ∧
      (endState (request.act s)).stack.AgreeFrom f.base (endState (request.act s')).stack := by
  have halike := Stack.serve_alike hagree (hopen.base_le h.nested) request
  rcases act_cases request s with ⟨cause, hserve, hact⟩ | ⟨reply, stack, hserve, hact⟩ <;>
    rcases act_cases request s' with ⟨cause', hserve', hact'⟩ | ⟨reply', stack', hserve', hact'⟩ <;>
    rw [hserve, hserve'] at halike <;> rw [hact, hact']
  · exact ⟨congrArg Except.error halike, hagree⟩
  · exact halike.elim
  · exact halike.elim
  · exact ⟨congrArg Except.ok halike.1, halike.2⟩

lemma after_append (requests more : List StackRequest) (s : MachineState) :
    after (requests ++ more) s = after more (after requests s) := by
  induction requests generalizing s with
  | nil => rfl
  | cons request requests ih => exact ih _

/-- An open frame guards what lies below it, whatever is asked for while it is open. -/
theorem guards (h : s.stack.Orderly) {more : List StackRequest}
    (hopen : ∀ done, done <+: more → (after done s).stack.Open f rest) : Guards f rest s more := by
  have horderly := orderly_after h more
  have hbelow : ∀ i < f.base, (after more s).stack.slots[i]? = s.stack.slots[i]? := by
    clear horderly
    induction more generalizing s with
    | nil => exact fun _ _ => rfl
    | cons request more ih =>
      intro i hi
      have hfirst := below_act h (hopen [] (List.nil_prefix)) request i hi
      refine (ih (orderly_act h request).1 (fun done hdone => ?_) i hi).trans hfirst
      exact hopen (request :: done) (List.cons_prefix_cons.mpr ⟨rfl, hdone⟩)
  refine ⟨hbelow, ?_, fun request hclosed => ?_, fun hframes => ?_⟩
  · clear horderly hbelow
    induction more generalizing s with
    | nil => exact fun s' hagree => ⟨rfl, hagree⟩
    | cons request more ih =>
      intro s' hagree
      obtain ⟨hanswer, hagree⟩ := unread_act h (hopen [] (List.nil_prefix)) hagree request
      obtain ⟨hanswers, hafter⟩ := ih (orderly_act h request).1
        (fun done hdone => hopen (request :: done) (List.cons_prefix_cons.mpr ⟨rfl, hdone⟩))
        _ hagree
      exact ⟨congrArg₂ List.cons hanswer hanswers, hafter⟩
  · rw [after_append] at hclosed
    rcases endState_act request (after more s) with heq | hserves
    · exact absurd (heq ▸ hopen more List.prefix_rfl) hclosed
    · exact (hserves.open_or (hopen more List.prefix_rfl)).resolve_left hclosed
  · have hslots : (after more s).stack.slots.shrink f.base = s.stack.slots.take f.base := by
      apply Array.ext_getElem?
      intro i
      rw [Array.shrink_eq_take, Stack.getElem?_take, Stack.getElem?_take]
      split
      · next hlt => exact hbelow i hlt
      · rfl
    have hserve : Stack.serve .closeFrame (after more s).stack =
        .ok (.frame f, ⟨s.stack.slots.take f.base, rest, s.stack.limit⟩) := by
      rw [← hslots, ← horderly.2]
      show (after more s).stack.popFrame.map _ = _
      rw [Stack.popFrame_cons hframes]
      rfl
    rcases act_cases .closeFrame (after more s) with
      ⟨cause, herror, -⟩ | ⟨reply, stack, hok, hact⟩
    · rw [hserve] at herror
      cases herror
    · rw [hserve] at hok
      obtain ⟨rfl, rfl⟩ := Prod.mk.inj (Except.ok.inj hok)
      exact hact

/-! ### Discipline -/

/-- Stacks and calls are disciplined. A stack that is made with a limit stays orderly and below the
limit, whatever is asked of it; a request that is not served changes nothing, and an open frame guards
what lies below it. A call leaves the stack as it was when no frame is opened for it; else it closes its
frame, on success and on every failure, and only the arguments are gone. -/
theorem stack_and_calls_disciplined :
    (∀ (limit : Nat) (heap : Heap) (depth : Nat) (requests : List StackRequest) (s : MachineState),
      s = after requests ⟨.empty limit, heap, depth⟩ →
        s.stack.Orderly ∧ s.stack.limit = limit ∧
        (∀ (request : StackRequest) cause s', request.act s = .error cause s' → s' = s) ∧
        ∀ f rest more, (∀ done, done <+: more → (after done s).stack.Open f rest) →
          Guards f rest s more) ∧
    ∀ (vm : Machine) (fuel : Nat) (target : Executable) (argc : Nat) (s : MachineState)
      (res : RunResult), Machine.call vm fuel target argc s = some res →
        (∃ cause, Machine.enter vm target argc s = .error cause s ∧ res = .error cause s) ∨
        (∃ s₁, Machine.enter vm target argc s = .ok () s₁) ∧
          Machine.Unloaded argc s (endState res) := by
  refine ⟨?_, ?_⟩
  · rintro limit heap depth requests s rfl
    obtain ⟨horderly, hlimit⟩ := orderly_after (s := ⟨.empty limit, heap, depth⟩)
      (Stack.orderly_empty limit) requests
    refine ⟨horderly, hlimit, fun request cause s' herror => ?_, fun f rest more hopen => ?_⟩
    · rcases act_cases request (after requests ⟨.empty limit, heap, depth⟩) with
        ⟨cause', -, hact⟩ | ⟨reply, stack, -, hact⟩ <;> rw [hact] at herror
      · exact (EStateM.Result.error.inj herror).2.symm
      · cases herror
    · exact guards horderly hopen
  · intro vm fuel target argc s res hcall
    rcases Machine.call_cases hcall with hrefused | ⟨s₁, res₁, hentered, -, -, hunloaded⟩
    · exact .inl hrefused
    · exact .inr ⟨⟨s₁, hentered⟩, hunloaded⟩

/-- A body that pops more operands than it has. -/
def greedy : Executable where
  key := "m(I)V"
  signature := ⟨"m", ⟨[.i32], .void⟩⟩
  isStatic := true
  typeId := 0
  typeName := "a.T"
  unitName := "a.T"
  version := 0
  locals := 2
  throws := []
  code := .ofBytes [1]
  constants := .empty

def failure? : RunResult → Option VmError
  | .ok _ _ => none
  | .error cause _ => some cause

/-- A frame with two arguments guards the value below them while another frame is opened over it, and a
call that fails in its body is closed. -/
theorem discipline_of_nested_frames :
    (∃ s, s = after [.push (.i32 7), .push (.i32 10), .push (.i32 20), .openFrame 2 3]
        ⟨.empty 8, .empty, 0⟩ ∧
      (∀ done, done <+: [.push (.i32 99), .storeLocal 2 (.i32 5), .openFrame 1 2] →
        (after done s).stack.Open ⟨1, 3, 2⟩ []) ∧
      Guards ⟨1, 3, 2⟩ [] s [.push (.i32 99), .storeLocal 2 (.i32 5), .openFrame 1 2]) ∧
    ∃ s s', s = ⟨⟨#[.i32 7, .i32 10], [], 8⟩, .empty, 0⟩ ∧
      Machine.call ⟨.create .default, 1⟩ 2 greedy 1 s = some (.error .stackUnderflow s') ∧
      (∃ s₁, Machine.enter ⟨.create .default, 1⟩ greedy 1 s = .ok () s₁) ∧
      Machine.Unloaded 1 s s' := by
  have hopen : ∀ done, done <+: [.push (.i32 99), .storeLocal 2 (.i32 5), .openFrame 1 2] →
      (after done (after [.push (.i32 7), .push (.i32 10), .push (.i32 20), .openFrame 2 3]
        ⟨.empty 8, .empty, 0⟩)).stack.Open ⟨1, 3, 2⟩ [] := by
    intro done hdone
    rw [← List.mem_inits] at hdone
    simp only [List.inits, List.mem_cons, List.map_cons, List.map_nil, List.not_mem_nil,
      or_false] at hdone
    rcases hdone with rfl | rfl | rfl | rfl
    · exact ⟨[], rfl⟩
    · exact ⟨[], rfl⟩
    · exact ⟨[], rfl⟩
    · exact ⟨[⟨4, 2, 1⟩], rfl⟩
  have hcall : (Machine.call ⟨.create .default, 1⟩ 2 greedy 1
      ⟨⟨#[.i32 7, .i32 10], [], 8⟩, .empty, 0⟩).bind failure? = some .stackUnderflow := by
    decide +kernel
  obtain ⟨-, -, -, hguards⟩ := stack_and_calls_disciplined.1 8 .empty 0 _ _ rfl
  refine ⟨⟨_, rfl, hopen, hguards _ _ _ hopen⟩, ?_⟩
  obtain ⟨res, hres, hfailure⟩ := Option.bind_eq_some_iff.mp hcall
  cases res with
  | ok v s' => cases hfailure
  | error cause s' =>
    obtain rfl := Option.some.inj hfailure
    refine ⟨_, s', rfl, hres, ⟨_, rfl⟩, ?_⟩
    rcases stack_and_calls_disciplined.2 _ _ _ _ _ _ hres with ⟨cause, hrefused, -⟩ | hclosed
    · cases hrefused
    · exact hclosed.2

end StackRequest

end LiveTypes
