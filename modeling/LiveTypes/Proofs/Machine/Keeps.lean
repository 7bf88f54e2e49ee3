import LiveTypes.Machine.State
import LiveTypes.Proofs.Heap.Sound
import LiveTypes.Proofs.Machine.Run
import LiveTypes.Proofs.Machine.Stack
import LiveTypes.Proofs.TypeUnit.ConstantPool

/-!
# What actions keep

An action of running code starts in a state whose heap and stack are sound for the registry. Whatever
comes of it, the heap stays sound and no frame is opened or closed; on success the stack is sound too.
`Keeps` says this together with what holds of the result, and that a failure is not structural. Only
the site keys of a body with more constants than there are indices may be missing.
-/

namespace LiveTypes

/-- Failures that sound code never runs into. -/
def VmError.IsStructural : VmError → Prop
  | .decode _ | .notRedirected _ => True
  | .runtime (.noPosition _ _) => False
  | .runtime _ => True
  | _ => False

/-- Failures over the key of a capture site. -/
def VmError.IsSiteFault : VmError → Prop
  | .runtime (.badSiteKey _) | .runtime (.unboundSite _) => True
  | _ => False

/-- Whether code of a registry may be running: an implementation or a dispatcher of a type. -/
def Registry.HasBody (r : Registry) (e : Executable) : Prop :=
  ∃ t ∈ r.types, ∃ key, t.table.find? key = some e ∨ t.dispatchers.find? key = some e

/-- Whether some body has an overfull pool. -/
def Registry.Overfull (r : Registry) : Prop := ∃ e, r.HasBody e ∧ e.constants.Overfull

/-- Failures that the code of a registry may come to. -/
def VmError.Tolerated (r : Registry) (e : VmError) : Prop :=
  e.IsStructural → e.IsSiteFault ∧ r.Overfull

lemma VmError.Tolerated.of_not {r : Registry} {e : VmError} (h : ¬ e.IsStructural) :
    e.Tolerated r :=
  fun h' => absurd h' h

namespace MachineState

variable {r : Registry} {s s' s'' : MachineState}

/-- A state whose values all belong to the registry, with all locals of the top frame in place. -/
structure Sound (r : Registry) (s : MachineState) : Prop where
  heap : s.heap.Sound r
  stack : ∀ v ∈ s.stack.slots, s.heap.Holds v
  floor_le : s.stack.floor ≤ s.stack.slots.size

/-- Whether a state has the frames and the objects of another. -/
structure Grows (s s' : MachineState) : Prop where
  frames_eq : s'.stack.frames = s.stack.frames
  limit_eq : s'.stack.limit = s.stack.limit
  heap : s.heap.Grows s'.heap

lemma Grows.refl (s : MachineState) : s.Grows s := ⟨rfl, rfl, .refl _⟩

lemma Grows.trans (h : s.Grows s') (h' : s'.Grows s'') : s.Grows s'' :=
  ⟨h'.frames_eq.trans h.frames_eq, h'.limit_eq.trans h.limit_eq, h.heap.trans h'.heap⟩

end MachineState

namespace Run

variable {r : Registry} {α β : Type} {s : MachineState}

def Settles (r : Registry) (Q : α → MachineState → Prop) (s : MachineState) :
    EStateM.Result VmError MachineState α → Prop
  | .ok a s' => s'.Sound r ∧ s.Grows s' ∧ Q a s'
  | .error e s' => s'.heap.Sound r ∧ s.Grows s' ∧ e.Tolerated r

/-- Whether an action keeps the invariants of a state, and on success gives something. -/
def Keeps (r : Registry) (x : Run α) (Q : α → MachineState → Prop) (s : MachineState) : Prop :=
  Settles r Q s (x s)

lemma Settles.trans {Q : α → MachineState → Prop} {s' : MachineState}
    {res : EStateM.Result VmError MachineState α} (h : Settles r Q s' res) (hgrows : s.Grows s') :
    Settles r Q s res := by
  cases res with
  | ok a s'' => exact ⟨h.1, hgrows.trans h.2.1, h.2.2⟩
  | error e s'' => exact ⟨h.1, hgrows.trans h.2.1, h.2.2⟩

lemma Keeps.of_ok {x : Run α} {Q : α → MachineState → Prop} {a : α} {s' : MachineState}
    (h : Keeps r x Q s) (hrun : x s = .ok a s') : s'.Sound r ∧ s.Grows s' ∧ Q a s' := by
  unfold Keeps at h
  rwa [hrun] at h

lemma Keeps.of_error {x : Run α} {Q : α → MachineState → Prop} {e : VmError} {s' : MachineState}
    (h : Keeps r x Q s) (hrun : x s = .error e s') :
    s'.heap.Sound r ∧ s.Grows s' ∧ e.Tolerated r := by
  unfold Keeps at h
  rwa [hrun] at h

lemma Keeps.bind {x : Run α} {f : α → Run β} {Q : α → MachineState → Prop}
    {R : β → MachineState → Prop} (hx : Keeps r x Q s)
    (hf : ∀ a s', s'.Sound r → s.Grows s' → Q a s' → Keeps r (f a) R s') :
    Keeps r (x >>= f) R s := by
  unfold Keeps
  cases hrun : x s with
  | error e s' =>
    rw [bind_of_error hrun]
    exact hx.of_error hrun
  | ok a s' =>
    obtain ⟨hsound, hgrows, hq⟩ := hx.of_ok hrun
    rw [bind_of_ok hrun]
    exact (hf a s' hsound hgrows hq).trans hgrows

lemma Keeps.mono {x : Run α} {Q R : α → MachineState → Prop} (hx : Keeps r x Q s)
    (h : ∀ a s', Q a s' → R a s') : Keeps r x R s := by
  unfold Keeps
  cases hrun : x s with
  | error e s' => exact hx.of_error hrun
  | ok a s' =>
    obtain ⟨hsound, hgrows, hq⟩ := hx.of_ok hrun
    exact ⟨hsound, hgrows, h a s' hq⟩

lemma keeps_pure (hs : s.Sound r) {a : α} {Q : α → MachineState → Prop} (hq : Q a s) :
    Keeps r (pure a) Q s :=
  ⟨hs, .refl s, hq⟩

lemma keeps_throw (hs : s.Sound r) {e : VmError} (he : e.Tolerated r)
    {Q : α → MachineState → Prop} : Keeps r (throw e) Q s :=
  ⟨hs.heap, .refl s, he⟩

lemma keeps_get (hs : s.Sound r) :
    Keeps r (get : Run MachineState) (fun a s' => s = a ∧ s = s') s :=
  ⟨hs, .refl s, rfl, rfl⟩

lemma keeps_require (hs : s.Sound r) {e : VmError} {o : Option α}
    (he : o = none → e.Tolerated r) :
    Keeps r (require e o) (fun a s' => o = some a ∧ s = s') s := by
  cases o with
  | some a => exact keeps_pure hs ⟨rfl, rfl⟩
  | none => exact keeps_throw hs (he rfl)

lemma keeps_lift (hs : s.Sound r) {x : Except VmError α}
    (he : ∀ e, x = .error e → e.Tolerated r) :
    Keeps r (lift x) (fun a s' => x = .ok a ∧ s = s') s := by
  cases x with
  | ok a => exact keeps_pure hs ⟨rfl, rfl⟩
  | error e => exact keeps_throw hs (he e rfl)

/-! ### The stack -/

lemma keeps_onStack_ok (hs : s.Sound r) {f : Stack → Except VmError (α × Stack)} {a : α}
    {slots : Array Value} {Q : α → MachineState → Prop}
    (hf : f s.stack = .ok (a, { s.stack with slots })) (hfloor : s.stack.floor ≤ slots.size)
    (hslots : ∀ v ∈ slots, s.heap.Holds v) (hq : Q a { s with stack := { s.stack with slots } }) :
    Keeps r (onStack f) Q s := by
  have hrun : onStack f s = .ok a { s with stack := { s.stack with slots } } := by
    obtain ⟨stack', heap, depth⟩ := s
    simp only [onStack]
    rw [show f stack' = _ from hf]
  unfold Keeps
  rw [hrun]
  exact ⟨⟨hs.heap, hslots, hfloor⟩, ⟨rfl, rfl, .refl _⟩, hq⟩

lemma keeps_onStack_error (hs : s.Sound r) {f : Stack → Except VmError (α × Stack)} {e : VmError}
    {Q : α → MachineState → Prop} (hf : f s.stack = .error e) (he : e.Tolerated r) :
    Keeps r (onStack f) Q s := by
  have hrun : onStack f s = .error e s := by
    obtain ⟨stack', heap, depth⟩ := s
    simp only [onStack]
    rw [show f stack' = _ from hf]
  unfold Keeps
  rw [hrun]
  exact ⟨hs.heap, .refl s, he⟩

/-- What is popped is there. -/
lemma keeps_pop (hs : s.Sound r) : Keeps r pop (fun v s' => s'.heap.Holds v) s := by
  rcases s.stack.pop_cases with ⟨v, hlt, hback, hpop⟩ | herror
  · obtain ⟨below, hbelow⟩ := Array.back?_eq_some_iff.mp hback
    have hpopped : s.stack.slots.pop = below := by rw [hbelow, Array.pop_push]
    refine keeps_onStack_ok hs hpop ?_ (fun w hw => hs.stack w ?_) (hs.stack v ?_)
    · rw [Array.size_pop]
      omega
    · rw [hbelow]
      exact Array.mem_push_of_mem v (hpopped ▸ hw)
    · rw [hbelow]
      exact Array.mem_push_self
  · exact keeps_onStack_error hs herror (.of_not id)

/-- What is pushed has to be there. -/
lemma keeps_push (hs : s.Sound r) {v : Value} (hv : s.heap.Holds v) :
    Keeps r (push v) (fun _ s' => s'.heap = s.heap) s := by
  unfold push
  rcases s.stack.push_cases v with hpush | herror
  · have hrun := congrArg (Except.map ((), ·)) hpush
    refine keeps_onStack_ok hs hrun ?_ (fun w hw => ?_) rfl
    · rw [Array.size_push]
      exact Nat.le_succ_of_le hs.floor_le
    rcases Array.mem_push.mp hw with hw | rfl
    · exact hs.stack w hw
    · exact hv
  · exact keeps_onStack_error hs (congrArg (Except.map ((), ·)) herror) (.of_not id)

lemma keeps_peek (hs : s.Sound r) (n : Nat) :
    Keeps r (peek n) (fun v s' => s.heap.Holds v ∧ s = s') s := by
  refine (keeps_get hs).bind ?_
  rintro _ _ - - ⟨rfl, rfl⟩
  rcases s.stack.peek_cases n with ⟨v, hv, hpeek⟩ | herror
  · refine (keeps_lift hs fun e he => ?_).mono ?_
    · rw [hpeek] at he
      cases he
    · rintro w s' ⟨hw, rfl⟩
      obtain rfl := Except.ok.inj (hpeek.symm.trans hw)
      exact ⟨hs.stack v hv, rfl⟩
  · rw [herror]
    exact keeps_throw hs (.of_not id)

lemma keeps_loadLocal (hs : s.Sound r) {index : Nat} (hindex : s.stack.HasLocal index) :
    Keeps r (loadLocal index) (fun v s' => s'.heap.Holds v) s := by
  refine (keeps_get hs).bind ?_
  rintro _ _ - - ⟨rfl, rfl⟩
  rcases s.stack.loadLocal_cases index with ⟨v, hv, hload⟩ | ⟨hnone, e, herror⟩
  · rw [hload]
    refine keeps_pure hs ?_
    rcases hv with hv | rfl
    · exact hs.stack v hv
    · trivial
  · rw [herror]
    exact absurd hindex hnone

lemma keeps_storeLocal (hs : s.Sound r) {index : Nat} {v : Value}
    (hindex : s.stack.HasLocal index) (hv : s.heap.Holds v) :
    Keeps r (storeLocal index v) (fun _ _ => True) s := by
  rcases s.stack.storeLocal_cases index v with ⟨place, hstore⟩ | ⟨hnone, e, herror⟩
  · have hrun := congrArg (Except.map ((), ·)) hstore
    refine keeps_onStack_ok hs hrun ?_ (fun w hw => ?_) trivial
    · rw [Array.size_setIfInBounds]
      exact hs.floor_le
    rcases Array.mem_or_eq_of_mem_setIfInBounds hw with hw | rfl
    · exact hs.stack w hw
    · exact hv
  · exact absurd hindex hnone

/-- Everything that is popped is there, as well as what was popped before. -/
lemma keeps_popMany (hs : s.Sound r) {n : Nat} {above : List Value}
    (habove : ∀ v ∈ above, s.heap.Holds v) :
    Keeps r (popMany n above) (fun values s' => ∀ v ∈ values, s'.heap.Holds v) s := by
  induction n generalizing s above with
  | zero => exact keeps_pure hs habove
  | succ n ih =>
    refine (keeps_pop hs).bind fun v s' hs' hgrows hv => ih hs' ?_
    intro w hw
    rcases List.mem_cons.mp hw with rfl | hw
    · exact hv
    · exact (habove w hw).grows hgrows.heap

lemma keeps_popI32 (hs : s.Sound r) : Keeps r popI32 (fun _ _ => True) s :=
  (keeps_pop hs).bind fun _ _ hs' _ _ => (keeps_require hs' fun _ => .of_not id).mono fun _ _ _ => trivial

lemma keeps_popI64 (hs : s.Sound r) : Keeps r popI64 (fun _ _ => True) s :=
  (keeps_pop hs).bind fun _ _ hs' _ _ => (keeps_require hs' fun _ => .of_not id).mono fun _ _ _ => trivial

lemma keeps_popF64 (hs : s.Sound r) : Keeps r popF64 (fun _ _ => True) s := by
  refine (keeps_pop hs).bind fun v s' hs' _ _ => ?_
  cases v with
  | f64 d => exact keeps_pure hs' trivial
  | _ => exact keeps_throw hs' (.of_not id)

lemma keeps_popBool (hs : s.Sound r) : Keeps r popBool (fun _ _ => True) s :=
  (keeps_pop hs).bind fun _ _ hs' _ _ => (keeps_require hs' fun _ => .of_not id).mono fun _ _ _ => trivial

lemma keeps_popIntegers (hs : s.Sound r) : Keeps r popIntegers (fun _ _ => True) s := by
  refine (keeps_pop hs).bind fun b s₁ hs₁ _ _ => (keeps_pop hs₁).bind fun a s₂ hs₂ _ _ => ?_
  split
  · exact keeps_pure hs₂ trivial
  · exact keeps_pure hs₂ trivial
  · exact keeps_throw hs₂ (.of_not id)

/-- A reference to an instance that is popped names an instance of its type. -/
lemma keeps_popInstance (hs : s.Sound r) :
    Keeps r popInstance (fun p s' => s'.heap.Holds (.object p.1 p.2)) s := by
  refine (keeps_pop hs).bind fun v s' hs' _ hv => ?_
  cases v with
  | object id typeName => exact keeps_pure hs' hv
  | _ => exact keeps_throw hs' (.of_not id)

/-- A closure that is popped was created at a bound site, and what it holds is there. -/
lemma keeps_popClosure (hs : s.Sound r) :
    Keeps r popClosure (fun c s' => (∃ site, r.sites.find? c.site = some site) ∧
      ∀ v ∈ c.captured ++ c.enclosing.toList, s'.heap.Holds v) s := by
  refine (keeps_pop hs).bind fun v s' hs' _ _ => ?_
  cases v with
  | closure id =>
    refine (keeps_get hs').bind ?_
    rintro _ _ - - ⟨rfl, rfl⟩
    refine (keeps_require (e := .nullPointer) hs' fun _ => .of_not fun h => h).mono ?_
    rintro c s'' ⟨hc, rfl⟩
    exact ⟨hs'.heap.closures id c hc, hs'.heap.captured id c hc⟩
  | _ => exact keeps_throw hs' (.of_not id)

/-! ### The heap -/

lemma keeps_modifyHeap (hs : s.Sound r) {f : Heap → Heap} (hsound : (f s.heap).Sound r)
    (hgrows : s.heap.Grows (f s.heap)) :
    Keeps r (modifyHeap f) (fun _ _ => True) s :=
  ⟨⟨hsound, fun v hv => (hs.stack v hv).grows hgrows, hs.floor_le⟩, ⟨rfl, rfl, hgrows⟩, trivial⟩

lemma keeps_allocate (hs : s.Sound r) {o : HeapObject} (ho : Heap.Admits r s.heap o) :
    Keeps r (allocate o) (fun id s' => s'.heap.objects[id]? = some o) s := by
  have hgrows := Heap.grows_allocate s.heap o
  refine ⟨⟨hs.heap.allocate ho, fun v hv => (hs.stack v hv).grows hgrows, hs.floor_le⟩,
    ⟨rfl, rfl, hgrows⟩, ?_⟩
  show (s.heap.allocate o).2.objects[s.heap.objects.size]? = some o
  rw [Heap.objects_allocate, if_pos rfl]

end Run

end LiveTypes
