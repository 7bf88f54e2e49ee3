import LiveTypes.Proofs.Alike
import LiveTypes.Proofs.Machine.Ground
import LiveTypes.Proofs.Renaming

/-!
# Actions over different grounds

An action sees nothing of the ground under its frame. So it gives the same over two grounds, unless one
of them has no room for it (`Agree`). Neither does it see the identities of types, and so the heaps may
differ by a renaming of them.
-/

namespace LiveTypes

def View.rename (σ : Renaming) (v : View) : View := { v with heap := v.heap.rename σ }

/-- Whether two states have the same frame on different grounds, and renamed heaps. -/
def Ground.Over (σ : Renaming) (g g' : Ground) (s s' : MachineState) : Prop :=
  ∃ v, s = g.state v ∧ s' = g'.state (v.rename σ)

namespace Run

variable {σ : Renaming} {g g' : Ground} {α α' β β' : Type} {v : View}

/-- Whether two results are the same but for the identities of types, with states that belong together,
or one of them is a lack of room. -/
inductive Tallies (σ : Renaming) (P Q : MachineState → MachineState → Prop) (R : α → α' → Prop) :
    EStateM.Result VmError MachineState α → EStateM.Result VmError MachineState α' → Prop
  | ok {a : α} {a' : α'} {s s' : MachineState} (h : R a a') (hs : P s s') :
      Tallies σ P Q R (.ok a s) (.ok a' s')
  | error (e : VmError) {s s' : MachineState} (hs : Q s s') :
      Tallies σ P Q R (.error e s) (.error (e.rename σ) s')
  | limit {e : VmError} (h : e.IsLimit) {s s' : MachineState} (hs : Q s s')
      (res : EStateM.Result VmError MachineState α') : Tallies σ P Q R (.error e s) res
  | limit' {e : VmError} (h : e.IsLimit) {s s' : MachineState} (hs : Q s s')
      (res : EStateM.Result VmError MachineState α) : Tallies σ P Q R res (.error e s')

lemma Tallies.imp {P Q P' Q' : MachineState → MachineState → Prop} {R R' : α → α' → Prop}
    {res : EStateM.Result VmError MachineState α} {res' : EStateM.Result VmError MachineState α'}
    (h : Tallies σ P Q R res res') (hP : ∀ s s', P s s' → P' s s') (hQ : ∀ s s', Q s s' → Q' s s')
    (hR : ∀ a a', R a a' → R' a a') : Tallies σ P' Q' R' res res' := by
  cases h with
  | ok h hs => exact .ok (hR _ _ h) (hP _ _ hs)
  | error e hs => exact .error e (hQ _ _ hs)
  | limit h hs => exact .limit h (hQ _ _ hs) _
  | limit' h hs => exact .limit' h (hQ _ _ hs) _

/-- Whether two actions give the same over two grounds. -/
def Agree (σ : Renaming) (g g' : Ground) (R : α → α' → Prop) (x : Run α) (x' : Run α') (v : View) :
    Prop :=
  Tallies σ (Ground.Over σ g g') (Ground.Over σ g g') R (x (g.state v)) (x' (g'.state (v.rename σ)))

lemma Agree.bind_of_eq {R : α → α' → Prop} {Q : β → β' → Prop} {x : Run α} {x' : Run α'}
    {f : α → Run β} {f' : α' → Run β'} (hx : Agree σ g g' R x x' v)
    (hf : ∀ a a' v₁, R a a' → x (g.state v) = .ok a (g.state v₁) →
      Agree σ g g' Q (f a) (f' a') v₁) : Agree σ g g' Q (x >>= f) (x' >>= f') v := by
  unfold Agree at hx ⊢
  generalize hrun : x (g.state v) = res at hx hf
  generalize hrun' : x' (g'.state (v.rename σ)) = res' at hx
  cases hx with
  | ok h hs =>
    obtain ⟨v₁, rfl, rfl⟩ := hs
    rw [bind_of_ok hrun, bind_of_ok hrun']
    exact hf _ _ v₁ h rfl
  | error e hs =>
    rw [bind_of_error hrun, bind_of_error hrun']
    exact .error e hs
  | limit h hs =>
    rw [bind_of_error hrun]
    exact .limit h hs _
  | limit' h hs =>
    rw [bind_of_error hrun']
    exact .limit' h hs _

lemma Agree.bind {R : α → α' → Prop} {Q : β → β' → Prop} {x : Run α} {x' : Run α'} {f : α → Run β}
    {f' : α' → Run β'} (hx : Agree σ g g' R x x' v)
    (hf : ∀ a a' v, R a a' → Agree σ g g' Q (f a) (f' a') v) :
    Agree σ g g' Q (x >>= f) (x' >>= f') v :=
  hx.bind_of_eq fun a a' v₁ h _ => hf a a' v₁ h

/-- What comes to the same on both grounds goes on with it. -/
lemma Agree.after {Q : β → β' → Prop} {x x' : Run α} {f : α → Run β} {f' : α → Run β'}
    (hx : Agree σ g g' Eq x x' v) (hf : ∀ a v, Agree σ g g' Q (f a) (f' a) v) :
    Agree σ g g' Q (x >>= f) (x' >>= f') v :=
  hx.bind fun a _ v h => h ▸ hf a v

lemma Agree.ite {R : α → α' → Prop} {p : Prop} [Decidable p] {x y : Run α} {x' y' : Run α'}
    (hx : p → Agree σ g g' R x x' v) (hy : ¬ p → Agree σ g g' R y y' v) :
    Agree σ g g' R (if p then x else y) (if p then x' else y') v := by
  split_ifs with hp
  · exact hx hp
  · exact hy hp

/-! ### Pure actions -/

lemma agree_pure {R : α → α' → Prop} {a : α} {a' : α'} (h : R a a') :
    Agree σ g g' R (pure a) (pure a') v :=
  .ok h ⟨v, rfl, rfl⟩

/-- What an action does with the state on both grounds. -/
lemma agree_get {Q : β → β' → Prop} {f : MachineState → Run β} {f' : MachineState → Run β'}
    (h : Agree σ g g' Q (f (g.state v)) (f' (g'.state (v.rename σ))) v) :
    Agree σ g g' Q (get >>= f) (get >>= f') v :=
  h

lemma agree_throw {R : α → α' → Prop} (e : VmError) :
    Agree σ g g' R (throw e) (throw (e.rename σ)) v :=
  .error e ⟨v, rfl, rfl⟩

/-- A failure without the identity of a type. -/
lemma agree_throw_same {R : α → α' → Prop} {e : VmError} (he : e.rename σ = e) :
    Agree σ g g' R (throw e) (throw e) v := by
  have h : Agree σ g g' R (throw e) (throw (e.rename σ)) v := agree_throw e
  rwa [he] at h

lemma agree_require {R : α → α' → Prop} {e e' : VmError} {o : Option α} {o' : Option α'}
    (h : Option.Rel R o o') (he : o = none → e' = e.rename σ) :
    Agree σ g g' R (require e o) (require e' o') v := by
  cases h with
  | some h => exact agree_pure h
  | none =>
    obtain rfl := he rfl
    exact agree_throw e

/-- The same value is required on both sides. -/
lemma agree_require_rename (e : VmError) (o : Option α) :
    Agree σ g g' Eq (require e o) (require (e.rename σ) o) v := by
  refine agree_require ?_ fun _ => rfl
  cases o with
  | none => exact .none
  | some a => exact .some rfl

lemma agree_require_same {e : VmError} (he : e.rename σ = e) (o : Option α) :
    Agree σ g g' Eq (require e o) (require e o) v := by
  have h : Agree σ g g' Eq (require e o) (require (e.rename σ) o) v := agree_require_rename e o
  rwa [he] at h

lemma agree_lift {x : Except VmError α} (he : ∀ e, x = .error e → e.rename σ = e) :
    Agree σ g g' Eq (lift x) (lift x) v := by
  cases x with
  | ok a => exact agree_pure rfl
  | error e => exact agree_throw_same (he e rfl)

/-- A computation whose failures are renamed. -/
lemma agree_lift_rename (x : Except VmError α) :
    Agree σ g g' Eq (lift x) (lift (x.mapError (VmError.rename σ))) v := by
  cases x with
  | ok a => exact agree_pure rfl
  | error e => exact agree_throw e

/-! ### Lookups -/

/-- Whether an action comes to the same in every state, and leaves it as it is. -/
def Stateless (x : Run α) : Prop := ∃ o, x = lift o

lemma stateless_pure (a : α) : (pure a : Run α).Stateless := ⟨.ok a, rfl⟩

lemma stateless_throw (e : VmError) : (throw e : Run α).Stateless := ⟨.error e, rfl⟩

lemma stateless_lift (o : Except VmError α) : (lift o).Stateless := ⟨o, rfl⟩

lemma stateless_require (e : VmError) (o : Option α) : (require e o).Stateless := by
  cases o with
  | none => exact stateless_throw e
  | some a => exact stateless_pure a

lemma Stateless.bind {x : Run α} {f : α → Run β} (hx : x.Stateless) (hf : ∀ a, (f a).Stateless) :
    (x >>= f).Stateless := by
  obtain ⟨o, rfl⟩ := hx
  cases o with
  | ok a => exact hf a
  | error e => exact stateless_throw e

/-- Lookups that agree over two grounds agree in all states. -/
lemma Agree.tallies {R : α → α' → Prop} {x : Run α} {x' : Run α'} (h : Agree σ g g' R x x' v)
    (hx : x.Stateless) (hx' : x'.Stateless) {P : MachineState → MachineState → Prop}
    {s s' : MachineState} (hs : P s s') : Tallies σ P P R (x s) (x' s') := by
  obtain ⟨o, rfl⟩ := hx
  obtain ⟨o', rfl⟩ := hx'
  unfold Agree at h
  generalize g.state v = s₀ at h
  generalize g'.state (v.rename σ) = s₀' at h
  cases o <;> cases o' <;> cases h
  case ok.ok.ok hR _ => exact .ok hR hs
  case error.error.error e _ => exact .error e hs
  case error.ok.limit he _ | error.error.limit he _ => exact .limit he hs _
  case ok.error.limit' he _ | error.error.limit' he _ => exact .limit' he hs _

/-! ### The top frame -/

lemma agree_onStack_ok {f : Stack → Except VmError (α × Stack)} (a : α) (slots : List Value)
    (hf : ∀ g : Ground, f (g.stack v) = .ok (a, g.stack { v with slots })) :
    Agree σ g g' Eq (onStack f) (onStack f) v := by
  have hrun : onStack f (g.state v) = .ok a (g.state { v with slots }) :=
    onStack_eq_ok.mpr ⟨hf g, rfl, rfl⟩
  have hrun' : onStack f (g'.state (v.rename σ)) =
      .ok a (g'.state (View.rename σ { v with slots })) :=
    onStack_eq_ok.mpr ⟨hf g', rfl, rfl⟩
  unfold Agree
  rw [hrun, hrun']
  exact .ok rfl ⟨_, rfl, rfl⟩

lemma agree_onStack_error {f : Stack → Except VmError (α × Stack)} {e : VmError}
    (he : e.rename σ = e) (hf : ∀ g : Ground, f (g.stack v) = .error e) :
    Agree σ g g' Eq (onStack f) (onStack f) v := by
  have herror : Tallies σ (Ground.Over σ g g') (Ground.Over σ g g') Eq
      (.error e (g.state v) : EStateM.Result _ _ α)
      (.error (e.rename σ) (g'.state (v.rename σ))) :=
    .error e ⟨v, rfl, rfl⟩
  rw [he] at herror
  unfold Agree
  rw [onStack_of_error (hf g), onStack_of_error (s := g'.state (v.rename σ)) (hf g')]
  exact herror

lemma agree_push (w : Value) : Agree σ g g' Eq (push w) (push w) v := by
  unfold Agree
  rcases Nat.lt_or_ge (g.below.length + v.slots.length) g.limit with h | h
  · rcases Nat.lt_or_ge (g'.below.length + v.slots.length) g'.limit with h' | h'
    · rw [push_state_of_lt h, push_state_of_lt (v := v.rename σ) h']
      exact .ok rfl ⟨{ v with slots := v.slots ++ [w] }, rfl, rfl⟩
    · rw [push_state_of_le (v := v.rename σ) h']
      exact .limit' (e := .stackOverflow) trivial ⟨v, rfl, rfl⟩ _
  · rw [push_state_of_le h]
    exact .limit (e := .stackOverflow) trivial ⟨v, rfl, rfl⟩ _

/-- A frame with operands has one on top. -/
lemma exists_concat_of_lt (h : v.locals < v.slots.length) :
    ∃ slots w, v = { v with slots := slots ++ [w] } := by
  rcases List.eq_nil_or_concat v.slots with hnil | ⟨slots, w, hslots⟩
  · rw [hnil] at h
    exact absurd h (Nat.not_lt_zero _)
  · exact ⟨slots, w, by rw [← List.concat_eq_append, ← hslots]⟩

lemma agree_pop : Agree σ g g' Eq pop pop v := by
  rcases Nat.lt_or_ge v.locals v.slots.length with h | h
  · obtain ⟨slots, w, hv⟩ := exists_concat_of_lt h
    refine agree_onStack_ok w slots fun g => ?_
    have hfloor : ¬ (g.stack v).slots.size ≤ (g.stack v).floor := by simpa using h
    rw [Stack.pop, if_neg hfloor, hv, g.slots_stack_concat, Array.back?_push, Array.pop_push]
    rfl
  · refine agree_onStack_error rfl fun g => if_pos ?_
    simpa using h

/-- What is read from the stack is the same over both grounds. -/
lemma agree_read {f : Stack → Except VmError α} {x : Except VmError α}
    (hf : ∀ g : Ground, f (g.stack v) = x) (he : ∀ e, x = .error e → e.rename σ = e) :
    Agree σ g g' Eq (do lift (f (← get).stack)) (do lift (f (← get).stack)) v := by
  refine agree_get ?_
  show Agree σ g g' Eq (lift (f (g.stack v))) (lift (f (g'.stack v))) v
  rw [hf, hf]
  exact agree_lift he

lemma agree_peek (n : Nat) : Agree σ g g' Eq (peek n) (peek n) v := by
  rcases Nat.lt_or_ge (v.locals + n) v.slots.length with h | h
  · have hlt : v.slots.length - 1 - n < v.slots.length := by omega
    refine agree_read (f := (·.peek n)) (x := .ok v.slots[v.slots.length - 1 - n]) (fun g => ?_) nofun
    have hfloor : ¬ (g.stack v).slots.size ≤ (g.stack v).floor + n := by
      rw [g.size_stack, g.floor_stack]
      omega
    have hplace : (g.stack v).slots.size - 1 - n = g.below.length + (v.slots.length - 1 - n) := by
      rw [g.size_stack]
      omega
    rw [Stack.peek, if_neg hfloor, hplace, g.getElem?_stack, List.getElem?_eq_getElem hlt]
  · refine agree_read (f := (·.peek n)) (x := .error .stackUnderflow) (fun g => if_pos ?_) ?_
    · rw [g.size_stack, g.floor_stack]
      omega
    · rintro e ⟨⟩
      rfl

lemma agree_loadLocal (index : Nat) :
    Agree σ g g' Eq (loadLocal index) (loadLocal index) v := by
  rcases Nat.lt_or_ge index v.locals with h | h
  · refine agree_read (f := (·.loadLocal index)) (x := .ok (v.slots[index]?.getD .null))
      (fun g => ?_) nofun
    rw [Stack.loadLocal, g.localPlace_stack, if_neg (Nat.not_le.mpr h)]
    simp only [Except.map, Array.getD_eq_getD_getElem?, g.getElem?_stack]
  · refine agree_read (f := (·.loadLocal index))
      (x := .error (.runtime (.localOutOfBounds index v.locals))) (fun g => ?_) ?_
    · rw [Stack.loadLocal, g.localPlace_stack, if_pos h]
      rfl
    · rintro e ⟨⟩
      rfl

lemma agree_storeLocal (index : Nat) (w : Value) :
    Agree σ g g' Eq (storeLocal index w) (storeLocal index w) v := by
  rcases Nat.lt_or_ge index v.locals with h | h
  · refine agree_onStack_ok () (v.slots.set index w) fun g => ?_
    rw [Stack.storeLocal, g.localPlace_stack, if_neg (Nat.not_le.mpr h)]
    simp [Except.map, Ground.stack, List.set_append_right]
  · refine agree_onStack_error (e := .runtime (.localOutOfBounds index v.locals)) rfl fun g => ?_
    rw [Stack.storeLocal, g.localPlace_stack, if_pos h]
    rfl

lemma agree_popMany (n : Nat) (above : List Value) :
    Agree σ g g' Eq (popMany n above) (popMany n above) v := by
  induction n generalizing above v with
  | zero => exact agree_pure rfl
  | succ n ih => exact agree_pop.after fun w v => ih (w :: above)

lemma agree_popI32 : Agree σ g g' Eq popI32 popI32 v :=
  agree_pop.after fun _ _ => agree_require_same rfl _

lemma agree_popI64 : Agree σ g g' Eq popI64 popI64 v :=
  agree_pop.after fun _ _ => agree_require_same rfl _

lemma agree_popBool : Agree σ g g' Eq popBool popBool v :=
  agree_pop.after fun _ _ => agree_require_same rfl _

lemma agree_popF64 : Agree σ g g' Eq popF64 popF64 v := by
  refine agree_pop.after fun w v => ?_
  cases w with
  | f64 d => exact agree_pure rfl
  | _ => exact agree_throw_same rfl

lemma agree_popIntegers : Agree σ g g' Eq popIntegers popIntegers v := by
  refine agree_pop.after fun b v => agree_pop.after fun a v => ?_
  split
  · exact agree_pure rfl
  · exact agree_pure rfl
  · exact agree_throw_same rfl

lemma agree_popInstance : Agree σ g g' Eq popInstance popInstance v := by
  refine agree_pop.after fun w v => ?_
  cases w with
  | object id typeName => exact agree_pure rfl
  | _ => exact agree_throw_same rfl

/-! ### The heap -/

lemma agree_require_closure (id : ObjectId) :
    Agree σ g g' (fun c c' => c' = c.rename σ) (do require .nullPointer ((← get).heap.closure? id))
      (do require .nullPointer ((← get).heap.closure? id)) v := by
  refine agree_get (agree_require ?_ fun _ => rfl)
  show Option.Rel _ (v.heap.closure? id) ((v.heap.rename σ).closure? id)
  rw [v.heap.closure?_rename]
  exact Outcome.rel_map _ fun _ => rfl

lemma agree_popClosure :
    Agree σ g g' (fun c c' => c' = c.rename σ) popClosure popClosure v := by
  refine agree_pop.after fun w v => ?_
  cases w with
  | closure id => exact agree_require_closure id
  | _ => exact agree_throw_same rfl

lemma agree_modifyHeap {f f' : Heap → Heap} (hf : ∀ h, f' (h.rename σ) = (f h).rename σ) :
    Agree σ g g' Eq (modifyHeap f) (modifyHeap f') v := by
  show Tallies σ _ _ Eq (.ok () (g.state { v with heap := f v.heap }))
    (.ok () (g'.state { v with heap := f' (v.heap.rename σ) }))
  rw [hf]
  exact .ok rfl ⟨{ v with heap := f v.heap }, rfl, rfl⟩

lemma agree_allocate (o : HeapObject) :
    Agree σ g g' Eq (allocate o) (allocate (o.rename σ)) v := by
  show Tallies σ _ _ Eq
    (.ok (v.heap.allocate o).1 (g.state { v with heap := (v.heap.allocate o).2 }))
    (.ok ((v.heap.rename σ).allocate (o.rename σ)).1
      (g'.state { v with heap := ((v.heap.rename σ).allocate (o.rename σ)).2 }))
  rw [v.heap.allocate_rename]
  exact .ok rfl ⟨{ v with heap := (v.heap.allocate o).2 }, rfl, rfl⟩

end Run

end LiveTypes
