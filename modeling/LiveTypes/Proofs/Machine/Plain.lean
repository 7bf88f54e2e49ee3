import LiveTypes.Machine.Step
import LiveTypes.Proofs.Machine.Run
import LiveTypes.Proofs.Machine.Stack

/-!
# Plain failures

Most of what an instruction does fails plainly if at all: the failure says of no type that it is missing,
lacks a field or is out of reach.
-/

namespace LiveTypes

/-- Whether a failure says of no type that it is missing, lacks a field or is out of reach. -/
def VmError.isPlain : VmError → Bool
  | .unknownType _ | .noSuchField _ _ | .illegalAccess _ _ => false
  | _ => true

namespace Run

variable {α β : Type}

/-- Whether all failures of an action are plain. -/
def Plain (x : Run α) : Prop := ∀ s cause s', x s = .error cause s' → cause.isPlain = true

lemma Plain.bind {x : Run α} {f : α → Run β} (hx : x.Plain) (hf : ∀ a, (f a).Plain) :
    (x >>= f).Plain := by
  intro s cause s' hrun
  rcases bind_eq_error.mp hrun with hfirst | ⟨a, s₁, -, hrest⟩
  · exact hx _ _ _ hfirst
  · exact hf a _ _ _ hrest

/-! ### Actions -/

lemma plain_pure (a : α) : (pure a : Run α).Plain := fun _ _ _ h => nomatch h

lemma plain_get : (get : Run MachineState).Plain := fun _ _ _ h => nomatch h

lemma plain_throw {e : VmError} (h : e.isPlain = true) : (throw e : Run α).Plain := by
  intro s cause s' hrun
  obtain ⟨rfl, -⟩ := EStateM.Result.error.inj hrun
  exact h

lemma plain_require {e : VmError} (h : e.isPlain = true) (o : Option α) : (require e o).Plain := by
  cases o with
  | some a => exact plain_pure a
  | none => exact plain_throw h

lemma plain_lift {x : Except VmError α} (h : ∀ e, x = .error e → e.isPlain = true) :
    (lift x).Plain := by
  cases x with
  | ok a => exact plain_pure a
  | error e => exact plain_throw (h e rfl)

lemma plain_onStack {f : Stack → Except VmError (α × Stack)}
    (h : ∀ stack e, f stack = .error e → e.isPlain = true) : (onStack f).Plain := by
  rintro ⟨stack, heap, depth⟩ cause s' hrun
  simp only [onStack] at hrun
  cases hf : f stack with
  | ok r =>
    rw [hf] at hrun
    cases hrun
  | error e =>
    rw [hf] at hrun
    obtain ⟨rfl, -⟩ := EStateM.Result.error.inj hrun
    exact h stack e hf

lemma plain_push (v : Value) : (push v).Plain := by
  refine plain_onStack fun stack e he => ?_
  rcases stack.push_cases v with h | h <;> rw [h] at he
  · cases he
  · obtain rfl := Except.error.inj he
    rfl

lemma plain_pop : pop.Plain := by
  refine plain_onStack fun stack e he => ?_
  rcases stack.pop_cases with ⟨v, -, -, h⟩ | h <;> rw [h] at he
  · cases he
  · obtain rfl := Except.error.inj he
    rfl

lemma plain_peek (n : Nat) : (peek n).Plain := by
  refine plain_get.bind fun s => plain_lift fun e he => ?_
  rcases s.stack.peek_cases n with ⟨v, -, h⟩ | h <;> rw [h] at he
  · cases he
  · obtain rfl := Except.error.inj he
    rfl

lemma plain_of_localPlace {stack : Stack} {index : Nat} {e : VmError}
    (h : stack.localPlace index = .error e) : e.isPlain = true := by
  unfold Stack.localPlace at h
  split at h
  · obtain rfl := Except.error.inj h
    rfl
  · split at h
    · obtain rfl := Except.error.inj h
      rfl
    · cases h

lemma plain_loadLocal (index : Nat) : (loadLocal index).Plain := by
  refine plain_get.bind fun s => plain_lift fun e he => ?_
  unfold Stack.loadLocal at he
  cases hplace : s.stack.localPlace index with
  | ok place => rw [hplace] at he; cases he
  | error e' =>
    rw [hplace] at he
    obtain rfl := Except.error.inj he
    exact plain_of_localPlace hplace

lemma plain_storeLocal (index : Nat) (v : Value) : (storeLocal index v).Plain := by
  refine plain_onStack fun stack e he => ?_
  unfold Stack.storeLocal at he
  cases hplace : stack.localPlace index with
  | ok place => rw [hplace] at he; cases he
  | error e' =>
    rw [hplace] at he
    obtain rfl := Except.error.inj he
    exact plain_of_localPlace hplace

lemma plain_modifyHeap (f : Heap → Heap) : (modifyHeap f).Plain := fun _ _ _ h => nomatch h

lemma plain_allocate (o : HeapObject) : (allocate o).Plain := fun _ _ _ h => nomatch h

lemma plain_popMany (n : Nat) (above : List Value) : (popMany n above).Plain := by
  induction n generalizing above with
  | zero => exact plain_pure above
  | succ n ih => exact plain_pop.bind fun v => ih (v :: above)

lemma plain_popI32 : popI32.Plain := plain_pop.bind fun _ => plain_require rfl _

lemma plain_popI64 : popI64.Plain := plain_pop.bind fun _ => plain_require rfl _

lemma plain_popF64 : popF64.Plain := by
  refine plain_pop.bind fun v => ?_
  cases v with
  | f64 d => exact plain_pure d
  | _ => exact plain_throw rfl

lemma plain_popBool : popBool.Plain := plain_pop.bind fun _ => plain_require rfl _

lemma plain_popIntegers : popIntegers.Plain := by
  refine plain_pop.bind fun b => plain_pop.bind fun a => ?_
  split
  · exact plain_pure _
  · exact plain_pure _
  · exact plain_throw rfl

lemma plain_popInstance : popInstance.Plain := by
  refine plain_pop.bind fun v => ?_
  cases v with
  | object id typeName => exact plain_pure _
  | _ => exact plain_throw rfl

lemma plain_popClosure : popClosure.Plain := by
  refine plain_pop.bind fun v => ?_
  cases v with
  | closure id => exact plain_get.bind fun _ => plain_require rfl _
  | _ => exact plain_throw rfl

end Run

namespace Machine

open Run

variable {vm : Machine} {e : Executable} {i : Instruction}

/-! ### Parts of instructions -/

lemma plain_stringOperand (index : UInt32) : (stringOperand e index).Plain := plain_require rfl _

lemma plain_signatureOperand (index : UInt32) : (signatureOperand e index).Plain := by
  refine (plain_stringOperand index).bind fun key => ?_
  split
  · exact plain_pure _
  · exact plain_throw rfl

lemma plain_dispatcher (t : LiveType) (key : String) : (dispatcher t key).Plain :=
  plain_require rfl _

lemma plain_implementation (t : LiveType) (key : String) : (implementation t key).Plain := by
  refine plain_lift fun e he => ?_
  cases hlookup : t.executable key with
  | ok target => rw [hlookup] at he; cases he
  | error cause =>
    rw [hlookup] at he
    obtain rfl := Except.error.inj he
    rfl

lemma plain_site (id : SiteId) : (site vm id).Plain := plain_require rfl _

lemma plain_expectKind (target : Executable) (isStatic : Bool) :
    (expectKind target isStatic).Plain := by
  unfold expectKind
  split
  · exact plain_pure _
  · exact plain_throw rfl

lemma plain_pushNext (v : Value) : (pushNext v).Plain := (plain_push v).bind fun _ => plain_pure _

lemma plain_binaryI32 {f : Int32 → Int32 → Except VmError Int32}
    (hf : ∀ a b e, f a b = .error e → e.isPlain = true) : (binaryI32 f).Plain := by
  refine plain_popI32.bind fun b => plain_popI32.bind fun a => (plain_lift (hf a b)).bind fun c => ?_
  exact plain_pushNext (.i32 c)

lemma plain_binaryI64 {f : Int64 → Int64 → Except VmError Int64}
    (hf : ∀ a b e, f a b = .error e → e.isPlain = true) : (binaryI64 f).Plain := by
  refine plain_popI64.bind fun b => plain_popI64.bind fun a => (plain_lift (hf a b)).bind fun c => ?_
  exact plain_pushNext (.i64 c)

lemma plain_binaryF64 (f : Double → Double → Double) : (binaryF64 f).Plain :=
  plain_popF64.bind fun _ => plain_popF64.bind fun _ => plain_pushNext _

lemma plain_comparison (f : Int → Int → Bool) : (comparison f).Plain :=
  plain_popIntegers.bind fun _ => plain_pushNext _

lemma plain_of_div {α : Type} {q : Prop} [Decidable q] {a : α} {e : VmError}
    (h : (if q then .error .divisionByZero else .ok a : Except VmError α) = .error e) :
    e.isPlain = true := by
  split at h
  · obtain rfl := Except.error.inj h
    rfl
  · cases h

lemma plain_stepPlain (op : Opcode) : (stepPlain op).Plain := by
  cases op
  case pop => exact plain_pop.bind fun _ => plain_pure _
  case dup => exact (plain_peek 0).bind fun v => plain_pushNext v
  case swap =>
    refine plain_pop.bind fun b => plain_pop.bind fun a => (plain_push b).bind fun _ => ?_
    exact plain_pushNext a
  case constNull | constTrue | constFalse => exact plain_pushNext _
  case iadd | isub | imul => exact plain_binaryI32 (by simp)
  case idiv | imod => exact plain_binaryI32 fun _ _ _ => plain_of_div
  case ladd | lsub | lmul => exact plain_binaryI64 (by simp)
  case ldiv => exact plain_binaryI64 fun _ _ _ => plain_of_div
  case fadd | fsub | fmul | fdiv => exact plain_binaryF64 _
  case ieq | ine | ilt | ile | igt | ige =>
    unfold stepPlain
    exact plain_comparison _
  case ineg | i2l => exact plain_popI32.bind fun _ => plain_pushNext _
  case not => exact plain_popBool.bind fun _ => plain_pushNext _
  case ret => exact plain_pop.bind fun _ => plain_pure _
  case nop | retVoid => exact plain_pure _
  all_goals exact plain_throw rfl

lemma plain_stepLocal (slot : UInt16) (op : Opcode) : (stepLocal slot op).Plain := by
  cases op
  case loadLocal => exact (plain_loadLocal _).bind fun v => plain_pushNext v
  case storeLocal =>
    exact plain_pop.bind fun v => (plain_storeLocal _ v).bind fun _ => plain_pure _
  all_goals exact plain_throw rfl

lemma plain_takeJump : (takeJump e i).Plain := by
  unfold takeJump
  split
  · split
    · exact plain_pure _
    · exact plain_throw rfl
  · exact plain_throw rfl

lemma plain_stepJump : (stepJump e i).Plain := by
  unfold stepJump
  split
  · exact plain_takeJump
  · refine plain_popBool.bind fun b => ?_
    cases b with
    | true => exact plain_pure _
    | false => exact plain_takeJump
  · refine plain_popBool.bind fun b => ?_
    cases b with
    | true => exact plain_takeJump
    | false => exact plain_pure _
  · exact plain_throw rfl

lemma plain_popOwner (owner : String) : (popOwner owner).Plain := by
  refine plain_popInstance.bind fun p => ?_
  dsimp only
  split
  · exact plain_pure _
  · exact plain_throw rfl

lemma plain_getFieldSlot (a b : UInt32) : (getFieldSlot e a b).Plain := by
  refine (plain_stringOperand a).bind fun owner => (plain_popOwner owner).bind fun id => ?_
  exact plain_get.bind fun s => (plain_require rfl _).bind fun v => plain_pushNext v

lemma plain_getCaptured (position : UInt32) : (getCaptured vm e position).Plain := by
  refine plain_popClosure.bind fun c => (plain_site c.site).bind fun s => ?_
  refine (plain_require rfl _).bind fun slot => ?_
  split
  · exact plain_pushNext _
  · split
    · exact plain_pushNext _
    · exact plain_pushNext _

lemma plain_getEnclosing : getEnclosing.Plain := plain_popClosure.bind fun _ => plain_pushNext _

lemma plain_of_fillSlots {id : SiteId} {site : CaptureSite} {position : Nat}
    {captured values : List Value} {e : VmError}
    (h : fillSlots id site position captured values = .error e) : e.isPlain = true := by
  induction values generalizing position captured with
  | nil => cases h
  | cons v rest ih =>
    unfold fillSlots at h
    split at h
    · obtain rfl := Except.error.inj h
      rfl
    · split at h
      · obtain rfl := Except.error.inj h
        rfl
      · split at h
        · exact ih h
        · obtain rfl := Except.error.inj h
          rfl

/-- What is left of a call once its type was found and may be reached. -/
lemma plain_bind_call {x : Run Executable} (hx : x.Plain) (isStatic : Bool) (argc : Executable → Nat) :
    (do
      let target ← x
      expectKind target isStatic
      return Flow.call target (argc target) : Run Flow).Plain :=
  hx.bind fun target => (plain_expectKind target isStatic).bind fun _ => plain_pure _

/-- What is left of a creation once the host may be reached and the values were popped. -/
lemma plain_create {x : Run (Option Value)} (hx : x.Plain) (id : SiteId) (s : CaptureSite)
    (values : List Value) :
    (do
      let enclosing ← x
      let captured ← Run.lift (fillSlots id s 0
        (s.slots.map fun slot => Value.default slot.type) values)
      let object ← Run.allocate (.closureOf ⟨id, enclosing, captured⟩)
      pushNext (.closure object) : Run Flow).Plain :=
  hx.bind fun _ => (plain_lift fun _ => plain_of_fillSlots).bind fun _ =>
    (plain_allocate _).bind fun _ => plain_pushNext _

end Machine

end LiveTypes
