import LiveTypes.Machine.Step
import LiveTypes.Proofs.Machine.Keeps
import LiveTypes.Proofs.Machine.Run
import LiveTypes.Proofs.Outcome

/-!
# Where calls go

An instruction that calls goes into a dispatcher or an implementation of a registered type, whatever
code it stands in and whatever the stack holds (`calls_body`). What an action gives on success (`Gives`)
is found by what comes last in it.
-/

namespace LiveTypes

namespace Run

variable {α β : Type} {P : α → Prop} {Q : β → Prop}

/-- What holds of whatever an action gives. -/
def Gives (P : α → Prop) (x : Run α) : Prop := ∀ s a s', x s = .ok a s' → P a

lemma gives_pure {a : α} (h : P a) : Gives P (pure a : Run α) := by
  intro s b s' hrun
  obtain ⟨rfl, -⟩ := pure_eq_ok.mp hrun
  exact h

lemma gives_throw (e : VmError) : Gives P (throw e : Run α) :=
  fun _ _ _ hrun => absurd hrun throw_ne_ok

lemma gives_require {e : VmError} {o : Option α} (h : ∀ a, o = some a → P a) :
    Gives P (require e o) :=
  fun _ a _ hrun => h a (require_eq_ok.mp hrun).1

lemma gives_lift {x : Except VmError α} (h : ∀ a, x = .ok a → P a) : Gives P (lift x) :=
  fun _ a _ hrun => h a (lift_eq_ok.mp hrun).1

lemma Gives.bind {x : Run α} {f : α → Run β} (hx : Gives P x) (hf : ∀ a, P a → Gives Q (f a)) :
    Gives Q (x >>= f) := by
  intro s b s' hrun
  obtain ⟨a, s₁, ha, hb⟩ := bind_eq_ok.mp hrun
  exact hf a (hx s a s₁ ha) s₁ b s' hb

/-- What an action gives depends on what comes last in it. -/
lemma gives_of_last {x : Run α} {f : α → Run β} (hf : ∀ a, Gives Q (f a)) : Gives Q (x >>= f) := by
  intro s b s' hrun
  obtain ⟨a, s₁, -, hb⟩ := bind_eq_ok.mp hrun
  exact hf a s₁ b s' hb

lemma gives_ite {p : Prop} [Decidable p] {x y : Run α} (hx : Gives P x) (hy : Gives P y) :
    Gives P (if p then x else y) := by
  split
  · exact hx
  · exact hy

end Run

namespace Machine

open Run

variable {vm : Machine} {e : Executable} {i : Instruction}

/-! ### Lookups -/

lemma gives_resolve (name : String) : Gives (· ∈ vm.registry.types) (resolve vm name) :=
  gives_require fun _ h => List.mem_of_find?_eq_some h

lemma gives_typeById (id : TypeId) : Gives (· ∈ vm.registry.types) (typeById vm id) :=
  gives_require fun _ h => List.mem_of_getElem? h

lemma gives_dispatcher {t : LiveType} (ht : t ∈ vm.registry.types) (key : String) :
    Gives vm.registry.HasBody (dispatcher t key) :=
  gives_require fun _ h => ⟨t, ht, key, .inr h⟩

lemma gives_implementation {t : LiveType} (ht : t ∈ vm.registry.types) (key : String) :
    Gives vm.registry.HasBody (implementation t key) := by
  refine gives_lift fun target h => ?_
  have h := Outcome.mapError_eq_ok.mp h
  unfold LiveType.executable at h
  split at h
  · next found hfound => exact ⟨t, ht, key, .inl (Except.ok.inj h ▸ hfound)⟩
  · split at h <;> cases h

lemma gives_closureTarget (c : Closure) (key : String) :
    Gives vm.registry.HasBody (closureTarget vm c key) := by
  refine gives_of_last fun site => (gives_typeById site.hostId).bind fun host hhost => ?_
  refine (gives_implementation hhost key).bind fun target htarget => ?_
  exact gives_of_last fun _ => gives_pure htarget

lemma gives_receiverType (owner : String) (params : Nat) :
    Gives (· ∈ vm.registry.types) (receiverType vm owner params) := by
  refine gives_of_last fun v => ?_
  cases v with
  | object id typeName => exact gives_ite (gives_resolve owner) (gives_throw _)
  | _ => exact gives_throw _

/-! ### Instructions -/

/-- Whether control, if it goes into a body, goes into one of the registry. -/
def Flow.IntoBody (r : Registry) : Flow → Prop
  | .call target _ => r.HasBody target
  | _ => True

/-- Whether an action goes into no body but those of the registry. -/
abbrev GoesOn (vm : Machine) (x : Run Flow) : Prop := Gives (Flow.IntoBody vm.registry) x

lemma goesOn_pushNext (v : Value) : vm.GoesOn (pushNext v) := gives_of_last fun _ => gives_pure trivial

lemma goesOn_binaryI32 (f : Int32 → Int32 → Except VmError Int32) : vm.GoesOn (binaryI32 f) :=
  gives_of_last fun _ => gives_of_last fun _ => gives_of_last fun _ => goesOn_pushNext _

lemma goesOn_binaryI64 (f : Int64 → Int64 → Except VmError Int64) : vm.GoesOn (binaryI64 f) :=
  gives_of_last fun _ => gives_of_last fun _ => gives_of_last fun _ => goesOn_pushNext _

lemma goesOn_binaryF64 (f : Double → Double → Double) : vm.GoesOn (binaryF64 f) :=
  gives_of_last fun _ => gives_of_last fun _ => goesOn_pushNext _

lemma goesOn_comparison (f : Int → Int → Bool) : vm.GoesOn (comparison f) :=
  gives_of_last fun _ => goesOn_pushNext _

lemma goesOn_stepPlain (op : Opcode) : vm.GoesOn (stepPlain op) := by
  cases op
  case nop | retVoid => exact gives_pure trivial
  case pop | ret => exact gives_of_last fun _ => gives_pure trivial
  case dup | ineg | i2l | not => exact gives_of_last fun _ => goesOn_pushNext _
  case swap =>
    exact gives_of_last fun _ => gives_of_last fun _ => gives_of_last fun _ => goesOn_pushNext _
  case constNull | constTrue | constFalse => exact goesOn_pushNext _
  case iadd | isub | imul | idiv | imod => exact goesOn_binaryI32 _
  case ladd | lsub | lmul | ldiv => exact goesOn_binaryI64 _
  case fadd | fsub | fmul | fdiv => exact goesOn_binaryF64 _
  case ieq | ine | ilt | ile | igt | ige =>
    unfold stepPlain
    exact goesOn_comparison _
  all_goals exact gives_throw _

lemma goesOn_stepLocal (slot : UInt16) (op : Opcode) : vm.GoesOn (stepLocal slot op) := by
  cases op
  case loadLocal => exact gives_of_last fun _ => goesOn_pushNext _
  case storeLocal => exact gives_of_last fun _ => gives_of_last fun _ => gives_pure trivial
  all_goals exact gives_throw _

lemma goesOn_takeJump : vm.GoesOn (takeJump e i) := by
  unfold takeJump
  split
  · exact gives_ite (gives_pure trivial) (gives_throw _)
  · exact gives_throw _

lemma goesOn_stepJump : vm.GoesOn (stepJump e i) := by
  unfold stepJump
  split
  · exact goesOn_takeJump
  · refine gives_of_last fun b => ?_
    cases b with
    | true => exact gives_pure trivial
    | false => exact goesOn_takeJump
  · refine gives_of_last fun b => ?_
    cases b with
    | true => exact goesOn_takeJump
    | false => exact gives_pure trivial
  · exact gives_throw _

lemma goesOn_stepIndex (index : UInt32) (op : Opcode) : vm.GoesOn (stepIndex vm e index op) := by
  cases op
  case constStr => exact gives_of_last fun _ => goesOn_pushNext _
  case new =>
    refine gives_of_last fun name => gives_of_last fun t => gives_of_last fun _ => ?_
    split
    · exact gives_of_last fun _ => gives_of_last fun _ => goesOn_pushNext _
    · exact gives_of_last fun _ => goesOn_pushNext _
  case invokeClosure =>
    refine gives_of_last fun p => gives_of_last fun v => ?_
    cases v with
    | closure id =>
      refine gives_of_last fun s => gives_of_last fun c => ?_
      exact (gives_closureTarget c _).bind fun target htarget => gives_pure htarget
    | _ => exact gives_throw _
  all_goals exact gives_throw _

lemma goesOn_putField (a b : UInt32) : vm.GoesOn (putField vm e a b) := by
  refine gives_of_last fun owner => gives_of_last fun name => gives_of_last fun v => ?_
  refine gives_of_last fun id => gives_of_last fun t => gives_of_last fun _ => ?_
  cases t.fieldPlace? name with
  | none =>
    show vm.GoesOn (pure Flow.next)
    exact gives_pure trivial
  | some place =>
    show vm.GoesOn (do
      Run.modifyHeap fun heap => heap.storeAt id name v place
      return Flow.next)
    exact gives_of_last fun _ => gives_pure trivial

lemma goesOn_makeCaptured (keyIndex : UInt32) (count flags : UInt8) :
    vm.GoesOn (makeCaptured vm e keyIndex count flags) := by
  refine gives_of_last fun key => gives_of_last fun id => gives_of_last fun s => ?_
  refine gives_of_last fun host => gives_of_last fun _ => gives_of_last fun values => ?_
  have hmake (enclosing : Option Value) : vm.GoesOn (do
      let unfilled := s.slots.map fun slot => Value.default slot.type
      let captured ← Run.lift (fillSlots id s 0 unfilled values)
      let object ← Run.allocate (.closureOf ⟨id, enclosing, captured⟩)
      pushNext (.closure object)) :=
    gives_of_last fun _ => gives_of_last fun _ => goesOn_pushNext _
  split <;> exact gives_of_last hmake

lemma goesOn_getCaptured (position : UInt32) : vm.GoesOn (getCaptured vm e position) := by
  refine gives_of_last fun c => gives_of_last fun s => gives_of_last fun slot => ?_
  split
  · exact goesOn_pushNext _
  · split <;> exact goesOn_pushNext _

lemma goesOn_invokeStatic (dynamic : Bool) (a b : UInt32) :
    vm.GoesOn (invokeStatic vm e dynamic a b) := by
  refine gives_of_last fun owner => (gives_resolve owner).bind fun t ht => ?_
  refine gives_of_last fun _ => gives_of_last fun key => ?_
  have hrest (target : Executable) (htarget : vm.registry.HasBody target) : vm.GoesOn (do
      expectKind target true
      return Flow.call target target.argSlots) :=
    gives_of_last fun _ => gives_pure htarget
  cases dynamic with
  | true => exact (gives_implementation ht key).bind hrest
  | false => exact (gives_dispatcher ht key).bind hrest

lemma goesOn_invokeVirtual (dynamic : Bool) (a b : UInt32) :
    vm.GoesOn (invokeVirtual vm e dynamic a b) := by
  refine gives_of_last fun owner => gives_of_last fun ⟨key, signature⟩ => ?_
  refine (gives_receiverType owner _).bind fun t ht => gives_of_last fun _ => ?_
  have hrest (target : Executable) (htarget : vm.registry.HasBody target) : vm.GoesOn (do
      expectKind target false
      return Flow.call target (signature.paramCount + 1)) :=
    gives_of_last fun _ => gives_pure htarget
  cases dynamic with
  | true => exact (gives_implementation ht key).bind hrest
  | false => exact (gives_dispatcher ht key).bind hrest

lemma goesOn_stepPair (a b : UInt32) (op : Opcode) : vm.GoesOn (stepPair vm e a b op) := by
  cases op
  case invokeStatic => exact goesOn_invokeStatic false a b
  case invokeVirtual => exact goesOn_invokeVirtual false a b
  case invokeDynamicStatic => exact goesOn_invokeStatic true a b
  case invokeDynamicVirtual => exact goesOn_invokeVirtual true a b
  case getFieldSlot =>
    refine gives_of_last fun _ => gives_of_last fun _ => gives_of_last fun _ => ?_
    exact gives_of_last fun _ => goesOn_pushNext _
  case putFieldSlot =>
    refine gives_of_last fun _ => gives_of_last fun _ => gives_of_last fun _ => ?_
    refine gives_of_last fun _ => gives_of_last fun _ => ?_
    exact gives_of_last fun _ => gives_pure trivial
  case getExtField =>
    refine gives_of_last fun _ => gives_of_last fun _ => gives_of_last fun _ => ?_
    refine gives_of_last fun _ => gives_of_last fun _ => gives_of_last fun _ => ?_
    exact gives_of_last fun _ => gives_of_last fun _ => goesOn_pushNext _
  case putExtField => exact goesOn_putField a b
  case getCaptured => exact goesOn_getCaptured b
  case getEnclosing => exact gives_of_last fun _ => goesOn_pushNext _
  all_goals exact gives_throw _

lemma goesOn_stepDispatch (keyIndex : UInt32) (argc : UInt16) :
    vm.GoesOn (stepDispatch vm e keyIndex argc) := by
  refine gives_of_last fun key => (gives_typeById e.typeId).bind fun t ht => ?_
  exact (gives_implementation ht key).bind fun target htarget => gives_pure htarget

lemma goesOn_stepClosure (index : UInt32) (count flags : UInt8) (op : Opcode) :
    vm.GoesOn (stepClosure vm e index count flags op) := by
  cases op
  case makeCaptured => exact goesOn_makeCaptured index count flags
  all_goals exact gives_throw _

lemma goesOn_step (vm : Machine) (e : Executable) (i : Instruction) : vm.GoesOn (step vm e i) := by
  unfold step
  cases i.operands with
  | none => exact goesOn_stepPlain _
  | i32 v => exact goesOn_pushNext _
  | i64 v => exact goesOn_pushNext _
  | f64 v => exact goesOn_pushNext _
  | index a => exact goesOn_stepIndex a _
  | localSlot slot => exact goesOn_stepLocal slot _
  | jump displacement => exact goesOn_stepJump
  | pair a b => exact goesOn_stepPair a b _
  | dispatch signature argc => exact goesOn_stepDispatch signature argc
  | closure index count flags => exact goesOn_stepClosure index count flags _

/-- An instruction that calls goes into a dispatcher or an implementation of a registered type. -/
theorem calls_body {s s' : MachineState} {target : Executable} {argc : Nat}
    (h : step vm e i s = .ok (.call target argc) s') : vm.registry.HasBody target :=
  goesOn_step vm e i s _ s' h

end Machine

end LiveTypes
