import LiveTypes.Machine.Step
import LiveTypes.Proofs.Machine.Run

/-!
# Actions that leave the heap alone

Most actions only work on the stack (`Quiet`), and so do most instructions. Of an action that does
change the heap, `Ends` says what holds of the heap when it succeeds and when it fails; it goes by the
quiet actions before the change.
-/

namespace LiveTypes

namespace Run

variable {α β : Type} {s s' : MachineState} {ok error : Heap → Prop}

/-- What holds of the heap when an action succeeds, and when it fails. -/
def Ends (ok error : Heap → Prop) (x : Run α) (s : MachineState) : Prop :=
  match x s with
  | .ok _ s' => ok s'.heap
  | .error _ s' => error s'.heap

lemma Ends.of_ok {x : Run α} {a : α} (h : Ends ok error x s) (hrun : x s = .ok a s') :
    ok s'.heap := by
  unfold Ends at h
  rwa [hrun] at h

lemma Ends.of_error {x : Run α} {e : VmError} (h : Ends ok error x s)
    (hrun : x s = .error e s') : error s'.heap := by
  unfold Ends at h
  rwa [hrun] at h

/-- Whether an action leaves every heap as it is. -/
def Quiet (x : Run α) : Prop :=
  ∀ s, Ends (fun h => h = s.heap) (fun h => h = s.heap) x s

lemma Quiet.heap_of_ok {x : Run α} (hx : x.Quiet) {a : α} (h : x s = .ok a s') :
    s'.heap = s.heap :=
  (hx s).of_ok h

lemma Quiet.heap_of_error {x : Run α} (hx : x.Quiet) {e : VmError} (h : x s = .error e s') :
    s'.heap = s.heap :=
  (hx s).of_error h

lemma Quiet.ends {x : Run α} (hx : x.Quiet) (hok : ok s.heap) (herror : error s.heap) :
    Ends ok error x s := by
  unfold Ends
  cases hrun : x s with
  | error e s' =>
    rw [← hx.heap_of_error hrun] at herror
    exact herror
  | ok a s' =>
    rw [← hx.heap_of_ok hrun] at hok
    exact hok

lemma Ends.bind {x : Run α} {f : α → Run β} (hx : x.Quiet) (herror : error s.heap)
    (hf : ∀ a s', x s = .ok a s' → s'.heap = s.heap → Ends ok error (f a) s') :
    Ends ok error (x >>= f) s := by
  cases hrun : x s with
  | error e s' =>
    rw [← hx.heap_of_error hrun] at herror
    unfold Ends
    rw [bind_of_error hrun]
    exact herror
  | ok a s' =>
    have hend := hf a s' hrun (hx.heap_of_ok hrun)
    unfold Ends at hend ⊢
    rwa [bind_of_ok hrun]

lemma Quiet.bind {x : Run α} {f : α → Run β} (hx : x.Quiet) (hf : ∀ a, (f a).Quiet) :
    (x >>= f).Quiet := by
  intro s
  refine Ends.bind hx rfl fun a s' _ hheap => ?_
  rw [← hheap]
  exact hf a s'

/-! ### Quiet actions -/

lemma quiet_pure (a : α) : (pure a : Run α).Quiet := fun _ => rfl

lemma quiet_throw (e : VmError) : (throw e : Run α).Quiet := fun _ => rfl

lemma quiet_get : (get : Run MachineState).Quiet := fun _ => rfl

lemma quiet_require (e : VmError) (o : Option α) : (require e o).Quiet := by
  cases o with
  | some a => exact quiet_pure a
  | none => exact quiet_throw e

lemma quiet_lift (x : Except VmError α) : (lift x).Quiet := by
  cases x with
  | ok a => exact quiet_pure a
  | error e => exact quiet_throw e

lemma quiet_onStack (f : Stack → Except VmError (α × Stack)) : (onStack f).Quiet := by
  rintro ⟨stack, heap, depth⟩
  simp only [Ends, onStack]
  cases f stack <;> trivial

lemma quiet_push (v : Value) : (push v).Quiet := quiet_onStack _

lemma quiet_pop : pop.Quiet := quiet_onStack _

lemma quiet_storeLocal (index : Nat) (v : Value) : (storeLocal index v).Quiet := quiet_onStack _

lemma quiet_peek (n : Nat) : (peek n).Quiet := quiet_get.bind fun _ => quiet_lift _

lemma quiet_loadLocal (index : Nat) : (loadLocal index).Quiet := quiet_get.bind fun _ => quiet_lift _

lemma quiet_popMany (n : Nat) (above : List Value) : (popMany n above).Quiet := by
  induction n generalizing above with
  | zero => exact quiet_pure above
  | succ n ih => exact quiet_pop.bind fun v => ih (v :: above)

lemma quiet_popI32 : popI32.Quiet := quiet_pop.bind fun _ => quiet_require _ _

lemma quiet_popI64 : popI64.Quiet := quiet_pop.bind fun _ => quiet_require _ _

lemma quiet_popF64 : popF64.Quiet := by
  refine quiet_pop.bind fun v => ?_
  cases v with
  | f64 d => exact quiet_pure d
  | _ => exact quiet_throw _

lemma quiet_popBool : popBool.Quiet := quiet_pop.bind fun _ => quiet_require _ _

lemma quiet_popIntegers : popIntegers.Quiet := by
  refine quiet_pop.bind fun b => quiet_pop.bind fun a => ?_
  split
  · exact quiet_pure _
  · exact quiet_pure _
  · exact quiet_throw _

lemma quiet_popInstance : popInstance.Quiet := by
  refine quiet_pop.bind fun v => ?_
  cases v with
  | object id typeName => exact quiet_pure _
  | _ => exact quiet_throw _

lemma quiet_popClosure : popClosure.Quiet := by
  refine quiet_pop.bind fun v => ?_
  cases v with
  | closure id => exact quiet_get.bind fun _ => quiet_require _ _
  | _ => exact quiet_throw _

end Run

namespace Machine

open Run

variable {vm : Machine} {e : Executable} {i : Instruction}

/-! ### Quiet instructions -/

lemma quiet_stringOperand (index : UInt32) : (stringOperand e index).Quiet := quiet_require _ _

lemma quiet_signatureOperand (index : UInt32) : (signatureOperand e index).Quiet := by
  refine (quiet_stringOperand index).bind fun key => ?_
  split
  · exact quiet_pure _
  · exact quiet_throw _

lemma quiet_resolve (name : String) : (resolve vm name).Quiet := quiet_require _ _

lemma quiet_typeById (id : TypeId) : (typeById vm id).Quiet := quiet_require _ _

lemma quiet_dispatcher (t : LiveType) (key : String) : (dispatcher t key).Quiet := quiet_require _ _

lemma quiet_implementation (t : LiveType) (key : String) : (implementation t key).Quiet :=
  quiet_lift _

lemma quiet_site (id : SiteId) : (site vm id).Quiet := quiet_require _ _

lemma quiet_checkAccess (t : LiveType) : (checkAccess e t).Quiet := by
  unfold checkAccess
  split
  · exact quiet_pure _
  · exact quiet_throw _

lemma quiet_expectKind (target : Executable) (isStatic : Bool) :
    (expectKind target isStatic).Quiet := by
  unfold expectKind
  split
  · exact quiet_pure _
  · exact quiet_throw _

lemma quiet_closureTarget (c : Closure) (key : String) : (closureTarget vm c key).Quiet := by
  refine (quiet_site c.site).bind fun s => (quiet_typeById s.hostId).bind fun host => ?_
  refine (quiet_implementation host key).bind fun target => ?_
  exact (quiet_expectKind target false).bind fun _ => quiet_pure target

lemma quiet_receiverType (owner : String) (params : Nat) :
    (receiverType vm owner params).Quiet := by
  refine (quiet_peek params).bind fun v => ?_
  cases v with
  | object id typeName =>
    dsimp only
    split
    · exact quiet_resolve owner
    · exact quiet_throw _
  | _ => exact quiet_throw _

lemma quiet_pushNext (v : Value) : (pushNext v).Quiet := (quiet_push v).bind fun _ => quiet_pure _

lemma quiet_binaryI32 (f : Int32 → Int32 → Except VmError Int32) : (binaryI32 f).Quiet := by
  refine quiet_popI32.bind fun b => quiet_popI32.bind fun a => (quiet_lift _).bind fun c => ?_
  exact quiet_pushNext (.i32 c)

lemma quiet_binaryI64 (f : Int64 → Int64 → Except VmError Int64) : (binaryI64 f).Quiet := by
  refine quiet_popI64.bind fun b => quiet_popI64.bind fun a => (quiet_lift _).bind fun c => ?_
  exact quiet_pushNext (.i64 c)

lemma quiet_binaryF64 (f : Double → Double → Double) : (binaryF64 f).Quiet :=
  quiet_popF64.bind fun _ => quiet_popF64.bind fun _ => quiet_pushNext _

lemma quiet_comparison (f : Int → Int → Bool) : (comparison f).Quiet :=
  quiet_popIntegers.bind fun _ => quiet_pushNext _

lemma quiet_stepPlain (op : Opcode) : (stepPlain op).Quiet := by
  cases op
  case pop => exact quiet_pop.bind fun _ => quiet_pure _
  case dup => exact (quiet_peek 0).bind fun v => quiet_pushNext v
  case swap =>
    refine quiet_pop.bind fun b => quiet_pop.bind fun a => (quiet_push b).bind fun _ => ?_
    exact quiet_pushNext a
  case constNull | constTrue | constFalse => exact quiet_pushNext _
  case iadd | isub | imul | idiv | imod => exact quiet_binaryI32 _
  case ladd | lsub | lmul | ldiv => exact quiet_binaryI64 _
  case fadd | fsub | fmul | fdiv => exact quiet_binaryF64 _
  case ieq | ine | ilt | ile | igt | ige =>
    unfold stepPlain
    exact quiet_comparison _
  case ineg | i2l => exact quiet_popI32.bind fun _ => quiet_pushNext _
  case not => exact quiet_popBool.bind fun _ => quiet_pushNext _
  case ret => exact quiet_pop.bind fun _ => quiet_pure _
  case nop | retVoid => exact quiet_pure _
  all_goals exact quiet_throw _

lemma quiet_stepLocal (slot : UInt16) (op : Opcode) : (stepLocal slot op).Quiet := by
  cases op
  case loadLocal => exact (quiet_loadLocal _).bind fun v => quiet_pushNext v
  case storeLocal =>
    exact quiet_pop.bind fun v => (quiet_storeLocal _ v).bind fun _ => quiet_pure _
  all_goals exact quiet_throw _

lemma quiet_takeJump : (takeJump e i).Quiet := by
  unfold takeJump
  split
  · split
    · exact quiet_pure _
    · exact quiet_throw _
  · exact quiet_throw _

lemma quiet_stepJump : (stepJump e i).Quiet := by
  unfold stepJump
  split
  · exact quiet_takeJump
  · refine quiet_popBool.bind fun b => ?_
    cases b with
    | true => exact quiet_pure _
    | false => exact quiet_takeJump
  · refine quiet_popBool.bind fun b => ?_
    cases b with
    | true => exact quiet_takeJump
    | false => exact quiet_pure _
  · exact quiet_throw _

lemma quiet_invokeClosure (index : UInt32) : (stepIndex vm e index .invokeClosure).Quiet := by
  refine (quiet_signatureOperand index).bind fun p => (quiet_peek _).bind fun v => ?_
  cases v with
  | closure id =>
    refine quiet_get.bind fun s => (quiet_require _ _).bind fun c => ?_
    exact (quiet_closureTarget c _).bind fun _ => quiet_pure _
  | _ => exact quiet_throw _

lemma quiet_popOwner (owner : String) : (popOwner owner).Quiet := by
  refine quiet_popInstance.bind fun p => ?_
  dsimp only
  split
  · exact quiet_pure _
  · exact quiet_throw _

lemma quiet_checkStore (typeName field : String) (type : Option TypeDescriptor) (v : Value) :
    (checkStore typeName field type v).Quiet := by
  unfold checkStore
  split
  · exact quiet_throw _
  · split
    · exact quiet_pure _
    · exact quiet_throw _

lemma quiet_getFieldSlot (a b : UInt32) : (getFieldSlot e a b).Quiet := by
  refine (quiet_stringOperand a).bind fun owner => (quiet_popOwner owner).bind fun id => ?_
  exact quiet_get.bind fun s => (quiet_require _ _).bind fun v => quiet_pushNext v

lemma quiet_getCaptured (position : UInt32) : (getCaptured vm e position).Quiet := by
  refine quiet_popClosure.bind fun c => (quiet_site c.site).bind fun s => ?_
  refine (quiet_require _ _).bind fun slot => ?_
  split
  · exact quiet_pushNext _
  · split
    · exact quiet_pushNext _
    · exact quiet_pushNext _

lemma quiet_getEnclosing : getEnclosing.Quiet := quiet_popClosure.bind fun _ => quiet_pushNext _

lemma quiet_invokeStatic (dynamic : Bool) (a b : UInt32) :
    (invokeStatic vm e dynamic a b).Quiet := by
  refine (quiet_stringOperand a).bind fun owner => (quiet_resolve owner).bind fun t => ?_
  refine (quiet_checkAccess t).bind fun _ => (quiet_stringOperand b).bind fun key => ?_
  have hrest (target : Executable) : (do
      expectKind target true
      return Flow.call target target.argSlots).Quiet :=
    (quiet_expectKind target true).bind fun _ => quiet_pure _
  cases dynamic with
  | true => exact (quiet_implementation t key).bind hrest
  | false => exact (quiet_dispatcher t key).bind hrest

lemma quiet_invokeVirtual (dynamic : Bool) (a b : UInt32) :
    (invokeVirtual vm e dynamic a b).Quiet := by
  refine (quiet_stringOperand a).bind fun owner => (quiet_signatureOperand b).bind fun p => ?_
  obtain ⟨key, signature⟩ := p
  refine (quiet_receiverType owner _).bind fun t => (quiet_checkAccess t).bind fun _ => ?_
  have hrest (target : Executable) : (do
      expectKind target false
      return Flow.call target (signature.paramCount + 1)).Quiet :=
    (quiet_expectKind target false).bind fun _ => quiet_pure _
  cases dynamic with
  | true => exact (quiet_implementation t key).bind hrest
  | false => exact (quiet_dispatcher t key).bind hrest

lemma quiet_stepDispatch (keyIndex : UInt32) (argc : UInt16) :
    (stepDispatch vm e keyIndex argc).Quiet := by
  refine (quiet_stringOperand keyIndex).bind fun key => (quiet_typeById e.typeId).bind fun t => ?_
  exact (quiet_implementation t key).bind fun _ => quiet_pure _

end Machine

end LiveTypes
