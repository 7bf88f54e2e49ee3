import LiveTypes.Machine.Run
import LiveTypes.Proofs.Machine.Stack
import Mathlib.Tactic.Common

/-!
# What instructions are made of

Every instruction is put together from a few actions: it looks at the state, pushes and pops operands,
stores locals, works on the heap and fails. None of them opens or closes a frame, and none fails for the
depth of calls. What holds of these actions and of one action after another (`Run.Composes`) therefore
holds of every instruction (`Run.Composes.step`).
-/

namespace LiveTypes

/-- Whether a failure is that calls are nested too deep. -/
def VmError.isCutoff : VmError → Bool
  | .callDepthExceeded _ => true
  | _ => false

/-! ### Failures of the stack -/

namespace Stack

variable {s s' : Stack} {v : Value} {e : VmError}

lemma not_cutoff_of_push (h : s.push v = .error e) : e.isCutoff = false := by
  rcases s.push_cases v with hpush | hpush <;> rw [hpush] at h
  · cases h
  · obtain rfl := Except.error.inj h
    rfl

lemma not_cutoff_of_pop (h : s.pop = .error e) : e.isCutoff = false := by
  rcases s.pop_cases with ⟨v, -, -, hpop⟩ | hpop <;> rw [hpop] at h
  · cases h
  · obtain rfl := Except.error.inj h
    rfl

lemma not_cutoff_of_peek {n : Nat} (h : s.peek n = .error e) : e.isCutoff = false := by
  rcases s.peek_cases n with ⟨v, -, hpeek⟩ | hpeek <;> rw [hpeek] at h
  · cases h
  · obtain rfl := Except.error.inj h
    rfl

lemma not_cutoff_of_localPlace {index : Nat} (h : s.localPlace index = .error e) :
    e.isCutoff = false := by
  unfold localPlace at h
  split at h
  · obtain rfl := Except.error.inj h
    rfl
  · split at h
    · obtain rfl := Except.error.inj h
      rfl
    · cases h

lemma not_cutoff_of_loadLocal {index : Nat} (h : s.loadLocal index = .error e) :
    e.isCutoff = false := by
  unfold loadLocal at h
  cases hplace : s.localPlace index with
  | ok place => rw [hplace] at h; cases h
  | error e' =>
    rw [hplace] at h
    obtain rfl := Except.error.inj h
    exact not_cutoff_of_localPlace hplace

lemma not_cutoff_of_storeLocal {index : Nat} (h : s.storeLocal index v = .error e) :
    e.isCutoff = false := by
  unfold storeLocal at h
  cases hplace : s.localPlace index with
  | ok place => rw [hplace] at h; cases h
  | error e' =>
    rw [hplace] at h
    obtain rfl := Except.error.inj h
    exact not_cutoff_of_localPlace hplace

end Stack

namespace Run

/-- Whether a property of actions holds of all that instructions are made of. -/
structure Composes (P : {α : Type} → Run α → Prop) : Prop where
  pure : ∀ {α : Type} (a : α), P (pure a : Run α)
  throw : ∀ {α : Type} (e : VmError), e.isCutoff = false → P (throw e : Run α)
  get : P (get : Run MachineState)
  bind : ∀ {α β : Type} {x : Run α} {f : α → Run β}, P x → (∀ a, P (f a)) → P (x >>= f)
  push : ∀ v, P (push v)
  pop : P pop
  storeLocal : ∀ index v, P (storeLocal index v)
  modifyHeap : ∀ f, P (modifyHeap f)
  allocate : ∀ o, P (allocate o)

namespace Composes

variable {P : {α : Type} → Run α → Prop} (h : Composes P) {α β : Type} {vm : Machine}
  {e : Executable} {i : Instruction}
include h

/-! ### Actions -/

lemma require {cause : VmError} (hcause : cause.isCutoff = false) (o : Option α) :
    P (require cause o) := by
  cases o with
  | some a => exact h.pure a
  | none => exact h.throw cause hcause

lemma lift {x : Except VmError α} (hx : ∀ cause, x = .error cause → cause.isCutoff = false) :
    P (lift x) := by
  cases x with
  | ok a => exact h.pure a
  | error cause => exact h.throw cause (hx cause rfl)

omit h in
lemma branch {p : Prop} [Decidable p] {x y : Run α} (hx : P x) (hy : P y) :
    P (if p then x else y) := by
  split
  · exact hx
  · exact hy

lemma peek (n : Nat) : P (peek n) :=
  h.bind h.get fun _ => h.lift fun _ => Stack.not_cutoff_of_peek

lemma loadLocal (index : Nat) : P (loadLocal index) :=
  h.bind h.get fun _ => h.lift fun _ => Stack.not_cutoff_of_loadLocal

lemma popMany (n : Nat) (above : List Value) : P (popMany n above) := by
  induction n generalizing above with
  | zero => exact h.pure above
  | succ n ih => exact h.bind h.pop fun v => ih (v :: above)

lemma popI32 : P popI32 := h.bind h.pop fun _ => h.require rfl _

lemma popI64 : P popI64 := h.bind h.pop fun _ => h.require rfl _

lemma popF64 : P popF64 := by
  refine h.bind h.pop fun v => ?_
  cases v with
  | f64 d => exact h.pure d
  | _ => exact h.throw _ rfl

lemma popBool : P popBool := h.bind h.pop fun _ => h.require rfl _

lemma popIntegers : P popIntegers := by
  refine h.bind h.pop fun b => h.bind h.pop fun a => ?_
  split
  · exact h.pure _
  · exact h.pure _
  · exact h.throw _ rfl

lemma popInstance : P popInstance := by
  refine h.bind h.pop fun v => ?_
  cases v with
  | object id typeName => exact h.pure _
  | _ => exact h.throw _ rfl

lemma popClosure : P popClosure := by
  refine h.bind h.pop fun v => ?_
  cases v with
  | closure id => exact h.bind h.get fun _ => h.require rfl _
  | _ => exact h.throw _ rfl

/-! ### Resolution -/

lemma stringOperand (index : UInt32) : P (Machine.stringOperand e index) := h.require rfl _

lemma signatureOperand (index : UInt32) : P (Machine.signatureOperand e index) := by
  refine h.bind (h.stringOperand index) fun key => ?_
  split
  · exact h.pure _
  · exact h.throw _ rfl

lemma resolve (name : String) : P (Machine.resolve vm name) := h.require rfl _

lemma typeById (id : TypeId) : P (Machine.typeById vm id) := h.require rfl _

lemma site (id : SiteId) : P (Machine.site vm id) := h.require rfl _

lemma checkAccess (t : LiveType) : P (Machine.checkAccess e t) :=
  branch (h.pure ()) (h.throw _ rfl)

lemma dispatcher (t : LiveType) (key : String) : P (Machine.dispatcher t key) := h.require rfl _

lemma implementation (t : LiveType) (key : String) : P (Machine.implementation t key) := by
  refine h.lift fun cause hcause => ?_
  cases hlookup : t.executable key with
  | ok target => rw [hlookup] at hcause; cases hcause
  | error e =>
    rw [hlookup] at hcause
    obtain rfl := Except.error.inj hcause
    rfl

lemma expectKind (target : Executable) (isStatic : Bool) : P (Machine.expectKind target isStatic) :=
  branch (h.pure ()) (h.throw _ rfl)

lemma closureTarget (c : Closure) (key : String) : P (Machine.closureTarget vm c key) := by
  refine h.bind (h.site c.site) fun s => h.bind (h.typeById s.hostId) fun host => ?_
  refine h.bind (h.implementation host key) fun target => ?_
  exact h.bind (h.expectKind target false) fun _ => h.pure target

lemma receiverType (owner : String) (params : Nat) : P (Machine.receiverType vm owner params) := by
  refine h.bind (h.peek params) fun v => ?_
  cases v with
  | object id typeName => exact branch (h.resolve owner) (h.throw _ rfl)
  | _ => exact h.throw _ rfl

/-! ### Plain instructions -/

lemma pushNext (v : Value) : P (Machine.pushNext v) := h.bind (h.push v) fun _ => h.pure _

lemma binaryI32 {f : Int32 → Int32 → Except VmError Int32}
    (hf : ∀ a b cause, f a b = .error cause → cause.isCutoff = false) :
    P (Machine.binaryI32 f) := by
  refine h.bind h.popI32 fun b => h.bind h.popI32 fun a => h.bind (h.lift (hf a b)) fun c => ?_
  exact h.pushNext (.i32 c)

lemma binaryI64 {f : Int64 → Int64 → Except VmError Int64}
    (hf : ∀ a b cause, f a b = .error cause → cause.isCutoff = false) :
    P (Machine.binaryI64 f) := by
  refine h.bind h.popI64 fun b => h.bind h.popI64 fun a => h.bind (h.lift (hf a b)) fun c => ?_
  exact h.pushNext (.i64 c)

lemma binaryF64 (f : Double → Double → Double) : P (Machine.binaryF64 f) :=
  h.bind h.popF64 fun _ => h.bind h.popF64 fun _ => h.pushNext _

lemma comparison (f : Int → Int → Bool) : P (Machine.comparison f) :=
  h.bind h.popIntegers fun _ => h.pushNext _

omit h in
lemma not_cutoff_of_div {q : Prop} [Decidable q] {a : α} {cause : VmError}
    (h : (if q then .error .divisionByZero else .ok a : Except VmError α) = .error cause) :
    cause.isCutoff = false := by
  split at h
  · obtain rfl := Except.error.inj h
    rfl
  · cases h

lemma stepPlain (op : Opcode) : P (Machine.stepPlain op) := by
  cases op
  case pop => exact h.bind h.pop fun _ => h.pure _
  case dup => exact h.bind (h.peek 0) fun v => h.pushNext v
  case swap =>
    refine h.bind h.pop fun b => h.bind h.pop fun a => h.bind (h.push b) fun _ => ?_
    exact h.pushNext a
  case constNull | constTrue | constFalse => exact h.pushNext _
  case iadd | isub | imul => exact h.binaryI32 (by simp)
  case idiv | imod => exact h.binaryI32 fun _ _ _ => not_cutoff_of_div
  case ladd | lsub | lmul => exact h.binaryI64 (by simp)
  case ldiv => exact h.binaryI64 fun _ _ _ => not_cutoff_of_div
  case fadd | fsub | fmul | fdiv => exact h.binaryF64 _
  case ieq | ine | ilt | ile | igt | ige =>
    unfold Machine.stepPlain
    exact h.comparison _
  case ineg | i2l => exact h.bind h.popI32 fun _ => h.pushNext _
  case not => exact h.bind h.popBool fun _ => h.pushNext _
  case ret => exact h.bind h.pop fun _ => h.pure _
  case nop | retVoid => exact h.pure _
  all_goals exact h.throw _ rfl

/-! ### Locals and jumps -/

lemma stepLocal (slot : UInt16) (op : Opcode) : P (Machine.stepLocal slot op) := by
  cases op
  case loadLocal => exact h.bind (h.loadLocal _) fun v => h.pushNext v
  case storeLocal => exact h.bind h.pop fun v => h.bind (h.storeLocal _ v) fun _ => h.pure _
  all_goals exact h.throw _ rfl

lemma takeJump : P (Machine.takeJump e i) := by
  unfold Machine.takeJump
  split
  · exact branch (h.pure _) (h.throw _ rfl)
  · exact h.throw _ rfl

lemma stepJump : P (Machine.stepJump e i) := by
  unfold Machine.stepJump
  split
  · exact h.takeJump
  · refine h.bind h.popBool fun b => ?_
    cases b with
    | true => exact h.pure _
    | false => exact h.takeJump
  · refine h.bind h.popBool fun b => ?_
    cases b with
    | true => exact h.takeJump
    | false => exact h.pure _
  · exact h.throw _ rfl

/-! ### Objects -/

lemma stepIndex (index : UInt32) (op : Opcode) : P (Machine.stepIndex vm e index op) := by
  cases op
  case constStr => exact h.bind (h.stringOperand index) fun _ => h.pushNext _
  case new =>
    refine h.bind (h.stringOperand index) fun name => h.bind (h.resolve name) fun t => ?_
    have hmake : P (do
        let id ← Run.allocate (Machine.newInstance t)
        Machine.pushNext (.object id t.name)) :=
      h.bind (h.allocate _) fun id => h.pushNext _
    refine h.bind (h.checkAccess t) fun _ => ?_
    dsimp only
    split
    · exact h.bind (h.throw _ rfl) fun _ => hmake
    · exact hmake
  case invokeClosure =>
    refine h.bind (h.signatureOperand index) fun p => h.bind (h.peek _) fun v => ?_
    cases v with
    | closure id =>
      refine h.bind h.get fun s => h.bind (h.require rfl _) fun c => ?_
      exact h.bind (h.closureTarget c _) fun _ => h.pure _
    | _ => exact h.throw _ rfl
  all_goals exact h.throw _ rfl

lemma popOwner (owner : String) : P (Machine.popOwner owner) :=
  h.bind h.popInstance fun _ => branch (h.pure _) (h.throw _ rfl)

lemma checkStore (typeName field : String) (type : Option TypeDescriptor) (v : Value) :
    P (Machine.checkStore typeName field type v) := by
  unfold Machine.checkStore
  split
  · exact h.throw _ rfl
  · exact branch (h.pure ()) (h.throw _ rfl)

lemma getFieldSlot (a b : UInt32) : P (Machine.getFieldSlot e a b) := by
  refine h.bind (h.stringOperand a) fun owner => h.bind (h.popOwner owner) fun id => ?_
  exact h.bind h.get fun s => h.bind (h.require rfl _) fun v => h.pushNext v

lemma putFieldSlot (a b : UInt32) : P (Machine.putFieldSlot vm e a b) := by
  refine h.bind (h.stringOperand a) fun owner => h.bind h.pop fun v => ?_
  refine h.bind (h.popOwner owner) fun id => h.bind (h.resolve owner) fun t => ?_
  refine h.bind (h.checkStore _ _ _ v) fun _ => ?_
  exact h.bind (h.modifyHeap _) fun _ => h.pure _

lemma getField (a b : UInt32) : P (Machine.getField vm e a b) := by
  refine h.bind (h.stringOperand a) fun owner => h.bind (h.stringOperand b) fun name => ?_
  refine h.bind (h.popOwner owner) fun id => h.bind (h.resolve owner) fun t => ?_
  refine h.bind (h.require rfl _) fun place => h.bind h.get fun s => ?_
  exact h.bind (h.require rfl _) fun v => h.bind (h.modifyHeap _) fun _ => h.pushNext v

lemma putField (a b : UInt32) : P (Machine.putField vm e a b) := by
  refine h.bind (h.stringOperand a) fun owner => h.bind (h.stringOperand b) fun name => ?_
  refine h.bind h.pop fun v => h.bind (h.popOwner owner) fun id => ?_
  refine h.bind (h.resolve owner) fun t => h.bind (h.checkStore _ _ _ v) fun _ => ?_
  cases t.fieldPlace? name with
  | none => exact h.bind (h.pure _) fun _ => h.pure _
  | some place => exact h.bind (h.modifyHeap _) fun _ => h.pure _

/-! ### Closures -/

omit h in
lemma not_cutoff_of_fillSlots {id : SiteId} {site : CaptureSite} {position : Nat}
    {captured values : List Value} {cause : VmError}
    (h : Machine.fillSlots id site position captured values = .error cause) :
    cause.isCutoff = false := by
  induction values generalizing position captured with
  | nil => cases h
  | cons v rest ih =>
    unfold Machine.fillSlots at h
    split at h
    · obtain rfl := Except.error.inj h
      rfl
    · split at h
      · obtain rfl := Except.error.inj h
        rfl
      · split at h
        · exact ih h
        · obtain rfl := Except.error.inj h
          rfl

lemma makeCaptured (keyIndex : UInt32) (count flags : UInt8) :
    P (Machine.makeCaptured vm e keyIndex count flags) := by
  refine h.bind (h.stringOperand keyIndex) fun key => h.bind (h.require rfl _) fun id => ?_
  refine h.bind (h.site id) fun s => h.bind (h.typeById s.hostId) fun host => ?_
  refine h.bind (h.checkAccess host) fun _ => h.bind (h.popMany _ []) fun values => ?_
  have hmake (enclosing : Option Value) : P (do
      let unfilled := s.slots.map fun slot => Value.default slot.type
      let captured ← Run.lift (Machine.fillSlots id s 0 unfilled values)
      let object ← Run.allocate (.closureOf ⟨id, enclosing, captured⟩)
      Machine.pushNext (.closure object)) :=
    h.bind (h.lift fun _ => not_cutoff_of_fillSlots) fun captured =>
      h.bind (h.allocate _) fun object => h.pushNext _
  split
  · exact h.bind (h.bind h.pop fun v => h.pure (some v)) hmake
  · exact h.bind (h.pure none) hmake

lemma getCaptured (position : UInt32) : P (Machine.getCaptured vm e position) := by
  refine h.bind h.popClosure fun c => h.bind (h.site c.site) fun s => ?_
  refine h.bind (h.require rfl _) fun slot => ?_
  split
  · exact h.pushNext _
  · split
    · exact h.pushNext _
    · exact h.pushNext _

lemma getEnclosing : P Machine.getEnclosing := h.bind h.popClosure fun _ => h.pushNext _

/-! ### Calls -/

lemma invokeStatic (dynamic : Bool) (a b : UInt32) : P (Machine.invokeStatic vm e dynamic a b) := by
  refine h.bind (h.stringOperand a) fun owner => h.bind (h.resolve owner) fun t => ?_
  refine h.bind (h.checkAccess t) fun _ => h.bind (h.stringOperand b) fun key => ?_
  have hrest (target : Executable) : P (do
      Machine.expectKind target true
      return Flow.call target target.argSlots) :=
    h.bind (h.expectKind target true) fun _ => h.pure _
  cases dynamic with
  | true => exact h.bind (h.implementation t key) hrest
  | false => exact h.bind (h.dispatcher t key) hrest

lemma invokeVirtual (dynamic : Bool) (a b : UInt32) :
    P (Machine.invokeVirtual vm e dynamic a b) := by
  refine h.bind (h.stringOperand a) fun owner => h.bind (h.signatureOperand b) fun p => ?_
  obtain ⟨key, signature⟩ := p
  refine h.bind (h.receiverType owner _) fun t => h.bind (h.checkAccess t) fun _ => ?_
  have hrest (target : Executable) : P (do
      Machine.expectKind target false
      return Flow.call target (signature.paramCount + 1)) :=
    h.bind (h.expectKind target false) fun _ => h.pure _
  cases dynamic with
  | true => exact h.bind (h.implementation t key) hrest
  | false => exact h.bind (h.dispatcher t key) hrest

lemma stepPair (a b : UInt32) (op : Opcode) : P (Machine.stepPair vm e a b op) := by
  cases op
  case invokeStatic => exact h.invokeStatic false a b
  case invokeVirtual => exact h.invokeVirtual false a b
  case invokeDynamicStatic => exact h.invokeStatic true a b
  case invokeDynamicVirtual => exact h.invokeVirtual true a b
  case getFieldSlot => exact h.getFieldSlot a b
  case putFieldSlot => exact h.putFieldSlot a b
  case getExtField => exact h.getField a b
  case putExtField => exact h.putField a b
  case getCaptured => exact h.getCaptured b
  case getEnclosing => exact h.getEnclosing
  all_goals exact h.throw _ rfl

lemma stepDispatch (keyIndex : UInt32) (argc : UInt16) :
    P (Machine.stepDispatch vm e keyIndex argc) := by
  refine h.bind (h.stringOperand keyIndex) fun key => h.bind (h.typeById e.typeId) fun t => ?_
  exact h.bind (h.implementation t key) fun _ => h.pure _

lemma stepClosure (index : UInt32) (count flags : UInt8) (op : Opcode) :
    P (Machine.stepClosure vm e index count flags op) := by
  cases op
  case makeCaptured => exact h.makeCaptured index count flags
  all_goals exact h.throw _ rfl

/-- What holds of all that instructions are made of holds of every instruction. -/
theorem step (vm : Machine) (e : Executable) (i : Instruction) : P (Machine.step vm e i) := by
  unfold Machine.step
  cases i.operands with
  | none => exact h.stepPlain _
  | i32 v => exact h.pushNext _
  | i64 v => exact h.pushNext _
  | f64 v => exact h.pushNext _
  | index a => exact h.stepIndex a _
  | localSlot slot => exact h.stepLocal slot _
  | jump displacement => exact h.stepJump
  | pair a b => exact h.stepPair a b _
  | dispatch signature argc => exact h.stepDispatch signature argc
  | closure index count flags => exact h.stepClosure index count flags _

lemma pushResult (target : Executable) (v : Value) : P (Machine.pushResult target v) :=
  branch (h.push v) (h.pure ())

end Composes

end Run

end LiveTypes
