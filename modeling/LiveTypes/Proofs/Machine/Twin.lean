import LiveTypes.Proofs.Machine.Agree
import LiveTypes.Proofs.Machine.Missing
import LiveTypes.Proofs.Version.Dispatcher

/-!
# Code that was bound early or late

Two registries are twins when their types differ in no more than their identities, and code that
reaches a member by name in one of them may reach it through its slot or its dispatcher in the other. An
instruction and its twin come to the same (`step_agree`), with one exception: where one calls the
implementation, the other may call the dispatcher.
-/

namespace LiveTypes

/-! ### Twins -/

/-- A dispatcher whose calls come to an implementation. -/
structure Executable.PassesTo (r : Registry) (d target : Executable) : Prop extends
    d.IsDispatcher where
  found : ∃ t, r.byId? d.typeId = some t ∧ t.executable d.key = .ok target
  key_eq : target.key = d.key
  argSlots_eq : target.argSlots = d.argSlots
  isStatic_eq : target.isStatic = d.isStatic
  returns_eq : target.signature.returnsValue = d.signature.returnsValue

/-- Whether a type has a dispatcher for a method, which comes to its implementation. -/
def LiveType.Binds (r : Registry) (t : LiveType) (key : String) (isStatic : Bool) : Prop :=
  ∃ d target, t.dispatcher? key = some d ∧ t.executable key = .ok target ∧ d.isStatic = isStatic ∧
    d.PassesTo r target

/-- An instruction that is bound late in one registry, and may be bound early in the other. -/
inductive Instruction.Twin (r r' : Registry) (constants : ConstantPool) :
    Instruction → Instruction → Prop
  | same (i : Instruction) : Twin r r' constants i i
  | field {a b : UInt32} {owner name : String} {t : LiveType} {k : Nat} (write : Bool)
      (owner_eq : constants.string? a = some owner) (name_eq : constants.string? b = some name)
      (found : r.find? owner = some t) (slot_eq : t.layout.slot? name = some k) (offset : Nat) :
    Twin r r' constants ⟨offset, if write then .putExtField else .getExtField, .pair a b⟩
      ⟨offset, if write then .putFieldSlot else .getFieldSlot, .pair a (.ofNat k)⟩
  | call {a b : UInt32} {owner key : String} {t' : LiveType} (isStatic : Bool)
      (owner_eq : constants.string? a = some owner) (key_eq : constants.string? b = some key)
      (found : r'.find? owner = some t') (binds : t'.Binds r' key isStatic) (offset : Nat) :
    Twin r r' constants
      ⟨offset, if isStatic then .invokeDynamicStatic else .invokeDynamicVirtual, .pair a b⟩
      ⟨offset, if isStatic then .invokeStatic else .invokeVirtual, .pair a b⟩

/-- An executable made of the twins of the instructions of another one. -/
structure Executable.Twin (σ : Renaming) (r r' : Registry) (e e' : Executable) : Prop where
  body : r.HasBody e
  same : e' = { e with typeId := σ e.typeId, code := e'.code }
  size_eq : e'.code.size = e.code.size
  instruction : ∀ i, e.Has i → ∃ i', e'.Has i' ∧ i.Twin r r' e.constants i'

structure LiveType.Twin (σ : Renaming) (r r' : Registry) (t t' : LiveType) : Prop where
  mem : t ∈ r.types
  same : t' = { t with
    id := σ t.id
    loadedBytes := t'.loadedBytes
    dispatchers := t'.dispatchers
    initial := t'.initial
    table := t'.table }
  dispatchers : ∀ key, Option.Rel (Executable.Twin σ r r') (t.dispatchers.find? key)
    (t'.dispatchers.find? key)
  bodies : ∀ key, Option.Rel (Executable.Twin σ r r') (t.table.find? key) (t'.table.find? key)

/-- Two registries of the same types, which were bound late in one and may be bound early in the
other. -/
structure Registry.Twin (σ : Renaming) (r r' : Registry) : Prop where
  byName : ∀ name, Option.Rel (LiveType.Twin σ r r') (r.find? name) (r'.find? name)
  byId : ∀ id, Option.Rel (LiveType.Twin σ r r') (r.byId? id) (r'.byId? (σ id))
  fixed : ∀ id, r.byId? id = none → σ id = id
  sites : ∀ id, r'.sites.find? (id.rename σ) = (r.sites.find? id).map (CaptureSite.rename σ)

/-- What is called in one registry where an implementation is called in the other. -/
inductive Executable.Stands (σ : Renaming) (r r' : Registry) (target : Executable) :
    Executable → Prop
  | twin {target' : Executable} (h : target.Twin σ r r' target') : Stands σ r r' target target'
  | dispatcher {d target' : Executable} (h : target.Twin σ r r' target')
      (passes : d.PassesTo r' target') : Stands σ r r' target d

/-- Where control goes after an instruction and its twin. -/
inductive Flow.Twin (σ : Renaming) (r r' : Registry) : Flow → Flow → Prop
  | next : Twin σ r r' .next .next
  | jump (target : Nat) : Twin σ r r' (.jump target) (.jump target)
  | ret (v : Value) : Twin σ r r' (.ret v) (.ret v)
  | call {target d : Executable} (h : target.Stands σ r r' d) (argc : Nat) :
    Twin σ r r' (.call target argc) (.call d argc)

lemma Instruction.Twin.offset_eq {r r' : Registry} {constants : ConstantPool}
    {i i' : Instruction} (h : i.Twin r r' constants i') : i'.offset = i.offset := by
  cases h <;> rfl

lemma Instruction.Twin.next_eq {r r' : Registry} {constants : ConstantPool} {i i' : Instruction}
    (h : i.Twin r r' constants i') : i'.next = i.next := by
  cases h with
  | same => rfl
  | field write => cases write <;> rfl
  | call isStatic => cases isStatic <;> rfl

namespace Executable.Twin

variable {σ : Renaming} {r r' : Registry} {e e' : Executable}

lemma typeId_eq (h : e.Twin σ r r' e') : e'.typeId = σ e.typeId := by rw [h.same]

lemma isStatic_eq (h : e.Twin σ r r' e') : e'.isStatic = e.isStatic := by rw [h.same]

lemma locals_eq (h : e.Twin σ r r' e') : e'.locals = e.locals := by rw [h.same]

lemma argSlots_eq (h : e.Twin σ r r' e') : e'.argSlots = e.argSlots := by
  rw [h.same]
  rfl

end Executable.Twin

namespace LiveType.Twin

variable {σ : Renaming} {r r' : Registry} {t t' : LiveType}

lemma name_eq (h : t.Twin σ r r' t') : t'.name = t.name := by rw [h.same]

lemma fieldType?_eq (h : t.Twin σ r r' t') (name : String) :
    t'.fieldType? name = t.fieldType? name := by
  rw [h.same]
  rfl

lemma fieldPlace?_eq (h : t.Twin σ r r' t') (name : String) :
    t'.fieldPlace? name = t.fieldPlace? name := by
  rw [h.same]
  rfl

lemma isClosureHost_eq (h : t.Twin σ r r' t') : t'.isClosureHost = t.isClosureHost := by
  rw [h.same]
  rfl

lemma newInstance_eq (h : t.Twin σ r r' t') :
    Machine.newInstance t' = (Machine.newInstance t).rename σ := by
  rw [h.same]
  rfl

end LiveType.Twin

namespace Machine

open Run

variable {σ : Renaming} {g g' : Ground} {vm vm' : Machine} {r r' : Registry} {v : View}
  {e e' target target' : Executable} {i i' : Instruction} {t t' : LiveType}

/-! ### Plain instructions -/

lemma agree_pushNext (w : Value) :
    Agree σ g g' (Flow.Twin σ r r') (pushNext w) (pushNext w) v :=
  (agree_push w).after fun _ _ => agree_pure .next

lemma agree_binaryI32 {f : Int32 → Int32 → Except VmError Int32}
    (hf : ∀ a b e, f a b = .error e → e.rename σ = e) :
    Agree σ g g' (Flow.Twin σ r r') (binaryI32 f) (binaryI32 f) v :=
  agree_popI32.after fun b _ => agree_popI32.after fun a _ =>
    (agree_lift (hf a b)).after fun c _ => agree_pushNext (.i32 c)

lemma agree_binaryI64 {f : Int64 → Int64 → Except VmError Int64}
    (hf : ∀ a b e, f a b = .error e → e.rename σ = e) :
    Agree σ g g' (Flow.Twin σ r r') (binaryI64 f) (binaryI64 f) v :=
  agree_popI64.after fun b _ => agree_popI64.after fun a _ =>
    (agree_lift (hf a b)).after fun c _ => agree_pushNext (.i64 c)

lemma agree_binaryF64 (f : Double → Double → Double) :
    Agree σ g g' (Flow.Twin σ r r') (binaryF64 f) (binaryF64 f) v :=
  agree_popF64.after fun b _ => agree_popF64.after fun a _ => agree_pushNext (.f64 (f a b))

lemma agree_comparison (f : Int → Int → Bool) :
    Agree σ g g' (Flow.Twin σ r r') (comparison f) (comparison f) v :=
  agree_popIntegers.after fun p _ => agree_pushNext (.bool (f p.1 p.2))

/-- Division fails in one way only. -/
lemma rename_of_div {α : Type} {p : Prop} [Decidable p] {a : α} {e : VmError}
    (h : (if p then .error .divisionByZero else .ok a : Except VmError α) = .error e) :
    e.rename σ = e := by
  split at h
  · rw [← Except.error.inj h]
    rfl
  · cases h

lemma agree_stepPlain (op : Opcode) :
    Agree σ g g' (Flow.Twin σ r r') (stepPlain op) (stepPlain op) v := by
  cases op <;> dsimp only [stepPlain]
  case nop => exact agree_pure .next
  case pop => exact agree_pop.after fun _ _ => agree_pure .next
  case dup => exact (agree_peek 0).after fun w _ => agree_pushNext w
  case swap =>
    exact agree_pop.after fun b _ => agree_pop.after fun a _ =>
      (agree_push b).after fun _ _ => agree_pushNext a
  case constNull | constTrue | constFalse => exact agree_pushNext _
  case iadd | isub | imul => exact agree_binaryI32 (by simp)
  case idiv | imod => exact agree_binaryI32 fun _ _ _ => rename_of_div
  case ladd | lsub | lmul => exact agree_binaryI64 (by simp)
  case ldiv => exact agree_binaryI64 fun _ _ _ => rename_of_div
  case ineg => exact agree_popI32.after fun a _ => agree_pushNext (.i32 (-a))
  case i2l => exact agree_popI32.after fun a _ => agree_pushNext (.i64 a.toInt64)
  case fadd | fsub | fmul | fdiv => exact agree_binaryF64 _
  case ieq | ine | ilt | ile | igt | ige => exact agree_comparison _
  case not => exact agree_popBool.after fun a _ => agree_pushNext (.bool (!a))
  case ret => exact agree_pop.after fun w _ => agree_pure (.ret w)
  case retVoid => exact agree_pure (.ret .null)
  all_goals exact agree_throw_same rfl

lemma agree_stepLocal (slot : UInt16) (op : Opcode) :
    Agree σ g g' (Flow.Twin σ r r') (stepLocal slot op) (stepLocal slot op) v := by
  cases op <;> dsimp only [stepLocal]
  case loadLocal => exact (agree_loadLocal _).after fun w _ => agree_pushNext w
  case storeLocal =>
    exact agree_pop.after fun w _ => (agree_storeLocal _ w).after fun _ _ => agree_pure .next
  all_goals exact agree_throw_same rfl

/-! ### Lookups -/

section Lookups

variable (he : e.Twin σ r r' e')
include he

lemma stringOperand_of_twin : stringOperand e' = stringOperand e := by
  rw [he.same]
  rfl

lemma signatureOperand_of_twin : signatureOperand e' = signatureOperand e := by
  rw [he.same]
  rfl

lemma expectKind_of_twin (isStatic : Bool) : expectKind e' isStatic = expectKind e isStatic := by
  rw [he.same]
  rfl

end Lookups

lemma agree_stringOperand (index : UInt32) :
    Agree σ g g' Eq (stringOperand e index) (stringOperand e index) v :=
  agree_require_same rfl _

lemma agree_signatureOperand (index : UInt32) :
    Agree σ g g' Eq (signatureOperand e index) (signatureOperand e index) v := by
  refine (agree_stringOperand index).after fun key v => ?_
  cases Signature.parseKey key with
  | ok signature => exact agree_pure rfl
  | error cause => exact agree_throw_same rfl

lemma agree_expectKind (isStatic : Bool) :
    Agree σ g g' Eq (expectKind e isStatic) (expectKind e isStatic) v :=
  .ite (fun _ => agree_pure rfl) fun _ => agree_throw_same rfl

lemma agree_takeJump (he : e.Twin σ r r' e') :
    Agree σ g g' (Flow.Twin σ r r') (takeJump e i) (takeJump e' i) v := by
  unfold takeJump
  rw [he.size_eq]
  cases i.jumpTarget? with
  | none => exact agree_throw_same rfl
  | some target =>
    exact .ite (fun _ => agree_pure (.jump _)) fun _ => agree_throw_same rfl

lemma agree_stepJump (he : e.Twin σ r r' e') :
    Agree σ g g' (Flow.Twin σ r r') (stepJump e i) (stepJump e' i) v := by
  unfold stepJump
  cases i.opcode <;> dsimp only
  case jmp => exact agree_takeJump he
  case jmpIfFalse =>
    exact agree_popBool.after fun b v =>
      .ite (fun _ => agree_pure .next) fun _ => agree_takeJump he
  case jmpIfTrue =>
    exact agree_popBool.after fun b v =>
      .ite (fun _ => agree_takeJump he) fun _ => agree_pure .next
  all_goals exact agree_throw_same rfl

/-- The type with a name has a twin with that name. -/
lemma agree_resolve (h : vm.registry.Twin σ vm'.registry) (name : String) :
    Agree σ g g' (fun t t' => vm.registry.find? name = some t ∧
        vm'.registry.find? name = some t' ∧ t.Twin σ vm.registry vm'.registry t')
      (resolve vm name) (resolve vm' name) v := by
  refine agree_require ?_ fun _ => rfl
  rcases Outcome.rel_cases (h.byName name) with ⟨hnone, hnone'⟩ | ⟨t, t', ht, ht', htt⟩
  · rw [hnone, hnone']
    exact .none
  · rw [ht, ht']
    exact .some ⟨rfl, rfl, htt⟩

lemma agree_typeById (h : vm.registry.Twin σ vm'.registry) (id : TypeId) :
    Agree σ g g' (LiveType.Twin σ vm.registry vm'.registry) (typeById vm id)
      (typeById vm' (σ id)) v := by
  refine agree_require (h.byId id) fun hnone => ?_
  rw [h.fixed id hnone]
  rfl

lemma agree_checkAccess (he : e.Twin σ r r' e') (ht : t.Twin σ r r' t') :
    Agree σ g g' Eq (checkAccess e t) (checkAccess e' t') v := by
  have hsame : checkAccess e' t' = checkAccess e t := by
    rw [he.same, ht.same]
    rfl
  rw [hsame]
  exact .ite (fun _ => agree_pure rfl) fun _ => agree_throw_same rfl

lemma agree_dispatcher (ht : t.Twin σ r r' t') (key : String) :
    Agree σ g g' (Executable.Twin σ r r') (dispatcher t key) (dispatcher t' key) v := by
  refine agree_require (ht.dispatchers key) fun _ => ?_
  rw [ht.name_eq]
  rfl

/-- The lookup of an implementation in a type and in its twin. -/
lemma executable_twin (ht : t.Twin σ r r' t') (key : String) :
    Outcome.Alike (Executable.Twin σ r r') (t.executable key) (t'.executable key) := by
  have hhistory : t'.history = t.history := by rw [ht.same]
  unfold LiveType.executable
  rw [ht.name_eq, hhistory]
  rcases Outcome.rel_cases (ht.bodies key) with ⟨hnone, hnone'⟩ | ⟨e, e', he, he', hee⟩
  · rw [hnone, hnone']
    exact .ite (fun _ => .error _) fun _ => .error _
  · rw [he, he']
    exact .ok hee

lemma agree_implementation (ht : t.Twin σ r r' t') (key : String) :
    Agree σ g g' (Executable.Twin σ r r') (implementation t key) (implementation t' key) v := by
  have halike := executable_twin ht key
  unfold implementation
  generalize t.executable key = x at halike
  generalize t'.executable key = x' at halike
  cases halike with
  | ok h => exact agree_pure h
  | error e => exact agree_throw_same rfl

/-- Where a type looks up the implementation, its twin may find the dispatcher that comes to it. -/
lemma agree_binds (ht : t.Twin σ r r' t') {key : String} {isStatic : Bool}
    (hbinds : t'.Binds r' key isStatic) :
    Agree σ g g' (fun target d => target.isStatic = isStatic ∧ d.isStatic = isStatic ∧
        target.argSlots = d.argSlots ∧ ∃ target', target.Twin σ r r' target' ∧ d.PassesTo r' target')
      (implementation t key) (dispatcher t' key) v := by
  obtain ⟨d, target', hd, htarget', hkind, hpasses⟩ := hbinds
  have halike := executable_twin ht key
  unfold implementation dispatcher
  rw [hd]
  rw [htarget'] at halike
  generalize t.executable key = x at halike
  cases halike with
  | @ok target _ h =>
    refine agree_pure ⟨?_, hkind, h.argSlots_eq.symm.trans hpasses.argSlots_eq, target', h, hpasses⟩
    rw [← h.isStatic_eq, hpasses.isStatic_eq, hkind]

lemma agree_site (h : vm.registry.Twin σ vm'.registry) (id : SiteId) :
    Agree σ g g' (fun s s' => s' = s.rename σ) (site vm id) (site vm' (id.rename σ)) v := by
  refine agree_require ?_ fun _ => rfl
  rw [h.sites id]
  exact Outcome.rel_map _ fun _ => rfl

lemma agree_closureTarget (h : vm.registry.Twin σ vm'.registry) (c : Closure) (key : String) :
    Agree σ g g' (Executable.Twin σ vm.registry vm'.registry) (closureTarget vm c key)
      (closureTarget vm' (c.rename σ) key) v := by
  refine (agree_site h c.site).bind ?_
  rintro s _ v rfl
  refine (agree_typeById h s.hostId).bind fun t t' v ht => ?_
  refine (agree_implementation ht key).bind fun target target' v htarget => ?_
  rw [expectKind_of_twin htarget]
  exact (agree_expectKind false).after fun _ _ => agree_pure htarget

lemma agree_receiverType (h : vm.registry.Twin σ vm'.registry) (owner : String) (params : Nat) :
    Agree σ g g' (fun t t' => vm.registry.find? owner = some t ∧
        vm'.registry.find? owner = some t' ∧ t.Twin σ vm.registry vm'.registry t')
      (receiverType vm owner params) (receiverType vm' owner params) v := by
  refine (agree_peek params).after fun w v => ?_
  cases w with
  | object id typeName =>
    exact .ite (fun _ => agree_resolve h owner) fun _ => agree_throw_same rfl
  | _ => exact agree_throw_same rfl

/-! ### Objects -/

lemma agree_new (h : vm.registry.Twin σ vm'.registry)
    (he : e.Twin σ vm.registry vm'.registry e') (index : UInt32) :
    Agree σ g g' (Flow.Twin σ vm.registry vm'.registry) (stepIndex vm e index .new)
      (stepIndex vm' e' index .new) v := by
  dsimp only [stepIndex]
  rw [stringOperand_of_twin he]
  refine (agree_stringOperand index).after fun name v => ?_
  refine (agree_resolve h name).bind fun t t' v ⟨_, _, ht⟩ => ?_
  refine (agree_checkAccess he ht).after fun _ v => ?_
  rw [ht.name_eq, ht.isClosureHost_eq, ht.newInstance_eq]
  refine .ite (fun _ => agree_throw_same rfl) fun _ => ?_
  exact (agree_allocate _).after fun id _ => agree_pushNext _

lemma agree_invokeClosure (h : vm.registry.Twin σ vm'.registry)
    (he : e.Twin σ vm.registry vm'.registry e') (index : UInt32) :
    Agree σ g g' (Flow.Twin σ vm.registry vm'.registry) (stepIndex vm e index .invokeClosure)
      (stepIndex vm' e' index .invokeClosure) v := by
  dsimp only [stepIndex]
  rw [signatureOperand_of_twin he]
  refine (agree_signatureOperand index).after fun p v => (agree_peek _).after fun w v => ?_
  cases w with
  | closure id =>
    refine (agree_require_closure id).bind ?_
    rintro c _ v rfl
    refine (agree_closureTarget h c p.1).bind fun target target' v htarget => ?_
    exact agree_pure (.call (.twin htarget) _)
  | _ => exact agree_throw_same rfl

lemma agree_stepIndex (h : vm.registry.Twin σ vm'.registry)
    (he : e.Twin σ vm.registry vm'.registry e') (index : UInt32) (op : Opcode) :
    Agree σ g g' (Flow.Twin σ vm.registry vm'.registry) (stepIndex vm e index op)
      (stepIndex vm' e' index op) v := by
  cases op
  case constStr =>
    dsimp only [stepIndex]
    rw [stringOperand_of_twin he]
    exact (agree_stringOperand index).after fun text _ => agree_pushNext _
  case new => exact agree_new h he index
  case invokeClosure => exact agree_invokeClosure h he index
  all_goals exact agree_throw_same rfl

lemma agree_popOwner (owner : String) : Agree σ g g' Eq (popOwner owner) (popOwner owner) v :=
  agree_popInstance.after fun _ _ => .ite (fun _ => agree_pure rfl) fun _ => agree_throw_same rfl

lemma agree_checkStore (typeName field : String) (type : Option TypeDescriptor) (w : Value) :
    Agree σ g g' Eq (checkStore typeName field type w) (checkStore typeName field type w) v := by
  cases type with
  | none => exact agree_throw_same rfl
  | some type => exact .ite (fun _ => agree_pure rfl) fun _ => agree_throw_same rfl

lemma agree_getFieldSlot (he : e.Twin σ r r' e') (a b : UInt32) :
    Agree σ g g' (Flow.Twin σ r r') (getFieldSlot e a b) (getFieldSlot e' a b) v := by
  unfold getFieldSlot
  rw [stringOperand_of_twin he]
  refine (agree_stringOperand a).after fun owner v => (agree_popOwner owner).after fun id v => ?_
  refine agree_get ?_
  show Agree σ g g' _ (require _ (v.heap.getSlot? id b.toNat) >>= _)
    (require _ ((v.heap.rename σ).getSlot? id b.toNat) >>= _) v
  rw [Heap.getSlot?_rename]
  exact (agree_require_same rfl _).after fun w v => agree_pushNext w

lemma agree_putFieldSlot (h : vm.registry.Twin σ vm'.registry)
    (he : e.Twin σ vm.registry vm'.registry e') (a b : UInt32) :
    Agree σ g g' (Flow.Twin σ vm.registry vm'.registry) (putFieldSlot vm e a b)
      (putFieldSlot vm' e' a b) v := by
  unfold putFieldSlot
  rw [stringOperand_of_twin he]
  refine (agree_stringOperand a).after fun owner v => agree_pop.after fun w v => ?_
  refine (agree_popOwner owner).after fun id v => ?_
  refine (agree_resolve h owner).bind fun t t' v ⟨_, _, ht⟩ => ?_
  rw [ht.same]
  refine (agree_checkStore _ _ _ w).after fun _ v => ?_
  exact (agree_modifyHeap fun heap => heap.setSlot_rename _ _ _).after fun _ _ => agree_pure .next

/-- The rest of reading a field by name, once its instance and its place are known. -/
lemma agree_readAt (id : ObjectId) (owner name : String) (place : LiveType.FieldPlace) :
    Agree σ g g' (Flow.Twin σ r r')
      (do
        let w ← require (.noSuchField owner name) ((← get).heap.valueAt? id name place)
        Run.modifyHeap fun heap => heap.touchAt id name place
        pushNext w)
      (do
        let w ← require (.noSuchField owner name) ((← get).heap.valueAt? id name place)
        Run.modifyHeap fun heap => heap.touchAt id name place
        pushNext w) v := by
  refine agree_get ?_
  show Agree σ g g' _ (require _ (v.heap.valueAt? id name place) >>= _)
    (require _ ((v.heap.rename σ).valueAt? id name place) >>= _) v
  rw [Heap.valueAt?_rename]
  refine (agree_require_same rfl _).after fun w v => ?_
  exact (agree_modifyHeap fun heap => heap.touchAt_rename _ _ _).after fun _ _ => agree_pushNext w

lemma agree_getField (h : vm.registry.Twin σ vm'.registry)
    (he : e.Twin σ vm.registry vm'.registry e') (a b : UInt32) :
    Agree σ g g' (Flow.Twin σ vm.registry vm'.registry) (getField vm e a b)
      (getField vm' e' a b) v := by
  unfold getField
  rw [stringOperand_of_twin he]
  refine (agree_stringOperand a).after fun owner v => (agree_stringOperand b).after fun name v => ?_
  refine (agree_popOwner owner).after fun id v => ?_
  refine (agree_resolve h owner).bind fun t t' v ⟨_, _, ht⟩ => ?_
  rw [ht.fieldPlace?_eq]
  exact (agree_require_same rfl _).after fun place v => agree_readAt id owner name place

lemma agree_putField (h : vm.registry.Twin σ vm'.registry)
    (he : e.Twin σ vm.registry vm'.registry e') (a b : UInt32) :
    Agree σ g g' (Flow.Twin σ vm.registry vm'.registry) (putField vm e a b)
      (putField vm' e' a b) v := by
  unfold putField
  rw [stringOperand_of_twin he]
  refine (agree_stringOperand a).after fun owner v => (agree_stringOperand b).after fun name v => ?_
  refine agree_pop.after fun w v => (agree_popOwner owner).after fun id v => ?_
  refine (agree_resolve h owner).bind fun t t' v ⟨_, _, ht⟩ => ?_
  rw [ht.fieldPlace?_eq, ht.fieldType?_eq]
  refine (agree_checkStore _ _ _ w).after fun _ v => ?_
  cases t.fieldPlace? name with
  | none => exact agree_pure .next
  | some place =>
    exact (agree_modifyHeap fun heap => heap.storeAt_rename _ _ _ _).after fun _ _ => agree_pure .next

/-! ### Fields that are bound late or early -/

lemma stringOperand_eq_pure {index : UInt32} {text : String}
    (h : e.constants.string? index = some text) : stringOperand e index = pure text := by
  rw [stringOperand, h]
  rfl

lemma resolve_eq_pure {name : String} (h : vm.registry.find? name = some t) :
    resolve vm name = pure t := by
  rw [resolve, h]
  rfl

section Fields

variable {a b : UInt32} {owner name : String} {k : Nat}
  (hr : vm.registry.WellFormed) (he : e.Twin σ vm.registry vm'.registry e')
  (howner : e.constants.string? a = some owner) (hname : e.constants.string? b = some name)
  (hfind : vm.registry.find? owner = some t) (hslot : t.layout.slot? name = some k)
include hr he howner hname hfind hslot

/-- A field with a slot is read by name as it is read through its slot. -/
lemma agree_getField_slot (hs : (g.state v).Sound vm.registry) :
    Agree σ g g' (Flow.Twin σ vm.registry vm'.registry) (getField vm e a b)
      (getFieldSlot e' a (.ofNat k)) v := by
  obtain rfl := Registry.find?_name hfind
  have hplace : t.fieldPlace? name = some (.slot k) := LiveType.fieldPlace?_eq_slot.mpr hslot
  have hplace' : (require (.noSuchField t.name name) (t.fieldPlace? name) : Run _) =
      pure (.slot k) := by
    rw [hplace]
    rfl
  unfold getField getFieldSlot
  rw [stringOperand_of_twin he, stringOperand_eq_pure howner, stringOperand_eq_pure hname,
    (hr.types t (Registry.mem_of_find? hfind)).toNat_slot hslot]
  simp only [pure_bind, resolve_eq_pure hfind, hplace']
  refine (agree_popOwner t.name).bind_of_eq ?_
  rintro id _ v₁ rfl hpop
  obtain ⟨hs₁, -, hid⟩ := (keeps_popOwner hs t.name).of_ok hpop
  obtain ⟨w, hw⟩ := exists_valueAt? hs₁.heap hfind hid hplace
  refine agree_get ?_
  show Agree σ g g' _ (require _ (v₁.heap.valueAt? id name (.slot k)) >>= _)
    (require _ ((v₁.heap.rename σ).getSlot? id k) >>= _) v₁
  rw [Heap.getSlot?_rename, show v₁.heap.getSlot? id k = some w from hw,
    show v₁.heap.valueAt? id name (.slot k) = some w from hw]
  exact agree_pushNext w

/-- A field with a slot is written by name as it is written through its slot. -/
lemma agree_putField_slot (h : vm.registry.Twin σ vm'.registry) :
    Agree σ g g' (Flow.Twin σ vm.registry vm'.registry) (putField vm e a b)
      (putFieldSlot vm' e' a (.ofNat k)) v := by
  have hwell := hr.types t (Registry.mem_of_find? hfind)
  obtain ⟨type, htype, hslotType⟩ := hwell.fieldType?_of_slot? hslot
  unfold putField putFieldSlot
  rw [stringOperand_of_twin he, stringOperand_eq_pure howner, stringOperand_eq_pure hname,
    hwell.toNat_slot hslot]
  simp only [pure_bind]
  refine agree_pop.after fun w v => (agree_popOwner owner).after fun id v => ?_
  refine (agree_resolve h owner).bind ?_
  rintro t₁ t' v ⟨hfind₁, -, ht⟩
  obtain rfl := Option.some.inj (hfind.symm.trans hfind₁)
  have hlayout : t'.layout = t.layout := by rw [ht.same]
  rw [hlayout, Layout.slotName?_of_slot? hslot, Option.getD_some, hslotType, htype,
    LiveType.fieldPlace?_eq_slot.mpr hslot]
  refine (agree_checkStore _ _ _ w).after fun _ v => ?_
  exact (agree_modifyHeap fun heap => heap.setSlot_rename _ _ _).after fun _ _ => agree_pure .next

end Fields

/-! ### Closures -/

lemma fillSlots_rename (id : SiteId) (s : CaptureSite) (position : Nat)
    (captured values : List Value) :
    fillSlots (id.rename σ) (s.rename σ) position captured values =
      (fillSlots id s position captured values).mapError (VmError.rename σ) := by
  induction values generalizing position captured with
  | nil => rfl
  | cons w rest ih =>
    unfold fillSlots
    rw [CaptureSite.slotFor?_rename]
    cases s.slotFor? position with
    | none => rfl
    | some slot =>
      dsimp only
      rw [CaptureSite.slotType?_rename]
      cases s.slotType? slot with
      | none => rfl
      | some type =>
        dsimp only
        split
        · exact ih _ _
        · rfl

/-- The last part of making a closure, over what it holds. -/
lemma agree_fill (id : SiteId) (s : CaptureSite) (enclosing : Option Value)
    (unfilled values : List Value) :
    Agree σ g g' (Flow.Twin σ r r')
      (do
        let captured ← Run.lift (fillSlots id s 0 unfilled values)
        let object ← Run.allocate (.closureOf ⟨id, enclosing, captured⟩)
        pushNext (.closure object))
      (do
        let captured ← Run.lift (fillSlots (id.rename σ) (s.rename σ) 0 unfilled values)
        let object ← Run.allocate (.closureOf ⟨id.rename σ, enclosing, captured⟩)
        pushNext (.closure object)) v := by
  rw [fillSlots_rename]
  refine (agree_lift_rename _).after fun captured v => ?_
  exact (agree_allocate (.closureOf ⟨id, enclosing, captured⟩)).after fun object _ =>
    agree_pushNext (.closure object)

lemma agree_makeCaptured (h : vm.registry.Twin σ vm'.registry)
    (he : e.Twin σ vm.registry vm'.registry e') (index : UInt32) (count flags : UInt8) :
    Agree σ g g' (Flow.Twin σ vm.registry vm'.registry) (makeCaptured vm e index count flags)
      (makeCaptured vm' e' index count flags) v := by
  unfold makeCaptured
  rw [stringOperand_of_twin he, he.typeId_eq]
  refine (agree_stringOperand index).after fun key v => ?_
  rw [SiteId.ofKey?_rename]
  refine (agree_require (Outcome.rel_map (R := fun id id' => id' = id.rename σ) _ fun _ => rfl)
    fun _ => rfl).bind ?_
  rintro id _ v rfl
  refine (agree_site h id).bind ?_
  rintro s _ v rfl
  refine (agree_typeById h s.hostId).bind fun t t' v ht => ?_
  refine (agree_checkAccess he ht).after fun _ v => (agree_popMany _ _).after fun values v => ?_
  split
  · exact (agree_pop.after fun w _ => agree_pure rfl).after fun enclosing v => agree_fill ..
  · exact (agree_pure rfl).after fun enclosing v => agree_fill ..

lemma agree_getCaptured (h : vm.registry.Twin σ vm'.registry)
    (he : e.Twin σ vm.registry vm'.registry e') (b : UInt32) :
    Agree σ g g' (Flow.Twin σ vm.registry vm'.registry) (getCaptured vm e b)
      (getCaptured vm' e' b) v := by
  have hversion : e'.version = e.version := by rw [he.same]
  unfold getCaptured
  rw [he.typeId_eq, hversion]
  refine agree_popClosure.bind ?_
  rintro c _ v rfl
  refine (agree_site h c.site).bind ?_
  rintro s _ v rfl
  rw [CaptureSite.slotAt?_rename]
  refine (agree_require_rename (.runtime (.noPosition c.site b.toNat)) _).after fun slot v => ?_
  have hcaptured : (c.rename σ).captured = c.captured := rfl
  rw [hcaptured, CaptureSite.slotType?_rename]
  cases c.captured[slot]? with
  | some w => exact agree_pushNext w
  | none =>
    cases s.slotType? slot with
    | some type => exact agree_pushNext _
    | none => exact agree_pushNext .null

lemma agree_getEnclosing :
    Agree σ g g' (Flow.Twin σ r r') getEnclosing getEnclosing v := by
  refine agree_popClosure.bind ?_
  rintro c _ v rfl
  exact agree_pushNext _

/-! ### Calls -/

lemma key_of_signatureOperand {b : UInt32} {key : String} {p : String × Signature}
    {s s' : MachineState} (hkey : e.constants.string? b = some key)
    (h : signatureOperand e b s = .ok p s') : p.1 = key := by
  unfold signatureOperand at h
  rw [stringOperand_eq_pure hkey, pure_bind] at h
  cases hparse : Signature.parseKey key with
  | ok signature =>
    rw [hparse] at h
    obtain ⟨rfl, -⟩ := pure_eq_ok.mp h
    rfl
  | error cause =>
    rw [hparse] at h
    exact absurd h throw_ne_ok

section Calls

variable (h : vm.registry.Twin σ vm'.registry) (he : e.Twin σ vm.registry vm'.registry e')
  {a b : UInt32}
include h he

lemma agree_invokeStatic (dynamic : Bool) :
    Agree σ g g' (Flow.Twin σ vm.registry vm'.registry) (invokeStatic vm e dynamic a b)
      (invokeStatic vm' e' dynamic a b) v := by
  have hrest {target target' : Executable} {v : View}
      (htarget : target.Twin σ vm.registry vm'.registry target') :
      Agree σ g g' (Flow.Twin σ vm.registry vm'.registry)
        (do expectKind target true; return .call target target.argSlots)
        (do expectKind target' true; return .call target' target'.argSlots) v := by
    rw [expectKind_of_twin htarget, htarget.argSlots_eq]
    exact (agree_expectKind true).after fun _ _ => agree_pure (.call (.twin htarget) _)
  unfold invokeStatic
  rw [stringOperand_of_twin he]
  refine (agree_stringOperand a).after fun owner v => ?_
  refine (agree_resolve h owner).bind fun t t' v ⟨_, _, ht⟩ => ?_
  refine (agree_checkAccess he ht).after fun _ v => (agree_stringOperand b).after fun key v => ?_
  cases dynamic with
  | true => exact (agree_implementation ht key).bind fun _ _ _ => hrest
  | false => exact (agree_dispatcher ht key).bind fun _ _ _ => hrest

lemma agree_invokeVirtual (dynamic : Bool) :
    Agree σ g g' (Flow.Twin σ vm.registry vm'.registry) (invokeVirtual vm e dynamic a b)
      (invokeVirtual vm' e' dynamic a b) v := by
  have hrest {target target' : Executable} {v : View} (argc : Nat)
      (htarget : target.Twin σ vm.registry vm'.registry target') :
      Agree σ g g' (Flow.Twin σ vm.registry vm'.registry)
        (do expectKind target false; return .call target argc)
        (do expectKind target' false; return .call target' argc) v := by
    rw [expectKind_of_twin htarget]
    exact (agree_expectKind false).after fun _ _ => agree_pure (.call (.twin htarget) _)
  unfold invokeVirtual
  rw [stringOperand_of_twin he, signatureOperand_of_twin he]
  refine (agree_stringOperand a).after fun owner v => ?_
  refine (agree_signatureOperand b).after fun p v => ?_
  refine (agree_receiverType h owner _).bind fun t t' v ⟨_, _, ht⟩ => ?_
  refine (agree_checkAccess he ht).after fun _ v => ?_
  cases dynamic with
  | true => exact (agree_implementation ht _).bind fun _ _ _ => hrest _
  | false => exact (agree_dispatcher ht _).bind fun _ _ _ => hrest _

variable {owner key : String} (howner : e.constants.string? a = some owner)
  (hkey : e.constants.string? b = some key) (hfind : vm'.registry.find? owner = some t')
include howner hkey hfind

/-- A static call of an implementation comes to what a call of its dispatcher comes to. -/
lemma agree_invokeStatic_binds (hbinds : t'.Binds vm'.registry key true) :
    Agree σ g g' (Flow.Twin σ vm.registry vm'.registry) (invokeStatic vm e true a b)
      (invokeStatic vm' e' false a b) v := by
  unfold invokeStatic
  rw [stringOperand_of_twin he, stringOperand_eq_pure howner, stringOperand_eq_pure hkey]
  simp only [pure_bind]
  refine (agree_resolve h owner).bind ?_
  rintro t t₁ v ⟨-, hfind₁, ht⟩
  obtain rfl := Option.some.inj (hfind.symm.trans hfind₁)
  refine (agree_checkAccess he ht).after fun _ v => ?_
  refine (agree_binds ht hbinds).bind ?_
  rintro target d v ⟨hstatic, hstatic', hslots, target', htarget, hpasses⟩
  rw [expectKind, expectKind, if_pos hstatic, if_pos hstatic', hslots]
  exact agree_pure (.call (.dispatcher htarget hpasses) _)

/-- An instance call of an implementation comes to what a call of its dispatcher comes to. -/
lemma agree_invokeVirtual_binds (hbinds : t'.Binds vm'.registry key false) :
    Agree σ g g' (Flow.Twin σ vm.registry vm'.registry) (invokeVirtual vm e true a b)
      (invokeVirtual vm' e' false a b) v := by
  unfold invokeVirtual
  rw [stringOperand_of_twin he, signatureOperand_of_twin he]
  refine (agree_stringOperand a).bind_of_eq ?_
  rintro owner₁ _ v₁ rfl hrun
  obtain ⟨howner₁, -⟩ := require_eq_ok.mp hrun
  obtain rfl := Option.some.inj (howner.symm.trans howner₁)
  refine (agree_signatureOperand b).bind_of_eq ?_
  rintro ⟨key₁, signature⟩ _ v₂ rfl hrun
  obtain rfl := key_of_signatureOperand hkey hrun
  dsimp only
  refine (agree_receiverType h owner _).bind ?_
  rintro t t₁ v ⟨-, hfind₁, ht⟩
  obtain rfl := Option.some.inj (hfind.symm.trans hfind₁)
  refine (agree_checkAccess he ht).after fun _ v => ?_
  refine (agree_binds ht hbinds).bind ?_
  rintro target d v ⟨hstatic, hstatic', -, target', htarget, hpasses⟩
  rw [expectKind, expectKind, if_pos hstatic, if_pos hstatic']
  exact agree_pure (.call (.dispatcher htarget hpasses) _)

end Calls

lemma agree_stepDispatch (h : vm.registry.Twin σ vm'.registry)
    (he : e.Twin σ vm.registry vm'.registry e') (index : UInt32) (argc : UInt16) :
    Agree σ g g' (Flow.Twin σ vm.registry vm'.registry) (stepDispatch vm e index argc)
      (stepDispatch vm' e' index argc) v := by
  unfold stepDispatch
  rw [stringOperand_of_twin he, he.typeId_eq]
  refine (agree_stringOperand index).after fun key v => ?_
  refine (agree_typeById h e.typeId).bind fun t t' v ht => ?_
  exact (agree_implementation ht key).bind fun _ _ _ htarget => agree_pure (.call (.twin htarget) _)

/-! ### Every instruction -/

section Steps

variable (h : vm.registry.Twin σ vm'.registry) (he : e.Twin σ vm.registry vm'.registry e')
include h he

lemma agree_stepPair (a b : UInt32) (op : Opcode) :
    Agree σ g g' (Flow.Twin σ vm.registry vm'.registry) (stepPair vm e a b op)
      (stepPair vm' e' a b op) v := by
  cases op
  case invokeStatic => exact agree_invokeStatic h he false
  case invokeVirtual => exact agree_invokeVirtual h he false
  case invokeDynamicStatic => exact agree_invokeStatic h he true
  case invokeDynamicVirtual => exact agree_invokeVirtual h he true
  case getFieldSlot => exact agree_getFieldSlot he a b
  case putFieldSlot => exact agree_putFieldSlot h he a b
  case getExtField => exact agree_getField h he a b
  case putExtField => exact agree_putField h he a b
  case getCaptured => exact agree_getCaptured h he b
  case getEnclosing => exact agree_getEnclosing
  all_goals exact agree_throw_same rfl

lemma agree_stepClosure (index : UInt32) (count flags : UInt8) (op : Opcode) :
    Agree σ g g' (Flow.Twin σ vm.registry vm'.registry) (stepClosure vm e index count flags op)
      (stepClosure vm' e' index count flags op) v := by
  cases op
  case makeCaptured => exact agree_makeCaptured h he index count flags
  all_goals exact agree_throw_same rfl

/-- The same instruction comes to the same in both bodies. -/
lemma agree_step : Agree σ g g' (Flow.Twin σ vm.registry vm'.registry) (step vm e i)
    (step vm' e' i) v := by
  unfold step
  cases i.operands with
  | none => exact agree_stepPlain _
  | i32 w => exact agree_pushNext (.i32 w)
  | i64 w => exact agree_pushNext (.i64 w)
  | f64 w => exact agree_pushNext (.f64 w)
  | index a => exact agree_stepIndex h he a _
  | localSlot slot => exact agree_stepLocal slot _
  | jump offset => exact agree_stepJump he
  | pair a b => exact agree_stepPair h he a b _
  | dispatch signature argc => exact agree_stepDispatch h he signature argc
  | closure index count flags => exact agree_stepClosure h he index count flags _

/-- An instruction and its twin come to the same in a sound state. -/
theorem step_agree (hr : vm.registry.WellFormed) (hs : (g.state v).Sound vm.registry)
    (hi : i.Twin vm.registry vm'.registry e.constants i') :
    Agree σ g g' (Flow.Twin σ vm.registry vm'.registry) (step vm e i) (step vm' e' i') v := by
  cases hi with
  | same => exact agree_step h he
  | field write howner hname hfind hslot =>
    cases write with
    | true => exact agree_putField_slot hr he howner hname hfind hslot h
    | false => exact agree_getField_slot hr he howner hname hfind hslot hs
  | call isStatic howner hkey hfind hbinds =>
    cases isStatic with
    | true => exact agree_invokeStatic_binds h he howner hkey hfind hbinds
    | false => exact agree_invokeVirtual_binds h he howner hkey hfind hbinds

end Steps

end Machine

end LiveTypes
