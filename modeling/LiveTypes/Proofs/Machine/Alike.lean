import LiveTypes.Machine.Invoke
import LiveTypes.Proofs.Alike
import LiveTypes.Proofs.Machine.Safety

/-!
# Running in two registries

Two registries are alike to running code when their types differ in nothing that code can tell: a body may
carry another version number and run on behalf of another executor unit, as long as it reaches the same
types and finds captured variables in the same slots. Code that runs in both does the same, step by step
(`step_alike`), and so does everything that a host invokes (`invoke_alike`). Only an access that is denied
may name another executor unit.
-/

namespace LiveTypes

/-! ### Actions -/

/-- Two failures that are the same, up to the version of the executor unit that was denied an access. -/
inductive VmError.Alike : VmError → VmError → Prop
  | refl (e : VmError) : Alike e e
  | illegalAccess (name : String) (version version' : Nat) (target : String) :
    Alike (.illegalAccess (executorName name version) target)
      (.illegalAccess (executorName name version') target)

namespace Run

variable {α α' β β' : Type} {R : α → α' → Prop} {Q : β → β' → Prop}

/-- Whether two results leave the same state, with what belongs together or with failures that are
alike. -/
inductive Matches (R : α → α' → Prop) :
    EStateM.Result VmError MachineState α → EStateM.Result VmError MachineState α' → Prop
  | ok {a : α} {a' : α'} (h : R a a') (s : MachineState) : Matches R (.ok a s) (.ok a' s)
  | error {e e' : VmError} (h : e.Alike e') (s : MachineState) : Matches R (.error e s) (.error e' s)

/-- Whether two actions come from every state to results that match. -/
def Alike (R : α → α' → Prop) (x : Run α) (x' : Run α') : Prop := ∀ s, Matches R (x s) (x' s)

lemma alike_pure {a : α} {a' : α'} (h : R a a') : Alike R (pure a) (pure a') := fun s => .ok h s

lemma alike_throw {e e' : VmError} (h : e.Alike e') :
    Alike R (throw e : Run α) (throw e' : Run α') :=
  fun s => .error h s

lemma alike_refl (x : Run α) : Alike Eq x x := by
  intro s
  cases x s with
  | ok a s' => exact .ok rfl s'
  | error e s' => exact .error (.refl e) s'

lemma Alike.bind {x : Run α} {x' : Run α'} {f : α → Run β} {f' : α' → Run β'} (hx : Alike R x x')
    (hf : ∀ a a', R a a' → Alike Q (f a) (f' a')) : Alike Q (x >>= f) (x' >>= f') := by
  intro s
  have hs := hx s
  generalize hrun : x s = res at hs
  generalize hrun' : x' s = res' at hs
  cases hs with
  | ok h s' =>
    rw [bind_of_ok hrun, bind_of_ok hrun']
    exact hf _ _ h s'
  | error h s' =>
    rw [bind_of_error hrun, bind_of_error hrun']
    exact .error h s'

/-- What is the same in both actions comes to the same. -/
lemma Alike.after {x : Run α} {f : α → Run β} {f' : α → Run β'}
    (hf : ∀ a, Alike Q (f a) (f' a)) : Alike Q (x >>= f) (x >>= f') :=
  (alike_refl x).bind fun a _ h => h ▸ hf a

lemma Alike.ite {p : Prop} [Decidable p] {x y : Run α} {x' y' : Run α'}
    (hx : p → Alike R x x') (hy : ¬ p → Alike R y y') :
    Alike R (if p then x else y) (if p then x' else y') := by
  split_ifs with hp
  · exact hx hp
  · exact hy hp

lemma alike_require {e : VmError} {o : Option α} {o' : Option α'} (h : Option.Rel R o o') :
    Alike R (require e o) (require e o') := by
  cases h with
  | none => exact alike_throw (.refl e)
  | some h => exact alike_pure h

lemma alike_lift {x : Except VmError α} {x' : Except VmError α'} (h : Outcome.Alike R x x') :
    Alike R (lift x) (lift x') := by
  cases h with
  | ok h => exact alike_pure h
  | error e => exact alike_throw (.refl e)

end Run

/-! ### Registries that are alike -/

/-- Two bodies that do the same in two registries. -/
structure Executable.Alike (r r' : Registry) (e e' : Executable) : Prop where
  body : r.HasBody e
  same : e' = { e with unitName := e'.unitName, version := e'.version }
  unit : e'.unitName = e.unitName ∨ ∃ name version version',
    e.unitName = executorName name version ∧ e'.unitName = executorName name version'
  access : ∀ t ∈ r.types, Access.allows e'.unitName t.name t.loadedUnit.access =
    Access.allows e.unitName t.name t.loadedUnit.access
  slots : ∀ i, e.Has i → i.opcode = .getCaptured → ∀ id s s', r.sites.find? id = some s →
    r'.sites.find? id = some s' → ∀ position,
      s'.slotAt? e.typeId e'.version position = s.slotAt? e.typeId e.version position

/-- Two types that do the same in two registries. -/
structure LiveType.Alike (r r' : Registry) (t t' : LiveType) : Prop where
  mem : t ∈ r.types
  same : t' = { t with later := t'.later, table := t'.table }
  bodies : ∀ key,
    Option.Rel (Executable.Alike r r') (t.table.find? key) (t'.table.find? key)
  dispatchers : ∀ key d, t.dispatchers.find? key = some d → d.Alike r r' d

/-- Two registries in which all code does the same. -/
structure Registry.Alike (r r' : Registry) : Prop where
  byName : ∀ name, Option.Rel (LiveType.Alike r r') (r.find? name) (r'.find? name)
  byId : ∀ id, Option.Rel (LiveType.Alike r r') (r.byId? id) (r'.byId? id)
  sites : ∀ id, Option.Rel (fun s s' => s' = { s with mappings := s'.mappings })
    (r.sites.find? id) (r'.sites.find? id)

/-- Two machines on which all code does the same. -/
structure Machine.Alike (vm vm' : Machine) : Prop where
  registry : vm.registry.Alike vm'.registry
  depth_eq : vm'.maxCallDepth = vm.maxCallDepth

/-- Where control goes on both machines after an instruction: to the same place, and to instructions
only. -/
inductive Flow.Alike (r r' : Registry) (e : Executable) (i : Instruction) : Flow → Flow → Prop
  | next (h : i.opcode.isTerminator = false) : Alike r r' e i .next .next
  | jump {target : Nat} (h : e.Starts target) : Alike r r' e i (.jump target) (.jump target)
  | ret (v : Value) : Alike r r' e i (.ret v) (.ret v)
  | call {target target' : Executable} (h : target.Alike r r' target') (argc : Nat)
      (hnext : i.opcode.isTerminator = false) :
    Alike r r' e i (.call target argc) (.call target' argc)

namespace Machine

open Run

variable {vm vm' : Machine} {e e' target target' : Executable} {i : Instruction} {t t' : LiveType}
  {R : Flow → Flow → Prop}

/-! ### Plain instructions -/

lemma alike_pushNext (v : Value) (hnext : R .next .next) :
    Run.Alike R (pushNext v) (pushNext v) :=
  .after fun _ => alike_pure hnext

lemma alike_stepPlain {op : Opcode} (hnext : op.isTerminator = false → R .next .next)
    (hret : ∀ v, R (.ret v) (.ret v)) : Run.Alike R (stepPlain op) (stepPlain op) := by
  cases op <;> dsimp only [stepPlain]
  case nop => exact alike_pure (hnext rfl)
  case pop => exact .after fun _ => alike_pure (hnext rfl)
  case dup | ineg | i2l | not => exact .after fun _ => alike_pushNext _ (hnext rfl)
  case swap => exact .after fun _ => .after fun _ => .after fun _ => alike_pushNext _ (hnext rfl)
  case constNull | constTrue | constFalse => exact alike_pushNext _ (hnext rfl)
  case iadd | isub | imul | idiv | imod | ladd | lsub | lmul | ldiv =>
    exact .after fun _ => .after fun _ => .after fun _ => .after fun _ => alike_pure (hnext rfl)
  case fadd | fsub | fmul | fdiv =>
    exact .after fun _ => .after fun _ => .after fun _ => alike_pure (hnext rfl)
  case ieq | ine | ilt | ile | igt | ige =>
    exact .after fun _ => .after fun _ => alike_pure (hnext rfl)
  case ret => exact .after fun v => alike_pure (hret v)
  case retVoid => exact alike_pure (hret .null)
  all_goals exact alike_throw (.refl _)

lemma alike_stepLocal {slot : UInt16} {op : Opcode}
    (hnext : op.isTerminator = false → R .next .next) :
    Run.Alike R (stepLocal slot op) (stepLocal slot op) := by
  cases op <;> dsimp only [stepLocal]
  case loadLocal => exact .after fun _ => alike_pushNext _ (hnext rfl)
  case storeLocal => exact .after fun _ => .after fun _ => alike_pure (hnext rfl)
  all_goals exact alike_throw (.refl _)

lemma alike_takeJump (hjump : ∀ target, i.jumpTarget? = some target →
    R (.jump target.toNat) (.jump target.toNat)) :
    Run.Alike R (takeJump e i) (takeJump e i) := by
  unfold takeJump
  cases htarget : i.jumpTarget? with
  | none => exact alike_throw (.refl _)
  | some target =>
    exact .ite (fun _ => alike_pure (hjump target htarget)) fun _ => alike_throw (.refl _)

lemma alike_stepJump (hnext : i.opcode.isTerminator = false → R .next .next)
    (hjump : ∀ target, i.jumpTarget? = some target →
      R (.jump target.toNat) (.jump target.toNat)) :
    Run.Alike R (stepJump e i) (stepJump e i) := by
  unfold stepJump
  cases hop : i.opcode <;> rw [hop] at hnext <;> dsimp only
  case jmp => exact alike_takeJump hjump
  case jmpIfFalse =>
    exact .after fun _ => .ite (fun _ => alike_pure (hnext rfl)) fun _ => alike_takeJump hjump
  case jmpIfTrue =>
    exact .after fun _ => .ite (fun _ => alike_takeJump hjump) fun _ => alike_pure (hnext rfl)
  all_goals exact alike_throw (.refl _)

/-! ### Lookups -/

section Lookups

variable {r r' : Registry}

lemma stringOperand_of_alike (he : e.Alike r r' e') : stringOperand e' = stringOperand e := by
  rw [he.same]
  rfl

lemma signatureOperand_of_alike (he : e.Alike r r' e') :
    signatureOperand e' = signatureOperand e := by
  rw [he.same]
  rfl

lemma expectKind_of_alike (h : target.Alike r r' target') (isStatic : Bool) :
    expectKind target' isStatic = expectKind target isStatic := by
  rw [h.same]
  rfl

lemma alike_resolve (h : vm.Alike vm') (name : String) :
    Run.Alike (LiveType.Alike vm.registry vm'.registry) (resolve vm name) (resolve vm' name) :=
  alike_require (h.registry.byName name)

lemma alike_typeById (h : vm.Alike vm') (id : TypeId) :
    Run.Alike (LiveType.Alike vm.registry vm'.registry) (typeById vm id) (typeById vm' id) :=
  alike_require (h.registry.byId id)

lemma alike_checkAccess (he : e.Alike r r' e') (ht : t.Alike r r' t') :
    Run.Alike (fun _ _ => True) (checkAccess e t) (checkAccess e' t') := by
  have hname : t'.name = t.name := by rw [ht.same]
  have hloaded : t'.loadedUnit = t.loadedUnit := by rw [ht.same]
  unfold checkAccess
  rw [hname, hloaded, he.access t ht.mem]
  refine .ite (fun _ => alike_pure trivial) fun _ => alike_throw ?_
  rcases he.unit with heq | ⟨name, version, version', heq, heq'⟩
  · rw [heq]
    exact .refl _
  · rw [heq, heq']
    exact .illegalAccess name version version' t.name

lemma alike_dispatcher (ht : t.Alike r r' t') (key : String) :
    Run.Alike (Executable.Alike r r') (dispatcher t key) (dispatcher t' key) := by
  have hsame : dispatcher t' key = dispatcher t key := by
    rw [ht.same]
    rfl
  rw [hsame]
  refine alike_require ?_
  cases hd : t.dispatcher? key with
  | none => exact .none
  | some d => exact .some (ht.dispatchers key d hd)

lemma alike_implementation (ht : t.Alike r r' t') (key : String) :
    Run.Alike (Executable.Alike r r') (implementation t key) (implementation t' key) := by
  have hname : t'.name = t.name := by rw [ht.same]
  have hhistory : t'.history = t.history := by rw [ht.same]
  refine alike_lift (Outcome.Alike.mapError _ ?_)
  unfold LiveType.executable
  rw [hname, hhistory]
  rcases Outcome.rel_cases (ht.bodies key) with ⟨hnone, hnone'⟩ | ⟨e, e', he, he', hee⟩
  · rw [hnone, hnone']
    exact .ite (fun _ => .error _) fun _ => .error _
  · rw [he, he']
    exact .ok hee

lemma alike_site (h : vm.Alike vm') (id : SiteId) :
    Run.Alike (fun s s' => vm.registry.sites.find? id = some s ∧
        vm'.registry.sites.find? id = some s' ∧ s' = { s with mappings := s'.mappings })
      (site vm id) (site vm' id) := by
  refine alike_require ?_
  rcases Outcome.rel_cases (h.registry.sites id) with ⟨hnone, hnone'⟩ | ⟨s, s', hs, hs', hsame⟩
  · rw [hnone, hnone']
    exact .none
  · rw [hs, hs']
    exact .some ⟨rfl, rfl, hsame⟩

lemma alike_closureTarget (h : vm.Alike vm') (c : Closure) (key : String) :
    Run.Alike (Executable.Alike vm.registry vm'.registry) (closureTarget vm c key)
      (closureTarget vm' c key) := by
  refine (alike_site h c.site).bind ?_
  rintro s s' ⟨-, -, hs⟩
  rw [hs]
  refine (alike_typeById h s.hostId).bind fun t t' ht => ?_
  refine (alike_implementation ht key).bind fun target target' htarget => ?_
  rw [expectKind_of_alike htarget]
  exact .after fun _ => alike_pure htarget

lemma alike_receiverType (h : vm.Alike vm') (owner : String) (params : Nat) :
    Run.Alike (LiveType.Alike vm.registry vm'.registry) (receiverType vm owner params)
      (receiverType vm' owner params) := by
  refine .after fun v => ?_
  cases v with
  | object id typeName =>
    exact .ite (fun _ => alike_resolve h owner) fun _ => alike_throw (.refl _)
  | _ => exact alike_throw (.refl _)

end Lookups

/-! ### Instructions that look into the registry -/

lemma alike_stepIndex (h : vm.Alike vm') (he : e.Alike vm.registry vm'.registry e') {index : UInt32}
    {op : Opcode} (hnext : op.isTerminator = false → R .next .next)
    (hcall : op.isTerminator = false → ∀ target target' argc,
      target.Alike vm.registry vm'.registry target' → R (.call target argc) (.call target' argc)) :
    Run.Alike R (stepIndex vm e index op) (stepIndex vm' e' index op) := by
  cases op <;> dsimp only [stepIndex]
  case constStr =>
    rw [stringOperand_of_alike he]
    exact .after fun _ => alike_pushNext _ (hnext rfl)
  case new =>
    rw [stringOperand_of_alike he]
    refine .after fun name => (alike_resolve h name).bind fun t t' ht => ?_
    refine (alike_checkAccess he ht).bind fun _ _ _ => ?_
    rw [ht.same]
    refine .ite (fun _ => alike_throw (.refl _)) fun _ => ?_
    exact .after fun _ => alike_pushNext _ (hnext rfl)
  case invokeClosure =>
    rw [signatureOperand_of_alike he]
    refine .after fun signature => .after fun v => ?_
    cases v with
    | closure id =>
      refine .after fun _ => .after fun c => (alike_closureTarget h c _).bind fun target target' ht => ?_
      exact alike_pure (hcall rfl _ _ _ ht)
    | _ => exact alike_throw (.refl _)
  all_goals exact alike_throw (.refl _)

lemma alike_getFieldSlot (he : e.Alike vm.registry vm'.registry e') (a b : UInt32)
    (hnext : R .next .next) : Run.Alike R (getFieldSlot e a b) (getFieldSlot e' a b) := by
  unfold getFieldSlot
  rw [stringOperand_of_alike he]
  exact .after fun _ => .after fun _ => .after fun _ => .after fun _ => alike_pushNext _ hnext

lemma alike_putFieldSlot (h : vm.Alike vm') (he : e.Alike vm.registry vm'.registry e')
    (a b : UInt32) (hnext : R .next .next) :
    Run.Alike R (putFieldSlot vm e a b) (putFieldSlot vm' e' a b) := by
  unfold putFieldSlot
  rw [stringOperand_of_alike he]
  refine .after fun owner => .after fun v => .after fun id => ?_
  refine (alike_resolve h owner).bind fun t t' ht => ?_
  rw [ht.same]
  exact .after fun _ => .after fun _ => alike_pure hnext

lemma alike_getField (h : vm.Alike vm') (he : e.Alike vm.registry vm'.registry e')
    (a b : UInt32) (hnext : R .next .next) :
    Run.Alike R (getField vm e a b) (getField vm' e' a b) := by
  unfold getField
  rw [stringOperand_of_alike he]
  refine .after fun owner => .after fun name => .after fun id => ?_
  refine (alike_resolve h owner).bind fun t t' ht => ?_
  rw [ht.same]
  exact .after fun _ => .after fun _ => .after fun _ => .after fun _ => alike_pushNext _ hnext

lemma alike_putField (h : vm.Alike vm') (he : e.Alike vm.registry vm'.registry e')
    (a b : UInt32) (hnext : R .next .next) :
    Run.Alike R (putField vm e a b) (putField vm' e' a b) := by
  unfold putField
  rw [stringOperand_of_alike he]
  refine .after fun owner => .after fun name => .after fun v => .after fun id => ?_
  refine (alike_resolve h owner).bind fun t t' ht => ?_
  have hplace : t'.fieldPlace? name = t.fieldPlace? name := by
    rw [ht.same]
    rfl
  have htype : t'.fieldType? name = t.fieldType? name := by
    rw [ht.same]
    rfl
  rw [hplace, htype]
  refine .after fun _ => ?_
  cases t.fieldPlace? name with
  | none => exact alike_pure hnext
  | some place => exact .after fun _ => alike_pure hnext

/-- Passed values are put in slots without a look at the maps. -/
lemma fillSlots_withMappings (id : SiteId) (s : CaptureSite) (mappings : List HostMapping)
    (position : Nat) (captured values : List Value) :
    fillSlots id { s with mappings } position captured values =
      fillSlots id s position captured values := by
  induction values generalizing position captured with
  | nil => rfl
  | cons v rest ih =>
    have hslot : CaptureSite.slotFor? { s with mappings } position = s.slotFor? position := rfl
    have htype : CaptureSite.slotType? { s with mappings } = s.slotType? := rfl
    simp only [fillSlots, hslot, htype, ih]

lemma alike_makeCaptured (h : vm.Alike vm') (he : e.Alike vm.registry vm'.registry e')
    (index : UInt32) (count flags : UInt8) (hnext : R .next .next) :
    Run.Alike R (makeCaptured vm e index count flags) (makeCaptured vm' e' index count flags) := by
  have htypeId : e'.typeId = e.typeId := by rw [he.same]
  unfold makeCaptured
  rw [stringOperand_of_alike he, htypeId]
  refine .after fun key => .after fun id => (alike_site h id).bind ?_
  rintro s s' ⟨-, -, hs⟩
  have hhostId : s'.hostId = s.hostId := by rw [hs]
  have hslots : s'.slots = s.slots := by rw [hs]
  have hfill (captured values : List Value) :
      fillSlots id s' 0 captured values = fillSlots id s 0 captured values := by
    rw [hs]
    exact fillSlots_withMappings id s s'.mappings 0 captured values
  rw [hhostId, hslots]
  refine (alike_typeById h s.hostId).bind fun host host' hhost => ?_
  refine (alike_checkAccess he hhost).bind fun _ _ _ => .after fun values => ?_
  simp only [hfill]
  refine .ite (fun _ => ?_) fun _ => ?_
  all_goals exact .after fun _ => .after fun _ => .after fun _ => alike_pushNext _ hnext

/-- A captured variable is found in the same slot. -/
lemma alike_getCaptured (h : vm.Alike vm') (he : e.Alike vm.registry vm'.registry e') (hi : e.Has i)
    (hop : i.opcode = .getCaptured) (position : UInt32) (hnext : R .next .next) :
    Run.Alike R (getCaptured vm e position) (getCaptured vm' e' position) := by
  have htypeId : e'.typeId = e.typeId := by rw [he.same]
  refine .after fun c => (alike_site h c.site).bind ?_
  rintro s s' ⟨hfound, hfound', hs⟩
  have hslot := he.slots i hi hop c.site s s' hfound hfound' position.toNat
  have htype : s'.slotType? = s.slotType? := by
    rw [hs]
    rfl
  rw [htypeId, hslot, htype]
  refine .after fun slot => ?_
  cases c.captured[slot]? with
  | some v => exact alike_pushNext v hnext
  | none =>
    dsimp only
    cases s.slotType? slot with
    | some type => exact alike_pushNext _ hnext
    | none => exact alike_pushNext _ hnext

lemma alike_invokeStatic (h : vm.Alike vm') (he : e.Alike vm.registry vm'.registry e')
    (dynamic : Bool) (a b : UInt32) (hcall : ∀ target target' argc,
      target.Alike vm.registry vm'.registry target' → R (.call target argc) (.call target' argc)) :
    Run.Alike R (invokeStatic vm e dynamic a b) (invokeStatic vm' e' dynamic a b) := by
  have hfound (target target' : Executable) (ht : target.Alike vm.registry vm'.registry target') :
      Run.Alike R (do
        expectKind target true
        return .call target target.argSlots) (do
        expectKind target' true
        return .call target' target'.argSlots) := by
    have hslots : target'.argSlots = target.argSlots := by
      rw [ht.same]
      rfl
    rw [expectKind_of_alike ht, hslots]
    exact .after fun _ => alike_pure (hcall _ _ _ ht)
  unfold invokeStatic
  rw [stringOperand_of_alike he]
  refine .after fun owner => (alike_resolve h owner).bind fun t t' ht => ?_
  refine (alike_checkAccess he ht).bind fun _ _ _ => .after fun key => ?_
  cases dynamic with
  | true => exact (alike_implementation ht key).bind hfound
  | false => exact (alike_dispatcher ht key).bind hfound

lemma alike_invokeVirtual (h : vm.Alike vm') (he : e.Alike vm.registry vm'.registry e')
    (dynamic : Bool) (a b : UInt32) (hcall : ∀ target target' argc,
      target.Alike vm.registry vm'.registry target' → R (.call target argc) (.call target' argc)) :
    Run.Alike R (invokeVirtual vm e dynamic a b) (invokeVirtual vm' e' dynamic a b) := by
  have hfound (params : Nat) (target target' : Executable)
      (ht : target.Alike vm.registry vm'.registry target') :
      Run.Alike R (do
        expectKind target false
        return .call target (params + 1)) (do
        expectKind target' false
        return .call target' (params + 1)) := by
    rw [expectKind_of_alike ht]
    exact .after fun _ => alike_pure (hcall _ _ _ ht)
  unfold invokeVirtual
  rw [stringOperand_of_alike he, signatureOperand_of_alike he]
  refine .after fun owner => .after fun signature => ?_
  refine (alike_receiverType h owner _).bind fun t t' ht => ?_
  refine (alike_checkAccess he ht).bind fun _ _ _ => ?_
  cases dynamic with
  | true => exact (alike_implementation ht _).bind (hfound _)
  | false => exact (alike_dispatcher ht _).bind (hfound _)

lemma alike_stepPair (h : vm.Alike vm') (he : e.Alike vm.registry vm'.registry e') (hi : e.Has i)
    (a b : UInt32) (hnext : i.opcode.isTerminator = false → R .next .next)
    (hcall : i.opcode.isTerminator = false → ∀ target target' argc,
      target.Alike vm.registry vm'.registry target' → R (.call target argc) (.call target' argc)) :
    Run.Alike R (stepPair vm e a b i.opcode) (stepPair vm' e' a b i.opcode) := by
  cases hop : i.opcode <;> rw [hop] at hnext hcall <;> dsimp only [stepPair]
  case invokeStatic | invokeDynamicStatic => exact alike_invokeStatic h he _ a b (hcall rfl)
  case invokeVirtual | invokeDynamicVirtual => exact alike_invokeVirtual h he _ a b (hcall rfl)
  case getFieldSlot => exact alike_getFieldSlot he a b (hnext rfl)
  case putFieldSlot => exact alike_putFieldSlot h he a b (hnext rfl)
  case getExtField => exact alike_getField h he a b (hnext rfl)
  case putExtField => exact alike_putField h he a b (hnext rfl)
  case getCaptured => exact alike_getCaptured h he hi hop b (hnext rfl)
  case getEnclosing => exact .after fun _ => alike_pushNext _ (hnext rfl)
  all_goals exact alike_throw (.refl _)

lemma alike_stepDispatch (h : vm.Alike vm') (he : e.Alike vm.registry vm'.registry e')
    (keyIndex : UInt32) (argc : UInt16) (hcall : ∀ target target' argc,
      target.Alike vm.registry vm'.registry target' → R (.call target argc) (.call target' argc)) :
    Run.Alike R (stepDispatch vm e keyIndex argc) (stepDispatch vm' e' keyIndex argc) := by
  have htypeId : e'.typeId = e.typeId := by rw [he.same]
  unfold stepDispatch
  rw [stringOperand_of_alike he, htypeId]
  refine .after fun key => (alike_typeById h e.typeId).bind fun t t' ht => ?_
  exact (alike_implementation ht key).bind fun _ _ ht => alike_pure (hcall _ _ _ ht)

lemma alike_stepClosure (h : vm.Alike vm') (he : e.Alike vm.registry vm'.registry e')
    (index : UInt32) (count flags : UInt8) {op : Opcode}
    (hnext : op.isTerminator = false → R .next .next) :
    Run.Alike R (stepClosure vm e index count flags op)
      (stepClosure vm' e' index count flags op) := by
  cases op <;> dsimp only [stepClosure]
  case makeCaptured => exact alike_makeCaptured h he index count flags (hnext rfl)
  all_goals exact alike_throw (.refl _)

/-- Only instructions without operands and jumps end the flow of control. -/
lemma form_of_isTerminator {op : Opcode} (h : op.isTerminator = true) :
    op.form = .none ∨ op.form = .jump := by
  cases op <;> first | exact .inl rfl | exact .inr rfl | cases h

/-- An instruction does the same on two machines that are alike, and goes to the same place. -/
theorem step_alike (h : vm.Alike vm') (he : e.Alike vm.registry vm'.registry e') (hi : e.Has i)
    (hsound : i.Sound vm.registry e) :
    Run.Alike (Flow.Alike vm.registry vm'.registry e i) (step vm e i) (step vm' e' i) := by
  have hnext (hop : i.opcode.isTerminator = false) :
      Flow.Alike vm.registry vm'.registry e i .next .next := .next hop
  have hcall (hop : i.opcode.isTerminator = false) (target target' : Executable) (argc : Nat)
      (ht : target.Alike vm.registry vm'.registry target') :
      Flow.Alike vm.registry vm'.registry e i (.call target argc) (.call target' argc) :=
    .call ht argc hop
  have hgoes {o : Operands} (ho : i.operands = o) (hform : o.form ≠ .none ∧ o.form ≠ .jump) :
      i.opcode.isTerminator = false := by
    rw [← hsound.form_eq ho] at hform
    by_contra hterminator
    rcases form_of_isTerminator (Bool.not_eq_false _ ▸ hterminator) with hnone | hjump
    · exact hform.1 hnone
    · exact hform.2 hjump
  have hjump (target : Int) (ht : i.jumpTarget? = some target) :
      Flow.Alike vm.registry vm'.registry e i (.jump target.toNat) (.jump target.toNat) :=
    .jump (hsound.jump target ht).2.2
  unfold step
  cases ho : i.operands with
  | none => exact alike_stepPlain hnext .ret
  | i32 v => exact alike_pushNext _ (hnext (hgoes ho ⟨nofun, nofun⟩))
  | i64 v => exact alike_pushNext _ (hnext (hgoes ho ⟨nofun, nofun⟩))
  | f64 v => exact alike_pushNext _ (hnext (hgoes ho ⟨nofun, nofun⟩))
  | index a => exact alike_stepIndex h he hnext hcall
  | localSlot slot => exact alike_stepLocal hnext
  | jump offset =>
    have hsame : stepJump e' i = stepJump e i := by
      rw [he.same]
      rfl
    rw [hsame]
    exact alike_stepJump hnext hjump
  | pair a b => exact alike_stepPair h he hi a b hnext hcall
  | dispatch signature argc =>
    exact alike_stepDispatch h he signature argc (hcall (hgoes ho ⟨nofun, nofun⟩))
  | closure a count flags => exact alike_stepClosure h he a count flags hnext

/-! ### Bodies -/

/-- What comes of two runs in two registries: both do not end, or both end and what comes of them
matches. -/
abbrev Both : Option RunResult → Option RunResult → Prop := Option.Rel (Matches Eq)

lemma finish_alike {res res' : RunResult} (h : Matches Eq res res') :
    Matches Eq (finish res) (finish res') := by
  cases h with
  | ok h s =>
    subst h
    simp only [finish]
    cases leave s with
    | ok _ s => exact .ok rfl s
    | error e s => exact .error (.refl e) s
  | error h s =>
    simp only [finish]
    cases leave s with
    | ok _ s => exact .error h s
    | error e s => exact .error (.refl e) s

/-- A call comes to what its body comes to. -/
lemma callBy_alike (h : vm.Alike vm') (ht : target.Alike vm.registry vm'.registry target')
    {body body' : Executable → MachineState → Option RunResult}
    (hbody : ∀ s, Both (body target s) (body' target' s)) (argc : Nat) (s : MachineState) :
    Both (callBy vm body target argc s) (callBy vm' body' target' argc s) := by
  have hsame : enter vm' target' argc = enter vm target argc := by
    have hkey : target'.key = target.key := by rw [ht.same]
    have hslots : target'.argSlots = target.argSlots := by
      rw [ht.same]
      rfl
    have hlocals : target'.locals = target.locals := by rw [ht.same]
    unfold enter
    rw [h.depth_eq, hkey, hslots, hlocals]
  unfold callBy
  rw [hsame]
  cases enter vm target argc s with
  | error e s => exact .some (.error (.refl e) s)
  | ok _ s =>
    dsimp only
    rcases Outcome.rel_cases (hbody s) with ⟨hnone, hnone'⟩ | ⟨res, res', hres, hres', hmatches⟩
    · rw [hnone, hnone']
      exact .none
    · rw [hres, hres']
      exact .some (finish_alike hmatches)

/-- A body of sound code runs alike on two machines that are alike. -/
theorem run_alike (h : vm.Alike vm') (hcode : vm.registry.SoundCode) (n : Nat)
    (he : e.Alike vm.registry vm'.registry e') {offset : Nat} (hstarts : e.Starts offset)
    (s : MachineState) : Both (run vm n e offset s) (run vm' n e' offset s) := by
  induction n generalizing e e' offset s with
  | zero => exact .none
  | succ n ih =>
    obtain ⟨i, hi, hsound, hnext⟩ := (hcode e he.body).each offset hstarts
    have hcode' : e'.code = e.code := by rw [he.same]
    have hstep := step_alike h he (Executable.has_of_starts hstarts hi) hsound s
    simp only [run, fetch, hcode', hi]
    generalize hrun : step vm e i s = res at hstep
    generalize hrun' : step vm' e' i s = res' at hstep
    cases hstep with
    | error herror s => exact .some (.error herror s)
    | ok hflow s =>
      cases hflow with
      | next hterminator => exact ih he (hnext hterminator) s
      | jump htarget => exact ih he htarget s
      | ret v => exact .some (.ok rfl s)
      | @call target target' htarget argc hterminator =>
        have hcall : Both (callBy vm (fun e s => run vm n e 0 s) target argc s)
            (callBy vm' (fun e s => run vm' n e 0 s) target' argc s) :=
          callBy_alike h htarget (ih htarget (hcode _ htarget.body).starts_zero) argc s
        have hsignature : target'.signature = target.signature := by rw [htarget.same]
        dsimp only
        rcases Outcome.rel_cases hcall with ⟨hnone, hnone'⟩ | ⟨res, res', hres, hres', hmatches⟩
        · rw [hnone, hnone']
          exact .none
        · rw [hres, hres']
          cases hmatches with
          | error herror s => exact .some (.error herror s)
          | ok hv s =>
            subst hv
            have hpush (v : Value) : pushResult target' v = pushResult target v := by
              unfold pushResult
              rw [hsignature]
            dsimp only
            rw [hpush]
            cases pushResult target _ s with
            | error cause s => exact .some (.error (.refl cause) s)
            | ok _ s => exact ih he (hnext hterminator) s

/-! ### Invocations -/

/-- Whether what comes of two invocations is the same, up to the executor unit that was denied an
access, and leaves the same heap. -/
inductive OutcomeAlike : Except VmError Value × Heap → Except VmError Value × Heap → Prop
  | ok (v : Value) (heap : Heap) : OutcomeAlike (.ok v, heap) (.ok v, heap)
  | error {e e' : VmError} (h : e.Alike e') (heap : Heap) :
    OutcomeAlike (.error e, heap) (.error e', heap)

lemma outcome_alike {res res' : RunResult} (h : Matches Eq res res') :
    OutcomeAlike (outcome res) (outcome res') := by
  cases h with
  | ok h s => exact h ▸ .ok _ s.heap
  | error h s => exact .error h s.heap

/-- An invocation comes to the same when it finds targets that are alike. -/
lemma invoke_alike (h : vm.Alike vm') (hcode : vm.registry.SoundCode) (fuel : Nat)
    {find find' : Run Executable}
    (hfind : Run.Alike (Executable.Alike vm.registry vm'.registry) find find')
    (receiver : Option Value) (arguments : List Value) (s : MachineState) :
    Option.Rel OutcomeAlike ((invoke vm fuel find receiver arguments s).map outcome)
      ((invoke vm' fuel find' receiver arguments s).map outcome) := by
  have hstart : Run.Alike
      (fun x y => x.1.Alike vm.registry vm'.registry y.1 ∧ y.2 = x.2)
      (do
        let target ← find
        return (target, ← prepare target receiver arguments))
      (do
        let target ← find'
        return (target, ← prepare target receiver arguments)) := by
    refine hfind.bind fun target target' htarget => ?_
    have hprepare :
        prepare target' receiver arguments = prepare target receiver arguments := by
      rw [htarget.same]
      rfl
    rw [hprepare]
    exact .after fun _ => alike_pure ⟨htarget, rfl⟩
  have hs := hstart s
  unfold invoke
  dsimp only
  generalize hrun : (do
    let target ← find
    return (target, ← prepare target receiver arguments) : Run (Executable × Nat)) s = res at hs
  generalize hrun' : (do
    let target ← find'
    return (target, ← prepare target receiver arguments) : Run (Executable × Nat)) s = res' at hs
  cases hs with
  | error herror s => exact .some (.error herror s.heap)
  | @ok x y hxy s =>
    obtain ⟨target, _⟩ := x
    obtain ⟨target', argc⟩ := y
    obtain ⟨htarget, rfl⟩ := hxy
    have hcall : Both (call vm fuel target argc s) (call vm' fuel target' argc s) :=
      callBy_alike h htarget
        (run_alike h hcode fuel htarget (hcode _ htarget.body).starts_zero) argc s
    dsimp only
    rcases Outcome.rel_cases hcall with ⟨hnone, hnone'⟩ | ⟨res, res', hres, hres', hmatches⟩
    · rw [hnone, hnone']
      exact .none
    · rw [hres, hres']
      exact .some (outcome_alike hmatches)

lemma alike_findDispatcher (h : vm.Alike vm') (typeName key : String) (isStatic : Bool) :
    Run.Alike (Executable.Alike vm.registry vm'.registry)
      (findDispatcher vm typeName key isStatic) (findDispatcher vm' typeName key isStatic) := by
  refine (alike_resolve h typeName).bind fun t t' ht => ?_
  refine (alike_dispatcher ht key).bind fun target target' htarget => ?_
  rw [expectKind_of_alike htarget]
  exact .after fun _ => alike_pure htarget

end Machine

end LiveTypes
