import LiveTypes.Proofs.Machine.Effect
import LiveTypes.Proofs.Machine.Plain
import LiveTypes.Proofs.Registry.References

/-!
# What the failure of an instruction reports

An instruction looks a type up by name, by the identity in its body or by that of the host of a site,
and checks whether the unit of the running code may reach it. A failure that is not plain says of a type
that it is missing, lacks a field or is out of reach, and each such failure has one of a few origins
(`step_reports`).
-/

namespace LiveTypes

/-- The owner that a failure says is missing: a type that is not registered, or one that lacks the
field. -/
def VmError.missing? : VmError → Option String
  | .unknownType name => some name
  | .noSuchField typeName _ => some typeName
  | _ => none

lemma VmError.missing?_of_isPlain {e : VmError} (h : e.isPlain = true) : e.missing? = none := by
  cases e with
  | unknownType _ | noSuchField _ _ => cases h
  | _ => rfl

namespace Run

variable {α β : Type} {s : MachineState} {P : VmError → Prop}

lemma Plain.not_missing {x : Run α} {s' : MachineState} {cause : VmError} {owner : String}
    (h : x.Plain) (hrun : x s = .error cause s') : cause.missing? ≠ some owner := by
  rw [VmError.missing?_of_isPlain (h s cause s' hrun)]
  exact nofun

/-- Whether an action reports only such failures, plain ones apart. -/
def Reports (P : VmError → Prop) (x : Run α) (s : MachineState) : Prop :=
  ∀ cause s', x s = .error cause s' → cause.isPlain = true ∨ P cause

lemma Plain.reports {x : Run α} (h : x.Plain) : Reports P x s :=
  fun cause s' hrun => .inl (h s cause s' hrun)

lemma Reports.bind {x : Run α} {f : α → Run β} (hx : Reports P x s)
    (hf : ∀ a s', x s = .ok a s' → Reports P (f a) s') : Reports P (x >>= f) s := by
  intro cause s' hrun
  rcases bind_eq_error.mp hrun with hfirst | ⟨a, s₁, hfirst, hrest⟩
  · exact hx _ _ hfirst
  · exact hf a s₁ hfirst cause s' hrest

lemma reports_throw {e : VmError} (h : P e) : Reports P (throw e : Run α) s := by
  intro cause s' hrun
  obtain ⟨rfl, -⟩ := EStateM.Result.error.inj hrun
  exact .inr h

lemma reports_require {e : VmError} {o : Option α} (h : o = none → P e) :
    Reports P (require e o) s := by
  cases o with
  | some a => exact (plain_pure a).reports
  | none => exact reports_throw (h rfl)

end Run

namespace Machine

open Run

variable {vm : Machine} {e : Executable} {i : Instruction} {s s₀ : MachineState}
  {P : VmError → Prop} {t : LiveType}

/-! ### Lookups -/

lemma reports_resolve {name : String}
    (h : vm.registry.find? name = none → P (.unknownType name)) :
    Reports P (resolve vm name) s :=
  reports_require h

lemma reports_typeById {id : TypeId}
    (h : vm.registry.byId? id = none → P (.unknownType ("#" ++ toString id))) :
    Reports P (typeById vm id) s :=
  reports_require h

lemma reports_closureTarget (c : Closure) (key : String)
    (h : ∀ site, vm.registry.sites.find? c.site = some site →
      vm.registry.byId? site.hostId = none → P (.unknownType ("#" ++ toString site.hostId))) :
    Reports P (closureTarget vm c key) s := by
  refine (plain_site c.site).reports.bind fun site s₁ hsite => ?_
  refine (reports_typeById (h site (require_eq_ok.mp hsite).1)).bind fun host s₂ _ => ?_
  exact ((plain_implementation host key).bind fun target =>
    (plain_expectKind target false).bind fun _ => plain_pure target).reports

lemma reports_receiverType {owner : String} (params : Nat)
    (h : vm.registry.find? owner = none → P (.unknownType owner)) :
    Reports P (receiverType vm owner params) s := by
  refine (plain_peek params).reports.bind fun v s₁ _ => ?_
  cases v with
  | object id typeName =>
    dsimp only
    split
    · exact reports_resolve h
    · exact (plain_throw rfl).reports
  | _ => exact (plain_throw rfl).reports

lemma reports_checkStore {typeName field : String} {type : Option TypeDescriptor} (v : Value)
    (h : type = none → P (.noSuchField typeName field)) :
    Reports P (checkStore typeName field type v) s := by
  unfold checkStore
  split
  · exact reports_throw (h rfl)
  · split
    · exact (plain_pure _).reports
    · exact (plain_throw rfl).reports

lemma mem_of_resolve {name : String} {s' : MachineState} (h : resolve vm name s = .ok t s') :
    t ∈ vm.registry.types :=
  List.mem_of_find?_eq_some (require_eq_ok.mp h).1

lemma mem_of_receiverType {owner : String} {params : Nat} {s' : MachineState}
    (h : receiverType vm owner params s = .ok t s') : t ∈ vm.registry.types := by
  obtain ⟨v, s₁, -, h⟩ := bind_eq_ok.mp h
  cases v with
  | object id typeName =>
    dsimp only at h
    split at h
    · exact mem_of_resolve h
    · exact (throw_ne_ok h).elim
  | _ => exact (throw_ne_ok h).elim

/-! ### Origins -/

/-- What a failure of an instruction that is not plain comes from. -/
inductive Origin (vm : Machine) (e : Executable) (i : Instruction) (s : MachineState) :
    VmError → Prop
  /-- The type of the running code is not registered. -/
  | own (missing : vm.registry.byId? e.typeId = none) :
      Origin vm e i s (.unknownType ("#" ++ toString e.typeId))
  /-- The host of a site is not registered. -/
  | host {id : SiteId} {site : CaptureSite} (found : vm.registry.sites.find? id = some site)
      (missing : vm.registry.byId? site.hostId = none) :
      Origin vm e i s (.unknownType ("#" ++ toString site.hostId))
  /-- What the instruction refers to does not resolve. -/
  | reference {ref : Reference} {cause : VmError} (refers : i.reference? e.constants = some ref)
      (missing : ¬ ref.Resolves vm.registry) (blames : cause.missing? = some ref.owner) :
      Origin vm e i s cause
  /-- The layout has no slot to write. -/
  | slot {a b : UInt32} {owner : String} {cause : VmError} (opcode_eq : i.opcode = .putFieldSlot)
      (operands_eq : i.operands = .pair a b) (names : e.constants.string? a = some owner)
      (missing : ¬ ∃ t, vm.registry.find? owner = some t ∧ b.toNat < t.layout.size)
      (blames : cause.missing? = some owner) : Origin vm e i s cause
  /-- The instance has no value where the type has a place for the field. -/
  | value {id : ObjectId} {owner name : String} {t : LiveType} {place : LiveType.FieldPlace}
      {s' : MachineState} (popped : pop s = .ok (.object id owner) s')
      (found : vm.registry.find? owner = some t) (placed : t.fieldPlace? name = some place)
      (missing : s.heap.valueAt? id name place = none) : Origin vm e i s (.noSuchField owner name)
  /-- The unit of the running code may not reach a registered type. -/
  | access {t : LiveType} (mem : t ∈ vm.registry.types)
      (refused : Access.allows e.unitName t.name t.loadedUnit.access = false) :
      Origin vm e i s (.illegalAccess e.unitName t.name)

lemma find?_owner_of_resolves {ref : Reference} {r : Registry} (h : ref.Resolves r) :
    ∃ t, r.find? ref.owner = some t := by
  cases ref with
  | type name => exact h
  | field owner name =>
    obtain ⟨t, type, ht, -⟩ := h
    exact ⟨t, ht⟩
  | host name =>
    obtain ⟨t, ht, -⟩ := h
    exact ⟨t, ht⟩

/-- An owner that an instruction refers to and that is not registered. -/
lemma origin_of_owner {ref : Reference} (href : i.reference? e.constants = some ref)
    (hnone : vm.registry.find? ref.owner = none) :
    Origin vm e i s (.unknownType ref.owner) := by
  refine .reference href (fun hresolves => ?_) rfl
  obtain ⟨t, ht⟩ := find?_owner_of_resolves hresolves
  rw [hnone] at ht
  cases ht

lemma reports_checkAccess (ht : t ∈ vm.registry.types) :
    Reports (Origin vm e i s₀) (checkAccess e t) s := by
  unfold checkAccess
  split
  · exact (plain_pure _).reports
  · next hrefused => exact reports_throw (.access ht (by simpa using hrefused))

/-! ### Instances and closures -/

lemma reports_new {a : UInt32} (href : ∀ owner, e.constants.string? a = some owner →
    i.reference? e.constants = some (.type owner)) :
    Reports (Origin vm e i s₀) (stepIndex vm e a .new) s := by
  refine (plain_stringOperand a).reports.bind fun owner s₁ hrun => ?_
  have howner := (require_eq_ok.mp hrun).1
  refine (reports_resolve (origin_of_owner (href owner howner))).bind fun t s₂ ht => ?_
  refine (reports_checkAccess (mem_of_resolve ht)).bind fun _ s₃ _ => ?_
  have hrest : Run.Plain (do pushNext (.object (← Run.allocate (newInstance t)) t.name)) :=
    (plain_allocate _).bind fun id => plain_pushNext _
  split
  · exact ((plain_throw rfl).bind fun _ => hrest).reports
  · exact hrest.reports

lemma reports_invokeClosure (a : UInt32) :
    Reports (Origin vm e i s₀) (stepIndex vm e a .invokeClosure) s := by
  refine (plain_signatureOperand a).reports.bind fun key s₁ _ => ?_
  refine (plain_peek _).reports.bind fun v s₂ _ => ?_
  cases v with
  | closure id =>
    refine plain_get.reports.bind fun _ s₃ _ => ?_
    refine (plain_require rfl _).reports.bind fun c s₄ _ => ?_
    refine (reports_closureTarget c _ fun site => .host).bind fun _ _ _ => (plain_pure _).reports
  | _ => exact (plain_throw rfl).reports

lemma reports_makeCaptured (a : UInt32) (count flags : UInt8) :
    Reports (Origin vm e i s₀) (makeCaptured vm e a count flags) s := by
  refine (plain_stringOperand a).reports.bind fun key s₁ _ => ?_
  refine (plain_require rfl _).reports.bind fun id s₂ _ => ?_
  refine (plain_site id).reports.bind fun site s₃ hsite => ?_
  refine (reports_typeById (.host (require_eq_ok.mp hsite).1)).bind fun host s₄ hhost => ?_
  have hmem : host ∈ vm.registry.types := List.mem_of_getElem? (require_eq_ok.mp hhost).1
  refine (reports_checkAccess hmem).bind fun _ s₅ _ => ?_
  refine (plain_popMany _ _).reports.bind fun values s₆ _ => ?_
  split
  · have hpop : (some <$> Run.pop).Plain := plain_pop.bind fun v => plain_pure (some v)
    exact (plain_create hpop id site values).reports
  · exact (plain_create (plain_pure none) id site values).reports

/-! ### Calls -/

lemma reports_invokeStatic (dynamic : Bool) {a b : UInt32}
    (href : ∀ owner, e.constants.string? a = some owner →
      i.reference? e.constants = some (.type owner)) :
    Reports (Origin vm e i s₀) (invokeStatic vm e dynamic a b) s := by
  refine (plain_stringOperand a).reports.bind fun owner s₁ hrun => ?_
  have howner := (require_eq_ok.mp hrun).1
  refine (reports_resolve (origin_of_owner (href owner howner))).bind fun t s₂ ht => ?_
  refine (reports_checkAccess (mem_of_resolve ht)).bind fun _ s₃ _ => ?_
  refine (plain_stringOperand b).reports.bind fun key s₄ _ => ?_
  cases dynamic with
  | true => exact (plain_bind_call (plain_implementation t key) true _).reports
  | false => exact (plain_bind_call (plain_dispatcher t key) true _).reports

lemma reports_invokeVirtual (dynamic : Bool) {a b : UInt32}
    (href : ∀ owner, e.constants.string? a = some owner →
      i.reference? e.constants = some (.type owner)) :
    Reports (Origin vm e i s₀) (invokeVirtual vm e dynamic a b) s := by
  refine (plain_stringOperand a).reports.bind fun owner s₁ hrun => ?_
  have howner := (require_eq_ok.mp hrun).1
  refine (plain_signatureOperand b).reports.bind fun ⟨key, signature⟩ s₂ _ => ?_
  refine (reports_receiverType _ (origin_of_owner (href owner howner))).bind fun t s₃ ht => ?_
  refine (reports_checkAccess (mem_of_receiverType ht)).bind fun _ s₄ _ => ?_
  cases dynamic with
  | true => exact (plain_bind_call (plain_implementation t key) false _).reports
  | false => exact (plain_bind_call (plain_dispatcher t key) false _).reports

lemma reports_stepDispatch (keyIndex : UInt32) (argc : UInt16) :
    Reports (Origin vm e i s₀) (stepDispatch vm e keyIndex argc) s := by
  refine (plain_stringOperand keyIndex).reports.bind fun key s₁ _ => ?_
  refine (reports_typeById .own).bind fun t s₂ _ => ?_
  exact ((plain_implementation t key).bind fun _ => plain_pure _).reports

/-! ### Fields -/

lemma reports_putFieldSlot {a b : UInt32} (hop : i.opcode = .putFieldSlot)
    (hoperands : i.operands = .pair a b) :
    Reports (Origin vm e i s₀) (putFieldSlot vm e a b) s := by
  refine (plain_stringOperand a).reports.bind fun owner s₁ hrun => ?_
  have howner := (require_eq_ok.mp hrun).1
  refine plain_pop.reports.bind fun v s₂ _ => (plain_popOwner owner).reports.bind fun id s₃ _ => ?_
  have howned (hnone : vm.registry.find? owner = none) :
      Origin vm e i s₀ (.unknownType owner) := by
    refine .slot hop hoperands howner ?_ rfl
    rintro ⟨t, ht, -⟩
    rw [hnone] at ht
    cases ht
  refine (reports_resolve howned).bind fun t s₄ hrun => ?_
  have hfind := (require_eq_ok.mp hrun).1
  have hslot (name : String) (hnone : t.layout.slotType? b.toNat = none) :
      Origin vm e i s₀ (.noSuchField owner name) := by
    refine .slot hop hoperands howner ?_ rfl
    rintro ⟨t', ht', hlt⟩
    obtain rfl := Option.some.inj (hfind.symm.trans ht')
    rw [Layout.slotType?, List.getElem?_eq_getElem hlt] at hnone
    cases hnone
  refine (reports_checkStore v (hslot _)).bind fun _ s₅ _ => ?_
  exact ((plain_modifyHeap _).bind fun _ => plain_pure _).reports

lemma reports_getField {a b : UInt32}
    (href : ∀ owner name, e.constants.string? a = some owner → e.constants.string? b = some name →
      i.reference? e.constants = some (.field owner name)) :
    Reports (Origin vm e i s) (getField vm e a b) s := by
  refine (plain_stringOperand a).reports.bind fun owner s₁ hrun => ?_
  obtain ⟨howner, rfl⟩ := require_eq_ok.mp hrun
  refine (plain_stringOperand b).reports.bind fun name s₂ hrun => ?_
  obtain ⟨hname, rfl⟩ := require_eq_ok.mp hrun
  have href := href owner name howner hname
  refine (plain_popOwner owner).reports.bind fun id s₃ hpop => ?_
  refine (reports_resolve (origin_of_owner href)).bind fun t s₄ hrun => ?_
  obtain ⟨hfind, rfl⟩ := require_eq_ok.mp hrun
  have hfield (hnone : t.fieldPlace? name = none) :
      Origin vm e i s (.noSuchField owner name) := by
    refine .reference href ?_ rfl
    rintro ⟨t', type, ht', htype⟩
    obtain rfl := Option.some.inj (hfind.symm.trans ht')
    obtain ⟨place, hplace⟩ := LiveType.exists_fieldPlace? htype
    rw [hnone] at hplace
    cases hplace
  refine (reports_require hfield).bind fun place s₅ hrun => ?_
  obtain ⟨hplace, rfl⟩ := require_eq_ok.mp hrun
  refine plain_get.reports.bind fun _ s₆ hrun => ?_
  obtain ⟨rfl, rfl⟩ := get_eq_ok.mp hrun
  rw [(quiet_popOwner owner).heap_of_ok hpop]
  refine (reports_require (.value (popOwner_eq_ok.mp hpop) hfind hplace)).bind fun v s₇ _ => ?_
  exact ((plain_modifyHeap _).bind fun _ => plain_pushNext v).reports

lemma reports_putField {a b : UInt32}
    (href : ∀ owner name, e.constants.string? a = some owner → e.constants.string? b = some name →
      i.reference? e.constants = some (.field owner name)) :
    Reports (Origin vm e i s₀) (putField vm e a b) s := by
  refine (plain_stringOperand a).reports.bind fun owner s₁ hrun => ?_
  obtain ⟨howner, rfl⟩ := require_eq_ok.mp hrun
  refine (plain_stringOperand b).reports.bind fun name s₂ hrun => ?_
  have href := href owner name howner (require_eq_ok.mp hrun).1
  refine plain_pop.reports.bind fun v s₃ _ => (plain_popOwner owner).reports.bind fun id s₄ _ => ?_
  refine (reports_resolve (origin_of_owner href)).bind fun t s₅ hrun => ?_
  have hfind := (require_eq_ok.mp hrun).1
  have hfield (hnone : t.fieldType? name = none) :
      Origin vm e i s₀ (.noSuchField owner name) := by
    refine .reference href ?_ rfl
    rintro ⟨t', type, ht', htype⟩
    obtain rfl := Option.some.inj (hfind.symm.trans ht')
    rw [hnone] at htype
    cases htype
  refine (reports_checkStore v hfield).bind fun _ s₆ _ => ?_
  split
  · exact ((plain_modifyHeap _).bind fun _ => plain_pure _).reports
  · exact (plain_pure _).reports

/-! ### Instructions -/

lemma reports_stepPair {a b : UInt32} (hoperands : i.operands = .pair a b) :
    Reports (Origin vm e i s) (stepPair vm e a b i.opcode) s := by
  cases hop : i.opcode
  case invokeStatic | invokeDynamicStatic =>
    refine reports_invokeStatic _ fun owner howner => ?_
    simp [Instruction.reference?, hop, hoperands, howner]
  case invokeVirtual | invokeDynamicVirtual =>
    refine reports_invokeVirtual _ fun owner howner => ?_
    simp [Instruction.reference?, hop, hoperands, howner]
  case getFieldSlot => exact (plain_getFieldSlot a b).reports
  case putFieldSlot => exact reports_putFieldSlot hop hoperands
  case getExtField =>
    refine reports_getField fun owner name howner hname => ?_
    simp [Instruction.reference?, hop, hoperands, howner, hname]
  case putExtField =>
    refine reports_putField fun owner name howner hname => ?_
    simp [Instruction.reference?, hop, hoperands, howner, hname]
  case getCaptured => exact (plain_getCaptured b).reports
  case getEnclosing => exact plain_getEnclosing.reports
  all_goals exact (plain_throw rfl).reports

lemma reports_stepIndex {a : UInt32} (hoperands : i.operands = .index a) :
    Reports (Origin vm e i s) (stepIndex vm e a i.opcode) s := by
  cases hop : i.opcode
  case constStr => exact ((plain_stringOperand a).bind fun _ => plain_pushNext _).reports
  case invokeClosure => exact reports_invokeClosure a
  case new =>
    refine reports_new fun owner howner => ?_
    simp [Instruction.reference?, hop, hoperands, howner]
  all_goals exact (plain_throw rfl).reports

/-- A failure of an instruction is plain, or it comes from a type, a field or a value that is not there
or from a type that may not be reached. -/
theorem step_reports : Reports (Origin vm e i s) (step vm e i) s := by
  unfold step
  cases hoperands : i.operands with
  | none => exact (plain_stepPlain _).reports
  | i32 v | i64 v | f64 v => exact (plain_pushNext _).reports
  | localSlot slot => exact (plain_stepLocal slot _).reports
  | jump offset => exact plain_stepJump.reports
  | dispatch signature argc => exact reports_stepDispatch signature argc
  | index a => exact reports_stepIndex hoperands
  | pair a b => exact reports_stepPair hoperands
  | closure a count flags =>
    cases i.opcode
    case makeCaptured => exact reports_makeCaptured a count flags
    all_goals exact (plain_throw rfl).reports

end Machine

end LiveTypes
