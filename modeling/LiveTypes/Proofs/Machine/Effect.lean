import LiveTypes.Proofs.Heap.Fields
import LiveTypes.Proofs.Machine.Quiet

/-!
# What an instruction does to the heap

An instruction makes an object, touches a field, writes one, or leaves the heap alone. The write can be
read off the operands (`Machine.write?`), and a failure writes nothing (`step_affects`). A value that is
stored has the type of its field, and a closure holds what its site says (`Machine.Makes`).
-/

namespace LiveTypes

/-! ### Writes -/

/-- The write of the top value to a field of the instance below it, given how the field is named. -/
def Stack.write? (stack : Stack) (field : String → Option String) : Option FieldWrite :=
  match stack.slots.back?, stack.slots.pop.back? with
  | some v, some (.object id owner) => (field owner).map fun name => ⟨id, name, v⟩
  | _, _ => none

namespace Machine

open Run

variable {vm : Machine} {e : Executable} {s s' : MachineState} {i : Instruction}

/-- The write to a field that an instruction is, if it succeeds. -/
def write? (vm : Machine) (e : Executable) (i : Instruction) (s : MachineState) :
    Option FieldWrite :=
  match i.operands, i.opcode with
  | .pair _ slot, .putFieldSlot =>
    s.stack.write? fun owner =>
      (vm.registry.find? owner).bind fun t => t.layout.slotName? slot.toNat
  | .pair _ name, .putExtField => s.stack.write? fun _ => e.constants.string? name
  | _, _ => none

/-- Whether an instruction of an executable may create a closure: it has the site that the key of the
instruction names, some passed values in its slots and defaults in all others. -/
structure Makes (vm : Machine) (e : Executable) (i : Instruction) (c : Closure) : Prop where
  creates : ∃ index count flags key, i.opcode = .makeCaptured ∧
    i.operands = .closure index count flags ∧ e.constants.string? index = some key ∧
    SiteId.ofKey? e.typeId key = some c.site ∧ c.enclosing.isSome = capturesThis flags
  filled : ∃ site values, vm.registry.sites.find? c.site = some site ∧
    fillSlots c.site site 0 (site.slots.map fun slot => .default slot.type) values =
      .ok c.captured

/-! ### Instructions that change the heap -/

variable {r : Registry} {h : Heap} {write : Option FieldWrite} {closes : Closure → Prop}

/-- What may happen to a heap when only conforming values are stored. -/
abbrev TypedEffect (r : Registry) (closes : Closure → Prop) (h : Heap) :
    Option FieldWrite → Heap → Prop :=
  Heap.Effect r closes (fun v type => v.conforms type = true) h

/-- Whether an action has an effect on a heap that is the given write; it writes nothing when it
fails. -/
abbrev Affects (r : Registry) (closes : Closure → Prop) (h : Heap) (write : Option FieldWrite)
    (x : Run Flow) (s : MachineState) : Prop :=
  Ends (TypedEffect r closes h write) (TypedEffect r closes h none) x s

lemma affects_of_quiet {x : Run Flow} (hx : x.Quiet) (hheap : s.heap = h) :
    Affects r closes h none x s :=
  hx.ends (hheap ▸ .same) (hheap ▸ .same)

lemma Affects.bind {α : Type} {x : Run α} {f : α → Run Flow} (hheap : s.heap = h) (hx : x.Quiet)
    (hf : ∀ a s', x s = .ok a s' → s'.heap = h → Affects r closes h write (f a) s') :
    Affects r closes h write (x >>= f) s :=
  Ends.bind hx (hheap ▸ .same) fun a s' hrun hsame => hf a s' hrun (hsame.trans hheap)

lemma affects_allocate {object : HeapObject} {v : ObjectId → Value}
    (heffect : TypedEffect r closes s.heap none (s.heap.allocate object).2) :
    Affects r closes s.heap none (do pushNext (v (← Run.allocate object))) s := by
  have hrun : (do pushNext (v (← Run.allocate object)) : Run Flow) s =
      pushNext (v s.heap.objects.size) ⟨s.stack, (s.heap.allocate object).2, s.depth⟩ := by
    cases s
    rfl
  have hends := (quiet_pushNext (v s.heap.objects.size)).ends
    (s := ⟨s.stack, (s.heap.allocate object).2, s.depth⟩) heffect heffect
  unfold Affects Ends at hends ⊢
  rwa [hrun]

lemma affects_new (index : UInt32) :
    Affects vm.registry closes s.heap none (stepIndex vm e index .new) s := by
  refine Affects.bind rfl (quiet_stringOperand index) fun owner s₁ _ h₁ => ?_
  refine Affects.bind h₁ (quiet_resolve owner) fun t s₂ hresolve h₂ => ?_
  obtain ⟨hfind, -⟩ := require_eq_ok.mp hresolve
  obtain rfl := Registry.find?_name hfind
  refine Affects.bind h₂ (quiet_checkAccess t) fun _ s₃ _ h₃ => ?_
  split
  · exact Affects.bind h₃ (quiet_throw _) fun _ _ hthrow _ => absurd hthrow throw_ne_ok
  · rw [← h₃]
    exact affects_allocate (.made hfind)

lemma affects_makeCaptured {index : UInt32} {count flags : UInt8}
    (hop : i.opcode = .makeCaptured) (hoperands : i.operands = .closure index count flags) :
    Affects vm.registry (vm.Makes e i) s.heap none (makeCaptured vm e index count flags) s := by
  refine Affects.bind rfl (quiet_stringOperand index) fun key s₁ hkey h₁ => ?_
  refine Affects.bind h₁ (quiet_require _ _) fun id s₂ hid h₂ => ?_
  refine Affects.bind h₂ (quiet_site id) fun site s₃ hsite h₃ => ?_
  refine Affects.bind h₃ (quiet_typeById site.hostId) fun host s₄ _ h₄ => ?_
  refine Affects.bind h₄ (quiet_checkAccess host) fun _ s₅ _ h₅ => ?_
  refine Affects.bind h₅ (quiet_popMany _ _) fun values s₆ _ h₆ => ?_
  obtain ⟨hkey, -⟩ := require_eq_ok.mp hkey
  obtain ⟨hid, -⟩ := require_eq_ok.mp hid
  obtain ⟨hsite, -⟩ := require_eq_ok.mp hsite
  have hfill (enclosing : Option Value) (hthis : enclosing.isSome = capturesThis flags)
      (s₇ : MachineState) (h₇ : s₇.heap = s.heap) :
      Affects vm.registry (vm.Makes e i) s.heap none (do
        let captured ← Run.lift (fillSlots id site 0
          (site.slots.map fun slot => Value.default slot.type) values)
        let object ← Run.allocate (.closureOf ⟨id, enclosing, captured⟩)
        pushNext (.closure object)) s₇ := by
    refine Affects.bind h₇ (quiet_lift _) fun captured s₈ hcaptured h₈ => ?_
    obtain ⟨hcaptured, -⟩ := lift_eq_ok.mp hcaptured
    rw [← h₈]
    refine affects_allocate (v := .closure) (.closed ?_)
    exact ⟨⟨index, count, flags, key, hop, hoperands, hkey, hid, hthis⟩, site, values, hsite,
      hcaptured⟩
  split
  · next hthis =>
    have hpop : (some <$> Run.pop).Quiet := quiet_pop.bind fun v => quiet_pure (some v)
    refine Affects.bind h₆ hpop fun enclosing s₇ hrun h₇ => hfill enclosing ?_ s₇ h₇
    obtain ⟨v, _, -, hv⟩ := bind_eq_ok.mp hrun
    obtain ⟨rfl, -⟩ := pure_eq_ok.mp hv
    exact hthis.symm
  · next hthis =>
    refine Affects.bind h₆ (quiet_pure _) fun enclosing s₇ hrun h₇ => hfill enclosing ?_ s₇ h₇
    obtain ⟨rfl, -⟩ := pure_eq_ok.mp hrun
    exact ((Bool.not_eq_true _).mp hthis).symm

/-! ### Fields -/

lemma popOwner_eq_ok {owner : String} {id : ObjectId} :
    popOwner owner s = .ok id s' ↔ pop s = .ok (.object id owner) s' := by
  unfold popOwner popInstance
  simp only [bind_eq_ok]
  constructor
  · rintro ⟨⟨id', typeName⟩, s₁, ⟨v, s₂, hpop, hv⟩, h⟩
    obtain ⟨howner, h⟩ := ite_throw_eq_ok.mp h
    obtain ⟨rfl, rfl⟩ := pure_eq_ok.mp h
    cases v with
    | object id'' typeName' =>
      obtain ⟨heq, rfl⟩ := pure_eq_ok.mp hv
      obtain ⟨rfl, rfl⟩ := Prod.mk.inj heq
      exact howner ▸ hpop
    | _ => exact absurd hv throw_ne_ok
  · intro hpop
    refine ⟨(id, owner), s', ⟨_, _, hpop, pure_eq_ok.mpr ⟨rfl, rfl⟩⟩, ?_⟩
    exact ite_throw_eq_ok.mpr ⟨rfl, pure_eq_ok.mpr ⟨rfl, rfl⟩⟩

/-- An instance that is popped is held, if everything on the stack is. -/
lemma holds_of_pop {v : Value} (hheld : ∀ w ∈ s.stack.slots, s.heap.Holds w)
    (hpop : pop s = .ok v s') : s.heap.Holds v ∧ ∀ w ∈ s'.stack.slots, s.heap.Holds w := by
  obtain ⟨-, hback, rfl⟩ := pop_eq_ok.mp hpop
  obtain ⟨below, hbelow⟩ := Array.back?_eq_some_iff.mp hback
  refine ⟨hheld v (hbelow ▸ Array.mem_push_self), fun w hw => hheld w ?_⟩
  rw [hbelow]
  exact Array.mem_push_of_mem v (by simpa [hbelow] using hw)

/-- The operands of a store, when it gets as far as to pop them. -/
lemma write?_of_pops {s₁ : MachineState} {v : Value} {id : ObjectId} {owner : String}
    (hv : pop s = .ok v s₁) (hid : pop s₁ = .ok (.object id owner) s')
    (field : String → Option String) :
    s.stack.write? field = (field owner).map fun name => ⟨id, name, v⟩ := by
  obtain ⟨-, hback, rfl⟩ := pop_eq_ok.mp hv
  obtain ⟨-, hback', -⟩ := pop_eq_ok.mp hid
  rw [Stack.write?, hback, hback']

lemma affects_getField (hheld : ∀ v ∈ s.stack.slots, s.heap.Holds v) (a b : UInt32) :
    Affects vm.registry closes s.heap none (getField vm e a b) s := by
  refine Affects.bind rfl (quiet_stringOperand a) fun owner s₁ h₁ _ => ?_
  obtain ⟨-, rfl⟩ := require_eq_ok.mp h₁
  refine Affects.bind rfl (quiet_stringOperand b) fun name s₂ h₂ _ => ?_
  obtain ⟨-, rfl⟩ := require_eq_ok.mp h₂
  refine Affects.bind rfl (quiet_popOwner owner) fun id s₃ hpop h₃ => ?_
  have hid := (holds_of_pop hheld (popOwner_eq_ok.mp hpop)).1
  refine Affects.bind h₃ (quiet_resolve owner) fun t s₄ hresolve h₄ => ?_
  obtain ⟨hfind, -⟩ := require_eq_ok.mp hresolve
  obtain rfl := Registry.find?_name hfind
  refine Affects.bind h₄ (quiet_require _ _) fun place s₅ hrequire h₅ => ?_
  obtain ⟨hplace, -⟩ := require_eq_ok.mp hrequire
  refine Affects.bind h₅ quiet_get fun _ s₆ _ h₆ => ?_
  refine Affects.bind h₆ (quiet_require _ _) fun v s₇ _ h₇ => ?_
  rw [← h₇] at hid ⊢
  have heffect : TypedEffect vm.registry closes s₇.heap none (s₇.heap.touchAt id name place) :=
    .touched hfind hid hplace
  exact (quiet_pushNext v).ends (s := ⟨s₇.stack, s₇.heap.touchAt id name place, s₇.depth⟩)
    heffect heffect

lemma conforms_of_checkStore {typeName field : String} {type : TypeDescriptor} {v : Value} {u : Unit}
    (h : checkStore typeName field (some type) v s = .ok u s') : v.conforms type = true :=
  (ite_throw_eq_ok.mp h).1

lemma affects_putFieldSlot (hr : vm.registry.WellFormed)
    (hheld : ∀ v ∈ s.stack.slots, s.heap.Holds v) (a b : UInt32) :
    Affects vm.registry closes s.heap
      (s.stack.write? fun owner =>
        (vm.registry.find? owner).bind fun t => t.layout.slotName? b.toNat)
      (putFieldSlot vm e a b) s := by
  refine Affects.bind rfl (quiet_stringOperand a) fun owner s₁ h₁ _ => ?_
  obtain ⟨-, rfl⟩ := require_eq_ok.mp h₁
  refine Affects.bind rfl quiet_pop fun v s₂ hv h₂ => ?_
  refine Affects.bind h₂ (quiet_popOwner owner) fun id s₃ hpop h₃ => ?_
  have hpop := popOwner_eq_ok.mp hpop
  have hid := (holds_of_pop (h₂ ▸ (holds_of_pop hheld hv).2) hpop).1
  refine Affects.bind h₃ (quiet_resolve owner) fun t s₄ hresolve h₄ => ?_
  obtain ⟨hfind, -⟩ := require_eq_ok.mp hresolve
  obtain rfl := Registry.find?_name hfind
  refine Affects.bind h₄ (quiet_checkStore _ _ _ _) fun _ s₅ hcheck h₅ => ?_
  rw [write?_of_pops hv hpop, hfind, Option.bind_some]
  cases hname : t.layout.slotName? b.toNat with
  | none =>
    -- a slot without a name has no type, and the check fails
    have htype : t.layout.slotType? b.toNat = none := by
      rw [Layout.slotType?, Option.map_eq_none_iff]
      exact Option.map_eq_none_iff.mp hname
    rw [htype] at hcheck
    exact absurd hcheck throw_ne_ok
  | some name =>
    have ht := hr.types t (Registry.mem_of_find? hfind)
    have hslot := ht.slot?_of_slotName? hname
    obtain ⟨type, htype, hslotType⟩ := ht.fieldType?_of_slot? hslot
    rw [hslotType] at hcheck
    rw [h₂, ← h₅] at hid
    rw [← h₅]
    refine .stored hfind hid (LiveType.fieldPlace?_eq_slot.mpr hslot) fun type' htype' => ?_
    obtain rfl := Option.some.inj (htype.symm.trans htype')
    exact conforms_of_checkStore hcheck

lemma affects_putField (hheld : ∀ v ∈ s.stack.slots, s.heap.Holds v) (a b : UInt32) :
    Affects vm.registry closes s.heap (s.stack.write? fun _ => e.constants.string? b)
      (putField vm e a b) s := by
  refine Affects.bind rfl (quiet_stringOperand a) fun owner s₁ h₁ _ => ?_
  obtain ⟨-, rfl⟩ := require_eq_ok.mp h₁
  refine Affects.bind rfl (quiet_stringOperand b) fun name s₂ h₂ _ => ?_
  obtain ⟨hname, rfl⟩ := require_eq_ok.mp h₂
  refine Affects.bind rfl quiet_pop fun v s₃ hv h₃ => ?_
  refine Affects.bind h₃ (quiet_popOwner owner) fun id s₄ hpop h₄ => ?_
  have hpop := popOwner_eq_ok.mp hpop
  have hid := (holds_of_pop (h₃ ▸ (holds_of_pop hheld hv).2) hpop).1
  refine Affects.bind h₄ (quiet_resolve owner) fun t s₅ hresolve h₅ => ?_
  obtain ⟨hfind, -⟩ := require_eq_ok.mp hresolve
  obtain rfl := Registry.find?_name hfind
  refine Affects.bind h₅ (quiet_checkStore _ _ _ _) fun _ s₆ hcheck h₆ => ?_
  rw [write?_of_pops hv hpop, hname]
  cases htype : t.fieldType? name with
  | none =>
    rw [htype] at hcheck
    exact absurd hcheck throw_ne_ok
  | some type =>
    obtain ⟨place, hplace⟩ := LiveType.exists_fieldPlace? htype
    rw [hplace]
    rw [htype] at hcheck
    rw [h₃, ← h₆] at hid
    rw [← h₆]
    refine .stored hfind hid hplace fun type' htype' => ?_
    obtain rfl := Option.some.inj (htype.symm.trans htype')
    exact conforms_of_checkStore hcheck

lemma affects_stepIndex (index : UInt32) (op : Opcode) :
    Affects vm.registry closes s.heap none (stepIndex vm e index op) s := by
  cases op
  case constStr => exact affects_of_quiet ((quiet_stringOperand index).bind fun _ => quiet_pushNext _) rfl
  case new => exact affects_new index
  case invokeClosure => exact affects_of_quiet (quiet_invokeClosure index) rfl
  all_goals exact affects_of_quiet (quiet_throw _) rfl

/-- An instruction has at most one effect on the heap: it writes what its operands say, and nothing
when it fails. -/
theorem step_affects (hr : vm.registry.WellFormed) (hheld : ∀ v ∈ s.stack.slots, s.heap.Holds v) :
    Affects vm.registry (vm.Makes e i) s.heap (write? vm e i s) (step vm e i) s := by
  unfold step write?
  cases hoperands : i.operands with
  | none => exact affects_of_quiet (quiet_stepPlain _) rfl
  | i32 v | i64 v | f64 v => exact affects_of_quiet (quiet_pushNext _) rfl
  | index a => exact affects_stepIndex a _
  | localSlot slot => exact affects_of_quiet (quiet_stepLocal slot _) rfl
  | jump offset => exact affects_of_quiet quiet_stepJump rfl
  | pair a b =>
    cases i.opcode
    case invokeStatic | invokeDynamicStatic => exact affects_of_quiet (quiet_invokeStatic _ a b) rfl
    case invokeVirtual | invokeDynamicVirtual => exact affects_of_quiet (quiet_invokeVirtual _ a b) rfl
    case getFieldSlot => exact affects_of_quiet (quiet_getFieldSlot a b) rfl
    case putFieldSlot => exact affects_putFieldSlot hr hheld a b
    case getExtField => exact affects_getField hheld a b
    case putExtField => exact affects_putField hheld a b
    case getCaptured => exact affects_of_quiet (quiet_getCaptured b) rfl
    case getEnclosing => exact affects_of_quiet quiet_getEnclosing rfl
    all_goals exact affects_of_quiet (quiet_throw _) rfl
  | dispatch signature argc => exact affects_of_quiet (quiet_stepDispatch signature argc) rfl
  | closure a count flags =>
    cases hop : i.opcode
    case makeCaptured => exact affects_makeCaptured hop hoperands
    all_goals exact affects_of_quiet (quiet_throw _) rfl

end Machine

end LiveTypes
