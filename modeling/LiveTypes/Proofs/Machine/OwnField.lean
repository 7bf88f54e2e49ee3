import LiveTypes.Proofs.Heap.Typed
import LiveTypes.Proofs.Machine.Missing
import LiveTypes.Proofs.Registry.OwnField

/-!
# Running accesses to own fields

Code reaches plain fields in instances and the others in closures. An access whose field is where the
code looks for it is only stopped by a full stack (`executes_of_foundIn`), and any other access fails
(`fails_of_not_foundIn`).
-/

namespace LiveTypes

/-- Failures of an access to a field that is not where the code looks for it. -/
def VmError.IsMisplaced : VmError → Prop
  | .typeError _ | .runtime (.noPosition _ _) => True
  | _ => False

namespace Machine

open Run

/-- Whether a value is a receiver of a type: an instance of it, or a closure that it hosts now. -/
inductive Receives (r : Registry) (h : Heap) (t : LiveType) : Value → Prop where
  | object {o : ObjectId} (held : h.Holds (.object o t.name)) : Receives r h t (.object o t.name)
  | closure {o : ObjectId} {c : Closure} {site : CaptureSite} (found : h.closure? o = some c)
      (bound : r.sites.find? c.site = some site) (hostId_eq : site.hostId = t.id) :
      Receives r h t (.closure o)

/-- Whether the operands of an access to a field lie on top of the stack: the receiver, and above it,
for a write, a value that conforms to the type of the field. -/
inductive Poised (f : FieldDecl) (s : MachineState) (receiver : Value) (below : Array Value) :
    Bool → Prop where
  | read (slots_eq : s.stack.slots = below.push receiver) (floor_le : s.stack.floor ≤ below.size) :
      Poised f s receiver below false
  | write {v : Value} (slots_eq : s.stack.slots = (below.push receiver).push v)
      (floor_le : s.stack.floor ≤ below.size) (conforms : v.conforms f.type = true) :
      Poised f s receiver below true

/-- Whether a field of a unit is where code of the unit looks for it: a plain field in an instance, the
enclosing instance in a closure, and a captured variable in a closure whose site has a slot for its
position. -/
inductive FoundIn (r : Registry) (h : Heap) (e : Executable) (u : TypeUnit) (f : FieldDecl) :
    Value → Prop where
  | plain {o : ObjectId} {typeName : String} (plain : (f.isCaptured || f.isEnclosing) = false) :
      FoundIn r h e u f (.object o typeName)
  | enclosing {o : ObjectId} (flag : f.isEnclosing = true) : FoundIn r h e u f (.closure o)
  | captured {o : ObjectId} {c : Closure} {site : CaptureSite} {position k : Nat}
      (flag : f.isCaptured = true) (place : u.capturedFields[position]? = some f)
      (found : h.closure? o = some c) (bound : r.sites.find? c.site = some site)
      (slot_eq : site.slotAt? e.typeId e.version position = some k) : FoundIn r h e u f (.closure o)

/-- Whether the flags of a field are the ones for a receiver: none for an instance, and those of a
captured variable or of the enclosing instance for a closure. -/
def SuitedTo (f : FieldDecl) : Value → Prop
  | .closure _ => (f.isCaptured || f.isEnclosing) = true
  | _ => (f.isCaptured || f.isEnclosing) = false

/-- Whether an instruction is done and control goes on, unless the stack is full. -/
def Executes (vm : Machine) (e : Executable) (i : Instruction) (s : MachineState) : Prop :=
  ∃ s', step vm e i s = .ok .next s' ∨ step vm e i s = .error .stackOverflow s'

variable {vm : Machine} {t : LiveType} {u : TypeUnit} {e : Executable} {f : FieldDecl}
  {i : Instruction} {offset : Nat} {write : Bool} {s s₁ : MachineState} {receiver v : Value}
  {below : Array Value} {o : ObjectId} {c : Closure} {typeName owner : String}

/-! ### Operands -/

lemma Poised.popped (h : Poised f s receiver below false) :
    pop s = .ok receiver (withSlots s below) := by
  cases h with
  | read hslots hfloor => exact pop_push hslots hfloor

/-- A write pops the value, and the receiver after it. -/
lemma Poised.popped_write (h : Poised f s receiver below true) :
    ∃ v, v.conforms f.type = true ∧ pop s = .ok v (withSlots s (below.push receiver)) ∧
      pop (withSlots s (below.push receiver)) = .ok receiver (withSlots s below) := by
  cases h with
  | @write v hslots hfloor hconforms =>
    have hpop : pop (withSlots s (below.push receiver)) = .ok receiver (withSlots s below) :=
      pop_push rfl hfloor
    refine ⟨v, hconforms, pop_push hslots ?_, hpop⟩
    rw [Array.size_push]
    omega

lemma pushNext_cases (v : Value) (s : MachineState) :
    ∃ s', pushNext v s = .ok .next s' ∨ pushNext v s = .error .stackOverflow s' := by
  rcases Nat.lt_or_ge s.stack.slots.size s.stack.limit with hroom | hfull
  · exact ⟨_, .inl (pushNext_of_lt hroom)⟩
  · exact ⟨s, .inr (bind_of_error (push_of_le hfull))⟩

/-- A closure is no instance. -/
lemma popOwner_of_closure (hpop : pop s = .ok (.closure o) s₁) :
    ∃ cause, popOwner owner s = .error (.typeError cause) s₁ := by
  have hinstance : popInstance s = .error (.typeError (.expected "object" (Value.closure o).kind)) s₁ :=
    bind_of_ok hpop
  exact ⟨_, bind_of_error hinstance⟩

/-- An instance is no closure. -/
lemma popClosure_of_object (hpop : pop s = .ok (.object o typeName) s₁) :
    ∃ cause, popClosure s = .error (.typeError cause) s₁ :=
  ⟨_, bind_of_ok hpop⟩

lemma getEnclosing_of_pop (hpop : pop s = .ok (.closure o) s₁) (hc : s₁.heap.closure? o = some c) :
    getEnclosing s = pushNext (c.enclosing.getD .null) s₁ :=
  bind_of_ok (popClosure_of_pop hpop hc)

/-! ### Running -/

/-- An access to a field that is where the code looks for it is done, unless the stack is full. -/
theorem executes_of_foundIn (hr : vm.registry.WellFormed) (hs : s.Sound vm.registry)
    (ht : t ∈ vm.registry.types) (hu : u.Verified) (hown : t.ReachesOwn u e write offset f i)
    (hreceives : Receives vm.registry s.heap t receiver) (hpoised : Poised f s receiver below write)
    (hfound : FoundIn vm.registry s.heap e u f receiver) : Executes vm e i s := by
  have hfind := hr.find?_name ht
  have hwell := hr.types t ht
  obtain ⟨-, hreached, hname, -, htype⟩ := hown
  cases hreached with
  | enclosing hflag =>
    cases hreceives with
    | object =>
      cases hfound with
      | plain hplain => simp [hflag] at hplain
    | closure hc =>
      show ∃ s', getEnclosing s = _ ∨ getEnclosing s = _
      rw [getEnclosing_of_pop hpoised.popped hc]
      exact pushNext_cases _ _
  | captured hother hflag hplace =>
    cases hfound with
    | plain hplain => simp [hflag] at hplain
    | enclosing hflag' => simp [hother] at hflag'
    | captured _ hplace' hc hsite hslot =>
      -- the captured fields are distinct, so both positions are the one of the field
      have hnodup : u.capturedFields.Nodup := (List.Nodup.of_map _ hu.fields_nodup).filter _
      have hlt := (List.getElem?_eq_some_iff.mp hplace).1
      obtain rfl := (List.getElem?_inj hlt hnodup).mp (hplace.trans hplace'.symm)
      show ∃ s', getCaptured vm e _ s = _ ∨ getCaptured vm e _ s = _
      rw [getCaptured_of_pop hpoised.popped hc hsite hslot]
      exact pushNext_cases _ _
  | @slot _ a k hplain howner hslot =>
    rw [hname] at howner
    have hk := hwell.toNat_slot hslot
    cases hreceives with
    | closure =>
      cases hfound with
      | enclosing hflag | captured hflag => simp [hflag] at hplain
    | object hheld =>
      cases hpoised with
      | read hslots hfloor =>
        obtain ⟨v, hv⟩ :=
          exists_valueAt? hs.heap hfind hheld (LiveType.fieldPlace?_eq_slot.mpr hslot)
        show ∃ s', getFieldSlot e a (UInt32.ofNat k) s = _ ∨ getFieldSlot e a (UInt32.ofNat k) s = _
        rw [getFieldSlot_of_pop howner (pop_push hslots hfloor) (hk.symm ▸ hv)]
        exact pushNext_cases _ _
      | write hslots hfloor hconforms =>
        obtain ⟨type, htype', hslotType⟩ := hwell.fieldType?_of_slot? hslot
        obtain rfl := Option.some.inj (htype.symm.trans htype')
        exact ⟨_, .inl (step_putFieldSlot ⟨howner, hslots, hfloor⟩ hfind (hk.symm ▸ hslotType)
          hconforms)⟩
  | @byName _ a b hplain howner hfield hslot =>
    rw [hname] at howner
    have hplace := LiveType.fieldPlace?_eq_extension.mpr ⟨hslot, htype⟩
    cases hreceives with
    | closure =>
      cases hfound with
      | enclosing hflag | captured hflag => simp [hflag] at hplain
    | object hheld =>
      cases hpoised with
      | read hslots hfloor =>
        obtain ⟨v, hv⟩ := exists_valueAt? hs.heap hfind hheld hplace
        show ∃ s', getField vm e a b s = _ ∨ getField vm e a b s = _
        rw [getField_of_pop howner hfield (pop_push hslots hfloor) hfind hplace hv]
        exact pushNext_cases _ _
      | write hslots hfloor hconforms =>
        exact ⟨_, .inl (step_putExtField ⟨howner, hslots, hfloor⟩ hfield hfind htype hplace
          hconforms)⟩

/-- An access to a field that is not where the code looks for it fails. -/
theorem fails_of_not_foundIn (hown : t.ReachesOwn u e write offset f i)
    (hreceives : Receives vm.registry s.heap t receiver) (hpoised : Poised f s receiver below write)
    (hnot : ¬ FoundIn vm.registry s.heap e u f receiver) :
    ∃ cause s', step vm e i s = .error cause s' ∧ cause.IsMisplaced := by
  cases hown.reached with
  | enclosing hflag =>
    cases hreceives with
    | object =>
      obtain ⟨cause, hpop⟩ := popClosure_of_object hpoised.popped
      exact ⟨_, _, bind_of_error hpop, trivial⟩
    | closure => exact absurd (.enclosing hflag) hnot
  | @captured a position hother hflag hplace =>
    cases hreceives with
    | object =>
      obtain ⟨cause, hpop⟩ := popClosure_of_object hpoised.popped
      exact ⟨_, _, bind_of_error hpop, trivial⟩
    | @closure o c site hc hsite =>
      have hnone : site.slotAt? e.typeId e.version position.toNat = none :=
        Option.eq_none_iff_forall_ne_some.mpr fun k hk =>
          hnot (.captured hflag hplace hc hsite hk)
      refine ⟨.runtime (.noPosition c.site position.toNat), withSlots s below, ?_, trivial⟩
      show getCaptured vm e position s = _
      have hfound : Machine.site vm c.site (withSlots s below) = .ok site (withSlots s below) :=
        require_eq_ok.mpr ⟨hsite, rfl⟩
      unfold getCaptured
      rw [bind_of_ok (popClosure_of_pop hpoised.popped hc), bind_of_ok hfound, hnone]
      rfl
  | slot hplain howner =>
    cases hreceives with
    | object => exact absurd (.plain hplain) hnot
    | closure =>
      cases write with
      | false =>
        obtain ⟨cause, hpop⟩ := popOwner_of_closure hpoised.popped
        refine ⟨_, _, (bind_of_ok (stringOperand_of_string? howner)).trans (bind_of_error hpop), trivial⟩
      | true =>
        obtain ⟨v, -, hv, hclosure⟩ := hpoised.popped_write
        obtain ⟨cause, hpop⟩ := popOwner_of_closure hclosure
        exact ⟨_, _, (bind_of_ok (stringOperand_of_string? howner)).trans
          ((bind_of_ok hv).trans (bind_of_error hpop)), trivial⟩
  | byName hplain howner hname =>
    cases hreceives with
    | object => exact absurd (.plain hplain) hnot
    | closure =>
      cases write with
      | false =>
        obtain ⟨cause, hpop⟩ := popOwner_of_closure hpoised.popped
        exact ⟨_, _, (bind_of_ok (stringOperand_of_string? howner)).trans
          ((bind_of_ok (stringOperand_of_string? hname)).trans (bind_of_error hpop)), trivial⟩
      | true =>
        obtain ⟨v, -, hv, hclosure⟩ := hpoised.popped_write
        obtain ⟨cause, hpop⟩ := popOwner_of_closure hclosure
        exact ⟨_, _, (bind_of_ok (stringOperand_of_string? howner)).trans
          ((bind_of_ok (stringOperand_of_string? hname)).trans
            ((bind_of_ok hv).trans (bind_of_error hpop))), trivial⟩

/-- A field whose flags are the ones for the receiver is where the code looks for it, if the code has
the number of the current version. -/
theorem foundIn_of_suitedTo {config : RegistryConfig} {r : Registry} {h : Heap} {v : Version}
    (hreachable : Registry.Reachable config r) (hverify : config.verify = true)
    (hfree : r.CollisionFree) (ht : t ∈ r.types) (hv : v ∈ t.versions)
    (hversion : v.index = e.version) (hcurrent : e.version = t.table.version)
    (hid : e.typeId = t.id) (hf : v.unit.field? f.name = some f) (hreceives : Receives r h t receiver)
    (hsuited : SuitedTo f receiver) : FoundIn r h e v.unit f receiver := by
  cases hreceives with
  | object => exact .plain hsuited
  | @closure o c site hc hsite hhost =>
    by_cases henclosing : f.isEnclosing = true
    · exact .enclosing henclosing
    · have hflag : f.isCaptured = true := by simpa [SuitedTo, henclosing] using hsuited
      obtain rfl := ((hreachable.wellFormed hverify).types t ht).eq_current_of_index hv
        (hversion.trans hcurrent)
      have hmatches := hreachable.matches_host hverify hfree ht hsite hhost
      obtain ⟨p, hp⟩ := List.getElem?_of_mem (List.mem_filter.mpr
        ⟨List.mem_of_find?_eq_some hf, hflag⟩ : f ∈ t.current.unit.capturedFields)
      obtain ⟨k, hk, -⟩ := hmatches.type_eq p f hp
      refine .captured hflag hp hc hsite (k := k) ?_
      rw [hid, ← hversion, ← hhost, hmatches.slotAt?_eq, CaptureSite.slotFor?, hk]

/-! ### What is read -/

lemma back?_of_pushNext {flow : Flow} {s' : MachineState} (h : pushNext v s = .ok flow s') :
    s'.stack.slots.back? = some v := by
  obtain ⟨_, s₂, hpush, hflow⟩ := bind_eq_ok.mp h
  obtain ⟨-, rfl⟩ := push_eq_ok.mp hpush
  obtain ⟨-, rfl⟩ := pure_eq_ok.mp hflow
  simp

/-- A closure that was made at a site holds in each slot what conforms to its type. -/
lemma conforms_heldAt {r : Registry} {site : CaptureSite} {k : Nat} {type : TypeDescriptor}
    (hc : c.Typed r) (hsite : r.sites.find? c.site = some site)
    (htype : site.slotType? k = some type) (hvoid : type ≠ .void) :
    (heldAt c site k).conforms type = true := by
  obtain ⟨site', hsite', hfills⟩ := hc
  obtain rfl := Option.some.inj (hsite.symm.trans hsite')
  unfold heldAt
  cases hheld : c.captured[k]? with
  | some v =>
    obtain ⟨type', htype', hconforms⟩ := hfills k v hheld
    obtain rfl := Option.some.inj (htype.symm.trans htype')
    exact hconforms
  | none =>
    rw [htype]
    exact Value.conforms_default hvoid

/-- What is read from a slot of an instance conforms to the type of the field. -/
lemma conforms_of_getFieldSlot {a : UInt32} {k : Nat} {flow : Flow} {s' : MachineState}
    (hr : vm.registry.WellFormed) (hs : s.Sound vm.registry) (htyped : s.heap.Typed vm.registry)
    (ht : t ∈ vm.registry.types) (howner : e.constants.string? a = some t.name)
    (htype : t.fieldType? f.name = some f.type) (hslot : t.layout.slot? f.name = some k)
    (h : getFieldSlot e a (UInt32.ofNat k) s = .ok flow s') :
    ∃ v, s'.stack.slots.back? = some v ∧ v.conforms f.type = true := by
  unfold getFieldSlot at h
  rw [bind_of_ok (stringOperand_of_string? howner)] at h
  obtain ⟨o, s₁, hpop, h⟩ := bind_eq_ok.mp h
  obtain ⟨hheld, -⟩ := holds_of_pop hs.stack (popOwner_eq_ok.mp hpop)
  obtain ⟨-, -, rfl⟩ := pop_eq_ok.mp (popOwner_eq_ok.mp hpop)
  rw [bind_of_ok (get_eq_ok.mpr ⟨rfl, rfl⟩)] at h
  obtain ⟨v, s₂, hread, h⟩ := bind_eq_ok.mp h
  obtain ⟨hv, rfl⟩ := require_eq_ok.mp hread
  rw [(hr.types t ht).toNat_slot hslot] at hv
  exact ⟨v, back?_of_pushNext h, htyped.conforms_valueAt? hr (hr.find?_name ht) hheld
    (LiveType.fieldPlace?_eq_slot.mpr hslot) htype hv⟩

/-- What is read from a field of an instance by name conforms to the type of the field. -/
lemma conforms_of_getField {a b : UInt32} {flow : Flow} {s' : MachineState}
    (hr : vm.registry.WellFormed) (hs : s.Sound vm.registry) (htyped : s.heap.Typed vm.registry)
    (ht : t ∈ vm.registry.types) (howner : e.constants.string? a = some t.name)
    (hname : e.constants.string? b = some f.name) (htype : t.fieldType? f.name = some f.type)
    (h : getField vm e a b s = .ok flow s') :
    ∃ v, s'.stack.slots.back? = some v ∧ v.conforms f.type = true := by
  have hfind := hr.find?_name ht
  unfold getField at h
  rw [bind_of_ok (stringOperand_of_string? howner), bind_of_ok (stringOperand_of_string? hname)] at h
  obtain ⟨o, s₁, hpop, h⟩ := bind_eq_ok.mp h
  obtain ⟨hheld, -⟩ := holds_of_pop hs.stack (popOwner_eq_ok.mp hpop)
  obtain ⟨-, -, rfl⟩ := pop_eq_ok.mp (popOwner_eq_ok.mp hpop)
  rw [bind_of_ok (resolve_of_find? hfind)] at h
  obtain ⟨place, s₂, hfound, h⟩ := bind_eq_ok.mp h
  obtain ⟨hplace, rfl⟩ := require_eq_ok.mp hfound
  rw [bind_of_ok (get_eq_ok.mpr ⟨rfl, rfl⟩)] at h
  obtain ⟨v, s₃, hread, h⟩ := bind_eq_ok.mp h
  obtain ⟨hv, rfl⟩ := require_eq_ok.mp hread
  obtain ⟨_, s₄, -, h⟩ := bind_eq_ok.mp h
  exact ⟨v, back?_of_pushNext h, htyped.conforms_valueAt? hr hfind hheld hplace htype hv⟩

/-- What is read of a closure conforms to the type of the slot that the position has for the code. -/
lemma conforms_of_getCaptured {position : UInt32} {flow : Flow} {s' : MachineState}
    {config : RegistryConfig} (hreachable : Registry.Reachable config vm.registry)
    (hverify : config.verify = true) (htyped : s.heap.Typed vm.registry)
    (h : getCaptured vm e position s = .ok flow s') :
    ∃ v o c site k type, s'.stack.slots.back? = some v ∧
      s.stack.slots.back? = some (.closure o) ∧ s.heap.closure? o = some c ∧
      vm.registry.sites.find? c.site = some site ∧
      site.slotAt? e.typeId e.version position.toNat = some k ∧ site.slotType? k = some type ∧
      v.conforms type = true := by
  obtain ⟨c, s₁, hclosed, hrest⟩ := bind_eq_ok.mp h
  obtain ⟨w, s₂, hpop, hclosed⟩ := bind_eq_ok.mp hclosed
  obtain ⟨o, rfl, hc, rfl⟩ : ∃ o, w = .closure o ∧ s₂.heap.closure? o = some c ∧ s₂ = s₁ := by
    cases w with
    | closure o =>
      obtain ⟨_, _, hget, hclosed⟩ := bind_eq_ok.mp hclosed
      obtain ⟨rfl, rfl⟩ := get_eq_ok.mp hget
      obtain ⟨hc, rfl⟩ := require_eq_ok.mp hclosed
      exact ⟨o, rfl, hc, rfl⟩
    | _ => exact absurd hclosed throw_ne_ok
  obtain ⟨site, s₃, hfound, hrest⟩ := bind_eq_ok.mp hrest
  obtain ⟨hsite, rfl⟩ := require_eq_ok.mp hfound
  obtain ⟨k, s₄, hposition, -⟩ := bind_eq_ok.mp hrest
  obtain ⟨hslot, -⟩ := require_eq_ok.mp hposition
  rw [getCaptured_of_pop hpop hc hsite hslot] at h
  obtain ⟨-, hback, rfl⟩ := pop_eq_ok.mp hpop
  have htidy := (hreachable.tidy hverify c.site site hsite).1
  obtain ⟨type, htype⟩ := CaptureSite.slotType?_isSome (htidy.slotAt?_lt hslot)
  have hvoid := hreachable.slotType?_ne_void hverify c.site site hsite k type htype
  exact ⟨heldAt c site k, o, c, site, k, type, back?_of_pushNext h, hback, hc, hsite, hslot, htype,
    conforms_heldAt (htyped.closures o c hc) hsite htype hvoid⟩

/-- What a read of a field of the type pushes conforms to the type of the field, unless it is read of a
closure whose site does not serve the code. -/
theorem conforms_of_read {config : RegistryConfig} {v : Version} {flow : Flow} {s' : MachineState}
    (hreachable : Registry.Reachable config vm.registry) (hverify : config.verify = true)
    (hs : s.Sound vm.registry) (htyped : s.heap.Typed vm.registry) (ht : t ∈ vm.registry.types)
    (hv : v ∈ t.versions) (hversion : v.index = e.version)
    (hown : t.ReachesOwn v.unit e false offset f i) (hop : i.opcode ≠ .getEnclosing)
    (hstep : step vm e i s = .ok flow s') :
    ∃ value, s'.stack.slots.back? = some value ∧ (value.conforms f.type = true ∨
      i.opcode = .getCaptured ∧ ∃ o c site, s.stack.slots.back? = some (.closure o) ∧
        s.heap.closure? o = some c ∧ vm.registry.sites.find? c.site = some site ∧
        ¬ vm.registry.Serves site t e.version) := by
  have hr := hreachable.wellFormed hverify
  obtain ⟨-, hreached, hname, hid, htype⟩ := hown
  cases hreached with
  | enclosing => exact absurd rfl hop
  | slot _ howner hslot =>
    obtain ⟨value, hback, hconforms⟩ :=
      conforms_of_getFieldSlot hr hs htyped ht (hname ▸ howner) htype hslot hstep
    exact ⟨value, hback, .inl hconforms⟩
  | byName _ howner hfield =>
    obtain ⟨value, hback, hconforms⟩ :=
      conforms_of_getField hr hs htyped ht (hname ▸ howner) hfield htype hstep
    exact ⟨value, hback, .inl hconforms⟩
  | captured _ _ hplace =>
    obtain ⟨value, o, c, site, k, type, hback, hclosure, hc, hsite, hslot, hslotType, hconforms⟩ :=
      conforms_of_getCaptured hreachable hverify htyped hstep
    refine ⟨value, hback, ?_⟩
    by_cases hserves : vm.registry.Serves site t e.version
    · have hdeclared := hreachable.slotType?_of_serves hverify ht hv hsite hplace
        (hversion ▸ hserves) (hid ▸ hversion ▸ hslot)
      obtain rfl := Option.some.inj (hslotType.symm.trans hdeclared)
      exact .inl hconforms
    · exact .inr ⟨rfl, o, c, site, hclosure, hc, hsite, hserves⟩

end Machine

end LiveTypes
