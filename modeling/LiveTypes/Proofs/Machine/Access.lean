import LiveTypes.Proofs.Machine.Effect

/-!
# Accesses to fields

What an access to a field of an instance does when its operands are in place: it reads or writes the
place of the field. A name that no version declares makes it fail before anything is changed.
-/

namespace LiveTypes.Machine

open Run

variable {vm : Machine} {e : Executable} {a b : UInt32} {t : LiveType} {o : ObjectId} {v : Value}
  {s : MachineState} {name typeName : String} {type : TypeDescriptor}
  {place : LiveType.FieldPlace} {below : Array Value} {offset : Nat}

/-- The state with other slots of the stack. -/
abbrev withSlots (s : MachineState) (slots : Array Value) : MachineState :=
  { s with stack := { s.stack with slots } }

/-- Whether an instance of a type lies on top of the operands, and an instruction names the type. -/
structure AboutToRead (e : Executable) (owner : UInt32) (typeName : String) (o : ObjectId)
    (below : Array Value) (s : MachineState) : Prop where
  owner_eq : e.constants.string? owner = some typeName
  slots_eq : s.stack.slots = below.push (.object o typeName)
  floor_le : s.stack.floor ≤ below.size
  room : below.size < s.stack.limit

/-- Whether a value and below it an instance of a type lie on top of the operands, and an instruction
names the type. -/
structure AboutToWrite (e : Executable) (owner : UInt32) (typeName : String) (o : ObjectId)
    (v : Value) (below : Array Value) (s : MachineState) : Prop where
  owner_eq : e.constants.string? owner = some typeName
  slots_eq : s.stack.slots = (below.push (.object o typeName)).push v
  floor_le : s.stack.floor ≤ below.size

lemma pop_push {slots : Array Value} (hslots : s.stack.slots = slots.push v)
    (hfloor : s.stack.floor ≤ slots.size) : pop s = .ok v (withSlots s slots) := by
  rw [pop_eq_ok, hslots]
  refine ⟨?_, by simp, by simp⟩
  rw [Array.size_push]
  omega

lemma stringOperand_of_string? {index : UInt32} (h : e.constants.string? index = some name) :
    stringOperand e index s = .ok name s :=
  require_eq_ok.mpr ⟨h, rfl⟩

lemma resolve_of_find? (h : vm.registry.find? t.name = some t) : resolve vm t.name s = .ok t s :=
  require_eq_ok.mpr ⟨h, rfl⟩

lemma pushNext_of_lt (h : s.stack.slots.size < s.stack.limit) :
    pushNext v s = .ok .next (withSlots s (s.stack.slots.push v)) :=
  bind_eq_ok.mpr ⟨(), _, push_eq_ok.mpr ⟨h, rfl⟩, rfl⟩

lemma AboutToRead.popOwner (h : AboutToRead e a typeName o below s) :
    popOwner typeName s = .ok o (withSlots s below) :=
  popOwner_eq_ok.mpr (pop_push h.slots_eq h.floor_le)

lemma AboutToWrite.pop (h : AboutToWrite e a typeName o v below s) :
    Run.pop s = .ok v (withSlots s (below.push (.object o typeName))) := by
  refine pop_push h.slots_eq ?_
  have hfloor := h.floor_le
  rw [Array.size_push]
  omega

lemma AboutToWrite.popOwner (h : AboutToWrite e a typeName o v below s) :
    popOwner typeName (withSlots s (below.push (.object o typeName))) =
      .ok o (withSlots s below) :=
  popOwner_eq_ok.mpr (pop_push rfl h.floor_le)

lemma AboutToWrite.write? (h : AboutToWrite e a typeName o v below s)
    (field : String → Option String) :
    s.stack.write? field = (field typeName).map fun name => ⟨o, name, v⟩ :=
  write?_of_pops h.pop (popOwner_eq_ok.mp h.popOwner) field

lemma checkStore_of_conforms {field : String} (h : v.conforms type = true) :
    checkStore typeName field (some type) v s = .ok () s := by
  unfold checkStore
  dsimp only
  rw [if_pos h]
  rfl

/-! ### Reading -/

/-- When the owner of a slot is popped, what the slot holds is pushed. -/
lemma getFieldSlot_of_pop {s₁ : MachineState} (howner : e.constants.string? a = some typeName)
    (hpop : pop s = .ok (.object o typeName) s₁) (hv : s₁.heap.getSlot? o b.toNat = some v) :
    getFieldSlot e a b s = pushNext v s₁ := by
  unfold getFieldSlot
  rw [bind_of_ok (stringOperand_of_string? howner), bind_of_ok (popOwner_eq_ok.mpr hpop),
    bind_of_ok (get_eq_ok.mpr ⟨rfl, rfl⟩), bind_of_ok (require_eq_ok.mpr ⟨hv, rfl⟩)]

/-- When the owner of a field is popped, what the place of the field holds is pushed. -/
lemma getField_of_pop {s₁ : MachineState} (howner : e.constants.string? a = some t.name)
    (hname : e.constants.string? b = some name) (hpop : pop s = .ok (.object o t.name) s₁)
    (hfind : vm.registry.find? t.name = some t) (hplace : t.fieldPlace? name = some place)
    (hv : s₁.heap.valueAt? o name place = some v) :
    getField vm e a b s = pushNext v { s₁ with heap := s₁.heap.touchAt o name place } := by
  unfold getField
  rw [bind_of_ok (stringOperand_of_string? howner), bind_of_ok (stringOperand_of_string? hname),
    bind_of_ok (popOwner_eq_ok.mpr hpop), bind_of_ok (resolve_of_find? hfind),
    bind_of_ok (require_eq_ok.mpr ⟨hplace, rfl⟩), bind_of_ok (get_eq_ok.mpr ⟨rfl, rfl⟩),
    bind_of_ok (require_eq_ok.mpr ⟨hv, rfl⟩)]
  rfl

lemma step_getFieldSlot (h : AboutToRead e a typeName o below s)
    (hv : s.heap.getSlot? o b.toNat = some v) :
    step vm e ⟨offset, .getFieldSlot, .pair a b⟩ s = .ok .next (withSlots s (below.push v)) := by
  show getFieldSlot e a b s = _
  rw [getFieldSlot_of_pop h.owner_eq (pop_push h.slots_eq h.floor_le) hv]
  exact pushNext_of_lt h.room

lemma step_getExtField (h : AboutToRead e a t.name o below s)
    (hname : e.constants.string? b = some name) (hfind : vm.registry.find? t.name = some t)
    (hplace : t.fieldPlace? name = some place) (hv : s.heap.valueAt? o name place = some v) :
    step vm e ⟨offset, .getExtField, .pair a b⟩ s =
      .ok .next (withSlots { s with heap := s.heap.touchAt o name place } (below.push v)) := by
  show getField vm e a b s = _
  rw [getField_of_pop h.owner_eq hname (pop_push h.slots_eq h.floor_le) hfind hplace hv]
  exact pushNext_of_lt (s := withSlots { s with heap := s.heap.touchAt o name place } below) h.room

/-- A name without a place is no field. -/
lemma step_getExtField_of_none (h : AboutToRead e a t.name o below s)
    (hname : e.constants.string? b = some name) (hfind : vm.registry.find? t.name = some t)
    (hplace : t.fieldPlace? name = none) :
    step vm e ⟨offset, .getExtField, .pair a b⟩ s =
      .error (.noSuchField t.name name) (withSlots s below) := by
  show getField vm e a b s = _
  unfold getField
  rw [bind_of_ok (stringOperand_of_string? h.owner_eq), bind_of_ok (stringOperand_of_string? hname),
    bind_of_ok h.popOwner, bind_of_ok (resolve_of_find? hfind), hplace]
  rfl

/-! ### Writing -/

lemma step_putFieldSlot (h : AboutToWrite e a t.name o v below s)
    (hfind : vm.registry.find? t.name = some t) (htype : t.layout.slotType? b.toNat = some type)
    (hv : v.conforms type = true) :
    step vm e ⟨offset, .putFieldSlot, .pair a b⟩ s =
      .ok .next (withSlots { s with heap := s.heap.setSlot o b.toNat v } below) := by
  show putFieldSlot vm e a b s = _
  unfold putFieldSlot
  rw [bind_of_ok (stringOperand_of_string? h.owner_eq), bind_of_ok h.pop, bind_of_ok h.popOwner,
    bind_of_ok (resolve_of_find? hfind), htype, bind_of_ok (checkStore_of_conforms hv)]
  rfl

lemma step_putExtField (h : AboutToWrite e a t.name o v below s)
    (hname : e.constants.string? b = some name) (hfind : vm.registry.find? t.name = some t)
    (htype : t.fieldType? name = some type) (hplace : t.fieldPlace? name = some place)
    (hv : v.conforms type = true) :
    step vm e ⟨offset, .putExtField, .pair a b⟩ s =
      .ok .next (withSlots { s with heap := s.heap.storeAt o name v place } below) := by
  show putField vm e a b s = _
  unfold putField
  rw [bind_of_ok (stringOperand_of_string? h.owner_eq), bind_of_ok (stringOperand_of_string? hname),
    bind_of_ok h.pop, bind_of_ok h.popOwner, bind_of_ok (resolve_of_find? hfind), htype,
    bind_of_ok (checkStore_of_conforms hv), hplace]
  rfl

/-- A name that no version declares is no field. -/
lemma step_putExtField_of_none (h : AboutToWrite e a t.name o v below s)
    (hname : e.constants.string? b = some name) (hfind : vm.registry.find? t.name = some t)
    (htype : t.fieldType? name = none) :
    step vm e ⟨offset, .putExtField, .pair a b⟩ s =
      .error (.noSuchField t.name name) (withSlots s below) := by
  show putField vm e a b s = _
  unfold putField
  rw [bind_of_ok (stringOperand_of_string? h.owner_eq), bind_of_ok (stringOperand_of_string? hname),
    bind_of_ok h.pop, bind_of_ok h.popOwner, bind_of_ok (resolve_of_find? hfind), htype]
  rfl

end LiveTypes.Machine
