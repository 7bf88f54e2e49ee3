import LiveTypes.Proofs.Heap.Fields
import LiveTypes.Proofs.Registry.Sites

/-!
# Typed heaps

A heap is typed when each value in it conforms to the type of its slot: of the layout for an instance,
of the history for an extension field, of the capture site for a closure. Layouts never change,
histories never retype a field and sites never reassign a slot, so what happens to the registry keeps
a heap typed (`Typed.of_extends`), and so does everything that stores conforming values only
(`Typed.effect`).
-/

namespace LiveTypes

/-! ### Slots and their types -/

/-- Whether each of the values conforms to the type of its slot. -/
def Fills (types : Nat → Option TypeDescriptor) (values : List Value) : Prop :=
  ∀ k v, values[k]? = some v → ∃ type, types k = some type ∧ v.conforms type = true

namespace Fills

variable {types types' : Nat → Option TypeDescriptor} {values : List Value}

lemma mono (h : Fills types values)
    (hsame : ∀ k type, types k = some type → types' k = some type) : Fills types' values := by
  intro k v hv
  obtain ⟨type, htype, hconforms⟩ := h k v hv
  exact ⟨type, hsame k type htype, hconforms⟩

lemma set (h : Fills types values) {k : Nat} {v : Value}
    (hv : ∀ type, types k = some type → v.conforms type = true) : Fills types (values.set k v) := by
  intro k' v' hv'
  rw [List.getElem?_set] at hv'
  split_ifs at hv' with hk hlt
  · obtain rfl := Option.some.inj hv'
    subst hk
    obtain ⟨type, htype, -⟩ := h k values[k] (List.getElem?_eq_getElem hlt)
    exact ⟨type, htype, hv type htype⟩
  · exact h k' v' hv'

/-- Defaults fill slots that hold values. -/
lemma defaults {α : Type} {l : List α} {type : α → TypeDescriptor}
    (hvoid : ∀ (k : Nat) t, l[k]?.map type = some t → t ≠ .void) :
    Fills (fun k => l[k]?.map type) (l.map fun a => .default (type a)) := by
  intro k v hv
  rw [List.getElem?_map] at hv
  obtain ⟨a, ha, rfl⟩ := Option.map_eq_some_iff.mp hv
  have htype : l[k]?.map type = some (type a) := by rw [ha]; rfl
  exact ⟨type a, htype, Value.conforms_default (hvoid k _ htype)⟩

/-- Passed values are checked against the slots that they are put in. -/
lemma fillSlots {id : SiteId} {s : CaptureSite} {position : Nat}
    {captured captured' : List Value} (h : Fills s.slotType? captured)
    (hok : Machine.fillSlots id s position captured values = .ok captured') :
    Fills s.slotType? captured' := by
  induction values generalizing position captured with
  | nil =>
    obtain rfl := Except.ok.inj hok
    exact h
  | cons v rest ih =>
    simp only [Machine.fillSlots] at hok
    split at hok
    · cases hok
    · next slot _ =>
      split at hok
      · cases hok
      · next type htype =>
        split_ifs at hok with hconforms
        refine ih (h.set fun type' htype' => ?_) hok
        obtain rfl := Option.some.inj (htype.symm.trans htype')
        exact hconforms

end Fills

/-! ### Typed objects -/

/-- Whether an instance has the slots that the layout of its type has, filled with what conforms. -/
def Instance.Typed (r : Registry) (i : Instance) : Prop :=
  ∃ t, r.find? i.typeName = some t ∧ t.id = i.typeId ∧ i.slots.length = t.layout.size ∧
    Fills t.layout.slotType? i.slots

/-- Whether what a closure captured conforms to the slots of its site. -/
def Closure.Typed (r : Registry) (c : Closure) : Prop :=
  ∃ s, r.sites.find? c.site = some s ∧ Fills s.slotType? c.captured

/-- Whether an extension slot is of the type that its field has, and holds what conforms to it. -/
def ExtensionSlot.Typed (t : LiveType) (name : String) (x : ExtensionSlot) : Prop :=
  t.fieldType? name = some x.type ∧ x.value.conforms x.type = true

/-- A heap in which every value conforms to the type of its slot. -/
structure Heap.Typed (r : Registry) (h : Heap) : Prop where
  instances : ∀ id i, h.instance? id = some i → i.Typed r
  closures : ∀ id c, h.closure? id = some c → c.Typed r
  extensions : ∀ id name x, h.extensions.slot? id name = some x →
    ∃ i t, h.instance? id = some i ∧ r.find? i.typeName = some t ∧ x.Typed t name

namespace Heap

variable {r r' : Registry} {h h' : Heap} {t : LiveType} {id : ObjectId} {i : Instance}
  {name : String} {type : TypeDescriptor} {v : Value}

lemma typed_empty (r : Registry) : Typed r .empty := by
  constructor
  · intro id i hi
    simp [instance?, empty] at hi
  · intro id c hc
    simp [closure?, empty] at hc
  · intro id name x hx
    simp [empty, ExtensionStore.slot?, ExtensionStore.slotsOf, ExtensionStore.empty] at hx

/-- What happens to a registry leaves its heap typed. -/
theorem Typed.of_extends (hh : Typed r h) (hr' : r'.WellFormed) (hextends : r.Extends r') :
    Typed r' h := by
  constructor
  · intro id i hi
    obtain ⟨t, hfind, hid, hlength, hfills⟩ := hh.instances id i hi
    obtain ⟨t', hfind', hcontinues⟩ := hextends.find? hr' hfind
    refine ⟨t', hfind', hcontinues.id_eq.trans hid, ?_, ?_⟩ <;> rw [hcontinues.layout_eq]
    · exact hlength
    · exact hfills
  · intro id c hc
    obtain ⟨s, hs, hfills⟩ := hh.closures id c hc
    obtain ⟨s', hs', hevolves⟩ := hextends.sites c.site s hs
    refine ⟨s', hs', hfills.mono fun k type htype => ?_⟩
    rw [hevolves.slotType?_of (CaptureSite.lt_of_slotType? htype), htype]
  · intro id name x hx
    obtain ⟨i, t, hi, hfind, htype, hconforms⟩ := hh.extensions id name x hx
    obtain ⟨t', hfind', hcontinues⟩ := hextends.find? hr' hfind
    exact ⟨i, t', hi, hfind', hcontinues.fieldType?_of name x.type htype, hconforms⟩

/-! ### What may happen to a heap -/

lemma Typed.allocate (hh : Typed r h) {object : HeapObject}
    (hinstance : ∀ i, object = .instanceOf i → i.Typed r)
    (hclosure : ∀ c, object = .closureOf c → c.Typed r) : Typed r (h.allocate object).2 := by
  have hobject {id : ObjectId} {o : HeapObject} (ho : (h.allocate object).2.objects[id]? = some o) :
      object = o ∨ h.objects[id]? = some o := by
    rw [objects_allocate] at ho
    split_ifs at ho
    · exact .inl (Option.some.inj ho)
    · exact .inr ho
  constructor
  · intro id i hi
    rcases hobject (instance?_eq_some.mp hi) with hnew | hold
    · exact hinstance i hnew
    · exact hh.instances id i (instance?_eq_some.mpr hold)
  · intro id c hc
    rcases hobject (closure?_eq_some.mp hc) with hnew | hold
    · exact hclosure c hnew
    · exact hh.closures id c (closure?_eq_some.mpr hold)
  · intro id name x hx
    obtain ⟨i, t, hi, hfind, hx⟩ := hh.extensions id name x hx
    obtain ⟨i', hi', -, hname, -⟩ := (grows_allocate h object).instances id i hi
    exact ⟨i', t, hi', hname ▸ hfind, hx⟩

lemma typed_newInstance (hr : r.WellFormed) (hfind : r.find? t.name = some t) :
    (⟨t.id, t.name, t.layout.defaults⟩ : Instance).Typed r := by
  refine ⟨t, hfind, rfl, t.layout.length_defaults, ?_⟩
  exact .defaults fun k type htype => (hr.types t (Registry.mem_of_find? hfind)).slotType?_ne_void htype

lemma Typed.setSlot (hh : Typed r h) {k : Nat}
    (hv : ∀ i t, h.instance? id = some i → r.find? i.typeName = some t →
      ∀ type, t.layout.slotType? k = some type → v.conforms type = true) :
    Typed r (h.setSlot id k v) := by
  constructor
  · intro id' i' hi'
    rw [instance?_setSlot] at hi'
    obtain ⟨i, hi, rfl⟩ := Option.map_eq_some_iff.mp hi'
    obtain ⟨t, hfind, htid, hlength, hfills⟩ := hh.instances id' i hi
    split_ifs with hid
    · subst hid
      exact ⟨t, hfind, htid, List.length_set.trans hlength, hfills.set (hv i t hi hfind)⟩
    · exact ⟨t, hfind, htid, hlength, hfills⟩
  · intro id' c hc
    rw [closure?_setSlot] at hc
    exact hh.closures id' c hc
  · intro id' name x hx
    rw [extensions_setSlot] at hx
    obtain ⟨i, t, hi, hfind, hx⟩ := hh.extensions id' name x hx
    obtain ⟨i', hi', -, hname, -⟩ := (grows_setSlot h id k v).instances id' i hi
    exact ⟨i', t, hi', hname ▸ hfind, hx⟩

lemma Typed.setExtension (hh : Typed r h) {x : ExtensionSlot} (hi : h.instance? id = some i)
    (hfind : r.find? i.typeName = some t) (hx : x.Typed t name) :
    Typed r { h with extensions := h.extensions.setSlot id name x } := by
  refine ⟨hh.instances, hh.closures, fun id' name' x' hx' => ?_⟩
  rw [ExtensionStore.slot?_setSlot] at hx'
  split_ifs at hx' with hsame
  · obtain rfl := Option.some.inj hx'
    obtain ⟨rfl, rfl⟩ := hsame
    exact ⟨i, t, hi, hfind, hx⟩
  · exact hh.extensions id' name' x' hx'

/-- The slot of an extension field is typed, also before it is made. -/
lemma Typed.slot (hh : Typed r h) (hr : r.WellFormed) (hi : h.instance? id = some i)
    (hfind : r.find? i.typeName = some t) (htype : t.fieldType? name = some type) :
    (h.extensions.slot id name type).Typed t name := by
  unfold ExtensionStore.slot
  cases hslot : h.extensions.slot? id name with
  | none =>
    have ht := hr.types t (Registry.mem_of_find? hfind)
    exact ⟨htype, Value.conforms_default (ht.fieldType?_ne_void htype)⟩
  | some x =>
    obtain ⟨i', t', hi', hfind', hx⟩ := hh.extensions id name x hslot
    obtain rfl := Option.some.inj (hi.symm.trans hi')
    obtain rfl := Option.some.inj (hfind.symm.trans hfind')
    exact hx

/-- What the place of a field holds conforms to the type of the field. -/
lemma Typed.conforms_valueAt? (hh : Typed r h) (hr : r.WellFormed)
    (hfind : r.find? t.name = some t) (hheld : h.Holds (.object id t.name))
    {place : LiveType.FieldPlace} (hplace : t.fieldPlace? name = some place)
    (htype : t.fieldType? name = some type) (hv : h.valueAt? id name place = some v) :
    v.conforms type = true := by
  obtain ⟨i, hi, hname⟩ := hheld
  cases place with
  | slot k =>
    obtain ⟨i', hi', hv⟩ := Option.bind_eq_some_iff.mp hv
    obtain rfl := Option.some.inj (hi.symm.trans hi')
    obtain ⟨t', hfind', -, -, hfills⟩ := hh.instances id i hi
    rw [hname, hfind] at hfind'
    obtain rfl := Option.some.inj hfind'
    obtain ⟨type', hfield, hslot⟩ := (hr.types t (Registry.mem_of_find? hfind)).fieldType?_of_slot?
      (LiveType.fieldPlace?_eq_slot.mp hplace)
    obtain rfl := Option.some.inj (htype.symm.trans hfield)
    obtain ⟨type', hslot', hconforms⟩ := hfills k v hv
    obtain rfl := Option.some.inj (hslot.symm.trans hslot')
    exact hconforms
  | extension type' =>
    obtain rfl := Option.some.inj hv
    obtain rfl := Option.some.inj
      ((LiveType.fieldPlace?_eq_extension.mp hplace).2.symm.trans htype)
    obtain ⟨hslot, hconforms⟩ := hh.slot hr hi (hname ▸ hfind) htype
    rwa [← Option.some.inj (htype.symm.trans hslot)] at hconforms

/-- Creating typed closures and storing conforming values leaves a heap typed. -/
theorem Typed.effect (hh : Typed r h) (hr : r.WellFormed) {write : Option FieldWrite}
    (he : Effect r (Closure.Typed r) (fun v type => v.conforms type = true) h write h') :
    Typed r h' := by
  cases he with
  | same => exact hh
  | made hfind =>
    refine hh.allocate (fun i hi => ?_) (fun c hc => nomatch hc)
    obtain rfl := HeapObject.instanceOf.inj hi
    exact typed_newInstance hr hfind
  | closed hc =>
    refine hh.allocate (fun i hi => nomatch hi) (fun c' hc' => ?_)
    obtain rfl := HeapObject.closureOf.inj hc'
    exact hc
  | @touched t id name place hfind hheld hplace =>
    obtain ⟨i, hi, hname⟩ := hheld
    cases place with
    | slot k => exact hh
    | extension type =>
      have htype := (LiveType.fieldPlace?_eq_extension.mp hplace).2
      have hfind : r.find? i.typeName = some t := hname ▸ hfind
      exact hh.setExtension hi hfind (hh.slot hr hi hfind htype)
  | @stored t id name place v hfind hheld hplace hfits =>
    obtain ⟨i, hi, hname⟩ := hheld
    have ht := hr.types t (Registry.mem_of_find? hfind)
    have hfind : r.find? i.typeName = some t := hname ▸ hfind
    cases place with
    | slot k =>
      refine hh.setSlot fun i' t' hi' hfind' type htype => ?_
      obtain rfl := Option.some.inj (hi.symm.trans hi')
      obtain rfl := Option.some.inj (hfind.symm.trans hfind')
      obtain ⟨type', hfield, hslot⟩ :=
        ht.fieldType?_of_slot? (LiveType.fieldPlace?_eq_slot.mp hplace)
      obtain rfl := Option.some.inj (htype.symm.trans hslot)
      exact hfits type hfield
    | extension type =>
      have htype := (LiveType.fieldPlace?_eq_extension.mp hplace).2
      have hslot := (hh.slot hr hi hfind htype).1
      exact hh.setExtension hi hfind ⟨hslot, hfits _ hslot⟩

/-- Letting objects go leaves a heap typed. -/
theorem Typed.release (hh : Typed r h) (roots : List Value) : Typed r (h.release roots) := by
  refine release_induction hh fun h id hh => ?_
  refine ⟨hh.instances, hh.closures, fun id' name x hx => ?_⟩
  rw [ExtensionStore.slot?_release] at hx
  split_ifs at hx
  exact hh.extensions id' name x hx

end Heap

end LiveTypes
