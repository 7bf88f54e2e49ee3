import LiveTypes.Proofs.AssocMap
import LiveTypes.Proofs.Heap.Basic
import LiveTypes.Proofs.Registry.Extends

/-!
# Sound heaps

A heap belongs to a registry when its instances have the layouts of their types, its closures were
created at sites that are bound, and every value in it is there. Every operation on the heap keeps it
so, and so does everything that happens to the registry.
-/

namespace LiveTypes.Heap

variable {r r' : Registry} {h h' : Heap} {id : ObjectId} {v : Value}

def InstanceOf (r : Registry) (i : Instance) : Prop :=
  ∃ t, r.find? i.typeName = some t ∧ i.typeId = t.id ∧ i.slots.length = t.layout.size

/-- A heap of the objects of a registry. -/
structure Sound (r : Registry) (h : Heap) : Prop where
  instances : ∀ id i, h.instance? id = some i → InstanceOf r i
  closures : ∀ id c, h.closure? id = some c → ∃ s, r.sites.find? c.site = some s
  slots : ∀ id i, h.instance? id = some i → ∀ v ∈ i.slots, h.Holds v
  captured : ∀ id c, h.closure? id = some c → ∀ v ∈ c.captured ++ c.enclosing.toList, h.Holds v
  extensions : ∀ id, ∀ x ∈ (h.extensions.slotsOf id).values, h.Holds x.value

lemma sound_empty (r : Registry) : Sound r .empty := by
  constructor <;> intro id <;> simp [instance?, closure?, empty, ExtensionStore.slotsOf,
    ExtensionStore.empty, AssocMap.values, AssocMap.empty]

/-- What happens to a registry leaves its heap sound. -/
lemma Sound.of_extends (hs : Sound r h) (hr' : r'.WellFormed) (hr : r.Extends r') : Sound r' h where
  instances id i hi := by
    obtain ⟨t, ht, hid, hlength⟩ := hs.instances id i hi
    obtain ⟨t', ht', hcontinues⟩ := hr.find? hr' ht
    exact ⟨t', ht', hid.trans hcontinues.id_eq.symm, by rw [hlength, hcontinues.layout_eq]⟩
  closures id c hc := by
    obtain ⟨s, hs⟩ := hs.closures id c hc
    obtain ⟨s', hs', -⟩ := hr.sites c.site s hs
    exact ⟨s', hs'⟩
  slots := hs.slots
  captured := hs.captured
  extensions := hs.extensions

/-- Whether an object may be made in the heap of a registry. -/
def Admits (r : Registry) (h : Heap) : HeapObject → Prop
  | .instanceOf i => InstanceOf r i ∧ ∀ v ∈ i.slots, h.Holds v
  | .closureOf c =>
    (∃ s, r.sites.find? c.site = some s) ∧ ∀ v ∈ c.captured ++ c.enclosing.toList, h.Holds v

lemma Sound.allocate (hs : Sound r h) {o : HeapObject} (ho : Admits r h o) :
    Sound r (h.allocate o).2 := by
  have hgrows := grows_allocate h o
  have hobject {id : ObjectId} {o' : HeapObject} (h' : (h.allocate o).2.objects[id]? = some o') :
      o = o' ∨ h.objects[id]? = some o' := by
    rw [objects_allocate] at h'
    split_ifs at h' with hid
    · exact .inl (Option.some.inj h')
    · exact .inr h'
  constructor
  · intro id i hi
    rcases hobject (instance?_eq_some.mp hi) with rfl | hold
    · exact ho.1
    · exact hs.instances id i (instance?_eq_some.mpr hold)
  · intro id c hc
    rcases hobject (closure?_eq_some.mp hc) with rfl | hold
    · exact ho.1
    · exact hs.closures id c (closure?_eq_some.mpr hold)
  · intro id i hi v hv
    apply Holds.grows _ hgrows
    rcases hobject (instance?_eq_some.mp hi) with rfl | hold
    · exact ho.2 v hv
    · exact hs.slots id i (instance?_eq_some.mpr hold) v hv
  · intro id c hc v hv
    apply Holds.grows _ hgrows
    rcases hobject (closure?_eq_some.mp hc) with rfl | hold
    · exact ho.2 v hv
    · exact hs.captured id c (closure?_eq_some.mpr hold) v hv
  · intro id x hx
    exact (hs.extensions id x hx).grows hgrows

lemma Sound.setSlot (hs : Sound r h) {slot : Nat} (hv : h.Holds v) :
    Sound r (h.setSlot id slot v) := by
  have hgrows := grows_setSlot h id slot v
  have hold {id' : ObjectId} {i' : Instance} (hi' : (h.setSlot id slot v).instance? id' = some i') :
      ∃ i, h.instance? id' = some i ∧ i'.typeId = i.typeId ∧ i'.typeName = i.typeName ∧
        i'.slots.length = i.slots.length ∧ ∀ w ∈ i'.slots, w ∈ i.slots ∨ w = v := by
    rw [instance?_setSlot] at hi'
    obtain ⟨i, hi, rfl⟩ := Option.map_eq_some_iff.mp hi'
    refine ⟨i, hi, ?_⟩
    split
    · exact ⟨rfl, rfl, List.length_set, fun w hw => List.mem_or_eq_of_mem_set hw⟩
    · exact ⟨rfl, rfl, rfl, fun w hw => .inl hw⟩
  constructor
  · intro id' i' hi'
    obtain ⟨i, hi, hid, hname, hlength, -⟩ := hold hi'
    obtain ⟨t, ht, htid, htlength⟩ := hs.instances id' i hi
    exact ⟨t, by rwa [hname], hid.trans htid, hlength.trans htlength⟩
  · intro id' c hc
    rw [closure?_setSlot] at hc
    exact hs.closures id' c hc
  · intro id' i' hi' w hw
    apply Holds.grows _ hgrows
    obtain ⟨i, hi, -, -, -, hslots⟩ := hold hi'
    rcases hslots w hw with hw | rfl
    · exact hs.slots id' i hi w hw
    · exact hv
  · intro id' c hc w hw
    rw [closure?_setSlot] at hc
    exact (hs.captured id' c hc w hw).grows hgrows
  · intro id' x hx
    rw [extensions_setSlot] at hx
    exact (hs.extensions id' x hx).grows hgrows

/-- A heap with the same objects, whose extension slots hold values that are there. -/
lemma Sound.of_extensions (hs : Sound r h) (hobjects : h'.objects = h.objects)
    (hslots : ∀ id, ∀ x ∈ (h'.extensions.slotsOf id).values, h.Holds x.value) :
    Sound r h' := by
  have hgrows : h.Grows h' := .of_objects_eq hobjects
  have hinstance (id : ObjectId) : h'.instance? id = h.instance? id := by
    rw [instance?, hobjects, instance?]
  have hclosure (id : ObjectId) : h'.closure? id = h.closure? id := by
    rw [closure?, hobjects, closure?]
  constructor
  · intro id i hi
    exact hs.instances id i (hinstance id ▸ hi)
  · intro id c hc
    exact hs.closures id c (hclosure id ▸ hc)
  · intro id i hi v hv
    exact (hs.slots id i (hinstance id ▸ hi) v hv).grows hgrows
  · intro id c hc v hv
    exact (hs.captured id c (hclosure id ▸ hc) v hv).grows hgrows
  · intro id x hx
    exact (hslots id x hx).grows hgrows

/-- The slot of an extension field holds a value that is there, also before it is made. -/
lemma Sound.holds_slot (hs : Sound r h) (id : ObjectId) (name : String) (type : TypeDescriptor) :
    h.Holds (h.extensions.slot id name type).value := by
  unfold ExtensionStore.slot
  cases hx : h.extensions.slot? id name with
  | none => exact holds_default h type
  | some x => exact hs.extensions id x (AssocMap.mem_values_of_find? hx)

lemma slotsOf_setSlot (s : ExtensionStore) (id id' : ObjectId) (name : String) (x : ExtensionSlot) :
    (s.setSlot id name x).slotsOf id' =
      if id = id' then (s.slotsOf id).insert name x else s.slotsOf id' := by
  unfold ExtensionStore.setSlot ExtensionStore.slotsOf
  by_cases hid : id = id'
  · subst hid
    simp
  · simp [Std.ExtTreeMap.getD_insert, hid]

lemma slotsOf_release (s : ExtensionStore) (id id' : ObjectId) :
    (s.release id).slotsOf id' = if id = id' then .empty else s.slotsOf id' := by
  unfold ExtensionStore.release ExtensionStore.slotsOf
  by_cases hid : id = id'
  · simp [hid]
  · simp [Std.ExtTreeMap.getD_erase, hid]

lemma Sound.setExtension (hs : Sound r h) {name : String} {x : ExtensionSlot}
    (hx : h.Holds x.value) :
    Sound r { h with extensions := h.extensions.setSlot id name x } := by
  refine hs.of_extensions rfl fun id' x' hx' => ?_
  rw [slotsOf_setSlot] at hx'
  split_ifs at hx'
  · rcases AssocMap.mem_values_insert hx' with rfl | hx'
    · exact hx
    · exact hs.extensions id x' hx'
  · exact hs.extensions id' x' hx'

lemma Sound.storeAt (hs : Sound r h) {name : String} (hv : h.Holds v)
    (place : LiveType.FieldPlace) : Sound r (h.storeAt id name v place) := by
  cases place with
  | slot slot => exact hs.setSlot hv
  | extension type => exact hs.setExtension hv

lemma Sound.touchAt (hs : Sound r h) (name : String) (place : LiveType.FieldPlace) :
    Sound r (h.touchAt id name place) := by
  cases place with
  | slot slot => exact hs
  | extension type => exact hs.setExtension (hs.holds_slot id name type)

lemma Sound.valueAt? (hs : Sound r h) {name : String} {place : LiveType.FieldPlace}
    (hv : h.valueAt? id name place = some v) : h.Holds v := by
  cases place with
  | slot slot =>
    obtain ⟨i, hi, hslot⟩ := Option.bind_eq_some_iff.mp hv
    exact hs.slots id i hi v (List.mem_of_getElem? hslot)
  | extension type =>
    obtain rfl := Option.some.inj hv
    exact hs.holds_slot id name type

lemma Sound.release (hs : Sound r h) (roots : List Value) : Sound r (h.release roots) := by
  refine release_induction hs fun h id hs => hs.of_extensions rfl fun id' x hx => ?_
  rw [slotsOf_release] at hx
  split_ifs at hx
  · cases hx
  · exact hs.extensions id' x hx

end LiveTypes.Heap
