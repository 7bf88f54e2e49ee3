import LiveTypes.Registry.Field
import Mathlib.Tactic.Common

/-!
# Objects of a heap

No operation on a heap takes an object away or changes what it is: an instance keeps its type and the
number of its slots, and a closure keeps everything (`Grows`).
-/

namespace LiveTypes.Heap

variable {h h' h'' : Heap} {id id' : ObjectId} {i : Instance} {c : Closure} {v : Value}

/-! ### Growing -/

/-- Whether every object of a heap is still what it was in another. -/
structure Grows (h h' : Heap) : Prop where
  instances : ∀ id i, h.instance? id = some i → ∃ i', h'.instance? id = some i' ∧
    i'.typeId = i.typeId ∧ i'.typeName = i.typeName ∧ i'.slots.length = i.slots.length
  closures : ∀ id c, h.closure? id = some c → h'.closure? id = some c

lemma Grows.refl (h : Heap) : h.Grows h :=
  ⟨fun _ i hi => ⟨i, hi, rfl, rfl, rfl⟩, fun _ _ hc => hc⟩

lemma Grows.trans (hg : h.Grows h') (hg' : h'.Grows h'') : h.Grows h'' where
  instances id i hi := by
    obtain ⟨i', hi', hid, hname, hlength⟩ := hg.instances id i hi
    obtain ⟨i'', hi'', hid', hname', hlength'⟩ := hg'.instances id i' hi'
    exact ⟨i'', hi'', hid'.trans hid, hname'.trans hname, hlength'.trans hlength⟩
  closures id c hc := hg'.closures id c (hg.closures id c hc)

lemma Grows.of_objects_eq (heq : h'.objects = h.objects) : h.Grows h' := by
  refine ⟨fun id i hi => ⟨i, ?_, rfl, rfl, rfl⟩, fun id c hc => ?_⟩
  · rwa [instance?, heq]
  · rwa [closure?, heq]

/-! ### Operations -/

lemma instance?_eq_some : h.instance? id = some i ↔ h.objects[id]? = some (.instanceOf i) := by
  unfold instance?
  split <;> simp_all

lemma closure?_eq_some : h.closure? id = some c ↔ h.objects[id]? = some (.closureOf c) := by
  unfold closure?
  split <;> simp_all

lemma objects_allocate (h : Heap) (o : HeapObject) (id : ObjectId) :
    (h.allocate o).2.objects[id]? = if id = h.objects.size then some o else h.objects[id]? := by
  rw [allocate, Array.getElem?_push]

lemma grows_allocate (h : Heap) (o : HeapObject) : h.Grows (h.allocate o).2 := by
  have hold {id : ObjectId} {o' : HeapObject} (ho : h.objects[id]? = some o') :
      (h.allocate o).2.objects[id]? = some o' := by
    have hlt := (Array.getElem?_eq_some_iff.mp ho).1
    rw [objects_allocate, if_neg (Nat.ne_of_lt hlt), ho]
  constructor
  · intro id i hi
    exact ⟨i, instance?_eq_some.mpr (hold (instance?_eq_some.mp hi)), rfl, rfl, rfl⟩
  · intro id c hc
    exact closure?_eq_some.mpr (hold (closure?_eq_some.mp hc))

lemma instance?_setSlot (h : Heap) (id id' : ObjectId) (slot : Nat) (v : Value) :
    (h.setSlot id slot v).instance? id' =
      (h.instance? id').map fun i =>
        if id = id' then { i with slots := i.slots.set slot v } else i := by
  unfold setSlot
  cases hi : h.instance? id with
  | none =>
    by_cases heq : id = id'
    · subst heq
      simp [hi]
    · simp [heq]
  | some i =>
    have hobject := instance?_eq_some.mp hi
    have hlt := (Array.getElem?_eq_some_iff.mp hobject).1
    by_cases heq : id = id'
    · subst heq
      rw [hi]
      simp [instance?, hlt]
    · simp [instance?, heq]

lemma closure?_setSlot (h : Heap) (id id' : ObjectId) (slot : Nat) (v : Value) :
    (h.setSlot id slot v).closure? id' = h.closure? id' := by
  unfold setSlot
  cases hi : h.instance? id with
  | none => rfl
  | some i =>
    have hobject := instance?_eq_some.mp hi
    have hlt := (Array.getElem?_eq_some_iff.mp hobject).1
    by_cases heq : id = id'
    · subst heq
      rw [closure?, closure?, hobject, Array.getElem?_setIfInBounds_self_of_lt hlt]
    · simp [closure?, heq]

lemma extensions_setSlot (h : Heap) (id : ObjectId) (slot : Nat) (v : Value) :
    (h.setSlot id slot v).extensions = h.extensions := by
  unfold setSlot
  split <;> rfl

lemma grows_setSlot (h : Heap) (id : ObjectId) (slot : Nat) (v : Value) :
    h.Grows (h.setSlot id slot v) := by
  constructor
  · intro id' i hi
    rw [instance?_setSlot, hi]
    refine ⟨_, rfl, ?_⟩
    split <;> simp
  · intro id' c hc
    rwa [closure?_setSlot]

lemma grows_storeAt (h : Heap) (id : ObjectId) (name : String) (v : Value)
    (place : LiveType.FieldPlace) : h.Grows (h.storeAt id name v place) := by
  cases place with
  | slot slot => exact grows_setSlot h id slot v
  | extension type => exact .of_objects_eq rfl

lemma grows_touchAt (h : Heap) (id : ObjectId) (name : String) (place : LiveType.FieldPlace) :
    h.Grows (h.touchAt id name place) := by
  cases place with
  | slot slot => exact .refl h
  | extension type => exact .of_objects_eq rfl

lemma closure?_storeAt (h : Heap) (id id' : ObjectId) (name : String) (v : Value)
    (place : LiveType.FieldPlace) : (h.storeAt id name v place).closure? id' = h.closure? id' := by
  cases place with
  | slot slot => exact closure?_setSlot h id id' slot v
  | extension type => rfl

lemma closure?_touchAt (h : Heap) (id id' : ObjectId) (name : String)
    (place : LiveType.FieldPlace) : (h.touchAt id name place).closure? id' = h.closure? id' := by
  cases place <;> rfl

/-- What survives the release of every single object survives a release. -/
lemma release_induction {P : Heap → Prop} {roots : List Value} (hp : P h)
    (single : ∀ h id, P h → P { h with extensions := h.extensions.release id }) :
    P (h.release roots) := by
  have hall (n : Nat) : ∀ counts free h, P h → P (releaseAll n counts free h) := by
    induction n with
    | zero =>
      intro counts free h hp
      rwa [releaseAll]
    | succ n ih =>
      intro counts free h hp
      cases free with
      | nil => rwa [releaseAll]; simp
      | cons id rest =>
        rw [releaseAll]
        exact ih _ _ _ (single h id hp)
  unfold release
  split
  · exact hp
  · exact hall _ _ _ _ hp

lemma objects_release (h : Heap) (roots : List Value) : (h.release roots).objects = h.objects :=
  release_induction (P := fun h' => h'.objects = h.objects) rfl fun _ _ hp => hp

lemma closure?_release (h : Heap) (roots : List Value) (id : ObjectId) :
    (h.release roots).closure? id = h.closure? id := by
  rw [closure?, objects_release, closure?]

lemma readField_eq_some {t : LiveType} {name : String} :
    h.readField t id name = some (v, h') ↔ ∃ place, t.fieldPlace? name = some place ∧
      h.valueAt? id name place = some v ∧ h' = h.touchAt id name place := by
  simp only [readField, Option.bind_eq_bind, Option.bind_eq_some_iff, Option.pure_def,
    Option.some.injEq, Prod.mk.injEq]
  constructor
  · rintro ⟨place, hplace, _, hv, rfl, rfl⟩
    exact ⟨place, hplace, hv, rfl⟩
  · rintro ⟨place, hplace, hv, rfl⟩
    exact ⟨place, hplace, v, hv, rfl, rfl⟩

lemma writeField_eq_some {t : LiveType} {name : String} :
    h.writeField t id name v = some h' ↔ ∃ place, t.fieldPlace? name = some place ∧
      (∃ old, h.valueAt? id name place = some old) ∧ h' = h.storeAt id name v place := by
  simp only [writeField, Option.bind_eq_bind, Option.bind_eq_some_iff, Option.pure_def,
    Option.some.injEq]
  constructor
  · rintro ⟨place, hplace, old, hold, rfl⟩
    exact ⟨place, hplace, ⟨old, hold⟩, rfl⟩
  · rintro ⟨place, hplace, ⟨old, hold⟩, rfl⟩
    exact ⟨place, hplace, old, hold, rfl⟩

lemma grows_of_writeField {t : LiveType} {name : String} (hwrite : h.writeField t id name v = some h') :
    h.Grows h' := by
  obtain ⟨place, -, -, rfl⟩ := writeField_eq_some.mp hwrite
  exact grows_storeAt h id name v place

/-! ### Values that are there -/

/-- Whether the object that a value refers to is there, with the type that the value says. -/
def Holds (h : Heap) : Value → Prop
  | .object id typeName => ∃ i, h.instance? id = some i ∧ i.typeName = typeName
  | .closure id => ∃ c, h.closure? id = some c
  | _ => True

lemma Holds.grows (hv : h.Holds v) (hg : h.Grows h') : h'.Holds v := by
  cases v with
  | object id typeName =>
    obtain ⟨i, hi, rfl⟩ := hv
    obtain ⟨i', hi', -, hname, -⟩ := hg.instances id i hi
    exact ⟨i', hi', hname⟩
  | closure id =>
    obtain ⟨c, hc⟩ := hv
    exact ⟨c, hg.closures id c hc⟩
  | _ => trivial

lemma holds_default (h : Heap) (type : TypeDescriptor) : h.Holds (.default type) := by
  cases type <;> trivial

end LiveTypes.Heap
