import LiveTypes.Machine.Step
import LiveTypes.Proofs.Heap.Basic
import LiveTypes.Proofs.Registry.Fields

/-!
# Fields of an object over time

Whatever happens to a heap is one of a few effects, and only one of them writes a field. For a single
object the log of the writes says all about its fields: each holds what was last written to it, or the
default of its type (`Tracks`). Its place in the heap is never at issue, whether it is a slot or an
extension slot that is made when the field is first touched.
-/

namespace LiveTypes

/-! ### Logs -/

/-- A value that was written to a field of an object. -/
structure FieldWrite where
  object : ObjectId
  field : String
  value : Value

/-- The value last written to a field of an object, the newest write first. -/
def lastWritten? (id : ObjectId) (name : String) : List FieldWrite → Option Value
  | [] => none
  | w :: rest => if w.object = id ∧ w.field = name then some w.value else lastWritten? id name rest

lemma lastWritten?_of_ne {id : ObjectId} {name : String} {w : FieldWrite} {log : List FieldWrite}
    (h : w.object = id → w.field ≠ name) :
    lastWritten? id name (w :: log) = lastWritten? id name log :=
  if_neg fun ⟨hid, hname⟩ => h hid hname

/-- What a field of a type holds after the writes of a log. -/
def loggedValue (id : ObjectId) (name : String) (type : TypeDescriptor) (log : List FieldWrite) :
    Value :=
  (lastWritten? id name log).getD (.default type)

namespace Heap

variable {r r' : Registry} {h h' : Heap} {t : LiveType} {id id' o : ObjectId} {name name' : String}
  {v old : Value} {place place' : LiveType.FieldPlace}

lemma lt_of_instance? {i : Instance} (hi : h.instance? id = some i) : id < h.objects.size :=
  (Array.getElem?_eq_some_iff.mp (instance?_eq_some.mp hi)).1

lemma size_allocate (h : Heap) (object : HeapObject) :
    (h.allocate object).2.objects.size = h.objects.size + 1 :=
  Array.size_push ..

/-! ### Values at places -/

lemma getSlot?_setSlot_self {k : Nat} (hold : h.getSlot? id k = some old) :
    (h.setSlot id k v).getSlot? id k = some v := by
  obtain ⟨i, hi, hslot⟩ := Option.bind_eq_some_iff.mp hold
  have hlt := (List.getElem?_eq_some_iff.mp hslot).1
  rw [getSlot?, instance?_setSlot, hi]
  simp [hlt]

lemma getSlot?_setSlot_of_ne {k k' : Nat} (hne : id = id' → k ≠ k') :
    (h.setSlot id k v).getSlot? id' k' = h.getSlot? id' k' := by
  rw [getSlot?, instance?_setSlot, getSlot?]
  cases hi : h.instance? id' with
  | none => rfl
  | some i =>
    by_cases hid : id = id'
    · simp [hid, List.getElem?_set_ne (hne hid)]
    · simp [hid]

/-- What was stored at a place is there. -/
lemma valueAt?_storeAt_self (hold : h.valueAt? id name place = some old) :
    (h.storeAt id name v place).valueAt? id name place = some v := by
  cases place with
  | slot k => exact getSlot?_setSlot_self hold
  | extension type =>
    simp [storeAt, valueAt?, ExtensionStore.read, ExtensionStore.slot, ExtensionStore.write]

/-- A store changes no other field of the object, and no field of another. -/
lemma valueAt?_storeAt_of_ne
    (hplace : id = id' → t.fieldPlace? name = some place ∧ t.fieldPlace? name' = some place')
    (hne : id = id' → name ≠ name') :
    (h.storeAt id name v place).valueAt? id' name' place' = h.valueAt? id' name' place' := by
  cases place with
  | slot k =>
    cases place' with
    | slot k' =>
      refine getSlot?_setSlot_of_ne fun hid hk => hne hid ?_
      obtain ⟨hslot, hslot'⟩ := hplace hid
      subst hk
      exact Layout.slot?_inj (LiveType.fieldPlace?_eq_slot.mp hslot)
        (LiveType.fieldPlace?_eq_slot.mp hslot')
    | extension type' =>
      show some ((h.setSlot id k v).extensions.read id' name' type') = _
      rw [extensions_setSlot]
      rfl
  | extension type =>
    cases place' with
    | slot k' => rfl
    | extension type' =>
      have hneither : ¬ (id = id' ∧ name = name') := fun heq => hne heq.1 heq.2
      simp [storeAt, valueAt?, ExtensionStore.read, ExtensionStore.slot, ExtensionStore.write,
        hneither]

/-- Touching a field changes no value. -/
lemma valueAt?_touchAt
    (hplace : id = id' → t.fieldPlace? name = some place ∧ t.fieldPlace? name' = some place') :
    (h.touchAt id name place).valueAt? id' name' place' = h.valueAt? id' name' place' := by
  cases place with
  | slot k => rfl
  | extension type =>
    cases place' with
    | slot k' => rfl
    | extension type' =>
      by_cases hsame : id = id' ∧ name = name'
      · obtain ⟨rfl, rfl⟩ := hsame
        obtain ⟨hfield, hfield'⟩ := hplace rfl
        obtain rfl := LiveType.FieldPlace.extension.inj
          (Option.some.inj (hfield.symm.trans hfield'))
        simp [touchAt, valueAt?, ExtensionStore.read, ExtensionStore.slot, ExtensionStore.touch]
      · simp [touchAt, valueAt?, ExtensionStore.read, ExtensionStore.slot, ExtensionStore.touch,
          hsame]

/-- An extension slot of a field is made only at that field. -/
lemma slot?_storeAt_of_ne (hne : id = id' → name ≠ name') :
    (h.storeAt id name v place).extensions.slot? id' name' = h.extensions.slot? id' name' := by
  cases place with
  | slot k => rw [storeAt, extensions_setSlot]
  | extension type =>
    have hneither : ¬ (id = id' ∧ name = name') := fun heq => hne heq.1 heq.2
    simp [storeAt, ExtensionStore.write, hneither]

lemma slot?_touchAt_of_ne (hne : id = id' → name ≠ name') :
    (h.touchAt id name place).extensions.slot? id' name' = h.extensions.slot? id' name' := by
  cases place with
  | slot k => rfl
  | extension type =>
    have hneither : ¬ (id = id' ∧ name = name') := fun heq => hne heq.1 heq.2
    simp [touchAt, ExtensionStore.touch, hneither]


/-! ### Effects -/

/-- What may happen to the heap of a registry, with the write that it is, if it is one. It is given
which closures may be created, and which values may be stored in a field of a type. -/
inductive Effect (r : Registry) (closes : Closure → Prop) (fits : Value → TypeDescriptor → Prop)
    (h : Heap) : Option FieldWrite → Heap → Prop where
  | same : Effect r closes fits h none h
  | made {t : LiveType} (registered : r.find? t.name = some t) :
      Effect r closes fits h none (h.allocate (Machine.newInstance t)).2
  | closed {c : Closure} (created : closes c) :
      Effect r closes fits h none (h.allocate (.closureOf c)).2
  | touched {t : LiveType} {id : ObjectId} {name : String} {place : LiveType.FieldPlace}
      (registered : r.find? t.name = some t) (held : h.Holds (.object id t.name))
      (place_eq : t.fieldPlace? name = some place) :
      Effect r closes fits h none (h.touchAt id name place)
  | stored {t : LiveType} {id : ObjectId} {name : String} {place : LiveType.FieldPlace} {v : Value}
      (registered : r.find? t.name = some t) (held : h.Holds (.object id t.name))
      (place_eq : t.fieldPlace? name = some place)
      (fitting : ∀ type, t.fieldType? name = some type → fits v type) :
      Effect r closes fits h (some ⟨id, name, v⟩) (h.storeAt id name v place)

/-- An effect when any closure may be created and any value may be stored. -/
abbrev AnyEffect (r : Registry) (h : Heap) : Option FieldWrite → Heap → Prop :=
  Effect r (fun _ => True) (fun _ _ => True) h

/-- Whether the fields of an object hold what the log of all writes says. A field that no version
declares has no extension slot, and was never written; nor was an object before it was made. -/
structure Tracks (r : Registry) (log : List FieldWrite) (o : ObjectId) (h : Heap) : Prop where
  unborn : h.objects.size ≤ o → ∀ name,
    h.extensions.slot? o name = none ∧ lastWritten? o name log = none
  registered : ∀ i, h.instance? o = some i → ∃ t, r.find? i.typeName = some t
  value : ∀ i t, h.instance? o = some i → r.find? i.typeName = some t →
    ∀ name type place, t.fieldType? name = some type → t.fieldPlace? name = some place →
      h.valueAt? o name place = some (loggedValue o name type log)
  undeclared : ∀ i t, h.instance? o = some i → r.find? i.typeName = some t →
    ∀ name, t.fieldType? name = none →
      h.extensions.slot? o name = none ∧ lastWritten? o name log = none

variable {log : List FieldWrite} {write : Option FieldWrite} {closes : Closure → Prop}
  {fits : Value → TypeDescriptor → Prop}

lemma Effect.mono (he : Effect r closes fits h write h') {closes' : Closure → Prop}
    {fits' : Value → TypeDescriptor → Prop} (hcloses : ∀ c, closes c → closes' c)
    (hfits : ∀ v type, fits v type → fits' v type) : Effect r closes' fits' h write h' := by
  cases he with
  | same => exact .same
  | made hfind => exact .made hfind
  | closed hc => exact .closed (hcloses _ hc)
  | touched hfind hheld hplace => exact .touched hfind hheld hplace
  | stored hfind hheld hplace hfit =>
    exact .stored hfind hheld hplace fun type htype => hfits _ type (hfit type htype)

lemma Effect.any (he : Effect r closes fits h write h') : AnyEffect r h write h' :=
  he.mono (fun _ _ => trivial) fun _ _ _ => trivial

lemma tracks_empty (r : Registry) (o : ObjectId) : Tracks r [] o .empty := by
  constructor
  · intro _ name
    simp [lastWritten?, empty, ExtensionStore.slot?, ExtensionStore.slotsOf, ExtensionStore.empty]
  all_goals
    intro i
    simp [instance?, empty]

/-- An object that is made later does not matter. -/
lemma Tracks.allocate_of_lt (ht : Tracks r log o h) {object : HeapObject}
    (hlt : o < h.objects.size) : Tracks r log o (h.allocate object).2 := by
  have hobject : (h.allocate object).2.objects[o]? = h.objects[o]? := by
    rw [objects_allocate, if_neg (Nat.ne_of_lt hlt)]
  have hinstance : (h.allocate object).2.instance? o = h.instance? o := by
    rw [instance?, hobject, instance?]
  constructor
  · intro hle
    rw [size_allocate] at hle
    exact absurd hlt (Nat.not_lt.mpr (Nat.le_of_succ_le hle))
  · intro i hi
    exact ht.registered i (hinstance ▸ hi)
  · intro i t hi hfind name type place htype hplace
    rw [← ht.value i t (hinstance ▸ hi) hfind name type place htype hplace]
    cases place with
    | slot k => rw [valueAt?, getSlot?, hinstance, valueAt?, getSlot?]
    | extension type => rfl
  · intro i t hi hfind name hnone
    exact ht.undeclared i t (hinstance ▸ hi) hfind name hnone

lemma Tracks.of_none (hnone : h.instance? o = none)
    (hunborn : h.objects.size ≤ o → ∀ name,
      h.extensions.slot? o name = none ∧ lastWritten? o name log = none) : Tracks r log o h := by
  have hnever {i : Instance} (hi : h.instance? o = some i) : False := by
    rw [hnone] at hi
    cases hi
  exact ⟨hunborn, fun i hi => (hnever hi).elim, fun i t hi => (hnever hi).elim,
    fun i t hi => (hnever hi).elim⟩

/-- An object that is made before it does not matter either, nor does a closure. -/
lemma Tracks.allocate_of_none (ht : Tracks r log o h) {object : HeapObject}
    (hle : h.objects.size ≤ o) (hnone : (h.allocate object).2.instance? o = none) :
    Tracks r log o (h.allocate object).2 :=
  .of_none hnone fun _ => ht.unborn hle

lemma instance?_allocate_of_gt {object : HeapObject} (hlt : h.objects.size < o) :
    (h.allocate object).2.instance? o = none := by
  rw [instance?, objects_allocate, if_neg (Nat.ne_of_gt hlt),
    Array.getElem?_eq_none (Nat.le_of_lt hlt)]

lemma instance?_allocate_closure (c : Closure) :
    (h.allocate (.closureOf c)).2.instance? h.objects.size = none := by
  rw [instance?, objects_allocate, if_pos rfl]

/-- The fields of an object that was just made hold their defaults. -/
lemma Tracks.made (ht : Tracks r log h.objects.size h) (hr : r.WellFormed)
    (hfind : r.find? t.name = some t) :
    Tracks r log h.objects.size (h.allocate (Machine.newInstance t)).2 := by
  obtain hfresh := ht.unborn (Nat.le_refl _)
  have hinstance : (h.allocate (Machine.newInstance t)).2.instance? h.objects.size =
      some ⟨t.id, t.name, t.layout.defaults⟩ := by
    refine instance?_eq_some.mpr ?_
    rw [objects_allocate, if_pos rfl]
    rfl
  constructor
  · intro hle
    rw [size_allocate] at hle
    omega
  · intro i hi
    obtain rfl := Option.some.inj (hinstance.symm.trans hi)
    exact ⟨t, hfind⟩
  · intro i t' hi hfind' name type place htype hplace
    obtain rfl := Option.some.inj (hinstance.symm.trans hi)
    obtain rfl := Option.some.inj (hfind.symm.trans hfind')
    obtain ⟨hslot, hnever⟩ := hfresh name
    rw [loggedValue, hnever]
    cases place with
    | slot k =>
      obtain ⟨type', htype', hk⟩ := (hr.types t (Registry.mem_of_find? hfind)).fieldType?_of_slot?
        (LiveType.fieldPlace?_eq_slot.mp hplace)
      obtain rfl := Option.some.inj (htype.symm.trans htype')
      obtain ⟨f, hf, rfl⟩ := Option.map_eq_some_iff.mp hk
      rw [valueAt?, getSlot?, hinstance]
      simp [Layout.defaults, hf]
    | extension type' =>
      obtain rfl := Option.some.inj
        (htype.symm.trans (LiveType.fieldPlace?_eq_extension.mp hplace).2)
      have hslot' : (h.allocate (Machine.newInstance t)).2.extensions.slot? h.objects.size name =
        none := hslot
      simp [valueAt?, ExtensionStore.read, ExtensionStore.slot, hslot']
  · intro i t' _ _ name _
    exact hfresh name

lemma instance?_storeAt {i : Instance} (hi : (h.storeAt id name v place).instance? o = some i) :
    ∃ i', h.instance? o = some i' ∧ i'.typeName = i.typeName := by
  cases place with
  | slot k =>
    rw [storeAt, instance?_setSlot] at hi
    obtain ⟨i', hi', rfl⟩ := Option.map_eq_some_iff.mp hi
    refine ⟨i', hi', ?_⟩
    split <;> rfl
  | extension type => exact ⟨i, hi, rfl⟩

lemma size_storeAt : (h.storeAt id name v place).objects.size = h.objects.size := by
  cases place with
  | slot k =>
    show (h.setSlot id k v).objects.size = _
    unfold setSlot
    split
    · exact Array.size_setIfInBounds
    · rfl
  | extension type => rfl

lemma objects_touchAt : (h.touchAt id name place).objects = h.objects := by
  cases place <;> rfl

/-- The type of an object is that of a reference to it. -/
lemma eq_of_holds {t' : LiveType} {i : Instance} (hheld : h.Holds (.object o t.name))
    (hfind : r.find? t.name = some t) (hi : h.instance? o = some i)
    (hfind' : r.find? i.typeName = some t') : t' = t := by
  obtain ⟨i', hi', hname⟩ := hheld
  obtain rfl := Option.some.inj (hi.symm.trans hi')
  rw [hname, hfind] at hfind'
  exact (Option.some.inj hfind').symm

/-- A store is what the log says, once the log has it. -/
lemma Tracks.stored (ht : Tracks r log o h) (hr : r.WellFormed)
    (hfind : r.find? t.name = some t) (hheld : h.Holds (.object id t.name))
    (hplace : t.fieldPlace? name = some place) :
    Tracks r (⟨id, name, v⟩ :: log) o (h.storeAt id name v place) := by
  have hsame {i : Instance} {t' : LiveType} (hi : h.instance? o = some i)
      (hfind' : r.find? i.typeName = some t') (hid : id = o) : t' = t :=
    eq_of_holds (hid ▸ hheld) hfind hi hfind'
  constructor
  · intro hle name'
    rw [size_storeAt] at hle
    have hne : id ≠ o := by
      rintro rfl
      obtain ⟨i, hi, -⟩ := hheld
      exact absurd (lt_of_instance? hi) (Nat.not_lt.mpr hle)
    rw [slot?_storeAt_of_ne fun hid => absurd hid hne, lastWritten?_of_ne fun hid => absurd hid hne]
    exact ht.unborn hle name'
  · intro i hi
    obtain ⟨i', hi', hname⟩ := instance?_storeAt hi
    exact hname ▸ ht.registered i' hi'
  · intro i t' hi hfind' name' type' place' htype' hplace'
    obtain ⟨i', hi', hname⟩ := instance?_storeAt hi
    rw [← hname] at hfind'
    have hold := ht.value i' t' hi' hfind' name' type' place' htype' hplace'
    by_cases hwritten : id = o ∧ name = name'
    · obtain ⟨rfl, rfl⟩ := hwritten
      obtain rfl := hsame hi' hfind' rfl
      obtain rfl := Option.some.inj (hplace.symm.trans hplace')
      rw [valueAt?_storeAt_self hold, loggedValue, lastWritten?, if_pos ⟨rfl, rfl⟩]
      rfl
    · have hne : id = o → name ≠ name' := fun hid hname => hwritten ⟨hid, hname⟩
      rw [valueAt?_storeAt_of_ne (t := t) (fun hid => ⟨hplace, ?_⟩) hne, hold, loggedValue,
        loggedValue, lastWritten?_of_ne hne]
      rw [← hsame hi' hfind' hid]
      exact hplace'
  · intro i t' hi hfind' name' hnone
    obtain ⟨i', hi', hname⟩ := instance?_storeAt hi
    rw [← hname] at hfind'
    have hne : id = o → name ≠ name' := by
      rintro hid rfl
      obtain rfl := hsame hi' hfind' hid
      obtain ⟨type, htype⟩ :=
        (hr.types t' (Registry.mem_of_find? hfind)).fieldType?_of_place hplace
      rw [hnone] at htype
      cases htype
    rw [slot?_storeAt_of_ne hne, lastWritten?_of_ne hne]
    exact ht.undeclared i' t' hi' hfind' name' hnone

/-- Touching a field leaves the log right. -/
lemma Tracks.touched (ht : Tracks r log o h) (hr : r.WellFormed)
    (hfind : r.find? t.name = some t) (hheld : h.Holds (.object id t.name))
    (hplace : t.fieldPlace? name = some place) :
    Tracks r log o (h.touchAt id name place) := by
  have hinstance : (h.touchAt id name place).instance? o = h.instance? o := by
    rw [instance?, objects_touchAt, instance?]
  constructor
  · intro hle name'
    rw [objects_touchAt] at hle
    have hne : id ≠ o := by
      rintro rfl
      obtain ⟨i, hi, -⟩ := hheld
      exact absurd (lt_of_instance? hi) (Nat.not_lt.mpr hle)
    rw [slot?_touchAt_of_ne fun hid => absurd hid hne]
    exact ht.unborn hle name'
  · intro i hi
    exact ht.registered i (hinstance ▸ hi)
  · intro i t' hi hfind' name' type' place' htype' hplace'
    rw [hinstance] at hi
    rw [valueAt?_touchAt (t := t) fun hid => ⟨hplace, ?_⟩]
    · exact ht.value i t' hi hfind' name' type' place' htype' hplace'
    · rw [← eq_of_holds (hid ▸ hheld) hfind hi hfind']
      exact hplace'
  · intro i t' hi hfind' name' hnone
    rw [hinstance] at hi
    have hne : id = o → name ≠ name' := by
      rintro hid rfl
      obtain rfl := eq_of_holds (hid ▸ hheld) hfind hi hfind'
      obtain ⟨type, htype⟩ :=
        (hr.types t' (Registry.mem_of_find? hfind)).fieldType?_of_place hplace
      rw [hnone] at htype
      cases htype
    rw [slot?_touchAt_of_ne hne]
    exact ht.undeclared i t' hi hfind' name' hnone

/-- An effect leaves every closure as it is, and creates only those that may be created. -/
lemma Effect.closure_cases (he : Effect r closes fits h write h') {c : Closure}
    (hc : h'.closure? id = some c) : h.closure? id = some c ∨ closes c := by
  have hallocate {object : HeapObject} (hc : (h.allocate object).2.closure? id = some c) :
      h.closure? id = some c ∨ object = .closureOf c := by
    have hobject := closure?_eq_some.mp hc
    rw [objects_allocate] at hobject
    split_ifs at hobject
    · exact .inr (Option.some.inj hobject)
    · exact .inl (closure?_eq_some.mpr hobject)
  cases he with
  | same => exact .inl hc
  | made =>
    rcases hallocate hc with hold | hmade
    · exact .inl hold
    · cases hmade
  | closed hcreated =>
    rcases hallocate hc with hold | hclosed
    · exact .inl hold
    · obtain rfl := HeapObject.closureOf.inj hclosed
      exact .inr hcreated
  | touched => exact .inl (closure?_touchAt .. ▸ hc)
  | stored => exact .inl (closure?_storeAt .. ▸ hc)

/-- Every effect leaves the log right, once the log has the write. -/
theorem Tracks.effect (ht : Tracks r log o h) (hr : r.WellFormed) (he : AnyEffect r h write h') :
    Tracks r (write.toList ++ log) o h' := by
  cases he with
  | same => exact ht
  | @made t hfind =>
    rcases Nat.lt_trichotomy o h.objects.size with hlt | rfl | hlt
    · exact ht.allocate_of_lt hlt
    · exact ht.made hr hfind
    · exact ht.allocate_of_none (Nat.le_of_lt hlt) (instance?_allocate_of_gt hlt)
  | @closed c _ =>
    rcases Nat.lt_trichotomy o h.objects.size with hlt | rfl | hlt
    · exact ht.allocate_of_lt hlt
    · exact ht.allocate_of_none (Nat.le_refl _) (instance?_allocate_closure c)
    · exact ht.allocate_of_none (Nat.le_of_lt hlt) (instance?_allocate_of_gt hlt)
  | touched hfind hheld hplace => exact ht.touched hr hfind hheld hplace
  | stored hfind hheld hplace _ => exact ht.stored hr hfind hheld hplace

/-- A field that a later version declares holds its default at first, and no other field changes. -/
theorem Tracks.of_extends (ht : Tracks r log o h) (hr : r.WellFormed) (hr' : r'.WellFormed)
    (hextends : r.Extends r') : Tracks r' log o h := by
  have hbefore {i : Instance} {t' : LiveType} (hi : h.instance? o = some i)
      (hfind' : r'.find? i.typeName = some t') :
      ∃ t, r.find? i.typeName = some t ∧ t.Continues t' := by
    obtain ⟨t, hfind⟩ := ht.registered i hi
    obtain ⟨t'', hfind'', hcontinues⟩ := hextends.find? hr' hfind
    obtain rfl := Option.some.inj (hfind''.symm.trans hfind')
    exact ⟨t, hfind, hcontinues⟩
  refine ⟨ht.unborn, ?_, ?_, ?_⟩
  · intro i hi
    obtain ⟨t, hfind⟩ := ht.registered i hi
    obtain ⟨t', hfind', -⟩ := hextends.find? hr' hfind
    exact ⟨t', hfind'⟩
  · intro i t' hi hfind' name type place htype hplace
    obtain ⟨t, hfind, hcontinues⟩ := hbefore hi hfind'
    cases hold : t.fieldType? name with
    | some type' =>
      obtain rfl := Option.some.inj (htype.symm.trans (hcontinues.fieldType?_of name type' hold))
      refine ht.value i t hi hfind name type place hold ?_
      rw [← hplace, LiveType.fieldPlace?, LiveType.fieldPlace?, hcontinues.layout_eq, htype, hold]
    | none =>
      obtain ⟨hslot, hnever⟩ := ht.undeclared i t hi hfind name hold
      cases place with
      | slot k =>
        have hk := LiveType.fieldPlace?_eq_slot.mp hplace
        rw [hcontinues.layout_eq] at hk
        obtain ⟨type', htype', -⟩ :=
          (hr.types t (Registry.mem_of_find? hfind)).fieldType?_of_slot? hk
        rw [hold] at htype'
        cases htype'
      | extension type' =>
        obtain rfl := Option.some.inj
          (htype.symm.trans (LiveType.fieldPlace?_eq_extension.mp hplace).2)
        simp [valueAt?, ExtensionStore.read, ExtensionStore.slot, hslot, loggedValue, hnever]
  · intro i t' hi hfind' name hnone
    obtain ⟨t, hfind, hcontinues⟩ := hbefore hi hfind'
    refine ht.undeclared i t hi hfind name ?_
    by_contra hsome
    obtain ⟨type, htype⟩ := Option.ne_none_iff_exists'.mp hsome
    rw [hcontinues.fieldType?_of name type htype] at hnone
    cases hnone

/-- Letting another object go changes nothing. -/
theorem Tracks.release (ht : Tracks r log o h) (hne : id ≠ o) :
    Tracks r log o { h with extensions := h.extensions.release id } := by
  have hslot (name : String) :
      (h.extensions.release id).slot? o name = h.extensions.slot? o name := by
    rw [ExtensionStore.slot?_release, if_neg hne]
  refine ⟨fun hle name => ?_, ht.registered, fun i t hi hfind name type place htype hplace => ?_,
    fun i t hi hfind name hnone => ?_⟩
  · rw [hslot]
    exact ht.unborn hle name
  · rw [← ht.value i t hi hfind name type place htype hplace]
    cases place with
    | slot k => rfl
    | extension type => simp only [valueAt?, ExtensionStore.read, ExtensionStore.slot, hslot]
  · rw [hslot]
    exact ht.undeclared i t hi hfind name hnone

end Heap

end LiveTypes
