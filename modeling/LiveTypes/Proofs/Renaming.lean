import LiveTypes.Machine.Invoke
import Mathlib.Logic.Equiv.Basic

/-!
# Renaming types

The identity of a type is its place in the order of registration. A renaming permutes identities. It
goes through everything that holds them: sites, closures, instances and the failures over sites. Values
hold none, and what the operations of a heap give does not depend on them.
-/

namespace LiveTypes

/-- A renaming of the identities of types. -/
abbrev Renaming := Equiv.Perm TypeId

variable (σ : Renaming)

def SiteId.rename (id : SiteId) : SiteId := { id with declaring := σ id.declaring }

def HostMapping.rename (m : HostMapping) : HostMapping := { m with hostId := σ m.hostId }

def SiteBinding.rename (b : SiteBinding) : SiteBinding :=
  { b with id := b.id.rename σ, hostId := σ b.hostId }

def CaptureSite.rename (s : CaptureSite) : CaptureSite :=
  { s with
    id := s.id.rename σ
    hostId := σ s.hostId
    mappings := s.mappings.map (HostMapping.rename σ) }

def Closure.rename (c : Closure) : Closure := { c with site := c.site.rename σ }

def Instance.rename (i : Instance) : Instance := { i with typeId := σ i.typeId }

def HeapObject.rename : HeapObject → HeapObject
  | .instanceOf i => .instanceOf (i.rename σ)
  | .closureOf c => .closureOf (c.rename σ)

def Heap.rename (h : Heap) : Heap := { h with objects := h.objects.map (HeapObject.rename σ) }

def VmError.rename : VmError → VmError
  | .runtime (.unboundSite id) => .runtime (.unboundSite (id.rename σ))
  | .runtime (.noPosition id position) => .runtime (.noPosition (id.rename σ) position)
  | e => e

variable {σ}

/-! ### Sites -/

lemma SiteId.rename_inj {id id' : SiteId} : id.rename σ = id'.rename σ ↔ id = id' := by
  obtain ⟨declaring, method, ordinal⟩ := id
  obtain ⟨declaring', method', ordinal'⟩ := id'
  simp [rename]

lemma SiteId.ofKey?_rename (declaring : TypeId) (key : String) :
    SiteId.ofKey? (σ declaring) key = (SiteId.ofKey? declaring key).map (SiteId.rename σ) := by
  unfold ofKey?
  split
  · next method ordinal _ =>
    rw [Option.map_map]
    rfl
  · rfl

namespace CaptureSite

variable (s : CaptureSite)

@[simp] lemma slotFor?_rename (position : Nat) :
    (s.rename σ).slotFor? position = s.slotFor? position := rfl

@[simp] lemma slotType?_rename (slot : Nat) : (s.rename σ).slotType? slot = s.slotType? slot := rfl

lemma slotAt?_rename (hostId : TypeId) (version position : Nat) :
    (s.rename σ).slotAt? (σ hostId) version position = s.slotAt? hostId version position := by
  have hmapping : (s.rename σ).mappingAt? (σ hostId) version =
      (s.mappingAt? hostId version).map (HostMapping.rename σ) := by
    simp only [mappingAt?, rename, ← List.map_reverse, List.find?_map]
    congr 2
    funext m
    exact congrArg (· && decide (m.hostVersion ≤ version))
      (decide_eq_decide.mpr (σ.injective.eq_iff (a := m.hostId) (b := hostId)))
  unfold slotAt?
  rw [hmapping]
  cases s.mappingAt? hostId version <;> rfl

end CaptureSite

/-! ### Heaps -/

namespace Heap

variable (h : Heap)

lemma objects_rename (id : ObjectId) :
    (h.rename σ).objects[id]? = (h.objects[id]?).map (HeapObject.rename σ) :=
  Array.getElem?_map

@[simp] lemma size_rename : (h.rename σ).objects.size = h.objects.size := Array.size_map

lemma instance?_rename (id : ObjectId) :
    (h.rename σ).instance? id = (h.instance? id).map (Instance.rename σ) := by
  unfold instance?
  rw [objects_rename]
  cases h.objects[id]? with
  | none => rfl
  | some o => cases o <;> rfl

lemma closure?_rename (id : ObjectId) :
    (h.rename σ).closure? id = (h.closure? id).map (Closure.rename σ) := by
  unfold closure?
  rw [objects_rename]
  cases h.objects[id]? with
  | none => rfl
  | some o => cases o <;> rfl

@[simp] lemma getSlot?_rename (id : ObjectId) (slot : Nat) :
    (h.rename σ).getSlot? id slot = h.getSlot? id slot := by
  unfold getSlot?
  rw [instance?_rename, Option.bind_map]
  rfl

lemma allocate_rename (o : HeapObject) :
    (h.rename σ).allocate (o.rename σ) =
      ((h.allocate o).1, (h.allocate o).2.rename σ) := by
  simp [allocate, rename]

lemma setSlot_rename (id : ObjectId) (slot : Nat) (v : Value) :
    (h.rename σ).setSlot id slot v = (h.setSlot id slot v).rename σ := by
  unfold setSlot
  rw [instance?_rename]
  cases h.instance? id with
  | none => rfl
  | some i => simp [rename, HeapObject.rename, Instance.rename, Array.map_setIfInBounds]

lemma valueAt?_rename (id : ObjectId) (name : String) (place : LiveType.FieldPlace) :
    (h.rename σ).valueAt? id name place = h.valueAt? id name place := by
  cases place with
  | slot slot => exact h.getSlot?_rename id slot
  | extension type => rfl

lemma touchAt_rename (id : ObjectId) (name : String) (place : LiveType.FieldPlace) :
    (h.rename σ).touchAt id name place = (h.touchAt id name place).rename σ := by
  cases place <;> rfl

lemma storeAt_rename (id : ObjectId) (name : String) (v : Value) (place : LiveType.FieldPlace) :
    (h.rename σ).storeAt id name v place = (h.storeAt id name v place).rename σ := by
  cases place with
  | slot slot => exact h.setSlot_rename id slot v
  | extension type => rfl

lemma references_rename (id : ObjectId) : (h.rename σ).references id = h.references id := by
  have hcontents : (h.rename σ).contents id = h.contents id := by
    unfold contents
    rw [objects_rename]
    cases h.objects[id]? with
    | none => rfl
    | some o => cases o <;> rfl
  unfold references
  rw [hcontents]

lemma releaseAll_rename (n : Nat) (counts : Array Nat) (free : List ObjectId) :
    releaseAll n counts free (h.rename σ) = (releaseAll n counts free h).rename σ := by
  induction n generalizing counts free h with
  | zero => rfl
  | succ n ih =>
    cases free with
    | nil => rfl
    | cons id rest =>
      simp only [releaseAll, references_rename]
      exact ih { h with extensions := h.extensions.release id } _ _

lemma release_rename (roots : List Value) :
    (h.rename σ).release roots = (h.release roots).rename σ := by
  have hcounts : (h.rename σ).counts roots = h.counts roots := by
    simp only [counts, size_rename, references_rename]
  have hextensions : (h.rename σ).extensions = h.extensions := rfl
  unfold release
  rw [hextensions]
  simp only [hcounts, size_rename, releaseAll_rename]
  split <;> rfl

end Heap

/-! ### The renaming that changes nothing -/

@[simp] lemma SiteId.rename_refl (id : SiteId) : id.rename (.refl _) = id := rfl

@[simp] lemma CaptureSite.rename_refl (s : CaptureSite) : s.rename (.refl _) = s := by
  have hmappings : s.mappings.map (HostMapping.rename (.refl _)) = s.mappings := List.map_id s.mappings
  rw [rename, hmappings]
  rfl

@[simp] lemma HeapObject.rename_refl (o : HeapObject) : o.rename (.refl _) = o := by
  cases o <;> rfl

@[simp] lemma Heap.rename_refl (h : Heap) : h.rename (.refl _) = h := by
  have hobjects : h.objects.map (HeapObject.rename (.refl _)) = h.objects := by
    rw [funext HeapObject.rename_refl]
    exact Array.map_id' h.objects
  rw [rename, hobjects]

@[simp] lemma VmError.rename_refl (e : VmError) : e.rename (.refl _) = e := by
  unfold rename
  split <;> rfl

end LiveTypes
