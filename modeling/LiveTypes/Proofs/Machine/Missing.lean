import LiveTypes.Proofs.Machine.Reports
import LiveTypes.Proofs.Machine.Sound

/-!
# What an instruction may find missing, and what it may be refused

An instruction of sound code, whose own type and all hosts are registered, misses no owner of a
reference that resolves (`step_misses`). Before an instruction makes an instance of a type, calls a
method of one or creates a closure hosted by one, it checks whether the unit of the running code may
reach the type; no other part of an instruction refuses access (`step_refused`).
-/

namespace LiveTypes

namespace Run

variable {α : Type} {s : MachineState} {P : VmError → Prop}

/-- Whether an action finds only such owners missing. -/
def Misses (p : String → Prop) (x : Run α) (s : MachineState) : Prop :=
  ∀ cause s' owner, x s = .error cause s' → cause.missing? = some owner → p owner

/-- Whether an action refuses access only to such units and types. -/
def Refuses (p : String → String → Prop) (x : Run α) (s : MachineState) : Prop :=
  ∀ accessor target s', x s = .error (.illegalAccess accessor target) s' → p accessor target

lemma Reports.misses {p : String → Prop} {x : Run α} (h : Reports P x s)
    (hP : ∀ cause owner, P cause → cause.missing? = some owner → p owner) : Misses p x s := by
  intro cause s' owner hrun howner
  refine hP cause owner ((h cause s' hrun).resolve_left fun hplain => ?_) howner
  rw [VmError.missing?_of_isPlain hplain] at howner
  cases howner

lemma Reports.refuses {p : String → String → Prop} {x : Run α} (h : Reports P x s)
    (hP : ∀ accessor target, P (.illegalAccess accessor target) → p accessor target) :
    Refuses p x s :=
  fun accessor target s' hrun =>
    hP accessor target ((h _ s' hrun).resolve_left Bool.false_ne_true)

end Run

namespace Machine

open Run

variable {vm : Machine} {e : Executable} {i : Instruction} {s : MachineState} {p : String → Prop}

/-! ### Missing owners -/

/-- Whether the hosts of all sites of a registry are registered. -/
def HostsRegistered (r : Registry) : Prop :=
  ∀ id site, r.sites.find? id = some site → ∃ t, r.byId? site.hostId = some t

/-- A field that has a place in a type has a value in each instance of it. -/
lemma exists_valueAt? {r : Registry} {h : Heap} (hh : h.Sound r) {t : LiveType} {id : ObjectId}
    {name : String} {place : LiveType.FieldPlace} (hfind : r.find? t.name = some t)
    (hid : h.Holds (.object id t.name)) (hplace : t.fieldPlace? name = some place) :
    ∃ v, h.valueAt? id name place = some v := by
  cases place with
  | extension type => exact ⟨_, rfl⟩
  | slot k =>
    obtain ⟨i, hi, hname⟩ := hid
    obtain ⟨t', ht', -, hlength⟩ := hh.instances id i hi
    rw [hname] at ht'
    obtain rfl := Option.some.inj (hfind.symm.trans ht')
    have hlt : k < i.slots.length := hlength ▸ Layout.lt_of_slot? (LiveType.fieldPlace?_eq_slot.mp hplace)
    exact ⟨i.slots[k], by simp [Heap.valueAt?, Heap.getSlot?, hi, hlt]⟩

/-- Whether what an instruction of a body refers to resolves, or its owner may be missing. -/
def Found (vm : Machine) (p : String → Prop) (e : Executable) (i : Instruction) : Prop :=
  ∀ ref, i.reference? e.constants = some ref → p ref.owner ∨ ref.Resolves vm.registry

/-- Sound code that finds what it refers to leaves a missing owner one origin: a reference that does
not resolve. -/
lemma Origin.missed {cause : VmError} {owner : String} (h : Origin vm e i s cause)
    (howner : cause.missing? = some owner) (hhosts : HostsRegistered vm.registry)
    (hown : ∃ t, vm.registry.byId? e.typeId = some t) (hi : i.Linked vm.registry e)
    (hs : s.Sound vm.registry) : ∃ ref, i.reference? e.constants = some ref ∧
      ¬ ref.Resolves vm.registry ∧ ref.owner = owner := by
  cases h with
  | own hnone =>
    obtain ⟨t, ht⟩ := hown
    rw [hnone] at ht
    cases ht
  | host hsite hnone =>
    obtain ⟨t, ht⟩ := hhosts _ _ hsite
    rw [hnone] at ht
    cases ht
  | reference href hmissing hblames =>
    exact ⟨_, href, hmissing, Option.some.inj (hblames.symm.trans howner)⟩
  | slot hop hoperands hnames hmissing =>
    exact absurd (hi.layout (.inr hop) _ _ _ hoperands hnames) hmissing
  | value hpop hfind hplace hnone =>
    obtain rfl := Registry.find?_name hfind
    obtain ⟨v, hv⟩ := exists_valueAt? hs.heap hfind (holds_of_pop hs.stack hpop).1 hplace
    rw [hnone] at hv
    cases hv
  | access _ _ => cases howner

/-- An instruction of sound code, with its own type and all hosts registered, only misses an owner that
may be missing. -/
theorem step_misses (hhosts : HostsRegistered vm.registry)
    (hown : ∃ t, vm.registry.byId? e.typeId = some t) (hi : i.Linked vm.registry e)
    (hs : s.Sound vm.registry) (hfound : Found vm p e i) : Misses p (step vm e i) s := by
  refine step_reports.misses fun cause owner horigin howner => ?_
  obtain ⟨ref, href, hmissing, rfl⟩ := horigin.missed howner hhosts hown hi hs
  exact (hfound ref href).resolve_right hmissing

/-! ### Refused types -/

/-- Whether a unit may not reach a registered type. -/
def OutOfReach (vm : Machine) (accessor target : String) : Prop :=
  ∃ t ∈ vm.registry.types, t.name = target ∧
    Access.allows accessor t.name t.loadedUnit.access = false

/-- The check refuses what is out of reach for the unit of the running code. -/
def Refused (vm : Machine) (e : Executable) (accessor target : String) : Prop :=
  accessor = e.unitName ∧ OutOfReach vm accessor target

/-- An instruction is refused only a registered type that is out of reach for the unit of its body. -/
theorem step_refused : Refuses (Refused vm e) (step vm e i) s := by
  refine step_reports.refuses fun accessor target horigin => ?_
  cases horigin with
  | access ht hrefused => exact ⟨rfl, _, ht, rfl, hrefused⟩
  | reference _ _ hblames | slot _ _ _ _ hblames => cases hblames

end Machine

end LiveTypes
