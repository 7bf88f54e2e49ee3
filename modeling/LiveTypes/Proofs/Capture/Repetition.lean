import LiveTypes.Proofs.Alike
import LiveTypes.Proofs.Capture.Table

/-!
# Sites with one repeated version more

A version that repeats the one before it raises the numbers of all later versions of its type by one. A
site that goes through the same bindings with and without the repeated version has the same slots and
positions either way; only its maps for the type are numbered differently. The maps from before keep
their numbers.

    maps without it     0   1   2       3   4
    repeated                        3
    maps with it        0   1   2       4   5

A map that is made between the repetition and the next version is one of the version before without it,
and one of the repeated version with it. So code of the version before, which finds the map without it,
does not find it with it.
-/

namespace LiveTypes

/-- A version of a type that has the bytes of the version before it. -/
structure Repetition where
  /-- The type -/
  id : TypeId
  /-- Place among the versions of the type -/
  index : Nat
  label : String

namespace Repetition

variable (q : Repetition)

/-- The number that a version made after the repetition has with it, given the number without it. -/
def shift (hostId : TypeId) (version : Nat) : Nat := if hostId = q.id then version + 1 else version

/-- Whether a version of a host may be bound to before the repetition. -/
def Before (hostId : TypeId) (version : Nat) : Prop := hostId = q.id → version < q.index

/-- Whether a version of a host may be bound to after the repetition, numbered as without it. -/
def After (hostId : TypeId) (version : Nat) : Prop := hostId = q.id → q.index ≤ version + 1

end Repetition

variable {q : Repetition}

/-! ### Maps -/

/-- A map of a site without the repetition, and the same map with it. -/
def HostMapping.Shifted (q : Repetition) (m m' : HostMapping) : Prop :=
  (q.Before m.hostId m.hostVersion ∧ m' = m) ∨
    (q.After m.hostId m.hostVersion ∧
      m' = { m with hostVersion := q.shift m.hostId m.hostVersion })

namespace HostMapping.Shifted

variable {m m' : HostMapping}

lemma hostId_eq (h : m.Shifted q m') : m'.hostId = m.hostId := by
  rcases h with ⟨-, rfl⟩ | ⟨-, rfl⟩ <;> rfl

lemma positions_eq (h : m.Shifted q m') : m'.positions = m.positions := by
  rcases h with ⟨-, rfl⟩ | ⟨-, rfl⟩ <;> rfl

/-- Other hosts keep their numbers. -/
lemma hostVersion_of_ne (h : m.Shifted q m') (hid : m.hostId ≠ q.id) :
    m'.hostVersion = m.hostVersion := by
  rcases h with ⟨-, rfl⟩ | ⟨-, rfl⟩
  · rfl
  · exact if_neg hid

/-- The maps up to a version before the last one without the repetition are the same with it. -/
lemma le_iff_of_lt (h : m.Shifted q m') (hid : m.hostId = q.id) {version : Nat}
    (hlt : version + 1 < q.index) : m'.hostVersion ≤ version ↔ m.hostVersion ≤ version := by
  rcases h with ⟨-, rfl⟩ | ⟨hafter, rfl⟩
  · exact Iff.rfl
  · have hafter := hafter hid
    show q.shift m.hostId m.hostVersion ≤ version ↔ _
    rw [Repetition.shift, if_pos hid]
    omega

/-- The maps up to a later version are those up to the next one with the repetition. -/
lemma le_iff_of_le (h : m.Shifted q m') (hid : m.hostId = q.id) {version : Nat}
    (hle : q.index ≤ version + 1) : m'.hostVersion ≤ version + 1 ↔ m.hostVersion ≤ version := by
  rcases h with ⟨hbefore, rfl⟩ | ⟨-, rfl⟩
  · have hbefore := hbefore hid
    omega
  · show q.shift m.hostId m.hostVersion ≤ version + 1 ↔ _
    rw [Repetition.shift, if_pos hid]
    omega

end HostMapping.Shifted

/-! ### Bindings -/

/-- A binding without the repetition, made after it, and the same binding with it. -/
def SiteBinding.Shifted (q : Repetition) (b b' : SiteBinding) : Prop :=
  q.After b.hostId b.hostVersion ∧ b' = { b with hostVersion := q.shift b.hostId b.hostVersion }

/-- A site without the repetition, and the same site with it. -/
structure CaptureSite.Shifted (q : Repetition) (s s' : CaptureSite) : Prop where
  same : s' = { s with mappings := s'.mappings }
  mappings : List.Forall₂ (HostMapping.Shifted q) s.mappings s'.mappings

namespace CaptureSite

variable {s s' s₁ s₁' : CaptureSite} {b b' : SiteBinding}

lemma shifted_create (h : b.Shifted q b') : (create b).Shifted q (create b') := by
  obtain ⟨hafter, rfl⟩ := h
  exact ⟨rfl, .cons (.inr ⟨hafter, rfl⟩) .nil⟩

/-- Slots are assigned without a look at the maps. -/
lemma assign_withMappings (s : CaptureSite) (mappings : List HostMapping) (made p : Nat)
    (types : List TypeDescriptor) :
    assign { s with mappings } made p types = s.assign made p types := by
  induction types generalizing made p with
  | nil => rfl
  | cons t types ih =>
    have hkept : kept? { s with mappings } p t = s.kept? p t := rfl
    simp only [assign, hkept, ih]

lemma Shifted.rebind (h : s.Shifted q s') (hb : b.Shifted q b') :
    Outcome.Alike (CaptureSite.Shifted q) (s.rebind b) (s'.rebind b') := by
  obtain ⟨hsame, hmappings⟩ := h
  obtain ⟨hafter, rfl⟩ := hb
  rw [hsame]
  simp only [CaptureSite.rebind, assign_withMappings]
  split
  · exact .error _
  · exact .ok ⟨rfl, List.rel_append hmappings (.cons (.inr ⟨hafter, rfl⟩) .nil)⟩

lemma Shifted.sameBinding (h : s.Shifted q s') (h₁ : s₁.Shifted q s₁') :
    s'.sameBinding s₁' = s.sameBinding s₁ := by
  rw [h.same, h₁.same]
  rfl

/-! ### Slots of positions -/

lemma Shifted.slotAt?_eq (h : s.Shifted q s') {id : TypeId} {version version' : Nat}
    (hselect : ∀ m m' : HostMapping, m.Shifted q m' → m.hostId = id →
      (m'.hostVersion ≤ version' ↔ m.hostVersion ≤ version)) (position : Nat) :
    s'.slotAt? id version' position = s.slotAt? id version position := by
  have hfind : Option.Rel (HostMapping.Shifted q) (s.mappingAt? id version)
      (s'.mappingAt? id version') := by
    refine Outcome.rel_find? (List.forall₂_reverse_iff.mpr h.mappings) fun m m' hm => ?_
    rw [hm.hostId_eq]
    by_cases hid : m.hostId = id
    · simp [hid, hselect m m' hm hid]
    · simp [hid]
  have hpositions : s'.positions = s.positions := by rw [h.same]
  unfold slotAt?
  rcases Outcome.rel_cases hfind with ⟨hnone, hnone'⟩ | ⟨m, m', hm, hm', hmm⟩
  · rw [hnone, hnone', hpositions]
  · simp only [hm, hm', hmm.positions_eq]

/-- Code of other types finds the same slots with the repetition. -/
lemma Shifted.slotAt?_of_ne (h : s.Shifted q s') {id : TypeId} (hid : id ≠ q.id)
    (version position : Nat) : s'.slotAt? id version position = s.slotAt? id version position := by
  refine h.slotAt?_eq (fun m m' hm hhost => ?_) position
  rw [hm.hostVersion_of_ne (hhost ▸ hid)]

/-- Code from before the last version finds the same slots with the repetition. -/
lemma Shifted.slotAt?_of_lt (h : s.Shifted q s') {version : Nat} (hlt : version + 1 < q.index)
    (position : Nat) : s'.slotAt? q.id version position = s.slotAt? q.id version position :=
  h.slotAt?_eq (fun _ _ hm hid => hm.le_iff_of_lt hid hlt) position

/-- Code of a later version finds with the repetition what code of the version before finds without
it. -/
lemma Shifted.slotAt?_of_le (h : s.Shifted q s') {version : Nat} (hle : q.index ≤ version + 1)
    (position : Nat) :
    s'.slotAt? q.id (version + 1) position = s.slotAt? q.id version position :=
  h.slotAt?_eq (fun _ _ hm hid => hm.le_iff_of_le hid hle) position

end CaptureSite

/-! ### Tables -/

/-- A table of sites without the repetition, and the same table with it. -/
def SiteTable.Shifted (q : Repetition) (t t' : SiteTable) : Prop :=
  ∀ id, Option.Rel (CaptureSite.Shifted q) (t.find? id) (t'.find? id)

namespace SiteTable

variable {t t' : SiteTable} {b b' : SiteBinding}

lemma Shifted.check (h : t.Shifted q t') (hb : b.Shifted q b') : t'.check b' = t.check b := by
  have hid : b'.id = b.id := by rw [hb.2]
  unfold SiteTable.check
  rw [hid]
  rcases Outcome.rel_cases (h b.id) with ⟨hnone, hnone'⟩ | ⟨s, s', hs, hs', hss⟩
  · rw [hnone, hnone']
  · rw [hs, hs']
    dsimp only
    generalize hx : s.rebind b = x
    generalize hx' : s'.rebind b' = x'
    have hxx : Outcome.Alike (CaptureSite.Shifted q) x x' := hx ▸ hx' ▸ hss.rebind hb
    cases hxx <;> rfl

lemma Shifted.bound (h : t.Shifted q t') (hb : b.Shifted q b') :
    (t.bound b).Shifted q (t'.bound b') := by
  have hid : b'.id = b.id := by rw [hb.2]
  unfold SiteTable.bound
  rw [hid]
  rcases Outcome.rel_cases (h b.id) with ⟨hnone, hnone'⟩ | ⟨s, s', hs, hs', hss⟩
  · rw [hnone, hnone']
    exact CaptureSite.shifted_create hb
  · rw [hs, hs']
    dsimp only
    generalize hx : s.rebind b = x
    generalize hx' : s'.rebind b' = x'
    have hxx : Outcome.Alike (CaptureSite.Shifted q) x x' := hx ▸ hx' ▸ hss.rebind hb
    cases hxx with
    | error e => exact hss
    | ok hnew =>
      dsimp only
      rw [hss.sameBinding hnew]
      split
      · exact hss
      · exact hnew

lemma Shifted.bind (h : t.Shifted q t') (hb : b.Shifted q b') :
    (t.bind b).Shifted q (t'.bind b') := by
  intro id
  have hid : b'.id = b.id := by rw [hb.2]
  rw [find?_bind, find?_bind, hid]
  split
  · exact .some (h.bound hb)
  · exact h id

lemma Shifted.bindAll {bindings bindings' : List SiteBinding} (h : t.Shifted q t')
    (hb : List.Forall₂ (SiteBinding.Shifted q) bindings bindings') :
    (Registry.bindAll t bindings).Shifted q (Registry.bindAll t' bindings') := by
  induction hb generalizing t t' with
  | nil => exact h
  | cons hb _ ih => exact ih (h.bind hb)

/-- A site is bound to the same host with the repetition. -/
lemma Shifted.boundTo (h : t.Shifted q t') (host : String) : t'.boundTo host = t.boundTo host := by
  have hmem (id : SiteId) : id ∈ t'.boundTo host ↔ id ∈ t.boundTo host := by
    rw [mem_boundTo, mem_boundTo]
    rcases Outcome.rel_cases (h id) with ⟨hnone, hnone'⟩ | ⟨s, s', hs, hs', hss⟩
    · simp [hnone, hnone']
    · have hhost : s'.host = s.host := by rw [hss.same]
      simp [hs, hs', hhost]
  have hperm := (List.perm_ext_iff_of_nodup (nodup_boundTo t' host) (nodup_boundTo t host)).mpr hmem
  refine hperm.eq_of_pairwise ?_ (pairwise_boundTo t' host) (pairwise_boundTo t host)
  intro a b _ _ hab hba
  rw [Std.OrientedCmp.gt_of_lt hab] at hba
  cases hba

lemma Shifted.checkHost (h : t.Shifted q t') (host : String) (hostId : TypeId)
    (shape : HostShape) : t'.checkHost host hostId shape = t.checkHost host hostId shape := by
  unfold SiteTable.checkHost
  rw [h.boundTo]
  congr 1
  funext id
  -- the number of the host does not matter to the check
  unfold SiteTable.check
  rcases Outcome.rel_cases (h id) with ⟨hnone, hnone'⟩ | ⟨s, s', hs, hs', hss⟩
  · rw [hostBinding, hnone, hnone']
  · rw [hostBinding, hs, hs', hss.same]
    by_cases hthis : shape.capturesThis = s.capturesThis
    · simp [CaptureSite.rebind, hthis]
    · simp [CaptureSite.rebind, hthis]

lemma Shifted.rebindHost (h : t.Shifted q t') {host : String} {hostId : TypeId} {version : Nat}
    (hafter : q.After hostId version) (shape : HostShape) :
    (t.rebindHost host hostId version shape).Shifted q
      (t'.rebindHost host hostId (q.shift hostId version) shape) := by
  rw [rebindHost_eq, rebindHost_eq, h.boundTo]
  refine h.bindAll ?_
  rw [List.forall₂_map_left_iff, List.forall₂_map_right_iff]
  exact List.forall₂_same.mpr fun id _ => ⟨hafter, rfl⟩

end SiteTable

end LiveTypes
