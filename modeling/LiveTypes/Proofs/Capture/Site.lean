import LiveTypes.Capture.Site
import LiveTypes.Proofs.Outcome
import Mathlib.Data.List.Nodup

/-!
# Slots of a capture site

Binding a site anew keeps the slot of every position whose type stays, and gives each other position
a slot that no position ever had. `Rebound` says what binding anew makes of a site.
-/

namespace LiveTypes.CaptureSite

variable {s s' : CaptureSite} {b : SiteBinding}

/-! ### Assigning slots -/

lemma slotFor?_of_kept? {p k : Nat} {t : TypeDescriptor} (h : s.kept? p t = some k) :
    s.slotFor? p = some k ∧ s.slotType? k = some t := by
  obtain ⟨hslot, htype⟩ := Option.filter_eq_some_iff.mp h
  exact ⟨hslot, by simpa using htype⟩

lemma kept?_eq_none_iff {p : Nat} {t : TypeDescriptor} :
    s.kept? p t = none ↔ ∀ k, s.slotFor? p = some k → s.slotType? k ≠ some t := by
  simp [kept?, Option.filter_eq_none_iff]

lemma assign_cons_kept {made p k : Nat} {t : TypeDescriptor} {types : List TypeDescriptor}
    (h : s.kept? p t = some k) :
    s.assign made p (t :: types) =
      (k :: (s.assign made (p + 1) types).1, (s.assign made (p + 1) types).2) := by
  rw [assign, h]

lemma assign_cons_made {made p : Nat} {t : TypeDescriptor} {types : List TypeDescriptor}
    (h : s.kept? p t = none) :
    s.assign made p (t :: types) =
      (made :: (s.assign (made + 1) (p + 1) types).1,
        t :: (s.assign (made + 1) (p + 1) types).2) := by
  rw [assign, h]

lemma length_assign (s : CaptureSite) (made p : Nat) (types : List TypeDescriptor) :
    (s.assign made p types).1.length = types.length := by
  induction types generalizing made p with
  | nil => rfl
  | cons t types ih =>
    cases h : s.kept? p t with
    | some k => rw [assign_cons_kept h, List.length_cons, ih, List.length_cons]
    | none => rw [assign_cons_made h, List.length_cons, ih, List.length_cons]

/-- Each position gets the slot that it keeps, or a new slot of its type. -/
lemma getElem?_assign {made p i : Nat} {t : TypeDescriptor} {types : List TypeDescriptor}
    (ht : types[i]? = some t) :
    (∃ k, s.kept? (p + i) t = some k ∧ (s.assign made p types).1[i]? = some k) ∨
      (s.kept? (p + i) t = none ∧ ∃ j, (s.assign made p types).1[i]? = some (made + j) ∧
        (s.assign made p types).2[j]? = some t) := by
  induction types generalizing made p i with
  | nil => simp at ht
  | cons t₀ types ih =>
    cases i with
    | zero =>
      obtain rfl : t₀ = t := by simpa using ht
      cases h : s.kept? p t₀ with
      | some k => exact .inl ⟨k, rfl, by rw [assign_cons_kept h]; rfl⟩
      | none => exact .inr ⟨rfl, 0, by rw [assign_cons_made h]; exact ⟨rfl, rfl⟩⟩
    | succ i =>
      have ht : types[i]? = some t := by simpa using ht
      have hp : p + (i + 1) = p + 1 + i := by omega
      rw [hp]
      cases h : s.kept? p t₀ with
      | some k =>
        rw [assign_cons_kept h]
        exact ih ht
      | none =>
        rw [assign_cons_made h]
        rcases @ih (made + 1) (p + 1) i ht with hkept | ⟨hnone, j, hslot, htype⟩
        · exact .inl hkept
        · refine .inr ⟨hnone, j + 1, ?_, htype⟩
          rw [List.getElem?_cons_succ, hslot]
          congr 1
          omega

/-- Slots are made for types that are captured. -/
lemma mem_of_mem_assign {made p : Nat} {types : List TypeDescriptor} {t : TypeDescriptor}
    (ht : t ∈ (s.assign made p types).2) : t ∈ types := by
  induction types generalizing made p with
  | nil => cases ht
  | cons t₀ types ih =>
    cases h : s.kept? p t₀ with
    | some k =>
      rw [assign_cons_kept h] at ht
      exact List.mem_cons_of_mem _ (ih ht)
    | none =>
      rw [assign_cons_made h] at ht
      rcases List.mem_cons.mp ht with rfl | ht
      · exact List.mem_cons_self
      · exact List.mem_cons_of_mem _ (ih ht)

/-- A slot that is assigned is kept from a position at or after the first, or it is new. -/
lemma mem_assign {made p k : Nat} {types : List TypeDescriptor}
    (hk : k ∈ (s.assign made p types).1) :
    (∃ q, p ≤ q ∧ s.slotFor? q = some k) ∨
      made ≤ k ∧ k < made + (s.assign made p types).2.length := by
  induction types generalizing made p with
  | nil => cases hk
  | cons t types ih =>
    cases h : s.kept? p t with
    | some k₀ =>
      rw [assign_cons_kept h] at hk ⊢
      rcases List.mem_cons.mp hk with rfl | hk
      · exact .inl ⟨p, Nat.le_refl p, (slotFor?_of_kept? h).1⟩
      · rcases ih hk with ⟨q, hq, hslot⟩ | hnew
        · exact .inl ⟨q, by omega, hslot⟩
        · exact .inr hnew
    | none =>
      rw [assign_cons_made h] at hk ⊢
      rcases List.mem_cons.mp hk with rfl | hk
      · exact .inr ⟨Nat.le_refl k, by simp⟩
      · rcases ih hk with ⟨q, hq, hslot⟩ | ⟨hle, hlt⟩
        · exact .inl ⟨q, by omega, hslot⟩
        · refine .inr ⟨by omega, ?_⟩
          rw [List.length_cons]
          omega

lemma nodup_assign {made : Nat} (hnodup : s.positions.Nodup) (hlt : ∀ k ∈ s.positions, k < made)
    (p : Nat) (types : List TypeDescriptor) : (s.assign made p types).1.Nodup := by
  have hslot {q k : Nat} (h : s.slotFor? q = some k) : k < made := hlt k (List.mem_of_getElem? h)
  suffices hmade : ∀ made', made ≤ made' → (s.assign made' p types).1.Nodup from
    hmade made (Nat.le_refl made)
  induction types generalizing p with
  | nil => simp [assign]
  | cons t types ih =>
    intro made' hle
    cases h : s.kept? p t with
    | some k =>
      have hk := (slotFor?_of_kept? h).1
      rw [assign_cons_kept h]
      refine List.nodup_cons.mpr ⟨fun hmem => ?_, ih (p + 1) made' hle⟩
      rcases mem_assign hmem with ⟨q, hq, hkq⟩ | ⟨hge, -⟩
      · have hp : p < s.positions.length := (List.getElem?_eq_some_iff.mp hk).1
        have hpq : p = q := (List.getElem?_inj hp hnodup).mp (hk.trans hkq.symm)
        omega
      · have := hslot hk
        omega
    | none =>
      rw [assign_cons_made h]
      refine List.nodup_cons.mpr ⟨fun hmem => ?_, ih (p + 1) (made' + 1) (by omega)⟩
      rcases mem_assign hmem with ⟨q, -, hkq⟩ | ⟨hge, -⟩
      · have := hslot hkq
        omega
      · omega

/-! ### Binding anew -/

/-- The type of a position under a map. -/
def typeUnder? (s : CaptureSite) (m : HostMapping) (p : Nat) : Option TypeDescriptor :=
  m.positions[p]?.bind s.slotType?

/-- The type of a position now. -/
def typeAt? (s : CaptureSite) (p : Nat) : Option TypeDescriptor :=
  (s.slotFor? p).bind s.slotType?

/-- Whether the positions now have the given types, in order. -/
def Captures (s : CaptureSite) (types : List TypeDescriptor) : Prop :=
  s.positions.map s.slotType? = types.map some

lemma Captures.length_eq {types : List TypeDescriptor} (h : s.Captures types) :
    s.positions.length = types.length := by
  simpa using congrArg List.length h

lemma Captures.typeAt?_eq {types : List TypeDescriptor} (h : s.Captures types) (p : Nat) :
    s.typeAt? p = types[p]? := by
  have hp := congrArg (·[p]?) h
  simp only [List.getElem?_map] at hp
  rw [typeAt?, slotFor?]
  cases hslot : s.positions[p]? with
  | none =>
    rw [hslot] at hp
    cases htype : types[p]? with
    | none => rfl
    | some t => simp [htype] at hp
  | some k =>
    rw [hslot] at hp
    cases htype : types[p]? with
    | none => simp [htype] at hp
    | some t => simpa [htype] using hp

/-- What binding a site anew makes of it. -/
structure Rebound (s s' : CaptureSite) (b : SiteBinding) : Prop where
  capturesThis_eq : b.shape.capturesThis = s.capturesThis
  id_eq : s'.id = s.id
  host_eq : s'.host = b.host
  hostId_eq : s'.hostId = b.hostId
  capturesThis_same : s'.capturesThis = s.capturesThis
  positions_eq : s'.positions = (s.assign s.slots.length 0 b.shape.captured).1
  types_eq : s'.slots.map CaptureSlot.type =
    s.slots.map CaptureSlot.type ++ (s.assign s.slots.length 0 b.shape.captured).2
  mappings_eq : s'.mappings = s.mappings ++ [⟨b.hostId, b.hostVersion, s'.positions⟩]

lemma rebound_of_rebind (h : s.rebind b = .ok s') : s.Rebound s' b := by
  unfold rebind at h
  split_ifs at h with hthis
  obtain rfl := Except.ok.inj h
  refine ⟨not_not.mp hthis, rfl, rfl, rfl, rfl, rfl, ?_, rfl⟩
  refine List.ext_getElem? fun k => ?_
  simp only [List.map_map, List.getElem?_map, List.getElem?_zipIdx, Option.map_map]
  exact congrFun Option.map_id _

lemma exists_rebound (h : b.shape.capturesThis = s.capturesThis) :
    ∃ s', s.rebind b = .ok s' ∧ s.Rebound s' b := by
  have hok : ∃ s', s.rebind b = .ok s' := by
    unfold rebind
    rw [if_neg (not_not.mpr h)]
    exact ⟨_, rfl⟩
  obtain ⟨s', hs'⟩ := hok
  exact ⟨s', hs', rebound_of_rebind hs'⟩

lemma slotType?_eq (s : CaptureSite) (k : Nat) :
    s.slotType? k = (s.slots.map CaptureSlot.type)[k]? := by
  rw [slotType?, List.getElem?_map]

lemma slotType?_isSome {k : Nat} (h : k < s.slots.length) : ∃ t, s.slotType? k = some t := by
  rw [slotType?, List.getElem?_eq_getElem h]
  exact ⟨_, rfl⟩

lemma slotType?_create (b : SiteBinding) (k : Nat) :
    (create b).slotType? k = b.shape.captured[k]? := by
  rw [slotType?_eq, create, List.map_map, List.getElem?_map]
  exact congrFun Option.map_id _

lemma lt_of_slotType? {k : Nat} {t : TypeDescriptor} (h : s.slotType? k = some t) :
    k < s.slots.length := by
  rw [slotType?_eq] at h
  simpa using (List.getElem?_eq_some_iff.mp h).1

namespace Rebound

/-- No slot changes its type. -/
lemma slotType?_of {k : Nat} (h : s.Rebound s' b) (hk : k < s.slots.length) :
    s'.slotType? k = s.slotType? k := by
  rw [slotType?_eq, slotType?_eq, h.types_eq, List.getElem?_append_left (by simpa using hk)]

/-- A slot was there before or is of a captured type. -/
lemma slotType?_cases {k : Nat} {t : TypeDescriptor} (h : s.Rebound s' b)
    (ht : s'.slotType? k = some t) : s.slotType? k = some t ∨ t ∈ b.shape.captured := by
  rw [slotType?_eq, h.types_eq, List.getElem?_append] at ht
  split_ifs at ht with hk
  · rw [slotType?_eq]
    exact .inl ht
  · exact .inr (mem_of_mem_assign (List.mem_of_getElem? ht))

lemma length_slots (h : s.Rebound s' b) : s'.slots.length =
    s.slots.length + (s.assign s.slots.length 0 b.shape.captured).2.length := by
  simpa using congrArg List.length h.types_eq

lemma length_positions (h : s.Rebound s' b) :
    s'.positions.length = b.shape.captured.length := by
  rw [h.positions_eq, length_assign]

/-- A position keeps its slot while its type stays, and gets a new slot otherwise. -/
lemma slotFor?_of {p : Nat} {t : TypeDescriptor} (h : s.Rebound s' b)
    (ht : b.shape.captured[p]? = some t) :
    (∃ k, s.kept? p t = some k ∧ s'.slotFor? p = some k) ∨
      s.kept? p t = none ∧
        ∃ k, s.slots.length ≤ k ∧ s'.slotFor? p = some k ∧ s'.slotType? k = some t := by
  rcases @getElem?_assign s s.slots.length 0 p t b.shape.captured ht with
    ⟨k, hk, hslot⟩ | ⟨hnone, j, hslot, htype⟩
  · rw [Nat.zero_add] at hk
    exact .inl ⟨k, hk, by rw [slotFor?, h.positions_eq, hslot]⟩
  · rw [Nat.zero_add] at hnone
    refine .inr ⟨hnone, s.slots.length + j, by omega, by rw [slotFor?, h.positions_eq, hslot], ?_⟩
    rw [slotType?_eq, h.types_eq, List.getElem?_append_right (by simp)]
    simpa using htype

/-- The positions have the captured types of the binding. -/
lemma captures (h : s.Rebound s' b) : s'.Captures b.shape.captured := by
  refine List.ext_getElem? fun p => ?_
  rw [List.getElem?_map, List.getElem?_map]
  cases ht : b.shape.captured[p]? with
  | none =>
    have hp := List.getElem?_eq_none_iff.mp ht
    rw [← h.length_positions] at hp
    rw [List.getElem?_eq_none_iff.mpr hp]
    rfl
  | some t =>
    rcases h.slotFor?_of ht with ⟨k, hkept, hslot⟩ | ⟨-, k, -, hslot, htype⟩
    · have htype := (slotFor?_of_kept? hkept).2
      rw [slotFor?] at hslot
      rw [hslot, Option.map_some, h.slotType?_of (lt_of_slotType? htype), htype]
      rfl
    · rw [slotFor?] at hslot
      rw [hslot, Option.map_some, htype]
      rfl

end Rebound

end LiveTypes.CaptureSite
