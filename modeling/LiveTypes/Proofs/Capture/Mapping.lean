import LiveTypes.Proofs.Capture.Site
import Mathlib.Logic.Relation

/-!
# Maps of a capture site

A site keeps the map of every binding. From the maps alone it can be told where code of a host version
reads a position: where the site has it now just when every binding since the one that the code goes
by kept the type of the position (`slotAt?_eq_slotFor?_iff`).
-/

namespace LiveTypes.CaptureSite

variable {s s' : CaptureSite} {b : SiteBinding}

/-- A site whose slots, positions and maps belong together. -/
structure Tidy (s : CaptureSite) : Prop where
  range : ∀ m ∈ s.mappings, ∀ k ∈ m.positions, k < s.slots.length
  nodup : s.positions.Nodup
  /-- A slot belongs to one position in all maps. -/
  home : ∀ m ∈ s.mappings, ∀ m' ∈ s.mappings, ∀ p q k : Nat,
    m.positions[p]? = some k → m'.positions[q]? = some k → p = q
  last : ∃ earlier version, s.mappings = earlier ++ [⟨s.hostId, version, s.positions⟩]
  /-- A map has the slot of a position as long as no later binding changed the type. -/
  traced : ∀ earlier m later, s.mappings = earlier ++ m :: later →
    ∀ p t, s.typeAt? p = some t →
      (m.positions[p]? = s.slotFor? p ↔ ∀ m' ∈ m :: later, s.typeUnder? m' p = some t)

/-- A list that ends in `a`, cut before `m`: either `m` is the end, or the cut comes earlier. -/
lemma cut_concat {α : Type} {l earlier later : List α} {a m : α}
    (h : l ++ [a] = earlier ++ m :: later) :
    (m = a ∧ later = []) ∨ ∃ later', later = later' ++ [a] ∧ l = earlier ++ m :: later' := by
  rcases List.eq_nil_or_concat' later with rfl | ⟨later', a', rfl⟩
  · obtain ⟨-, hm⟩ := List.append_inj' h rfl
    exact .inl ⟨(List.cons.inj hm).1.symm, rfl⟩
  · have h' : l ++ [a] = (earlier ++ m :: later') ++ [a'] := by simpa using h
    obtain ⟨hl, ha⟩ := List.append_inj' h' rfl
    obtain rfl := (List.cons.inj ha).1
    exact .inr ⟨later', rfl, hl⟩

lemma Tidy.positions_lt (h : s.Tidy) : ∀ k ∈ s.positions, k < s.slots.length := by
  obtain ⟨earlier, version, hlast⟩ := h.last
  exact h.range _ (hlast ▸ List.mem_append_right _ List.mem_cons_self)

lemma typeUnder?_current (s : CaptureSite) (hostId : TypeId) (version p : Nat) :
    s.typeUnder? ⟨hostId, version, s.positions⟩ p = s.typeAt? p :=
  rfl

lemma tidy_create (b : SiteBinding) : (create b).Tidy where
  range m hm k hk := by
    obtain rfl := List.mem_singleton.mp hm
    simpa [create] using hk
  nodup := List.nodup_range
  home m hm m' hm' p q k hp hq := by
    obtain rfl := List.mem_singleton.mp hm
    obtain rfl := List.mem_singleton.mp hm'
    have hlt : p < (List.range b.shape.captured.length).length :=
      (List.getElem?_eq_some_iff.mp hp).1
    exact (List.getElem?_inj hlt List.nodup_range).mp (hp.trans hq.symm)
  last := ⟨[], b.hostVersion, rfl⟩
  traced earlier m later h p t ht := by
    rcases cut_concat (l := []) h with ⟨rfl, rfl⟩ | ⟨later', -, hnil⟩
    · simpa [slotFor?, create] using (typeUnder?_current (create b) b.hostId b.hostVersion p).trans ht
    · simp at hnil

lemma captures_create (b : SiteBinding) : (create b).Captures b.shape.captured := by
  refine List.ext_getElem? fun p => ?_
  simp only [create, List.getElem?_map]
  by_cases hp : p < b.shape.captured.length
  · simp [slotType?, hp]
  · simp [hp]

namespace Rebound

lemma mem_mappings {m : HostMapping} (h : s.Rebound s' b) (hm : m ∈ s'.mappings) :
    m ∈ s.mappings ∨ m = ⟨b.hostId, b.hostVersion, s'.positions⟩ := by
  rw [h.mappings_eq] at hm
  simpa using hm

/-- Earlier maps give positions the types that they gave before. -/
lemma typeUnder?_of (h : s.Rebound s' b) (hs : s.Tidy) {m : HostMapping} (hm : m ∈ s.mappings)
    (p : Nat) : s'.typeUnder? m p = s.typeUnder? m p := by
  unfold typeUnder?
  cases hk : m.positions[p]? with
  | none => rfl
  | some k => exact h.slotType?_of (hs.range m hm k (List.mem_of_getElem? hk))

/-- A slot of a position after binding anew is the slot that the position had, or a new one. -/
lemma slotFor?_cases (h : s.Rebound s' b) {p k : Nat} (hslot : s'.slotFor? p = some k) :
    s.slotFor? p = some k ∨ s.slots.length ≤ k := by
  have hp : p < b.shape.captured.length := by
    rw [← h.length_positions]
    exact (List.getElem?_eq_some_iff.mp hslot).1
  rcases h.slotFor?_of (List.getElem?_eq_getElem hp) with ⟨k', hkept, hslot'⟩ | ⟨-, k', hge, hslot', -⟩
  · obtain rfl := Option.some.inj (hslot.symm.trans hslot')
    exact .inl (slotFor?_of_kept? hkept).1
  · obtain rfl := Option.some.inj (hslot.symm.trans hslot')
    exact .inr hge

/-- A slot of the new map belongs to the position that it has in an earlier map. -/
lemma home_of_old (h : s.Rebound s' b) (hs : s.Tidy) {m : HostMapping} (hm : m ∈ s.mappings)
    {p q k : Nat} (hp : s'.slotFor? p = some k) (hq : m.positions[q]? = some k) : p = q := by
  rcases h.slotFor?_cases hp with hold | hge
  · obtain ⟨earlier, version, hlast⟩ := hs.last
    have hmem : (⟨s.hostId, version, s.positions⟩ : HostMapping) ∈ s.mappings :=
      hlast ▸ List.mem_append_right _ List.mem_cons_self
    exact hs.home _ hmem m hm p q k hold hq
  · have := hs.range m hm k (List.mem_of_getElem? hq)
    omega

lemma nodup_positions (h : s.Rebound s' b) (hs : s.Tidy) : s'.positions.Nodup := by
  rw [h.positions_eq]
  exact nodup_assign hs.nodup hs.positions_lt 0 _

theorem tidy (h : s.Rebound s' b) (hs : s.Tidy) : s'.Tidy where
  range m hm k hk := by
    rw [h.length_slots]
    rcases h.mem_mappings hm with hold | rfl
    · have := hs.range m hold k hk
      omega
    · simp only [h.positions_eq] at hk
      rcases mem_assign hk with ⟨q, -, hq⟩ | ⟨-, hlt⟩
      · have := hs.positions_lt k (List.mem_of_getElem? hq)
        omega
      · exact hlt
  nodup := h.nodup_positions hs
  home m hm m' hm' p q k hp hq := by
    rcases h.mem_mappings hm with hm | rfl
    · rcases h.mem_mappings hm' with hm' | rfl
      · exact hs.home m hm m' hm' p q k hp hq
      · exact (h.home_of_old hs hm hq hp).symm
    · rcases h.mem_mappings hm' with hm' | rfl
      · exact h.home_of_old hs hm' hp hq
      · have hlt : p < s'.positions.length := (List.getElem?_eq_some_iff.mp hp).1
        exact (List.getElem?_inj hlt (h.nodup_positions hs)).mp (hp.trans hq.symm)
  last := ⟨s.mappings, b.hostVersion, by rw [h.mappings_eq, h.hostId_eq]⟩
  traced earlier m later hcut p t ht := by
    rw [h.mappings_eq] at hcut
    have hp : b.shape.captured[p]? = some t := by rw [← h.captures.typeAt?_eq, ht]
    rcases cut_concat hcut with ⟨rfl, rfl⟩ | ⟨later, rfl, hold⟩
    · simpa [slotFor?, typeUnder?_current] using ht
    · have hm : m ∈ s.mappings := hold ▸ List.mem_append_right _ List.mem_cons_self
      have hsub : ∀ m' ∈ m :: later, s'.typeUnder? m' p = s.typeUnder? m' p := fun m' hm' =>
        h.typeUnder?_of hs (hold ▸ List.mem_append_right _ hm') p
      have hsplit : (∀ m' ∈ m :: (later ++ [⟨b.hostId, b.hostVersion, s'.positions⟩]),
          s'.typeUnder? m' p = some t) ↔ ∀ m' ∈ m :: later, s.typeUnder? m' p = some t := by
        rw [← List.cons_append, List.forall_mem_append, List.forall_mem_singleton,
          typeUnder?_current, ht]
        simp only [and_true]
        exact forall₂_congr fun m' hm' => by rw [hsub m' hm']
      rw [hsplit]
      rcases h.slotFor?_of hp with ⟨k, hkept, hslot⟩ | ⟨hnone, k, hge, hslot, -⟩
      · -- the position keeps its slot, and so the answer is the one before
        obtain ⟨hold', htype⟩ := slotFor?_of_kept? hkept
        rw [hslot, ← hold']
        exact hs.traced earlier m later hold p t (by rw [typeAt?, hold']; exact htype)
      · -- the position has a new slot, which no earlier map can have
        refine iff_of_false (fun heq => ?_) fun hall => ?_
        · have := hs.range m hm k (List.mem_of_getElem? (heq.trans hslot))
          omega
        · obtain ⟨earlier', version, hlast⟩ := hs.last
          have hmem : (⟨s.hostId, version, s.positions⟩ : HostMapping) ∈ m :: later := by
            rcases cut_concat (hlast.symm.trans hold) with ⟨rfl, -⟩ | ⟨later', rfl, -⟩ <;> simp
          have htype := hall _ hmem
          rw [typeUnder?_current, typeAt?] at htype
          obtain ⟨k', hk', htype⟩ := Option.bind_eq_some_iff.mp htype
          exact kept?_eq_none_iff.mp hnone k' hk' htype

end Rebound

/-! ### What code of a host version reads -/

/-- Whether every binding since the one that code of a host version goes by kept the type of a
position. -/
def KeptSince (s : CaptureSite) (hostId : TypeId) (version p : Nat) : Prop :=
  ∀ earlier m later, s.mappings = earlier ++ m :: later →
    (m.hostId = hostId ∧ m.hostVersion ≤ version) →
    (∀ m' ∈ later, ¬ (m'.hostId = hostId ∧ m'.hostVersion ≤ version)) →
    ∀ m' ∈ m :: later, s.typeUnder? m' p = s.typeAt? p

/-- The map that code of a host version goes by is the last one for it. -/
lemma mappingAt?_eq_some {hostId : TypeId} {version : Nat} {m : HostMapping} :
    s.mappingAt? hostId version = some m ↔
      (m.hostId = hostId ∧ m.hostVersion ≤ version) ∧ ∃ earlier later,
        s.mappings = earlier ++ m :: later ∧
          ∀ m' ∈ later, ¬ (m'.hostId = hostId ∧ m'.hostVersion ≤ version) := by
  simp only [mappingAt?, List.find?_eq_some_iff_append, Bool.and_eq_true, decide_eq_true_eq,
    Bool.not_eq_true', Bool.and_eq_false_imp, decide_eq_false_iff_not, not_and]
  refine and_congr_right fun _ => ⟨?_, ?_⟩
  · rintro ⟨front, back, hsplit, hfront⟩
    refine ⟨back.reverse, front.reverse, ?_, fun m' hm' => hfront m' (List.mem_reverse.mp hm')⟩
    simpa using congrArg List.reverse hsplit
  · rintro ⟨earlier, later, hsplit, hlater⟩
    refine ⟨later.reverse, earlier.reverse, ?_, fun m' hm' => hlater m' (List.mem_reverse.mp hm')⟩
    simp [hsplit]

/-- The last member of a list with a property stands in one place only. -/
lemma cut_unique {α : Type} {P : α → Prop} {earlier later earlier' later' : List α} {m m' : α}
    (h : earlier ++ m :: later = earlier' ++ m' :: later') (hm : P m) (hm' : P m')
    (hlater : ∀ a ∈ later, ¬ P a) (hlater' : ∀ a ∈ later', ¬ P a) : m = m' ∧ later = later' := by
  rcases List.append_eq_append_iff.mp h with ⟨middle, -, hsplit⟩ | ⟨middle, -, hsplit⟩
  · rcases List.cons_eq_append_iff.mp hsplit with ⟨rfl, hcons⟩ | ⟨middle, rfl, rfl⟩
    · obtain ⟨rfl, rfl⟩ := List.cons.inj hcons
      exact ⟨rfl, rfl⟩
    · exact absurd hm' (hlater m' (by simp))
  · rcases List.cons_eq_append_iff.mp hsplit with ⟨rfl, hcons⟩ | ⟨middle, rfl, rfl⟩
    · obtain ⟨rfl, rfl⟩ := List.cons.inj hcons
      exact ⟨rfl, rfl⟩
    · exact absurd hm (hlater' m (by simp))

/-- Code of a host version reads a position where the site has it now just when every binding since
the one that the code goes by kept its type. -/
theorem Tidy.slotAt?_eq_slotFor?_iff (hs : s.Tidy) {hostId : TypeId} {version p : Nat}
    {t : TypeDescriptor} (ht : s.typeAt? p = some t) :
    s.slotAt? hostId version p = s.slotFor? p ↔ s.KeptSince hostId version p := by
  cases hm : s.mappingAt? hostId version with
  | none =>
    refine iff_of_true (by rw [slotAt?, hm]; rfl) fun earlier m later hsplit hfor hlater => ?_
    rw [mappingAt?_eq_some.mpr ⟨hfor, earlier, later, hsplit, hlater⟩] at hm
    cases hm
  | some m =>
    obtain ⟨hfor, earlier, later, hsplit, hlater⟩ := mappingAt?_eq_some.mp hm
    have hslot : s.slotAt? hostId version p = m.positions[p]? := by rw [slotAt?, hm]
    rw [hslot, hs.traced earlier m later hsplit p t ht]
    constructor
    · intro hall earlier' m' later' hsplit' hfor' hlater'
      obtain ⟨rfl, rfl⟩ := cut_unique (hsplit.symm.trans hsplit') hfor hfor' hlater hlater'
      rw [ht]
      exact hall
    · intro hkept m' hm'
      rw [hkept earlier m later hsplit hfor hlater m' hm', ht]

/-- Code of a version that is as new as every binding to its host reads each position where the site
has it now. -/
lemma Tidy.keptSince (hs : s.Tidy) {version p : Nat}
    (hnew : ∀ m ∈ s.mappings, m.hostId = s.hostId → m.hostVersion ≤ version) :
    s.KeptSince s.hostId version p := by
  intro earlier m later hsplit _ hlater m' hm'
  obtain ⟨earlier', version', hlast⟩ := hs.last
  rcases cut_concat (hlast.symm.trans hsplit) with ⟨rfl, rfl⟩ | ⟨later', rfl, -⟩
  · obtain rfl := List.mem_singleton.mp hm'
    rfl
  · have hmem : (⟨s.hostId, version', s.positions⟩ : HostMapping) ∈ s.mappings :=
      hlast ▸ List.mem_append_right _ List.mem_cons_self
    exact absurd ⟨rfl, hnew _ hmem rfl⟩ (hlater _ (by simp))

/-- Code goes by slots that there are. -/
lemma Tidy.slotAt?_lt (hs : s.Tidy) {hostId : TypeId} {version p k : Nat}
    (h : s.slotAt? hostId version p = some k) : k < s.slots.length := by
  unfold slotAt? at h
  cases hm : s.mappingAt? hostId version with
  | none =>
    rw [hm] at h
    exact hs.positions_lt k (List.mem_of_getElem? h)
  | some m =>
    rw [hm] at h
    obtain ⟨-, earlier, later, hsplit, -⟩ := mappingAt?_eq_some.mp hm
    exact hs.range m (hsplit ▸ List.mem_append_right _ List.mem_cons_self) k
      (List.mem_of_getElem? h)

/-- Code of such a version reads every position where the site has it now, also one that there is
not. -/
lemma Tidy.slotAt?_of_newest (hs : s.Tidy) {version : Nat}
    (hnew : ∀ m ∈ s.mappings, m.hostId = s.hostId → m.hostVersion ≤ version) (p : Nat) :
    s.slotAt? s.hostId version p = s.slotFor? p := by
  obtain ⟨earlier, version', hlast⟩ := hs.last
  have hle : version' ≤ version := hnew _ (hlast ▸ List.mem_append_right _ List.mem_cons_self) rfl
  have hmapping : s.mappingAt? s.hostId version = some ⟨s.hostId, version', s.positions⟩ :=
    mappingAt?_eq_some.mpr ⟨⟨rfl, hle⟩, earlier, [], hlast, by simp⟩
  rw [slotAt?, hmapping]
  rfl

/-! ### Over many bindings -/

/-- A site becomes another by being bound anew any number of times. -/
abbrev Evolves : CaptureSite → CaptureSite → Prop :=
  Relation.ReflTransGen fun s s' => ∃ b, s.Rebound s' b

/-- Whether closures of a site hold the enclosing instance is fixed for good. -/
lemma Evolves.capturesThis_eq (h : s.Evolves s') : s'.capturesThis = s.capturesThis := by
  induction h with
  | refl => rfl
  | tail _ hstep ih =>
    obtain ⟨b, hb⟩ := hstep
    rw [hb.capturesThis_same, ih]

lemma Evolves.tidy (h : s.Evolves s') (hs : s.Tidy) : s'.Tidy := by
  induction h with
  | refl => exact hs
  | tail _ hstep ih =>
    obtain ⟨b, hb⟩ := hstep
    exact hb.tidy ih

lemma Evolves.length_slots_le (h : s.Evolves s') : s.slots.length ≤ s'.slots.length := by
  induction h with
  | refl => exact Nat.le_refl _
  | tail _ hstep ih =>
    obtain ⟨b, hb⟩ := hstep
    have := hb.length_slots
    omega

lemma Evolves.slotType?_of (h : s.Evolves s') {k : Nat} (hk : k < s.slots.length) :
    s'.slotType? k = s.slotType? k := by
  induction h with
  | refl => rfl
  | tail hbefore hstep ih =>
    obtain ⟨b, hb⟩ := hstep
    have := Evolves.length_slots_le hbefore
    rw [hb.slotType?_of (by omega), ih]

/-- The maps of a site are only added to. -/
lemma Evolves.mappings_grow (h : s.Evolves s') : s.mappings <+: s'.mappings := by
  induction h with
  | refl => exact List.prefix_refl _
  | tail _ hstep ih =>
    obtain ⟨b, hb⟩ := hstep
    exact ih.trans (hb.mappings_eq ▸ List.prefix_append _ _)

/-- A slot that there was before belongs to the position that it belonged to. -/
lemma Evolves.slotFor?_of_lt (h : s.Evolves s') {p k : Nat} (hk : k < s.slots.length)
    (hslot : s'.slotFor? p = some k) : s.slotFor? p = some k := by
  induction h with
  | refl => exact hslot
  | tail hbefore hstep ih =>
    obtain ⟨b, hb⟩ := hstep
    rcases hb.slotFor?_cases hslot with hold | hge
    · exact ih hold
    · have := Evolves.length_slots_le hbefore
      omega

/-- A position has the slot that it had just when it kept its type all the while. -/
theorem Evolves.slotFor?_eq_iff (h : s.Evolves s') (hs : s.Tidy) {since : List HostMapping}
    (hsince : s'.mappings = s.mappings ++ since) {p : Nat} {t : TypeDescriptor}
    (ht : s'.typeAt? p = some t) :
    s.slotFor? p = s'.slotFor? p ↔
      s.typeAt? p = some t ∧ ∀ m ∈ since, s'.typeUnder? m p = some t := by
  obtain ⟨earlier, version, hlast⟩ := hs.last
  have hsplit : s'.mappings = earlier ++ ⟨s.hostId, version, s.positions⟩ :: since := by
    rw [hsince, hlast, List.append_assoc]
    rfl
  have htype : s'.typeUnder? ⟨s.hostId, version, s.positions⟩ p = s.typeAt? p := by
    rw [typeUnder?, typeAt?, slotFor?]
    cases hslot : s.positions[p]? with
    | none => rfl
    | some k => exact h.slotType?_of (hs.positions_lt k (List.mem_of_getElem? hslot))
  rw [← htype]
  exact ((h.tidy hs).traced _ _ _ hsplit p t ht).trans List.forall_mem_cons

end LiveTypes.CaptureSite
