import LiveTypes.Proofs.Capture.Table
import Mathlib.Data.List.Induction

/-!
# Allocation of slots

What a site is after any bindings, and what one more binding makes of it. Slots are only added, with
types that stay; a slot that no position has any more is never given to a position again, because each
position gets the slot that it had or a slot that is new.
-/

namespace LiveTypes

namespace CaptureSite

variable {s s' s'' : CaptureSite} {b last : SiteBinding}

/-! ### Live slots -/

/-- A site whose slots are live just when a position has them, and that counts its maps. -/
structure Marked (s : CaptureSite) : Prop where
  live_eq : ∀ k slot, s.slots[k]? = some slot → slot.live = s.positions.contains k
  generation_eq : s.mappings.length = s.generation + 1

lemma marked_create (b : SiteBinding) : (create b).Marked where
  live_eq k slot hslot := by
    simp only [create, List.getElem?_map, Option.map_eq_some_iff] at hslot ⊢
    obtain ⟨t, ht, rfl⟩ := hslot
    have hk := (List.getElem?_eq_some_iff.mp ht).1
    simpa using hk
  generation_eq := rfl

lemma marked_of_rebind (hs : s.Marked) (h : s.rebind b = .ok s') : s'.Marked := by
  unfold rebind at h
  split_ifs at h
  obtain rfl := Except.ok.inj h
  refine ⟨fun k slot hslot => ?_, ?_⟩
  · simp only [List.getElem?_map, List.getElem?_zipIdx, Option.map_eq_some_iff] at hslot
    obtain ⟨-, ⟨t, -, rfl⟩, rfl⟩ := hslot
    simp only [Nat.zero_add]
  · simpa using hs.generation_eq

lemma generation_of_rebind (h : s.rebind b = .ok s') : s'.generation = s.generation + 1 := by
  unfold rebind at h
  split_ifs at h
  obtain rfl := Except.ok.inj h
  rfl

lemma Marked.live_iff (hs : s.Marked) (ht : s.Tidy) (k : Nat) :
    (∃ slot, s.slots[k]? = some slot ∧ slot.live = true) ↔ k ∈ s.positions := by
  constructor
  · rintro ⟨slot, hslot, hlive⟩
    rw [hs.live_eq k slot hslot] at hlive
    exact List.contains_iff_mem.mp hlive
  · intro hk
    have hslot := List.getElem?_eq_getElem (ht.positions_lt k hk)
    exact ⟨_, hslot, (hs.live_eq k _ hslot).trans (List.contains_iff_mem.mpr hk)⟩

/-- The slots are known from their types and the positions. -/
lemma Marked.slots_eq (hs : s.Marked) (hs' : s'.Marked) (hpositions : s'.positions = s.positions)
    (htypes : s'.slots.map CaptureSlot.type = s.slots.map CaptureSlot.type) :
    s'.slots = s.slots := by
  have hlength : s'.slots.length = s.slots.length := by simpa using congrArg List.length htypes
  refine List.ext_getElem hlength fun k hk hk' => ?_
  have hlive := hs.live_eq k _ (List.getElem?_eq_getElem hk')
  have hlive' := hs'.live_eq k _ (List.getElem?_eq_getElem hk)
  have htype := congrArg (·[k]?) htypes
  simp only [List.getElem?_map, List.getElem?_eq_getElem hk, List.getElem?_eq_getElem hk',
    Option.map_some, Option.some.injEq] at htype
  rw [CaptureSlot.mk.injEq]
  exact ⟨htype, by rw [hlive, hlive', hpositions]⟩

/-! ### The same captured types again -/

lemma assign_of_captures {types : List TypeDescriptor} (made p : Nat)
    (h : (s.positions.drop p).map s.slotType? = types.map some) :
    s.assign made p types = (s.positions.drop p, []) := by
  induction types generalizing p with
  | nil =>
    rw [List.map_nil, List.map_eq_nil_iff] at h
    rw [h, assign]
  | cons t types ih =>
    cases hdrop : s.positions.drop p with
    | nil => simp [hdrop] at h
    | cons k rest =>
      rw [hdrop, List.map_cons, List.map_cons, List.cons.injEq] at h
      have hslot : s.slotFor? p = some k := by
        rw [slotFor?, ← List.head?_drop, hdrop, List.head?_cons]
      have hkept : s.kept? p t = some k := by
        rw [kept?, hslot, Option.filter_some, if_pos (by simpa using h.1)]
      have hrest : s.positions.drop (p + 1) = rest := by
        rw [← List.tail_drop, hdrop, List.tail_cons]
      rw [assign_cons_kept hkept, ih (p + 1) (hrest ▸ h.2), hrest]

/-- A binding with the captured types that there are changes neither slots nor positions. -/
lemma slots_of_captures (hs : s.Marked) (hcaptures : s.Captures b.shape.captured)
    (h : s.rebind b = .ok s') : s'.slots = s.slots ∧ s'.positions = s.positions := by
  have hrebound := rebound_of_rebind h
  have hassign := assign_of_captures s.slots.length 0 hcaptures
  have hpositions : s'.positions = s.positions := by rw [hrebound.positions_eq, hassign]; rfl
  have htypes : s'.slots.map CaptureSlot.type = s.slots.map CaptureSlot.type := by
    rw [hrebound.types_eq, hassign, List.append_nil]
  exact ⟨hs.slots_eq (marked_of_rebind hs h) hpositions htypes, hpositions⟩

lemma sameBinding_of_fits (hs : s.Marked) (hfits : s.Fits b) (h : s.rebind b = .ok s') :
    s.sameBinding s' = true := by
  have hrebound := rebound_of_rebind h
  obtain ⟨hslots, hpositions⟩ := slots_of_captures hs hfits.captures h
  simp only [sameBinding, Bool.and_eq_true, decide_eq_true_eq]
  exact ⟨⟨⟨hfits.hostId_eq.trans hrebound.hostId_eq.symm, hfits.host_eq.trans hrebound.host_eq.symm⟩,
    hslots.symm⟩, hpositions.symm⟩

/-! ### One binding -/

/-- What a binding makes of a site. -/
inductive Binds (s : CaptureSite) (b : SiteBinding) : CaptureSite → Prop
  | refused (hthis : b.shape.capturesThis ≠ s.capturesThis) : s.Binds b s
  | same {s' : CaptureSite} (hrebind : s.rebind b = .ok s') (hsame : s.sameBinding s' = true) :
      s.Binds b s
  | anew {s' : CaptureSite} (hrebind : s.rebind b = .ok s') (hdiffers : s.sameBinding s' = false) :
      s.Binds b s'

lemma binds_bound {t : SiteTable} (h : t.find? b.id = some s) : s.Binds b (t.bound b) := by
  cases hrebind : s.rebind b with
  | error detail =>
    simp only [SiteTable.bound, h, hrebind]
    refine .refused fun hthis => ?_
    obtain ⟨s', hs', -⟩ := exists_rebound hthis
    rw [hs'] at hrebind
    cases hrebind
  | ok s' =>
    simp only [SiteTable.bound, h, hrebind]
    split_ifs with hsame
    · exact .same hrebind hsame
    · exact .anew hrebind (by simpa using hsame)

namespace Binds

lemma tidy (h : s.Binds b s') (hs : s.Tidy) : s'.Tidy := by
  cases h with
  | refused | same => exact hs
  | anew hrebind => exact (rebound_of_rebind hrebind).tidy hs

lemma marked (h : s.Binds b s') (hs : s.Marked) : s'.Marked := by
  cases h with
  | refused | same => exact hs
  | anew hrebind => exact marked_of_rebind hs hrebind

lemma eq_of_refused (h : s.Binds b s') (hthis : b.shape.capturesThis ≠ s.capturesThis) :
    s' = s := by
  cases h with
  | refused | same => rfl
  | anew hrebind => exact absurd (rebound_of_rebind hrebind).capturesThis_eq hthis

lemma fits (h : s.Binds b s') (hthis : b.shape.capturesThis = s.capturesThis) : s'.Fits b := by
  cases h with
  | refused hne => exact absurd hthis hne
  | same hrebind hsame =>
    have hrebound := rebound_of_rebind hrebind
    exact hrebound.fits.of_sameBinding hrebound.capturesThis_same hsame
  | anew hrebind => exact (rebound_of_rebind hrebind).fits

lemma slots_eq (h : s.Binds b s') (hs : s.Marked) (hcaptures : s.Captures b.shape.captured) :
    s'.slots = s.slots ∧ s'.positions = s.positions := by
  cases h with
  | refused | same => exact ⟨rfl, rfl⟩
  | anew hrebind => exact slots_of_captures hs hcaptures hrebind

/-- A map is added just when the site is bound anew. -/
lemma mappings_cases (h : s.Binds b s') :
    (s'.mappings = s.mappings ∧ s'.generation = s.generation) ∨
      (s'.mappings = s.mappings ++ [⟨b.hostId, b.hostVersion, s'.positions⟩] ∧
        s'.generation = s.generation + 1) := by
  cases h with
  | refused | same => exact .inl ⟨rfl, rfl⟩
  | anew hrebind =>
    exact .inr ⟨(rebound_of_rebind hrebind).mappings_eq, generation_of_rebind hrebind⟩

/-- A site that fits a binding is not changed by it. -/
lemma eq_of_fits (h : s.Binds b s') (hs : s.Marked) (hfits : s.Fits b) : s' = s := by
  cases h with
  | refused | same => rfl
  | anew hrebind hdiffers =>
    rw [sameBinding_of_fits hs hfits hrebind] at hdiffers
    cases hdiffers

/-- A position that keeps its type keeps its slot. -/
lemma slotFor?_eq (h : s.Binds b s') {p : Nat} {t : TypeDescriptor} (hold : s.typeAt? p = some t)
    (hnew : b.shape.captured[p]? = some t) : s'.slotFor? p = s.slotFor? p := by
  cases h with
  | refused | same => rfl
  | anew hrebind =>
    obtain ⟨k, hslot, htype⟩ := Option.bind_eq_some_iff.mp hold
    rcases (rebound_of_rebind hrebind).slotFor?_of hnew with ⟨k', hkept, hslot'⟩ | ⟨hnone, -⟩
    · rw [hslot', (slotFor?_of_kept? hkept).1]
    · exact absurd htype (kept?_eq_none_iff.mp hnone k hslot)

/-- A position of another type gets a slot that there was not before. -/
lemma slotFor?_of_ne (h : s.Binds b s') (hthis : b.shape.capturesThis = s.capturesThis) {p : Nat}
    {t : TypeDescriptor} (hold : s.typeAt? p ≠ some t) (hnew : b.shape.captured[p]? = some t) :
    ∃ k, s'.slotFor? p = some k ∧ s.slots.length ≤ k := by
  cases h with
  | refused hne => exact absurd hthis hne
  | same hrebind hsame =>
    -- the site has the captured types of the binding, and so the position has its type
    have hrebound := rebound_of_rebind hrebind
    have hfits := hrebound.fits.of_sameBinding hrebound.capturesThis_same hsame
    exact absurd ((hfits.captures.typeAt?_eq p).trans hnew) hold
  | anew hrebind =>
    rcases (rebound_of_rebind hrebind).slotFor?_of hnew with ⟨k, hkept, -⟩ | ⟨-, k, hge, hslot, -⟩
    · obtain ⟨hslot, htype⟩ := slotFor?_of_kept? hkept
      exact absurd (Option.bind_eq_some_iff.mpr ⟨k, hslot, htype⟩) hold
    · exact ⟨k, hslot, hge⟩

end Binds

/-- A binding leaves a site that it was applied to as it is. -/
lemma Binds.eq_of_again (h : s.Binds b s') (hs : s.Marked) (hagain : s'.Binds b s'') : s'' = s' := by
  by_cases hthis : b.shape.capturesThis = s.capturesThis
  · exact hagain.eq_of_fits (h.marked hs) (h.fits hthis)
  · obtain rfl := h.eq_of_refused hthis
    exact hagain.eq_of_refused hthis

/-! ### Any bindings -/

lemma Evolves.types_prefix (h : s.Evolves s') :
    s.slots.map CaptureSlot.type <+: s'.slots.map CaptureSlot.type := by
  induction h with
  | refl => exact List.prefix_refl _
  | tail _ hstep ih =>
    obtain ⟨b, hb⟩ := hstep
    exact ih.trans (hb.types_eq ▸ List.prefix_append _ _)

/-- What a site is after bindings, the last accepted of which is given. -/
structure Allocated (s : CaptureSite) (last : SiteBinding) : Prop where
  /-- Each position has a slot of the type of its variable. -/
  fits : s.Fits last
  nodup : s.positions.Nodup
  range : ∀ k ∈ s.positions, k < s.slots.length
  live_iff : ∀ k, (∃ slot, s.slots[k]? = some slot ∧ slot.live = true) ↔ k ∈ s.positions
  mapping : ∃ earlier version, s.mappings = earlier ++ [⟨s.hostId, version, s.positions⟩]
  generation_eq : s.mappings.length = s.generation + 1

/-- What one more binding makes of a site that accepted a binding last. -/
structure Reallocates (s : CaptureSite) (last b : SiteBinding) (s' : CaptureSite) : Prop where
  refused : b.shape.capturesThis ≠ last.shape.capturesThis → s' = s
  /-- A position that keeps its type keeps its slot. -/
  kept : b.shape.capturesThis = last.shape.capturesThis → ∀ p t,
    last.shape.captured[p]? = some t → b.shape.captured[p]? = some t →
      s'.slotFor? p = s.slotFor? p
  /-- Any other position gets a slot that no position ever had. -/
  fresh : b.shape.capturesThis = last.shape.capturesThis → ∀ p t,
    last.shape.captured[p]? ≠ some t → b.shape.captured[p]? = some t →
      ∃ k, s'.slotFor? p = some k ∧ s.slots.length ≤ k ∧ ∀ m ∈ s.mappings, k ∉ m.positions
  mappings : (s'.mappings = s.mappings ∧ s'.generation = s.generation) ∨
    (s'.mappings = s.mappings ++ [⟨b.hostId, b.hostVersion, s'.positions⟩] ∧
      s'.generation = s.generation + 1)
  /-- Captured types that are the same, whichever the host, change neither slots nor positions. -/
  same : b.shape.capturesThis = last.shape.capturesThis → b.shape.captured = last.shape.captured →
    s'.slots = s.slots ∧ s'.positions = s.positions

/-- What is kept of a site over any bindings. -/
structure Continues (s s' : CaptureSite) : Prop where
  types : s.slots.map CaptureSlot.type <+: s'.slots.map CaptureSlot.type
  mappings : s.mappings <+: s'.mappings
  /-- A slot that is not live is never live again. -/
  retired : ∀ (k : Nat) (slot slot' : CaptureSlot), s.slots[k]? = some slot → slot.live = false →
    s'.slots[k]? = some slot' → slot'.live = false

lemma allocated (ht : s.Tidy) (hs : s.Marked) (hfits : s.Fits last) : s.Allocated last where
  fits := hfits
  nodup := ht.nodup
  range := ht.positions_lt
  live_iff := hs.live_iff ht
  mapping := ht.last
  generation_eq := hs.generation_eq

lemma Binds.reallocates (h : s.Binds b s') (ht : s.Tidy) (hs : s.Marked) (hfits : s.Fits last) :
    s.Reallocates last b s' where
  refused hthis := h.eq_of_refused (by rwa [hfits.capturesThis_eq])
  kept _ p t hold hnew := by
    rw [← hfits.captures.typeAt?_eq] at hold
    exact h.slotFor?_eq hold hnew
  fresh hthis p t hold hnew := by
    rw [← hfits.captures.typeAt?_eq] at hold
    obtain ⟨k, hslot, hge⟩ := h.slotFor?_of_ne (by rwa [hfits.capturesThis_eq]) hold hnew
    refine ⟨k, hslot, hge, fun m hm hk => ?_⟩
    have := ht.range m hm k hk
    omega
  mappings := h.mappings_cases
  same _ hcaptured := h.slots_eq hs (hcaptured ▸ hfits.captures)

lemma Evolves.continues (h : s.Evolves s') (hs : s.Marked) (hs' : s'.Marked) : s.Continues s' where
  types := h.types_prefix
  mappings := h.mappings_grow
  retired k slot slot' hslot hlive hslot' := by
    by_contra hne
    have hk := (List.getElem?_eq_some_iff.mp hslot).1
    have hcontains : s'.positions.contains k = true := by
      rw [← hs'.live_eq k slot' hslot']
      simpa using hne
    obtain ⟨p, hp⟩ := List.getElem?_of_mem (List.contains_iff_mem.mp hcontains)
    have hold : k ∈ s.positions := List.mem_of_getElem? (h.slotFor?_of_lt hk hp)
    rw [hs.live_eq k slot hslot, List.contains_iff_mem.mpr hold] at hlive
    cases hlive

end CaptureSite

/-- The last of some bindings of any sites that the site of the first accepted. -/
def SiteBinding.lastAccepted (first : SiteBinding) (applied : List SiteBinding) : SiteBinding :=
  (applied.filter fun b =>
    b.id = first.id ∧ b.shape.capturesThis = first.shape.capturesThis).getLastD first

lemma SiteBinding.capturesThis_lastAccepted (first : SiteBinding) (applied : List SiteBinding) :
    (first.lastAccepted applied).shape.capturesThis = first.shape.capturesThis := by
  rcases List.mem_cons.mp (List.getLastD_mem_cons (a := first) (l := applied.filter fun b =>
      b.id = first.id ∧ b.shape.capturesThis = first.shape.capturesThis)) with heq | hmem
  · rw [lastAccepted, heq]
  · exact (of_decide_eq_true (List.mem_filter.mp hmem).2).2

lemma SiteBinding.lastAccepted_concat (first b : SiteBinding) (applied : List SiteBinding) :
    first.lastAccepted (applied ++ [b]) =
      if b.id = first.id ∧ b.shape.capturesThis = first.shape.capturesThis then b
      else first.lastAccepted applied := by
  unfold lastAccepted
  split_ifs with h <;> simp [List.filter_append, h]

namespace SiteTable

open CaptureSite
open Registry (bindAll)

variable {t : SiteTable} {first : SiteBinding}

/-- After any bindings of any sites, a site is in order and fits the last that it accepted. -/
lemma exists_site (hnew : t.find? first.id = none) (applied : List SiteBinding) :
    ∃ s, (bindAll t (first :: applied)).find? first.id = some s ∧ s.Tidy ∧ s.Marked ∧
      s.Fits (first.lastAccepted applied) := by
  induction applied using List.reverseRecOn with
  | nil =>
    refine ⟨.create first, ?_, tidy_create first, marked_create first, fits_create first⟩
    rw [← bound_of_none hnew]
    exact find?_bind_self t first
  | append_singleton applied b ih =>
    obtain ⟨s, hs, htidy, hmarked, hfits⟩ := ih
    rw [← List.cons_append, Registry.bindAll_concat, SiteBinding.lastAccepted_concat]
    by_cases hid : b.id = first.id
    · have hthis : s.capturesThis = first.shape.capturesThis := by
        rw [hfits.capturesThis_eq, SiteBinding.capturesThis_lastAccepted]
      rw [← hid] at hs ⊢
      have hbinds := binds_bound hs
      refine ⟨_, find?_bind_self _ b, hbinds.tidy htidy, hbinds.marked hmarked, ?_⟩
      split_ifs with haccepted
      · exact hbinds.fits (haccepted.2.trans hthis.symm)
      · rw [hbinds.eq_of_refused fun heq => haccepted ⟨rfl, heq.trans hthis⟩]
        exact hfits
    · rw [find?_bind_of_ne (Ne.symm hid), if_neg fun haccepted => hid haccepted.1]
      exact ⟨s, hs, htidy, hmarked, hfits⟩

lemma bind_again {b : SiteBinding} {s : CaptureSite} (hs : t.find? b.id = some s)
    (hmarked : s.Marked) : (t.bind b).bind b = t.bind b := by
  have hagain := (binds_bound hs).eq_of_again hmarked (binds_bound (find?_bind_self t b))
  refine eq_of_find? fun id => ?_
  rw [find?_bind]
  split_ifs with hid
  · rw [hagain, ← hid, find?_bind_self]
  · rfl

/-- After any bindings, a site has the slots that the last binding it accepted asks for; one more
binding keeps the slots of the positions whose types stay, makes new ones for the others and changes
nothing when it is applied again; and over any further bindings slots are only added, and those that are
not live stay so. -/
theorem slots_allocated (hnew : t.find? first.id = none) (applied : List SiteBinding) :
    ∃ s, (bindAll t (first :: applied)).find? first.id = some s ∧
      s.Allocated (first.lastAccepted applied) ∧
      (∀ b, b.id = first.id → ∃ s',
        (bindAll t (first :: applied ++ [b])).find? first.id = some s' ∧
          s.Reallocates (first.lastAccepted applied) b s' ∧
          bindAll t (first :: applied ++ [b] ++ [b]) = bindAll t (first :: applied ++ [b])) ∧
      ∀ later, ∃ s', (bindAll t (first :: applied ++ later)).find? first.id = some s' ∧
        s.Continues s' := by
  obtain ⟨s, hs, htidy, hmarked, hfits⟩ := exists_site hnew applied
  refine ⟨s, hs, allocated htidy hmarked hfits, fun b hid => ?_, fun later => ?_⟩
  · rw [← hid] at hs ⊢
    simp only [Registry.bindAll_concat]
    exact ⟨_, find?_bind_self _ b, (binds_bound hs).reallocates htidy hmarked hfits,
      bind_again hs hmarked⟩
  · obtain ⟨s', hs', -, hmarked', -⟩ := exists_site hnew (applied ++ later)
    obtain ⟨s'', hs'', hevolves⟩ : ∃ s'',
        (bindAll (bindAll t (first :: applied)) later).find? first.id = some s'' ∧ s.Evolves s'' :=
      Registry.evolves_bindAll hs
    rw [← Registry.bindAll_append] at hs''
    obtain rfl := Option.some.inj (hs'.symm.trans hs'')
    exact ⟨s', hs', hevolves.continues hmarked hmarked'⟩

/-- A binding of one site to a version of a host that captures variables of the given types. -/
def capturing (version : Nat) (captured : List TypeDescriptor) : SiteBinding :=
  ⟨⟨0, "run()I", 0⟩, "a.H", 1, version, ⟨captured, false⟩⟩

/-- A variable that is captured between two others moves the second of them to a new slot. -/
theorem slots_allocated_inserted :
    empty.find? (capturing 0 [.i32, .i64]).id = none ∧
      ∃ s, (bindAll empty [capturing 0 [.i32, .i64], capturing 1 [.i32, .str, .i64]]).find?
          ⟨0, "run()I", 0⟩ = some s ∧
        s.positions = [0, 2, 3] ∧ s.slots.map CaptureSlot.live = [true, false, true, true] ∧
        s.Allocated (capturing 1 [.i32, .str, .i64]) ∧
        ∀ later, ∃ s', (bindAll empty ([capturing 0 [.i32, .i64], capturing 1 [.i32, .str, .i64]] ++
          later)).find? ⟨0, "run()I", 0⟩ = some s' ∧ s.Continues s' := by
  have hnew : empty.find? (capturing 0 [.i32, .i64]).id = none := find?_empty _
  obtain ⟨s, hs, hallocated, -, hlater⟩ := slots_allocated hnew [capturing 1 [.i32, .str, .i64]]
  have hsite : ((bindAll empty [capturing 0 [.i32, .i64], capturing 1 [.i32, .str, .i64]]).find?
      ⟨0, "run()I", 0⟩).map (fun s => (s.positions, s.slots.map CaptureSlot.live)) =
        some ([0, 2, 3], [true, false, true, true]) := by
    decide +kernel
  obtain ⟨s', hs', heq⟩ := Option.map_eq_some_iff.mp hsite
  obtain rfl := Option.some.inj (hs.symm.trans hs')
  obtain ⟨hpositions, hlive⟩ := Prod.mk.inj heq
  exact ⟨hnew, s, hs, hpositions, hlive, hallocated, hlater⟩

end SiteTable

end LiveTypes
