import LiveTypes.Capture.Table
import LiveTypes.Proofs.Capture.Mapping
import LiveTypes.Registry.Register
import Mathlib.Data.List.Nodup

/-!
# Binding the sites of a table

What a list of bindings makes of a table of sites: a site that a binding names fits the binding in
the end, every other site is as it was, and no site is ever lost.
-/

namespace LiveTypes

/-- Whether a site has the host and the captured types of a binding. -/
structure CaptureSite.Fits (s : CaptureSite) (b : SiteBinding) : Prop where
  host_eq : s.host = b.host
  hostId_eq : s.hostId = b.hostId
  capturesThis_eq : s.capturesThis = b.shape.capturesThis
  captures : s.Captures b.shape.captured

lemma CaptureSite.fits_create (b : SiteBinding) : (create b).Fits b :=
  ⟨rfl, rfl, rfl, captures_create b⟩

lemma CaptureSite.Rebound.fits {s s' : CaptureSite} {b : SiteBinding} (h : s.Rebound s' b) :
    s'.Fits b :=
  ⟨h.host_eq, h.hostId_eq, by rw [h.capturesThis_same, h.capturesThis_eq], h.captures⟩

/-- A binding that would change nothing fits already. -/
lemma CaptureSite.Fits.of_sameBinding {s s' : CaptureSite} {b : SiteBinding} (h : s'.Fits b)
    (hthis : s'.capturesThis = s.capturesThis) (hsame : s.sameBinding s' = true) : s.Fits b := by
  simp only [sameBinding, Bool.and_eq_true, decide_eq_true_eq] at hsame
  obtain ⟨⟨⟨hid, hhost⟩, hslots⟩, hpositions⟩ := hsame
  have htypes : s.slotType? = s'.slotType? := by
    funext k
    rw [slotType?, slotType?, hslots]
  refine ⟨hhost.trans h.host_eq, hid.trans h.hostId_eq, hthis.symm.trans h.capturesThis_eq, ?_⟩
  rw [Captures, htypes, hpositions]
  exact h.captures

namespace SiteTable

variable {t : SiteTable} {b : SiteBinding} {s : CaptureSite}

/-- A binding can be applied when the site is new or its closures hold the enclosing instance
alike. -/
lemma check_eq_ok : t.check b = .ok () ↔
    ∀ s, t.find? b.id = some s → b.shape.capturesThis = s.capturesThis := by
  unfold check
  cases hs : t.find? b.id with
  | none => simp
  | some s =>
    simp only [Option.some.injEq, forall_eq']
    by_cases hthis : b.shape.capturesThis = s.capturesThis
    · obtain ⟨s', hs', -⟩ := CaptureSite.exists_rebound hthis
      simp [hs', hthis]
    · simp [CaptureSite.rebind, hthis]

/-- Two tables with the same sites are one. -/
lemma eq_of_find? {t t' : SiteTable} (h : ∀ id, t.find? id = t'.find? id) : t = t' := by
  obtain ⟨sites⟩ := t
  obtain ⟨sites'⟩ := t'
  congr 1
  exact Std.ExtTreeMap.ext_getElem? h

lemma bound_congr {t t' : SiteTable} {b : SiteBinding} (h : t'.find? b.id = t.find? b.id) :
    t'.bound b = t.bound b := by
  rw [bound, bound, h]

lemma check_congr {t t' : SiteTable} {b : SiteBinding} (h : t'.find? b.id = t.find? b.id) :
    t'.check b = t.check b := by
  rw [check, check, h]

lemma find?_bind_self (t : SiteTable) (b : SiteBinding) :
    (t.bind b).find? b.id = some (t.bound b) := by
  rw [find?_bind, if_pos rfl]

lemma find?_bind_of_ne {id : SiteId} (h : id ≠ b.id) : (t.bind b).find? id = t.find? id := by
  rw [find?_bind, if_neg h.symm]

lemma bound_of_none (h : t.find? b.id = none) : t.bound b = .create b := by
  rw [bound, h]

/-- A site that a binding names is bound anew, unless that would change nothing or is refused. -/
lemma bound_of_some (h : t.find? b.id = some s) :
    t.bound b = s ∨ s.Rebound (t.bound b) b := by
  cases hs' : s.rebind b with
  | error _ => exact .inl (by simp only [bound, h, hs'])
  | ok s' =>
    simp only [bound, h, hs']
    split_ifs with hsame
    · exact .inl rfl
    · exact .inr (CaptureSite.rebound_of_rebind hs')

lemma evolves_bound (h : t.find? b.id = some s) : s.Evolves (t.bound b) := by
  rcases bound_of_some h with heq | hrebound
  · rw [heq]
  · exact .single ⟨b, hrebound⟩

/-- A site fits the binding that was checked and applied. -/
lemma fits_bound (hcheck : t.check b = .ok ()) : (t.bound b).Fits b := by
  cases h : t.find? b.id with
  | none => exact bound_of_none h ▸ CaptureSite.fits_create b
  | some s =>
    have hthis := check_eq_ok.mp hcheck s h
    obtain ⟨s', hs', hrebound⟩ := CaptureSite.exists_rebound hthis
    simp only [bound, h, hs']
    split_ifs with hsame
    · exact hrebound.fits.of_sameBinding hrebound.capturesThis_same hsame
    · exact hrebound.fits

lemma mem_boundTo {host : String} {id : SiteId} :
    id ∈ t.boundTo host ↔ ∃ s, t.find? id = some s ∧ s.host = host := by
  simp only [boundTo, find?, List.mem_map, List.mem_filter, decide_eq_true_eq, Prod.exists,
    exists_and_right, exists_eq_right, Std.ExtTreeMap.mem_toList_iff_getElem?_eq_some]

/-- The sites of a host are listed by rising identity. -/
lemma pairwise_boundTo (t : SiteTable) (host : String) :
    (t.boundTo host).Pairwise fun a b => compare a b = .lt := by
  rw [boundTo, List.pairwise_map]
  exact t.sites.ordered_keys_toList.filter _

lemma nodup_boundTo (t : SiteTable) (host : String) : (t.boundTo host).Nodup :=
  (pairwise_boundTo t host).imp fun hlt heq => by simp [heq] at hlt

/-- Binding every site of a host applies a list of bindings. -/
lemma rebindHost_eq (t : SiteTable) (host : String) (hostId : TypeId) (version : Nat)
    (shape : HostShape) : t.rebindHost host hostId version shape =
      Registry.bindAll t ((t.boundTo host).map (hostBinding host hostId version shape)) :=
  List.foldl_map.symm

end SiteTable

namespace Registry

open CaptureSite SiteTable

variable {t : SiteTable} {bindings : List SiteBinding}

lemma bindAll_append (t : SiteTable) (bindings bindings' : List SiteBinding) :
    bindAll t (bindings ++ bindings') = bindAll (bindAll t bindings) bindings' := by
  simp only [bindAll, List.foldl_append]

lemma bindAll_concat (t : SiteTable) (bindings : List SiteBinding) (b : SiteBinding) :
    bindAll t (bindings ++ [b]) = (bindAll t bindings).bind b :=
  bindAll_append t bindings [b]

/-- What holds of every site, of every site that is made and of every site that is bound anew holds
of the sites of a table after any bindings. -/
lemma bindAll_induction {P : SiteId → CaptureSite → Prop}
    (old : ∀ id s, t.find? id = some s → P id s) (made : ∀ b ∈ bindings, P b.id (.create b))
    (rebound : ∀ b ∈ bindings, ∀ s s', P b.id s → s.Rebound s' b → P b.id s') :
    ∀ id s, (bindAll t bindings).find? id = some s → P id s := by
  induction bindings generalizing t with
  | nil => exact old
  | cons b rest ih =>
    refine ih (t := t.bind b) (fun id s hs => ?_) (fun b' hb' => made b' (List.mem_cons_of_mem _ hb'))
      fun b' hb' => rebound b' (List.mem_cons_of_mem _ hb')
    rw [find?_bind] at hs
    split_ifs at hs with hid
    · obtain rfl := Option.some.inj hs
      subst hid
      cases hfind : t.find? b.id with
      | none => exact bound_of_none hfind ▸ made b List.mem_cons_self
      | some s =>
        rcases bound_of_some hfind with heq | hrebound
        · exact heq.symm ▸ old b.id s hfind
        · exact rebound b List.mem_cons_self s _ (old b.id s hfind) hrebound
    · exact old id s hs

/-- No site is lost: each evolves. -/
lemma evolves_bindAll {id : SiteId} {s : CaptureSite} (hs : t.find? id = some s) :
    ∃ s', (bindAll t bindings).find? id = some s' ∧ s.Evolves s' := by
  induction bindings generalizing t s with
  | nil => exact ⟨s, hs, .refl⟩
  | cons b rest ih =>
    by_cases hid : b.id = id
    · subst hid
      obtain ⟨s', hs', hevolves⟩ := ih (t := t.bind b) (by rw [find?_bind, if_pos rfl])
      exact ⟨s', hs', (evolves_bound hs).trans hevolves⟩
    · exact ih (t := t.bind b) (by rw [find?_bind, if_neg hid, hs])

/-- A site that is bound to its own host only keeps its host. -/
lemma evolves_bindAll_of_host {id : SiteId} {s : CaptureSite} (hs : t.find? id = some s)
    (hhost : ∀ b ∈ bindings, b.id = id → b.host = s.host) :
    ∃ s', (bindAll t bindings).find? id = some s' ∧ s.Evolves s' ∧ s'.host = s.host := by
  induction bindings generalizing t s with
  | nil => exact ⟨s, hs, .refl, rfl⟩
  | cons b rest ih =>
    obtain ⟨hb, hrest⟩ := List.forall_mem_cons.mp hhost
    by_cases hid : b.id = id
    · have hkept : (t.bound b).host = s.host := by
        rcases bound_of_some (hid ▸ hs) with heq | hrebound
        · rw [heq]
        · rw [hrebound.host_eq, hb hid]
      obtain ⟨s', hs', hevolves, hsame⟩ := ih (t := t.bind b) (by rw [find?_bind, if_pos hid])
        fun b' hb' hid' => (hrest b' hb' hid').trans hkept.symm
      exact ⟨s', hs', (evolves_bound (hid ▸ hs)).trans hevolves, hsame.trans hkept⟩
    · exact ih (t := t.bind b) (by rw [find?_bind, if_neg hid, hs]) hrest

/-- Binding the sites of a host takes none of them away from it, and none to it. -/
lemma evolves_rebindHost {host : String} {hostId : TypeId} {version : Nat} {shape : HostShape}
    {id : SiteId} {s : CaptureSite} (hs : t.find? id = some s) :
    ∃ s', (t.rebindHost host hostId version shape).find? id = some s' ∧ s.Evolves s' ∧
      s'.host = s.host := by
  rw [rebindHost_eq]
  refine evolves_bindAll_of_host hs fun b hb hid => ?_
  obtain ⟨id', hid', rfl⟩ := List.mem_map.mp hb
  obtain ⟨s', hs', rfl⟩ := mem_boundTo.mp hid'
  obtain rfl : id' = id := hid
  obtain rfl := Option.some.inj (hs.symm.trans hs')
  rfl

/-- A site was there before or is one that a binding names. -/
lemma mem_bindAll {id : SiteId} {s : CaptureSite} (hs : (bindAll t bindings).find? id = some s) :
    (∃ s₀, t.find? id = some s₀) ∨ ∃ b ∈ bindings, b.id = id :=
  bindAll_induction
    (P := fun id _ => (∃ s₀, t.find? id = some s₀) ∨ ∃ b ∈ bindings, b.id = id)
    (fun _ s₀ hs₀ => .inl ⟨s₀, hs₀⟩) (fun b hb => .inr ⟨b, hb, rfl⟩)
    (fun b hb _ _ _ _ => .inr ⟨b, hb, rfl⟩) id s hs

/-- A site that no binding names is as it was. -/
lemma find?_bindAll_of_other {id : SiteId} (hother : ∀ b ∈ bindings, b.id ≠ id) :
    (bindAll t bindings).find? id = t.find? id := by
  induction bindings generalizing t with
  | nil => rfl
  | cons b rest ih =>
    obtain ⟨hb, hrest⟩ := List.forall_mem_cons.mp hother
    refine (ih (t := t.bind b) hrest).trans ?_
    rw [find?_bind, if_neg hb]

/-- What becomes of a site depends on the site alone. -/
lemma find?_bindAll_congr {sites sites' : SiteTable} (bindings : List SiteBinding) {id : SiteId}
    (h : sites'.find? id = sites.find? id) :
    (bindAll sites' bindings).find? id = (bindAll sites bindings).find? id := by
  induction bindings generalizing sites sites' with
  | nil => exact h
  | cons b rest ih =>
    have hbind : (sites'.bind b).find? id = (sites.bind b).find? id := by
      rw [find?_bind, find?_bind]
      split_ifs with hid
      · rw [bound_congr (hid ▸ h)]
      · exact h
    exact ih hbind

/-- Bindings of different sites can change places. -/
lemma bindAll_comm (sites : SiteTable) {bs bs' : List SiteBinding}
    (h : ∀ b ∈ bs, ∀ b' ∈ bs', b.id ≠ b'.id) :
    bindAll (bindAll sites bs) bs' = bindAll (bindAll sites bs') bs := by
  refine eq_of_find? fun id => ?_
  by_cases hid : ∃ b ∈ bs, b.id = id
  · obtain ⟨b, hb, rfl⟩ := hid
    have hother : ∀ b' ∈ bs', b'.id ≠ b.id := fun b' hb' => (h b hb b' hb').symm
    rw [find?_bindAll_of_other hother,
      find?_bindAll_congr bs (find?_bindAll_of_other (t := sites) hother)]
  · have hother : ∀ b ∈ bs, b.id ≠ id := fun b hb heq => hid ⟨b, hb, heq⟩
    rw [find?_bindAll_of_other hother,
      find?_bindAll_congr bs' (find?_bindAll_of_other (t := sites) hother)]

/-- Sites that are bound for the first time are as their bindings make them. -/
lemma find?_bindAll_of_fresh (hnodup : (bindings.map SiteBinding.id).Nodup)
    (hfresh : ∀ b ∈ bindings, t.find? b.id = none) (id : SiteId) :
    (bindAll t bindings).find? id =
      ((bindings.find? fun b => b.id = id).map .create).or (t.find? id) := by
  induction bindings generalizing t with
  | nil => rfl
  | cons b rest ih =>
    obtain ⟨hb, hrest⟩ := List.nodup_cons.mp hnodup
    obtain ⟨hnone, hnones⟩ := List.forall_mem_cons.mp hfresh
    have hne : ∀ b' ∈ rest, b.id ≠ b'.id := fun b' hb' heq => hb (heq ▸ List.mem_map_of_mem hb')
    refine (ih (t := t.bind b) hrest fun b' hb' => ?_).trans ?_
    · rw [find?_bind, if_neg (hne b' hb'), hnones b' hb']
    · rw [find?_bind, List.find?_cons]
      by_cases hid : b.id = id
      · have hothers : rest.find? (fun b => b.id = id) = none := by
          refine List.find?_eq_none.mpr fun b' hb' => ?_
          simpa [← hid] using (hne b' hb').symm
        simp [hid, hothers, bound_of_none hnone]
      · simp [hid]

/-- The bindings that are still to be applied can be, as long as those of one site agree. -/
lemma check_bind {b : SiteBinding} (agree : ∀ b' ∈ b :: bindings, t.check b' = .ok ())
    (same : ∀ b₁ ∈ b :: bindings, ∀ b₂ ∈ b :: bindings, b₁.id = b₂.id →
      b₁.shape.capturesThis = b₂.shape.capturesThis) :
    ∀ b' ∈ bindings, (t.bind b).check b' = .ok () := by
  intro b' hb'
  refine check_eq_ok.mpr fun s hs => ?_
  rw [find?_bind] at hs
  split_ifs at hs with hid
  · rw [← Option.some.inj hs, (fits_bound (agree b List.mem_cons_self)).capturesThis_eq]
    exact same b' (List.mem_cons_of_mem _ hb') b List.mem_cons_self hid.symm
  · exact check_eq_ok.mp (agree b' (List.mem_cons_of_mem _ hb')) s hs

/-- A site that no binding names is as it was, and one that is named fits a binding. -/
lemma fits_bindAll {id : SiteId} (agree : ∀ b ∈ bindings, t.check b = .ok ())
    (same : ∀ b ∈ bindings, ∀ b' ∈ bindings, b.id = b'.id →
      b.shape.capturesThis = b'.shape.capturesThis) :
    ((∀ b ∈ bindings, b.id ≠ id) ∧ (bindAll t bindings).find? id = t.find? id) ∨
      ∃ b ∈ bindings, b.id = id ∧ ∃ s, (bindAll t bindings).find? id = some s ∧ s.Fits b := by
  induction bindings generalizing t with
  | nil => exact .inl ⟨by simp, rfl⟩
  | cons b rest ih =>
    have hfits := fits_bound (agree b List.mem_cons_self)
    rcases ih (check_bind agree same) fun b₁ h₁ b₂ h₂ =>
        same b₁ (List.mem_cons_of_mem _ h₁) b₂ (List.mem_cons_of_mem _ h₂) with
      ⟨hother, hfind⟩ | ⟨b', hb', hid, s, hs, hfits'⟩
    · by_cases hid : b.id = id
      · refine .inr ⟨b, List.mem_cons_self, hid, t.bound b, ?_, hfits⟩
        show (bindAll (t.bind b) rest).find? id = _
        rw [hfind, find?_bind, if_pos hid]
      · refine .inl ⟨?_, ?_⟩
        · exact List.forall_mem_cons.mpr ⟨hid, hother⟩
        · show (bindAll (t.bind b) rest).find? id = _
          rw [hfind, find?_bind, if_neg hid]
    · exact .inr ⟨b', List.mem_cons_of_mem _ hb', hid, s, hs, hfits'⟩

/-- Bindings of distinct sites agree on each site. -/
lemma same_of_nodup (h : (bindings.map SiteBinding.id).Nodup) :
    ∀ b ∈ bindings, ∀ b' ∈ bindings, b.id = b'.id →
      b.shape.capturesThis = b'.shape.capturesThis :=
  fun _ hb _ hb' hid => by rw [List.inj_on_of_nodup_map h hb hb' hid]

/-- Each of several bindings of distinct sites is what its site fits then, if all can be applied. -/
lemma fits_of_mem (agree : ∀ b ∈ bindings, t.check b = .ok ())
    (hnodup : (bindings.map SiteBinding.id).Nodup) {b : SiteBinding} (hb : b ∈ bindings) :
    ∃ s, (bindAll t bindings).find? b.id = some s ∧ s.Fits b := by
  rcases @fits_bindAll _ _ b.id agree (same_of_nodup hnodup) with
    ⟨hnone, -⟩ | ⟨b', hb', hid, s, hs, hfits⟩
  · exact absurd rfl (hnone b hb)
  · obtain rfl := List.inj_on_of_nodup_map hnodup hb' hb hid
    exact ⟨s, hs, hfits⟩

end Registry

end LiveTypes
