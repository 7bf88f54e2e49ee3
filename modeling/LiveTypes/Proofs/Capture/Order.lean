import LiveTypes.Proofs.Capture.Table
import Mathlib.Data.Set.Card

/-!
# Checks and orders of bindings

A check of a binding tells what the binding makes of its site. What becomes of a site depends on the
site alone, so that the sites of a host can be visited in any order, bindings of different sites can be
applied in any order, and a binding that was checked before the others is still accepted after them.
-/

namespace LiveTypes

/-- Whether a site has the shape of a host. -/
structure CaptureSite.HasShape (s : CaptureSite) (shape : HostShape) : Prop where
  capturesThis_eq : s.capturesThis = shape.capturesThis
  captures : s.Captures shape.captured

lemma CaptureSite.Fits.hasShape {s : CaptureSite} {b : SiteBinding} (h : s.Fits b) :
    s.HasShape b.shape :=
  ⟨h.capturesThis_eq, h.captures⟩

namespace SiteTable

open Registry (bindAll)

variable {t : SiteTable} {b : SiteBinding}

/-! ### One binding -/

/-- What a check of a binding tells. -/
structure Predicts (t : SiteTable) (b : SiteBinding) : Prop where
  /-- The binding is accepted just when the site fits it in the end. -/
  accepted_iff : t.check b = .ok () ↔ ∃ s, (t.bind b).find? b.id = some s ∧ s.Fits b
  refused : ∀ reason, t.check b = .error reason → t.bind b = t
  others : ∀ id, id ≠ b.id → (t.bind b).find? id = t.find? id

/-- Whether closures of a site hold the enclosing instance is not changed by a binding. -/
lemma capturesThis_bound {s : CaptureSite} (h : t.find? b.id = some s) :
    (t.bound b).capturesThis = s.capturesThis :=
  (evolves_bound h).capturesThis_eq

lemma check_of_capturesThis (h : (t.bound b).capturesThis = b.shape.capturesThis) :
    t.check b = .ok () := by
  refine check_eq_ok.mpr fun s hs => ?_
  rw [← h, capturesThis_bound hs]

/-- A binding that is refused leaves the table as it is. -/
lemma bind_of_refused {reason : RejectReason} (h : t.check b = .error reason) : t.bind b = t := by
  unfold check at h
  refine eq_of_find? fun id => ?_
  rw [find?_bind]
  split_ifs with hid
  · subst hid
    cases hs : t.find? b.id with
    | none =>
      rw [hs] at h
      cases h
    | some s =>
      rw [hs] at h
      cases hrebind : s.rebind b with
      | ok s' => simp [hrebind] at h
      | error detail => simp [bound, hs, hrebind]
  · rfl

lemma predicts (t : SiteTable) (b : SiteBinding) : t.Predicts b where
  accepted_iff := by
    constructor
    · intro hcheck
      exact ⟨t.bound b, find?_bind_self t b, fits_bound hcheck⟩
    · rintro ⟨s, hs, hfits⟩
      rw [find?_bind_self] at hs
      obtain rfl := Option.some.inj hs
      exact check_of_capturesThis hfits.capturesThis_eq
  refused _ := bind_of_refused
  others _ := find?_bind_of_ne

/-! ### The sites of a host -/

/-- Whether a list has each site of a host once, as the sites may be visited. -/
structure Visits (t : SiteTable) (host : String) (visited : List SiteId) : Prop where
  nodup : visited.Nodup
  mem_iff : ∀ id, id ∈ visited ↔ ∃ s, t.find? id = some s ∧ s.host = host

/-- What a check of the sites of a host tells. -/
structure PredictsHost (t : SiteTable) (host : String) (hostId : TypeId) (version : Nat)
    (shape : HostShape) : Prop where
  /-- The shape is accepted just when every site of the host fits it in the end. -/
  accepted_iff : t.checkHost host hostId shape = .ok () ↔
    ∀ id s, t.find? id = some s → s.host = host →
      ∃ s', (t.rebindHost host hostId version shape).find? id = some s' ∧
        s'.Fits (hostBinding host hostId version shape id)
  /-- Sites that are refused do not have the shape already. -/
  accepted_iff_hasShape : t.checkHost host hostId shape = .ok () ↔
    ∀ id s, t.find? id = some s → s.host = host →
      ∃ s', (t.rebindHost host hostId version shape).find? id = some s' ∧ s'.HasShape shape
  visits : t.Visits host (t.boundTo host)
  /-- The sites can be visited in any order, and there are as many as the host has. -/
  visited : ∀ visited, t.Visits host visited → t.rebindVisited host hostId version shape visited =
    (t.rebindHost host hostId version shape, {id | ∃ s, t.find? id = some s ∧ s.host = host}.ncard)
  others : ∀ id, (∀ s, t.find? id = some s → s.host ≠ host) →
    (t.rebindHost host hostId version shape).find? id = t.find? id

variable {host : String} {hostId : TypeId} {version : Nat} {shape : HostShape}
  {visited : List SiteId} {bindings : List SiteBinding}

lemma visits_boundTo (t : SiteTable) (host : String) : t.Visits host (t.boundTo host) :=
  ⟨nodup_boundTo t host, fun _ => mem_boundTo⟩

lemma Visits.perm (h : t.Visits host visited) : visited.Perm (t.boundTo host) := by
  rw [List.perm_ext_iff_of_nodup h.nodup (nodup_boundTo t host)]
  intro id
  rw [h.mem_iff, mem_boundTo]

lemma Visits.length_eq (h : t.Visits host visited) :
    visited.length = {id | ∃ s, t.find? id = some s ∧ s.host = host}.ncard := by
  classical
  rw [← List.toFinset_card_of_nodup h.nodup, ← Set.ncard_coe_finset]
  congr 1
  ext id
  rw [List.coe_toFinset, Set.mem_ofPred_eq, Set.mem_ofPred_eq, h.mem_iff]

lemma map_id_hostBinding (visited : List SiteId) :
    (visited.map (hostBinding host hostId version shape)).map SiteBinding.id = visited := by
  rw [List.map_map]
  exact List.map_id visited

lemma checkHost_eq_ok : t.checkHost host hostId shape = .ok () ↔
    ∀ id s, t.find? id = some s → s.host = host → s.capturesThis = shape.capturesThis := by
  rw [checkHost, Outcome.forM_eq_ok]
  constructor
  · intro h id s hs hhost
    exact (check_eq_ok.mp (h id (mem_boundTo.mpr ⟨s, hs, hhost⟩)) s hs).symm
  · intro h id hid
    obtain ⟨s, hs, hhost⟩ := mem_boundTo.mp hid
    refine check_eq_ok.mpr fun s' hs' => ?_
    obtain rfl := Option.some.inj (hs.symm.trans hs')
    exact (h id s hs hhost).symm

/-- Every site of a host fits a shape that was checked. -/
lemma fits_rebindHost (hcheck : t.checkHost host hostId shape = .ok ()) {id : SiteId}
    {s : CaptureSite} (hs : t.find? id = some s) (hhost : s.host = host) :
    ∃ s', (t.rebindHost host hostId version shape).find? id = some s' ∧
      s'.Fits (hostBinding host hostId version shape id) := by
  rw [rebindHost_eq]
  refine Registry.fits_of_mem ?_ ?_ (List.mem_map_of_mem (mem_boundTo.mpr ⟨s, hs, hhost⟩))
  · intro b hb
    obtain ⟨id', hid', rfl⟩ := List.mem_map.mp hb
    obtain ⟨s₀, hs₀, hhost₀⟩ := mem_boundTo.mp hid'
    refine check_eq_ok.mpr fun s' hs' => ?_
    exact (checkHost_eq_ok.mp hcheck id' s' hs' (by
      rw [← hhost₀, Option.some.inj (hs₀.symm.trans hs')])).symm
  · rw [map_id_hostBinding]
    exact nodup_boundTo t host

/-- A site that has a shape in the end accepted it. -/
lemma checkHost_of_hasShape (h : ∀ id s, t.find? id = some s → s.host = host →
    ∃ s', (t.rebindHost host hostId version shape).find? id = some s' ∧ s'.HasShape shape) :
    t.checkHost host hostId shape = .ok () := by
  refine checkHost_eq_ok.mpr fun id s hs hhost => ?_
  obtain ⟨s', hs', hshape⟩ := h id s hs hhost
  obtain ⟨s'', hs'', hevolves, -⟩ := @Registry.evolves_rebindHost t host hostId version shape id s hs
  obtain rfl := Option.some.inj (hs'.symm.trans hs'')
  rw [← hevolves.capturesThis_eq, hshape.capturesThis_eq]

/-! ### Several bindings -/

/-- Bindings of different sites can be applied in any order. -/
lemma bindAll_perm {bindings' : List SiteBinding} (hnodup : (bindings.map SiteBinding.id).Nodup)
    (hperm : bindings'.Perm bindings) (t : SiteTable) : bindAll t bindings' = bindAll t bindings := by
  refine (hperm.symm.foldl_eq' ?_ t).symm
  intro b hb b' hb' t
  by_cases hid : b.id = b'.id
  · rw [List.inj_on_of_nodup_map hnodup hb hb' hid]
  · show bindAll (bindAll t [b]) [b'] = bindAll (bindAll t [b']) [b]
    exact Registry.bindAll_comm t (by simpa using hid)

lemma rebindVisited_eq (h : t.Visits host visited) :
    t.rebindVisited host hostId version shape visited =
      (t.rebindHost host hostId version shape,
        {id | ∃ s, t.find? id = some s ∧ s.host = host}.ncard) := by
  refine Prod.ext ?_ h.length_eq
  have hnodup : (((t.boundTo host).map (hostBinding host hostId version shape)).map
      SiteBinding.id).Nodup := by
    rw [map_id_hostBinding]
    exact nodup_boundTo t host
  rw [rebindHost_eq, ← bindAll_perm hnodup (h.perm.map _), bindAll, List.foldl_map]
  rfl

lemma find?_rebindHost_of_other {id : SiteId} (h : ∀ s, t.find? id = some s → s.host ≠ host) :
    (t.rebindHost host hostId version shape).find? id = t.find? id := by
  rw [rebindHost_eq]
  refine Registry.find?_bindAll_of_other fun b hb hid => ?_
  obtain ⟨id', hid', rfl⟩ := List.mem_map.mp hb
  obtain ⟨s, hs, hhost⟩ := mem_boundTo.mp hid'
  obtain rfl : id' = id := hid
  exact h s hs hhost

lemma predictsHost (t : SiteTable) (host : String) (hostId : TypeId) (version : Nat)
    (shape : HostShape) : t.PredictsHost host hostId version shape where
  accepted_iff := by
    constructor
    · intro hcheck id s hs hhost
      exact fits_rebindHost hcheck hs hhost
    · intro h
      refine @checkHost_of_hasShape t host hostId version shape fun id s hs hhost => ?_
      obtain ⟨s', hs', hfits⟩ := h id s hs hhost
      exact ⟨s', hs', hfits.hasShape⟩
  accepted_iff_hasShape := by
    refine ⟨fun hcheck id s hs hhost => ?_, checkHost_of_hasShape⟩
    obtain ⟨s', hs', hfits⟩ := fits_rebindHost hcheck hs hhost
    exact ⟨s', hs', hfits.hasShape⟩
  visits := visits_boundTo t host
  visited _ := rebindVisited_eq
  others _ := find?_rebindHost_of_other

/-- Whether the order of bindings does not matter, to the table and to their checks. -/
structure OrderFree (t : SiteTable) (bindings : List SiteBinding) : Prop where
  perm : ∀ bindings', bindings'.Perm bindings → bindAll t bindings' = bindAll t bindings
  check_eq : ∀ b ∈ bindings, ∀ others, others ⊆ bindings → b ∉ others →
    (bindAll t others).check b = t.check b

lemma orderFree (t : SiteTable) (hnodup : (bindings.map SiteBinding.id).Nodup) :
    t.OrderFree bindings where
  perm _ hperm := bindAll_perm hnodup hperm t
  check_eq b hb others hsub hnot := by
    refine check_congr (Registry.find?_bindAll_of_other fun b' hb' hid => ?_)
    have heq : b' = b := List.inj_on_of_nodup_map hnodup (hsub hb') hb hid
    exact hnot (heq ▸ hb')

/-- A check tells what a binding makes of its site, and what the new shape of a host makes of the sites
of the host, in whichever order they are visited; and bindings of different sites can be applied in any
order, each accepted or refused as it was before the others. -/
theorem checks_predict (t : SiteTable) :
    (∀ b, t.Predicts b) ∧
      (∀ host hostId version shape, t.PredictsHost host hostId version shape) ∧
      ∀ bindings, (bindings.map SiteBinding.id).Nodup → t.OrderFree bindings :=
  ⟨predicts t, predictsHost t, fun _ => orderFree t⟩

def creating (ordinal : Nat) (captured : List TypeDescriptor) (capturesThis : Bool) : SiteBinding :=
  ⟨⟨0, "run()I", ordinal⟩, "a.H", 1, 0, ⟨captured, capturesThis⟩⟩

def oneSite : SiteTable := empty.bind (creating 0 [.i32] false)

/-- A binding that would let closures of the site hold an enclosing instance is refused, before and after
another site is bound, and both can be applied in either order. -/
theorem checks_predict_refused :
    ([creating 0 [.str] true, creating 1 [.str] true].map SiteBinding.id).Nodup ∧
      oneSite.bind (creating 0 [.str] true) = oneSite ∧
      (∃ reason, (oneSite.bind (creating 1 [.str] true)).check (creating 0 [.str] true) =
        .error reason) ∧
      (oneSite.bind (creating 0 [.str] true)).check (creating 1 [.str] true) = .ok () ∧
      bindAll oneSite [creating 1 [.str] true, creating 0 [.str] true] =
        bindAll oneSite [creating 0 [.str] true, creating 1 [.str] true] := by
  have hnodup : ([creating 0 [.str] true, creating 1 [.str] true].map SiteBinding.id).Nodup := by
    decide
  obtain ⟨hpredicts, -, horder⟩ := checks_predict oneSite
  have hfree := horder _ hnodup
  obtain ⟨reason, hrefused⟩ : ∃ reason, oneSite.check (creating 0 [.str] true) = .error reason :=
    ⟨_, rfl⟩
  have hother := hfree.check_eq (creating 0 [.str] true) (by simp) [creating 1 [.str] true] (by simp)
    (by decide)
  have hfirst := hfree.check_eq (creating 1 [.str] true) (by simp) [creating 0 [.str] true] (by simp)
    (by decide)
  exact ⟨hnodup, (hpredicts _).refused reason hrefused, ⟨reason, hother.trans hrefused⟩,
    hfirst.trans rfl, hfree.perm _ (List.Perm.swap _ _ _)⟩

end SiteTable

end LiveTypes
