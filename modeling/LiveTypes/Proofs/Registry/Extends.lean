import LiveTypes.Proofs.Capture.Table
import LiveTypes.Proofs.Registry.WellFormed

/-!
# What later registries keep

A registry only grows: a type keeps its identity, its name, its layout and its loaded unit, its
versions are added to, a field never changes its type, and a capture site evolves.
-/

namespace LiveTypes

/-- Whether a type is a later state of another. -/
structure LiveType.Continues (t t' : LiveType) : Prop where
  id_eq : t'.id = t.id
  name_eq : t'.name = t.name
  layout_eq : t'.layout = t.layout
  loadedUnit_eq : t'.loadedUnit = t.loadedUnit
  dispatchers_eq : t'.dispatchers = t.dispatchers
  loadedMethods_eq : t'.loadedMethods = t.loadedMethods
  versions_grow : t.versions <+: t'.versions
  fieldType?_of : ∀ name type, t.fieldType? name = some type → t'.fieldType? name = some type

namespace LiveType.Continues

variable {t t' t'' : LiveType}

lemma refl (t : LiveType) : t.Continues t :=
  ⟨rfl, rfl, rfl, rfl, rfl, rfl, List.prefix_refl _, fun _ _ h => h⟩

lemma trans (h : t.Continues t') (h' : t'.Continues t'') : t.Continues t'' where
  id_eq := h'.id_eq.trans h.id_eq
  name_eq := h'.name_eq.trans h.name_eq
  layout_eq := h'.layout_eq.trans h.layout_eq
  loadedUnit_eq := h'.loadedUnit_eq.trans h.loadedUnit_eq
  dispatchers_eq := h'.dispatchers_eq.trans h.dispatchers_eq
  loadedMethods_eq := h'.loadedMethods_eq.trans h.loadedMethods_eq
  versions_grow := h.versions_grow.trans h'.versions_grow
  fieldType?_of name type ht := h'.fieldType?_of name type (h.fieldType?_of name type ht)

lemma reloadSame (t : LiveType) (label : String) (bytes : List UInt8) (u : TypeUnit) :
    t.Continues (t.reloadSame label bytes u) :=
  ⟨rfl, rfl, rfl, rfl, rfl, rfl, List.prefix_append _ _, fun _ _ h => h⟩

lemma reloadNew (t : LiveType) (label : String) (bytes : List UInt8) (u : TypeUnit)
    (redirected : RedirectedVersion) : t.Continues (t.reloadNew label bytes u redirected) :=
  ⟨rfl, rfl, rfl, rfl, rfl, rfl, List.prefix_append _ _, fun _ _ h =>
    History.fieldTypes_record_of_find? h⟩

end LiveType.Continues

namespace Registry

variable {r r' r'' : Registry} {t t' : LiveType} {config : RegistryConfig}

/-- Whether a registry has everything that another has. -/
structure Extends (r r' : Registry) : Prop where
  types : ∀ t ∈ r.types, ∃ t' ∈ r'.types, t.Continues t'
  sites : ∀ id s, r.sites.find? id = some s → ∃ s', r'.sites.find? id = some s' ∧ s.Evolves s'

lemma Extends.refl (r : Registry) : r.Extends r :=
  ⟨fun t ht => ⟨t, ht, .refl t⟩, fun _ s hs => ⟨s, hs, .refl⟩⟩

lemma Extends.trans (h : r.Extends r') (h' : r'.Extends r'') : r.Extends r'' where
  types t ht := by
    obtain ⟨t', ht', hcontinues⟩ := h.types t ht
    obtain ⟨t'', ht'', hcontinues'⟩ := h'.types t' ht'
    exact ⟨t'', ht'', hcontinues.trans hcontinues'⟩
  sites id s hs := by
    obtain ⟨s', hs', hevolves⟩ := h.sites id s hs
    obtain ⟨s'', hs'', hevolves'⟩ := h'.sites id s' hs'
    exact ⟨s'', hs'', hevolves.trans hevolves'⟩

lemma continues_replace (hids : ∀ (k : Nat) (q : LiveType), r.types[k]? = some q → q.id = k)
    (ht : t ∈ r.types) (h : t.Continues t') (sites : SiteTable) :
    ∀ q ∈ r.types, ∃ q' ∈ (replace { r with sites } t').types, q.Continues q' := by
  have hplace {q : LiveType} (hq : q ∈ r.types) : r.types[q.id]? = some q := by
    obtain ⟨k, hk⟩ := List.getElem?_of_mem hq
    rw [hids k q hk]
    exact hk
  intro q hq
  by_cases hid : q.id = t.id
  · obtain rfl : q = t := Option.some.inj ((hplace hq).symm.trans (hid ▸ hplace ht))
    refine ⟨t', List.mem_of_getElem? (i := q.id) ?_, h⟩
    rw [replace, h.id_eq, List.getElem?_set_self (List.getElem?_eq_some_iff.mp (hplace ht)).1]
  · refine ⟨q, List.mem_of_getElem? (i := q.id) ?_, .refl q⟩
    rw [replace, h.id_eq, List.getElem?_set_ne (Ne.symm hid)]
    exact hplace hq

/-- Every type goes on when a registry changes whose types are at the places that they are known by. -/
lemma Change.continues (hids : ∀ (k : Nat) (q : LiveType), r.types[k]? = some q → q.id = k)
    (h : Change r r') : ∀ q ∈ r.types, ∃ q' ∈ r'.types, q.Continues q' := by
  cases h with
  | registered => exact fun q hq => ⟨q, List.mem_append_left _ hq, .refl q⟩
  | @repeated t label bytes u hfound =>
    exact continues_replace hids (mem_of_find? hfound) (.reloadSame t label bytes u) r.sites
  | @renewed t label bytes u redirected hfound =>
    exact continues_replace hids (mem_of_find? hfound) (.reloadNew t label bytes u redirected) _

/-- A version that hosts closures takes no site away and moves none from its host. -/
lemma exists_bindSites_of_bindAll {u : TypeUnit} {bindings : List SiteBinding} {id : SiteId}
    {s : CaptureSite} (hs : (bindAll r.sites bindings).find? id = some s) :
    ∃ s', (r.bindSites t u bindings).find? id = some s' ∧ s.Evolves s' ∧ s'.host = s.host := by
  simp only [bindSites]
  split_ifs with hclosure
  · exact evolves_rebindHost hs
  · exact ⟨s, hs, .refl, rfl⟩

lemma evolves_bindSites {u : TypeUnit} {bindings : List SiteBinding} {id : SiteId}
    {s : CaptureSite} (hs : r.sites.find? id = some s) :
    ∃ s', (r.bindSites t u bindings).find? id = some s' ∧ s.Evolves s' := by
  obtain ⟨s₁, hs₁, hevolves₁⟩ := @evolves_bindAll r.sites bindings id s hs
  obtain ⟨s₂, hs₂, hevolves₂, -⟩ := @exists_bindSites_of_bindAll r t u bindings id s₁ hs₁
  exact ⟨s₂, hs₂, hevolves₁.trans hevolves₂⟩

lemma check_of_checkSites {u : TypeUnit} {bindings : List SiteBinding}
    (h : r.checkSites t u bindings = .ok ()) : ∀ b ∈ bindings, r.sites.check b = .ok () := by
  obtain ⟨_, hbindings, -⟩ := Outcome.bind_eq_ok.mp h
  exact Outcome.forM_eq_ok.mp hbindings

/-- A site of a registry after a reload was there before or is one that the new version asks for. -/
lemma mem_bindSites {u : TypeUnit} {bindings : List SiteBinding} {id : SiteId} {s : CaptureSite}
    (hs : (r.bindSites t u bindings).find? id = some s) :
    (∃ s₀, r.sites.find? id = some s₀) ∨ ∃ b ∈ bindings, b.id = id := by
  simp only [bindSites] at hs
  split_ifs at hs with hhost
  · rw [SiteTable.rebindHost_eq] at hs
    rcases mem_bindAll hs with ⟨s₁, hs₁⟩ | ⟨b, hb, rfl⟩
    · exact mem_bindAll hs₁
    · obtain ⟨id, hid, rfl⟩ := List.mem_map.mp hb
      obtain ⟨s₁, hs₁, -⟩ := SiteTable.mem_boundTo.mp hid
      exact mem_bindAll hs₁
  · exact mem_bindAll hs

/-- Every site that a new version asks for is bound then to the host that the version names, and its
closures hold the enclosing instance as the version asks. -/
lemma exists_bindSites {u : TypeUnit} {bindings : List SiteBinding} {b : SiteBinding}
    (hchecked : ∀ b ∈ bindings, r.sites.check b = .ok ())
    (hnodup : (bindings.map SiteBinding.id).Nodup) (hb : b ∈ bindings) :
    ∃ s, (r.bindSites t u bindings).find? b.id = some s ∧ s.host = b.host ∧
      s.capturesThis = b.shape.capturesThis := by
  obtain ⟨s, hs, hfits⟩ := fits_of_mem hchecked hnodup hb
  obtain ⟨s', hs', hevolves, hsame⟩ := @exists_bindSites_of_bindAll r t u bindings b.id s hs
  exact ⟨s', hs', hsame.trans hfits.host_eq,
    hevolves.capturesThis_eq.trans hfits.capturesThis_eq⟩

/-- A site that a new version does not ask for keeps its host. -/
lemma bindSites_of_other {u : TypeUnit} {bindings : List SiteBinding} {id : SiteId}
    {s : CaptureSite} (hs : r.sites.find? id = some s) (hother : ∀ b ∈ bindings, b.id ≠ id) :
    ∃ s', (r.bindSites t u bindings).find? id = some s' ∧ s'.host = s.host := by
  obtain ⟨s₁, hs₁, -, hsame₁⟩ :=
    @evolves_bindAll_of_host r.sites bindings id s hs fun b hb hid => absurd hid (hother b hb)
  obtain ⟨s₂, hs₂, -, hsame₂⟩ := @exists_bindSites_of_bindAll r t u bindings id s₁ hs₁
  exact ⟨s₂, hs₂, hsame₂.trans hsame₁⟩

lemma Change.extends (hr : r.WellFormed) (h : Change r r') : r.Extends r' where
  types := h.continues hr.id_eq
  sites id s hs := by
    cases h with
    | registered => exact evolves_bindAll hs
    | repeated => exact ⟨s, hs, .refl⟩
    | renewed => exact evolves_bindSites hs

/-- A registry that accepted operations lead to has everything that was there before. -/
theorem Leads.extends (hr : r.WellFormed) (h : Leads r r') : r'.WellFormed ∧ r.Extends r' := by
  induction h with
  | refl => exact ⟨hr, .refl r⟩
  | tail _ hstep ih =>
    obtain ⟨hwell, hextends⟩ := ih
    have hchange := hstep.change
    exact ⟨hwell.change hchange, hextends.trans (hchange.extends hwell)⟩

/-- A type that is found is found again in a later registry. -/
lemma Extends.find? (h : r.Extends r') (hr' : r'.WellFormed) {name : String}
    (hfind : r.find? name = some t) : ∃ t', r'.find? name = some t' ∧ t.Continues t' := by
  obtain ⟨t', ht', hcontinues⟩ := h.types t (mem_of_find? hfind)
  exact ⟨t', hr'.find?_eq_some.mpr ⟨ht', hcontinues.name_eq.trans (find?_name hfind)⟩, hcontinues⟩

end Registry

end LiveTypes
