import LiveTypes.Proofs.Registry.Coherent

/-!
# Types at their places

A type is known by its place among the types and by its name, in every registry, and no reload changes
whether it hosts closures. So a type that is found by its name is found again in every later registry,
whether the registry verifies units or not (`Reachable.find?`).
-/

namespace LiveTypes.Registry

variable {r r' : Registry} {t t' : LiveType} {config : RegistryConfig}

/-- A registry, verified or not, whose types are at the places that they are known by. -/
structure Placed (r : Registry) : Prop where
  id_eq : ∀ (k : Nat) (t : LiveType), r.types[k]? = some t → t.id = k
  closureHost_eq : ∀ t ∈ r.types, t.history.closureHost = t.isClosureHost

lemma Placed.getElem?_id (hr : r.Placed) (ht : t ∈ r.types) : r.types[t.id]? = some t := by
  obtain ⟨k, hk⟩ := List.getElem?_of_mem ht
  rw [hr.id_eq k t hk]
  exact hk

lemma Placed.eq_of_id (hr : r.Placed) (ht : t ∈ r.types) (ht' : t' ∈ r.types) (h : t.id = t'.id) :
    t = t' :=
  Option.some.inj ((hr.getElem?_id ht).symm.trans (h ▸ hr.getElem?_id ht'))

lemma Placed.replace (hr : r.Placed) (hhost : t'.history.closureHost = t'.isClosureHost)
    (sites : SiteTable) : Placed (Registry.replace { r with sites } t') where
  id_eq k q hk := by
    simp only [Registry.replace, List.getElem?_set] at hk
    split_ifs at hk with hkt
    · rw [← Option.some.inj hk, hkt]
    · exact hr.id_eq k q hk
  closureHost_eq q hq := by
    rcases List.mem_or_eq_of_mem_set hq with hq | rfl
    · exact hr.closureHost_eq q hq
    · exact hhost

lemma Placed.change (hr : r.Placed) (h : Change r r') : r'.Placed := by
  cases h with
  | @registered u bytes t redirected _ _ hcreated =>
    refine ⟨fun k q hk => ?_, fun q hq => ?_⟩
    · rw [List.getElem?_append, List.getElem?_singleton] at hk
      split_ifs at hk with hlt hzero
      · exact hr.id_eq k q hk
      · rw [← Option.some.inj hk, hcreated.id_eq]
        show r.types.length = k
        omega
    · rcases List.mem_append.mp hq with hq | hq
      · exact hr.closureHost_eq q hq
      · obtain rfl := List.mem_singleton.mp hq
        rw [hcreated.loaded.isClosureHost_eq, hcreated.history_eq, hcreated.initial_eq]
        rfl
  | @repeated t label bytes u hfound =>
    have hhost := hr.closureHost_eq t (mem_of_find? hfound)
    exact @Placed.replace r (t.reloadSame label bytes u) hr hhost r.sites
  | @renewed t label bytes u redirected hfound =>
    have hhost := hr.closureHost_eq t (mem_of_find? hfound)
    exact @Placed.replace r (t.reloadNew label bytes u redirected) hr hhost _

/-- Every registry has its types at their places. -/
theorem Reachable.placed (h : Reachable config r) : r.Placed :=
  h.invariant (P := Placed) ⟨by simp [Registry.create], by simp [Registry.create]⟩
    fun _ hr hchange => hr.change hchange

/-! ### Names -/

lemma names_replace (hr : r.Placed) {t' : LiveType} (ht : t ∈ r.types) (hid : t'.id = t.id)
    (hname : t'.name = t.name) : (r.replace t').types.map LiveType.name = r.types.map LiveType.name := by
  have hat : (r.types.map LiveType.name)[t.id]? = some t.name := by
    rw [List.getElem?_map, hr.getElem?_id ht]
    rfl
  obtain ⟨hlt, hget⟩ := List.getElem?_eq_some_iff.mp hat
  rw [replace, List.map_set, hid, hname, ← hget, List.set_getElem_self]

/-- No two types of a registry, verified or not, have one name. -/
lemma Reachable.names_nodup (h : Reachable config r) : (r.types.map LiveType.name).Nodup := by
  refine h.invariant (P := fun r => (r.types.map LiveType.name).Nodup) (by simp [create])
    fun {r r'} hreachable hnodup hchange => ?_
  cases hchange with
  | registered hfresh _ hcreated =>
    rw [List.map_append, List.nodup_append]
    refine ⟨hnodup, List.nodup_singleton _, ?_⟩
    rintro name hname _ hlast rfl
    obtain ⟨q, hq, hqname⟩ := List.mem_map.mp hname
    rw [List.map_singleton, List.mem_singleton, hcreated.name_eq] at hlast
    simpa [hqname, hlast] using List.find?_eq_none.mp hfresh q hq
  | @repeated t label bytes u hfound =>
    have hkept := @names_replace r t hreachable.placed (t.reloadSame label bytes u)
      (mem_of_find? hfound) rfl rfl
    exact hkept ▸ hnodup
  | @renewed t label bytes u redirected hfound =>
    have hkept := @names_replace r t hreachable.placed (t.reloadNew label bytes u redirected)
      (mem_of_find? hfound) rfl rfl
    exact hkept ▸ hnodup

lemma Reachable.find?_eq_some (h : Reachable config r) {name : String} :
    r.find? name = some t ↔ t ∈ r.types ∧ t.name = name :=
  find?_eq_some_of_nodup h.names_nodup

/-! ### Later registries -/

/-- Every type goes on in a later registry, verified or not. -/
lemma Reachable.continues (h : Reachable config r) (hleads : Leads r r') :
    ∀ q ∈ r.types, ∃ q' ∈ r'.types, q.Continues q' := by
  induction hleads with
  | refl => exact fun q hq => ⟨q, hq, .refl q⟩
  | @tail r₁ r₂ hbefore hstep ih =>
    have hplaced : r₁.Placed := Reachable.placed (h.trans hbefore)
    intro q hq
    obtain ⟨q₁, hq₁, hcontinues⟩ := ih q hq
    obtain ⟨q₂, hq₂, hcontinues'⟩ := hstep.change.continues hplaced.id_eq q₁ hq₁
    exact ⟨q₂, hq₂, hcontinues.trans hcontinues'⟩

/-- A type that is found by its name is found again in a later registry. -/
lemma Reachable.find? (h : Reachable config r) (hleads : Leads r r') {name : String}
    (hfind : r.find? name = some t) : ∃ t', r'.find? name = some t' ∧ t.Continues t' := by
  obtain ⟨t', ht', hcontinues⟩ := h.continues hleads t (mem_of_find? hfind)
  have hname := hcontinues.name_eq.trans (find?_name hfind)
  exact ⟨t', (Reachable.find?_eq_some (h.trans hleads)).mpr ⟨ht', hname⟩, hcontinues⟩

/-- The current version of a type hosts a closure just when the type does. -/
lemma Reachable.isClosureHost_current (h : Reachable config r) :
    ∀ t ∈ r.types, t.current.unit.isClosureHost = t.isClosureHost := by
  have hkept : ∀ t ∈ r.types, t.history.closureHost = t.isClosureHost ∧
      t.current.unit.isClosureHost = t.isClosureHost := by
    refine h.forall_types ?_ ?_ ?_
    · intro r u bytes t redirected _ _ hcreated
      have hhost := hcreated.loaded.isClosureHost_eq
      rw [hcreated.current_unit, hhost, hcreated.history_eq, hcreated.initial_eq]
      exact ⟨rfl, rfl⟩
    · rintro t label bytes u ⟨hhistory, -⟩ haccepts _
      refine ⟨hhistory, ?_⟩
      rw [show (t.reloadSame label bytes u).current = _ from LiveType.current_publish rfl]
      exact (History.check_eq_ok.mp haccepts.checked).2.2.1.trans hhistory
    · rintro r t label bytes u redirected ⟨hhistory, -⟩ haccepts _
      refine ⟨hhistory, ?_⟩
      rw [show (t.reloadNew label bytes u redirected).current =
        t.nextVersion label bytes u redirected.executor.encode from
          LiveType.current_publish (t := t) rfl]
      exact (History.check_eq_ok.mp haccepts.checked).2.2.1.trans hhistory
  exact fun t ht => (hkept t ht).2

end LiveTypes.Registry
