import LiveTypes.Proofs.Capture.Law
import LiveTypes.Proofs.Registry.Update

/-!
# What operations change

An accepted operation changes one type and some capture sites: a registration adds a type with one
version, a reload appends one version to a type, publishes its table and adds its members to the
history, and the sites that change are those of closure creations of the new version and, for a host,
those that are bound to it. A refused operation changes nothing, and a batch changes what the operations
of its longest accepted prefix change (`Reachable.allOrNothing`).
-/

namespace LiveTypes

namespace Registry

variable {r r' : Registry} {t : LiveType} {config : RegistryConfig}

/-! ### Single operations -/

/-- What a registration makes of a registry. -/
structure Registered (r : Registry) (name : String) (bytes : List UInt8) (t : LiveType)
    (r' : Registry) : Prop where
  config_eq : r'.config = r.config
  types_eq : r'.types = r.types ++ [t]
  id_eq : t.id = r.size
  name_eq : t.name = name
  admitted : TypeUnit.admit bytes true = .ok t.initial.unit
  bytes_eq : t.initial.bytes = bytes
  later_eq : t.later = []
  history_eq : t.history = .ofInitial t.initial.unit
  /-- Only sites of the type's own closure creations change. -/
  sites_of_other : ∀ id : SiteId,
    ¬ (id.declaring = t.id ∧ id.CreatedBy t.initial.unit.methods) →
      r'.sites.find? id = r.sites.find? id
  /-- Every binding that was checked is applied. -/
  bound : ∃ redirected,
    t.initial.unit.redirect (.ofBaseline t.id 0 t.initial.unit r) true = .ok redirected ∧
      ∀ b ∈ redirected.bindings, ∃ s, r'.sites.find? b.id = some s ∧ s.Fits b

/-- What a reload makes of a registry and of the type that is reloaded. -/
structure Reloaded (r : Registry) (t : LiveType) (label : String) (bytes : List UInt8)
    (v : Version) (t' : LiveType) (r' : Registry) : Prop where
  config_eq : r'.config = r.config
  types_eq : r'.types = r.types.set t.id t'
  type_eq : t' = { t with later := t.later ++ [v], history := t'.history, table := t'.table }
  index_eq : v.index = t.versions.length
  label_eq : v.label = label
  bytes_eq : v.bytes = bytes
  admitted : TypeUnit.admit bytes true = .ok v.unit
  version_eq : t'.table.version = v.index
  tableLabel_eq : t'.table.label = label
  history_eq : ¬ t'.Collides → t'.history = t.history.record v.unit
  /-- Only sites of the version's own closure creations and sites bound to the type change. -/
  sites_of_other : ∀ id : SiteId, ¬ (id.declaring = t.id ∧ id.CreatedBy v.unit.methods) →
    (∀ s, r.sites.find? id = some s → s.host ≠ t.name) → r'.sites.find? id = r.sites.find? id
  /-- Every binding that was checked is applied, those of the sites of other types among them. -/
  bound : t.isCurrent bytes = false → ∃ redirected,
    v.unit.redirect ⟨t.id, t.versions.length, t.layout, t.loadedMethods, r⟩ true = .ok redirected ∧
      (∀ b ∈ redirected.bindings, ∃ s, r'.sites.find? b.id = some s ∧ s.Fits b) ∧
      (v.unit.isClosureHost = true → ∀ id s, r'.sites.find? id = some s → s.host = t.name →
        s.Fits (SiteTable.hostBinding t.name t.id v.index v.unit.hostShape id))

lemma registered_of_apply (hr : r.WellFormed) {name : String} {bytes : List UInt8}
    (h : r.apply (.register name bytes) = .ok r') : ∃ t, Registered r name bytes t r' := by
  obtain ⟨⟨t, r''⟩, hregister, rfl⟩ := Outcome.map_eq_ok.mp h
  obtain ⟨u, redirected, rfl, -, hread, hcreated, hchecked, rfl⟩ := register_cases hregister
  have hredirect := hcreated.redirect_eq
  rw [hr.verifies] at hread hredirect
  have hu := TypeUnit.verified_of_admit hread
  obtain ⟨hasked, hnodup⟩ := TypeUnit.bindings_of_redirect hu hredirect
  have hunit : t.initial.unit = u := by rw [hcreated.initial_eq]
  refine ⟨t, rfl, rfl, hcreated.id_eq, hcreated.name_eq, ?_, ?_, hcreated.later_eq, ?_, ?_,
    redirected, ?_, ?_⟩
  · rw [hunit, hread]
  · rw [hcreated.initial_eq]
  · rw [hcreated.history_eq, hunit]
  · intro id hother
    refine find?_bindAll_of_other fun b hb hid => hother ?_
    rw [hunit, hcreated.id_eq, ← hid]
    exact TypeUnit.createdBy_of_redirect hredirect hb
  · rw [hunit, hcreated.id_eq, hredirect]
  · exact fun b hb => fits_of_mem hchecked hnodup hb

lemma reloaded_of_apply (h : Reachable config r) (hverify : config.verify = true)
    {name label : String} {bytes : List UInt8} (happly : r.apply (.reload name label bytes) = .ok r') :
    ∃ t v t', r.find? name = some t ∧ Reloaded r t label bytes v t' r' := by
  have hr := h.wellFormed hverify
  obtain ⟨t, u, hfind, haccepts, hmade⟩ := reload_cases happly
  rw [hr.verifies] at haccepts hmade
  have hwell := hr.types t (mem_of_find? hfind)
  rcases hmade with ⟨hcurrent, rfl⟩ | ⟨hother, redirected, hredirect, hchecked, rfl⟩
  · refine ⟨t, t.nextVersion label bytes u t.current.executorBytes, t.reloadSame label bytes u,
      hfind, rfl, rfl, rfl, rfl, rfl, rfl, haccepts.admitted, rfl, rfl, ?_, fun _ _ _ => rfl, ?_⟩
    · intro hfree
      obtain ⟨-, rfl⟩ := hwell.eq_current haccepts hcurrent hfree
      have hold : ¬ t.Collides := fun hcollides =>
        hfree (hcollides.continues (.reloadSame t label bytes _))
      have hknows := (h.knows hverify t (mem_of_find? hfind)).resolve_left hold
      exact (hknows _ hwell.current_mem).covers.record_eq.symm
    · rw [hcurrent]
      nofun
  · have hu := TypeUnit.verified_of_admit haccepts.admitted
    have hname := haccepts.name_eq hwell
    obtain ⟨hasked, hnodup⟩ := TypeUnit.bindings_of_redirect hu hredirect
    refine ⟨t, t.nextVersion label bytes u redirected.executor.encode,
      t.reloadNew label bytes u redirected, hfind, rfl, rfl, rfl, rfl, rfl, rfl,
      haccepts.admitted, rfl, rfl, fun _ => rfl, ?_, fun _ => ⟨redirected, hredirect, ?_, ?_⟩⟩
    · intro id hother hhost
      have hsame : (bindAll r.sites redirected.bindings).find? id = r.sites.find? id := by
        refine find?_bindAll_of_other fun b hb hid => hother ?_
        rw [← hid]
        exact TypeUnit.createdBy_of_redirect hredirect hb
      show (r.bindSites t u redirected.bindings).find? id = _
      rw [find?_bindSites_of_other, hsame]
      exact fun s hs => hhost s (hsame.symm.trans hs)
    · exact fun b hb => fits_bindSites hname hasked hnodup hchecked rfl hb
    · intro hclosure id s hs hhost
      exact fits_bindSites_of_host hname hasked hnodup hchecked hclosure hs hhost

/-! ### Batches -/

/-- The registry after units of a scope that all are accepted, one by one. -/
def replayIn (r : Registry) (p : NamePattern) (label : String) :
    List (String × List UInt8) → Option Registry
  | [] => some r
  | (name, bytes) :: rest =>
    if p.selects name then
      match r.apply (r.batchOperation label name bytes) with
      | .ok r' => r'.replayIn p label rest
      | .error _ => none
    else none

lemma replayIn_cons (r : Registry) (p : NamePattern) (label name : String) (bytes : List UInt8)
    (rest : List (String × List UInt8)) : r.replayIn p label ((name, bytes) :: rest) =
      match r.applyIn p label name bytes with
      | .ok r' => r'.replayIn p label rest
      | .error _ => none := by
  rw [replayIn, applyIn_eq]
  split_ifs <;> rfl

/-- What a batch makes of a registry, and whether it is accepted. -/
structure Batched (r : Registry) (p : NamePattern) (label : String)
    (units : List (String × List UInt8)) : Prop where
  /-- The registry is that of the longest accepted prefix. -/
  longest : ∃ k ≤ units.length, r.replayIn p label (units.take k) = some (r.reloadAll p label units).2 ∧
    ((r.reloadAll p label units).1 = .ok () ↔ k = units.length) ∧
    ∀ n, k < n → n ≤ units.length → r.replayIn p label (units.take n) = none
  /-- Types that the pattern does not select are neither added nor changed. -/
  unselected : ∀ t, p.selects t.name = false →
    (t ∈ (r.reloadAll p label units).2.types ↔ t ∈ r.types)

lemma reloadAll_longest (r : Registry) (p : NamePattern) (label : String)
    (units : List (String × List UInt8)) :
    ∃ k ≤ units.length, r.replayIn p label (units.take k) = some (r.reloadAll p label units).2 ∧
      ((r.reloadAll p label units).1 = .ok () ↔ k = units.length) ∧
      ∀ n, k < n → n ≤ units.length → r.replayIn p label (units.take n) = none := by
  induction units generalizing r with
  | nil => exact ⟨0, Nat.le_refl 0, rfl, by simp [reloadAll], fun n hlt hle => by simp at hle; omega⟩
  | cons unit rest ih =>
    obtain ⟨name, bytes⟩ := unit
    rw [reloadAll]
    cases happlied : r.applyIn p label name bytes with
    | error e =>
      refine ⟨0, Nat.zero_le _, rfl, by simp, fun n hlt _ => ?_⟩
      obtain ⟨m, rfl⟩ := Nat.exists_eq_succ_of_ne_zero (Nat.ne_of_gt hlt)
      rw [List.take_succ_cons, replayIn_cons, happlied]
    | ok r' =>
      obtain ⟨k, hle, hreplay, hok, hnone⟩ := ih r'
      refine ⟨k + 1, Nat.succ_le_succ hle, ?_, ?_, fun n hlt hle => ?_⟩
      · rw [List.take_succ_cons, replayIn_cons, happlied]
        exact hreplay
      · rw [List.length_cons, Nat.add_right_cancel_iff]
        exact hok
      · obtain ⟨m, rfl⟩ := Nat.exists_eq_succ_of_ne_zero (Nat.ne_of_gt (Nat.zero_lt_of_lt hlt))
        rw [List.take_succ_cons, replayIn_cons, happlied]
        exact hnone m (Nat.lt_of_succ_lt_succ hlt) (Nat.le_of_succ_le_succ hle)

/-- An accepted operation on a name leaves every type of another name as it is. -/
lemma mem_types_of_apply (h : Reachable config r) (hverify : config.verify = true) {label name : String}
    {bytes : List UInt8} (happly : r.apply (r.batchOperation label name bytes) = .ok r')
    (hname : t.name ≠ name) : t ∈ r'.types ↔ t ∈ r.types := by
  have hr := h.wellFormed hverify
  unfold batchOperation at happly
  split_ifs at happly with hfound
  · obtain ⟨q, v, q', hfind, hreloaded⟩ := reloaded_of_apply h hverify happly
    have hq := mem_of_find? hfind
    have hid : q'.id = q.id := by rw [hreloaded.type_eq]
    have hqname : q'.name = q.name := by rw [hreloaded.type_eq]
    have hmem := hr.mem_replace (q := t) hq hid
    rw [replace, hid] at hmem
    rw [hreloaded.types_eq]
    refine hmem.trans ⟨?_, fun ht => .inr ⟨ht, fun hsame => hname ?_⟩⟩
    · rintro (rfl | ⟨ht, -⟩)
      · exact absurd (hqname.trans (find?_name hfind)) hname
      · exact ht
    · rw [hr.eq_of_id ht hq hsame, find?_name hfind]
  · obtain ⟨q, hregistered⟩ := registered_of_apply hr happly
    rw [hregistered.types_eq, List.mem_append, List.mem_singleton]
    refine ⟨fun ht => ht.resolve_right ?_, .inl⟩
    rintro rfl
    exact hname hregistered.name_eq

lemma mem_types_reloadAll (h : Reachable config r) (hverify : config.verify = true)
    (p : NamePattern) (label : String) (units : List (String × List UInt8))
    (hselects : p.selects t.name = false) :
    t ∈ (r.reloadAll p label units).2.types ↔ t ∈ r.types := by
  induction units generalizing r with
  | nil => rfl
  | cons unit rest ih =>
    obtain ⟨name, bytes⟩ := unit
    rw [reloadAll]
    cases happlied : r.applyIn p label name bytes with
    | error e => rfl
    | ok r' =>
      obtain ⟨hselected, happly⟩ := applyIn_eq_ok.mp happlied
      refine (ih (h.tail (step_of_apply happly))).trans (mem_types_of_apply h hverify happly ?_)
      rintro rfl
      rw [hselected] at hselects
      cases hselects

/-! ### All or nothing -/

/-- Whether operations and batches are all or nothing, and change only what they are about. -/
structure AllOrNothing (r : Registry) : Prop where
  /-- An operation that is refused, at whatever point, leaves the registry as it was. -/
  refused : ∀ op e r', Update.perform op r = .error e r' → r' = r ∧ r.apply op = .error e
  accepted : ∀ op r', Update.perform op r = .ok () r' ↔ r.apply op = .ok r'
  registered : ∀ name bytes r', r.apply (.register name bytes) = .ok r' →
    ∃ t, Registered r name bytes t r'
  reloaded : ∀ name label bytes r', r.apply (.reload name label bytes) = .ok r' →
    ∃ t v t', r.find? name = some t ∧ Reloaded r t label bytes v t' r'
  performed : ∀ p label units, Update.performAll p label units r =
    match r.reloadAll p label units with
    | (.ok _, r') => .ok () r'
    | (.error e, r') => .error e r'
  batched : ∀ p label units, Batched r p label units

/-- Operations on a registry that verifies units are all or nothing and local, and a batch is its
longest accepted prefix. -/
theorem Reachable.allOrNothing (h : Reachable config r) (hverify : config.verify = true) :
    r.AllOrNothing := by
  have hr := h.wellFormed hverify
  constructor
  · intro op e r' hperform
    rw [Update.perform_eq hr] at hperform
    cases happly : r.apply op with
    | ok r'' =>
      rw [happly] at hperform
      cases hperform
    | error e' =>
      rw [happly] at hperform
      obtain ⟨rfl, rfl⟩ := EStateM.Result.error.inj hperform
      exact ⟨rfl, rfl⟩
  · intro op r'
    rw [Update.perform_eq hr]
    cases r.apply op <;> simp [Update.whole]
  · exact fun name bytes r' happly => registered_of_apply hr happly
  · exact fun name label bytes r' happly => reloaded_of_apply h hverify happly
  · exact fun p label units => Update.performAll_eq hr p label units
  · exact fun p label units => ⟨r.reloadAll_longest p label units, fun t hselects =>
      mem_types_reloadAll h hverify p label units hselects⟩

set_option maxRecDepth 100000 in
/-- A registry of two types, with a reload that moves a site and one that is refused. -/
theorem allOrNothing_opened :
    ∃ r, Reachable .default r ∧
      (∃ r', r.apply (.reload "a.G" "own" Machine.ownMaker.encode) = .ok r') ∧
      (∃ e, r.apply (.reload "a.G" "empty" []) = .error e) ∧ r.AllOrNothing := by
  have hfacts : ((Registry.create .default).replay Machine.openings).any (fun r =>
      (r.apply (.reload "a.G" "own" Machine.ownMaker.encode)).toOption.isSome ∧
        (r.apply (.reload "a.G" "empty" [])).toOption.isNone) = true := by
    decide +kernel
  obtain ⟨r, hr, hfacts⟩ := (Option.any_eq_true _ _).mp hfacts
  obtain ⟨haccepted, hrefused⟩ := of_decide_eq_true hfacts
  have hreachable : Reachable .default r := leads_of_replay hr
  refine ⟨r, hreachable, ?_, ?_, Reachable.allOrNothing hreachable rfl⟩
  · obtain ⟨r', happly⟩ := Option.isSome_iff_exists.mp haccepted
    exact ⟨r', Outcome.toOption_eq_some.mp happly⟩
  · cases happly : r.apply (.reload "a.G" "empty" []) with
    | error e => exact ⟨e, rfl⟩
    | ok r' =>
      rw [happly] at hrefused
      cases hrefused

end Registry

end LiveTypes
