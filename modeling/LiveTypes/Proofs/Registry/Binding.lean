import LiveTypes.Proofs.Machine.Code
import LiveTypes.Proofs.Redirection.Binding
import LiveTypes.Proofs.Redirection.References
import LiveTypes.Proofs.Registry.Apply
import LiveTypes.Proofs.Registry.Coherent
import LiveTypes.Proofs.Registry.Lookup
import LiveTypes.Proofs.Registry.Repetition

/-!
# Registering a type before and after one that it is nested in

Two types are registered in either order, the one with the other's name in front of its own: the
registries are twins, up to the places of the two types (`Reachable.twin_of_orders`).
-/

namespace LiveTypes

variable {σ : Renaming} {r r' s s' : Registry} {u u' : TypeUnit} {config : RegistryConfig}

/-! ### Types -/

/-- The executables of twin methods are twins. -/
lemma MethodDecl.Twin.executable {m m' : MethodDecl} (h : m.Twin r r' u.constants m')
    (hunit : u' = { u with methods := u'.methods }) {id : TypeId} {name : String} {version : Nat}
    (hbody : r.HasBody (ExecutorTable.executable u id name version m)) :
    (ExecutorTable.executable u id name version m).Twin σ r r'
      (ExecutorTable.executable u' (σ id) name version m') where
  body := hbody
  same := by
    rw [hunit, h.same]
    rfl
  size_eq := by
    simp only [Listing.size_eq]
    exact h.length_eq
  instruction := by
    obtain ⟨l, l', hl, hl', hall⟩ := h.bodies
    rintro i ⟨l₁, hl₁, hi⟩
    obtain rfl : l = l₁ := Except.ok.inj (hl.symm.trans hl₁)
    obtain ⟨k, hk⟩ := List.getElem?_of_mem hi
    rcases Outcome.rel_cases (Outcome.rel_getElem? hall k) with ⟨hnone, -⟩ | ⟨j, i', hj, hi', htwin⟩
    · rw [hk] at hnone
      cases hnone
    · obtain rfl := Option.some.inj (hk.symm.trans hj)
      exact ⟨i', ⟨l', hl', List.mem_of_getElem? hi'⟩, htwin⟩

/-- Executables that differ in no more than the identity of their type are twins. -/
lemma Executable.twin_self {e : Executable} (hbody : r.HasBody e) :
    e.Twin σ r r' { e with typeId := σ e.typeId } where
  body := hbody
  same := rfl
  size_eq := rfl
  instruction i hi := ⟨i, hi, .same i⟩

/-- A type that was there before both registrations. -/
lemma LiveType.twin_self {t : LiveType} (ht : t ∈ r.types) (hwell : t.WellFormed)
    (hloaded : t.Loaded config) (hfixed : σ t.id = t.id) : t.Twin σ r r' t := by
  have hbody {key : String} {e : Executable}
      (he : t.table.find? key = some e ∨ t.dispatchers.find? key = some e) (hid : e.typeId = t.id) :
      e.Twin σ r r' e := by
    have htwin : e.Twin σ r r' { e with typeId := σ e.typeId } := Executable.twin_self ⟨t, ht, key, he⟩
    rwa [hid, hfixed, ← hid] at htwin
  refine ⟨ht, ?_, fun key => ?_, fun key => ?_⟩
  · rw [hfixed]
  · cases he : t.dispatchers.find? key with
    | none => exact .none
    | some e =>
      have hfind := he
      rw [hloaded.dispatchers_eq] at hfind
      obtain ⟨m, -, -, rfl⟩ := ExecutorTable.mem_of_find?_ofUnit hfind
      exact .some (hbody (.inr he) rfl)
  · cases he : t.table.find? key with
    | none => exact .none
    | some e =>
      obtain ⟨version, -, hbodies⟩ := hwell.bodies
      exact .some (hbody (.inl he) (hbodies key e he).1)

/-- A registry is its own twin. -/
lemma Registry.WellFormed.twin_self (hr : r.WellFormed) (hloaded : ∀ t ∈ r.types, t.Loaded config) :
    r.Twin (.refl _) r := by
  have hself {t : LiveType} (ht : t ∈ r.types) : t.Twin (.refl _) r r t :=
    LiveType.twin_self ht (hr.types t ht) (hloaded t ht) rfl
  refine ⟨fun name => ?_, fun id => ?_, fun _ _ => rfl, fun id => ?_⟩
  · cases hfind : r.find? name with
    | none => exact .none
    | some t => exact .some (hself (mem_of_find? hfind))
  · show Option.Rel _ (r.byId? id) (r.byId? id)
    cases hfind : r.byId? id with
    | none => exact .none
    | some t => exact .some (hself (List.mem_of_getElem? hfind))
  · rw [SiteId.rename_refl, funext CaptureSite.rename_refl]
    exact Option.map_id'.symm

/-- A type that is made from one version in either order. -/
lemma LiveType.Created.twin {bytes : List UInt8} {t t' : LiveType} {x y : RedirectedVersion}
    (h : t.Created s u bytes x) (h' : t'.Created s' u bytes y) (hconfig : s'.config = s.config)
    (hid : s'.size = σ s.size) (hxy : x.Twin σ r r' y) (ht : t ∈ r.types) : t.Twin σ r r' t' := by
  have hload := h.load_eq.symm.trans (hconfig ▸ h'.load_eq)
  obtain ⟨hunit, hpromoted⟩ := Prod.mk.inj (Except.ok.inj hload)
  have hids : t'.id = σ t.id := by rw [h'.id_eq, h.id_eq, hid]
  have hname : t'.name = t.name := by rw [h'.name_eq, h.name_eq]
  refine ⟨ht, ?_, fun key => ?_, fun key => ?_⟩
  · obtain ⟨id, name, layout, loadedUnit, loadedBytes, dispatchers, loadedMethods, promoted, initial,
      later, history, table⟩ := t
    obtain ⟨id', name', layout', loadedUnit', loadedBytes', dispatchers', loadedMethods', promoted',
      initial', later', history', table'⟩ := t'
    have hlayout := h'.layout_eq.trans h.layout_eq.symm
    have hmethods := h'.loadedMethods_eq.trans h.loadedMethods_eq.symm
    have hlater := h'.later_eq.trans h.later_eq.symm
    have hhistory := h'.history_eq.trans h.history_eq.symm
    dsimp only at hunit hpromoted hids hname hlayout hmethods hlater hhistory ⊢
    rw [hunit, hpromoted, hids, hname, hlayout, hmethods, hlater, hhistory]
  · have hbody {e : Executable} (he : t.dispatchers.find? key = some e) : r.HasBody e :=
      ⟨t, ht, key, .inr he⟩
    rw [h.dispatchers_eq, ExecutorTable.find?_ofUnit] at hbody
    rw [h.dispatchers_eq, h'.dispatchers_eq, ExecutorTable.find?_ofUnit, ExecutorTable.find?_ofUnit,
      ← hunit, hids, hname]
    generalize (AssocMap.ofList _).find? key = o at hbody ⊢
    cases o with
    | none => exact .none
    | some m => exact .some (Executable.twin_self (hbody rfl))
  · have hbody {e : Executable} (he : t.table.find? key = some e) : r.HasBody e :=
      ⟨t, ht, key, .inl he⟩
    rw [h.table_eq, ExecutorTable.find?_ofUnit] at hbody
    rw [h.table_eq, h'.table_eq, ExecutorTable.find?_ofUnit, ExecutorTable.find?_ofUnit, hids, hname]
    have hmethods : List.Forall₂
        (fun p q => q.1 = p.1 ∧ MethodDecl.Twin r r' x.executor.constants p.2 q.2)
        (x.executor.methods.map fun m => (m.key, m)) (y.executor.methods.map fun m => (m.key, m)) := by
      rw [List.forall₂_map_left_iff, List.forall₂_map_right_iff]
      exact hxy.methods.imp fun m m' hm => ⟨by rw [hm.same]; rfl, hm⟩
    have hrel := AssocMap.rel_find?_ofList hmethods key
    generalize (AssocMap.ofList _).find? key = o at hbody hrel ⊢
    generalize (AssocMap.ofList _).find? key = o' at hrel ⊢
    cases hrel with
    | none => exact .none
    | some hm => exact .some (hm.executable hxy.executor (hbody rfl))

/-- A type has a dispatcher for each method of its first version, which comes to the body of that. -/
lemma LiveType.Created.binds {bytes : List UInt8} {t : LiveType} {x : RedirectedVersion}
    (h : t.Created s u bytes x) (hverify : s.config.verify = true)
    (hadmitted : TypeUnit.admit bytes true = .ok u) (hr : r.WellFormed) (ht : t ∈ r.types)
    {key : String} {isStatic : Bool} (hkind : t.loadedKind? key = some isStatic) :
    t.Binds r key isStatic := by
  have hunit : t.initial.unit = u := by rw [h.initial_eq]
  have hu := TypeUnit.verified_of_admit hadmitted
  have hpublishes := h.publishes hverify
  rw [loadedKind?, h.loadedMethods_eq] at hkind
  obtain ⟨m, hm, hpair⟩ := List.mem_map.mp (AssocMap.mem_of_find?_ofList hkind)
  obtain ⟨rfl, rfl⟩ := Prod.mk.inj hpair
  have hdeclares : t.initial.unit.Declares m.key := ⟨m, hunit.symm ▸ hm, rfl⟩
  have heq {m' : MethodDecl} (hm' : m' ∈ u.methods) (hkey : m'.key = m.key) : m' = m :=
    List.inj_on_of_nodup_map hu.methods_nodup hm' hm hkey
  obtain ⟨d, hd⟩ := h.loaded.exists_dispatcher hdeclares
  obtain ⟨m₁, hm₁, hkey₁, hdispatches⟩ :=
    h.loaded.dispatches (hunit.symm ▸ TypeUnit.bounded_of_read hadmitted) hd
  obtain rfl := heq (hunit ▸ hm₁) hkey₁
  obtain ⟨target, htarget⟩ := hpublishes.exists_find? hdeclares
  obtain ⟨m₂, hm₂, hkey₂, hrewrites⟩ :=
    hpublishes.rewrites (hunit.trans h.current_unit.symm) htarget
  obtain rfl := heq (h.current_unit ▸ hm₂) hkey₂
  have hexecutable := executable_eq_ok.mpr htarget
  refine ⟨d, target, hd, hexecutable, hdispatches.isStatic_eq, hdispatches.toIsDispatcher, ?_, ?_, ?_,
    ?_, ?_⟩
  · rw [hdispatches.typeId_eq, hdispatches.key_eq]
    exact ⟨t, hr.byId?_id ht, hexecutable⟩
  · rw [hrewrites.key_eq, hdispatches.key_eq]
  · rw [Executable.argSlots, Executable.argSlots, hrewrites.signature_eq, hrewrites.isStatic_eq,
      hdispatches.signature_eq, hdispatches.isStatic_eq]
  · rw [hrewrites.isStatic_eq, hdispatches.isStatic_eq]
  · rw [hrewrites.signature_eq, hdispatches.signature_eq]

namespace Registry

/-! ### Sites -/

/-- New sites are the same in either order. -/
lemma find?_bindAll_orders {t : SiteTable} {a b : List SiteBinding}
    (hsame : ∀ id, t.find? (id.rename σ) = (t.find? id).map (CaptureSite.rename σ))
    (ha : (a.map SiteBinding.id).Nodup) (hb : (b.map SiteBinding.id).Nodup)
    (hfresh : ∀ x ∈ a ++ b, t.find? x.id = none) (hne : ∀ x ∈ a, ∀ y ∈ b, x.id ≠ y.id)
    (id : SiteId) :
    (bindAll (bindAll t (b.map (SiteBinding.rename σ))) (a.map (SiteBinding.rename σ))).find?
        (id.rename σ) =
      ((bindAll (bindAll t a) b).find? id).map (CaptureSite.rename σ) := by
  have hids (l : List SiteBinding) :
      (l.map (SiteBinding.rename σ)).map SiteBinding.id =
        (l.map SiteBinding.id).map (SiteId.rename σ) := by
    rw [List.map_map, List.map_map]
    rfl
  have hnodup {l : List SiteBinding} (h : (l.map SiteBinding.id).Nodup) :
      ((l.map (SiteBinding.rename σ)).map SiteBinding.id).Nodup := by
    rw [hids]
    exact h.map fun _ _ => SiteId.rename_inj.mp
  have hfind (l : List SiteBinding) :
      (l.map (SiteBinding.rename σ)).find? (fun x => x.id = id.rename σ) =
        (l.find? fun x => x.id = id).map (SiteBinding.rename σ) := by
    rw [List.find?_map]
    congr 2
    funext x
    exact decide_eq_decide.mpr SiteId.rename_inj
  have hrenamed (l : List SiteBinding) (h : ∀ x ∈ l, t.find? x.id = none) :
      ∀ x ∈ l.map (SiteBinding.rename σ), t.find? x.id = none := by
    intro _ hmem
    obtain ⟨x, hx, rfl⟩ := List.mem_map.mp hmem
    exact (hsame x.id).trans (by rw [h x hx, Option.map_none])
  obtain ⟨hfa, hfb⟩ := List.forall_mem_append.mp hfresh
  have hafter : ∀ y ∈ b, (bindAll t a).find? y.id = none := fun y hy =>
    (find?_bindAll_of_other fun x hx => hne x hx y hy).trans (hfb y hy)
  have hafter' : ∀ x ∈ a.map (SiteBinding.rename σ),
      (bindAll t (b.map (SiteBinding.rename σ))).find? x.id = none := by
    intro x' hx'
    refine (find?_bindAll_of_other fun y' hy' heq => ?_).trans (hrenamed a hfa x' hx')
    obtain ⟨x, hx, rfl⟩ := List.mem_map.mp hx'
    obtain ⟨y, hy, rfl⟩ := List.mem_map.mp hy'
    exact hne x hx y hy (SiteId.rename_inj.mp heq).symm
  rw [find?_bindAll_of_fresh (hnodup ha) hafter', find?_bindAll_of_fresh (hnodup hb) (hrenamed b hfb),
    find?_bindAll_of_fresh hb hafter, find?_bindAll_of_fresh ha hfa, hfind, hfind, hsame]
  cases hx : a.find? fun x => x.id = id with
  | none => cases b.find? fun x => x.id = id <;> rfl
  | some x =>
    have hother : b.find? (fun y => y.id = id) = none := by
      refine List.find?_eq_none.mpr fun y hy => ?_
      have hid : x.id = id := by simpa using List.find?_some hx
      simpa [← hid] using (hne x (List.mem_of_find?_eq_some hx) y hy).symm
    rw [hother]
    rfl

lemma WellFormed.id_lt (hr : r.WellFormed) {t : LiveType} (ht : t ∈ r.types) : t.id < r.size :=
  (List.getElem?_eq_some_iff.mp (hr.byId?_id ht)).1

section Fixed

variable (h : Reachable config s) (hverify : config.verify = true)
  (hfixed : ∀ id < s.size, σ id = id)
include h hverify hfixed

/-- A renaming of later types changes none of the sites. -/
lemma Reachable.find?_rename (id : SiteId) :
    s.sites.find? (id.rename σ) = (s.sites.find? id).map (CaptureSite.rename σ) := by
  have hr := h.wellFormed hverify
  have hdeclared {id : SiteId} {site : CaptureSite} (hsite : s.sites.find? id = some site) :
      id.declaring < s.size := by
    obtain ⟨t, ht, hid⟩ := h.declared hverify id site hsite
    exact hid ▸ hr.id_lt ht
  have hrename {id : SiteId} (hlt : id.declaring < s.size) : id.rename σ = id := by
    rw [SiteId.rename, hfixed _ hlt]
  cases hsite : s.sites.find? id with
  | none =>
    cases hsite' : s.sites.find? (id.rename σ) with
    | none => rfl
    | some site =>
      have hlt := hdeclared hsite'
      have hid : σ id.declaring = id.declaring := σ.injective (hfixed _ hlt)
      rw [SiteId.rename, hid, hsite] at hsite'
      cases hsite'
  | some site =>
    obtain ⟨htidy, hversions⟩ := h.tidy hverify id site hsite
    have hhost {m : HostMapping} (hm : m ∈ site.mappings) : σ m.hostId = m.hostId := by
      obtain ⟨t, ht, hid, -⟩ := hversions m hm
      exact hfixed _ (hid ▸ hr.id_lt ht)
    obtain ⟨earlier, version, hlast⟩ := htidy.last
    have hhostId : σ site.hostId = site.hostId :=
      hhost (m := ⟨site.hostId, version, site.positions⟩) (hlast ▸ by simp)
    have hmappings : site.mappings.map (HostMapping.rename σ) = site.mappings := by
      refine (List.map_congr_left fun m hm => ?_).trans (List.map_id _)
      rw [HostMapping.rename, hhost hm]
      rfl
    have hsame : site.rename σ = site := by
      rw [CaptureSite.rename, h.site_id id site hsite, hrename (hdeclared hsite), hhostId, hmappings,
        ← h.site_id id site hsite]
    rw [hrename (hdeclared hsite), hsite, Option.map_some, hsame]

end Fixed

/-! ### Registrations -/

/-- What a registration makes of a registry that verifies units. -/
structure Registers (r : Registry) (u : TypeUnit) (bytes : List UInt8) (t : LiveType)
    (x : RedirectedVersion) (r' : Registry) : Prop where
  fresh : r.find? u.name = none
  admitted : TypeUnit.admit bytes true = .ok u
  created : t.Created r u bytes x
  redirected : u.redirect (.ofBaseline r.size 0 u r) true = .ok x
  result_eq : r' = { r with types := r.types ++ [t], sites := bindAll r.sites x.bindings }

namespace Registers

variable {bytes : List UInt8} {t : LiveType} {x : RedirectedVersion}

lemma find?_eq (h : r.Registers u bytes t x r') (name : String) :
    r'.find? name = if name = u.name then some t else r.find? name := by
  have hname := h.created.name_eq
  rw [h.result_eq]
  show (r.types ++ [t]).find? (fun q => q.name = name) = _
  rw [List.find?_append]
  split_ifs with heq
  · have hfresh : r.types.find? (fun q => q.name = name) = none := heq ▸ h.fresh
    rw [hfresh]
    simp [hname, heq]
  · have hother : [t].find? (fun q => q.name = name) = none := by simp [hname, Ne.symm heq]
    rw [hother, Option.or_none]
    rfl

lemma byId?_eq (h : r.Registers u bytes t x r') (id : TypeId) :
    r'.byId? id = if id = r.size then some t else r.byId? id := by
  rw [h.result_eq]
  show (r.types ++ [t])[id]? = if id = r.types.length then some t else r.types[id]?
  rcases Nat.lt_trichotomy id r.types.length with hlt | rfl | hlt
  · rw [List.getElem?_append_left hlt, if_neg (Nat.ne_of_lt hlt)]
  · rw [List.getElem?_concat_length, if_pos rfl]
  · rw [if_neg (Nat.ne_of_gt hlt), List.getElem?_eq_none (by simp; omega),
      List.getElem?_eq_none (by omega)]

lemma size_eq (h : r.Registers u bytes t x r') : r'.size = r.size + 1 := by
  rw [h.result_eq]
  exact List.length_append

lemma mem (h : r.Registers u bytes t x r') : t ∈ r'.types := by
  rw [h.result_eq]
  exact List.mem_append_right _ List.mem_cons_self

lemma mem_of_mem (h : r.Registers u bytes t x r') {q : LiveType} (hq : q ∈ r.types) :
    q ∈ r'.types := by
  rw [h.result_eq]
  exact List.mem_append_left _ hq

lemma bindings (h : r.Registers u bytes t x r') :
    (∀ b ∈ x.bindings, b.id.declaring = r.size) ∧ (x.bindings.map SiteBinding.id).Nodup := by
  have hu := TypeUnit.verified_of_admit h.admitted
  obtain ⟨hasked, hnodup⟩ := TypeUnit.bindings_of_redirect hu h.redirected
  exact ⟨fun b hb => (hasked b hb).declaring_eq, hnodup⟩

end Registers

lemma registers_of_apply (hr : r.WellFormed) {name : String} {bytes : List UInt8}
    (h : r.apply (.register name bytes) = .ok r') :
    ∃ u t x, u.name = name ∧ r.Registers u bytes t x r' := by
  obtain ⟨⟨t, _⟩, hregister, rfl⟩ := Outcome.map_eq_ok.mp h
  obtain ⟨u, x, hname, hfresh, hadmitted, hcreated, -, hresult⟩ := register_cases hregister
  have hredirected := hcreated.redirect_eq
  rw [hr.verifies] at hadmitted hredirected
  exact ⟨u, t, x, hname, hname ▸ hfresh, hadmitted, hcreated, hredirected, hresult⟩

lemma replay_pair {op op' : Operation} (h : r.replay [op, op'] = some r') :
    ∃ r₁, r.apply op = .ok r₁ ∧ r₁.apply op' = .ok r' := by
  unfold replay at h
  split at h
  · next r₁ hop =>
    unfold replay at h
    split at h
    · next r₂ hop' =>
      obtain rfl := Option.some.inj h
      exact ⟨r₁, hop, hop'⟩
    · cases h
  · cases h

/-! ### Two registrations -/

section Orders

variable {r₁ r₂ late early : Registry} {v : TypeUnit} {bytes bytes' : List UInt8} {n n' e e' : LiveType}
  {x x' y y' : RedirectedVersion}
  (h : Reachable config s) (hverify : config.verify = true)
  (hn : s.Registers u bytes n x r₁) (he : r₁.Registers v bytes' e y late)
  (he' : s.Registers v bytes' e' y' r₂) (hn' : r₂.Registers u bytes n' x' early)
  (hfixed : ∀ id < s.size, σ id = id) (hsize : σ s.size = s.size + 1)
  (hsize' : σ (s.size + 1) = s.size)
include h hverify

lemma fixed_of_find? (hfixed : ∀ id < s.size, σ id = id) {name : String} {t : LiveType}
    (ht : s.find? name = some t) : σ t.id = t.id :=
  hfixed _ ((h.wellFormed hverify).id_lt (mem_of_find? ht))

include he he' hn' hfixed hsize in
/-- The type that refers to the other one has twins for bodies. -/
lemma twin_referring (hn : s.Registers u bytes n x r₁) (hearly : early.WellFormed) :
    x.Twin σ late early x' := by
  refine TypeUnit.redirect_twin ⟨?_, fun name hname => ?_⟩ hn.redirected hn'.redirected
  · exact congrArg (RedirectContext.ofBaseline · 0 u r₂) (he'.size_eq.trans hsize.symm)
  · show LiveType.Seen σ late early u name (s.find? name) (r₂.find? name)
    rw [he'.find?_eq]
    split_ifs with heq
    · subst heq
      rw [he'.fresh]
      -- The other type was open when this one came first, and is there when this one comes last.
      refine .bound ⟨⟨e, ?_, ?_⟩, ⟨e', ?_, fun key isStatic hkind => ?_⟩⟩
      · rw [he.find?_eq, if_pos rfl]
      · rw [he.created.layout_eq, he'.created.layout_eq]
      · rw [hn'.find?_eq, if_neg hname, he'.find?_eq, if_pos rfl]
      · exact he'.created.binds (h.wellFormed hverify).verifies he'.admitted hearly
          (hn'.mem_of_mem he'.mem) hkind
    · exact .same _ fun t ht => fixed_of_find? h hverify hfixed ht

include hn hfixed hsize' in
/-- The other type has them too, for it does not refer to that one. -/
lemma twin_referred (he : r₁.Registers v bytes' e y late) (he' : s.Registers v bytes' e' y' r₂)
    (hnested : TypeName.isNestedIn v.name u.name = false) : y.Twin σ late early y' := by
  refine TypeUnit.redirect_twin ⟨?_, fun name hname => ?_⟩ he.redirected he'.redirected
  · have htypeId : s.size = σ r₁.size := by rw [hn.size_eq, hsize']
    exact congrArg (RedirectContext.ofBaseline · 0 v s) htypeId
  · show LiveType.Seen σ late early v name (r₁.find? name) (s.find? name)
    rw [hn.find?_eq]
    split_ifs with heq
    · subst heq
      rw [hn.fresh]
      -- A body that named it would be refused where it is not registered, and there none is.
      exact .refused n hnested
    · exact .same _ fun t ht => fixed_of_find? h hverify hfixed ht

include hn he he' hn' hfixed in
/-- Both registries have the same sites. -/
lemma sites_orders (hx : x'.bindings = x.bindings.map (SiteBinding.rename σ))
    (hy : y'.bindings = y.bindings.map (SiteBinding.rename σ)) (id : SiteId) :
    early.sites.find? (id.rename σ) = (late.sites.find? id).map (CaptureSite.rename σ) := by
  obtain ⟨hdeclaring, hnodup⟩ := hn.bindings
  obtain ⟨hdeclaring', hnodup'⟩ := he.bindings
  rw [hn.size_eq] at hdeclaring'
  have hdeclared {id : SiteId} (hle : s.size ≤ id.declaring) : s.sites.find? id = none := by
    cases hsite : s.sites.find? id with
    | none => rfl
    | some site =>
      obtain ⟨t, ht, hid⟩ := h.declared hverify id site hsite
      have hlt := (h.wellFormed hverify).id_lt ht
      rw [hid] at hlt
      exact absurd hle (Nat.not_le_of_lt hlt)
  have hlate : late.sites = bindAll (bindAll s.sites x.bindings) y.bindings := by
    rw [he.result_eq, hn.result_eq]
  have hearly : early.sites = bindAll (bindAll s.sites (y.bindings.map (SiteBinding.rename σ)))
      (x.bindings.map (SiteBinding.rename σ)) := by
    rw [hn'.result_eq, he'.result_eq, hx, hy]
  rw [hlate, hearly]
  refine find?_bindAll_orders (h.find?_rename hverify hfixed) hnodup hnodup' (fun b hb => ?_)
    (fun b hb b' hb' heq => ?_) id
  · refine hdeclared ?_
    rcases List.mem_append.mp hb with hb | hb
    · exact Nat.le_of_eq (hdeclaring b hb).symm
    · exact Nat.le_trans (Nat.le_succ _) (Nat.le_of_eq (hdeclaring' b hb).symm)
  · have hsame : b.id.declaring = b'.id.declaring := congrArg SiteId.declaring heq
    rw [hdeclaring b hb, hdeclaring' b' hb'] at hsame
    exact absurd hsame (Nat.succ_ne_self _).symm

include hn he he' hn' hfixed hsize hsize' in
/-- The types of both registries are twins. -/
lemma types_orders (hnested : TypeName.isNestedIn v.name u.name = false)
    (hearly : early.WellFormed) :
    n.Twin σ late early n' ∧ e.Twin σ late early e' ∧ ∀ t ∈ s.types, t.Twin σ late early t := by
  have hr := h.wellFormed hverify
  have hx := twin_referring h hverify he he' hn' hfixed hsize hn hearly
  have hy : y.Twin σ late early y' := twin_referred h hverify hn hfixed hsize' he he' hnested
  refine ⟨?_, ?_, fun t ht => ?_⟩
  · refine hn.created.twin hn'.created ?_ ?_ hx (he.mem_of_mem hn.mem)
    · rw [he'.result_eq]
    · rw [he'.size_eq, hsize]
  · refine he.created.twin he'.created ?_ ?_ hy he.mem
    · rw [hn.result_eq]
    · rw [hn.size_eq, hsize']
  · exact LiveType.twin_self (he.mem_of_mem (hn.mem_of_mem ht)) (hr.types t ht)
      (h.loaded t ht) (hfixed _ (hr.id_lt ht))

include hn he he' hn' hfixed hsize hsize' in
/-- The registries of both orders are twins. -/
lemma twin_orders (hne : u.name ≠ v.name) (hnested : TypeName.isNestedIn v.name u.name = false)
    (hearly : early.WellFormed) (hbeyond : ∀ id, s.size + 1 < id → σ id = id) :
    late.Twin σ early := by
  have hr := h.wellFormed hverify
  have hx := twin_referring h hverify he he' hn' hfixed hsize hn hearly
  have hy : y.Twin σ late early y' := twin_referred h hverify hn hfixed hsize' he he' hnested
  obtain ⟨hnn, hee, hold⟩ :=
    types_orders h hverify hn he he' hn' hfixed hsize hsize' hnested hearly
  refine ⟨fun name => ?_, fun id => ?_, fun id hnone => hbeyond id ?_,
    sites_orders h hverify hn he he' hn' hfixed hx.bindings_eq hy.bindings_eq⟩
  · rw [he.find?_eq, hn.find?_eq, hn'.find?_eq, he'.find?_eq]
    by_cases hv : name = v.name
    · rw [if_pos hv, if_neg (hv ▸ hne.symm), if_pos hv]
      exact .some hee
    rw [if_neg hv, if_neg hv]
    split_ifs with hu
    · exact .some hnn
    · cases ht : s.find? name with
      | none => exact .none
      | some t => exact .some (hold t (mem_of_find? ht))
  · have hsame : Option.Rel (LiveType.Twin σ late early) (s.byId? id) (s.byId? id) := by
      cases ht : s.byId? id with
      | none => exact .none
      | some t => exact .some (hold t (List.mem_of_getElem? ht))
    rw [he.byId?_eq, hn.byId?_eq, hn'.byId?_eq, he'.byId?_eq, hn.size_eq, he'.size_eq]
    rcases Nat.lt_trichotomy id s.size with hlt | rfl | hlt
    · simpa [hfixed id hlt, Nat.ne_of_lt hlt, Nat.ne_of_lt (Nat.lt_succ_of_lt hlt)] using hsame
    · simpa [hsize] using Option.Rel.some hnn
    rcases Nat.lt_or_eq_of_le hlt with hlt' | rfl
    · simpa [hbeyond id hlt', Nat.ne_of_gt hlt, Nat.ne_of_gt hlt'] using hsame
    · simpa [hsize'] using Option.Rel.some hee
  · have hle : late.size ≤ id := List.getElem?_eq_none_iff.mp hnone
    rwa [he.size_eq, hn.size_eq] at hle

end Orders

/-- The registries that two registrations come to in either order are twins, when the name of one type
has the other's in front and a dollar sign after that. -/
theorem Reachable.twin_of_orders {late early : Registry} {nested outer rest : String}
    {nestedBytes outerBytes : List UInt8} (h : Reachable config s) (hverify : config.verify = true)
    (hname : nested = outer ++ "$" ++ rest)
    (hlate : s.replay [.register nested nestedBytes, .register outer outerBytes] = some late)
    (hearly : s.replay [.register outer outerBytes, .register nested nestedBytes] = some early) :
    late.Twin (Equiv.swap s.size (s.size + 1)) early := by
  have hr := h.wellFormed hverify
  obtain ⟨r₁, hr₁, hr₁'⟩ := replay_pair hlate
  obtain ⟨r₂, hr₂, hr₂'⟩ := replay_pair hearly
  have hreach₁ : Reachable config r₁ := h.tail (step_of_apply hr₁)
  have hreach₂ : Reachable config r₂ := h.tail (step_of_apply hr₂)
  have hafter : early.WellFormed :=
    Reachable.wellFormed (hreach₂.tail (step_of_apply hr₂')) hverify
  obtain ⟨u, n, x, hu, hn⟩ := registers_of_apply hr hr₁
  obtain ⟨v, e, y, hv, he⟩ := registers_of_apply (hreach₁.wellFormed hverify) hr₁'
  obtain ⟨v', e', y', -, he'⟩ := registers_of_apply hr hr₂
  obtain ⟨u', n', x', -, hn'⟩ := registers_of_apply (hreach₂.wellFormed hverify) hr₂'
  obtain rfl : u = u' := Except.ok.inj (hn.admitted.symm.trans hn'.admitted)
  obtain rfl : v = v' := Except.ok.inj (he.admitted.symm.trans he'.admitted)
  have hlength : nested.length = outer.length + 1 + rest.length := by
    rw [hname, String.length_append, String.length_append]
    rfl
  have hnested : TypeName.isNestedIn v.name u.name = false := by
    rw [hu, hv, ← Bool.not_eq_true]
    intro hnested
    obtain ⟨rest', hname'⟩ := TypeName.isNestedIn_eq_true.mp hnested
    have hlength' := congrArg String.length hname'
    rw [String.length_append, String.length_append] at hlength'
    omega
  have hne : u.name ≠ v.name := by
    rw [hu, hv]
    rintro rfl
    omega
  refine twin_orders h hverify hn he he' hn' (fun id hlt => ?_) (Equiv.swap_apply_left ..)
    (Equiv.swap_apply_right ..) hne hnested hafter fun id hlt => ?_
  · exact Equiv.swap_apply_of_ne_of_ne (Nat.ne_of_lt hlt) (Nat.ne_of_lt (Nat.lt_succ_of_lt hlt))
  · exact Equiv.swap_apply_of_ne_of_ne (Nat.ne_of_gt (Nat.lt_of_succ_lt hlt)) (Nat.ne_of_gt hlt)

end Registry

end LiveTypes
