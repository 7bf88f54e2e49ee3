import LiveTypes.Proofs.Registry.Bodies
import LiveTypes.Proofs.Registry.Sites
import LiveTypes.Proofs.Version.Dispatcher

/-!
# Coherent registries

The types of a registry and its capture sites agree with each other: a site belongs to a registered
type and has the shape of its host, and every closure creation of a current version has its site. Sites
are changed from two sides, by new versions of the type that declares them and by new versions of
their host, and both leave the agreement in place (`Reachable.coherent`).
-/

namespace LiveTypes

/-! ### Flags of a loaded unit -/

lemma hasFlag_or (a b flag : UInt32) :
    hasFlag (a ||| b) flag = (hasFlag a flag || hasFlag b flag) := by
  have hor : (a ||| b) &&& flag = (a &&& flag) ||| (b &&& flag) := by
    apply UInt32.eq_of_toBitVec_eq
    ext i
    simp [Bool.and_or_distrib_right]
  simp [hasFlag, hor]

lemma TypeUnit.isClosureHost_dispatcher {u d : TypeUnit} (h : u.dispatcher = .ok d) :
    d.isClosureHost = u.isClosureHost := by
  obtain ⟨constants, methods, -, rfl⟩ := dispatcher_eq_ok.mp h
  have hother : hasFlag Access.dispatching Access.closureHost = false := by decide
  rw [isClosureHost, hasFlag_or, hother, Bool.or_false, isClosureHost]

lemma TypeUnit.isClosureHost_promote (u : TypeUnit) : u.promote.isClosureHost = u.isClosureHost := by
  have hmask : ~~~Access.isPrivate &&& Access.closureHost = Access.closureHost := by decide
  have hkept : hasFlag (u.access &&& ~~~Access.isPrivate) Access.closureHost =
      hasFlag u.access Access.closureHost := by
    rw [hasFlag, UInt32.and_assoc, hmask, hasFlag]
  have hother : hasFlag Access.isPublic Access.closureHost = false := by decide
  rw [isClosureHost, promote, hasFlag_or, hkept, hother, Bool.or_false, isClosureHost]

namespace LiveType

variable {t : LiveType} {config : RegistryConfig}

/-- A loaded unit hosts a closure just when the first version does. -/
lemma Loaded.isClosureHost_eq (h : t.Loaded config) :
    t.isClosureHost = t.initial.unit.isClosureHost := by
  obtain ⟨d, hd, hunit⟩ := h.unit_eq
  rw [isClosureHost, hunit, ← TypeUnit.isClosureHost_dispatcher hd]
  split
  · exact d.isClosureHost_promote
  · rfl

/-- Whether a type hosts a closure never changes. -/
lemma WellFormed.isClosureHost_current (ht : t.WellFormed) (h : t.Loaded config) :
    t.isClosureHost = t.current.unit.isClosureHost := by
  rw [h.isClosureHost_eq, ht.initial_known.closureHost_eq]
  exact (History.check_eq_ok.mp ht.checked).2.2.1.symm

end LiveType

/-! ### Sites of the current versions -/

/-- Whether every closure creation of a unit names a host and has its site, bound to that host. -/
def TypeUnit.CreatesAt (u : TypeUnit) (sites : SiteTable) (id : TypeId) : Prop :=
  ∀ m ∈ u.methods, ∀ n i, m.creations[n]? = some i →
    ∃ hostIndex count flags host s, i.operands = .closure hostIndex count flags ∧
      u.constants.string? hostIndex = some host ∧ sites.find? ⟨id, m.key, n⟩ = some s ∧
      s.host = host

namespace TypeUnit.CreatesAt

variable {u : TypeUnit} {sites sites' : SiteTable} {id : TypeId}

/-- The sites of a type stay in place when each keeps its host. -/
lemma of_same (h : u.CreatesAt sites id)
    (hsame : ∀ site s, site.declaring = id → sites.find? site = some s →
      ∃ s', sites'.find? site = some s' ∧ s'.host = s.host) : u.CreatesAt sites' id := by
  intro m hm n i hi
  obtain ⟨hostIndex, count, flags, host, s, hoperands, hhost, hs, rfl⟩ := h m hm n i hi
  obtain ⟨s', hs', hsame⟩ := hsame _ s rfl hs
  exact ⟨hostIndex, count, flags, s.host, s', hoperands, hhost, hs', hsame⟩

/-- The bindings of a version give every closure creation its site. -/
lemma of_redirect {cx : RedirectContext} {redirected : RedirectedVersion} (hu : u.Verified)
    (hredirect : u.redirect cx true = .ok redirected)
    (hbound : ∀ b ∈ redirected.bindings, ∃ s, sites.find? b.id = some s ∧ s.host = b.host) :
    u.CreatesAt sites cx.typeId := by
  intro m hm n i hi
  obtain ⟨hostIndex, count, flags, hoperands, b, hb, hid, hhost⟩ :=
    u.binding_of_creation hu hredirect hm hi
  obtain ⟨s, hs, hsame⟩ := hbound b hb
  exact ⟨hostIndex, count, flags, b.host, s, hoperands, hhost, hid ▸ hs, hsame⟩

end TypeUnit.CreatesAt

namespace Registry

variable {r r' : Registry} {config : RegistryConfig}

/-- Whether every closure creation of a current version has its site. -/
def Created (r : Registry) : Prop := ∀ t ∈ r.types, t.current.unit.CreatesAt r.sites t.id

lemma created_of_registered (hr : r.WellFormed) (hold : r.Created) {u : TypeUnit}
    {bytes : List UInt8} {t : LiveType} {redirected : RedirectedVersion}
    (hread : TypeUnit.admit bytes r.config.verify = .ok u)
    (hcreated : t.Created r u bytes redirected)
    (hfit : ∀ b ∈ redirected.bindings, r.sites.check b = .ok ()) :
    Created { r with types := r.types ++ [t], sites := bindAll r.sites redirected.bindings } := by
  have hredirect := hcreated.redirect_eq
  rw [hr.verifies] at hread hredirect
  have hu := TypeUnit.verified_of_admit hread
  obtain ⟨hasked, hnodup⟩ := TypeUnit.bindings_of_redirect hu hredirect
  intro q hq
  rcases List.mem_append.mp hq with hq | hq
  · refine (hold q hq).of_same fun site s hsite hs => ?_
    -- all bindings are of sites that the new type declares
    have hother : ∀ b ∈ redirected.bindings, b.id = site → b.host = s.host := by
      rintro b hb rfl
      have hlt := (List.getElem?_eq_some_iff.mp (hr.byId?_id hq)).1
      have hdeclaring := (hasked b hb).declaring_eq
      rw [hsite] at hdeclaring
      exact absurd hdeclaring (Nat.ne_of_lt hlt)
    obtain ⟨s', hs', -, hsame⟩ := evolves_bindAll_of_host hs hother
    exact ⟨s', hs', hsame⟩
  · obtain rfl := List.mem_singleton.mp hq
    rw [hcreated.current_unit, hcreated.id_eq]
    refine .of_redirect hu hredirect fun b hb => ?_
    obtain ⟨s, hs, hfits⟩ := fits_of_mem hfit hnodup hb
    exact ⟨s, hs, hfits.host_eq⟩

lemma created_of_renewed (hr : r.WellFormed) (hold : r.Created) {t : LiveType} {label : String}
    {bytes : List UInt8} {u : TypeUnit} {redirected : RedirectedVersion} (ht : t ∈ r.types)
    (haccepts : t.Accepts true label bytes u)
    (hredirect : u.redirect ⟨t.id, t.versions.length, t.layout, t.loadedMethods, r⟩ true =
      .ok redirected)
    (hfit : r.checkSites t u redirected.bindings = .ok ()) :
    (replace { r with sites := r.bindSites t u redirected.bindings }
      (t.reloadNew label bytes u redirected)).Created := by
  have hu := TypeUnit.verified_of_admit haccepts.admitted
  obtain ⟨hasked, hnodup⟩ := TypeUnit.bindings_of_redirect hu hredirect
  have hid : (t.reloadNew label bytes u redirected).id = t.id := rfl
  have hunit : (t.reloadNew label bytes u redirected).current.unit = u :=
    congrArg Version.unit (LiveType.current_publish (t := t) rfl)
  intro q hq
  rcases (hr.mem_replace ht hid).mp hq with rfl | ⟨hq, hne⟩
  · rw [hunit]
    refine .of_redirect hu hredirect fun b hb => ?_
    obtain ⟨s, hs, hsame, -⟩ :=
      exists_bindSites (t := t) (u := u) (check_of_checkSites hfit) hnodup hb
    exact ⟨s, hs, hsame⟩
  · refine (hold q hq).of_same fun site s hsite hs => ?_
    refine bindSites_of_other hs ?_
    rintro b hb rfl
    exact hne (hsite.symm.trans (hasked b hb).declaring_eq)

/-- Every closure creation of a current version has its site, bound to the host that it names. -/
theorem Reachable.created (h : Reachable config r) (hverify : config.verify = true)
    (hfree : r.CollisionFree) : r.Created := by
  refine h.invariant (P := fun r => r.CollisionFree → r.Created)
    (by simp [Registry.create, Created]) (fun {r r'} hreachable ih hchange hfree => ?_) hfree
  have hr := hreachable.wellFormed hverify
  have hold := ih (hfree.of_extends (hchange.extends hr))
  cases hchange with
  | registered _ hread hcreated hfit => exact created_of_registered hr hold hread hcreated hfit
  | @repeated t label bytes u hfound haccepts hcurrent =>
    rw [hr.verifies] at haccepts
    have ht := mem_of_find? hfound
    have hid : (t.reloadSame label bytes u).id = t.id := rfl
    have hlast : (t.reloadSame label bytes u).current =
        t.nextVersion label bytes u t.current.executorBytes := LiveType.current_publish rfl
    have hmem {q : LiveType} := hr.mem_replace (q := q) ht hid
    obtain ⟨-, rfl⟩ := (hr.types t ht).eq_current haccepts hcurrent
      (hfree.not_collides (hmem.mpr (.inl rfl)))
    intro q hq
    rcases hmem.mp hq with rfl | ⟨hq, -⟩
    · rw [hlast]
      exact hold t ht
    · exact hold q hq
  | renewed hfound haccepts _ hredirect hfit =>
    rw [hr.verifies] at haccepts hredirect
    exact created_of_renewed hr hold (mem_of_find? hfound) haccepts hredirect hfit

/-- Every site belongs to a registered type. -/
lemma Reachable.declared (h : Reachable config r) (hverify : config.verify = true) :
    ∀ id s, r.sites.find? id = some s → ∃ t ∈ r.types, t.id = id.declaring := by
  refine h.invariant (P := fun r => ∀ id s, r.sites.find? id = some s →
    ∃ t ∈ r.types, t.id = id.declaring) (by simp [Registry.create])
    fun {r r'} hreachable ih hchange => ?_
  have hr := hreachable.wellFormed hverify
  have hextends := hchange.extends hr
  have hold {id : SiteId} (h : ∃ s, r.sites.find? id = some s) :
      ∃ t ∈ r'.types, t.id = id.declaring := by
    obtain ⟨s, hs⟩ := h
    obtain ⟨t, ht, hid⟩ := ih id s hs
    obtain ⟨t', ht', hcontinues⟩ := hextends.types t ht
    exact ⟨t', ht', hcontinues.id_eq.trans hid⟩
  intro id s hs
  cases hchange with
  | @registered u bytes t redirected _ hread hcreated _ =>
    rw [hr.verifies] at hread
    have hredirect := hcreated.redirect_eq
    rw [hr.verifies] at hredirect
    have hu := TypeUnit.verified_of_admit hread
    rcases mem_bindAll hs with hs | ⟨b, hb, rfl⟩
    · exact hold hs
    · refine ⟨t, List.mem_append_right _ List.mem_cons_self, hcreated.id_eq.trans ?_⟩
      exact ((TypeUnit.bindings_of_redirect hu hredirect).1 b hb).declaring_eq.symm
  | repeated => exact hold ⟨s, hs⟩
  | @renewed t label bytes u redirected hfound haccepts _ hredirect _ =>
    rw [hr.verifies] at haccepts hredirect
    have hu := TypeUnit.verified_of_admit haccepts.admitted
    have hid : (t.reloadNew label bytes u redirected).id = t.id := rfl
    rcases mem_bindSites hs with hs | ⟨b, hb, rfl⟩
    · exact hold hs
    · refine ⟨_, (hr.mem_replace (mem_of_find? hfound) hid).mpr (.inl rfl), ?_⟩
      exact ((TypeUnit.bindings_of_redirect hu hredirect).1 b hb).declaring_eq.symm

end Registry

/-! ### Coherence -/

/-- Whether a site has the shape of its host as the host is now. -/
structure CaptureSite.Matches (s : CaptureSite) (t : LiveType) : Prop where
  name_eq : t.name = s.host
  isClosureHost : t.isClosureHost = true
  capturesThis_eq : s.capturesThis = t.current.unit.hostShape.capturesThis
  /-- There is one position for each captured field, -/
  length_eq : s.positions.length = t.current.unit.capturedFields.length
  /-- its slot has the type of the field, -/
  type_eq : ∀ (p : Nat) (f : FieldDecl), t.current.unit.capturedFields[p]? = some f →
    ∃ k, s.positions[p]? = some k ∧ s.slotType? k = some f.type
  /-- and code of the current version reads it where it is now. -/
  slotAt?_eq : ∀ p, s.slotAt? s.hostId t.current.index p = s.slotFor? p

/-- A registry whose types and capture sites agree with each other. -/
structure Registry.Coherent (r : Registry) : Prop where
  id_eq : ∀ (k : Nat) (t : LiveType), r.types[k]? = some t → t.id = k
  names_nodup : (r.types.map LiveType.name).Nodup
  find?_eq : ∀ name t, r.find? name = some t ↔ t ∈ r.types ∧ t.name = name
  declared : ∀ id s, r.sites.find? id = some s → ∃ t, r.byId? id.declaring = some t
  hosted : ∀ id s, r.sites.find? id = some s → ∃ t, r.byId? s.hostId = some t ∧ s.Matches t
  created : ∀ t ∈ r.types, t.current.unit.CreatesAt r.sites t.id

namespace Registry

variable {r : Registry} {config : RegistryConfig}

/-- A site matches its host. -/
lemma matches_of_hostedBy (hr : r.WellFormed) {t : LiveType} (ht : t ∈ r.types)
    (hloaded : t.Loaded config) {s : CaptureSite} (htidy : s.Tidy)
    (hversions : ∀ m ∈ s.mappings, r.HasVersion m.hostId m.hostVersion) (hby : s.HostedBy t) :
    s.Matches t where
  name_eq := hby.name_eq
  isClosureHost := by
    rw [(hr.types t ht).isClosureHost_current hloaded]
    exact hby.isClosureHost
  capturesThis_eq := hby.capturesThis_eq
  length_eq := by
    rw [hby.captures.length_eq]
    exact List.length_map _
  type_eq p f hf := by
    have htype := hby.captures.typeAt?_eq p
    rw [show t.current.unit.hostShape.captured[p]? = some f.type by
      rw [TypeUnit.hostShape, List.getElem?_map, hf]; rfl] at htype
    exact Option.bind_eq_some_iff.mp htype
  slotAt?_eq := by
    rw [(hr.types t ht).current_index]
    apply htidy.slotAt?_of_newest
    intro m hm hid
    obtain ⟨q, hq, hqid, hle⟩ := hversions m hm
    obtain rfl := hr.eq_of_id hq ht (by rw [hqid, hid, hby.id_eq])
    exact hle

/-- Every registry that verifies units is coherent, as long as no two versions of a type with
different bytes have one digest. -/
theorem Reachable.coherent (h : Reachable config r) (hverify : config.verify = true)
    (hfree : r.CollisionFree) : r.Coherent := by
  have hr := h.wellFormed hverify
  refine ⟨hr.id_eq, hr.names_nodup, fun name t => hr.find?_eq_some, fun id s hs => ?_,
    fun id s hs => ?_, h.created hverify hfree⟩
  · obtain ⟨t, ht, hid⟩ := h.declared hverify id s hs
    exact ⟨t, hr.byId?_eq_some.mpr ⟨ht, hid⟩⟩
  · obtain ⟨htidy, hversions⟩ := h.tidy hverify id s hs
    obtain ⟨t, ht, hby⟩ := h.hosted hverify hfree id s hs
    exact ⟨t, hr.byId?_eq_some.mpr ⟨ht, hby.id_eq⟩,
      matches_of_hostedBy hr ht (h.loaded t ht) htidy hversions hby⟩

end Registry

end LiveTypes
