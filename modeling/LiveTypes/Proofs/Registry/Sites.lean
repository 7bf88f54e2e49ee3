import LiveTypes.Proofs.Redirection.Version
import LiveTypes.Proofs.Registry.Fields

/-!
# Sites and their hosts

Every capture site of a registry is tidy and was bound to versions that exist. As long as no two
versions of a type with different bytes have one digest, its positions are those that the current
version of its host declares (`Reachable.hosted`).
-/

namespace LiveTypes

/-- Whether a type is the host of a site, with the shape that the site has. -/
structure CaptureSite.HostedBy (s : CaptureSite) (t : LiveType) : Prop where
  id_eq : t.id = s.hostId
  name_eq : t.name = s.host
  isClosureHost : t.current.unit.isClosureHost = true
  capturesThis_eq : s.capturesThis = t.current.unit.hostShape.capturesThis
  captures : s.Captures t.current.unit.hostShape.captured

lemma CaptureSite.Fits.hostedBy {s : CaptureSite} {b : SiteBinding} {t : LiveType} (h : s.Fits b)
    (hid : b.hostId = t.id) (hname : b.host = t.name) (hhost : t.current.unit.isClosureHost = true)
    (hshape : b.shape = t.current.unit.hostShape) : s.HostedBy t where
  id_eq := by rw [h.hostId_eq, hid]
  name_eq := by rw [h.host_eq, hname]
  isClosureHost := hhost
  capturesThis_eq := by rw [h.capturesThis_eq, hshape]
  captures := hshape ▸ h.captures

lemma LiveType.Created.current_unit {r : Registry} {u : TypeUnit} {bytes : List UInt8}
    {t : LiveType} {redirected : RedirectedVersion} (h : t.Created r u bytes redirected) :
    t.current.unit = u := by
  have hversion : t.table.version = 0 := by rw [h.table_eq]; rfl
  rw [current, hversion, versions]
  exact congrArg Version.unit h.initial_eq

lemma LiveType.of_currentShape? {t : LiveType} {version : Nat} {shape : HostShape}
    (h : t.currentShape? = some (version, shape)) :
    t.current.unit.isClosureHost = true ∧ shape = t.current.unit.hostShape ∧
      version = t.current.index := by
  unfold currentShape? at h
  split_ifs at h with hhost
  obtain ⟨rfl, rfl⟩ := Prod.mk.inj (Option.some.inj h)
  exact ⟨hhost, rfl, rfl⟩

namespace Registry

variable {r r' : Registry} {t : LiveType} {config : RegistryConfig}

def HasVersion (r : Registry) (id : TypeId) (version : Nat) : Prop :=
  ∃ t ∈ r.types, t.id = id ∧ version ≤ t.table.version

lemma HasVersion.extends (hr : r.WellFormed) (hr' : r'.WellFormed) (h : r.Extends r') {id : TypeId}
    {version : Nat} (hversion : r.HasVersion id version) : r'.HasVersion id version := by
  obtain ⟨t, ht, rfl, hle⟩ := hversion
  obtain ⟨t', ht', hcontinues⟩ := h.types t ht
  have hlength := hcontinues.versions_grow.length_le
  have hpublished := (hr.types t ht).published
  have hpublished' := (hr'.types t' ht').published
  exact ⟨t', ht', hcontinues.id_eq, by omega⟩

/-- Whether a binding is to a version of a registered type, with the shape that the version declares. -/
def Declares (r : Registry) (b : SiteBinding) : Prop :=
  ∃ t ∈ r.types, t.id = b.hostId ∧
    ∃ v ∈ t.versions, v.index = b.hostVersion ∧ v.unit.hostShape = b.shape

lemma Declares.extends (h : r.Extends r') {b : SiteBinding} (hb : r.Declares b) :
    r'.Declares b := by
  obtain ⟨t, ht, hid, v, hv, hversion⟩ := hb
  obtain ⟨t', ht', hcontinues⟩ := h.types t ht
  exact ⟨t', ht', hcontinues.id_eq.trans hid, v, hcontinues.versions_grow.subset hv, hversion⟩

lemma Declares.hasVersion (hr : r.WellFormed) {b : SiteBinding} (hb : r.Declares b) :
    r.HasVersion b.hostId b.hostVersion := by
  obtain ⟨t, ht, hid, v, hv, hindex, -⟩ := hb
  refine ⟨t, ht, hid, ?_⟩
  have hlt := (hr.types t ht).index_lt hv
  have hpublished := (hr.types t ht).published
  omega

/-- No captured variable is of type void. -/
lemma Declares.ne_void (hr : r.WellFormed) {b : SiteBinding} (hb : r.Declares b) :
    ∀ type ∈ b.shape.captured, type ≠ .void := by
  obtain ⟨t, ht, -, v, hv, -, hshape⟩ := hb
  rw [← hshape]
  intro type htype
  obtain ⟨f, hf, rfl⟩ := List.mem_map.mp htype
  exact (hr.types t ht).ne_void hv f (List.mem_filter.mp hf).1

/-- A binding to the current version of a registered type. -/
lemma Declares.of_current (hr : r.WellFormed) (hextends : r.Extends r') {b : SiteBinding} {q : LiveType}
    (hfind : r.find? b.host = some q) (hid : b.hostId = q.id)
    (hshape : q.currentShape? = some (b.hostVersion, b.shape)) : r'.Declares b := by
  have hq := mem_of_find? hfind
  obtain ⟨-, hshape, hversion⟩ := LiveType.of_currentShape? hshape
  exact Declares.extends hextends
    ⟨q, hq, hid.symm, q.current, (hr.types q hq).current_mem, hversion.symm, hshape.symm⟩

/-- The bindings of a type that is registered are to versions that exist afterwards. -/
lemma declares_of_created (hr : r.WellFormed) {u : TypeUnit} {bytes : List UInt8} {t : LiveType}
    {redirected : RedirectedVersion} (hread : TypeUnit.admit bytes r.config.verify = .ok u)
    (hcreated : t.Created r u bytes redirected) (hextends : r.Extends r') (ht : t ∈ r'.types) :
    ∀ b ∈ redirected.bindings, r'.Declares b := by
  have hredirect := hcreated.redirect_eq
  rw [hr.verifies] at hread hredirect
  intro b hb
  rcases ((TypeUnit.bindings_of_redirect (TypeUnit.verified_of_admit hread) hredirect).1 b hb).host with
    ⟨-, -, hid, hzero, hshape⟩ | ⟨-, q, hfind, hid, hshape⟩
  · refine ⟨t, ht, by rw [hid, hcreated.id_eq]; rfl, t.initial, List.mem_cons_self, ?_, ?_⟩ <;>
      rw [hcreated.initial_eq]
    · exact hzero.symm
    · exact hshape.symm
  · exact .of_current hr hextends hfind hid hshape

/-- A binding to the new version of a type. -/
lemma Declares.of_renewed {t : LiveType} {label : String} {bytes : List UInt8} {u : TypeUnit}
    {redirected : RedirectedVersion} (ht : t.reloadNew label bytes u redirected ∈ r'.types)
    {b : SiteBinding} (hid : b.hostId = t.id) (hversion : b.hostVersion = t.versions.length)
    (hshape : b.shape = u.hostShape) : r'.Declares b := by
  refine ⟨_, ht, hid.symm, t.nextVersion label bytes u redirected.executor.encode, ?_, hversion.symm,
    hshape.symm⟩
  rw [show (t.reloadNew label bytes u redirected).versions = t.versions ++ [_] from rfl]
  exact List.mem_append_right _ List.mem_cons_self

/-- The bindings of a new version of a type are to versions that exist afterwards. -/
lemma declares_of_renewed (hr : r.WellFormed) {t : LiveType} {label : String} {bytes : List UInt8}
    {u : TypeUnit} {redirected : RedirectedVersion} (haccepts : t.Accepts true label bytes u)
    (hredirect : u.redirect ⟨t.id, t.versions.length, t.layout, t.loadedMethods, r⟩ true =
      .ok redirected)
    (hextends : r.Extends r') (ht : t.reloadNew label bytes u redirected ∈ r'.types) :
    ∀ b ∈ redirected.bindings, r'.Declares b := by
  have hu := TypeUnit.verified_of_admit haccepts.admitted
  intro b hb
  rcases ((TypeUnit.bindings_of_redirect hu hredirect).1 b hb).host with
    ⟨-, -, hid, hnew, hshape⟩ | ⟨-, q, hfind, hid, hshape⟩
  · exact .of_renewed ht hid hnew hshape
  · exact .of_current hr hextends hfind hid hshape

/-- Every binding that a change applies is to a version that exists afterwards. -/
lemma Change.sites_induction (hr : r.WellFormed) (h : Change r r') {P : CaptureSite → Prop}
    (old : ∀ id s, r.sites.find? id = some s → P s)
    (made : ∀ b : SiteBinding, r'.Declares b → P (.create b))
    (rebound : ∀ b : SiteBinding, r'.Declares b → ∀ s s', P s → s.Rebound s' b → P s') :
    ∀ id s, r'.sites.find? id = some s → P s := by
  have hextends := h.extends hr
  cases h with
  | @registered u bytes t redirected _ hread hcreated _ =>
    have hdeclares := declares_of_created hr hread hcreated hextends
      (List.mem_append_right _ List.mem_cons_self)
    exact bindAll_induction (P := fun _ => P) old (fun b hb => made b (hdeclares b hb))
      fun b hb => rebound b (hdeclares b hb)
  | repeated => exact old
  | @renewed t label bytes u redirected hfound haccepts _ hredirect _ =>
    rw [hr.verifies] at haccepts hredirect
    have hsame : (t.reloadNew label bytes u redirected).id = t.id := rfl
    have hmem := (hr.mem_replace (mem_of_find? hfound) hsame).mpr (.inl rfl)
    have hdeclares := declares_of_renewed hr haccepts hredirect hextends hmem
    have hbound := bindAll_induction (P := fun _ => P) old (fun b hb => made b (hdeclares b hb))
      fun b hb => rebound b (hdeclares b hb)
    intro id s hs
    change (r.bindSites t u redirected.bindings).find? id = some s at hs
    simp only [bindSites] at hs
    split_ifs at hs with hhost
    · rw [SiteTable.rebindHost_eq] at hs
      refine bindAll_induction (P := fun _ => P) hbound (fun b hb => ?_) (fun b hb => ?_) id s hs
      · obtain ⟨id', -, rfl⟩ := List.mem_map.mp hb
        exact made _ (.of_renewed hmem rfl rfl rfl)
      · obtain ⟨id', -, rfl⟩ := List.mem_map.mp hb
        exact rebound _ (.of_renewed hmem rfl rfl rfl)
    · exact hbound id s hs

/-- Every site is tidy and was bound to versions that exist. -/
theorem Reachable.tidy (h : Reachable config r) (hverify : config.verify = true) :
    ∀ id s, r.sites.find? id = some s →
      s.Tidy ∧ ∀ m ∈ s.mappings, r.HasVersion m.hostId m.hostVersion := by
  refine h.invariant (P := fun r => ∀ id s, r.sites.find? id = some s →
      s.Tidy ∧ ∀ m ∈ s.mappings, r.HasVersion m.hostId m.hostVersion)
    (fun id s hs => ?_) fun {r r'} hreachable ih hchange => ?_
  · simp [Registry.create] at hs
  · have hr := hreachable.wellFormed hverify
    have hr' := hr.change hchange
    have hextends := hchange.extends hr
    refine hchange.sites_induction hr (fun id s hs => ?_) (fun b hb => ?_) fun b hb s s' hs hb' => ?_
    · obtain ⟨htidy, hversions⟩ := ih id s hs
      exact ⟨htidy, fun m hm => (hversions m hm).extends hr hr' hextends⟩
    · refine ⟨CaptureSite.tidy_create b, fun m hm => ?_⟩
      obtain rfl := List.mem_singleton.mp hm
      exact hb.hasVersion hr'
    · refine ⟨hb'.tidy hs.1, fun m hm => ?_⟩
      rcases hb'.mem_mappings hm with hm | rfl
      · exact hs.2 m hm
      · exact hb.hasVersion hr'

/-- A site is found under its own identity. -/
theorem Reachable.site_id (h : Reachable config r) :
    ∀ id s, r.sites.find? id = some s → s.id = id := by
  have hbound {t : SiteTable} {bindings : List SiteBinding}
      (hold : ∀ id s, t.find? id = some s → s.id = id) :
      ∀ id s, (bindAll t bindings).find? id = some s → s.id = id :=
    bindAll_induction (P := fun id s => s.id = id) hold (fun _ _ => rfl)
      fun _ _ _ _ hs hrebound => hrebound.id_eq.trans hs
  refine h.invariant (P := fun r => ∀ id s, r.sites.find? id = some s → s.id = id)
    (by simp [Registry.create]) fun {r r'} _ ih hchange => ?_
  cases hchange with
  | registered => exact hbound ih
  | repeated => exact ih
  | @renewed t label bytes u redirected =>
    intro id s hs
    change (r.bindSites t u redirected.bindings).find? id = some s at hs
    by_cases hclosure : u.isClosureHost = true
    · rw [bindSites, if_pos hclosure, SiteTable.rebindHost_eq] at hs
      exact hbound (hbound ih) id s hs
    · rw [bindSites, if_neg hclosure] at hs
      exact hbound ih id s hs

/-- No slot of a site is of type void. -/
theorem Reachable.slotType?_ne_void (h : Reachable config r) (hverify : config.verify = true) :
    ∀ id s, r.sites.find? id = some s → ∀ k type, s.slotType? k = some type → type ≠ .void := by
  refine h.invariant (P := fun r => ∀ id s, r.sites.find? id = some s →
      ∀ k type, s.slotType? k = some type → type ≠ .void)
    (by simp [Registry.create]) fun {r r'} hreachable ih hchange => ?_
  have hr := hreachable.wellFormed hverify
  have hr' := hr.change hchange
  refine hchange.sites_induction hr ih (fun b hb k type htype => ?_)
    fun b hb s s' hs hrebound k type htype => ?_
  · rw [CaptureSite.slotType?_create] at htype
    exact hb.ne_void hr' type (List.mem_of_getElem? htype)
  · rcases hrebound.slotType?_cases htype with hold | hnew
    · exact hs k type hold
    · exact hb.ne_void hr' type hnew

/-! ### The current shape of a host -/

/-- Whether no two versions of a type with different bytes have one digest. -/
def CollisionFree (r : Registry) : Prop :=
  ∀ t ∈ r.types, ∀ v ∈ t.versions, ∀ w ∈ t.versions, digest v.bytes = digest w.bytes →
    v.bytes = w.bytes

instance (r : Registry) : Decidable r.CollisionFree :=
  inferInstanceAs (Decidable (∀ t ∈ r.types, ∀ v ∈ t.versions, ∀ w ∈ t.versions, _ → _))

lemma CollisionFree.of_extends (h : r.Extends r') (hfree : r'.CollisionFree) :
    r.CollisionFree := by
  intro t ht v hv w hw hdigest
  obtain ⟨t', ht', hcontinues⟩ := h.types t ht
  have hsubset := hcontinues.versions_grow.subset
  exact hfree t' ht' v (hsubset hv) w (hsubset hw) hdigest

lemma CollisionFree.not_collides (hfree : r.CollisionFree) (ht : t ∈ r.types) : ¬ t.Collides :=
  fun ⟨v, hv, w, hw, hdigest, hbytes⟩ => hbytes (hfree t ht v hv w hw hdigest)

lemma checkSites_eq_ok {u : TypeUnit} {bindings : List SiteBinding}
    (h : r.checkSites t u bindings = .ok ()) :
    (∀ b ∈ bindings, r.sites.check b = .ok ()) ∧
      (u.isClosureHost = true → ∀ id s, r.sites.find? id = some s → s.host = t.name →
        s.capturesThis = u.hostShape.capturesThis) := by
  refine ⟨check_of_checkSites h, fun hclosure id s hs hname => ?_⟩
  obtain ⟨_, -, hhost⟩ := Outcome.bind_eq_ok.mp h
  rw [if_pos hclosure] at hhost
  have hcheck := Outcome.forM_eq_ok.mp hhost id (SiteTable.mem_boundTo.mpr ⟨s, hs, hname⟩)
  exact (SiteTable.check_eq_ok.mp hcheck s hs).symm

/-- The bindings of the sites that a new version hosts, once its own sites are bound. -/
def hostBindings (r : Registry) (t : LiveType) (u : TypeUnit) (bindings : List SiteBinding) :
    List SiteBinding :=
  ((bindAll r.sites bindings).boundTo t.name).map
    (SiteTable.hostBinding t.name t.id t.versions.length u.hostShape)

lemma bindSites_of_host {u : TypeUnit} {bindings : List SiteBinding}
    (hclosure : u.isClosureHost = true) :
    r.bindSites t u bindings = bindAll (bindAll r.sites bindings) (r.hostBindings t u bindings) := by
  rw [bindSites, if_pos hclosure]
  exact SiteTable.rebindHost_eq ..

lemma mem_hostBindings {u : TypeUnit} {bindings : List SiteBinding} {b : SiteBinding} :
    b ∈ r.hostBindings t u bindings ↔
      (∃ s, (bindAll r.sites bindings).find? b.id = some s ∧ s.host = t.name) ∧
        b = SiteTable.hostBinding t.name t.id t.versions.length u.hostShape b.id := by
  constructor
  · intro hb
    obtain ⟨id, hid, rfl⟩ := List.mem_map.mp hb
    exact ⟨SiteTable.mem_boundTo.mp hid, rfl⟩
  · rintro ⟨hid, hb⟩
    rw [hb]
    exact List.mem_map_of_mem (SiteTable.mem_boundTo.mpr hid)

lemma same_hostBindings {u : TypeUnit} {bindings : List SiteBinding} :
    ∀ b ∈ r.hostBindings t u bindings, ∀ b' ∈ r.hostBindings t u bindings, b.id = b'.id →
      b.shape.capturesThis = b'.shape.capturesThis := by
  intro b hb b' hb' _
  rw [(mem_hostBindings.mp hb).2, (mem_hostBindings.mp hb').2]
  rfl

/-- A site that is not bound to the type is as its bindings leave it. -/
lemma find?_bindSites_of_other {u : TypeUnit} {bindings : List SiteBinding} {id : SiteId}
    (hother : ∀ s, (bindAll r.sites bindings).find? id = some s → s.host ≠ t.name) :
    (r.bindSites t u bindings).find? id = (bindAll r.sites bindings).find? id := by
  by_cases hclosure : u.isClosureHost = true
  · rw [bindSites_of_host hclosure]
    refine find?_bindAll_of_other fun b hb hid => ?_
    obtain ⟨⟨s, hs, hhost⟩, -⟩ := mem_hostBindings.mp hb
    exact hother s (hid ▸ hs) hhost
  · rw [bindSites, if_neg hclosure]

section NewVersion

variable {cx : RedirectContext} {u : TypeUnit} {bindings : List SiteBinding}
  (hname : u.name = t.name) (hasked : ∀ b ∈ bindings, b.Asked cx u)
  (hnodup : (bindings.map SiteBinding.id).Nodup)
  (hchecked : r.checkSites t u bindings = .ok ())
include hname hasked hnodup hchecked

/-- Once its bindings are applied, a version's shape fits all sites bound to its type, the new ones among
them. -/
lemma check_hostBindings (hclosure : u.isClosureHost = true) :
    ∀ b ∈ r.hostBindings t u bindings, (bindAll r.sites bindings).check b = .ok () := by
  obtain ⟨hagree, hhosted⟩ := checkSites_eq_ok hchecked
  intro b hb
  obtain ⟨⟨s, hs, hbound⟩, hb⟩ := mem_hostBindings.mp hb
  refine SiteTable.check_eq_ok.mpr fun s' hs' => ?_
  obtain rfl := Option.some.inj (hs.symm.trans hs')
  rw [hb]
  rcases @fits_bindAll _ _ b.id hagree (same_of_nodup hnodup) with
    ⟨-, hold⟩ | ⟨b', hb', -, s', hs', hfits⟩
  · -- the site was bound to the type before, and was checked
    exact (hhosted hclosure b.id s (hold.symm.trans hs) hbound).symm
  · -- the site is one of the new version, which hosts it
    obtain rfl := Option.some.inj (hs.symm.trans hs')
    rcases (hasked b' hb').host with ⟨-, -, -, -, hshape⟩ | ⟨hne, -⟩
    · rw [hfits.capturesThis_eq, hshape]
      rfl
    · exact absurd ((hfits.host_eq.symm.trans hbound).trans hname.symm) hne

/-- The sites that a new version hosts fit its shape. -/
lemma fits_bindSites_of_host (hclosure : u.isClosureHost = true) {id : SiteId} {s : CaptureSite}
    (hs : (r.bindSites t u bindings).find? id = some s) (hhost : s.host = t.name) :
    s.Fits (SiteTable.hostBinding t.name t.id t.versions.length u.hostShape id) := by
  have hagree := check_hostBindings hname hasked hnodup hchecked hclosure
  rw [bindSites_of_host hclosure] at hs
  rcases @fits_bindAll _ _ id hagree same_hostBindings with
    ⟨hnone, hold⟩ | ⟨b, hb, rfl, s', hs', hfits⟩
  · rw [hold] at hs
    exact absurd rfl (hnone (SiteTable.hostBinding t.name t.id t.versions.length u.hostShape id)
      (mem_hostBindings.mpr ⟨⟨s, hs, hhost⟩, rfl⟩))
  · obtain rfl := Option.some.inj (hs.symm.trans hs')
    rwa [← (mem_hostBindings.mp hb).2]

/-- The sites that a new version asks for fit what it asks for. -/
lemma fits_bindSites (hid : cx.typeId = t.id) {b : SiteBinding} (hb : b ∈ bindings) :
    ∃ s, (r.bindSites t u bindings).find? b.id = some s ∧ s.Fits b := by
  obtain ⟨s, hs, hfits⟩ := fits_of_mem (checkSites_eq_ok hchecked).1 hnodup hb
  by_cases hown : b.host = t.name
  · obtain ⟨s', hs', -, hsame⟩ := @exists_bindSites_of_bindAll r t u bindings b.id s hs
    rcases (hasked b hb).host with ⟨-, hclosure, hhostId, -, hshape⟩ | ⟨hne, -⟩
    · have hfits' := fits_bindSites_of_host hname hasked hnodup hchecked hclosure hs'
        ((hsame.trans hfits.host_eq).trans hown)
      refine ⟨s', hs', hfits'.host_eq.trans hown.symm, ?_, ?_, ?_⟩
      · exact hfits'.hostId_eq.trans (hid.symm.trans hhostId.symm)
      · rw [hshape]
        exact hfits'.capturesThis_eq
      · rw [hshape]
        exact hfits'.captures
    · exact absurd (hown.trans hname.symm) hne
  · refine ⟨s, ?_, hfits⟩
    rw [find?_bindSites_of_other, hs]
    intro s' hs' hhost
    obtain rfl := Option.some.inj (hs.symm.trans hs')
    exact hown (hfits.host_eq.symm.trans hhost)

end NewVersion

/-- Whether every site has the shape of its host now. -/
def Hosted (r : Registry) : Prop :=
  ∀ id s, r.sites.find? id = some s → ∃ t ∈ r.types, s.HostedBy t

lemma hostedBy_of_registered {s : CaptureSite} {b : SiteBinding}
    (hfits : s.Fits b) {q : LiveType} (hfind : r.find? b.host = some q) (hid : b.hostId = q.id)
    (hshape : q.currentShape? = some (b.hostVersion, b.shape)) : q ∈ r.types ∧ s.HostedBy q := by
  have hq := mem_of_find? hfind
  obtain ⟨hhost, hshape, -⟩ := LiveType.of_currentShape? hshape
  exact ⟨hq, hfits.hostedBy hid (find?_name hfind).symm hhost hshape⟩

lemma hosted_of_registered (hr : r.WellFormed) (hhosted : r.Hosted) {u : TypeUnit}
    {bytes : List UInt8} {redirected : RedirectedVersion}
    (hread : TypeUnit.admit bytes r.config.verify = .ok u)
    (hcreated : t.Created r u bytes redirected)
    (hfit : ∀ b ∈ redirected.bindings, r.sites.check b = .ok ()) :
    Hosted { r with types := r.types ++ [t], sites := bindAll r.sites redirected.bindings } := by
  have hredirect := hcreated.redirect_eq
  rw [hr.verifies] at hread hredirect
  have hu := TypeUnit.verified_of_admit hread
  obtain ⟨hasked, hnodup⟩ := TypeUnit.bindings_of_redirect hu hredirect
  intro id s hs
  change (bindAll r.sites redirected.bindings).find? id = some s at hs
  have hsame := same_of_nodup hnodup
  rcases @fits_bindAll _ _ id hfit hsame with ⟨-, hold⟩ | ⟨b, hb, -, s', hs', hfits⟩
  · obtain ⟨q, hq, hhost⟩ := hhosted id s (hold ▸ hs)
    exact ⟨q, List.mem_append_left _ hq, hhost⟩
  · obtain rfl := Option.some.inj (hs.symm.trans hs')
    rcases (hasked b hb).host with ⟨hname, hclosure, hid, -, hshape⟩ | ⟨-, q, hfind, hid, hshape⟩
    · refine ⟨t, List.mem_append_right _ List.mem_cons_self, hfits.hostedBy ?_ ?_ ?_ ?_⟩
      · rw [hid, hcreated.id_eq]
        rfl
      · rw [hname, hcreated.name_eq]
      · rw [hcreated.current_unit, hclosure]
      · rw [hcreated.current_unit, hshape]
    · obtain ⟨hq, hhost⟩ := hostedBy_of_registered hfits hfind hid hshape
      exact ⟨q, List.mem_append_left _ hq, hhost⟩

lemma hosted_of_repeated (hr : r.WellFormed) (hhosted : r.Hosted) {label : String}
    {bytes : List UInt8} {u : TypeUnit} (hfound : r.find? t.name = some t)
    (haccepts : t.Accepts r.config.verify label bytes u) (hcurrent : t.isCurrent bytes = true)
    (hfree : CollisionFree (r.replace (t.reloadSame label bytes u))) :
    (r.replace (t.reloadSame label bytes u)).Hosted := by
  rw [hr.verifies] at haccepts
  have ht := mem_of_find? hfound
  have hwell := hr.types t ht
  have hid : (t.reloadSame label bytes u).id = t.id := rfl
  have hmem {q : LiveType} := hr.mem_replace (q := q) ht hid
  have hlast : (t.reloadSame label bytes u).current =
      t.nextVersion label bytes u t.current.executorBytes := LiveType.current_publish rfl
  have hunit : u = t.current.unit :=
    (hwell.eq_current haccepts hcurrent (hfree.not_collides (hmem.mpr (.inl rfl)))).2
  intro id s hs
  obtain ⟨q, hq, hhost⟩ := hhosted id s hs
  by_cases hqt : q.id = t.id
  · obtain rfl := hr.eq_of_id hq ht hqt
    refine ⟨_, hmem.mpr (.inl rfl), hhost.id_eq, hhost.name_eq, ?_, ?_, ?_⟩ <;>
      rw [hlast, show (q.nextVersion label bytes u q.current.executorBytes).unit = q.current.unit
        from hunit]
    · exact hhost.isClosureHost
    · exact hhost.capturesThis_eq
    · exact hhost.captures
  · exact ⟨q, hmem.mpr (.inr ⟨hq, hqt⟩), hhost⟩

/-- The sites between the bindings of a new version and the binding of those that it hosts. -/
lemma hosted_of_bindAll (hr : r.WellFormed) (hhosted : r.Hosted) {label : String}
    {bytes : List UInt8} {u : TypeUnit} {redirected : RedirectedVersion} (ht : t ∈ r.types)
    (haccepts : t.Accepts true label bytes u)
    (hredirect : u.redirect ⟨t.id, t.versions.length, t.layout, t.loadedMethods, r⟩ true =
      .ok redirected)
    (hfit : r.checkSites t u redirected.bindings = .ok ()) {id : SiteId} {s : CaptureSite}
    (hs : (bindAll r.sites redirected.bindings).find? id = some s) :
    (s.host = t.name → s.hostId = t.id ∧ u.isClosureHost = true ∧
        s.capturesThis = u.hostShape.capturesThis) ∧
      (s.host ≠ t.name → ∃ q ∈ r.types, q.id ≠ t.id ∧ s.HostedBy q) := by
  have hwell := hr.types t ht
  have hu := TypeUnit.verified_of_admit haccepts.admitted
  have hname := haccepts.name_eq hwell
  obtain ⟨hasked, hnodup⟩ := TypeUnit.bindings_of_redirect hu hredirect
  obtain ⟨hchecked, hhost⟩ := checkSites_eq_ok hfit
  have hother {q : LiveType} (hq : q ∈ r.types) (hne : q.name ≠ t.name) : q.id ≠ t.id :=
    fun heq => hne (by rw [hr.eq_of_id hq ht heq])
  rcases @fits_bindAll _ _ id hchecked (same_of_nodup hnodup) with
    ⟨-, hold⟩ | ⟨b, hb, -, s', hs', hfits⟩
  · rw [hold] at hs
    obtain ⟨q, hq, hby⟩ := hhosted id s hs
    refine ⟨fun hsite => ?_, fun hsite => ⟨q, hq, hother hq (hby.name_eq ▸ hsite), hby⟩⟩
    obtain rfl := hr.eq_of_name hq ht (hby.name_eq.trans hsite)
    have hclosure : u.isClosureHost = true := by
      rw [(History.check_eq_ok.mp haccepts.checked).2.2.1,
        ← (History.check_eq_ok.mp hwell.checked).2.2.1, hby.isClosureHost]
    exact ⟨hby.id_eq.symm, hclosure, hhost hclosure id s hs hsite⟩
  · obtain rfl := Option.some.inj (hs.symm.trans hs')
    rcases (hasked b hb).host with ⟨hbname, hclosure, hid, -, hshape⟩ | ⟨hne, q, hfind, hid, hshape⟩
    · have hsite : s.host = t.name := by rw [hfits.host_eq, hbname, hname]
      refine ⟨fun _ => ⟨by rw [hfits.hostId_eq, hid], hclosure, ?_⟩, fun h => absurd hsite h⟩
      rw [hfits.capturesThis_eq, hshape]
    · obtain ⟨hq, hby⟩ := hostedBy_of_registered hfits hfind hid hshape
      have hsite : s.host ≠ t.name := by rw [hfits.host_eq, ← hname]; exact hne
      exact ⟨fun h => absurd h hsite, fun _ => ⟨q, hq, hother hq (hby.name_eq ▸ hsite), hby⟩⟩

lemma hosted_of_renewed (hr : r.WellFormed) (hhosted : r.Hosted) {label : String}
    {bytes : List UInt8} {u : TypeUnit} {redirected : RedirectedVersion}
    (hfound : r.find? t.name = some t) (haccepts : t.Accepts r.config.verify label bytes u)
    (hredirect : u.redirect ⟨t.id, t.versions.length, t.layout, t.loadedMethods, r⟩
      r.config.verify = .ok redirected)
    (hfit : r.checkSites t u redirected.bindings = .ok ()) :
    (replace { r with sites := r.bindSites t u redirected.bindings }
      (t.reloadNew label bytes u redirected)).Hosted := by
  rw [hr.verifies] at haccepts hredirect
  have ht := mem_of_find? hfound
  have hbound {id : SiteId} {s : CaptureSite} :=
    @hosted_of_bindAll r t hr hhosted label bytes u redirected ht haccepts hredirect hfit id s
  have hid : (t.reloadNew label bytes u redirected).id = t.id := rfl
  have hmem {q : LiveType} := hr.mem_replace (q := q) ht hid
  have hlast : (t.reloadNew label bytes u redirected).current.unit = u :=
    congrArg Version.unit (LiveType.current_publish (t := t) rfl)
  have hstays {s : CaptureSite} (h : ∃ q ∈ r.types, q.id ≠ t.id ∧ s.HostedBy q) :
      ∃ q ∈ (replace { r with sites := r.bindSites t u redirected.bindings }
        (t.reloadNew label bytes u redirected)).types, s.HostedBy q := by
    obtain ⟨q, hq, hne, hby⟩ := h
    exact ⟨q, hmem.mpr (.inr ⟨hq, hne⟩), hby⟩
  intro id s hs
  change (r.bindSites t u redirected.bindings).find? id = some s at hs
  by_cases hsite : s.host = t.name
  · have hu := TypeUnit.verified_of_admit haccepts.admitted
    have hname := haccepts.name_eq (hr.types t ht)
    obtain ⟨hasked, hnodup⟩ := TypeUnit.bindings_of_redirect hu hredirect
    have hclosure : u.isClosureHost = true := by
      by_contra hclosure
      rw [bindSites, if_neg hclosure] at hs
      exact hclosure ((hbound hs).1 hsite).2.1
    have hfits := fits_bindSites_of_host hname hasked hnodup hfit hclosure hs hsite
    refine ⟨_, hmem.mpr (.inl rfl), hfits.hostedBy rfl rfl ?_ ?_⟩ <;> rw [hlast]
    · exact hclosure
    · rfl
  · rw [find?_bindSites_of_other] at hs
    · exact hstays ((hbound hs).2 hsite)
    · intro s₁ hs₁ hhost
      obtain ⟨s₂, hs₂, -, hsame⟩ := @exists_bindSites_of_bindAll r t u _ id s₁ hs₁
      obtain rfl := Option.some.inj (hs.symm.trans hs₂)
      exact hsite (hsame.trans hhost)

/-- The positions of every site are what the current version of its host declares. -/
theorem Reachable.hosted (h : Reachable config r) (hverify : config.verify = true)
    (hfree : r.CollisionFree) : r.Hosted := by
  refine h.invariant (P := fun r => r.CollisionFree → r.Hosted)
    (fun _ id s hs => ?_) (fun {r r'} hreachable ih hchange hfree => ?_) hfree
  · simp [Registry.create] at hs
  · have hr := hreachable.wellFormed hverify
    have hhosted := ih (hfree.of_extends (hchange.extends hr))
    cases hchange with
    | registered _ hread hcreated hfit => exact hosted_of_registered hr hhosted hread hcreated hfit
    | repeated hfound haccepts hcurrent =>
      exact hosted_of_repeated hr hhosted hfound haccepts hcurrent hfree
    | renewed hfound haccepts _ hredirect hfit =>
      exact hosted_of_renewed hr hhosted hfound haccepts hredirect hfit

end Registry

end LiveTypes
