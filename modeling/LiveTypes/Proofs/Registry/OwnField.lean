import LiveTypes.Proofs.Machine.Dispatch
import LiveTypes.Proofs.Redirection.OwnField
import LiveTypes.Proofs.Registry.Coherent

/-!
# Own fields of published bodies

A body that a type publishes has, where its version accesses a field of the type, an instruction that
reaches the field (`Reachable.reaches_own`). A captured variable is reached through a map of the site,
and each map gives the positions the types that the host version it was made for declares
(`Reachable.maps_declared`).
-/

namespace LiveTypes

namespace LiveType

variable {t : LiveType}

/-- A version has as many fields as there may be in bytes. -/
lemma WellFormed.fields_length (ht : t.WellFormed) {v : Version} (hv : v ∈ t.versions) :
    v.unit.fields.length < UInt32.size :=
  (TypeUnit.bounded_of_decode (TypeUnit.admit_eq_ok.mp (ht.genuine v hv).admitted).1).fields_length

/-- What a published body reaches a field of its own type with. -/
structure ReachesOwn (t : LiveType) (u : TypeUnit) (e : Executable) (write : Bool) (offset : Nat)
    (f : FieldDecl) (i : Instruction) : Prop where
  fetched : Machine.fetch e offset = .ok i
  reached : f.ReachedBy t.layout u e.constants offset write i
  name_eq : u.name = t.name
  typeId_eq : e.typeId = t.id
  type_eq : t.fieldType? f.name = some f.type

end LiveType

namespace Registry

variable {r : Registry} {config : RegistryConfig} {t : LiveType}

/-- Where the version of a published body accesses a field of the type, the body reaches the field. -/
theorem Reachable.reaches_own (h : Reachable config r) (hverify : config.verify = true)
    (ht : t ∈ r.types) {e : Executable} (he : t.table.find? e.key = some e) {v : Version}
    (hv : v ∈ t.versions) (hversion : v.index = e.version) {write : Bool} {offset : Nat}
    {f : FieldDecl} (haccess : v.unit.Accesses write e.key offset f) :
    ∃ i, t.ReachesOwn v.unit e write offset f i := by
  have hwell := (h.wellFormed hverify).types t ht
  obtain ⟨v', cx, redirected, hpublishes, hknows, hlayout⟩ := h.publishes_laid hverify t ht
  obtain ⟨m, hm, hkey, hbody⟩ := hpublishes.mem_of_find? he
  have hindex : v'.index = e.version := by rw [hbody]; rfl
  obtain rfl := hwell.eq_of_index hpublishes.mem hv (hindex.trans hversion.symm)
  have hu := (hwell.genuine v' hv).verified
  obtain ⟨m', hm', hkey', i, hi, rfl, hreached⟩ :=
    TypeUnit.reached_of_redirect hu (hwell.fields_length hv) hpublishes.redirect_eq haccess
  -- the executor has one method for the key
  obtain ⟨_, _, -, -, -, hexecutor⟩ := TypeUnit.redirect_eq_ok hpublishes.redirect_eq
  obtain rfl := List.inj_on_of_nodup_map hexecutor.methods_nodup hm' hm (hkey'.trans hkey.symm)
  refine ⟨i, Machine.fetch_of_has ?_, ?_, hwell.named v' hv, ?_, ?_⟩
  · rw [hbody]
    unfold MethodDecl.instructions at hi
    split at hi
    · next l hl => exact ⟨l, hl, hi⟩
    · cases hi
  · rw [← hlayout, hbody]
    exact hreached
  · rw [hbody]
    rfl
  · exact hknows.field f (List.mem_of_find?_eq_some haccess.field_eq)

/-! ### Maps of sites -/

/-- Whether a map of a site gives each position the type that the host version it was made for
declares. -/
def Maps (r : Registry) (s : CaptureSite) (m : HostMapping) : Prop :=
  ∃ b, r.Declares b ∧ b.hostId = m.hostId ∧ b.hostVersion = m.hostVersion ∧
    ∀ p, s.typeUnder? m p = b.shape.captured[p]?

/-- Every map of a site gives the positions the types that its host version declares. -/
theorem Reachable.maps_declared (h : Reachable config r) (hverify : config.verify = true) :
    ∀ id s, r.sites.find? id = some s → s.Tidy ∧ ∀ m ∈ s.mappings, r.Maps s m := by
  refine h.invariant (P := fun r => ∀ id s, r.sites.find? id = some s →
      s.Tidy ∧ ∀ m ∈ s.mappings, r.Maps s m) (by simp [Registry.create])
    fun {r r'} hreachable ih hchange => ?_
  have hr := hreachable.wellFormed hverify
  have hextends := hchange.extends hr
  refine hchange.sites_induction hr (fun id s hs => ?_) (fun b hb => ?_) fun b hb s s' hs hb' => ?_
  · obtain ⟨htidy, hmaps⟩ := ih id s hs
    refine ⟨htidy, fun m hm => ?_⟩
    obtain ⟨b, hb, hrest⟩ := hmaps m hm
    exact ⟨b, hb.extends hextends, hrest⟩
  · refine ⟨CaptureSite.tidy_create b, fun m hm => ?_⟩
    obtain rfl := List.mem_singleton.mp hm
    exact ⟨b, hb, rfl, rfl, (CaptureSite.captures_create b).typeAt?_eq⟩
  · obtain ⟨htidy, hmaps⟩ := hs
    refine ⟨hb'.tidy htidy, fun m hm => ?_⟩
    rcases hb'.mem_mappings hm with hm | rfl
    · obtain ⟨b₀, hb₀, hid, hversion, htypes⟩ := hmaps m hm
      exact ⟨b₀, hb₀, hid, hversion, fun p => (hb'.typeUnder?_of htidy hm p).trans (htypes p)⟩
    · exact ⟨b, hb, rfl, rfl, hb'.captures.typeAt?_eq⟩

/-- A map for a version of a type gives the captured fields of the version their types. -/
lemma Maps.typeUnder?_eq (hr : r.WellFormed) (ht : t ∈ r.types) {v : Version} (hv : v ∈ t.versions)
    {s : CaptureSite} {m : HostMapping} (h : r.Maps s m) (hid : m.hostId = t.id)
    (hversion : m.hostVersion = v.index) (p : Nat) :
    s.typeUnder? m p = (v.unit.capturedFields[p]?).map FieldDecl.type := by
  obtain ⟨b, ⟨t', ht', hid', v', hv', hversion', hshape⟩, hbid, hbversion, htypes⟩ := h
  obtain rfl := hr.eq_of_id ht' ht (hid'.trans (hbid.trans hid))
  obtain rfl := (hr.types t' ht').eq_of_index hv' hv
    (hversion'.trans (hbversion.trans hversion))
  rw [htypes, ← hshape, TypeUnit.hostShape, List.getElem?_map]

/-- Whether a site serves code of a version of a type: it has a map for just this version, or the type
is its host now and the version the current one. -/
def Serves (r : Registry) (site : CaptureSite) (t : LiveType) (version : Nat) : Prop :=
  (∃ m, site.mappingAt? t.id version = some m ∧ m.hostVersion = version) ∨
    r.CollisionFree ∧ site.hostId = t.id ∧ version = t.table.version

/-- A site matches the type that hosts it. -/
lemma Reachable.matches_host (h : Reachable config r) (hverify : config.verify = true)
    (hfree : r.CollisionFree) (ht : t ∈ r.types) {id : SiteId} {site : CaptureSite}
    (hsite : r.sites.find? id = some site) (hhost : site.hostId = t.id) : site.Matches t := by
  obtain ⟨t', ht', hmatches⟩ := (h.coherent hverify hfree).hosted id site hsite
  rw [hhost, (h.wellFormed hverify).byId?_id ht] at ht'
  exact Option.some.inj ht' ▸ hmatches

/-- The slot that a site has for the position of a captured field is of the type of the field, if the
site serves the code. -/
theorem Reachable.slotType?_of_serves (h : Reachable config r) (hverify : config.verify = true)
    (ht : t ∈ r.types) {v : Version} (hv : v ∈ t.versions) {id : SiteId} {site : CaptureSite}
    (hsite : r.sites.find? id = some site) {p k : Nat} {f : FieldDecl}
    (hplace : v.unit.capturedFields[p]? = some f) (hserves : r.Serves site t v.index)
    (hslot : site.slotAt? t.id v.index p = some k) : site.slotType? k = some f.type := by
  have hr := h.wellFormed hverify
  rcases hserves with ⟨m, hm, hversion⟩ | ⟨hfree, hhost, hcurrent⟩
  · -- the map was made for the version
    obtain ⟨⟨hid, -⟩, earlier, later, hmappings, -⟩ := CaptureSite.mappingAt?_eq_some.mp hm
    have hmem : m ∈ site.mappings := hmappings ▸ List.mem_append_right _ List.mem_cons_self
    have hmaps := (h.maps_declared hverify id site hsite).2 m hmem
    have htype := hmaps.typeUnder?_eq hr ht hv hid hversion p
    rw [CaptureSite.slotAt?, hm] at hslot
    rw [hplace, CaptureSite.typeUnder?, show m.positions[p]? = some k from hslot] at htype
    exact htype
  · -- the site has the shape of the current version
    obtain rfl := (hr.types t ht).eq_current_of_index hv hcurrent
    have hmatches := h.matches_host hverify hfree ht hsite hhost
    obtain ⟨k', hk', htype⟩ := hmatches.type_eq p f hplace
    have hslot' := hmatches.slotAt?_eq p
    rw [hhost, hslot, CaptureSite.slotFor?, hk'] at hslot'
    rw [Option.some.inj hslot', htype]

end Registry

end LiveTypes
