import LiveTypes.Proofs.Capture.Key
import LiveTypes.Proofs.Machine.Sound
import LiveTypes.Proofs.Registry.Bodies
import LiveTypes.Proofs.Version.Dispatcher

/-!
# The code of registries is sound

A verified body whose references are linked is sound. Redirecting links them: a slot is one of the
layout that the owner has, and the site of a closure is bound when the version is published. Later
operations take neither away, so all code of a registry that verifies units is sound
(`Reachable.soundCode`).
-/

namespace LiveTypes

/-! ### Verified bodies -/

section Verified

variable {r : Registry} {u : TypeUnit} {m : MethodDecl} {body : List Instruction} {typeId : TypeId}
  {typeName : String} {version : Nat}

/-- A verified body of linked instructions is sound. -/
lemma Executable.sound_of_verified (hm : m.Verified u.constants body)
    (hlinked : ∀ i ∈ body, i.Linked r (ExecutorTable.executable u typeId typeName version m)) :
    (ExecutorTable.executable u typeId typeName version m).Sound r := by
  obtain ⟨htiles, hread⟩ := Instruction.tiles_of_decodeAll hm.decoded
  obtain ⟨last, hlast, hterminator⟩ := hm.terminated
  have hstarts {offset : Nat} (h : ∃ i ∈ body, i.offset = offset) :
      (ExecutorTable.executable u typeId typeName version m).Starts offset :=
    ⟨body, hm.decoded, h⟩
  refine ⟨hm.arguments_le, hstarts ?_, ?_⟩
  · cases body with
    | nil => cases hlast
    | cons first rest => exact ⟨first, List.mem_cons_self, htiles.1⟩
  · rintro offset ⟨body', hdecoded, i, hi, rfl⟩
    obtain rfl : body = body' := Except.ok.inj (hm.decoded.symm.trans hdecoded)
    obtain ⟨hlt, hat⟩ := hread i hi
    refine ⟨i, ?_, ⟨hlinked i hi, htiles.fits i hi, ?_, (hm.each i hi).slot, (hm.each i hi).uses⟩, ?_⟩
    · rw [Listing.instruction?_eq]
      exact (if_pos hlt).trans (congrArg some hat)
    · intro target htarget
      obtain ⟨hle, hlt, hmem⟩ := (hm.each i hi).jump target htarget
      exact ⟨hle, (Listing.size_eq _).symm ▸ hlt, hstarts hmem⟩
    · intro hgoesOn
      rcases htiles.next_mem hi with hnext | hend
      · exact hstarts hnext
      · obtain rfl := Option.some.inj (hlast.symm.trans hend)
        rw [hterminator] at hgoesOn
        cases hgoesOn

lemma Executable.opcode_of_dispatcher {signature : UInt32} {argc : Nat} {returnsValue : Bool}
    (hcode : m.code = Dispatcher.body signature argc returnsValue) {i : Instruction}
    (hi : (ExecutorTable.executable u typeId typeName version m).Has i) :
    i.opcode = .loadLocal ∨ i.opcode = .dispatch ∨ i.opcode = .ret ∨ i.opcode = .retVoid := by
  obtain ⟨l, hdecoded, hmem⟩ := hi
  have hdecoded : Instruction.decodeAll m.code = .ok l := hdecoded
  rw [hcode, Dispatcher.decodeAll_body] at hdecoded
  obtain rfl := Except.ok.inj hdecoded
  exact Dispatcher.opcode_of_mem hmem

/-- A dispatcher refers to nothing that would have to be linked. -/
lemma Executable.sound_dispatcher (hu : u.Verified) (hm : m ∈ u.methods) {signature : UInt32}
    {argc : Nat} {returnsValue : Bool}
    (hcode : m.code = Dispatcher.body signature argc returnsValue) :
    (ExecutorTable.executable u typeId typeName version m).Sound r := by
  obtain ⟨body, hbody⟩ := hu.bodies m hm
  apply Executable.sound_of_verified hbody
  intro i hi
  have hop := @Executable.opcode_of_dispatcher u m typeId typeName version _ _ _ hcode _
    ⟨body, hbody.decoded, hi⟩
  refine ⟨⟨?_, ?_, ?_⟩, ?_, ?_⟩
  · rcases hop with hop | hop | hop | hop <;> simp [hop]
  · rcases hop with hop | hop | hop | hop <;> simp [hop]
  · rcases hop with hop | hop | hop | hop <;> simp [hop]
  · rcases hop with hop | hop | hop | hop <;> simp [hop]
  · rcases hop with hop | hop | hop | hop <;> simp [hop]

end Verified

/-! ### Redirected bodies -/

section Redirected

variable {cx : RedirectContext} {u : TypeUnit} {r : Registry} {redirected : RedirectedVersion}

/-- What redirecting an instruction gives is linked, over the constants that the redirected unit ends
with. -/
lemma Redirected.linked {m : MethodDecl} {ordinal : Nat} {i i' : Instruction} {s s' : RedirectState}
    {e : Executable} (h : Redirected cx u m ordinal i s i' s') (hid : e.typeId = cx.typeId)
    (hordinal : ordinal < UInt32.size)
    (hbefore : s.constants.strings.toList <+: e.constants.strings.toList)
    (hafter : s'.constants.strings.toList <+: e.constants.strings.toList)
    (hlayout : ∀ owner layout, cx.HasLayout u owner layout →
      ∃ t, r.find? owner = some t ∧ t.layout = layout)
    (hbound : ∀ b ∈ s'.bindings, ∃ site, r.sites.find? b.id = some site ∧
      site.capturesThis = b.shape.capturesThis) : i'.Linked r e := by
  cases h with
  | plain _ _ _ _ _ _ hplain hslot =>
    refine ⟨⟨hplain.1, hplain.2.1, hplain.2.2.1⟩, ?_, fun hop => absurd hop hplain.2.2.2⟩
    intro hop a b owner hoperands howner
    obtain ⟨ownerIndex, slot, owner', name, layout, hoperands', howner', hseen, hname⟩ := hslot hop
    obtain ⟨rfl, rfl⟩ : a = ownerIndex ∧ b = UInt32.ofNat slot := by
      simpa using hoperands.symm.trans hoperands'
    have howner' := ConstantPool.string?_mono hbefore howner'
    obtain rfl : owner' = owner := Option.some.inj (howner'.symm.trans howner)
    obtain ⟨t, ht, rfl⟩ := hlayout owner' layout hseen
    refine ⟨t, ht, Nat.lt_of_le_of_lt ?_ (Layout.lt_of_slot? hname)⟩
    rw [UInt32.toNat_ofNat']
    exact Nat.mod_le _ _
  | @site b hostIndex count flags _ _ hasked hid' hresult hconstants hbindings _ hencloses =>
    subst hresult
    refine ⟨by simp, by simp, ?_⟩
    intro _ a count' flags' key hoperands hkey
    rw [hconstants] at hafter
    rcases ConstantPool.string?_intern hafter with hfull | hstring
    · exact .inl hfull
    · right
      obtain ⟨rfl, -, rfl⟩ : _ = a ∧ count = count' ∧ flags = flags' := by simpa using hoperands
      obtain rfl : b.id.key = key := Option.some.inj (hstring.symm.trans hkey)
      have hlt : b.id.ordinal < UInt32.size := by rwa [hid']
      have hfound := SiteId.ofKey?_key hlt
      rw [hasked.declaring_eq] at hfound
      obtain ⟨site, hsite, hthis⟩ := hbound b (by simp [hbindings])
      exact ⟨b.id, site, hid ▸ hfound, hsite, hthis.trans hencloses.symm⟩

/-- The bodies that redirecting makes are sound in a registry that has the layouts that were seen and
the sites that were asked for. -/
lemma Executable.sound_of_redirect (hu : u.Bounded) (h : u.redirect cx true = .ok redirected)
    (hlayout : ∀ owner layout, cx.HasLayout u owner layout →
      ∃ t, r.find? owner = some t ∧ t.layout = layout)
    (hbound : ∀ b ∈ redirected.bindings, ∃ s, r.sites.find? b.id = some s ∧
      s.capturesThis = b.shape.capturesThis) {m' : MethodDecl}
    (hm : m' ∈ redirected.executor.methods) {typeName : String} {version : Nat} :
    (ExecutorTable.executable redirected.executor cx.typeId typeName version m').Sound r := by
  obtain ⟨methods, s, hmethods, hexecutor, hbindings, hverified⟩ := TypeUnit.redirect_eq_ok h
  obtain ⟨body, hbody⟩ := hverified.bodies m' hm
  apply Executable.sound_of_verified hbody
  rw [hexecutor] at hm
  obtain ⟨m, hmem, l, l', s₀, s₁, hdecoded, hall, hgrows, rfl⟩ := hmethods.of_mem hm
  -- the body decodes to the redirected instructions
  have htiles := (Instruction.tiles_of_decodeAll hdecoded).1
  have hdecoded' := hbody.decoded
  rw [Instruction.decodeAll_encodeAll (hall.tiles htiles)] at hdecoded'
  obtain rfl := Except.ok.inj hdecoded'
  intro i' hi
  obtain ⟨n, i, s₂, s₃, hn, hredirected, hbefore, hafter⟩ := hall.of_mem hi
  have hstrings {s₀ : RedirectState} (hgrows : s₀.Grows s) :
      s₀.constants.strings.toList <+: redirected.executor.constants.strings.toList := by
    rw [hexecutor]
    exact hgrows.constants
  have hordinal : n < UInt32.size := by
    have hlength := htiles.length_le
    have hcode := hu.code_length m hmem
    omega
  have hgrows₃ := hafter.trans hgrows
  refine hredirected.linked rfl hordinal (hstrings (hbefore.trans hgrows)) (hstrings hgrows₃) hlayout
    fun b hb => hbound b ?_
  rw [hbindings]
  exact hgrows₃.bindings.subset (Array.mem_toList_iff.mpr hb)

end Redirected

/-! ### Registries -/

section Registries

variable {r r' : Registry} {config : RegistryConfig}

/-- Sound code stays sound. -/
lemma Instruction.Linked.of_extends {e : Executable} {i : Instruction} (h : i.Linked r e)
    (hr' : r'.WellFormed) (hextends : r.Extends r') : i.Linked r' e where
  redirected := h.redirected
  layout hop a b owner hoperands howner := by
    obtain ⟨t, ht, hlt⟩ := h.layout hop a b owner hoperands howner
    obtain ⟨t', ht', hcontinues⟩ := hextends.find? hr' ht
    exact ⟨t', ht', by rwa [hcontinues.layout_eq]⟩
  site hop a count flags key hoperands hkey := by
    rcases h.site hop a count flags key hoperands hkey with hfull | ⟨id, s, hid, hs, hthis⟩
    · exact .inl hfull
    · obtain ⟨s', hs', hevolves⟩ := hextends.sites id s hs
      exact .inr ⟨id, s', hid, hs', hevolves.capturesThis_eq.trans hthis⟩

lemma Executable.Sound.of_extends {e : Executable} (h : e.Sound r) (hr' : r'.WellFormed)
    (hextends : r.Extends r') : e.Sound r' where
  arguments_le := h.arguments_le
  starts_zero := h.starts_zero
  each offset hoffset := by
    obtain ⟨i, hi, hsound, hnext⟩ := h.each offset hoffset
    exact ⟨i, hi, { hsound with toLinked := hsound.toLinked.of_extends hr' hextends }, hnext⟩

/-- The layouts that a version of a type sees are those that the types have from then on. -/
lemma RedirectContext.HasLayout.find? {cx : RedirectContext} {u : TypeUnit} {owner : String}
    {layout : Layout} (h : cx.HasLayout u owner layout) (hr' : r'.WellFormed)
    (hextends : cx.registry.Extends r') (hown : ∃ t, r'.find? u.name = some t ∧ t.layout = cx.layout) :
    ∃ t, r'.find? owner = some t ∧ t.layout = layout := by
  rcases h with ⟨rfl, rfl⟩ | ⟨-, t, ht, rfl⟩
  · exact hown
  · obtain ⟨t', ht', hcontinues⟩ := hextends.find? hr' ht
    exact ⟨t', ht', hcontinues.layout_eq⟩

lemma LiveType.verified_of_load {u loadedUnit : TypeUnit} {promoted : Bool}
    (hverify : config.verify = true) (h : LiveType.load config u = .ok (loadedUnit, promoted)) :
    loadedUnit.Verified ∧ ∀ m ∈ loadedUnit.methods, ∃ signature argc returnsValue,
      m.code = Dispatcher.body signature argc returnsValue := by
  simp only [load, hverify, ↓reduceIte, Outcome.bind_eq_ok, Outcome.mapError_eq_ok] at h
  obtain ⟨d, hd, _, hverified, h⟩ := h
  obtain ⟨rfl, -⟩ := Prod.mk.inj (Outcome.pure_eq_ok.mp h)
  refine ⟨TypeUnit.verified_of_verify hverified, ?_⟩
  have hcode := TypeUnit.code_of_dispatcher hd
  split
  · exact hcode
  · exact hcode

lemma TypeUnit.bounded_of_read {bytes : List UInt8} {u : TypeUnit}
    (h : TypeUnit.admit bytes true = .ok u) : u.Bounded :=
  TypeUnit.bounded_of_decode (TypeUnit.admit_eq_ok.mp h).1

/-- The bodies that a version publishes are sound in a registry that has the type, and the sites that
the version asked for. -/
lemma ExecutorTable.sound_ofUnit {cx : RedirectContext} {u : TypeUnit} {bytes : List UInt8}
    {redirected : RedirectedVersion} (hr' : r'.WellFormed) (hextends : cx.registry.Extends r')
    (hread : TypeUnit.admit bytes true = .ok u) (hredirect : u.redirect cx true = .ok redirected)
    (hown : ∃ t, r'.find? u.name = some t ∧ t.layout = cx.layout)
    (hbound : ∀ b ∈ redirected.bindings, ∃ s, r'.sites.find? b.id = some s ∧
      s.capturesThis = b.shape.capturesThis) {name label key : String} {version : Nat}
    {e : Executable}
    (he : (ExecutorTable.ofUnit redirected.executor cx.typeId name version label).find? key =
      some e) : e.Sound r' := by
  obtain ⟨m, hm, -, rfl⟩ := ExecutorTable.mem_of_find?_ofUnit he
  exact Executable.sound_of_redirect (TypeUnit.bounded_of_read hread) hredirect
    (fun owner layout hlayout => hlayout.find? hr' hextends hown) hbound hm

/-- The code of a type that is registered is sound. -/
lemma Registry.sound_of_created {u : TypeUnit} {bytes : List UInt8} {t : LiveType}
    {redirected : RedirectedVersion} (hr : r.WellFormed) (hcreated : t.Created r u bytes redirected)
    (hread : TypeUnit.admit bytes r.config.verify = .ok u)
    (hfit : ∀ b ∈ redirected.bindings, r.sites.check b = .ok ())
    (hr' : r'.WellFormed) (hextends : r.Extends r') (ht : t ∈ r'.types)
    (hsites : r'.sites = bindAll r.sites redirected.bindings) {key : String} {e : Executable}
    (he : t.table.find? key = some e ∨ t.dispatchers.find? key = some e) : e.Sound r' := by
  have hredirect := hcreated.redirect_eq
  rw [hr.verifies] at hread hredirect
  rcases he with he | he
  · rw [hcreated.table_eq, hcreated.id_eq] at he
    have hnodup := (TypeUnit.bindings_of_redirect (TypeUnit.verified_of_admit hread) hredirect).2
    refine ExecutorTable.sound_ofUnit hr' hextends hread hredirect
      ⟨t, hr'.find?_eq_some.mpr ⟨ht, hcreated.name_eq⟩, hcreated.layout_eq⟩ (fun b hb => ?_) he
    obtain ⟨s, hs, hfits⟩ := fits_of_mem hfit hnodup hb
    exact ⟨s, hsites ▸ hs, hfits.capturesThis_eq⟩
  · rw [hcreated.dispatchers_eq] at he
    obtain ⟨m, hm, -, rfl⟩ := ExecutorTable.mem_of_find?_ofUnit he
    obtain ⟨hverified, hcode⟩ := LiveType.verified_of_load hr.verifies hcreated.load_eq
    obtain ⟨signature, argc, returnsValue, hbody⟩ := hcode m hm
    exact Executable.sound_dispatcher hverified hm hbody

/-- The code that a new version of a type publishes is sound. -/
lemma Registry.sound_of_renewed {u : TypeUnit} {bytes : List UInt8} {t : LiveType} {label : String}
    {redirected : RedirectedVersion} (hr : r.WellFormed) (ht : t ∈ r.types)
    (haccepts : t.Accepts true label bytes u)
    (hredirect : u.redirect ⟨t.id, t.versions.length, t.layout, t.loadedMethods, r⟩ true =
      .ok redirected)
    (hfit : r.checkSites t u redirected.bindings = .ok ()) (hr' : r'.WellFormed)
    (hextends : r.Extends r') (ht' : t.reloadNew label bytes u redirected ∈ r'.types)
    (hsites : r'.sites = r.bindSites t u redirected.bindings) {key : String} {e : Executable}
    (he : (t.reloadNew label bytes u redirected).table.find? key = some e) : e.Sound r' := by
  have hread := haccepts.admitted
  have hnodup := (TypeUnit.bindings_of_redirect (TypeUnit.verified_of_admit hread) hredirect).2
  have hname := (haccepts.name_eq (hr.types t ht)).symm
  refine ExecutorTable.sound_ofUnit hr' hextends hread hredirect
    ⟨_, hr'.find?_eq_some.mpr ⟨ht', hname⟩, rfl⟩ (fun b hb => ?_) he
  obtain ⟨s, hs, -, hthis⟩ :=
    exists_bindSites (t := t) (u := u) (check_of_checkSites hfit) hnodup hb
  exact ⟨s, hsites ▸ hs, hthis⟩

/-- An accepted operation keeps all code sound, that of the new version included. -/
lemma Registry.SoundCode.change (h : r.SoundCode) (hr : r.WellFormed) (hchange : Change r r') :
    r'.SoundCode := by
  have hr' := hr.change hchange
  have hextends := hchange.extends hr
  have hold {e : Executable} (he : r.HasBody e) : e.Sound r' := (h e he).of_extends hr' hextends
  cases hchange with
  | @registered u bytes t redirected hfresh hread hcreated hfit =>
    rintro e ⟨q, hq, key, he⟩
    rcases List.mem_append.mp hq with hq₀ | hq₀
    · exact hold ⟨q, hq₀, key, he⟩
    · obtain rfl := List.mem_singleton.mp hq₀
      exact sound_of_created hr hcreated hread hfit hr' hextends hq rfl he
  | @repeated t label bytes u hfound haccepts hcurrent =>
    have ht := mem_of_find? hfound
    rintro e ⟨q, hq, key, he⟩
    have hid : (t.reloadSame label bytes u).id = t.id := rfl
    rcases (hr.mem_replace ht hid).mp hq with rfl | ⟨hq, -⟩
    · exact hold ⟨t, ht, key, he⟩
    · exact hold ⟨q, hq, key, he⟩
  | @renewed t label bytes u redirected hfound haccepts hother hredirect hfit =>
    rw [hr.verifies] at haccepts hredirect
    have ht := mem_of_find? hfound
    rintro e ⟨q, hq, key, he⟩
    have hid : (t.reloadNew label bytes u redirected).id = t.id := rfl
    rcases (hr.mem_replace ht hid).mp hq with rfl | ⟨hq, -⟩
    · rcases he with he | he
      · exact sound_of_renewed hr ht haccepts hredirect hfit hr' hextends hq rfl he
      · exact hold ⟨t, ht, key, .inr he⟩
    · exact hold ⟨q, hq, key, he⟩

/-- All code of a registry that verifies units is sound. -/
theorem Registry.Reachable.soundCode (h : Reachable config r) (hverify : config.verify = true) :
    r.SoundCode := by
  refine h.invariant (P := fun r => r.SoundCode) ?_ fun hbefore hcode hchange => ?_
  · rintro e ⟨t, ht, -⟩
    cases ht
  · exact hcode.change (hbefore.wellFormed hverify) hchange

/-- A dispatcher loads its arguments, calls and returns, and does nothing else. -/
lemma Registry.Reachable.opcode_of_dispatcher (h : Reachable config r)
    (hverify : config.verify = true) {t : LiveType} (ht : t ∈ r.types) {key : String}
    {d : Executable} (hd : t.dispatchers.find? key = some d) {i : Instruction} (hi : d.Has i) :
    i.opcode = .loadLocal ∨ i.opcode = .dispatch ∨ i.opcode = .ret ∨ i.opcode = .retVoid := by
  have hloaded := h.loaded t ht
  rw [hloaded.dispatchers_eq] at hd
  obtain ⟨m, hm, -, rfl⟩ := ExecutorTable.mem_of_find?_ofUnit hd
  obtain ⟨-, hcode⟩ := LiveType.verified_of_load hverify hloaded.load_eq
  obtain ⟨signature, argc, returnsValue, hbody⟩ := hcode m hm
  exact Executable.opcode_of_dispatcher hbody hi

end Registries

end LiveTypes
