import LiveTypes.Proofs.Redirection.References
import LiveTypes.Proofs.Registry.Coherent

/-!
# References stay resolved

Redirecting resolves references once, in a registry that keeps changing. What it saw is there when the
version is published, and from then on for good: names, fields and hosts are never taken away, and
neither are the sites of closures (`Reachable.keeps_references`). Every body that a type publishes was
redirected on the way to the registry (`Reachable.rewritten`).
-/

namespace LiveTypes

/-- Whether a registry has what is referred to. -/
def Reference.Resolves (r : Registry) : Reference → Prop
  | .type name => ∃ t, r.find? name = some t
  | .field owner name => ∃ t type, r.find? owner = some t ∧ t.fieldType? name = some type
  | .host name => ∃ t, r.find? name = some t ∧ t.isClosureHost = true

lemma Reference.Resolves.of_extends {r r' : Registry} {ref : Reference} (h : ref.Resolves r)
    (hr' : r'.WellFormed) (hextends : r.Extends r') : ref.Resolves r' := by
  cases ref with
  | type name =>
    obtain ⟨t, ht⟩ := h
    obtain ⟨t', ht', -⟩ := hextends.find? hr' ht
    exact ⟨t', ht'⟩
  | field owner name =>
    obtain ⟨t, type, ht, htype⟩ := h
    obtain ⟨t', ht', hcontinues⟩ := hextends.find? hr' ht
    exact ⟨t', type, ht', hcontinues.fieldType?_of name type htype⟩
  | host name =>
    obtain ⟨t, ht, hhost⟩ := h
    obtain ⟨t', ht', hcontinues⟩ := hextends.find? hr' ht
    refine ⟨t', ht', ?_⟩
    rwa [LiveType.isClosureHost, hcontinues.loadedUnit_eq]

namespace Registry

variable {r r' : Registry} {u : TypeUnit} {cx : RedirectContext} {redirected : RedirectedVersion}
  {config : RegistryConfig}

/-- The rewriting of a unit that an accepted operation made: the unit that it read, and how it was
redirected in the registry as it was. The current version given once more is not rewritten. -/
inductive Rewrites (r r' : Registry) : TypeUnit → RedirectContext → RedirectedVersion → Prop
  | registered {name : String} {bytes : List UInt8} {t : LiveType} {u : TypeUnit}
      {redirected : RedirectedVersion} (ok : r.register name bytes = .ok (t, r'))
      (admitted : TypeUnit.admit bytes true = .ok u)
      (redirect_eq : u.redirect (.ofBaseline r.size 0 u r) true = .ok redirected) :
      Rewrites r r' u (.ofBaseline r.size 0 u r) redirected
  | renewed {name label : String} {bytes : List UInt8} {t : LiveType} {u : TypeUnit}
      {redirected : RedirectedVersion} (ok : r.reload name label bytes = .ok r')
      (found : r.find? name = some t) (admitted : TypeUnit.admit bytes true = .ok u)
      (other : t.isCurrent bytes = false)
      (redirect_eq : u.redirect ⟨t.id, t.versions.length, t.layout, t.loadedMethods, r⟩ true =
        .ok redirected) :
      Rewrites r r' u ⟨t.id, t.versions.length, t.layout, t.loadedMethods, r⟩ redirected

namespace Rewrites

lemma step (h : r.Rewrites r' u cx redirected) : Step r r' := by
  cases h with
  | registered ok => exact .register ok
  | renewed ok => exact .reload ok

lemma redirect_eq (h : r.Rewrites r' u cx redirected) : u.redirect cx true = .ok redirected := by
  cases h with
  | registered _ _ hredirect => exact hredirect
  | renewed _ _ _ _ hredirect => exact hredirect

lemma registry_eq (h : r.Rewrites r' u cx redirected) : cx.registry = r := by
  cases h <;> rfl

/-- A rewriting is published: the type has the rewritten bodies then, and its history knows the
unit. -/
lemma published (h : r.Rewrites r' u cx redirected) (hr : r.WellFormed) :
    ∃ t label, r'.find? u.name = some t ∧ t.id = cx.typeId ∧ t.history.Knows u ∧
      t.table = .ofUnit redirected.executor cx.typeId u.name cx.version label ∧
      ∀ b ∈ redirected.bindings, ∃ s, r'.sites.find? b.id = some s := by
  have hr' := hr.change h.step.change
  cases h with
  | @registered name bytes t u redirected ok hread hredirect =>
    obtain ⟨u', redirected', rfl, -, hread', hcreated, hfit, rfl⟩ := register_cases ok
    rw [hr.verifies] at hread'
    obtain rfl := Except.ok.inj (hread.symm.trans hread')
    have hredirect' := hcreated.redirect_eq
    rw [hr.verifies] at hredirect'
    obtain rfl := Except.ok.inj (hredirect.symm.trans hredirect')
    have hu := TypeUnit.verified_of_admit hread
    refine ⟨t, LiveType.initialLabel, hr'.find?_eq_some.mpr ⟨?_, hcreated.name_eq⟩, hcreated.id_eq,
      ?_, ?_, fun b hb => ?_⟩
    · exact List.mem_append_right _ List.mem_cons_self
    · rw [hcreated.history_eq]
      exact History.knows_ofInitial hu.fields_nodup hu.methods_nodup
    · rw [hcreated.table_eq, hcreated.id_eq, hcreated.name_eq]
      rfl
    · obtain ⟨s, hs, -⟩ :=
        fits_of_mem hfit (TypeUnit.bindings_of_redirect hu hredirect).2 hb
      exact ⟨s, hs⟩
  | @renewed name label bytes t u redirected ok hfind hread hother hredirect =>
    obtain ⟨t', u', hfind', haccepts, ⟨hcurrent, -⟩ | ⟨-, redirected', hredirect', hfit, rfl⟩⟩ :=
      reload_cases ok
    all_goals obtain rfl := Option.some.inj (hfind.symm.trans hfind')
    · rw [hother] at hcurrent
      cases hcurrent
    · rw [hr.verifies] at haccepts hredirect'
      obtain rfl := Except.ok.inj (hread.symm.trans haccepts.admitted)
      obtain rfl := Except.ok.inj (hredirect.symm.trans hredirect')
      have hu := TypeUnit.verified_of_admit hread
      have ht := mem_of_find? hfind
      have hname := haccepts.name_eq (hr.types t ht)
      have hid : (t.reloadNew label bytes u redirected).id = t.id := rfl
      refine ⟨t.reloadNew label bytes u redirected, label, hr'.find?_eq_some.mpr
        ⟨(hr.mem_replace ht hid).mpr (.inl rfl), hname.symm⟩, rfl, ?_, ?_, fun b hb => ?_⟩
      · exact History.knows_record haccepts.checked hu.fields_nodup hu.methods_nodup
      · rw [hname]
        rfl
      · obtain ⟨s, hs, -⟩ := exists_bindSites (t := t) (u := u) (check_of_checkSites hfit)
          (TypeUnit.bindings_of_redirect hu hredirect).2 hb
        exact ⟨s, hs⟩

end Rewrites

/-- What redirecting saw is there once the version is published. -/
lemma Rewrites.resolves_of_seen (hreachable : Reachable config r) (hverify : config.verify = true)
    (h : r.Rewrites r' u cx redirected) {ref : Reference} (href : ref.Seen cx u) :
    ref.Resolves r' := by
  have hr := hreachable.wellFormed hverify
  have hchange := h.step.change
  have hr' := hr.change hchange
  have hkeep (ref : Reference) (hresolves : ref.Resolves r) : ref.Resolves r' :=
    hresolves.of_extends hr' (hchange.extends hr)
  obtain ⟨t, label, hfind, -, hknows, -⟩ := h.published hr
  have hregistry := h.registry_eq
  cases ref with
  | type name =>
    rcases href with rfl | ⟨q, hq⟩
    · exact ⟨t, hfind⟩
    · exact hkeep (.type name) ⟨q, hregistry ▸ hq⟩
  | field owner name =>
    rcases href with ⟨rfl, f, hf, rfl⟩ | ⟨q, hq, hfield⟩
    · exact ⟨t, f.type, hfind, hknows.field f hf⟩
    · rw [hregistry] at hq
      have hfield : ∃ type, q.fieldType? name = some type := by
        rcases hfield with ⟨k, hk⟩ | htype
        · obtain ⟨type, htype, -⟩ := (hr.types q (mem_of_find? hq)).fieldType?_of_slot? hk
          exact ⟨type, htype⟩
        · exact htype
      obtain ⟨type, htype⟩ := hfield
      exact hkeep (.field owner name) ⟨q, type, hq, htype⟩
  | host name =>
    rcases href with ⟨rfl, hhost⟩ | ⟨q, version, shape, hq, hshape⟩
    · have hreachable' : Reachable config r' := hreachable.tail h.step
      have hloaded := hreachable'.loaded t (mem_of_find? hfind)
      refine ⟨t, hfind, ?_⟩
      rw [hloaded.isClosureHost_eq, (hr'.types t (mem_of_find? hfind)).initial_known.closureHost_eq,
        ← hknows.closureHost_eq, hhost]
    · rw [hregistry] at hq
      have hmem := mem_of_find? hq
      refine hkeep (.host name) ⟨q, hq, ?_⟩
      rw [(hr.types q hmem).isClosureHost_current (hreachable.loaded q hmem)]
      exact (LiveType.of_currentShape? hshape).1

/-- The host of every site is registered. -/
lemma Reachable.host_registered (h : Reachable config r) (hverify : config.verify = true)
    {id : SiteId} {s : CaptureSite} (hs : r.sites.find? id = some s) :
    ∃ t, r.byId? s.hostId = some t := by
  obtain ⟨htidy, hversions⟩ := h.tidy hverify id s hs
  obtain ⟨earlier, version, hlast⟩ := htidy.last
  obtain ⟨t, ht, hid, -⟩ := hversions ⟨s.hostId, version, s.positions⟩ (by rw [hlast]; simp)
  exact ⟨t, (h.wellFormed hverify).byId?_eq_some.mpr ⟨ht, hid⟩⟩

/-- What a rewriting finds: whatever its unit and the rewritten bodies refer to is late-bound or
resolves, and the sites of its closures are bound to registered hosts. -/
structure KeepsReferences (r : Registry) (u : TypeUnit) (redirected : RedirectedVersion)
    (r' : Registry) : Prop where
  references : ∀ ref, u.RefersTo ref ∨ redirected.executor.RefersTo ref →
    ref.LateBound r u ∨ ref.Resolves r'
  sites : ∀ b ∈ redirected.bindings, ∃ s t, r'.sites.find? b.id = some s ∧
    r'.byId? s.hostId = some t

/-- What redirecting a unit accepted stays resolved in every later registry, unless it was left to be
resolved when it is used. -/
theorem Reachable.keeps_references (h : Reachable config r) (hverify : config.verify = true)
    {r₁ : Registry} (hrewrites : r.Rewrites r₁ u cx redirected) (hleads : Leads r₁ r') :
    r.KeepsReferences u redirected r' := by
  have hreachable₁ : Reachable config r₁ := h.tail hrewrites.step
  have hreachable : Reachable config r' := hreachable₁.trans hleads
  obtain ⟨hr', hextends⟩ := hleads.extends (hreachable₁.wellFormed hverify)
  refine ⟨fun ref href => ?_, fun b hb => ?_⟩
  · rcases TypeUnit.admitted_of_redirect hrewrites.redirect_eq href with hseen | hlate
    · exact .inr ((hrewrites.resolves_of_seen h hverify hseen).of_extends hr' hextends)
    · exact .inl (hrewrites.registry_eq ▸ hlate)
  · obtain ⟨t, label, -, -, -, -, hsites⟩ := hrewrites.published (h.wellFormed hverify)
    obtain ⟨s, hs⟩ := hsites b hb
    obtain ⟨s', hs', -⟩ := hextends.sites b.id s hs
    obtain ⟨host, hhost⟩ := hreachable.host_registered hverify hs'
    exact ⟨s', host, hs', hhost⟩

/-- A body that an operation on the way to a registry made, when it rewrote a unit in an earlier
registry. -/
def Rewritten (config : RegistryConfig) (r : Registry) (e : Executable) (r₀ : Registry)
    (u : TypeUnit) : Prop :=
  ∃ r₁ cx redirected, Reachable config r₀ ∧ r₀.Rewrites r₁ u cx redirected ∧ Leads r₁ r ∧
    ∃ m ∈ redirected.executor.methods,
      e = ExecutorTable.executable redirected.executor cx.typeId u.name cx.version m

lemma Rewritten.tail {e : Executable} {r₀ : Registry} (h : Rewritten config r e r₀ u)
    (hstep : Step r r') : Rewritten config r' e r₀ u := by
  obtain ⟨r₁, cx, redirected, hreachable, hrewrites, hleads, hbody⟩ := h
  exact ⟨r₁, cx, redirected, hreachable, hrewrites, hleads.tail hstep, hbody⟩

lemma Rewritten.typeName_eq {e : Executable} {r₀ : Registry} (h : Rewritten config r e r₀ u) :
    e.typeName = u.name := by
  obtain ⟨-, -, -, -, -, -, m, -, rfl⟩ := h
  rfl

/-- A body that a rewriting has just made. -/
lemma Rewrites.rewritten {r₀ : Registry} (hreachable : Reachable config r₀)
    (h : r₀.Rewrites r u cx redirected) {label key : String} {e : Executable}
    (he : (ExecutorTable.ofUnit redirected.executor cx.typeId u.name cx.version label).find? key =
      some e) : Rewritten config r e r₀ u := by
  obtain ⟨m, hm, -, rfl⟩ := ExecutorTable.mem_of_find?_ofUnit he
  exact ⟨r, cx, redirected, hreachable, h, .refl, m, hm, rfl⟩

/-- Every published body was rewritten on the way to the registry. -/
theorem Reachable.rewritten (h : Reachable config r) (hverify : config.verify = true) :
    ∀ t ∈ r.types, ∀ key e, t.table.find? key = some e → ∃ r₀ u, Rewritten config r e r₀ u := by
  induction h with
  | refl => simp [Registry.create]
  | @tail r r' hreachable hstep ih =>
    have hr := Reachable.wellFormed hreachable hverify
    have hold {t : LiveType} (ht : t ∈ r.types) {key : String} {e : Executable}
        (he : t.table.find? key = some e) : ∃ r₀ u, Rewritten config r' e r₀ u := by
      obtain ⟨r₀, u, hrewritten⟩ := ih t ht key e he
      exact ⟨r₀, u, hrewritten.tail hstep⟩
    intro q hq key e he
    cases hstep with
    | @register name bytes t ok =>
      obtain ⟨u, redirected, rfl, -, hread, hcreated, -, rfl⟩ := register_cases ok
      rcases List.mem_append.mp hq with hq | hq
      · exact hold hq he
      · obtain rfl := List.mem_singleton.mp hq
        have hredirect := hcreated.redirect_eq
        rw [hr.verifies] at hread hredirect
        rw [hcreated.table_eq, hcreated.id_eq, hcreated.name_eq] at he
        exact ⟨r, u, (Rewrites.registered ok hread hredirect).rewritten hreachable he⟩
    | @reload name label bytes ok =>
      obtain ⟨t, u, hfind, haccepts, hresult⟩ := reload_cases ok
      have ht := mem_of_find? hfind
      rw [hr.verifies] at haccepts hresult
      rcases hresult with ⟨-, rfl⟩ | ⟨hother, redirected, hredirect, -, rfl⟩
      · have hid : (t.reloadSame label bytes u).id = t.id := rfl
        rcases (hr.mem_replace ht hid).mp hq with rfl | ⟨hq, -⟩
        · exact hold ht he
        · exact hold hq he
      · have hid : (t.reloadNew label bytes u redirected).id = t.id := rfl
        rcases (hr.mem_replace ht hid).mp hq with rfl | ⟨hq, -⟩
        · have hrewrites := Rewrites.renewed ok hfind haccepts.admitted hother hredirect
          have he : (ExecutorTable.ofUnit redirected.executor t.id u.name t.versions.length
              label).find? key = some e := by
            rw [haccepts.name_eq (hr.types t ht)]
            exact he
          exact ⟨r, u, hrewrites.rewritten hreachable he⟩
        · exact hold hq he

end Registry

end LiveTypes
