import LiveTypes.Proofs.Outcome
import LiveTypes.Registry.Reload
import Mathlib.Logic.Relation

/-!
# Steps of a registry

A registry changes when a type is registered and when a reload is accepted. `Change` says what the
two operations make of it, with everything that was checked on the way; every invariant of
registries is proved on its three cases.
-/

namespace LiveTypes

/-- A type as it is made from its first version. -/
structure LiveType.Created (r : Registry) (u : TypeUnit) (bytes : List UInt8) (t : LiveType)
    (redirected : RedirectedVersion) : Prop where
  redirect_eq : u.redirect (.ofBaseline r.size 0 u r) r.config.verify = .ok redirected
  load_eq : LiveType.load r.config u = .ok (t.loadedUnit, t.promoted)
  loadedBytes_eq : t.loadedBytes = t.loadedUnit.encode
  id_eq : t.id = r.size
  name_eq : t.name = u.name
  layout_eq : t.layout = .ofUnit u
  dispatchers_eq : t.dispatchers = .ofUnit t.loadedUnit t.id t.name 0 loadedLabel
  loadedMethods_eq : t.loadedMethods = .ofList (u.methods.map fun m => (m.key, m.isStatic))
  initial_eq : t.initial =
    ⟨0, initialLabel, bytes, u, u.summary bytes, redirected.executor.encode⟩
  later_eq : t.later = []
  history_eq : t.history = .ofInitial u
  table_eq : t.table = .ofUnit redirected.executor t.id t.name 0 initialLabel

lemma LiveType.created_of_create {r : Registry} {u : TypeUnit} {bytes : List UInt8} {t : LiveType}
    {bindings : List SiteBinding} (h : LiveType.create r r.size u bytes = .ok (t, bindings)) :
    ∃ redirected, Created r u bytes t redirected ∧ bindings = redirected.bindings := by
  simp only [create, Outcome.bind_eq_ok, Outcome.pure_eq_ok, Prod.mk.injEq] at h
  obtain ⟨⟨loadedUnit, promoted⟩, hload, redirected, hredirect, rfl, rfl⟩ := h
  exact ⟨redirected, ⟨hredirect, hload, rfl, rfl, rfl, rfl, rfl, rfl, rfl, rfl, rfl, rfl⟩, rfl⟩

/-- What the check of a candidate makes sure of. -/
structure LiveType.Accepts (t : LiveType) (verify : Bool) (label : String) (bytes : List UInt8)
    (u : TypeUnit) : Prop where
  admitted : TypeUnit.admit bytes verify = .ok u
  checked : t.history.check u = .ok ()
  fresh : ∀ v ∈ t.versions, v.label ≠ label

lemma LiveType.candidate_eq_ok {t : LiveType} {verify : Bool} {label : String}
    {bytes : List UInt8} {u : TypeUnit} :
    t.candidate verify label bytes = .ok u ↔ t.Accepts verify label bytes u := by
  simp only [candidate, Outcome.bind_eq_ok]
  constructor
  · rintro ⟨a, hread, _, hcheck, h⟩
    split at h
    · simp at h
    · next hfresh =>
      obtain ⟨_, -, rfl⟩ := by simpa only [Outcome.bind_eq_ok, Outcome.pure_eq_ok] using h
      exact ⟨hread, hcheck, by simpa using hfresh⟩
  · rintro ⟨hread, hcheck, hfresh⟩
    refine ⟨u, hread, (), hcheck, ?_⟩
    rw [if_neg (by simpa using hfresh)]
    rfl

namespace Registry

variable {r r' : Registry} {config : RegistryConfig}

/-- What an accepted operation makes of a registry. -/
inductive Change (r : Registry) : Registry → Prop where
  /-- A type of a new name is added. -/
  | registered {u : TypeUnit} {bytes : List UInt8} {t : LiveType} {redirected : RedirectedVersion}
      (fresh : r.find? u.name = none)
      (admitted : TypeUnit.admit bytes r.config.verify = .ok u)
      (created : t.Created r u bytes redirected)
      (fit : ∀ b ∈ redirected.bindings, r.sites.check b = .ok ()) :
      Change r { r with
        types := r.types ++ [t]
        sites := bindAll r.sites redirected.bindings }
  /-- The current version of a type is published once more. -/
  | repeated {t : LiveType} {label : String} {bytes : List UInt8} {u : TypeUnit}
      (found : r.find? t.name = some t)
      (accepted : t.Accepts r.config.verify label bytes u)
      (current : t.isCurrent bytes = true) :
      Change r (r.replace (t.reloadSame label bytes u))
  /-- A type is given a version with bodies of its own. -/
  | renewed {t : LiveType} {label : String} {bytes : List UInt8} {u : TypeUnit}
      {redirected : RedirectedVersion}
      (found : r.find? t.name = some t)
      (accepted : t.Accepts r.config.verify label bytes u)
      (other : t.isCurrent bytes = false)
      (redirect_eq : u.redirect ⟨t.id, t.versions.length, t.layout, t.loadedMethods, r⟩
        r.config.verify = .ok redirected)
      (fit : r.checkSites t u redirected.bindings = .ok ()) :
      Change r (replace { r with sites := r.bindSites t u redirected.bindings }
        (t.reloadNew label bytes u redirected))

/-- What was checked of an accepted registration, and what it made. -/
lemma register_cases {name : String} {bytes : List UInt8} {t : LiveType}
    (h : r.register name bytes = .ok (t, r')) : ∃ u redirected, u.name = name ∧
      r.find? name = none ∧ TypeUnit.admit bytes r.config.verify = .ok u ∧
      t.Created r u bytes redirected ∧ (∀ b ∈ redirected.bindings, r.sites.check b = .ok ()) ∧
      r' = { r with types := r.types ++ [t], sites := bindAll r.sites redirected.bindings } := by
  unfold register at h
  split_ifs at h with hincluded hfind
  simp only [Outcome.mapError_eq_ok, tryRegister, Outcome.bind_eq_ok] at h
  obtain ⟨u, hread, h⟩ := h
  split at h
  · simp at h
  · next hname =>
    obtain rfl : u.name = name := by simpa using hname
    simp only [Outcome.bind_eq_ok, Outcome.pure_eq_ok, Prod.mk.injEq] at h
    obtain ⟨⟨t', bindings⟩, hcreate, ⟨⟩, hfit, rfl, rfl⟩ := h
    obtain ⟨redirected, hcreated, rfl⟩ := LiveType.created_of_create hcreate
    exact ⟨u, redirected, rfl, by simpa using hfind, hread, hcreated, Outcome.forM_eq_ok.mp hfit,
      rfl⟩

lemma change_of_register {name : String} {bytes : List UInt8} {t : LiveType}
    (h : r.register name bytes = .ok (t, r')) : Change r r' := by
  obtain ⟨u, redirected, rfl, hfresh, hread, hcreated, hfit, rfl⟩ := register_cases h
  exact .registered hfresh hread hcreated hfit

lemma find?_name {name : String} {t : LiveType} (h : r.find? name = some t) : t.name = name := by
  simpa using List.find?_some h

/-- What was checked of an accepted reload, and what it made. -/
lemma reload_cases {name label : String} {bytes : List UInt8}
    (h : r.reload name label bytes = .ok r') : ∃ t u, r.find? name = some t ∧
      t.Accepts r.config.verify label bytes u ∧
      (t.isCurrent bytes = true ∧ r' = r.replace (t.reloadSame label bytes u) ∨
        t.isCurrent bytes = false ∧ ∃ redirected,
          u.redirect ⟨t.id, t.versions.length, t.layout, t.loadedMethods, r⟩ r.config.verify =
            .ok redirected ∧ r.checkSites t u redirected.bindings = .ok () ∧
          r' = replace { r with sites := r.bindSites t u redirected.bindings }
            (t.reloadNew label bytes u redirected)) := by
  unfold reload at h
  split at h
  · cases h
  · next t hfind =>
    simp only [reloadType, Outcome.mapError_eq_ok, tryReload, Outcome.bind_eq_ok] at h
    obtain ⟨u, hcandidate, h⟩ := h
    refine ⟨t, u, hfind, LiveType.candidate_eq_ok.mp hcandidate, ?_⟩
    split at h
    · next hcurrent => exact .inl ⟨hcurrent, (Outcome.pure_eq_ok.mp h).symm⟩
    · next hother =>
      simp only [Outcome.bind_eq_ok, Outcome.pure_eq_ok] at h
      obtain ⟨redirected, hredirect, ⟨⟩, hfit, rfl⟩ := h
      exact .inr ⟨by simpa using hother, redirected, hredirect, hfit, rfl⟩

lemma change_of_reload {name label : String} {bytes : List UInt8}
    (h : r.reload name label bytes = .ok r') : Change r r' := by
  obtain ⟨t, u, hfind, haccepts, ⟨hcurrent, rfl⟩ | ⟨hother, redirected, hredirect, hfit, rfl⟩⟩ :=
    reload_cases h
  all_goals obtain rfl := find?_name hfind
  · exact .repeated hfind haccepts hcurrent
  · exact .renewed hfind haccepts hother hredirect hfit

/-- An accepted operation on a registry. -/
inductive Step (r r' : Registry) : Prop where
  | register {name : String} {bytes : List UInt8} {t : LiveType}
      (ok : r.register name bytes = .ok (t, r'))
  | reload {name label : String} {bytes : List UInt8} (ok : r.reload name label bytes = .ok r')

lemma Step.change (h : Step r r') : Change r r' := by
  cases h with
  | register ok => exact change_of_register ok
  | reload ok => exact change_of_reload ok

/-- A registry leads to another by accepted operations in any order. -/
abbrev Leads : Registry → Registry → Prop := Relation.ReflTransGen Step

/-- The registries that accepted operations lead to from the empty one. -/
abbrev Reachable (config : RegistryConfig) (r : Registry) : Prop := Leads (create config) r

lemma Change.config_eq (h : Change r r') : r'.config = r.config := by
  cases h <;> rfl

lemma Leads.config_eq (h : Leads r r') : r'.config = r.config := by
  induction h with
  | refl => rfl
  | tail _ hstep ih => rw [hstep.change.config_eq, ih]

/-- What holds of the empty registry and survives every change holds of every registry that accepted
operations lead to. -/
theorem Reachable.invariant {P : Registry → Prop} (h : Reachable config r)
    (empty : P (.create config))
    (change : ∀ {r r'}, Reachable config r → P r → Change r r' → P r') : P r := by
  induction h with
  | refl => exact empty
  | tail hbefore hstep ih => exact change hbefore ih hstep.change

/-- What holds of every type when it is made, and survives each of its reloads, holds of every type. -/
theorem Reachable.forall_types {P : LiveType → Prop} (h : Reachable config r)
    (created : ∀ {r u bytes t redirected}, r.config = config →
      TypeUnit.admit bytes config.verify = .ok u → t.Created r u bytes redirected → P t)
    (repeated : ∀ {t label bytes u}, P t → t.Accepts config.verify label bytes u →
      t.isCurrent bytes = true → P (t.reloadSame label bytes u))
    (renewed : ∀ {r t label bytes u redirected}, P t → t.Accepts config.verify label bytes u →
      u.redirect ⟨t.id, t.versions.length, t.layout, t.loadedMethods, r⟩ config.verify =
        .ok redirected → P (t.reloadNew label bytes u redirected)) : ∀ t ∈ r.types, P t := by
  refine h.invariant (P := fun r => ∀ t ∈ r.types, P t) (by simp [create])
    fun {r r'} hreachable ih hchange => ?_
  obtain rfl := hreachable.config_eq
  cases hchange with
  | registered _ hread hcreated =>
    intro q hq
    rcases List.mem_append.mp hq with hq | hq
    · exact ih q hq
    · obtain rfl := List.mem_singleton.mp hq
      exact created rfl hread hcreated
  | repeated hfound haccepts hcurrent =>
    intro q hq
    rcases List.mem_or_eq_of_mem_set hq with hq | rfl
    · exact ih q hq
    · exact repeated (ih _ (List.mem_of_find?_eq_some hfound)) haccepts hcurrent
  | renewed hfound haccepts _ hredirect =>
    intro q hq
    rcases List.mem_or_eq_of_mem_set hq with hq | rfl
    · exact ih q hq
    · exact renewed (ih _ (List.mem_of_find?_eq_some hfound)) haccepts hredirect

end Registry

end LiveTypes
