import LiveTypes.Proofs.Redirection.Version
import LiveTypes.Proofs.Registry.Fields

/-!
# Published bodies

The bodies that a type publishes were redirected for one of its versions, and the current version has
the bytes of that one: it is the version itself, or a later one that repeats it. The dispatchers of a
type are those of the unit that was loaded for its first version.
-/

namespace LiveTypes

namespace LiveType

variable {t : LiveType} {v : Version} {cx : RedirectContext} {redirected : RedirectedVersion}
  {config : RegistryConfig}

/-- A type whose dispatchers are those of the unit that was loaded for its first version. -/
structure Loaded (config : RegistryConfig) (t : LiveType) : Prop where
  load_eq : load config t.initial.unit = .ok (t.loadedUnit, t.promoted)
  dispatchers_eq : t.dispatchers = .ofUnit t.loadedUnit t.id t.name 0 loadedLabel
  loadedMethods_eq :
    t.loadedMethods = .ofList (t.initial.unit.methods.map fun m => (m.key, m.isStatic))

/-- A loaded unit has dispatchers for bodies, and was made public if that was asked for. -/
lemma Loaded.unit_eq (h : t.Loaded config) : ∃ d, t.initial.unit.dispatcher = .ok d ∧
    t.loadedUnit = if config.promote && d.isPromotable then d.promote else d := by
  have hload := h.load_eq
  simp only [load, Outcome.bind_eq_ok] at hload
  obtain ⟨d, hd, hload⟩ := hload
  refine ⟨d, hd, ?_⟩
  split at hload
  · obtain ⟨_, -, hload⟩ := Outcome.bind_eq_ok.mp hload
    exact (Prod.mk.inj (Outcome.pure_eq_ok.mp hload)).1.symm
  · exact (Prod.mk.inj (Outcome.pure_eq_ok.mp hload)).1.symm

/-- A version of a type with its redirected form, when its bodies are the ones that are published. -/
structure Publishes (t : LiveType) (v : Version) (cx : RedirectContext)
    (redirected : RedirectedVersion) : Prop where
  mem : v ∈ t.versions
  digest_eq : digest v.bytes = digest t.current.bytes
  redirect_eq : v.unit.redirect cx true = .ok redirected
  typeId_eq : cx.typeId = t.id
  version_eq : cx.version = v.index
  executor_eq : t.current.executorBytes = redirected.executor.encode
  entries_eq : t.table.entries =
    (ExecutorTable.ofUnit redirected.executor t.id t.name v.index v.label).entries

/-- A published body is one of the redirected methods. -/
lemma Publishes.mem_of_find? (h : t.Publishes v cx redirected) {key : String} {e : Executable}
    (he : t.table.find? key = some e) :
    ∃ m ∈ redirected.executor.methods, m.key = key ∧
      e = ExecutorTable.executable redirected.executor t.id t.name v.index m := by
  unfold ExecutorTable.find? at he
  rw [h.entries_eq] at he
  exact ExecutorTable.mem_of_find?_ofUnit he

/-- The version whose bodies are published declares what the current version does. -/
lemma Publishes.unit_eq (h : t.Publishes v cx redirected) (ht : t.WellFormed)
    (hfree : ¬ t.Collides) : v.unit = t.current.unit := by
  have hbytes : v.bytes = t.current.bytes := by
    by_contra hne
    exact hfree ⟨v, h.mem, t.current, ht.current_mem, h.digest_eq, hne⟩
  have hread := (ht.genuine v h.mem).admitted
  rw [hbytes, (ht.genuine _ ht.current_mem).admitted] at hread
  exact (Except.ok.inj hread).symm

lemma Created.publishes {r : Registry} {u : TypeUnit} {bytes : List UInt8}
    (h : t.Created r u bytes redirected) (hverify : r.config.verify = true) :
    t.Publishes t.initial (.ofBaseline r.size 0 u r) redirected := by
  have hcurrent : t.current = t.initial := by
    have hversion : t.table.version = 0 := by rw [h.table_eq]; rfl
    rw [current, hversion]
    rfl
  have hinitial := h.initial_eq
  have hredirect := h.redirect_eq
  rw [hverify] at hredirect
  constructor
  · exact List.mem_cons_self
  · rw [hcurrent]
  · rw [hinitial]
    exact hredirect
  · rw [h.id_eq]
    rfl
  · rw [hinitial]
    rfl
  · rw [hcurrent, hinitial]
  · rw [h.table_eq, hinitial]

lemma Created.loaded {r : Registry} {u : TypeUnit} {bytes : List UInt8}
    (h : t.Created r u bytes redirected) : t.Loaded r.config := by
  have hunit : t.initial.unit = u := by rw [h.initial_eq]
  refine ⟨?_, h.dispatchers_eq, ?_⟩
  · rw [hunit]
    exact h.load_eq
  · rw [hunit]
    exact h.loadedMethods_eq

lemma WellFormed.digest_current (ht : t.WellFormed) {bytes : List UInt8}
    (h : t.isCurrent bytes = true) : digest t.current.bytes = digest bytes := by
  rw [isCurrent, decide_eq_true_eq, (ht.genuine _ ht.current_mem).summary_eq] at h
  exact h.symm

/-- Repeating the current version leaves its bodies in place. -/
lemma Publishes.reloadSame (h : t.Publishes v cx redirected) (ht : t.WellFormed) {label : String}
    {bytes : List UInt8} {u : TypeUnit} (hcurrent : t.isCurrent bytes = true) :
    (t.reloadSame label bytes u).Publishes v cx redirected := by
  have hlast : (t.reloadSame label bytes u).current =
      t.nextVersion label bytes u t.current.executorBytes := current_publish rfl
  refine ⟨List.mem_append_left _ h.mem, ?_, h.redirect_eq, h.typeId_eq, h.version_eq, ?_,
    h.entries_eq⟩
  · rw [hlast]
    exact h.digest_eq.trans (ht.digest_current hcurrent)
  · rw [hlast]
    exact h.executor_eq

/-- Any other version is published with bodies of its own. -/
lemma publishes_reloadNew {label : String} {bytes : List UInt8} {u : TypeUnit}
    (hredirect : u.redirect cx true = .ok redirected) (hid : cx.typeId = t.id)
    (hversion : cx.version = t.versions.length) :
    (t.reloadNew label bytes u redirected).Publishes
      (t.nextVersion label bytes u redirected.executor.encode) cx redirected := by
  have hlast : (t.reloadNew label bytes u redirected).current =
      t.nextVersion label bytes u redirected.executor.encode := current_publish (t := t) rfl
  refine ⟨List.mem_append_right t.versions List.mem_cons_self, ?_, hredirect, hid, hversion, ?_, rfl⟩
  · rw [hlast]
  · rw [hlast]
    rfl

end LiveType

namespace Registry

variable {r : Registry} {config : RegistryConfig}

/-- Every type publishes the bodies of one of its versions. -/
theorem Reachable.publishes (h : Reachable config r) (hverify : config.verify = true) :
    ∀ t ∈ r.types, ∃ v cx redirected, t.Publishes v cx redirected := by
  refine h.types_invariant hverify ?_ ?_ ?_
  · intro r u bytes t redirected hconfig _ hcreated
    exact ⟨_, _, _, hcreated.publishes (by rw [hconfig, hverify])⟩
  · rintro t label bytes u ht ⟨v, cx, redirected, hpublishes⟩ _ hcurrent
    exact ⟨v, cx, redirected, hpublishes.reloadSame ht hcurrent⟩
  · intro r t label bytes u redirected _ _ _ hredirect
    exact ⟨_, _, _, LiveType.publishes_reloadNew hredirect rfl rfl⟩

/-- The bodies that a type publishes were redirected for the layout of the type, and its history knows
the version. -/
theorem Reachable.publishes_laid (h : Reachable config r) (hverify : config.verify = true) :
    ∀ t ∈ r.types, ∃ v cx redirected, t.Publishes v cx redirected ∧ t.history.Knows v.unit ∧
      cx.layout = t.layout := by
  refine h.types_invariant hverify ?_ ?_ ?_
  · intro r u bytes t redirected hconfig hread hcreated
    exact ⟨_, _, _, hcreated.publishes (by rw [hconfig, hverify]),
      (hcreated.wellFormed hread).initial_known, hcreated.layout_eq.symm⟩
  · rintro t label bytes u ht ⟨v, cx, redirected, hpublishes, hknows, hlayout⟩ _ hcurrent
    exact ⟨v, cx, redirected, hpublishes.reloadSame ht hcurrent, hknows, hlayout⟩
  · intro r t label bytes u redirected _ _ haccepts hredirect
    have hu := TypeUnit.verified_of_admit haccepts.admitted
    exact ⟨_, _, _, LiveType.publishes_reloadNew hredirect rfl rfl,
      History.knows_record haccepts.checked hu.fields_nodup hu.methods_nodup, rfl⟩

/-- The history of every type knows the version whose bodies it publishes. -/
theorem Reachable.knows_published (h : Reachable config r) (hverify : config.verify = true) :
    ∀ t ∈ r.types, ∃ v cx redirected, t.Publishes v cx redirected ∧ t.history.Knows v.unit := by
  intro t ht
  obtain ⟨v, cx, redirected, hpublishes, hknows, -⟩ := h.publishes_laid hverify t ht
  exact ⟨v, cx, redirected, hpublishes, hknows⟩

/-- The dispatchers of every type are those of its first version, whether it was verified or not. -/
theorem Reachable.loaded (h : Reachable config r) : ∀ t ∈ r.types, t.Loaded config := by
  refine h.forall_types ?_ ?_ ?_
  · rintro r u bytes t redirected rfl _ hcreated
    exact hcreated.loaded
  · intro t label bytes u hloaded _ _
    exact ⟨hloaded.load_eq, hloaded.dispatchers_eq, hloaded.loadedMethods_eq⟩
  · intro r t label bytes u redirected hloaded _ _
    exact ⟨hloaded.load_eq, hloaded.dispatchers_eq, hloaded.loadedMethods_eq⟩

end Registry

end LiveTypes
