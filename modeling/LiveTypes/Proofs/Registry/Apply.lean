import LiveTypes.Proofs.Registry.WellFormed

/-!
# Operations that are accepted

A reload of the bytes that a type has already succeeds when its checks do, and so the type takes its
current version again under every label that none of its versions has (`reload_current`).
-/

namespace LiveTypes

lemma LiveType.WellFormed.isCurrent_current {t : LiveType} (ht : t.WellFormed) :
    t.isCurrent t.current.bytes = true := by
  rw [LiveType.isCurrent, (ht.genuine _ ht.current_mem).summary_eq, decide_eq_true_eq]
  rfl

/-- A type accepts its current version under a fresh label. -/
lemma LiveType.WellFormed.accepts_current {t : LiveType} (ht : t.WellFormed) {label : String}
    (hfresh : ∀ v ∈ t.versions, v.label ≠ label) :
    t.Accepts true label t.current.bytes t.current.unit where
  admitted := (ht.genuine _ ht.current_mem).admitted
  checked := ht.checked
  fresh := hfresh

namespace Registry

variable {r : Registry} {u : TypeUnit} {bytes : List UInt8} {t : LiveType} {label : String}

/-- A reload of the current bytes succeeds when its checks do. -/
lemma reload_of_same (hfind : r.find? t.name = some t)
    (haccepts : t.Accepts r.config.verify label bytes u) (hcurrent : t.isCurrent bytes = true) :
    r.reload t.name label bytes = .ok (r.replace (t.reloadSame label bytes u)) := by
  simp only [reload, hfind, reloadType, tryReload, Outcome.mapError_eq_ok, Outcome.bind_eq_ok]
  refine ⟨u, LiveType.candidate_eq_ok.mpr haccepts, ?_⟩
  rw [if_pos hcurrent]
  rfl

/-- A registered type takes its current version once more under a fresh label. -/
theorem WellFormed.reload_current (hr : r.WellFormed) (ht : t ∈ r.types)
    (hfresh : ∀ v ∈ t.versions, v.label ≠ label) :
    r.reload t.name label t.current.bytes =
      .ok (r.replace (t.reloadSame label t.current.bytes t.current.unit)) := by
  have hwell := hr.types t ht
  apply reload_of_same (hr.find?_name ht) _ hwell.isCurrent_current
  rw [hr.verifies]
  exact hwell.accepts_current hfresh

/-! ### Sequences of operations -/

inductive Operation where
  | register (name : String) (bytes : List UInt8)
  | reload (name label : String) (bytes : List UInt8)
deriving DecidableEq, Repr

def apply (r : Registry) : Operation → Except RegistryError Registry
  | .register name bytes => (r.register name bytes).map Prod.snd
  | .reload name label bytes => r.reload name label bytes

/-- The registry after operations that all are accepted. -/
def replay (r : Registry) : List Operation → Option Registry
  | [] => some r
  | op :: rest =>
    match r.apply op with
    | .ok r => r.replay rest
    | .error _ => none

lemma step_of_apply {r' : Registry} {op : Operation} (h : r.apply op = .ok r') : Step r r' := by
  cases op with
  | register name bytes =>
    obtain ⟨⟨t, r''⟩, hok, rfl⟩ := Outcome.map_eq_ok.mp h
    exact .register hok
  | reload name label bytes => exact .reload h

/-- Operations that all are accepted lead from one registry to another. -/
lemma leads_of_replay {r' : Registry} {ops : List Operation} (h : r.replay ops = some r') :
    Leads r r' := by
  induction ops generalizing r with
  | nil =>
    obtain rfl := Option.some.inj h
    exact .refl
  | cons op rest ih =>
    rw [replay] at h
    split at h
    · next r₁ hok => exact .head (step_of_apply hok) (ih h)
    · cases h

end Registry

end LiveTypes
