import LiveTypes.Proofs.Registry.Apply
import LiveTypes.Registry.Scope

/-!
# Requests

A host asks for single operations and for batches. A request that is refused leaves the registry as it
was, and a batch keeps what it applied before the first refusal. Whatever is asked for, the registry
goes through accepted operations only (`leads_serveAll`).
-/

namespace LiveTypes.Registry

variable {r : Registry} {p : NamePattern} {label : String}

/-! ### Batches -/

/-- The operation that a batch makes of a unit. -/
def batchOperation (r : Registry) (label name : String) (bytes : List UInt8) : Operation :=
  if (r.find? name).isSome then .reload name label bytes else .register name bytes

lemma applyIn_eq (r : Registry) (p : NamePattern) (label name : String) (bytes : List UInt8) :
    r.applyIn p label name bytes =
      if p.selects name then r.apply (r.batchOperation label name bytes)
      else .error (.outOfScope p.text name) := by
  unfold applyIn requireIn
  split_ifs with hselects
  · rw [Outcome.ok_bind]
    unfold batchOperation
    cases hfind : r.find? name with
    | some t =>
      rw [Option.isSome_some, if_pos rfl, apply, reload, hfind]
    | none =>
      rw [Option.isSome_none, if_neg Bool.false_ne_true, apply]
      cases r.register name bytes <;> rfl
  · rfl

lemma applyIn_eq_ok {r' : Registry} {name : String} {bytes : List UInt8} :
    r.applyIn p label name bytes = .ok r' ↔
      p.selects name = true ∧ r.apply (r.batchOperation label name bytes) = .ok r' := by
  rw [applyIn_eq]
  split_ifs with hselects <;> simp [hselects]

/-- The registry that a batch leaves, whether or not it fails, comes from accepted operations. -/
lemma leads_reloadAll (r : Registry) (p : NamePattern) (label : String)
    (units : List (String × List UInt8)) : Leads r (r.reloadAll p label units).2 := by
  induction units generalizing r with
  | nil => exact .refl
  | cons unit rest ih =>
    obtain ⟨name, bytes⟩ := unit
    unfold reloadAll
    split
    · next r₁ hok => exact .head (step_of_apply (applyIn_eq_ok.mp hok).2) (ih r₁)
    · exact .refl

/-! ### Requests -/

/-- What a host asks of a registry. -/
inductive Request where
  | single (op : Operation)
  | batch (p : NamePattern) (label : String) (units : List (String × List UInt8))

/-- The registry after a request, whether or not it is refused. -/
def serve (r : Registry) : Request → Registry
  | .single op => (r.apply op).toOption.getD r
  | .batch p label units => (r.reloadAll p label units).2

def serveAll (r : Registry) (requests : List Request) : Registry := requests.foldl serve r

lemma leads_serve (r : Registry) (request : Request) : Leads r (r.serve request) := by
  cases request with
  | single op =>
    rw [serve]
    cases hok : r.apply op with
    | ok r' => exact .single (step_of_apply hok)
    | error e => exact .refl
  | batch p label units => exact r.leads_reloadAll p label units

/-- Whatever is asked for, the registry goes through accepted operations only. -/
theorem leads_serveAll (r : Registry) (requests : List Request) : Leads r (r.serveAll requests) := by
  induction requests generalizing r with
  | nil => exact .refl
  | cons request rest ih => exact (r.leads_serve request).trans (ih (r.serve request))

end LiveTypes.Registry
