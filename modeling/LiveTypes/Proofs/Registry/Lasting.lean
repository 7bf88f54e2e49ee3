import LiveTypes.Proofs.Redirection.Lasting
import LiveTypes.Proofs.Registry.Versions
import LiveTypes.Proofs.World.Promotion

/-!
# Redirected versions last

A version that was redirected once is redirected to the same executor in every later registry, whatever
was registered and reloaded in between, when the types that its code names are settled
(`Reachable.redirects_later`). A name of an enclosing type that is not registered yet is not settled for
an allocation: the type may be registered as a host of closures, which are not allocated
(`not_redirected_later`).
-/

namespace LiveTypes.Registry

variable {r r' : Registry} {t t' : LiveType} {config : RegistryConfig}

/-- Every type is found later, in a later state, and hosts closures as before. -/
lemma Reachable.outlasts (h : Reachable config r) (hleads : Leads r r') : r'.Outlasts r := by
  intro name q hq
  obtain ⟨q', hq', hcontinues⟩ := h.find? hleads hq
  have hreachable' : Reachable config r' := h.trans hleads
  refine ⟨q', hq', hcontinues, ?_⟩
  rw [h.isClosureHost_current q (mem_of_find? hq),
    hreachable'.isClosureHost_current q' (mem_of_find? hq')]
  exact congrArg TypeUnit.isClosureHost hcontinues.loadedUnit_eq

/-- A version that was redirected for a type is redirected to the same executor in every later registry,
verified or not, when the types that its code names are settled. -/
theorem Reachable.redirects_later (h : Reachable config r) (hleads : Leads r r') (ht : t ∈ r.types)
    (ht' : t' ∈ r'.types) (hid : t'.id = t.id) {u : TypeUnit} {version : Nat} {verify : Bool}
    {redirected : RedirectedVersion}
    (hok : u.redirect ⟨t.id, version, t.layout, t.loadedMethods, r⟩ verify = .ok redirected)
    (hsettled : u.Settled redirected.executor.constants r r') :
    ∃ redirected', u.redirect ⟨t'.id, version, t'.layout, t'.loadedMethods, r'⟩ verify =
        .ok redirected' ∧ redirected'.executor = redirected.executor := by
  have hplaced : r'.Placed := Reachable.placed (h.trans hleads)
  obtain ⟨q, hq, hcontinues⟩ := h.continues hleads t ht
  obtain rfl := hplaced.eq_of_id hq ht' (hcontinues.id_eq.trans hid.symm)
  rw [hcontinues.id_eq, hcontinues.layout_eq, hcontinues.loadedMethods_eq]
  exact TypeUnit.redirect_lasting (h.outlasts hleads) hok hsettled

def capturing : TypeUnit where
  formatFlags := 0
  name := "a.H"
  superName := none
  access := Access.isPublic ||| Access.closureHost
  constants := .empty
  fields := [⟨"x", .i32, capturedField⟩]
  methods := []
  attributes := []

/-- A type that calls a method of another one, allocates it, and creates a closure. -/
def linking : TypeUnit where
  formatFlags := 0
  name := "a.K"
  superName := none
  access := Access.isPublic
  constants := ⟨#["a.B", "get()I", "a.H"], [], []⟩
  fields := []
  methods := [⟨⟨"get", ⟨[], .i32⟩⟩, staticMethod, [], 0, Instruction.encodeAll
      [⟨0, .invokeStatic, .pair 0 1⟩, ⟨9, .ret, .none⟩]⟩,
    ⟨⟨"make", ⟨[], .void⟩⟩, staticMethod, [], 0, Instruction.encodeAll
      [⟨0, .new, .index 0⟩, ⟨5, .pop, .none⟩, ⟨6, .constI32, .i32 7⟩,
        ⟨11, .makeClosure, .closure 2 1 0⟩, ⟨18, .pop, .none⟩, ⟨19, .retVoid, .none⟩]⟩]
  attributes := []

/-- The types that the code names, and the first version of the type itself. -/
def linked : List Operation :=
  [.register "a.H" capturing.encode, .register "a.B" { constantly 1 with name := "a.B" }.encode,
    .register "a.K" (constantly 2).encode]

def relinked : List Operation :=
  [.reload "a.H" "two" { capturing with attributes := [⟨"v", [2]⟩] }.encode]

set_option maxRecDepth 100000 in
/-- After the host that it names was reloaded, the version is redirected to the same executor, with
another version of the host in its bindings. -/
theorem redirects_later_relinked :
    ∃ r r' t t' redirected redirected', (Registry.create .default).replay linked = some r ∧
      r.replay relinked = some r' ∧ r.find? "a.K" = some t ∧ r'.find? "a.K" = some t' ∧
      linking.redirect ⟨t.id, 1, t.layout, t.loadedMethods, r⟩ true = .ok redirected ∧
      linking.Settled redirected.executor.constants r r' ∧
      linking.redirect ⟨t'.id, 1, t'.layout, t'.loadedMethods, r'⟩ true = .ok redirected' ∧
      redirected'.executor = redirected.executor ∧ redirected'.bindings ≠ redirected.bindings := by
  have hfacts : ((Registry.create .default).replay linked).any (fun r =>
      (r.replay relinked).any fun r' => (r.find? "a.K").any fun t => (r'.find? "a.K").any fun t' =>
        t'.id = t.id ∧
        ((linking.redirect ⟨t.id, 1, t.layout, t.loadedMethods, r⟩ true).toOption.any
          fun redirected => linking.Settled redirected.executor.constants r r' ∧
            ((linking.redirect ⟨t'.id, 1, t'.layout, t'.loadedMethods, r'⟩ true).toOption.any
              fun redirected' => redirected'.bindings ≠ redirected.bindings))) = true := by
    decide +kernel
  obtain ⟨r, hr, hfacts⟩ := (Option.any_eq_true _ _).mp hfacts
  obtain ⟨r', hr', hfacts⟩ := (Option.any_eq_true _ _).mp hfacts
  obtain ⟨t, ht, hfacts⟩ := (Option.any_eq_true _ _).mp hfacts
  obtain ⟨t', ht', hfacts⟩ := (Option.any_eq_true _ _).mp hfacts
  obtain ⟨hid, hfacts⟩ := of_decide_eq_true hfacts
  obtain ⟨redirected, hok, hfacts⟩ := (Option.any_eq_true _ _).mp hfacts
  obtain ⟨hsettled, hfacts⟩ := of_decide_eq_true hfacts
  have hok := Outcome.toOption_eq_some.mp hok
  obtain ⟨redirected', hok', hsame⟩ := Reachable.redirects_later (leads_of_replay hr)
    (leads_of_replay hr') (mem_of_find? ht) (mem_of_find? ht') hid hok hsettled
  rw [hok'] at hfacts
  exact ⟨r, r', t, t', redirected, redirected', hr, hr', ht, ht', hok, hsettled, hok', hsame,
    of_decide_eq_true hfacts⟩

/-- A nested type that allocates the type that encloses it. -/
def nested : TypeUnit := allocating "a.T$N" Access.isPublic "a.T"

set_option maxRecDepth 100000 in
/-- A nested type that allocates the enclosing one is redirected as long as that is not registered, and
is not any more once it is registered as a host of closures. Its code names no owner of a member and no
host of a closure. -/
theorem not_redirected_later :
    ∃ r r' t t' redirected,
      (Registry.create .default).replay [.register "a.T$N" nested.encode] = some r ∧
      r.replay [.register "a.T" { capturing with name := "a.T" }.encode] = some r' ∧
      Reachable .default r ∧ Leads r r' ∧ t ∈ r.types ∧ t' ∈ r'.types ∧ t'.id = t.id ∧
      nested.redirect ⟨t.id, 1, t.layout, t.loadedMethods, r⟩ true = .ok redirected ∧
      nested.named redirected.executor.constants Instruction.memberOwner? = [] ∧
      nested.named redirected.executor.constants Instruction.createdHost? = [] ∧
      nested.redirect ⟨t'.id, 1, t'.layout, t'.loadedMethods, r'⟩ true = .error (.malformedUnit
        "a.T$N.make()V: a.T hosts a closure and cannot be allocated directly") := by
  have hfacts : ((Registry.create .default).replay [.register "a.T$N" nested.encode]).any (fun r =>
      (r.replay [.register "a.T" { capturing with name := "a.T" }.encode]).any fun r' =>
        (r.find? "a.T$N").any fun t => (r'.find? "a.T$N").any fun t' =>
          decide (t'.id = t.id) &&
          ((nested.redirect ⟨t.id, 1, t.layout, t.loadedMethods, r⟩ true).toOption.any fun x =>
            nested.named x.executor.constants Instruction.memberOwner? = [] ∧
              nested.named x.executor.constants Instruction.createdHost? = []) &&
          match nested.redirect ⟨t'.id, 1, t'.layout, t'.loadedMethods, r'⟩ true with
          | .error cause => decide (cause = .malformedUnit
            "a.T$N.make()V: a.T hosts a closure and cannot be allocated directly")
          | .ok _ => false) = true := by
    decide +kernel
  obtain ⟨r, hr, hfacts⟩ := (Option.any_eq_true _ _).mp hfacts
  obtain ⟨r', hr', hfacts⟩ := (Option.any_eq_true _ _).mp hfacts
  obtain ⟨t, ht, hfacts⟩ := (Option.any_eq_true _ _).mp hfacts
  obtain ⟨t', ht', hfacts⟩ := (Option.any_eq_true _ _).mp hfacts
  simp only [Bool.and_eq_true, decide_eq_true_eq] at hfacts
  obtain ⟨⟨hid, hbefore⟩, hafter⟩ := hfacts
  obtain ⟨redirected, hok, hnames⟩ := (Option.any_eq_true _ _).mp hbefore
  obtain ⟨howners, hhosts⟩ := of_decide_eq_true hnames
  split at hafter
  · next cause herror =>
    obtain rfl := of_decide_eq_true hafter
    exact ⟨r, r', t, t', redirected, hr, hr', leads_of_replay hr, leads_of_replay hr',
      mem_of_find? ht, mem_of_find? ht', hid, Outcome.toOption_eq_some.mp hok, howners, hhosts,
      herror⟩
  · cases hafter

end LiveTypes.Registry
