import LiveTypes.Proofs.Machine.Missing
import LiveTypes.Proofs.Registry.Apply
import LiveTypes.Proofs.Registry.Placed
import LiveTypes.Proofs.TypeName

/-!
# Promotion opens a type to its family

The bodies of a type run on behalf of its executor units, which are units with names of their own. When
nested types are promoted, every type of the family of a type is in reach of these units: the type
itself, and each whose name continues its name with a dollar sign. Only a private type that is not nested
is left as it was supplied, and a type that is neither public nor private stays within its package.
-/

namespace LiveTypes

/-! ### Access of a loaded unit -/

namespace Access

variable {accessor target : String} {access : UInt32}

lemma allows_of_public (h : hasFlag access isPublic = true) : allows accessor target access = true := by
  simp [allows, h]

/-- A type that is not private is in reach of its package. -/
lemma allows_of_package (h : hasFlag access isPrivate = false)
    (hpackage : TypeName.package accessor = TypeName.package target) :
    allows accessor target access = true := by
  simp [allows, h, hpackage]

end Access

namespace TypeUnit

variable {u d : TypeUnit}

lemma hasFlag_dispatcher (h : u.dispatcher = .ok d) {flag : UInt32}
    (hother : hasFlag Access.dispatching flag = false) : hasFlag d.access flag = hasFlag u.access flag := by
  obtain ⟨constants, methods, -, rfl⟩ := dispatcher_eq_ok.mp h
  rw [hasFlag_or, hother, Bool.or_false]

lemma name_dispatcher (h : u.dispatcher = .ok d) : d.name = u.name := by
  obtain ⟨constants, methods, -, rfl⟩ := dispatcher_eq_ok.mp h
  rfl

lemma isPublic_promote (u : TypeUnit) : u.promote.isPublic = true := by
  have hpublic : hasFlag Access.isPublic Access.isPublic = true := by decide
  rw [isPublic, promote, hasFlag_or, hpublic, Bool.or_true]

end TypeUnit

namespace LiveType

variable {t n : LiveType} {config : RegistryConfig}

/-- A type is in reach of everything when it was supplied public, or promoted. -/
lemma Loaded.isPublic (h : n.Loaded config) (hpromote : config.promote = true)
    (hopen : n.initial.unit.isPublic = true ∨
      (TypeName.enclosing? n.initial.unit.name).isSome = true) : n.loadedUnit.isPublic = true := by
  obtain ⟨d, hd, hunit⟩ := h.unit_eq
  have hpublic : d.isPublic = n.initial.unit.isPublic := TypeUnit.hasFlag_dispatcher hd (by decide)
  rw [hunit, hpromote, Bool.true_and]
  split
  · exact d.isPublic_promote
  · next hkept =>
    rw [TypeUnit.isPromotable, TypeUnit.name_dispatcher hd, hpublic] at hkept
    rw [hpublic]
    rcases hopen with hopen | hopen
    · exact hopen
    · simpa [hopen] using hkept

/-- A type that was not supplied private is public, or at least not private. -/
lemma Loaded.isPrivate_or (h : n.Loaded config) (hprivate : n.initial.unit.isPrivate = false) :
    n.loadedUnit.isPublic = true ∨ n.loadedUnit.isPrivate = false := by
  obtain ⟨d, hd, hunit⟩ := h.unit_eq
  have hkept : d.isPrivate = n.initial.unit.isPrivate := TypeUnit.hasFlag_dispatcher hd (by decide)
  rw [hunit]
  split
  · exact .inl d.isPublic_promote
  · exact .inr (hkept.trans hprivate)

/-- Whether a type is of the family of another one, with what its name adds: it is that type, or its name
continues that of the type with a dollar sign and anything. -/
structure InFamily (t n : LiveType) (rest : String) : Prop where
  name_eq : n.name = t.name ++ rest
  start : rest = "" ∨ ∃ nested, rest = "$" ++ nested

/-- Whether promotion leaves a type of a family in reach of it: the type was supplied public, or it is
nested, or it is not private and in the same package. -/
def OpenTo (n : LiveType) (rest : String) : Prop :=
  n.initial.unit.isPublic = true ∨ (TypeName.enclosing? n.name).isSome = true ∨
    n.initial.unit.isPrivate = false ∧ '.' ∉ rest.toList

/-- A type whose first version and history have its name, and whose bodies are those of one of its
executor units. -/
structure Named (t : LiveType) : Prop where
  initial_name : t.initial.unit.name = t.name
  history_name : t.history.name = t.name
  bodies : ∃ version, t.table.BodiesOf t.id t.name version

lemma Created.named {r : Registry} {u : TypeUnit} {bytes : List UInt8} {redirected : RedirectedVersion}
    (h : t.Created r u bytes redirected) : t.Named where
  initial_name := by rw [h.initial_eq, h.name_eq]
  history_name := by
    rw [h.history_eq, h.name_eq]
    rfl
  bodies := by
    refine ⟨0, ?_⟩
    rw [h.table_eq]
    refine ExecutorTable.bodiesOf_ofUnit ?_
    rw [TypeUnit.name_executor h.redirect_eq, h.name_eq]
    rfl

lemma Named.reloadNew (ht : t.Named) {r : Registry} {verify : Bool} {label : String}
    {bytes : List UInt8} {u : TypeUnit} {redirected : RedirectedVersion}
    (haccepts : t.Accepts verify label bytes u)
    (hredirect : u.redirect ⟨t.id, t.versions.length, t.layout, t.loadedMethods, r⟩ verify =
      .ok redirected) : (t.reloadNew label bytes u redirected).Named where
  initial_name := ht.initial_name
  history_name := ht.history_name
  bodies := by
    refine ⟨t.versions.length, ExecutorTable.bodiesOf_ofUnit ?_⟩
    rw [TypeUnit.name_executor hredirect, (History.check_eq_ok.mp haccepts.checked).1, ht.history_name]

end LiveType

/-! ### Reachable registries -/

namespace Registry

variable {r r' : Registry} {t n : LiveType} {config : RegistryConfig}

/-- Every type of every registry goes by its name. -/
lemma Reachable.named (h : Reachable config r) : ∀ t ∈ r.types, t.Named := by
  refine h.forall_types ?_ ?_ ?_
  · intro r u bytes t redirected _ _ hcreated
    exact hcreated.named
  · intro t label bytes u ht _ _
    exact ⟨ht.initial_name, ht.history_name, ht.bodies⟩
  · intro r t label bytes u redirected ht haccepts hredirect
    exact ht.reloadNew haccepts hredirect

/-- An executor unit of a type may access a type of its family that is open to it. -/
lemma allows_executorName (h : Reachable config r) (hpromote : config.promote = true) (hn : n ∈ r.types)
    {rest : String} (hfamily : t.InFamily n rest) (hopen : n.OpenTo rest) (version : Nat) :
    Access.allows (executorName t.name version) n.name n.loadedUnit.access = true := by
  have hloaded := h.loaded n hn
  have hname := (h.named n hn).initial_name
  rw [LiveType.OpenTo, ← or_assoc, ← hname] at hopen
  rcases hopen with hopen | ⟨hprivate, hdot⟩
  · exact Access.allows_of_public (hloaded.isPublic hpromote hopen)
  · rcases hloaded.isPrivate_or hprivate with hpublic | hprivate
    · exact Access.allows_of_public hpublic
    · refine Access.allows_of_package hprivate ?_
      rw [TypeName.package_executorName, hfamily.name_eq, TypeName.package_append hdot]

/-- When nested types are promoted, the family of a type is in reach of its executor units, as far as it
is open to it: the access check succeeds whatever the number of the unit, and no instruction of a body
that the type publishes is refused a type of that name. -/
theorem Reachable.family_in_reach (h : Reachable config r) (hpromote : config.promote = true)
    (ht : t ∈ r.types) (hn : n ∈ r.types) {rest : String} (hfamily : t.InFamily n rest)
    (hopen : n.OpenTo rest) :
    (∀ version, Access.allows (executorName t.name version) n.name n.loadedUnit.access = true) ∧
      ∀ key e, t.table.find? key = some e → ∀ depth i s accessor s',
        Machine.step ⟨r, depth⟩ e i s ≠ .error (.illegalAccess accessor n.name) s' := by
  have hallows := allows_executorName h hpromote hn hfamily hopen
  refine ⟨hallows, fun key e he depth i s accessor s' hrun => ?_⟩
  obtain ⟨rfl, q, hq, hname, hrefused⟩ := Machine.step_refused _ _ _ hrun
  obtain rfl : q = n := List.inj_on_of_nodup_map h.names_nodup hq hn hname
  obtain ⟨version, hbodies⟩ := (h.named t ht).bodies
  rw [(hbodies key e he).2.2.2, hallows version] at hrefused
  cases hrefused

def allocating (name : String) (access : UInt32) (target : String) : TypeUnit where
  formatFlags := 0
  name := name
  superName := none
  access := access
  constants := ⟨#[target], [], []⟩
  fields := []
  methods := [⟨⟨"make", ⟨[], .void⟩⟩, staticMethod, [], 0, Instruction.encodeAll
    [⟨0, .new, .index 0⟩, ⟨5, .pop, .none⟩, ⟨6, .retVoid, .none⟩]⟩]
  attributes := []

/-- A private type is registered, and then the one that encloses it. -/
def enclosed : List Operation :=
  [.register "a.T$N" (allocating "a.T$N" Access.isPrivate "a.T$N").encode,
    .register "a.T" (allocating "a.T" Access.isPublic "a.T$N").encode]

set_option maxRecDepth 100000 in
/-- A private type that another one encloses is in reach of it. -/
theorem family_in_reach_enclosed :
    ∃ r t n, (Registry.create .default).replay enclosed = some r ∧ r.find? "a.T" = some t ∧
      r.find? "a.T$N" = some n ∧ n.initial.unit.isPrivate = true ∧
      Access.allows (executorName "a.T" 3) "a.T$N" n.loadedUnit.access = true := by
  have hfacts : ((Registry.create .default).replay enclosed).any (fun r =>
      (r.find? "a.T").any fun t => (r.find? "a.T$N").any fun n =>
        t.name = "a.T" ∧ n.name = "a.T$N" ∧ n.initial.unit.isPrivate = true) = true := by
    decide +kernel
  obtain ⟨r, hr, hfacts⟩ := (Option.any_eq_true _ _).mp hfacts
  obtain ⟨t, ht, hfacts⟩ := (Option.any_eq_true _ _).mp hfacts
  obtain ⟨n, hn, hfacts⟩ := (Option.any_eq_true _ _).mp hfacts
  obtain ⟨htname, hnname, hprivate⟩ := of_decide_eq_true hfacts
  have hfamily : t.InFamily n "$N" := ⟨by rw [htname, hnname]; rfl, .inr ⟨"N", rfl⟩⟩
  have hopen : n.OpenTo "$N" := .inr (.inl (by rw [hnname]; decide))
  have hreach := (Reachable.family_in_reach (leads_of_replay hr) rfl (mem_of_find? ht)
    (mem_of_find? hn) hfamily hopen).1 3
  rw [htname, hnname] at hreach
  exact ⟨r, t, n, hr, ht, hn, hprivate, hreach⟩

/-- A private type that is not nested, with a method that makes an instance of it. -/
def secluded : List Operation :=
  [.register "a.T" (allocating "a.T" Access.isPrivate "a.T").encode]

set_option maxRecDepth 100000 in
/-- A private type that is not nested is not promoted: its own executor unit may not access it, and its
own method cannot make an instance of it. -/
theorem not_in_reach_secluded :
    ∃ r t e s', (Registry.create .default).replay secluded = some r ∧ Reachable .default r ∧
      RegistryConfig.default.promote = true ∧ t ∈ r.types ∧ t.InFamily t "" ∧
      Access.allows (executorName t.name 0) t.name t.loadedUnit.access = false ∧
      t.table.find? "make()V" = some e ∧
      Machine.step ⟨r, 256⟩ e ⟨0, .new, .index 0⟩ ⟨⟨#[], [], 1⟩, .empty, 0⟩ =
        .error (.illegalAccess "a.T$$E0" "a.T") s' := by
  have hfacts : ((Registry.create .default).replay secluded).any (fun r =>
      (r.find? "a.T").any fun t => (t.table.find? "make()V").any fun e =>
        !Access.allows (executorName t.name 0) t.name t.loadedUnit.access &&
          match Machine.step ⟨r, 256⟩ e ⟨0, .new, .index 0⟩ ⟨⟨#[], [], 1⟩, .empty, 0⟩ with
          | .error cause _ => decide (cause = .illegalAccess "a.T$$E0" "a.T")
          | .ok _ _ => false) = true := by
    decide +kernel
  obtain ⟨r, hr, hfacts⟩ := (Option.any_eq_true _ _).mp hfacts
  obtain ⟨t, ht, hfacts⟩ := (Option.any_eq_true _ _).mp hfacts
  obtain ⟨e, he, hfacts⟩ := (Option.any_eq_true _ _).mp hfacts
  obtain ⟨hrefused, hstep⟩ := Bool.and_eq_true_iff.mp hfacts
  split at hstep
  · next cause s' hrun =>
    obtain rfl := of_decide_eq_true hstep
    exact ⟨r, t, e, s', hr, leads_of_replay hr, rfl, mem_of_find? ht,
      ⟨String.append_empty.symm, .inl rfl⟩, by simpa using hrefused, he, hrun⟩
  · cases hstep

end Registry

end LiveTypes
