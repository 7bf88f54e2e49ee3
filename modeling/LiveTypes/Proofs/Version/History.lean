import LiveTypes.Proofs.AssocMap
import LiveTypes.Proofs.Outcome
import LiveTypes.Version.History

/-!
# What a history keeps

A history forgets nothing: what is recorded of a member stays recorded. A candidate that passes the
check agrees with everything recorded, and once it is recorded it passes for good.
-/

namespace LiveTypes.History

variable {h : History} {u w : TypeUnit}

/-- A unit all of whose members are recorded as they are. -/
structure Knows (h : History) (u : TypeUnit) : Prop where
  name_eq : u.name = h.name
  superName_eq : u.superName = h.superName
  closureHost_eq : u.isClosureHost = h.closureHost
  field : ∀ f ∈ u.fields, h.fieldTypes.find? f.name = some f.type
  method : ∀ m ∈ u.methods, h.methodKinds.find? m.key = some m.isStatic

lemma checkField_eq_ok {f : FieldDecl} :
    h.checkField f = .ok () ↔ ∀ old, h.fieldTypes.find? f.name = some old → old = f.type := by
  unfold checkField
  cases h.fieldTypes.find? f.name <;> simp

lemma checkMethod_eq_ok {m : MethodDecl} :
    h.checkMethod m = .ok () ↔
      ∀ old, h.methodKinds.find? m.key = some old → old = m.isStatic := by
  unfold checkMethod
  cases h.methodKinds.find? m.key <;> simp

lemma check_eq_ok :
    h.check u = .ok () ↔ u.name = h.name ∧ u.superName = h.superName ∧
      u.isClosureHost = h.closureHost ∧
      (∀ f ∈ u.fields, ∀ old, h.fieldTypes.find? f.name = some old → old = f.type) ∧
      ∀ m ∈ u.methods, ∀ old, h.methodKinds.find? m.key = some old → old = m.isStatic := by
  simp only [check, Outcome.guard_eq_ok, Outcome.bind_eq_ok, ne_eq, not_not, Outcome.exists_unit,
    Outcome.forM_eq_ok, checkField_eq_ok, checkMethod_eq_ok]

lemma Knows.check (hk : h.Knows u) : h.check u = .ok () := by
  refine check_eq_ok.mpr
    ⟨hk.name_eq, hk.superName_eq, hk.closureHost_eq, fun f hf old hold => ?_, fun m hm old hold => ?_⟩
  · rw [hk.field f hf] at hold
    exact (Option.some.inj hold).symm
  · rw [hk.method m hm] at hold
    exact (Option.some.inj hold).symm

/-- What is recorded stays recorded. -/
lemma Knows.record (hk : h.Knows u) (w : TypeUnit) : (h.record w).Knows u where
  name_eq := hk.name_eq
  superName_eq := hk.superName_eq
  closureHost_eq := hk.closureHost_eq
  field f hf := AssocMap.find?_addAll_of_find? (hk.field f hf)
  method m hm := AssocMap.find?_addAll_of_find? (hk.method m hm)

/-- A candidate that passes the check is known once it is recorded. -/
lemma knows_record (hcheck : h.check u = .ok ()) (hfields : (u.fields.map FieldDecl.name).Nodup)
    (hmethods : (u.methods.map MethodDecl.key).Nodup) : (h.record u).Knows u := by
  obtain ⟨hname, hsuper, hhost, hfield, hmethod⟩ := check_eq_ok.mp hcheck
  exact ⟨hname, hsuper, hhost,
    fun f hf => AssocMap.find?_addAll_of_mem hfields hf (hfield f hf),
    fun m hm => AssocMap.find?_addAll_of_mem hmethods hm (hmethod m hm)⟩

lemma knows_ofInitial (hfields : (u.fields.map FieldDecl.name).Nodup)
    (hmethods : (u.methods.map MethodDecl.key).Nodup) : (ofInitial u).Knows u :=
  knows_record (check_eq_ok.mpr ⟨rfl, rfl, rfl, by simp, by simp⟩) hfields hmethods

/-- The type of a field never changes. -/
lemma fieldTypes_record_of_find? {name : String} {t : TypeDescriptor}
    (hf : h.fieldTypes.find? name = some t) : (h.record u).fieldTypes.find? name = some t :=
  AssocMap.find?_addAll_of_find? hf

/-! ### Recording again -/

/-- A history with an entry for each member of a unit. -/
structure Covers (h : History) (u : TypeUnit) : Prop where
  field : ∀ f ∈ u.fields, h.fieldTypes.contains f.name = true
  method : ∀ m ∈ u.methods, h.methodKinds.contains m.key = true

lemma Knows.covers (hk : h.Knows u) : h.Covers u where
  field f hf := AssocMap.contains_eq_true.mpr ⟨_, hk.field f hf⟩
  method m hm := AssocMap.contains_eq_true.mpr ⟨_, hk.method m hm⟩

lemma covers_record (h : History) (u : TypeUnit) : (h.record u).Covers u :=
  ⟨fun _ => AssocMap.contains_addAll, fun _ => AssocMap.contains_addAll⟩

lemma Covers.record (hc : h.Covers u) (w : TypeUnit) : (h.record w).Covers u where
  field f hf := by
    obtain ⟨t, ht⟩ := AssocMap.contains_eq_true.mp (hc.field f hf)
    exact AssocMap.contains_eq_true.mpr ⟨t, AssocMap.find?_addAll_of_find? ht⟩
  method m hm := by
    obtain ⟨kind, hkind⟩ := AssocMap.contains_eq_true.mp (hc.method m hm)
    exact AssocMap.contains_eq_true.mpr ⟨kind, AssocMap.find?_addAll_of_find? hkind⟩

/-- Recording what has its entries adds nothing. -/
lemma Covers.record_eq (hc : h.Covers u) : h.record u = h := by
  have hfields : (h.record u).fieldTypes = h.fieldTypes := AssocMap.addAll_eq_self hc.field
  have hmethods : (h.record u).methodKinds = h.methodKinds := AssocMap.addAll_eq_self hc.method
  rw [show h.record u = { h with
    fieldTypes := (h.record u).fieldTypes, methodKinds := (h.record u).methodKinds } from rfl,
    hfields, hmethods]

end LiveTypes.History
