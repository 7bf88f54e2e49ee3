import LiveTypes.Proofs.Version.History
import Mathlib.Data.List.Induction

/-!
# Histories and compatible units

A history keeps the first declaration of every member. When each unit passed the check before it was
recorded, all declarations of a member agree, and the first stands for every other. So a candidate passes
the check just when it is compatible with each of the units, however often members came and went.
-/

namespace LiveTypes

/-- Whether the fields of a unit have names of their own, and its methods keys of their own. -/
structure TypeUnit.Distinct (u : TypeUnit) : Prop where
  fields : (u.fields.map FieldDecl.name).Nodup
  methods : (u.methods.map MethodDecl.key).Nodup

/-- Whether two units can be versions of one type: the members that they both have are alike. -/
structure TypeUnit.Compatible (u w : TypeUnit) : Prop where
  name_eq : u.name = w.name
  superName_eq : u.superName = w.superName
  closureHost_eq : u.isClosureHost = w.isClosureHost
  field : ∀ f ∈ u.fields, ∀ g ∈ w.fields, f.name = g.name → f.type = g.type
  method : ∀ m ∈ u.methods, ∀ d ∈ w.methods, m.key = d.key → m.isStatic = d.isStatic

namespace History

variable {h : History} {first u w : TypeUnit} {later units : List TypeUnit}

/-- The history of a first unit and of those that were recorded after it. -/
def after (first : TypeUnit) (later : List TypeUnit) : History :=
  later.foldl record (ofInitial first)

/-- Whether each unit passed the check before it was recorded. -/
def Accepted (first : TypeUnit) (later : List TypeUnit) : Prop :=
  ∀ earlier u rest, later = earlier ++ u :: rest → (after first earlier).check u = .ok ()

lemma after_concat (first u : TypeUnit) (later : List TypeUnit) :
    after first (later ++ [u]) = (after first later).record u := by
  simp only [after, List.foldl_append, List.foldl_cons, List.foldl_nil]

lemma accepted_nil (first : TypeUnit) : Accepted first [] := by
  intro earlier u rest h
  simp at h

lemma accepted_concat :
    Accepted first (later ++ [u]) ↔ Accepted first later ∧ (after first later).check u = .ok () := by
  constructor
  · intro h
    refine ⟨fun earlier w rest hsplit => ?_, h later u [] rfl⟩
    exact h earlier w (rest ++ [u]) (by rw [hsplit, List.append_assoc, List.cons_append])
  · rintro ⟨hold, hcheck⟩ earlier w rest hsplit
    rcases List.eq_nil_or_concat' rest with rfl | ⟨rest', w', rfl⟩
    · obtain ⟨rfl, hw⟩ := List.append_inj' hsplit rfl
      obtain rfl := (List.cons.inj hw).1
      exact hcheck
    · have hsplit' : later ++ [u] = (earlier ++ w :: rest') ++ [w'] := by simpa using hsplit
      exact hold earlier w rest' (List.append_inj' hsplit' rfl).1

/-! ### Entries of a history -/

/-- A history without an entry that none of the units declares. -/
structure Declared (h : History) (units : List TypeUnit) : Prop where
  field : ∀ name t, h.fieldTypes.find? name = some t →
    ∃ u ∈ units, ∃ f ∈ u.fields, f.name = name ∧ f.type = t
  method : ∀ key kind, h.methodKinds.find? key = some kind →
    ∃ u ∈ units, ∃ m ∈ u.methods, m.key = key ∧ m.isStatic = kind

lemma Declared.record (hd : h.Declared units) (u : TypeUnit) :
    (h.record u).Declared (units ++ [u]) where
  field name t ht := by
    rcases AssocMap.find?_addAll_inv ht with hold | hnew
    · obtain ⟨w, hw, hf⟩ := hd.field name t hold
      exact ⟨w, List.mem_append_left _ hw, hf⟩
    · exact ⟨u, List.mem_append_right _ List.mem_cons_self, hnew⟩
  method key kind hkind := by
    rcases AssocMap.find?_addAll_inv hkind with hold | hnew
    · obtain ⟨w, hw, hm⟩ := hd.method key kind hold
      exact ⟨w, List.mem_append_left _ hw, hm⟩
    · exact ⟨u, List.mem_append_right _ List.mem_cons_self, hnew⟩

lemma declared_after (first : TypeUnit) (later : List TypeUnit) :
    (after first later).Declared (first :: later) := by
  induction later using List.reverseRecOn with
  | nil =>
    have hnone : (⟨first.name, first.superName, first.isClosureHost, .empty, .empty⟩ :
        History).Declared [] := ⟨by simp, by simp⟩
    exact hnone.record first
  | append_singleton later u ih =>
    rw [after_concat]
    exact ih.record u

/-- Every member of every unit has an entry. -/
lemma covers_after (first : TypeUnit) (later : List TypeUnit) :
    ∀ u ∈ first :: later, (after first later).Covers u := by
  induction later using List.reverseRecOn with
  | nil => exact List.forall_mem_singleton.mpr (covers_record _ first)
  | append_singleton later u ih =>
    rw [after_concat, ← List.cons_append, List.forall_mem_append, List.forall_mem_singleton]
    exact ⟨fun w hw => (ih w hw).record u, covers_record _ u⟩

/-- Every member of every unit has its own declaration as its entry. -/
lemma knows_after (hdistinct : ∀ u ∈ first :: later, u.Distinct) (haccepted : Accepted first later) :
    ∀ u ∈ first :: later, (after first later).Knows u := by
  induction later using List.reverseRecOn with
  | nil =>
    have hfirst := hdistinct first List.mem_cons_self
    exact List.forall_mem_singleton.mpr (knows_ofInitial hfirst.fields hfirst.methods)
  | append_singleton later u ih =>
    rw [← List.cons_append, List.forall_mem_append, List.forall_mem_singleton] at hdistinct
    obtain ⟨hold, hcheck⟩ := accepted_concat.mp haccepted
    rw [after_concat, ← List.cons_append, List.forall_mem_append, List.forall_mem_singleton]
    exact ⟨fun w hw => (ih hdistinct.1 hold w hw).record u,
      knows_record hcheck hdistinct.2.fields hdistinct.2.methods⟩

/-! ### The check -/

/-- A candidate that passes the check is compatible with every unit that is known. -/
lemma Knows.compatible (hk : h.Knows w) (hcheck : h.check u = .ok ()) : u.Compatible w := by
  obtain ⟨hname, hsuper, hhost, hfield, hmethod⟩ := check_eq_ok.mp hcheck
  refine ⟨hname.trans hk.name_eq.symm, hsuper.trans hk.superName_eq.symm,
    hhost.trans hk.closureHost_eq.symm, fun f hf g hg hfg => ?_, fun m hm d hd hmd => ?_⟩
  · exact (hfield f hf g.type (hfg ▸ hk.field g hg)).symm
  · exact (hmethod m hm d.isStatic (hmd ▸ hk.method d hd)).symm

/-- A candidate that is compatible with every unit passes the check. -/
lemma Declared.check (hd : h.Declared units) (hknown : ∃ w ∈ units, h.Knows w)
    (hcompatible : ∀ w ∈ units, u.Compatible w) : h.check u = .ok () := by
  obtain ⟨w, hw, hk⟩ := hknown
  have hcw := hcompatible w hw
  refine check_eq_ok.mpr ⟨hcw.name_eq.trans hk.name_eq, hcw.superName_eq.trans hk.superName_eq,
    hcw.closureHost_eq.trans hk.closureHost_eq, fun f hf old hold => ?_, fun m hm old hold => ?_⟩
  · obtain ⟨w, hw, g, hg, hname, rfl⟩ := hd.field f.name old hold
    exact ((hcompatible w hw).field f hf g hg hname.symm).symm
  · obtain ⟨w, hw, d, hd, hkey, rfl⟩ := hd.method m.key old hold
    exact ((hcompatible w hw).method m hm d hd hkey.symm).symm

/-- The check against the history is that against every unit. -/
theorem check_after_eq_ok (hdistinct : ∀ u ∈ first :: later, u.Distinct)
    (haccepted : Accepted first later) (u : TypeUnit) :
    (after first later).check u = .ok () ↔ ∀ w ∈ first :: later, u.Compatible w := by
  have hknows := knows_after hdistinct haccepted
  constructor
  · intro hcheck w hw
    exact (hknows w hw).compatible hcheck
  · exact (declared_after first later).check
      ⟨first, List.mem_cons_self, hknows first List.mem_cons_self⟩

/-- The units are compatible with each other. -/
theorem compatible_of_accepted (hdistinct : ∀ u ∈ first :: later, u.Distinct)
    (haccepted : Accepted first later) :
    ∀ u ∈ first :: later, ∀ w ∈ first :: later, u.Compatible w := by
  intro u hu w hw
  have hknows := knows_after hdistinct haccepted
  exact (hknows w hw).compatible (hknows u hu).check

end History

end LiveTypes
