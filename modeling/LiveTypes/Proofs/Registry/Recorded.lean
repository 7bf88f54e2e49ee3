import LiveTypes.Proofs.Registry.Fields
import LiveTypes.Proofs.Registry.Placed
import LiveTypes.Proofs.Version.Compatible

/-!
# Histories of registered types

The history of a type is that of all its versions, in the order in which they were accepted. A reload
that gives the current version once more does not record it, and leaves the history that recording it
would give; so it does not show in the history which versions were given more than once.
-/

namespace LiveTypes

namespace LiveType

variable {t : LiveType} {verify : Bool} {label : String} {bytes : List UInt8} {u : TypeUnit}

def laterUnits (t : LiveType) : List TypeUnit := t.later.map Version.unit

/-- A type with the history of its versions, each of which passed the check. -/
structure Recorded (t : LiveType) : Prop where
  history_eq : t.history = .after t.initial.unit t.laterUnits
  accepted : History.Accepted t.initial.unit t.laterUnits

lemma units_eq (t : LiveType) : t.versions.map Version.unit = t.initial.unit :: t.laterUnits :=
  rfl

lemma laterUnits_reloadSame (t : LiveType) (label : String) (bytes : List UInt8) (u : TypeUnit) :
    (t.reloadSame label bytes u).laterUnits = t.laterUnits ++ [u] :=
  List.map_append

lemma laterUnits_reloadNew (t : LiveType) (label : String) (bytes : List UInt8) (u : TypeUnit)
    (redirected : RedirectedVersion) :
    (t.reloadNew label bytes u redirected).laterUnits = t.laterUnits ++ [u] :=
  List.map_append

lemma Kept.publish (ht : t.Kept verify) (v : Version) (table : ExecutorTable) (h : History)
    (hread : TypeUnit.admit v.bytes verify = .ok v.unit) (hdigest : v.summary.digest = digest v.bytes)
    (htable : table.version = t.versions.length) :
    Kept verify { t.publish v table with history := h } where
  admitted := List.forall_mem_append.mpr ⟨ht.admitted, List.forall_mem_singleton.mpr hread⟩
  digest_eq := List.forall_mem_append.mpr ⟨ht.digest_eq, List.forall_mem_singleton.mpr hdigest⟩
  published := by
    show table.version + 1 = (t.versions ++ [v]).length
    rw [htable, List.length_append, List.length_singleton]

/-- Recording any version once more adds nothing. -/
lemma Recorded.record_eq (ht : t.Recorded) {v : Version} (hv : v ∈ t.versions) :
    t.history.record v.unit = t.history := by
  have hmem : v.unit ∈ t.initial.unit :: t.laterUnits := units_eq t ▸ List.mem_map_of_mem hv
  rw [ht.history_eq]
  exact (History.covers_after t.initial.unit t.laterUnits v.unit hmem).record_eq

/-- The current version that is given once more is not recorded, and need not be. -/
lemma Recorded.reloadSame (ht : t.Recorded) (hkept : t.Kept verify)
    (haccepts : t.Accepts verify label bytes t.current.unit) :
    (t.reloadSame label bytes t.current.unit).Recorded where
  history_eq := by
    rw [laterUnits_reloadSame, History.after_concat]
    show t.history = (History.after t.initial.unit t.laterUnits).record t.current.unit
    rw [← ht.history_eq, ht.record_eq hkept.current_mem]
  accepted := by
    rw [laterUnits_reloadSame, History.accepted_concat]
    show History.Accepted t.initial.unit t.laterUnits ∧
      (History.after t.initial.unit t.laterUnits).check t.current.unit = .ok ()
    rw [← ht.history_eq]
    exact ⟨ht.accepted, haccepts.checked⟩

lemma Recorded.reloadNew (ht : t.Recorded) (haccepts : t.Accepts verify label bytes u)
    (redirected : RedirectedVersion) : (t.reloadNew label bytes u redirected).Recorded where
  history_eq := by
    rw [laterUnits_reloadNew, History.after_concat]
    exact congrArg (·.record u) ht.history_eq
  accepted := by
    rw [laterUnits_reloadNew, History.accepted_concat]
    show History.Accepted t.initial.unit t.laterUnits ∧
      (History.after t.initial.unit t.laterUnits).check u = .ok ()
    rw [← ht.history_eq]
    exact ⟨ht.accepted, haccepts.checked⟩

lemma Created.recorded {r : Registry} {redirected : RedirectedVersion}
    (h : t.Created r u bytes redirected) : t.Recorded where
  history_eq := by
    rw [h.history_eq, laterUnits, h.later_eq, h.initial_eq]
    rfl
  accepted := by
    rw [laterUnits, h.later_eq]
    exact History.accepted_nil _

lemma Created.kept {r : Registry} {redirected : RedirectedVersion}
    (h : t.Created r u bytes redirected) (hread : TypeUnit.admit bytes verify = .ok u) :
    t.Kept verify := by
  have hversions : t.versions = [t.initial] := by rw [versions, h.later_eq]
  refine ⟨?_, ?_, ?_⟩ <;> rw [hversions]
  · rw [List.forall_mem_singleton, h.initial_eq]
    exact hread
  · rw [List.forall_mem_singleton, h.initial_eq]
    rfl
  · rw [h.table_eq]
    rfl

end LiveType

namespace Registry

variable {r : Registry} {config : RegistryConfig} {t : LiveType} {first : TypeUnit}
  {later : List TypeUnit}

/-- Every type of every registry, verified or not, has the history of its versions, unless the digests
of two of them collide. -/
theorem Reachable.recorded (h : Reachable config r) :
    ∀ t ∈ r.types, t.Kept config.verify ∧ (t.Collides ∨ t.Recorded) := by
  refine h.forall_types ?_ ?_ ?_
  · intro r u bytes t redirected _ hread hcreated
    exact ⟨hcreated.kept hread, .inr hcreated.recorded⟩
  · rintro t label bytes u ⟨hkept, hold⟩ haccepts hcurrent
    refine ⟨hkept.publish _ _ _ haccepts.admitted rfl rfl, ?_⟩
    by_cases hcollides : (t.reloadSame label bytes u).Collides
    · exact .inl hcollides
    · obtain ⟨-, rfl⟩ := hkept.eq_current haccepts hcurrent hcollides
      rcases hold with hold | hold
      · exact absurd (hold.continues (.reloadSame t label bytes _)) hcollides
      · exact .inr (hold.reloadSame hkept haccepts)
  · rintro r t label bytes u redirected ⟨hkept, hold⟩ haccepts _
    refine ⟨hkept.publish (t.nextVersion label bytes u redirected.executor.encode)
      (.ofUnit redirected.executor t.id t.name t.versions.length label) _ haccepts.admitted rfl rfl,
      ?_⟩
    rcases hold with hold | hold
    · exact .inl (hold.continues (.reloadNew t label bytes u redirected))
    · exact .inr (hold.reloadNew haccepts redirected)

/-- What a reload with the bytes of the current version makes of the type: the history is the one before,
which is also that with the version recorded. -/
structure GivenAgain (t t' : LiveType) : Prop where
  versions_eq : ∃ v, t'.versions = t.versions ++ [v] ∧ v.bytes = t.current.bytes ∧
    t'.history = t.history.record v.unit
  history_eq : t'.history = t.history

lemma Reachable.givenAgain (h : Reachable config r) {name label : String} (hfind : r.find? name = some t)
    (hrecorded : t.Recorded) {r' : Registry}
    (hreload : r.reload name label t.current.bytes = .ok r') :
    ∃ t', r'.byId? t.id = some t' ∧ GivenAgain t t' := by
  have ht : t ∈ r.types := List.mem_of_find?_eq_some hfind
  obtain rfl : r.config = config := h.config_eq
  have hkept := (h.recorded t ht).1
  obtain ⟨q, u, hfindq, haccepts, hcases⟩ := reload_cases hreload
  obtain rfl : t = q := Option.some.inj (hfind.symm.trans hfindq)
  have hcurrent : t.isCurrent t.current.bytes = true := by
    rw [LiveType.isCurrent, decide_eq_true_eq, hkept.digest_eq _ hkept.current_mem]
  rcases hcases with ⟨-, rfl⟩ | ⟨hother, -⟩
  · have hu : u = t.current.unit := by
      have hread := haccepts.admitted
      rw [hkept.admitted _ hkept.current_mem] at hread
      exact (Except.ok.inj hread).symm
    refine ⟨t.reloadSame label t.current.bytes u, ?_, ⟨_, rfl, rfl, ?_⟩, rfl⟩
    · have hlt : t.id < r.types.length := (List.getElem?_eq_some_iff.mp (h.placed.getElem?_id ht)).1
      exact List.getElem?_set_self hlt
    · show t.history = t.history.record u
      rw [hu, hrecorded.record_eq hkept.current_mem]
  · rw [hcurrent] at hother
    cases hother

/-- The check against the history of units that were accepted in turn is that against each of them, and
the units are compatible with each other. A type whose versions have these units has this history,
whichever of them were given once more in turn and so not recorded. -/
theorem check_iff_compatible (hdistinct : ∀ u ∈ first :: later, u.Distinct)
    (haccepted : History.Accepted first later) :
    (∀ u, (History.after first later).check u = .ok () ↔ ∀ w ∈ first :: later, u.Compatible w) ∧
      (∀ u ∈ first :: later, ∀ w ∈ first :: later, u.Compatible w) ∧
      ∀ config r name t, Reachable config r → r.find? name = some t → ¬ t.Collides →
        t.versions.map Version.unit = first :: later → t.history = .after first later ∧
          ∀ label r', r.reload name label t.current.bytes = .ok r' →
            ∃ t', r'.byId? t.id = some t' ∧ GivenAgain t t' := by
  refine ⟨History.check_after_eq_ok hdistinct haccepted,
    History.compatible_of_accepted hdistinct haccepted, ?_⟩
  intro config r name t h hfind hfree hunits
  have hrecorded := (h.recorded t (List.mem_of_find?_eq_some hfind)).2.resolve_left hfree
  rw [LiveType.units_eq, List.cons.injEq] at hunits
  obtain ⟨rfl, rfl⟩ := hunits
  exact ⟨hrecorded.history_eq, fun label r' hreload => h.givenAgain hfind hrecorded hreload⟩

def withFields (fields : List FieldDecl) : TypeUnit where
  formatFlags := 0
  name := "a.P"
  superName := none
  access := Access.isPublic
  constants := .empty
  fields := fields
  methods := []
  attributes := []

/-- A field that one version had and the next has not cannot come back with another type. -/
theorem check_iff_compatible_returned :
    (∀ u ∈ [withFields [⟨"x", .i32, 0⟩], withFields [⟨"tag", .str, 0⟩],
        withFields [⟨"x", .i32, 0⟩]], u.Distinct) ∧
      History.Accepted (withFields [⟨"x", .i32, 0⟩])
        [withFields [⟨"tag", .str, 0⟩], withFields [⟨"x", .i32, 0⟩]] ∧
      (withFields [⟨"x", .i32, 0⟩]).Compatible (withFields [⟨"tag", .str, 0⟩]) ∧
      (History.after (withFields [⟨"x", .i32, 0⟩]) [withFields [⟨"tag", .str, 0⟩],
        withFields [⟨"x", .i32, 0⟩]]).check (withFields [⟨"tag", .i32, 0⟩]) ≠ .ok () := by
  have hdistinct : ∀ u ∈ [withFields [⟨"x", .i32, 0⟩], withFields [⟨"tag", .str, 0⟩],
      withFields [⟨"x", .i32, 0⟩]], u.Distinct := by
    intro u hu
    simp only [List.mem_cons, List.not_mem_nil, or_false] at hu
    rcases hu with rfl | rfl | rfl <;> exact ⟨by simp [withFields], by simp [withFields]⟩
  have haccepted : History.Accepted (withFields [⟨"x", .i32, 0⟩])
      [withFields [⟨"tag", .str, 0⟩], withFields [⟨"x", .i32, 0⟩]] := by
    refine (@History.accepted_concat _ _ [_]).mpr
      ⟨(@History.accepted_concat _ _ []).mpr ⟨History.accepted_nil _, ?_⟩, ?_⟩ <;> rfl
  obtain ⟨hcheck, hcompatible, -⟩ := check_iff_compatible hdistinct haccepted
  refine ⟨hdistinct, haccepted, hcompatible _ (by simp) _ (by simp), fun hok => ?_⟩
  have htag := ((hcheck _).mp hok (withFields [⟨"tag", .str, 0⟩]) (by simp)).field
    ⟨"tag", .i32, 0⟩ (by simp [withFields]) ⟨"tag", .str, 0⟩ (by simp [withFields]) rfl
  cases htag

end Registry

end LiveTypes
