import LiveTypes.Proofs.Machine.Alike
import LiveTypes.Proofs.Machine.Code
import LiveTypes.Proofs.Registry.Repetition
import LiveTypes.Proofs.TypeName

/-!
# Running code with a repeated version

All code does the same in a registry with a repeated version as in the one without it, except in two
cases. The bodies that the repetition leaves in place carry the number of the version before, so they do
not find the slots that a site was given under the number of the repetition. And a type that is named as
if it belonged to an executor unit may be open to the unit with one number and not to that with another.
Where neither is the case, the registries are alike (`Shifted.alike`).
-/

namespace LiveTypes

/-! ### Executor units -/

/-- Whether a type is named as if it were an executor unit of another one, or nested in one. -/
def TypeName.InExecutor (name target : String) : Prop := (name ++ "$$E").toList <+: target.toList

instance (name target : String) : Decidable (TypeName.InExecutor name target) := by
  unfold TypeName.InExecutor
  infer_instance

/-- Every executor unit of a type reaches the same types. -/
lemma Access.allows_executorName {name target : String} (h : ¬ TypeName.InExecutor name target)
    (version version' : Nat) (access : UInt32) :
    Access.allows (executorName name version) target access =
      Access.allows (executorName name version') target access := by
  have hother (version : Nat) : executorName name version ≠ target := by
    rintro rfl
    refine h ⟨Nat.toDigits 10 version, ?_⟩
    rw [toList_executorName]
  have houter (version : Nat) : TypeName.isNestedIn target (executorName name version) = false := by
    unfold TypeName.isNestedIn
    have hnone : Text.dropStart? (executorName name version).toList target.toList = none := by
      rw [Text.dropStart?, Option.eq_none_iff_forall_ne_some]
      intro rest hrest
      have hprefix := List.append_eq_of_isPrefixOf?_eq_some hrest
      rw [toList_executorName, List.append_assoc] at hprefix
      exact h ⟨_, hprefix⟩
    rw [hnone]
  simp only [Access.allows, hother, houter, TypeName.package_executorName]

/-- One executor unit of a type may be named as a private type that the next one does not reach. -/
example : Access.allows (executorName "a.T" 1) "a.T$$E1" Access.isPrivate = true ∧
    Access.allows (executorName "a.T" 2) "a.T$$E1" Access.isPrivate = false := by
  decide

/-! ### Registries -/

/-- Whether code of a registry cannot tell that a version was repeated: the bodies that the repetition
left in place find every captured variable where bodies with the number of the repetition would, and no
type is named as if it belonged to an executor unit of the type. -/
structure Registry.Undisturbed (q : Repetition) (r : Registry) : Prop where
  slots : ∀ t, r.byId? q.id = some t → ∀ key e, t.table.find? key = some e →
    e.version + 1 = q.index → ∀ id s, r.sites.find? id = some s → ∀ position,
      s.slotAt? q.id q.index position = s.slotAt? q.id e.version position
  names : ∀ t, r.byId? q.id = some t → ∀ t' ∈ r.types, ¬ TypeName.InExecutor t.name t'.name

section Shifted

variable {q : Repetition} {r r' : Registry} {t t' : LiveType} {e e' : Executable}
  {config : RegistryConfig}

/-- A body that is the very same does the same when it finds captured variables in the same slots. -/
lemma Executable.alike_self (hbody : r.HasBody e)
    (hslots : ∀ i, e.Has i → i.opcode = .getCaptured → ∀ id s s', r.sites.find? id = some s →
      r'.sites.find? id = some s' → ∀ position,
        s'.slotAt? e.typeId e.version position = s.slotAt? e.typeId e.version position) :
    e.Alike r r' e :=
  ⟨hbody, rfl, .inl rfl, fun _ _ => rfl, hslots⟩

namespace Registry.Shifted

/-- A site with the repetition, given the site without it. -/
lemma site (h : r.Shifted q r') {id : SiteId} {s s' : CaptureSite}
    (hs : r.sites.find? id = some s) (hs' : r'.sites.find? id = some s') : s.Shifted q s' := by
  have hrel := h.sites id
  rw [hs, hs'] at hrel
  cases hrel with
  | some h => exact h

lemma mem (h : r.Shifted q r') (hr : r.WellFormed) (ht : t ∈ r.types) :
    ∃ t' ∈ r'.types, t.Shifted q t' := by
  have hrel := h.find? t.name
  rw [hr.find?_name ht] at hrel
  cases hrel' : r'.find? t.name with
  | none =>
    rw [hrel'] at hrel
    cases hrel
  | some t' =>
    rw [hrel'] at hrel
    cases hrel with
    | some htt => exact ⟨t', mem_of_find? hrel', htt⟩

/-- A dispatcher reads no captured variable. -/
lemma alike_dispatcher (hreachable : Reachable config r) (hverify : config.verify = true)
    (ht : t ∈ r.types) {key : String} (he : t.dispatchers.find? key = some e) :
    e.Alike r r' e := by
  refine Executable.alike_self ⟨t, ht, key, .inr he⟩ fun i hi hop => ?_
  rcases hreachable.opcode_of_dispatcher hverify ht he hi with hop' | hop' | hop' | hop' <;>
  · rw [hop] at hop'
    cases hop'

/-- A body of the type whose version was repeated does the same with the repetition. -/
lemma alike_repeated (h : r.Shifted q r') (hr : r.WellFormed) (hundisturbed : r'.Undisturbed q)
    (ht : t ∈ r.types) (hid : t.id = q.id) (ht' : r'.byId? q.id = some t') (hname : t'.name = t.name)
    {key : String} (he : t.table.find? key = some e) (he' : t'.table.find? key = some e')
    (hee : e.Shifted q t.name e') : e.Alike r r' e' := by
  have hbody : r.HasBody e := ⟨t, ht, key, .inl he⟩
  have htypeId : e.typeId = q.id := by
    obtain ⟨version, -, hbodies⟩ := (hr.types t ht).bodies
    exact (hbodies key e he).1.trans hid
  rcases hee with ⟨hlt, rfl⟩ | ⟨hle, hunit, rfl⟩
  · refine Executable.alike_self hbody fun i hi hop id s s' hs hs' position => ?_
    have hsite := h.site hs hs'
    rw [htypeId]
    rcases Nat.lt_or_eq_of_le (Nat.succ_le_of_lt hlt) with hlt | heq
    · exact hsite.slotAt?_of_lt hlt position
    · -- the body found what was bound since under its own number, and finds it no more
      have hmoved := hundisturbed.slots t' ht' key e' he' heq id s' hs' position
      rw [← hmoved, ← heq]
      exact hsite.slotAt?_of_le (Nat.le_of_eq heq.symm) position
  · refine ⟨hbody, rfl, .inr ⟨t.name, e.version, e.version + 1, hunit, rfl⟩, fun t₂ ht₂ => ?_,
      fun i hi hop id s s' hs hs' position => ?_⟩
    · obtain ⟨t₂', ht₂', htt₂⟩ := h.mem hr ht₂
      have hnames := hundisturbed.names t' ht' t₂' ht₂'
      rw [htt₂.name_eq, hname] at hnames
      rw [hunit]
      exact Access.allows_executorName hnames _ _ _
    · rw [htypeId]
      exact (h.site hs hs').slotAt?_of_le (Nat.le_succ_of_le hle) position

lemma alike_type (h : r.Shifted q r') (hreachable : Reachable config r)
    (hverify : config.verify = true) (hr' : r'.WellFormed) (hundisturbed : r'.Undisturbed q) (ht : t ∈ r.types)
    (ht' : t' ∈ r'.types) (htt : t.Shifted q t') : t.Alike r r' t' where
  mem := ht
  same := htt.same
  bodies key := by
    have hr := hreachable.wellFormed hverify
    have hid_eq := htt.id_eq
    rcases htt with ⟨hid, rfl⟩ | ⟨hid, hrepeated⟩
    · cases he : t'.table.find? key with
      | none => exact .none
      | some e =>
        refine .some (Executable.alike_self ⟨t', ht, key, .inl he⟩ ?_)
        intro i hi hop id s s' hs hs' position
        obtain ⟨version, -, hbodies⟩ := (hr.types t' ht).bodies
        have htypeId := (hbodies key e he).1
        exact (h.site hs hs').slotAt?_of_ne (htypeId ▸ hid) e.version position
    · have hfound : r'.byId? q.id = some t' := by
        rw [← hid, ← hid_eq]
        exact hr'.byId?_id ht'
      rcases Outcome.rel_cases (hrepeated.bodies key) with ⟨hnone, hnone'⟩ | ⟨e, e', he, he', hee⟩
      · rw [hnone, hnone']
        exact .none
      · rw [he, he']
        refine .some (h.alike_repeated hr hundisturbed ht hid hfound ?_ he he' hee)
        rw [hrepeated.same]
  dispatchers key d hd := alike_dispatcher hreachable hverify ht hd

/-- A registry with a repeated version that code cannot tell is alike to the one without it. -/
theorem alike (h : r.Shifted q r') (hreachable : Reachable config r)
    (hverify : config.verify = true) (hr' : r'.WellFormed)
    (hundisturbed : r'.Undisturbed q) : r.Alike r' where
  byName name := by
    rcases Outcome.rel_cases (h.find? name) with ⟨hnone, hnone'⟩ | ⟨t, t', ht, ht', htt⟩
    · rw [hnone, hnone']
      exact .none
    · rw [ht, ht']
      exact .some (h.alike_type hreachable hverify hr' hundisturbed (mem_of_find? ht)
        (mem_of_find? ht') htt)
  byId id := by
    rcases Outcome.rel_cases (h.byId? id) with ⟨hnone, hnone'⟩ | ⟨t, t', ht, ht', htt⟩
    · rw [hnone, hnone']
      exact .none
    · rw [ht, ht']
      exact .some (h.alike_type hreachable hverify hr' hundisturbed (List.mem_of_getElem? ht)
        (List.mem_of_getElem? ht') htt)
  sites id := by
    rcases Outcome.rel_cases (h.sites id) with ⟨hnone, hnone'⟩ | ⟨s, s', hs, hs', hss⟩
    · rw [hnone, hnone']
      exact .none
    · rw [hs, hs']
      exact .some hss.same

end Registry.Shifted

/-- Nothing is disturbed before the next reload: no site was given a slot under the number of the
repetition yet. -/
theorem Registry.Reachable.undisturbed_reloadSame (h : Reachable config r)
    (hverify : config.verify = true) (ht : t ∈ r.types)
    (hnames : ∀ t' ∈ r.types, ¬ TypeName.InExecutor t.name t'.name) (label : String) :
    (r.replace (t.reloadSame label t.current.bytes t.current.unit)).Undisturbed
      ⟨t.id, t.versions.length, label⟩ where
  slots t₁ _ key e _ hversion id s hs position := by
    rw [← hversion]
    exact ((h.shifted_reloadSame hverify ht label).site hs hs).slotAt?_of_le
      (Nat.le_of_eq hversion.symm) position
  names t₁ ht₁ t₂ ht₂ := by
    have hr := h.wellFormed hverify
    have hname : t₁.name = t.name := by
      have hrel := (h.shifted_reloadSame hverify ht label).byId? t.id
      rw [hr.byId?_id ht, ht₁] at hrel
      cases hrel with
      | some htt => exact htt.name_eq
    have hid : (t.reloadSame label t.current.bytes t.current.unit).id = t.id := rfl
    rw [hname]
    rcases (hr.mem_replace ht hid).mp ht₂ with rfl | ⟨ht₂, -⟩
    · exact hnames t ht
    · exact hnames t₂ ht₂

end Shifted

end LiveTypes
