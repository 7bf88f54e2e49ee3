import LiveTypes.Proofs.Registry.Extends
import LiveTypes.Proofs.TypeUnit.Format
import LiveTypes.Proofs.Version.Layout
import LiveTypes.Registry.Field

/-!
# Fields of a type

A field has a place exactly when some version declares it, and never moves. The history knows every
field of every version, unless two versions with different bytes have one digest
(`Reachable.records`).
-/

namespace LiveTypes

namespace LiveType

variable {t : LiveType} {name name' : String} {type : TypeDescriptor} {place place' : FieldPlace}

lemma exists_fieldPlace? (h : t.fieldType? name = some type) :
    ∃ place, t.fieldPlace? name = some place := by
  unfold fieldPlace?
  split
  · exact ⟨_, rfl⟩
  · exact ⟨.extension type, by rw [h]; rfl⟩

lemma fieldPlace?_eq_slot {k : Nat} :
    t.fieldPlace? name = some (.slot k) ↔ t.layout.slot? name = some k := by
  unfold fieldPlace?
  split
  · next slot hslot => simp [hslot]
  · next hslot => simp [hslot]

lemma fieldPlace?_eq_extension :
    t.fieldPlace? name = some (.extension type) ↔
      t.layout.slot? name = none ∧ t.fieldType? name = some type := by
  unfold fieldPlace?
  split
  · next slot hslot => simp [hslot]
  · next hslot => simp [hslot]

/-- The history knows the types of the slots. -/
lemma WellFormed.fieldType?_of_slot? (ht : t.WellFormed) {k : Nat}
    (h : t.layout.slot? name = some k) :
    ∃ type, t.fieldType? name = some type ∧ t.layout.slotType? k = some type := by
  obtain ⟨type, htype⟩ := Layout.getElem?_of_slot? h
  obtain ⟨f, hf, heq⟩ := Layout.fields_ofUnit (ht.layout_eq ▸ List.mem_of_getElem? htype)
  obtain ⟨rfl, rfl⟩ := Prod.mk.inj heq
  exact ⟨f.type, ht.initial_known.field f hf, by simp [Layout.slotType?, htype]⟩

/-- A field that has a place is one that a version declares. -/
lemma WellFormed.fieldType?_of_place (ht : t.WellFormed) (h : t.fieldPlace? name = some place) :
    ∃ type, t.fieldType? name = some type := by
  cases place with
  | slot k =>
    obtain ⟨type, htype, -⟩ := ht.fieldType?_of_slot? (fieldPlace?_eq_slot.mp h)
    exact ⟨type, htype⟩
  | extension type => exact ⟨type, (fieldPlace?_eq_extension.mp h).2⟩

/-- The names of the slots are distinct. -/
lemma WellFormed.slot?_of_slotName? (ht : t.WellFormed) {k : Nat}
    (h : t.layout.slotName? k = some name) : t.layout.slot? name = some k := by
  have hinitial := ht.genuine t.initial List.mem_cons_self
  refine Layout.slot?_of_slotName? ?_ h
  rw [ht.layout_eq]
  exact Layout.nodup_ofUnit hinitial.verified

/-- Slots are counted by 32-bit numbers. -/
lemma WellFormed.toNat_slot (ht : t.WellFormed) {k : Nat} (h : t.layout.slot? name = some k) :
    (UInt32.ofNat k).toNat = k := by
  have hinitial := (ht.genuine t.initial List.mem_cons_self).admitted
  have hbounded := TypeUnit.bounded_of_decode (TypeUnit.admit_eq_ok.mp hinitial).1
  have hlt := Layout.lt_of_slot? h
  rw [ht.layout_eq] at hlt
  have hle := Layout.size_ofUnit_le t.initial.unit
  have hlength := hbounded.fields_length
  exact UInt32.toNat_ofNat_of_lt' (by omega)

/-! ### Types of fields -/

/-- No version declares a field of type void. -/
lemma WellFormed.ne_void (ht : t.WellFormed) {v : Version} (hv : v ∈ t.versions) :
    ∀ f ∈ v.unit.fields, f.type ≠ .void :=
  TypeUnit.fields_ne_void_of_decode (TypeUnit.admit_eq_ok.mp (ht.genuine v hv).admitted).1

lemma WellFormed.fieldType?_ne_void (ht : t.WellFormed) (h : t.fieldType? name = some type) :
    type ≠ .void := by
  obtain ⟨v, hv, f, hf, -, rfl⟩ := ht.declared name type h
  exact ht.ne_void hv f hf

lemma WellFormed.slotType?_ne_void (ht : t.WellFormed) {k : Nat}
    (h : t.layout.slotType? k = some type) : type ≠ .void := by
  obtain ⟨field, hfield, rfl⟩ := Option.map_eq_some_iff.mp h
  obtain ⟨f, hf, rfl⟩ := Layout.fields_ofUnit (ht.layout_eq ▸ List.mem_of_getElem? hfield)
  exact ht.ne_void List.mem_cons_self f hf

/-! ### Known fields -/

/-- Whether two versions of a type with different bytes have one digest. -/
def Collides (t : LiveType) : Prop :=
  ∃ v ∈ t.versions, ∃ w ∈ t.versions, digest v.bytes = digest w.bytes ∧ v.bytes ≠ w.bytes

/-- Whether the history knows the type of every field of every version. -/
def Records (t : LiveType) : Prop :=
  ∀ v ∈ t.versions, ∀ f ∈ v.unit.fields, t.fieldType? f.name = some f.type

lemma Collides.continues {t' : LiveType} (h : t.Collides) (hcontinues : t.Continues t') :
    t'.Collides := by
  obtain ⟨v, hv, w, hw, hdigest, hbytes⟩ := h
  have hsubset := hcontinues.versions_grow.subset
  exact ⟨v, hsubset hv, w, hsubset hw, hdigest, hbytes⟩

/-- A type, verified or not, whose versions are what their bytes say and whose newest version is
published. -/
structure Kept (verify : Bool) (t : LiveType) : Prop where
  admitted : ∀ v ∈ t.versions, TypeUnit.admit v.bytes verify = .ok v.unit
  digest_eq : ∀ v ∈ t.versions, v.summary.digest = digest v.bytes
  published : t.table.version + 1 = t.versions.length

lemma WellFormed.kept (ht : t.WellFormed) : t.Kept true where
  admitted v hv := (ht.genuine v hv).admitted
  digest_eq v hv := by
    rw [(ht.genuine v hv).summary_eq]
    rfl
  published := ht.published

lemma Kept.current_mem {verify : Bool} (ht : t.Kept verify) : t.current ∈ t.versions :=
  List.mem_of_getElem? (getLast_current ht.published)

/-- Bytes with the digest of the current version are those of the current version. -/
lemma Kept.eq_current {verify : Bool} (ht : t.Kept verify) {label : String} {bytes : List UInt8}
    {u : TypeUnit} (haccepts : t.Accepts verify label bytes u) (hcurrent : t.isCurrent bytes = true)
    (hfree : ¬ (t.reloadSame label bytes u).Collides) :
    bytes = t.current.bytes ∧ u = t.current.unit := by
  have hdigest : digest bytes = digest t.current.bytes := by
    rw [isCurrent, decide_eq_true_eq, ht.digest_eq _ ht.current_mem] at hcurrent
    exact hcurrent
  have hversions : (t.reloadSame label bytes u).versions =
      t.versions ++ [t.nextVersion label bytes u t.current.executorBytes] := rfl
  have hbytes : bytes = t.current.bytes := by
    by_contra hne
    refine hfree ⟨t.nextVersion label bytes u t.current.executorBytes, ?_, t.current, ?_, hdigest,
      hne⟩ <;> rw [hversions]
    · exact List.mem_append_right _ List.mem_cons_self
    · exact List.mem_append_left _ ht.current_mem
  refine ⟨hbytes, ?_⟩
  have hread := haccepts.admitted
  rw [hbytes, ht.admitted _ ht.current_mem] at hread
  exact (Except.ok.inj hread).symm

lemma WellFormed.eq_current (ht : t.WellFormed) {label : String} {bytes : List UInt8}
    {u : TypeUnit} (haccepts : t.Accepts true label bytes u) (hcurrent : t.isCurrent bytes = true)
    (hfree : ¬ (t.reloadSame label bytes u).Collides) :
    bytes = t.current.bytes ∧ u = t.current.unit :=
  ht.kept.eq_current haccepts hcurrent hfree

end LiveType

namespace Registry

variable {r : Registry} {config : RegistryConfig}

/-- The history of a type knows every member of every version, as long as no digests collide. -/
theorem Reachable.knows (h : Reachable config r) (hverify : config.verify = true) :
    ∀ t ∈ r.types, t.Collides ∨ ∀ v ∈ t.versions, t.history.Knows v.unit := by
  refine h.types_invariant hverify ?_ ?_ ?_
  · intro r u bytes t redirected _ hread hcreated
    have hwell := hcreated.wellFormed hread
    refine .inr fun v hv => ?_
    rw [LiveType.versions, hcreated.later_eq] at hv
    obtain rfl := List.mem_singleton.mp hv
    exact hwell.initial_known
  · intro t label bytes u ht hold haccepts hcurrent
    by_cases hcollides : (t.reloadSame label bytes u).Collides
    · exact .inl hcollides
    · obtain ⟨-, rfl⟩ := ht.eq_current haccepts hcurrent hcollides
      rcases hold with hold | hold
      · exact absurd (hold.continues (.reloadSame t label bytes _)) hcollides
      · refine .inr fun v hv => ?_
        change v ∈ t.versions ++ [_] at hv
        rcases List.mem_append.mp hv with hv | hv
        · exact hold v hv
        · obtain rfl := List.mem_singleton.mp hv
          exact hold t.current ht.current_mem
  · intro r t label bytes u redirected _ hold haccepts _
    rcases hold with hold | hold
    · exact .inl (hold.continues (.reloadNew t label bytes u redirected))
    · refine .inr fun v hv => ?_
      change v ∈ t.versions ++ [_] at hv
      rcases List.mem_append.mp hv with hv | hv
      · exact (hold v hv).record u
      · obtain rfl := List.mem_singleton.mp hv
        have hu := TypeUnit.verified_of_admit haccepts.admitted
        exact History.knows_record haccepts.checked hu.fields_nodup hu.methods_nodup

/-- The history of a type knows the type of every field of every version. -/
theorem Reachable.records (h : Reachable config r) (hverify : config.verify = true) :
    ∀ t ∈ r.types, t.Collides ∨ t.Records :=
  fun t ht => (h.knows hverify t ht).imp_right fun hknows v hv f hf => (hknows v hv).field f hf

end Registry

end LiveTypes
