import LiveTypes.Proofs.TypeUnit.Verify
import LiveTypes.Version.Layout
import Mathlib.Data.List.Nodup

/-!
# Slots of a layout

A slot that is found for a name carries that name, so two fields never share a slot. In the layout
that a verified version fixes no name comes twice, and so a slot is the one that is found for its
name.
-/

namespace LiveTypes.Layout

variable {l : Layout} {name name' : String} {k : Nat}

lemma getElem?_of_slotIn {fields : List (String × TypeDescriptor)}
    (h : slotIn name fields = some k) : ∃ type, fields[k]? = some (name, type) := by
  induction fields generalizing k with
  | nil => cases h
  | cons f rest ih =>
    obtain ⟨n, type⟩ := f
    rw [slotIn] at h
    cases hrest : slotIn name rest with
    | some i =>
      rw [hrest] at h
      obtain rfl := Option.some.inj h
      exact ih hrest
    | none =>
      rw [hrest] at h
      dsimp only at h
      split_ifs at h with hname
      obtain rfl := Option.some.inj h
      exact ⟨type, by simp [hname]⟩

lemma getElem?_of_slot? (h : l.slot? name = some k) :
    ∃ type, l.fields[k]? = some (name, type) :=
  getElem?_of_slotIn h

lemma slotName?_of_slot? (h : l.slot? name = some k) : l.slotName? k = some name := by
  obtain ⟨type, htype⟩ := getElem?_of_slot? h
  simp [slotName?, htype]

/-- Two fields never share a slot. -/
lemma slot?_inj (h : l.slot? name = some k) (h' : l.slot? name' = some k) : name = name' := by
  have hname := slotName?_of_slot? h
  rw [slotName?_of_slot? h'] at hname
  exact (Option.some.inj hname).symm

lemma lt_of_slot? (h : l.slot? name = some k) : k < l.size := by
  obtain ⟨type, htype⟩ := getElem?_of_slot? h
  exact (List.getElem?_eq_some_iff.mp htype).1

lemma exists_slotIn {fields : List (String × TypeDescriptor)} {type : TypeDescriptor}
    (h : (name, type) ∈ fields) : ∃ k, slotIn name fields = some k := by
  induction fields with
  | nil => cases h
  | cons f rest ih =>
    obtain ⟨n, t⟩ := f
    rw [slotIn]
    cases hrest : slotIn name rest with
    | some i => exact ⟨i + 1, rfl⟩
    | none =>
      rcases List.mem_cons.mp h with heq | hmem
      · exact ⟨0, if_pos (Prod.mk.inj heq).1.symm⟩
      · obtain ⟨i, hi⟩ := ih hmem
        rw [hrest] at hi
        cases hi

/-- When no name comes twice, a slot is the one that is found for its name. -/
lemma slot?_of_slotName? (hnodup : (l.fields.map Prod.fst).Nodup)
    (h : l.slotName? k = some name) : l.slot? name = some k := by
  obtain ⟨f, hf, rfl⟩ := Option.map_eq_some_iff.mp h
  obtain ⟨k', hk'⟩ := exists_slotIn (List.mem_of_getElem? hf)
  obtain ⟨type, htype⟩ := getElem?_of_slotIn hk'
  have hlt := (List.getElem?_eq_some_iff.mp hf).1
  have heq : k = k' := by
    have hk : (l.fields.map Prod.fst)[k]? = some f.1 := by rw [List.getElem?_map, hf]; rfl
    have hk' : (l.fields.map Prod.fst)[k']? = some f.1 := by rw [List.getElem?_map, htype]; rfl
    exact (List.getElem?_inj (by simpa using hlt) hnodup).mp (hk.trans hk'.symm)
  rw [slot?, hk', heq]

/-! ### The layout of a version -/

variable {u : TypeUnit}

lemma fields_ofUnit {f : String × TypeDescriptor} (h : f ∈ (ofUnit u).fields) :
    ∃ d ∈ u.fields, (d.name, d.type) = f := by
  unfold ofUnit at h
  split_ifs at h
  · cases h
  · obtain ⟨d, hd, rfl⟩ := List.mem_map.mp h
    exact ⟨d, (List.mem_filter.mp (List.mem_filter.mp hd).1).1, rfl⟩

lemma size_ofUnit_le (u : TypeUnit) : (ofUnit u).size ≤ u.fields.length := by
  unfold ofUnit
  split_ifs
  · exact Nat.zero_le _
  · rw [size, List.length_map]
    exact Nat.le_trans (List.length_filter_le _ _) (List.length_filter_le _ _)

/-- No name comes twice in the layout that a verified version fixes. -/
lemma nodup_ofUnit (hu : u.Verified) : ((ofUnit u).fields.map Prod.fst).Nodup := by
  unfold ofUnit
  split_ifs
  · exact List.nodup_nil
  · rw [List.map_map]
    refine List.Nodup.sublist ?_ hu.fields_nodup
    exact ((List.filter_sublist).trans (List.filter_sublist)).map _

end LiveTypes.Layout
