import LiveTypes.AssocMap
import Mathlib.Data.List.Forall2

/-!
# Lookups in maps made from lists

A map made from a list has only entries of the list. Entries that are added unless their key is
present leave every entry that was there before.
-/

namespace LiveTypes.AssocMap

variable {α κ ν : Type} [DecidableEq κ]

lemma mem_of_find?_ofList {l : List (κ × ν)} {k : κ} {v : ν} (h : (ofList l).find? k = some v) :
    (k, v) ∈ l := by
  suffices hfold : ∀ (l : List (κ × ν)) (m : AssocMap κ ν),
      (l.foldl (fun m e => m.insert e.1 e.2) m).find? k = some v →
        m.find? k = some v ∨ (k, v) ∈ l by
    simpa using hfold l empty h
  intro l
  induction l with
  | nil => exact fun m hm => .inl hm
  | cons e rest ih =>
    intro m hm
    rcases ih _ hm with hm | hm
    · rw [find?_insert] at hm
      split_ifs at hm with hk
      · obtain rfl := Option.some.inj hm
        exact .inr (hk ▸ List.mem_cons_self)
      · exact .inl hm
    · exact .inr (List.mem_cons_of_mem _ hm)

/-- Every key of the list has an entry. -/
lemma exists_find?_ofList {l : List (κ × ν)} {k : κ} {v : ν} (h : (k, v) ∈ l) :
    ∃ w, (ofList l).find? k = some w := by
  suffices hfold : ∀ (l : List (κ × ν)) (m : AssocMap κ ν), (k, v) ∈ l ∨ (∃ w, m.find? k = some w) →
      ∃ w, (l.foldl (fun m e => m.insert e.1 e.2) m).find? k = some w from hfold l empty (.inl h)
  intro l
  induction l with
  | nil =>
    rintro m (hl | hm)
    · cases hl
    · exact hm
  | cons e rest ih =>
    intro m hm
    refine ih _ ?_
    rw [find?_insert]
    split_ifs with hk
    · exact .inr ⟨e.2, rfl⟩
    · rcases hm with hl | hm
      · rcases List.mem_cons.mp hl with rfl | hl
        · exact absurd rfl hk
        · exact .inl hl
      · exact .inr hm

/-- Maps of lists that belong together have entries that belong together. -/
lemma rel_find?_ofList {ν' : Type} {R : ν → ν' → Prop} {l : List (κ × ν)} {l' : List (κ × ν')}
    (h : List.Forall₂ (fun e e' => e'.1 = e.1 ∧ R e.2 e'.2) l l') (k : κ) :
    Option.Rel R ((ofList l).find? k) ((ofList l').find? k) := by
  suffices hfold : ∀ (m : AssocMap κ ν) (m' : AssocMap κ ν'),
      Option.Rel R (m.find? k) (m'.find? k) →
        Option.Rel R ((l.foldl (fun m e => m.insert e.1 e.2) m).find? k)
          ((l'.foldl (fun m e => m.insert e.1 e.2) m').find? k) from hfold empty empty .none
  induction h with
  | nil => exact fun _ _ hm => hm
  | @cons e e' _ _ he _ ih =>
    intro m m' hm
    refine ih _ _ ?_
    rw [find?_insert, find?_insert, he.1]
    split
    · exact .some he.2
    · exact hm

/-- The entries of a map of a list that is made from another are made from those of the other. -/
lemma find?_ofList_map {β : Type} (key : β → κ) (value : β → ν) (l : List β) (k : κ) :
    (ofList (l.map fun b => (key b, value b))).find? k =
      ((ofList (l.map fun b => (key b, b))).find? k).map value := by
  suffices hfold : ∀ (l : List β) (m : AssocMap κ ν) (m' : AssocMap κ β),
      m.find? k = (m'.find? k).map value →
        ((l.map fun b => (key b, value b)).foldl (fun m e => m.insert e.1 e.2) m).find? k =
          (((l.map fun b => (key b, b)).foldl (fun m e => m.insert e.1 e.2) m').find? k).map value
    from hfold l empty empty rfl
  intro l
  induction l with
  | nil => exact fun _ _ hm => hm
  | cons b rest ih =>
    intro m m' hm
    refine ih _ _ ?_
    rw [find?_insert, find?_insert]
    split_ifs
    · rfl
    · exact hm

lemma contains_eq_true {m : AssocMap κ ν} {k : κ} : m.contains k = true ↔ ∃ v, m.find? k = some v :=
  Option.isSome_iff_exists

lemma mem_values_of_find? {m : AssocMap κ ν} {k : κ} {v : ν} (h : m.find? k = some v) :
    v ∈ m.values := by
  suffices hlist : ∀ l : List (κ × ν), lookup k l = some v → v ∈ l.map Prod.snd from hlist _ h
  intro l
  induction l with
  | nil => nofun
  | cons e rest ih =>
    obtain ⟨a, w⟩ := e
    intro h
    rw [lookup] at h
    split_ifs at h with ha
    · obtain rfl := Option.some.inj h
      exact List.mem_cons_self
    · exact List.mem_cons_of_mem w (ih h)

lemma mem_values_insert {m : AssocMap κ ν} {k : κ} {v w : ν} (h : w ∈ (m.insert k v).values) :
    w = v ∨ w ∈ m.values := by
  suffices hlist : ∀ l : List (κ × ν), w ∈ (put k v l).map Prod.snd → w = v ∨ w ∈ l.map Prod.snd
    from hlist _ h
  intro l
  induction l with
  | nil => simp [put]
  | cons e rest ih =>
    obtain ⟨a, w'⟩ := e
    intro h
    rw [put] at h
    split_ifs at h with ha
    · rcases List.mem_cons.mp h with rfl | h
      · exact .inl rfl
      · exact .inr (List.mem_cons_of_mem _ h)
    · rcases List.mem_cons.mp h with rfl | h
      · exact .inr List.mem_cons_self
      · exact (ih h).imp_right (List.mem_cons_of_mem _)

/-- The map after every member of a list was added, unless its key was present. -/
def addAll (m : AssocMap κ ν) (key : α → κ) (value : α → ν) (l : List α) : AssocMap κ ν :=
  l.foldl (fun m a => m.insertNew (key a) (value a)) m

variable {key : α → κ} {value : α → ν}

lemma find?_addAll_of_find? {l : List α} {m : AssocMap κ ν} {k : κ} {v : ν}
    (h : m.find? k = some v) : (m.addAll key value l).find? k = some v := by
  induction l generalizing m with
  | nil => exact h
  | cons a rest ih =>
    refine ih ?_
    rw [find?_insertNew]
    split_ifs with hk
    · simp [hk, h]
    · exact h

/-- An entry that is found was there before or is that of a member. -/
lemma find?_addAll_inv {l : List α} {m : AssocMap κ ν} {k : κ} {v : ν}
    (h : (m.addAll key value l).find? k = some v) :
    m.find? k = some v ∨ ∃ a ∈ l, key a = k ∧ value a = v := by
  induction l generalizing m with
  | nil => exact .inl h
  | cons a rest ih =>
    rcases ih h with hm | ⟨b, hb, hk⟩
    · rw [find?_insertNew] at hm
      split_ifs at hm with hk
      · subst hk
        cases hold : m.find? (key a) with
        | none => exact .inr ⟨a, List.mem_cons_self, rfl, by simpa [hold] using hm⟩
        | some w => exact .inl (by simpa [hold] using hm)
      · exact .inl hm
    · exact .inr ⟨b, List.mem_cons_of_mem _ hb, hk⟩

/-- A member of a list without two members of one key is found, if the map agrees with it. -/
lemma find?_addAll_of_mem {l : List α} {m : AssocMap κ ν} (hnodup : (l.map key).Nodup) {a : α}
    (ha : a ∈ l) (hold : ∀ v, m.find? (key a) = some v → v = value a) :
    (m.addAll key value l).find? (key a) = some (value a) := by
  induction l generalizing m with
  | nil => cases ha
  | cons b rest ih =>
    obtain ⟨hb, hrest⟩ := List.nodup_cons.mp hnodup
    rcases List.mem_cons.mp ha with rfl | ha
    · refine find?_addAll_of_find? (l := rest) ?_
      rw [find?_insertNew, if_pos rfl]
      cases h : m.find? (key a) with
      | none => rfl
      | some v => rw [hold v h]; rfl
    · refine ih hrest ha fun v hv => ?_
      have hne : key b ≠ key a := fun heq => hb (heq ▸ List.mem_map_of_mem ha)
      rw [find?_insertNew, if_neg hne] at hv
      exact hold v hv

/-- Every member has an entry in the end. -/
lemma contains_addAll {l : List α} {m : AssocMap κ ν} {a : α} (ha : a ∈ l) :
    (m.addAll key value l).contains (key a) = true := by
  induction l generalizing m with
  | nil => cases ha
  | cons b rest ih =>
    rcases List.mem_cons.mp ha with rfl | ha
    · obtain ⟨v, hv⟩ : ∃ v, (m.insertNew (key a) (value a)).find? (key a) = some v := by
        rw [find?_insertNew, if_pos rfl]
        cases m.find? (key a) <;> exact ⟨_, rfl⟩
      exact contains_eq_true.mpr ⟨v, find?_addAll_of_find? (l := rest) hv⟩
    · exact ih ha

/-- Entries that are all present are not added again. -/
lemma addAll_eq_self {l : List α} {m : AssocMap κ ν} (h : ∀ a ∈ l, m.contains (key a) = true) :
    m.addAll key value l = m := by
  induction l with
  | nil => rfl
  | cons a rest ih =>
    obtain ⟨ha, hrest⟩ := List.forall_mem_cons.mp h
    have hfirst : m.insertNew (key a) (value a) = m := if_pos ha
    show (m.insertNew (key a) (value a)).addAll key value rest = m
    rw [hfirst, ih hrest]

end LiveTypes.AssocMap
