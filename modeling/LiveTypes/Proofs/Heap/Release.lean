import LiveTypes.Proofs.Heap.Sound
import Mathlib.Algebra.BigOperators.Group.Finset.Basic
import Mathlib.Algebra.Order.BigOperators.Group.Finset

/-!
# What a release leaves alone

The count of an object is the number of references to it from the roots and from the objects that are
still there (`Counted`). An object is let go when its count is 0, so none that the roots refer to,
directly or through others, ever is (`release_kept`).
-/

namespace LiveTypes.Heap

variable {r : Registry} {h h' : Heap} {roots : List Value} {id x : ObjectId} {counts : Array Nat}
  {free refs : List ObjectId} {live : Finset ObjectId}

/-- Whether the roots refer to an object, directly or through others. -/
inductive Kept (h : Heap) (roots : List Value) : ObjectId → Prop where
  | root {v : Value} {id : ObjectId} (mem : v ∈ roots) (refers : v.object? = some id) :
      Kept h roots id
  | held {id id' : ObjectId} (kept : Kept h roots id) (refers : id' ∈ h.references id) :
      Kept h roots id'

/-! ### Counting -/

lemma size_countIn (counts : Array Nat) (refs : List ObjectId) :
    (countIn counts refs).size = counts.size := by
  induction refs generalizing counts with
  | nil => rfl
  | cons id rest ih => exact (ih _).trans (Array.size_modify ..)

lemma getD_countIn (counts : Array Nat) (refs : List ObjectId) (hid : id < counts.size) :
    (countIn counts refs).getD id 0 = counts.getD id 0 + refs.count id := by
  induction refs generalizing counts with
  | nil => rfl
  | cons id' rest ih =>
    have hstep : (counts.modify id' (· + 1)).getD id 0 =
        counts.getD id 0 + if id' = id then 1 else 0 := by
      by_cases hsame : id' = id
      · subst hsame
        simp [Array.getD_eq_getD_getElem?, hid, Array.getElem_modify]
      · simp [Array.getD_eq_getD_getElem?, Array.getElem?_modify, hsame]
    refine (ih (counts.modify id' (· + 1)) (by simpa)).trans ?_
    rw [hstep, List.count_cons, Nat.add_assoc, Nat.add_comm (rest.count id)]
    simp

/-- The count of an object is the number of references to it. -/
lemma getD_counts (hid : id < h.objects.size) :
    (h.counts roots).getD id 0 = (roots.filterMap Value.object?).count id +
      ∑ x ∈ Finset.range h.objects.size, (h.references x).count id := by
  have hfold (n : Nat) (counts : Array Nat) (hsize : id < counts.size) :
      ((List.range n).foldl (fun counts x => countIn counts (h.references x)) counts).getD id 0 =
        counts.getD id 0 + ∑ x ∈ Finset.range n, (h.references x).count id ∧
      id < ((List.range n).foldl (fun counts x => countIn counts (h.references x)) counts).size := by
    induction n with
    | zero => exact ⟨rfl, hsize⟩
    | succ n ih =>
      rw [List.range_succ, List.foldl_append]
      obtain ⟨hcount, hlt⟩ := ih
      refine ⟨?_, by simpa [size_countIn] using hlt⟩
      rw [List.foldl_cons, List.foldl_nil, getD_countIn _ _ hlt, hcount, Finset.sum_range_succ,
        Nat.add_assoc]
  have hzero : id < (Array.replicate h.objects.size 0).size := by simpa
  rw [counts, (hfold _ _ (by rwa [size_countIn])).1, getD_countIn _ _ hzero]
  simp [Array.getD_eq_getD_getElem?, hid]

lemma size_counts : (h.counts roots).size = h.objects.size := by
  have hfold (l : List ObjectId) (counts : Array Nat) :
      (l.foldl (fun counts x => countIn counts (h.references x)) counts).size = counts.size := by
    induction l generalizing counts with
    | nil => rfl
    | cons x rest ih => exact (ih _).trans (size_countIn ..)
  rw [counts, hfold, size_countIn, Array.size_replicate]

/-- Uncounting takes references off their counts, and adds the objects whose counts become 0. -/
lemma uncount_spec (hle : ∀ id, refs.count id ≤ counts.getD id 0)
    (hzero : ∀ id ∈ free, counts.getD id 0 = 0) (hnodup : free.Nodup) :
    (∀ id, (uncount counts free refs).1.getD id 0 = counts.getD id 0 - refs.count id) ∧
      (∀ id ∈ (uncount counts free refs).2, (uncount counts free refs).1.getD id 0 = 0) ∧
      (∀ id ∈ (uncount counts free refs).2, id ∈ free ∨ id ∈ refs) ∧
      (uncount counts free refs).2.Nodup := by
  induction refs generalizing counts free with
  | nil => exact ⟨fun _ => rfl, hzero, fun _ hid => .inl hid, hnodup⟩
  | cons x rest ih =>
    have hpositive : 1 ≤ counts.getD x 0 := (by simp : 1 ≤ (x :: rest).count x).trans (hle x)
    have hset (id : ObjectId) : (counts.setIfInBounds x (counts.getD x 0 - 1)).getD id 0 =
        counts.getD id 0 - if x = id then 1 else 0 := by
      by_cases hsame : x = id
      · subst hsame
        have hlt : x < counts.size := by
          by_contra hout
          simp [Array.getD_eq_getD_getElem?, hout] at hpositive
        simp [Array.getD_eq_getD_getElem?, hlt]
      · simp [Array.getD_eq_getD_getElem?, Array.getElem?_setIfInBounds_ne hsame, hsame]
    have hnotfree : x ∉ free := fun hmem => by
      rw [hzero x hmem] at hpositive
      omega
    have hcount (id : ObjectId) :
        (x :: rest).count id = rest.count id + if x = id then 1 else 0 := by
      rw [List.count_cons]
      simp
    have hle' (id : ObjectId) :
        rest.count id ≤ (counts.setIfInBounds x (counts.getD x 0 - 1)).getD id 0 := by
      have hbefore := hle id
      rw [hcount] at hbefore
      rw [hset]
      omega
    have hzero' : ∀ id ∈ (if counts.getD x 0 - 1 = 0 then x :: free else free),
        (counts.setIfInBounds x (counts.getD x 0 - 1)).getD id 0 = 0 := by
      intro id hid
      rw [hset]
      split at hid
      · next hlast =>
        rcases List.mem_cons.mp hid with rfl | hid
        · simpa using hlast
        · rw [hzero id hid, Nat.zero_sub]
      · rw [hzero id hid, Nat.zero_sub]
    have hnodup' : (if counts.getD x 0 - 1 = 0 then x :: free else free).Nodup := by
      split
      · exact List.nodup_cons.mpr ⟨hnotfree, hnodup⟩
      · exact hnodup
    obtain ⟨hcounts, hzeros, hmem, hnodups⟩ := ih hle' hzero' hnodup'
    rw [uncount]
    refine ⟨fun id => ?_, hzeros, fun id hid => ?_, hnodups⟩
    · rw [hcounts, hset, hcount]
      omega
    · rcases hmem id hid with hold | hnew
      · split at hold
        · rcases List.mem_cons.mp hold with rfl | hold
          · exact .inr List.mem_cons_self
          · exact .inl hold
        · exact .inl hold
      · exact .inr (List.mem_cons_of_mem x hnew)

/-! ### Letting go -/

/-- A state of a release: what is still there, with the number of references to each object from the
roots and from what is still there. -/
structure Counted (start : Heap) (roots : List Value) (live : Finset ObjectId)
    (counts : Array Nat) (free : List ObjectId) (h : Heap) : Prop where
  count_eq : ∀ id, counts.getD id 0 = (roots.filterMap Value.object?).count id +
    ∑ x ∈ live, (start.references x).count id
  closed : ∀ id ∈ live, ∀ id' ∈ start.references id, id' ∈ live
  kept : ∀ id, Kept start roots id → id ∈ live
  references_eq : ∀ id ∈ live, h.references id = start.references id
  free_live : ∀ id ∈ free, id ∈ live
  free_zero : ∀ id ∈ free, counts.getD id 0 = 0
  free_nodup : free.Nodup

variable {start : Heap}

lemma Counted.pos_of_mem (hc : Counted start roots live counts free h) (hx : x ∈ live)
    (hid : id ∈ start.references x) : 0 < counts.getD id 0 := by
  rw [hc.count_eq]
  have hle := Finset.single_le_sum (f := fun x => (start.references x).count id)
    (fun _ _ => Nat.zero_le _) hx
  have hpos := List.count_pos_iff.mpr hid
  omega

/-- Nothing that the roots refer to has a count of 0. -/
lemma Counted.pos_of_kept (hc : Counted start roots live counts free h)
    (hkept : Kept start roots id) : 0 < counts.getD id 0 := by
  cases hkept with
  | @root v _ hmem hrefers =>
    rw [hc.count_eq]
    have hpos := List.count_pos_iff.mpr (List.mem_filterMap.mpr ⟨v, hmem, hrefers⟩)
    omega
  | @held x _ hx hrefers => exact hc.pos_of_mem (hc.kept x hx) hrefers

lemma Counted.not_kept (hc : Counted start roots live counts free h) (hx : x ∈ free) :
    ¬ Kept start roots x := by
  intro hkept
  have hpos := hc.pos_of_kept hkept
  rw [hc.free_zero x hx] at hpos
  exact absurd hpos (Nat.lt_irrefl 0)

lemma references_release (hne : x ≠ id) :
    references { h with extensions := h.extensions.release x } id = h.references id := by
  simp only [references, contents, slotsOf_release, if_neg hne]

/-- Letting an object go takes its references off the counts. -/
lemma Counted.release (hc : Counted start roots live counts (x :: free) h) :
    Counted start roots (live.erase x) (uncount counts free (h.references x)).1
      (uncount counts free (h.references x)).2
      { h with extensions := h.extensions.release x } := by
  have hx := hc.free_live x List.mem_cons_self
  have hnone {id : ObjectId} (hid : id ∈ live) : x ∉ start.references id := fun hmem => by
    have hpos := hc.pos_of_mem hid hmem
    rw [hc.free_zero x List.mem_cons_self] at hpos
    exact absurd hpos (Nat.lt_irrefl 0)
  obtain ⟨hnotfree, hnodup⟩ := List.nodup_cons.mp hc.free_nodup
  rw [hc.references_eq x hx]
  have hsum (id : ObjectId) : ∑ y ∈ live, (start.references y).count id =
      (start.references x).count id + ∑ y ∈ live.erase x, (start.references y).count id :=
    (Finset.add_sum_erase live _ hx).symm
  obtain ⟨hcounts, hzeros, hmem, hnodup'⟩ := @uncount_spec counts free (start.references x)
    (fun id => by rw [hc.count_eq, hsum]; omega)
    (fun id hid => hc.free_zero id (List.mem_cons_of_mem x hid)) hnodup
  constructor
  · intro id
    rw [hcounts, hc.count_eq, hsum]
    omega
  · intro id hid id' hid'
    have hlive := Finset.mem_of_mem_erase hid
    refine Finset.mem_erase.mpr ⟨?_, hc.closed id hlive id' hid'⟩
    rintro rfl
    exact hnone hlive hid'
  · intro id hkept
    refine Finset.mem_erase.mpr ⟨?_, hc.kept id hkept⟩
    rintro rfl
    exact hc.not_kept List.mem_cons_self hkept
  · intro id hid
    obtain ⟨hne, hlive⟩ := Finset.mem_erase.mp hid
    rw [references_release (Ne.symm hne), hc.references_eq id hlive]
  · intro id hid
    rcases hmem id hid with hold | hnew
    · refine Finset.mem_erase.mpr ⟨?_, hc.free_live id (List.mem_cons_of_mem x hold)⟩
      rintro rfl
      exact hnotfree hold
    · refine Finset.mem_erase.mpr ⟨?_, hc.closed x hx id hnew⟩
      rintro rfl
      exact hnone hx hnew
  · exact hzeros
  · exact hnodup'

/-- What survives the release of every single object that the roots do not refer to survives all of
them. -/
lemma Counted.induction {P : Heap → Prop} {n : Nat}
    (hc : Counted start roots live counts free h) (hp : P h)
    (single : ∀ h id, ¬ Kept start roots id → P h →
      P { h with extensions := h.extensions.release id }) :
    P (releaseAll n counts free h) := by
  induction n generalizing live counts free h with
  | zero => rwa [releaseAll]
  | succ n ih =>
    cases free with
    | nil => rwa [releaseAll]; simp
    | cons x rest =>
      rw [releaseAll]
      exact ih hc.release (single h x (hc.not_kept List.mem_cons_self) hp)

lemma Sound.holds_contents (hs : Sound r h) {v : Value} (hv : v ∈ h.contents id) : h.Holds v := by
  rcases List.mem_append.mp hv with hv | hv
  · split at hv
    · next i hi => exact hs.slots id i (instance?_eq_some.mpr hi) v hv
    · next c hc => exact hs.captured id c (closure?_eq_some.mpr hc) v hv
    · cases hv
  · obtain ⟨x, hx, rfl⟩ := List.mem_map.mp hv
    exact hs.extensions id x hx

lemma lt_of_holds {v : Value} (hv : h.Holds v) (hid : v.object? = some id) :
    id < h.objects.size := by
  cases v with
  | object id' typeName =>
    obtain rfl := Option.some.inj hid
    obtain ⟨i, hi, -⟩ := hv
    exact (Array.getElem?_eq_some_iff.mp (instance?_eq_some.mp hi)).1
  | closure id' =>
    obtain rfl := Option.some.inj hid
    obtain ⟨c, hc⟩ := hv
    exact (Array.getElem?_eq_some_iff.mp (closure?_eq_some.mp hc)).1
  | _ => cases hid

lemma Sound.lt_of_references (hs : Sound r h) (hid : id ∈ h.references x) :
    id < h.objects.size := by
  obtain ⟨v, hv, hrefers⟩ := List.mem_filterMap.mp hid
  exact lt_of_holds (hs.holds_contents hv) hrefers

lemma Sound.lt_of_kept (hs : Sound r h) (hroots : ∀ v ∈ roots, h.Holds v)
    (hkept : Kept h roots id) : id < h.objects.size := by
  cases hkept with
  | root hmem hrefers => exact lt_of_holds (hroots _ hmem) hrefers
  | held _ hrefers => exact hs.lt_of_references hrefers

/-- A release of what the roots do not reach is a series of releases of single objects, none of them
reached by the roots. -/
theorem Sound.release_kept (hs : Sound r h) (hroots : ∀ v ∈ roots, h.Holds v)
    {P : Heap → Prop} (hp : P h)
    (single : ∀ h' id, ¬ Kept h roots id → P h' →
      P { h' with extensions := h'.extensions.release id }) :
    P (h.release roots) := by
  have hcount (id : ObjectId) : (h.counts roots).getD id 0 =
      (roots.filterMap Value.object?).count id +
        ∑ x ∈ Finset.range h.objects.size, (h.references x).count id := by
    by_cases hid : id < h.objects.size
    · exact getD_counts hid
    · have hroot : id ∉ roots.filterMap Value.object? := fun hmem => by
        obtain ⟨v, hv, hrefers⟩ := List.mem_filterMap.mp hmem
        exact hid (lt_of_holds (hroots v hv) hrefers)
      have hnone (x : ObjectId) : (h.references x).count id = 0 :=
        List.count_eq_zero.mpr fun hmem => hid (hs.lt_of_references hmem)
      simp [List.count_eq_zero.mpr hroot, hnone, Array.getD_eq_getD_getElem?, size_counts, hid]
  unfold Heap.release
  split
  · exact hp
  · refine @Counted.induction h roots _ _ (Finset.range h.objects.size) h P _
      ⟨hcount, ?_, ?_, ?_, ?_, ?_, ?_⟩ hp single
    · exact fun _ _ id hid => Finset.mem_range.mpr (hs.lt_of_references hid)
    · exact fun id hkept => Finset.mem_range.mpr (hs.lt_of_kept hroots hkept)
    · exact fun _ _ => rfl
    · intro id hid
      exact Finset.mem_range.mpr (List.mem_range.mp (List.mem_of_mem_filter hid))
    · intro id hid
      simpa using (List.mem_filter.mp hid).2
    · exact List.Nodup.filter _ List.nodup_range

end LiveTypes.Heap
