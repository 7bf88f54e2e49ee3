/-!
# Splitting text

Names and keys are taken apart at the first or the last occurrence of a separator, or by removing a
given beginning or ending. Everything works on lists of characters, so a cut never falls inside one.
-/

namespace LiveTypes.Text

/-- The parts before and after the first separator, if there is one. -/
def splitFirst (sep : Char) : List Char → Option (List Char × List Char)
  | [] => none
  | c :: rest =>
    if c = sep then some ([], rest)
    else (splitFirst sep rest).map fun parts => (c :: parts.1, parts.2)

/-- The parts before and after the last separator, if there is one. -/
def splitLast (sep : Char) : List Char → Option (List Char × List Char)
  | [] => none
  | c :: rest =>
    match splitLast sep rest with
    | some parts => some (c :: parts.1, parts.2)
    | none => if c = sep then some ([], rest) else none

theorem splitFirst_eq_some_iff {sep : Char} {s a b : List Char} :
    splitFirst sep s = some (a, b) ↔ s = a ++ sep :: b ∧ sep ∉ a := by
  induction s generalizing a with
  | nil => simp [splitFirst]
  | cons c rest ih =>
    by_cases hc : c = sep
    · subst hc
      cases a with
      | nil => simp [splitFirst]
      | cons d a =>
        constructor
        · intro h; simp [splitFirst] at h
        · rintro ⟨h, hn⟩
          simp only [List.cons_append, List.cons.injEq] at h
          exact absurd (h.1 ▸ List.mem_cons_self) hn
    · cases a with
      | nil =>
        constructor
        · intro h; simp [splitFirst, hc] at h
        · rintro ⟨h, -⟩
          exact absurd (List.cons.inj h).1 hc
      | cons d a =>
        simp only [splitFirst, hc, ↓reduceIte, Option.map_eq_some_iff, Prod.exists, Prod.mk.injEq,
          List.cons.injEq, List.cons_append, List.mem_cons, not_or]
        constructor
        · rintro ⟨x, y, h, ⟨rfl, rfl⟩, rfl⟩
          obtain ⟨h1, h2⟩ := ih.1 h
          exact ⟨⟨rfl, h1⟩, fun e => hc e.symm, h2⟩
        · rintro ⟨⟨rfl, h1⟩, h2, h3⟩
          exact ⟨a, b, ih.2 ⟨h1, h3⟩, ⟨rfl, rfl⟩, rfl⟩

theorem splitLast_eq_none_iff {sep : Char} {s : List Char} :
    splitLast sep s = none ↔ sep ∉ s := by
  induction s with
  | nil => simp [splitLast]
  | cons c rest ih =>
    cases h : splitLast sep rest with
    | none =>
      have hr := ih.1 h
      by_cases hc : c = sep
      · simp [splitLast, h, hc]
      · simp [splitLast, h, hc, hr, Ne.symm hc]
    | some parts =>
      have hr : sep ∈ rest := by
        by_cases hm : sep ∈ rest
        · exact hm
        · rw [ih.2 hm] at h; cases h
      simp [splitLast, h, hr]

theorem splitLast_eq_some {sep : Char} {s a b : List Char}
    (h : splitLast sep s = some (a, b)) : s = a ++ sep :: b ∧ sep ∉ b := by
  induction s generalizing a with
  | nil => simp [splitLast] at h
  | cons c rest ih =>
    cases hr : splitLast sep rest with
    | some parts =>
      simp only [splitLast, hr, Option.some.injEq, Prod.mk.injEq] at h
      obtain ⟨rfl, rfl⟩ := h
      obtain ⟨h1, h2⟩ := ih (a := parts.1) (by rw [hr])
      exact ⟨by rw [List.cons_append, ← h1], h2⟩
    | none =>
      by_cases hc : c = sep
      · simp only [splitLast, hr, hc, ↓reduceIte, Option.some.injEq, Prod.mk.injEq] at h
        obtain ⟨rfl, rfl⟩ := h
        exact ⟨by rw [hc, List.nil_append], splitLast_eq_none_iff.1 hr⟩
      · simp [splitLast, hr, hc] at h

/-- The rest of a text after a given beginning. -/
def dropStart? (start s : List Char) : Option (List Char) := start.isPrefixOf? s

/-- The rest of a text before a given ending. -/
def dropEnd? (ending s : List Char) : Option (List Char) := ending.isSuffixOf? s

end LiveTypes.Text
