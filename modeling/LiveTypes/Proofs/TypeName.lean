import LiveTypes.Redirection.Version
import Mathlib.Data.List.Basic

/-!
# Names of types

A name without a dot in what it adds to another one is in the package of that one. So the executor units
of a type are in the package of the type, and so are the types that it encloses
(`TypeName.package_of_enclosing?`), at any depth.
-/

namespace LiveTypes

lemma Text.splitLast_append_of_notMem {sep : Char} {a b : List Char} (h : sep ∉ b) :
    splitLast sep (a ++ b) = (splitLast sep a).map fun parts => (parts.1, parts.2 ++ b) := by
  induction a with
  | nil => exact splitLast_eq_none_iff.mpr h
  | cons c rest ih =>
    rw [List.cons_append, splitLast, splitLast, ih]
    cases splitLast sep rest with
    | some parts => rfl
    | none =>
      dsimp only [Option.map_none]
      split <;> rfl

lemma toList_executorName (name : String) (version : Nat) :
    (executorName name version).toList =
      (name ++ "$$E").toList ++ Nat.toDigits 10 version := by
  simp [executorName, Nat.toList_repr]

namespace TypeName

/-- A name is nested in another when it continues it with a dollar sign. -/
lemma isNestedIn_eq_true {name outer : String} :
    isNestedIn name outer = true ↔ ∃ rest, name = outer ++ "$" ++ rest := by
  have hdrop (rest : List Char) : Text.dropStart? outer.toList name.toList = some ('$' :: rest) ↔
      name = outer ++ "$" ++ String.ofList rest := by
    rw [Text.dropStart?, List.isPrefixOf?_eq_some_iff_append_eq, ← String.toList_inj, eq_comm]
    simp
  unfold isNestedIn
  constructor
  · intro h
    split at h
    · next rest hrest => exact ⟨String.ofList rest, (hdrop rest).mp hrest⟩
    · cases h
  · rintro ⟨rest, hname⟩
    rw [(hdrop rest.toList).mpr (by rw [hname, String.ofList_toList])]
    rfl

/-- What a name adds to another one without a dot leaves it in the package. -/
lemma package_append {name rest : String} (h : '.' ∉ rest.toList) :
    package (name ++ rest) = package name := by
  rw [package, package, packageChars, packageChars, String.toList_append,
    Text.splitLast_append_of_notMem h]
  cases Text.splitLast '.' name.toList <;> rfl

/-- The executor units of a type are all in the package of the type. -/
lemma package_executorName (name : String) (version : Nat) :
    package (executorName name version) = package name := by
  have hdigits : '.' ∉ Nat.toDigits 10 version := by
    intro hmem
    have := Nat.isDigit_of_mem_toDigits (by decide) (Nat.le_refl 10) hmem
    simp at this
  have hname : executorName name version = name ++ ("$$E" ++ toString version) := String.append_assoc
  rw [hname]
  refine package_append ?_
  rw [String.toList_append, List.mem_append, not_or]
  exact ⟨by decide, by simpa [Nat.toList_repr] using hdigits⟩

/-! ### Nesting -/

lemma splitSimple_append (l : List Char) : (splitSimple l).1 ++ (splitSimple l).2 = l := by
  unfold splitSimple
  split
  · next hsplit =>
    rw [(Text.splitLast_eq_some hsplit).1, List.append_assoc]
    rfl
  · rfl

lemma dot_notMem_splitSimple (l : List Char) : '.' ∉ (splitSimple l).2 := by
  unfold splitSimple
  split
  · next hsplit => exact (Text.splitLast_eq_some hsplit).2
  · next hsplit => exact Text.splitLast_eq_none_iff.mp hsplit

/-- The name of a nested type is that of the enclosing one, a dollar sign and something without a dot. -/
lemma eq_append_of_enclosing? {name outer : String} (h : enclosing? name = some outer) :
    ∃ rest, name = outer ++ "$" ++ rest ∧ '.' ∉ rest.toList := by
  obtain ⟨chars, hchars, rfl⟩ := Option.map_eq_some_iff.mp h
  have hparts := splitSimple_append name.toList
  have hdot := dot_notMem_splitSimple name.toList
  unfold enclosingChars? at hchars
  generalize splitSimple name.toList = parts at hparts hdot hchars
  obtain ⟨front, simple⟩ := parts
  dsimp only at hparts hdot hchars
  split at hchars
  · next inner rest hsplit =>
    obtain ⟨rfl, -⟩ := Text.splitLast_eq_some hsplit
    split at hchars
    · cases hchars
    · obtain rfl := Option.some.inj hchars
      refine ⟨String.ofList rest, ?_, ?_⟩
      · rw [← String.toList_inj, ← hparts]
        simp
      · rw [String.toList_ofList]
        exact fun hmem => hdot (List.mem_append_right _ (List.mem_cons_of_mem _ hmem))
  · cases hchars

/-- A nested type is in the package of the type that encloses it. -/
lemma package_of_enclosing? {name outer : String} (h : enclosing? name = some outer) :
    package name = package outer := by
  obtain ⟨rest, rfl, hdot⟩ := eq_append_of_enclosing? h
  rw [String.append_assoc]
  refine package_append ?_
  rw [String.toList_append, List.mem_append, not_or]
  exact ⟨by decide, hdot⟩

/-- Whether a type is nested in another one, directly or at any depth. -/
inductive Encloses (outer : String) : String → Prop
  | direct {name : String} (h : enclosing? name = some outer) : Encloses outer name
  | deep {name middle : String} (h : enclosing? name = some middle) (hmiddle : Encloses outer middle) :
      Encloses outer name

/-- Whether a choice of types takes with a type all that are nested in it. -/
def Inherited (chosen : String → Prop) : Prop :=
  ∀ outer name, Encloses outer name → chosen outer → chosen name

/-- Whether a choice of types never parts a type from those that are nested in it. -/
def Undivided (chosen : String → Prop) : Prop :=
  ∀ outer name, Encloses outer name → (chosen name ↔ chosen outer)

variable {chosen : String → Prop}

/-- What goes from each type to those directly nested in it goes down to any depth. -/
lemma inherited_of_direct
    (h : ∀ outer name, enclosing? name = some outer → chosen outer → chosen name) :
    Inherited chosen := by
  intro outer name hencloses houter
  induction hencloses with
  | direct hdirect => exact h _ _ hdirect houter
  | deep hdirect _ ih => exact h _ _ hdirect ih

lemma undivided_of_direct
    (h : ∀ outer name, enclosing? name = some outer → (chosen name ↔ chosen outer)) :
    Undivided chosen := by
  intro outer name hencloses
  induction hencloses with
  | direct hdirect => exact h _ _ hdirect
  | deep hdirect _ ih => exact (h _ _ hdirect).trans ih

end TypeName

end LiveTypes
