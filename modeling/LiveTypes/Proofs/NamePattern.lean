import LiveTypes.Proofs.TypeName
import LiveTypes.Registry.Scope

/-!
# Patterns keep nested types with the type that encloses them

A pattern has the text that it was read from (`NamePattern.text_of_parse?`). A nested type is in the
package of the type that encloses it, and its name continues that of the enclosing type. So a pattern
that names a type takes the types nested in it too, and any other pattern, which looks at packages only,
does not tell them apart: a scope or a list of patterns that takes a type takes all that are nested in it,
at any depth (`NamePattern.keeps_nested_together`).
-/

namespace LiveTypes

open LiveTypes.TypeName (enclosing? Encloses Inherited Undivided)

variable {p : NamePattern} {s name outer : String}

lemma Text.dropEnd?_eq_some_iff {ending l rest : List Char} :
    dropEnd? ending l = some rest ↔ l = rest ++ ending := by
  rw [dropEnd?, List.isSuffixOf?_eq_some_iff_append_eq, eq_comm]

/-- A name lies in a scope just when the pattern of the scope selects it. -/
lemma Registry.requireIn_eq_ok : requireIn p name = .ok () ↔ p.selects name = true := by
  unfold requireIn
  split
  · next hselects => exact ⟨fun _ => hselects, fun _ => rfl⟩
  · next hselects =>
    constructor
    · intro h
      cases h
    · intro h
      exact absurd h hselects

namespace NamePattern

/-! ### Reading -/

lemma eq_of_ofName? {make : String → NamePattern} {l : List Char} (h : ofName? make l = some p) :
    p = make (String.ofList l) := by
  unfold ofName? at h
  split at h
  · exact (Option.some.inj h).symm
  · cases h

/-- The text of a pattern is the text that it was read from. -/
theorem text_of_parse? (h : parse? s = some p) : p.text = s := by
  unfold parse? at h
  split at h
  · next hany =>
    obtain rfl := Option.some.inj h
    exact hany.symm
  · split at h
    · next l hsubtree =>
      obtain rfl := eq_of_ofName? h
      rw [text, ← String.toList_inj, Text.dropEnd?_eq_some_iff.mp hsubtree]
      simp
    · split at h
      · next l hpackage =>
        obtain rfl := eq_of_ofName? h
        rw [text, ← String.toList_inj, Text.dropEnd?_eq_some_iff.mp hpackage]
        simp
      · obtain rfl := eq_of_ofName? h
        exact String.ofList_toList

/-! ### Nested types -/

/-- A pattern other than the name of a type selects names by their package. -/
lemma selects_congr (hexact : ∀ exact, p ≠ .exact exact)
    (h : TypeName.package name = TypeName.package outer) : p.selects name = p.selects outer := by
  cases p with
  | any => rfl
  | exact exact => exact absurd rfl (hexact exact)
  | package _ => rw [selects, selects, h]
  | subtree _ => rw [selects, selects, h]

/-- The name of a type selects those that are nested in one that it selects. -/
lemma selects_exact_of_enclosing? {exact : String} (h : enclosing? name = some outer)
    (houter : (NamePattern.exact exact).selects outer = true) :
    (NamePattern.exact exact).selects name = true := by
  obtain ⟨rest, rfl, -⟩ := TypeName.eq_append_of_enclosing? h
  simp only [selects, Bool.or_eq_true, decide_eq_true_eq] at houter ⊢
  refine .inr (TypeName.isNestedIn_eq_true.mpr ?_)
  rcases houter with rfl | hnested
  · exact ⟨rest, rfl⟩
  · obtain ⟨between, rfl⟩ := TypeName.isNestedIn_eq_true.mp hnested
    exact ⟨between ++ "$" ++ rest, by simp only [String.append_assoc]⟩

/-- What is nested in a selected type is selected. -/
lemma selects_of_enclosing? (h : enclosing? name = some outer) (houter : p.selects outer = true) :
    p.selects name = true := by
  by_cases hexact : ∃ exact, p = .exact exact
  · obtain ⟨exact, rfl⟩ := hexact
    exact selects_exact_of_enclosing? h houter
  · rw [selects_congr (not_exists.mp hexact) (TypeName.package_of_enclosing? h)]
    exact houter

/-- A pattern that was read has the text it was read from, selects with a type those that are nested in
it, and parts no type from them unless it is the name of a type. So a scope and a list of patterns that
take a type take all that are nested in it, at any depth. -/
theorem keeps_nested_together :
    (∀ s p, parse? s = some p → p.text = s ∧
      (∀ outer name, enclosing? name = some outer →
        (p.selects outer = true → p.selects name = true) ∧
        ((∀ exact, p ≠ .exact exact) → (p.selects name = true ↔ p.selects outer = true))) ∧
      ((∀ exact, p ≠ .exact exact) → Undivided fun name => p.selects name = true)) ∧
    (∀ s p, Registry.scope s = .ok p → Inherited fun name => Registry.requireIn p name = .ok ()) ∧
    ∀ texts, Inherited fun name => (Registry.patterns texts).any (·.selects name) = true := by
  have hsame (p : NamePattern) (hexact : ∀ exact, p ≠ .exact exact) (outer name : String)
      (h : enclosing? name = some outer) : p.selects name = true ↔ p.selects outer = true := by
    rw [selects_congr hexact (TypeName.package_of_enclosing? h)]
  refine ⟨fun s p hp => ⟨text_of_parse? hp, fun outer name h => ⟨selects_of_enclosing? h, ?_⟩, ?_⟩,
    fun s p _ => TypeName.inherited_of_direct fun outer name h houter => ?_,
    fun texts => TypeName.inherited_of_direct fun outer name h houter => ?_⟩
  · exact fun hexact => hsame p hexact outer name h
  · exact fun hexact => TypeName.undivided_of_direct (hsame p hexact)
  · exact Registry.requireIn_eq_ok.mpr
      (selects_of_enclosing? h (Registry.requireIn_eq_ok.mp houter))
  · obtain ⟨p, hp, hselects⟩ := List.any_eq_true.mp houter
    exact List.any_eq_true.mpr ⟨p, hp, selects_of_enclosing? h hselects⟩

/-- A type at depth two in a package below another one is taken by a subtree, by a scope named for the
outermost type and by a list with a text that is no pattern. -/
theorem keeps_nested_together_inner :
    parse? "a..*" = some (.subtree "a") ∧ (NamePattern.subtree "a").text = "a..*" ∧
      enclosing? "a.b.C$D$1" = some "a.b.C$D" ∧ Encloses "a.b.C" "a.b.C$D$1" ∧
      (NamePattern.subtree "a").selects "a.b.C$D$1" = true ∧
      ((NamePattern.subtree "a").selects "a.b.C$D$1" = true ↔
        (NamePattern.subtree "a").selects "a.b.C" = true) ∧
      Registry.scope "a.b.C" = .ok (.exact "a.b.C") ∧
      Registry.requireIn (.exact "a.b.C") "a.b.C$D$1" = .ok () ∧
      (Registry.patterns ["a..b", "x.*", "a.b.C"]).any (·.selects "a.b.C$D$1") = true := by
  have hinner : enclosing? "a.b.C$D$1" = some "a.b.C$D" := by decide
  have hencloses : Encloses "a.b.C" "a.b.C$D$1" := .deep hinner (.direct (by decide))
  have hread : parse? "a..*" = some (.subtree "a") := by decide
  have hscope : Registry.scope "a.b.C" = .ok (.exact "a.b.C") := by decide
  obtain ⟨hpattern, hscopes, hlists⟩ := keeps_nested_together
  obtain ⟨htext, hdirect, hundivided⟩ := hpattern _ _ hread
  exact ⟨hread, htext, hinner, hencloses, (hdirect _ _ hinner).1 (by decide),
    hundivided (by simp) _ _ hencloses, hscope, hscopes _ _ hscope _ _ hencloses (by decide),
    hlists _ _ _ hencloses (by decide)⟩

end NamePattern

end LiveTypes
