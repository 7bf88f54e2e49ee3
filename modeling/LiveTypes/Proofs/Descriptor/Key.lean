import LiveTypes.Proofs.Descriptor.Reading
import Mathlib.Data.List.Forall2

/-!
# The grammar of signature keys

    key     =  name "(" value* ")" result        no "(" in the name, no ")" in the values
    value   =  "Z" | "I" | "J" | "D" | "S" | "L" name ";"        no ";" in the name
    result  =  value | "V"

where names are not empty. A text is read as a signature just when it has this form. There is one way only
to take it apart, and the signature has the name and the types that the parts spell, so it has the text as
its key (`Signature.parseKey_iff_grammatical`).
-/

namespace LiveTypes

namespace TypeDescriptor

variable {l : List Char} {t t' : TypeDescriptor}

/-- Which texts spell which types. -/
inductive Spells : List Char → TypeDescriptor → Prop
  | void : Spells ['V'] .void
  | bool : Spells ['Z'] .bool
  | i32 : Spells ['I'] .i32
  | i64 : Spells ['J'] .i64
  | f64 : Spells ['D'] .f64
  | str : Spells ['S'] .str
  | object {name : List Char} (nonempty : name ≠ []) (closed : ';' ∉ name) :
      Spells ('L' :: (name ++ [';'])) (.object (String.ofList name))

/-- Whether a text spells a type of values. -/
def SpellsValue (l : List Char) : Prop := ∃ t, t ≠ .void ∧ Spells l t

/-- A type is spelled by its characters only. -/
lemma spells_iff : Spells l t ↔ t.WellNamed ∧ l = t.chars := by
  constructor
  · intro h
    cases h with
    | @object name hne hclosed =>
      refine ⟨⟨fun hempty => hne ?_, by rwa [String.toList_ofList]⟩, ?_⟩
      · simpa using congrArg String.toList hempty
      · rw [chars, String.toList_ofList]
    | _ => exact ⟨trivial, rfl⟩
  · rintro ⟨hnamed, rfl⟩
    cases t with
    | object name =>
      have hne : name.toList ≠ [] := fun hempty => hnamed.1 (String.toList_eq_nil_iff.mp hempty)
      have hspells := Spells.object hne hnamed.2
      rwa [String.ofList_toList] at hspells
    | void => exact .void
    | bool => exact .bool
    | i32 => exact .i32
    | i64 => exact .i64
    | f64 => exact .f64
    | str => exact .str

/-- A text spells one type at most. -/
lemma Spells.unique (h : Spells l t) (h' : Spells l t') : t = t' := by
  obtain ⟨hnamed, rfl⟩ := spells_iff.mp h
  obtain ⟨hnamed', heq⟩ := spells_iff.mp h'
  have hread := @read_chars t [] "" hnamed
  rw [heq, read_chars hnamed'] at hread
  exact (Prod.mk.inj (Except.ok.inj hread)).1.symm

/-- The types that texts spell have those texts as their characters. -/
lemma map_chars_of_spells {ls : List (List Char)} {ts : List TypeDescriptor}
    (h : List.Forall₂ Spells ls ts) : ls = ts.map chars := by
  induction h with
  | nil => rfl
  | cons h _ ih => rw [List.map_cons, ← ih, (spells_iff.mp h).2]

end TypeDescriptor

/-- A text taken apart as a signature key. -/
structure KeyParts where
  /-- What stands before the opening bracket -/
  name : List Char
  /-- The texts of the parameter types -/
  params : List (List Char)
  /-- What stands after the closing bracket -/
  result : List Char

namespace KeyParts

open TypeDescriptor

variable {p p' : KeyParts} {s : Signature}

def text (p : KeyParts) : String :=
  String.ofList (p.name ++ '(' :: (p.params.flatten ++ ')' :: p.result))

/-- Whether the parts are those of the grammar. -/
structure Grammatical (p : KeyParts) : Prop where
  nonempty : p.name ≠ []
  name : '(' ∉ p.name
  params : ')' ∉ p.params.flatten
  values : ∀ l ∈ p.params, SpellsValue l
  result : SpellsValue p.result ∨ p.result = ['V']

/-- Whether the parts spell the name and the types of a signature. -/
structure Spell (p : KeyParts) (s : Signature) : Prop where
  name : p.name = s.name.toList
  params : List.Forall₂ Spells p.params s.descriptor.params
  result : Spells p.result s.descriptor.result

def ofSignature (s : Signature) : KeyParts where
  name := s.name.toList
  params := s.descriptor.params.map chars
  result := s.descriptor.result.chars

lemma text_ofSignature (s : Signature) : (ofSignature s).text = s.key := by
  rw [← String.toList_inj, text, String.toList_ofList, Signature.toList_key, MethodDescriptor.chars,
    ofSignature, List.flatMap_def]

/-- A signature is spelled by the parts of its key only. -/
lemma Spell.eq_ofSignature (h : p.Spell s) : p = ofSignature s := by
  obtain ⟨name, params, result⟩ := p
  obtain ⟨hname, hparams, hresult⟩ := h
  rw [ofSignature, KeyParts.mk.injEq]
  exact ⟨hname, map_chars_of_spells hparams, (spells_iff.mp hresult).2⟩

/-- The parts of a key are those of the grammar, and spell the signature, when they can be told from each
other. -/
lemma grammatical_ofSignature_iff : (ofSignature s).Grammatical ∧ (ofSignature s).Spell s ↔
    s.Legible ∧ (∀ t ∈ s.descriptor.params, t.Passable) ∧ s.descriptor.result.WellNamed := by
  constructor
  · rintro ⟨hgrammatical, hspell⟩
    have hnamed (t : TypeDescriptor) (ht : t ∈ s.descriptor.params) : t.WellNamed ∧ t ≠ .void := by
      have hspells := List.forall₂_same.mp (List.forall₂_map_left_iff.mp hspell.params) t ht
      obtain ⟨t', hvoid, hspells'⟩ := hgrammatical.values t.chars (List.mem_map_of_mem ht)
      obtain rfl := hspells.unique hspells'
      exact ⟨(spells_iff.mp hspells).1, hvoid⟩
    exact ⟨⟨fun hempty => hgrammatical.nonempty (String.toList_eq_nil_iff.mpr hempty),
      hgrammatical.name⟩, (MethodDescriptor.bracket_notMem_params hnamed).mp hgrammatical.params,
      (spells_iff.mp hspell.result).1⟩
  · rintro ⟨hlegible, hparams, hresult⟩
    have hall : ∀ t ∈ s.descriptor.params, t.WellNamed ∧ t ≠ .void := fun t ht =>
      ⟨(hparams t ht).wellNamed, (hparams t ht).ne_void⟩
    refine ⟨⟨fun hempty => hlegible.nonempty (String.toList_eq_nil_iff.mp hempty),
      hlegible.unbracketed, (MethodDescriptor.bracket_notMem_params hall).mpr hparams, ?_, ?_⟩,
      rfl, ?_, spells_iff.mpr ⟨hresult, rfl⟩⟩
    · intro l hl
      obtain ⟨t, ht, rfl⟩ := List.mem_map.mp hl
      exact ⟨t, (hall t ht).2, spells_iff.mpr ⟨(hall t ht).1, rfl⟩⟩
    · by_cases hvoid : s.descriptor.result = .void
      · exact .inr (congrArg chars hvoid)
      · exact .inl ⟨_, hvoid, spells_iff.mpr ⟨hresult, rfl⟩⟩
    · exact List.forall₂_map_left_iff.mpr (List.forall₂_same.mpr fun t ht =>
        spells_iff.mpr ⟨(hall t ht).1, rfl⟩)

/-- Parts of the grammar spell a signature. -/
lemma Grammatical.exists_spell (h : p.Grammatical) : ∃ s, p.Spell s := by
  have hparams : ∃ ts, List.Forall₂ Spells p.params ts := by
    obtain ⟨-, -, -, hvalues, -⟩ := h
    generalize p.params = ls at hvalues
    induction ls with
    | nil => exact ⟨[], .nil⟩
    | cons l ls ih =>
      obtain ⟨⟨t, -, ht⟩, hls⟩ := List.forall_mem_cons.mp hvalues
      obtain ⟨ts, hts⟩ := ih hls
      exact ⟨t :: ts, .cons ht hts⟩
  have hresult : ∃ t, Spells p.result t := by
    rcases h.result with ⟨t, -, ht⟩ | hvoid
    · exact ⟨t, ht⟩
    · exact ⟨.void, hvoid ▸ .void⟩
  obtain ⟨ts, hts⟩ := hparams
  obtain ⟨t, ht⟩ := hresult
  exact ⟨⟨String.ofList p.name, ts, t⟩, (String.toList_ofList).symm, hts, ht⟩

end KeyParts

namespace Signature

variable {s : Signature} {key : String} {p : KeyParts}

/-- A text is read as a signature just when it is made of parts of the grammar that spell it. -/
lemma parseKey_eq_ok_iff_spell : parseKey key = .ok s ↔
    ∃ p : KeyParts, p.Grammatical ∧ p.Spell s ∧ p.text = key := by
  rw [parseKey_eq_ok_iff, ofParts_eq_ok_iff]
  constructor
  · rintro ⟨hlegible, ⟨-, hparams, hresult, -⟩, rfl⟩
    obtain ⟨hgrammatical, hspell⟩ :=
      KeyParts.grammatical_ofSignature_iff.mpr ⟨hlegible, hparams, hresult⟩
    exact ⟨.ofSignature s, hgrammatical, hspell, KeyParts.text_ofSignature s⟩
  · rintro ⟨p, hgrammatical, hspell, rfl⟩
    obtain rfl := hspell.eq_ofSignature
    obtain ⟨hlegible, hparams, hresult⟩ :=
      KeyParts.grammatical_ofSignature_iff.mp ⟨hgrammatical, hspell⟩
    exact ⟨hlegible, ⟨rfl, hparams, hresult, rfl⟩, KeyParts.text_ofSignature s⟩

lemma key_of_parseKey (h : parseKey key = .ok s) : s.key = key :=
  (parseKey_eq_ok_iff.mp h).2.2.symm

/-- Parts of the grammar are read as what they spell, and are the only ones of their text. -/
lemma parseKey_text (h : p.Grammatical) :
    ∃ s, parseKey p.text = .ok s ∧ p = .ofSignature s ∧ p.Spell s := by
  obtain ⟨s, hspell⟩ := h.exists_spell
  exact ⟨s, parseKey_eq_ok_iff_spell.mpr ⟨p, h, hspell, rfl⟩, hspell.eq_ofSignature, hspell⟩

/-- A text is read as a signature just when it has the form of the grammar. It is taken apart in one way
only, and read as the signature that the parts spell, whose key is the text again. So signatures that were
read and have the same key are the same. -/
theorem parseKey_iff_grammatical (key : String) :
    ((∃ s, parseKey key = .ok s) ↔ ∃ p : KeyParts, p.Grammatical ∧ p.text = key) ∧
    (∀ p p' : KeyParts, p.Grammatical → p.text = key → p'.Grammatical → p'.text = key → p = p') ∧
    ∀ s, parseKey key = .ok s →
      (∀ p : KeyParts, p.Grammatical → p.text = key → p.Spell s) ∧ s.key = key ∧
      ∀ key' s', parseKey key' = .ok s' → s.key = s'.key → s = s' := by
  refine ⟨⟨?_, ?_⟩, ?_, fun s hs => ⟨?_, key_of_parseKey hs, ?_⟩⟩
  · rintro ⟨s, hs⟩
    obtain ⟨p, hgrammatical, -, htext⟩ := parseKey_eq_ok_iff_spell.mp hs
    exact ⟨p, hgrammatical, htext⟩
  · rintro ⟨p, hgrammatical, rfl⟩
    obtain ⟨s, hs, -⟩ := parseKey_text hgrammatical
    exact ⟨s, hs⟩
  · rintro p p' h rfl h' htext
    obtain ⟨s, hs, hp, -⟩ := parseKey_text h
    obtain ⟨s', hs', hp', -⟩ := parseKey_text h'
    rw [htext, hs, Except.ok.injEq] at hs'
    rw [hp, hp', hs']
  · rintro p h rfl
    obtain ⟨s', hs', -, hspell⟩ := parseKey_text h
    obtain rfl := Except.ok.inj (hs.symm.trans hs')
    exact hspell
  · intro key' s' hs' hkey
    rw [key_of_parseKey hs, key_of_parseKey hs'] at hkey
    rw [hkey, hs', Except.ok.injEq] at hs
    exact hs.symm

/-- Parts with brackets inside of names. -/
def bracketedParts : KeyParts where
  name := ['a', ')']
  params := [['I'], ['L', 'b', '(', 'c', ';']]
  result := ['L', 'a', ')', 'b', ';']

/-- The brackets inside of names do not get in the way. -/
theorem parseKey_iff_grammatical_bracketed :
    bracketedParts.Grammatical ∧ bracketedParts.text = "a)(ILb(c;)La)b;" ∧
      ∃ s, parseKey "a)(ILb(c;)La)b;" = .ok s ∧ bracketedParts.Spell s ∧
        s.key = "a)(ILb(c;)La)b;" := by
  have hspells (name : List Char) (hname : name ≠ [] ∧ ';' ∉ name) :
      TypeDescriptor.SpellsValue ('L' :: (name ++ [';'])) :=
    ⟨_, by simp, .object hname.1 hname.2⟩
  have hgrammatical : bracketedParts.Grammatical := {
    nonempty := by decide
    name := by decide
    params := by decide
    values := by
      intro l hl
      simp only [bracketedParts, List.mem_cons, List.not_mem_nil, or_false] at hl
      rcases hl with rfl | rfl
      · exact ⟨.i32, by decide, .i32⟩
      · exact hspells ['b', '(', 'c'] (by decide)
    result := .inl (hspells ['a', ')', 'b'] (by decide)) }
  have htext : bracketedParts.text = "a)(ILb(c;)La)b;" := by decide
  obtain ⟨haccepted, -, hread⟩ := parseKey_iff_grammatical "a)(ILb(c;)La)b;"
  obtain ⟨s, hs⟩ := haccepted.mpr ⟨bracketedParts, hgrammatical, htext⟩
  obtain ⟨hspell, hkey, -⟩ := hread s hs
  exact ⟨hgrammatical, htext, s, hs, hspell _ hgrammatical htext, hkey⟩

end Signature

end LiveTypes
