import LiveTypes.Descriptor.Signature
import LiveTypes.Proofs.Outcome

/-!
# Descriptors are read as they are written

A text is read as a descriptor just when it is the text of that descriptor, so every descriptor has one
text only. An object type can be read back when its name is not empty and has no semicolon, and as a
parameter when its name has no closing bracket either, which would end the parameter list. A key is read
back as the signature when the name of the method is not empty and has no opening bracket, which would end
the name (`Signature.parseKey_eq_ok_iff`).
-/

namespace LiveTypes

namespace TypeDescriptor

variable {t : TypeDescriptor} {l rest : List Char} {s whole : String}

/-- A type whose name, if it has one, ends at the semicolon after it. -/
def WellNamed : TypeDescriptor → Prop
  | .object name => name ≠ "" ∧ ';' ∉ name.toList
  | _ => True

instance : DecidablePred WellNamed := fun t => by
  cases t <;> unfold WellNamed <;> infer_instance

/-- A type that can stand in a parameter list: a value type without a closing bracket in its name. -/
structure Passable (t : TypeDescriptor) : Prop where
  wellNamed : t.WellNamed
  ne_void : t ≠ .void
  unbracketed : ')' ∉ t.chars

instance : DecidablePred Passable := fun t =>
  decidable_of_iff (t.WellNamed ∧ t ≠ .void ∧ ')' ∉ t.chars)
    ⟨fun ⟨hnamed, hvoid, hbracket⟩ => ⟨hnamed, hvoid, hbracket⟩,
      fun h => ⟨h.wellNamed, h.ne_void, h.unbracketed⟩⟩

lemma ne_semicolon {name : List Char} (h : ';' ∉ name) : ∀ c ∈ name, decide (c ≠ ';') = true :=
  fun _ hc => decide_eq_true fun heq => h (heq ▸ hc)

lemma takeWhile_append_semicolon {name rest : List Char} (h : ';' ∉ name) :
    (name ++ ';' :: rest).takeWhile (· ≠ ';') = name := by
  rw [List.takeWhile_append_of_pos (ne_semicolon h)]
  simp

lemma dropWhile_append_semicolon {name rest : List Char} (h : ';' ∉ name) :
    (name ++ ';' :: rest).dropWhile (· ≠ ';') = ';' :: rest := by
  rw [List.dropWhile_append_of_pos (ne_semicolon h)]
  simp

/-- What stands before the first semicolon has none, and what stands after begins with it. -/
lemma eq_append_of_dropWhile {l after : List Char} {c : Char}
    (h : l.dropWhile (· ≠ ';') = c :: after) :
    ';' ∉ l.takeWhile (· ≠ ';') ∧ l = l.takeWhile (· ≠ ';') ++ ';' :: after := by
  have hc : c = ';' := by
    have hhead := List.head?_dropWhile_not (fun c => decide (c ≠ ';')) l
    rw [h] at hhead
    simpa using hhead
  have hsplit := List.takeWhile_append_dropWhile (p := fun c => decide (c ≠ ';')) (l := l)
  rw [h, hc] at hsplit
  refine ⟨fun hmem => ?_, hsplit.symm⟩
  have hne := List.all_takeWhile (p := fun c => decide (c ≠ ';')) (l := l)
  simpa using List.all_eq_true.mp hne ';' hmem

/-- A type is read back from its characters, whatever follows them. -/
lemma read_chars (h : t.WellNamed) : read whole (t.chars ++ rest) = .ok (t, rest) := by
  cases t with
  | object name =>
    obtain ⟨hne, hsemicolon⟩ := h
    have hne : name.toList ≠ [] := fun heq => hne (String.toList_eq_nil_iff.mp heq)
    simp only [chars, List.cons_append, List.append_assoc, List.nil_append, read,
      dropWhile_append_semicolon hsemicolon, takeWhile_append_semicolon hsemicolon]
    rw [if_neg (by simpa using hne), String.ofList_toList]
  | _ => rfl

/-- What is read from the front of a text are the characters of the type that it gives. -/
lemma chars_of_read (h : read whole l = .ok (t, rest)) : t.WellNamed ∧ l = t.chars ++ rest := by
  unfold read at h
  split at h
  case h_8 l =>
    split at h
    · cases h
    · next c after hafter =>
      obtain ⟨hnone, hsplit⟩ := eq_append_of_dropWhile hafter
      dsimp only at h
      split at h
      · cases h
      · next hne =>
        obtain ⟨rfl, rfl⟩ := Prod.mk.inj (Except.ok.inj h)
        refine ⟨⟨fun heq => hne ?_, by rwa [String.toList_ofList]⟩, ?_⟩
        · simpa using congrArg String.toList heq
        · rw [chars, String.toList_ofList, List.cons_append, List.append_assoc,
            List.singleton_append, ← hsplit]
  all_goals first
    | (cases h; done)
    | (obtain ⟨rfl, rfl⟩ := Prod.mk.inj (Except.ok.inj h); exact ⟨trivial, rfl⟩)

/-- A text is read as the descriptor of a value just when it is the text of one. -/
theorem parse_eq_ok_iff : parse s = .ok t ↔ t.WellNamed ∧ t ≠ .void ∧ s = t.text := by
  have htext : s = t.text ↔ s.toList = t.chars := by
    rw [text, ← String.toList_inj, String.toList_ofList]
  rw [htext]
  unfold parse
  constructor
  · intro h
    split at h
    · cases h
    · next t' rest hread =>
      split_ifs at h with hrest hvoid
      obtain rfl := Except.ok.inj h
      obtain ⟨hnamed, heq⟩ := chars_of_read hread
      obtain rfl : rest = [] := by simpa using hrest
      exact ⟨hnamed, hvoid, by simpa using heq⟩
  · rintro ⟨hnamed, hvoid, heq⟩
    have hread := @read_chars t [] s hnamed
    rw [List.append_nil] at hread
    rw [heq, hread]
    simp [hvoid]

end TypeDescriptor

namespace MethodDescriptor

open TypeDescriptor

variable {d : MethodDescriptor} {l : List Char} {ts : List TypeDescriptor} {s whole params : String}

/-- Parameter types are read back from their characters. -/
lemma readParams_flatMap (h : ∀ t ∈ ts, t.WellNamed ∧ t ≠ .void) :
    readParams whole params (ts.flatMap TypeDescriptor.chars) = .ok ts := by
  induction ts with
  | nil =>
    rw [readParams]
    rfl
  | cons t ts ih =>
    obtain ⟨⟨hnamed, hvoid⟩, hts⟩ := List.forall_mem_cons.mp h
    have hread := @read_chars t (ts.flatMap TypeDescriptor.chars) params hnamed
    rw [← List.flatMap_cons] at hread
    rw [readParams, if_neg (by cases t <;> simp [TypeDescriptor.chars])]
    split
    · next e herror => rw [hread] at herror; cases herror
    · next t' rest hok =>
      obtain ⟨rfl, rfl⟩ := Prod.mk.inj (Except.ok.inj (hread.symm.trans hok))
      rw [if_neg hvoid, ih hts]
      rfl

/-- What is read as parameter types are their characters. -/
lemma flatMap_of_readParams (h : readParams whole params l = .ok ts) :
    (∀ t ∈ ts, t.WellNamed ∧ t ≠ .void) ∧ l = ts.flatMap TypeDescriptor.chars := by
  fun_induction readParams whole params l generalizing ts with
  | case1 l hempty =>
    obtain rfl := Except.ok.inj h
    simpa using hempty
  | case2 => cases h
  | case3 => cases h
  | case4 l _ t rest hread hvoid ih =>
    obtain ⟨ts, hts, rfl⟩ := Outcome.map_eq_ok.mp h
    obtain ⟨hnamed, rfl⟩ := chars_of_read hread
    obtain ⟨hall, rfl⟩ := ih hts
    exact ⟨List.forall_mem_cons.mpr ⟨⟨hnamed, hvoid⟩, hall⟩, rfl⟩

/-- The bracket that ends the parameter list is the first one. -/
lemma bracket_notMem_params (h : ∀ t ∈ ts, t.WellNamed ∧ t ≠ .void) :
    ')' ∉ ts.flatMap TypeDescriptor.chars ↔ ∀ t ∈ ts, t.Passable := by
  simp only [List.mem_flatMap, not_exists, not_and]
  exact forall₂_congr fun t ht =>
    ⟨fun hbracket => ⟨(h t ht).1, (h t ht).2, hbracket⟩, fun hp => hp.unbracketed⟩

/-- A text is read as a method descriptor just when it is the text of one. -/
theorem parse_eq_ok_iff : parse s = .ok d ↔
    (∀ t ∈ d.params, t.Passable) ∧ d.result.WellNamed ∧ s = d.text := by
  have htext : s = d.text ↔ s.toList = d.chars := by
    rw [text, ← String.toList_inj, String.toList_ofList]
  rw [htext]
  unfold parse
  constructor
  · intro h
    split at h
    · next body hbody =>
      split at h
      · cases h
      · next paramChars resultChars hsplit =>
        obtain ⟨rfl, hbracket⟩ := Text.splitFirst_eq_some_iff.mp hsplit
        simp only [Outcome.bind_eq_ok] at h
        obtain ⟨ts, hparams, ⟨t, rest⟩, hresult, h⟩ := h
        split at h
        · next hrest =>
          obtain rfl := Except.ok.inj h
          obtain ⟨hall, rfl⟩ := flatMap_of_readParams hparams
          obtain ⟨hnamed, rfl⟩ := chars_of_read hresult
          obtain rfl : rest = [] := by simpa using hrest
          refine ⟨(bracket_notMem_params hall).mp hbracket, hnamed, ?_⟩
          rw [hbody, chars, List.append_nil]
        · simp at h
    · cases h
  · rintro ⟨hparams, hresult, heq⟩
    have hall : ∀ t ∈ d.params, t.WellNamed ∧ t ≠ .void := fun t ht =>
      ⟨(hparams t ht).wellNamed, (hparams t ht).ne_void⟩
    have hsplit : Text.splitFirst ')' (d.params.flatMap TypeDescriptor.chars ++ ')' :: d.result.chars) =
        some (d.params.flatMap TypeDescriptor.chars, d.result.chars) :=
      Text.splitFirst_eq_some_iff.mpr ⟨rfl, (bracket_notMem_params hall).mpr hparams⟩
    have hread := @read_chars d.result [] (String.ofList d.result.chars) hresult
    rw [List.append_nil] at hread
    simp only [heq, chars, hsplit, readParams_flatMap hall, hread, Outcome.ok_bind]
    rfl

end MethodDescriptor

/-- A name and the text of a descriptor are read as a signature just when they are those of one. -/
theorem Signature.ofParts_eq_ok_iff {name descriptor : String} {s : Signature} :
    ofParts name descriptor = .ok s ↔ s.name = name ∧
      (∀ t ∈ s.descriptor.params, t.Passable) ∧ s.descriptor.result.WellNamed ∧
      descriptor = s.descriptor.text := by
  simp only [ofParts, Outcome.bind_eq_ok, Outcome.pure_eq_ok, MethodDescriptor.parse_eq_ok_iff]
  constructor
  · rintro ⟨d, h, rfl⟩
    exact ⟨rfl, h⟩
  · rintro ⟨rfl, h⟩
    exact ⟨s.descriptor, h, rfl⟩

namespace Signature

variable {s : Signature} {key : String}

/-- A signature whose name can be told from its key. -/
structure Legible (s : Signature) : Prop where
  nonempty : s.name ≠ ""
  unbracketed : '(' ∉ s.name.toList

instance : DecidablePred Legible := fun s =>
  decidable_of_iff (s.name ≠ "" ∧ '(' ∉ s.name.toList)
    ⟨fun ⟨hne, hbracket⟩ => ⟨hne, hbracket⟩, fun h => ⟨h.nonempty, h.unbracketed⟩⟩

lemma toList_key (s : Signature) : s.key.toList = s.name.toList ++ s.descriptor.chars := by
  rw [key, String.toList_append, MethodDescriptor.text, String.toList_ofList]

/-- The characters of a descriptor begin with a bracket. -/
lemma chars_eq_cons (d : MethodDescriptor) : ∃ rest, d.chars = '(' :: rest := ⟨_, rfl⟩

/-- A text is read as a signature just when it is the key of one that is legible and whose types can be
read back. -/
theorem parseKey_eq_ok_iff : parseKey key = .ok s ↔
    s.Legible ∧ ofParts s.name s.descriptor.text = .ok s ∧ key = s.key := by
  constructor
  · intro h
    unfold parseKey at h
    split at h
    · next c name rest hsplit =>
      obtain ⟨hkey, hbracket⟩ := Text.splitFirst_eq_some_iff.mp hsplit
      obtain ⟨hname, htypes, hresult, htext⟩ := ofParts_eq_ok_iff.mp h
      have hchars : s.name.toList = c :: name := by rw [hname, String.toList_ofList]
      refine ⟨⟨fun hempty => ?_, hchars ▸ hbracket⟩,
        ofParts_eq_ok_iff.mpr ⟨rfl, htypes, hresult, rfl⟩, ?_⟩
      · rw [hempty] at hchars
        cases hchars
      · have hrest : '(' :: rest = s.descriptor.chars := by
          simpa [MethodDescriptor.text] using congrArg String.toList htext
        rw [← String.toList_inj, hkey, hrest, ← hchars, toList_key]
    · cases h
  · rintro ⟨hlegible, hparts, rfl⟩
    obtain ⟨rest, hrest⟩ := chars_eq_cons s.descriptor
    have hsplit : Text.splitFirst '(' s.key.toList = some (s.name.toList, rest) :=
      Text.splitFirst_eq_some_iff.mpr ⟨by rw [toList_key, hrest], hlegible.unbracketed⟩
    cases hname : s.name.toList with
    | nil => exact absurd (String.toList_eq_nil_iff.mp hname) hlegible.nonempty
    | cons c name =>
      have htext : String.ofList ('(' :: rest) = s.descriptor.text := by
        rw [← hrest, MethodDescriptor.text]
      simp only [parseKey, hsplit, hname, htext]
      rwa [← hname, String.ofList_toList]

end Signature

end LiveTypes
