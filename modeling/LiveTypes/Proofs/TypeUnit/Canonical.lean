import LiveTypes.Proofs.Descriptor.Reading
import LiveTypes.Proofs.TypeUnit.Format

/-!
# Units and their bytes

A unit that can be written is read back (`Expressible.decode_encode`), and bytes that are read as a unit
are the bytes of that unit (`encode_eq_iff_of_decode`). Only one byte is read leniently: whatever else
than zero stands before the name of the supertype is written as a one.
-/

namespace LiveTypes

/-! ### What is read are the bytes of what it is read as -/

namespace Decoder

variable {ε α β : Type} {c c' : Cursor}

lemma takesForm_blob : TakesForm blob encodeBlob := by
  intro c l c' h
  obtain ⟨n, c₁, hcount, hbytes⟩ := bind_eq_ok.mp h
  obtain ⟨hrest, hlength, -⟩ := bytes_eq_ok_iff.mp hbytes
  rw [takesForm_u32 _ _ _ hcount, hrest, encodeBlob, hlength, UInt32.ofNat_toNat, List.append_assoc]

/-- What is read as text are the bytes of the text. -/
lemma textBytes_of_fromUTF8? {l : List UInt8} {s : String}
    (h : String.fromUTF8? ⟨l.toArray⟩ = some s) : textBytes s = l := by
  unfold String.fromUTF8? at h
  split at h
  · obtain rfl := Option.some.inj h
    rfl
  · cases h

lemma text_eq_ok {s : String} (h : text c = .ok s c') : blob c = .ok (textBytes s) c' := by
  obtain ⟨before, c₁, hget, h⟩ := bind_eq_ok.mp h
  obtain ⟨rfl, rfl⟩ := get_eq_ok.mp hget
  obtain ⟨l, c₁, hblob, h⟩ := bind_eq_ok.mp h
  cases hs : String.fromUTF8? ⟨l.toArray⟩ with
  | some s' =>
    rw [hs] at h
    obtain ⟨rfl, rfl⟩ := pure_eq_ok.mp h
    rwa [textBytes_of_fromUTF8? hs]
  | none =>
    rw [hs] at h
    cases h

lemma takesForm_text : TakesForm text encodeText :=
  fun _ _ _ h => takesForm_blob _ _ _ (text_eq_ok h)

lemma takesForm_many {d : Decoder ε α} {encode : α → List UInt8} (hd : TakesForm d encode) {n : Nat}
    {l : List α} (h : many d n c = .ok l c') : c.rest = l.flatMap encode ++ c'.rest := by
  induction n generalizing c l with
  | zero =>
    obtain ⟨rfl, rfl⟩ := pure_eq_ok.mp h
    rfl
  | succ n ih =>
    obtain ⟨a, c₁, ha, h⟩ := bind_eq_ok.mp h
    obtain ⟨rest, c₂, hrest, h⟩ := bind_eq_ok.mp h
    obtain ⟨rfl, rfl⟩ := pure_eq_ok.mp h
    rw [hd _ _ _ ha, ih hrest, List.flatMap_cons, List.append_assoc]

lemma takesForm_table {count : Decoder ε UInt32} {d : Decoder ε α} {encode : α → List UInt8}
    (hcount : TakesForm count encodeU32) (hd : TakesForm d encode) :
    TakesForm (table count d) (encodeTable encode) := by
  intro c l c' h
  obtain ⟨n, c₁, hn, hmany⟩ := bind_eq_ok.mp h
  rw [hcount _ _ _ hn, takesForm_many hd hmany, encodeTable, (many_eq_ok hmany).1,
    UInt32.ofNat_toNat, List.append_assoc]

lemma TakesForm.inUnit {d : Decoder DecodeError α} {encode : α → List UInt8}
    (h : TakesForm d encode) : TakesForm (inUnit d) encode :=
  fun c a c' hread => h c a c' (inUnit_eq_ok.mp hread)

lemma throw_bind_ne_ok {e : ε} {f : α → Decoder ε β} {b : β} : (throw e >>= f) c ≠ .ok b c' := by
  intro h
  obtain ⟨_, _, hthrow, -⟩ := bind_eq_ok.mp h
  cases hthrow

/-- A check that throws is passed when its condition does not hold. -/
lemma guard_eq_ok {p : Prop} [Decidable p] {e : ε} {f : α → Decoder ε β} {d : Decoder ε β} {b : β} :
    (if p then throw e >>= f else d) c = .ok b c' ↔ ¬ p ∧ d c = .ok b c' := by
  split_ifs with hp
  · simp [hp, throw_bind_ne_ok]
  · simp [hp]

lemma ofDescriptor_eq_ok {r : Except DescriptorError α} {a : α} :
    ofDescriptor r c = .ok a c' ↔ r = .ok a ∧ c = c' := by
  cases r with
  | ok b => exact pure_eq_ok.trans (by simp)
  | error e =>
    constructor
    · intro h
      cases h
    · rintro ⟨h, -⟩
      cases h

end Decoder

open Decoder

/-! ### Parts of a unit -/

lemma FieldDecl.takesForm_read : TakesForm FieldDecl.read FieldDecl.encode := by
  intro c f c' h
  simp only [FieldDecl.read, bind_eq_ok, pure_eq_ok, ofDescriptor_eq_ok] at h
  obtain ⟨name, c₁, hname, text, c₂, htext, type, c₃, ⟨htype, rfl⟩, flags, c₄, hflags, rfl, rfl⟩ := h
  obtain ⟨-, -, rfl⟩ := TypeDescriptor.parse_eq_ok_iff.mp htype
  simp [takesForm_text.inUnit _ _ _ hname, takesForm_text.inUnit _ _ _ htext,
    takesForm_u32.inUnit _ _ _ hflags, encode]

lemma MethodDecl.takesForm_read : TakesForm MethodDecl.read MethodDecl.encode := by
  intro c m c' h
  simp only [MethodDecl.read, bind_eq_ok, pure_eq_ok, ofDescriptor_eq_ok] at h
  obtain ⟨name, c₁, hname, text, c₂, htext, signature, c₃, ⟨hsignature, rfl⟩, flags, c₄, hflags, throws,
    c₅, hthrows, locals, c₆, hlocals, code, c₇, hcode, rfl, rfl⟩ := h
  obtain ⟨rfl, -, -, rfl⟩ := Signature.ofParts_eq_ok_iff.mp hsignature
  simp [takesForm_text.inUnit _ _ _ hname, takesForm_text.inUnit _ _ _ htext,
    takesForm_u32.inUnit _ _ _ hflags,
    (takesForm_table takesForm_u32 takesForm_text).inUnit _ _ _ hthrows,
    takesForm_u16.inUnit _ _ _ hlocals, takesForm_blob.inUnit _ _ _ hcode, encode]

lemma Attribute.takesForm_read : TakesForm Attribute.read Attribute.encode := by
  intro c a c' h
  simp only [Attribute.read, bind_eq_ok, pure_eq_ok] at h
  obtain ⟨name, c₁, hname, data, c₂, hdata, rfl, rfl⟩ := h
  simp [takesForm_text.inUnit _ _ _ hname, takesForm_blob.inUnit _ _ _ hdata, encode]

lemma ConstantPool.takesForm_read : TakesForm ConstantPool.read ConstantPool.encode := by
  intro c p c' h
  simp only [ConstantPool.read, bind_eq_ok, pure_eq_ok] at h
  obtain ⟨strings, c₁, hstrings, integers, c₂, hintegers, floats, c₃, hfloats, rfl, rfl⟩ := h
  simp [takesForm_table takesForm_u32 takesForm_text _ _ _ hstrings,
    takesForm_table takesForm_u32 takesForm_i64 _ _ _ hintegers,
    takesForm_table takesForm_u32 takesForm_f64 _ _ _ hfloats, encode, encodeTable]

namespace TypeUnit

variable {u u' : TypeUnit} {data : List UInt8} {presence : UInt8}

/-! ### The presence byte -/

/-- The byte that is written before an optional supertype. -/
def presenceOf (o : Option String) : UInt8 := if o.isSome then 1 else 0

/-- The bytes of a unit after the presence byte. -/
def encodeAfterPresence (u : TypeUnit) : List UInt8 :=
  (u.superName.toList.flatMap encodeText) ++ encodeU32 u.access ++ u.constants.encode ++
    encodeTable FieldDecl.encode u.fields ++ encodeTable MethodDecl.encode u.methods ++
    encodeTable Attribute.encode u.attributes

/-- The bytes after the header, with any presence byte. -/
def encodeBodyWith (presence : UInt8) (u : TypeUnit) : List UInt8 :=
  encodeText u.name ++ presence :: u.encodeAfterPresence

def encodeWith (presence : UInt8) (u : TypeUnit) : List UInt8 :=
  encodeHeader u.formatFlags (u.encodeBodyWith presence) ++ u.encodeBodyWith presence

lemma encodeSuper_eq (o : Option String) :
    encodeSuper o = presenceOf o :: o.toList.flatMap encodeText := by
  cases o <;> simp [encodeSuper, presenceOf]

lemma encode_eq (u : TypeUnit) : u.encode = u.encodeWith (presenceOf u.superName) := by
  have hbody : u.encodeBody = u.encodeBodyWith (presenceOf u.superName) := by
    simp [encodeBody, encodeBodyWith, encodeAfterPresence, encodeSuper_eq]
  simp only [encode, encodeWith, hbody]

/-- The place of the presence byte in bytes: behind the header and the name with its length. -/
def presencePlace (data : List UInt8) : Nat := 20 + numberOf ((data.drop 16).take 4)

lemma length_encodeHeader (flags : UInt32) (body : List UInt8) :
    (encodeHeader flags body).length = 16 := by
  simp [encodeHeader, UnitFormat.magic]

lemma presencePlace_encodeWith (h : Short u.name) :
    presencePlace (u.encodeWith presence) = 20 + (textBytes u.name).length := by
  have hname : ((u.encodeWith presence).drop 16).take 4 =
      encodeU32 (UInt32.ofNat (textBytes u.name).length) := by
    rw [encodeWith, List.drop_left' (length_encodeHeader _ _), encodeBodyWith, encodeText, encodeBlob]
    simp
  rw [presencePlace, hname, encodeU32, toNat_ofNat h, numberOf_bytesOf h]

/-- The presence byte stands at its place. -/
lemma getElem?_presencePlace (h : Short u.name) :
    (u.encodeWith presence)[presencePlace (u.encodeWith presence)]? = some presence := by
  have hplace : presencePlace (u.encodeWith presence) =
      (encodeHeader u.formatFlags (u.encodeBodyWith presence) ++ encodeText u.name).length := by
    rw [presencePlace_encodeWith h, List.length_append, length_encodeHeader, encodeText, encodeBlob,
      List.length_append, length_encodeU32]
    omega
  rw [hplace, encodeWith, encodeBodyWith, ← List.append_assoc,
    List.getElem?_append_right (Nat.le_refl _), Nat.sub_self]
  rfl

/-! ### Reading a unit -/

lemma readHeader_eq_ok {flags : UInt32} {c c' : Cursor} (h : readHeader c = .ok flags c') :
    c.rest = encodeHeader flags c'.rest ++ c'.rest := by
  obtain ⟨magic, c₁, hmagic, h⟩ := bind_eq_ok.mp h
  obtain ⟨hmagic', h⟩ := guard_eq_ok.mp h
  obtain ⟨version, c₂, hversion, h⟩ := bind_eq_ok.mp h
  obtain ⟨hversion', h⟩ := guard_eq_ok.mp h
  obtain ⟨formatFlags, c₃, hflags, h⟩ := bind_eq_ok.mp h
  obtain ⟨stored, c₄, hstored, h⟩ := bind_eq_ok.mp h
  obtain ⟨_, _, hget, h⟩ := bind_eq_ok.mp h
  obtain ⟨rfl, rfl⟩ := get_eq_ok.mp hget
  obtain ⟨hchecksum, h⟩ := guard_eq_ok.mp h
  obtain ⟨rfl, rfl⟩ := pure_eq_ok.mp h
  obtain rfl := not_not.mp hmagic'
  obtain rfl := not_not.mp hversion'
  obtain rfl := not_not.mp hchecksum
  simp [(bytes_eq_ok_iff.mp (inUnit_eq_ok.mp hmagic)).1, takesForm_u32.inUnit _ _ _ hversion,
    takesForm_u32.inUnit _ _ _ hflags, takesForm_u32.inUnit _ _ _ hstored, encodeHeader]

lemma readSuper_eq_ok {o : Option String} {c c' : Cursor} (h : readSuper c = .ok o c') :
    ∃ presence : UInt8, c.rest = presence :: (o.toList.flatMap encodeText ++ c'.rest) ∧
      (presence = 0 ↔ o = none) := by
  obtain ⟨presence, c₁, hpresence, h⟩ := bind_eq_ok.mp h
  refine ⟨presence, ?_⟩
  rw [takesForm_u8.inUnit _ _ _ hpresence]
  split at h
  · next hzero =>
    obtain ⟨rfl, rfl⟩ := pure_eq_ok.mp h
    simp [hzero]
  · next hzero =>
    obtain ⟨name, c₂, hname, h⟩ := bind_eq_ok.mp h
    obtain ⟨rfl, rfl⟩ := pure_eq_ok.mp h
    simp [takesForm_text.inUnit _ _ _ hname, hzero]

lemma readBody_eq_ok {flags : UInt32} {c c' : Cursor} (h : readBody flags c = .ok u c') :
    u.formatFlags = flags ∧ Short u.name ∧ ∃ presence : UInt8,
      c.rest = u.encodeBodyWith presence ++ c'.rest ∧ (presence = 0 ↔ u.superName = none) := by
  obtain ⟨name, c₁, hname, h⟩ := bind_eq_ok.mp h
  obtain ⟨-, h⟩ := guard_eq_ok.mp h
  simp only [bind_eq_ok, pure_eq_ok] at h
  obtain ⟨superName, c₂, hsuper, access, c₃, haccess, constants, c₄, hconstants, fields, c₅, hfields,
    methods, c₆, hmethods, attributes, c₇, hattributes, rfl, rfl⟩ := h
  obtain ⟨presence, hrest, hpresence⟩ := readSuper_eq_ok hsuper
  have hshort : Short name := length_of_blob (text_eq_ok (inUnit_eq_ok.mp hname))
  refine ⟨rfl, hshort, presence, ?_, hpresence⟩
  have hcount := takesForm_u32.inUnit
  simp [takesForm_text.inUnit _ _ _ hname, hrest, takesForm_u32.inUnit _ _ _ haccess,
    ConstantPool.takesForm_read.inUnit _ _ _ hconstants,
    takesForm_table hcount FieldDecl.takesForm_read _ _ _ hfields,
    takesForm_table hcount MethodDecl.takesForm_read _ _ _ hmethods,
    takesForm_table hcount Attribute.takesForm_read _ _ _ hattributes, encodeBodyWith,
    encodeAfterPresence]

/-- Bytes that are read as a unit are those of the unit with some presence byte. -/
lemma exists_presence_of_decode (h : decode data = .ok u) : Short u.name ∧ ∃ presence : UInt8,
    data = u.encodeWith presence ∧ (presence = 0 ↔ u.superName = none) := by
  unfold decode at h
  split at h
  · cases h
  · next u₁ c hread =>
    split at h
    · next hend =>
      obtain rfl := Except.ok.inj h
      obtain ⟨flags, c₁, hheader, hbody⟩ := bind_eq_ok.mp hread
      obtain ⟨rfl, hshort, presence, hrest, hpresence⟩ := readBody_eq_ok hbody
      have hend : c.rest = [] := by simpa [Cursor.atEnd] using hend
      rw [hend, List.append_nil] at hrest
      refine ⟨hshort, presence, ?_, hpresence⟩
      have hdata := readHeader_eq_ok hheader
      rwa [hrest] at hdata
    · cases h

/-! ### Units that can be written -/

/-- A unit with a name, whose types can be read back and whose texts, blobs and tables are short enough
for their counts. -/
structure Expressible (u : TypeUnit) : Prop where
  nonempty : u.name ≠ ""
  /-- Every text of the unit is short enough for its count. -/
  name : Short u.name
  superName : ∀ s, u.superName = some s → Short s
  constants : u.constants.Encodable
  fields_length : u.fields.length < UInt32.size
  fields : ∀ f ∈ u.fields, Short f.name ∧ Short f.type.text
  methods_length : u.methods.length < UInt32.size
  methods : ∀ m ∈ u.methods, Short m.signature.name ∧ Short m.signature.descriptor.text ∧
    m.throws.length < UInt32.size ∧ (∀ s ∈ m.throws, Short s) ∧ m.code.length < UInt32.size
  attributes_length : u.attributes.length < UInt32.size
  attributes : ∀ a ∈ u.attributes, Short a.name ∧ a.data.length < UInt32.size
  /-- Fields hold values of types that can be read back. -/
  fieldTypes : ∀ f ∈ u.fields, f.type.WellNamed ∧ f.type ≠ .void
  paramTypes : ∀ m ∈ u.methods, ∀ t ∈ m.signature.descriptor.params, t.Passable
  resultTypes : ∀ m ∈ u.methods, m.signature.descriptor.result.WellNamed

lemma Expressible.encodable (h : u.Expressible) : u.Encodable where
  name := h.name
  nonempty := h.nonempty
  superName := h.superName
  constants := h.constants
  fields_length := h.fields_length
  fields f hf := by
    obtain ⟨hname, hdescriptor⟩ := h.fields f hf
    obtain ⟨hnamed, hvoid⟩ := h.fieldTypes f hf
    exact ⟨hname, hdescriptor, TypeDescriptor.parse_eq_ok_iff.mpr ⟨hnamed, hvoid, rfl⟩⟩
  methods_length := h.methods_length
  methods m hm := by
    obtain ⟨hname, hdescriptor, hlength, hthrows, hcode⟩ := h.methods m hm
    exact ⟨hname, hdescriptor, Signature.ofParts_eq_ok_iff.mpr
      ⟨rfl, h.paramTypes m hm, h.resultTypes m hm, rfl⟩, hlength, hthrows, hcode⟩
  attributes_length := h.attributes_length
  attributes a ha := ⟨(h.attributes a ha).1, (h.attributes a ha).2⟩

/-- A unit that can be written is read back from its bytes. -/
theorem Expressible.decodes (h : u.Expressible) : decode u.encode = .ok u :=
  decode_encode h.encodable

/-- A unit with something in every table, and names with brackets in them. -/
def bracketed : TypeUnit where
  formatFlags := 0xFFFFFFFF
  name := "a.B"
  superName := some "a.π"
  access := 0x80000001
  constants := ⟨#["", "f(", "λ"], [-1, 7], [⟨0x7FF8000000000001⟩, ⟨0x8000000000000000⟩]⟩
  fields := [⟨"x", .object "a.C)", 2⟩, ⟨"", .f64, 0⟩]
  methods := [⟨⟨"f(", ⟨[.object "a.(D", .bool], .object "a.)E"⟩⟩, 9, ["a.X", ""], 3, [0xFF, 0]⟩,
    ⟨⟨"", ⟨[], .void⟩⟩, 0, [], 0, []⟩]
  attributes := [⟨"n", [1, 2, 3]⟩]

/-- The unit can be written, and is read back. -/
theorem decodes_bracketed : bracketed.Expressible ∧ decode bracketed.encode = .ok bracketed := by
  have h : bracketed.Expressible := {
    nonempty := by decide
    name := by decide
    superName := by
      rintro s ⟨⟩
      decide
    constants := ⟨by decide, by decide, by decide, by decide⟩
    fields_length := by decide
    fields := by decide
    methods_length := by decide
    methods := by decide
    attributes_length := by decide
    attributes := by decide
    fieldTypes := by decide
    paramTypes := by decide
    resultTypes := by decide }
  exact ⟨h, h.decodes⟩

/-! ### One form for each unit -/

lemma length_encodeWith (presence : UInt8) (u : TypeUnit) : (u.encodeWith presence).length =
    16 + ((encodeText u.name).length + (u.encodeAfterPresence.length + 1)) := by
  rw [encodeWith, List.length_append, length_encodeHeader, encodeBodyWith, List.length_append,
    List.length_cons]

/-- Lists that have the same parts around some of one length and an element agree outside of both. -/
lemma getElem?_eq_of_parts {α : Type} {front middle middle' between rest : List α} {a a' : α} {i : Nat}
    (hlength : middle.length = middle'.length) (hmiddle : ¬ (front.length ≤ i ∧
      i < front.length + middle.length))
    (hi : i ≠ front.length + middle.length + between.length) :
    (front ++ (middle ++ (between ++ a :: rest)))[i]? =
      (front ++ (middle' ++ (between ++ a' :: rest)))[i]? := by
  simp only [List.getElem?_append, List.getElem?_cons, hlength]
  split_ifs <;> first | rfl | omega

/-- Forms with different presence bytes differ in that byte and in the checksum only. -/
lemma getElem?_encodeWith {presence' : UInt8} (h : Short u.name) {i : Nat}
    (hplace : i ≠ presencePlace (u.encodeWith presence)) (hchecksum : ¬ (12 ≤ i ∧ i < 16)) :
    (u.encodeWith presence')[i]? = (u.encodeWith presence)[i]? := by
  have hparts (p : UInt8) : u.encodeWith p =
      (UnitFormat.magic ++ encodeU32 UnitFormat.version ++ encodeU32 u.formatFlags) ++
        (encodeU32 (checksum (u.encodeBodyWith p)) ++
          (encodeText u.name ++ p :: u.encodeAfterPresence)) := by
    simp [encodeWith, encodeHeader, encodeBodyWith]
  rw [presencePlace_encodeWith h] at hplace
  rw [hparts, hparts]
  refine getElem?_eq_of_parts (by simp) ?_ ?_
  · simpa [UnitFormat.magic] using hchecksum
  · simpa [UnitFormat.magic, encodeText, encodeBlob, ← Nat.add_assoc] using hplace

lemma eq_presenceOf_iff (h : presence = 0 ↔ u.superName = none) :
    presence = presenceOf u.superName ↔ presence = 0 ∨ presence = 1 := by
  cases hsuper : u.superName with
  | none => simp [presenceOf, h.mpr hsuper]
  | some s =>
    have hne : presence ≠ 0 := fun heq => by simp [h.mp heq] at hsuper
    simp [presenceOf, hne]

lemma encode_eq_encodeWith_iff (hshort : Short u.name) (h : presence = 0 ↔ u.superName = none) :
    u.encode = u.encodeWith presence ↔ presence = 0 ∨ presence = 1 := by
  rw [encode_eq, ← eq_presenceOf_iff h]
  constructor
  · intro heq
    have hplace := @getElem?_presencePlace u (presenceOf u.superName) hshort
    rw [heq, getElem?_presencePlace hshort] at hplace
    exact Option.some.inj hplace
  · rintro rfl
    rfl

/-- Bytes with a presence byte of zero or one are those of the unit that they are read as. -/
lemma encode_eq_of_decode (h : decode data = .ok u) (hat : data[presencePlace data]? = some presence)
    (hpresence : presence = 0 ∨ presence = 1) : u.encode = data := by
  obtain ⟨hshort, presence', rfl, hsuper⟩ := exists_presence_of_decode h
  obtain rfl := Option.some.inj ((getElem?_presencePlace hshort).symm.trans hat)
  exact (encode_eq_encodeWith_iff hshort hsuper).mpr hpresence

/-- Bytes that are read as a unit are its bytes just when their presence byte is zero or one. Any other
presence byte stands for a one: the bytes of the unit then differ in it and in the checksum only. So two
byte strings with presence bytes of zero or one that are read as the same unit are the same. -/
theorem presence_of_decode (h : decode data = .ok u) :
    ∃ presence, data[presencePlace data]? = some presence ∧
      (presence = 0 ↔ u.superName = none) ∧
      (u.encode = data ↔ presence = 0 ∨ presence = 1) ∧
      (1 < presence → u.encode.length = data.length ∧
        u.encode[presencePlace data]? = some 1 ∧
        ∀ i, i ≠ presencePlace data → ¬ (12 ≤ i ∧ i < 16) → u.encode[i]? = data[i]?) ∧
      ∀ data' presence', decode data' = .ok u → data'[presencePlace data']? = some presence' →
        (presence = 0 ∨ presence = 1) → (presence' = 0 ∨ presence' = 1) → data = data' := by
  obtain ⟨hshort, presence, rfl, hsuper⟩ := exists_presence_of_decode h
  have hat := @getElem?_presencePlace u presence hshort
  refine ⟨presence, hat, hsuper, encode_eq_encodeWith_iff hshort hsuper, fun hlt => ⟨?_, ?_, ?_⟩, ?_⟩
  · rw [encode_eq, length_encodeWith, length_encodeWith]
  · have hone : presenceOf u.superName = 1 := by
      have hne : u.superName ≠ none := fun hnone => by
        rw [hsuper.mpr hnone] at hlt
        exact absurd hlt (by decide)
      cases hname : u.superName with
      | none => exact absurd hname hne
      | some s => rfl
    rw [encode_eq, hone, presencePlace_encodeWith hshort, ← @presencePlace_encodeWith u 1 hshort]
    exact getElem?_presencePlace hshort
  · intro i hplace hchecksum
    rw [encode_eq]
    exact getElem?_encodeWith hshort hplace hchecksum
  · intro data' presence' h' hat' hpresence hpresence'
    rw [← encode_eq_of_decode h hat hpresence]
    exact encode_eq_of_decode h' hat' hpresence'

set_option maxRecDepth 100000 in
/-- With a presence byte of seven the bytes are read all the same, but are not those of the unit. -/
theorem presence_of_decode_seven :
    decode (bracketed.encodeWith 7) = .ok bracketed ∧
      bracketed.encode ≠ bracketed.encodeWith 7 ∧
      bracketed.encode.length = (bracketed.encodeWith 7).length := by
  have hdecode : decode (bracketed.encodeWith 7) = .ok bracketed := by
    decide +kernel
  obtain ⟨presence, hat, -, hiff, hlenient, -⟩ := presence_of_decode hdecode
  have hseven : presence = 7 :=
    Option.some.inj (hat.symm.trans (getElem?_presencePlace (by decide)))
  subst hseven
  exact ⟨hdecode, fun heq => absurd (hiff.mp heq) (by decide), (hlenient (by decide)).1⟩

end TypeUnit

end LiveTypes
