import LiveTypes.Proofs.Bytes.Cursor
import LiveTypes.TypeUnit.Format

/-!
# Reading back a unit

Decoding gives back a unit that was encoded, if its texts, blobs and tables are short enough for
their counts and its descriptors are read back (`decode_encode`). What decoding gives is always short
enough for its counts (`bounded_of_decode`), and no field is of type void
(`fields_ne_void_of_decode`).
-/

namespace LiveTypes

namespace Decoder

variable {ε α : Type}

lemma toNat_ofNat {n : Nat} (h : n < UInt32.size) : (UInt32.ofNat n).toNat = n :=
  UInt32.toNat_ofNat_of_lt' h

lemma reads_bytes (l : List UInt8) : Reads (bytes l.length) l l :=
  fun p rest => bytes_append l rest p

lemma reads_blob {l : List UInt8} (h : l.length < UInt32.size) : Reads blob (encodeBlob l) l := by
  have hbytes : Reads (bytes (UInt32.ofNat l.length).toNat) l l := by
    rw [toNat_ofNat h]
    exact reads_bytes l
  exact (reads_u32 _).bind hbytes

/-- The bytes of a text are text. -/
lemma fromUTF8?_textBytes (s : String) : String.fromUTF8? ⟨(textBytes s).toArray⟩ = some s := by
  have hbytes : (⟨(textBytes s).toArray⟩ : ByteArray) = s.toByteArray := rfl
  rw [hbytes, String.fromUTF8?, dif_pos s.isValidUTF8]
  rfl

lemma reads_text {s : String} (h : (textBytes s).length < UInt32.size) :
    Reads text (encodeText s) s := by
  intro p rest
  refine bind_eq_ok.mpr ⟨_, _, rfl, bind_eq_ok.mpr ⟨textBytes s, _, reads_blob h p rest, ?_⟩⟩
  rw [fromUTF8?_textBytes]
  rfl

lemma reads_many {d : Decoder ε α} {encode : α → List UInt8} {l : List α}
    (h : ∀ a ∈ l, Reads d (encode a) a) : Reads (many d l.length) (l.flatMap encode) l := by
  induction l with
  | nil => exact reads_pure []
  | cons a rest ih =>
    obtain ⟨ha, hrest⟩ := List.forall_mem_cons.mp h
    exact ha.bind ((ih hrest).map _)

lemma reads_table {count : Decoder ε UInt32} {d : Decoder ε α} {encode : α → List UInt8}
    {l : List α} (hcount : ∀ n, Reads count (encodeU32 n) n) (hlength : l.length < UInt32.size)
    (h : ∀ a ∈ l, Reads d (encode a) a) : Reads (table count d) (encodeTable encode l) l := by
  have hmany : Reads (many d (UInt32.ofNat l.length).toNat) (l.flatMap encode) l := by
    rw [toNat_ofNat hlength]
    exact reads_many h
  exact (hcount _).bind hmany

lemma Reads.inUnit {d : Decoder DecodeError α} {bytes : List UInt8} {a : α} (h : Reads d bytes a) :
    Reads (inUnit d) bytes a := by
  intro p rest
  show EStateM.adaptExcept UnitError.decode d _ = _
  rw [EStateM.adaptExcept, h p rest]

lemma reads_ofDescriptor {r : Except DescriptorError α} {a : α} (h : r = .ok a) :
    Reads (ofDescriptor r) [] a := by
  rw [h]
  exact reads_pure a

end Decoder

open Decoder

/-- A text that is short enough for its count. -/
def Short (s : String) : Prop := (textBytes s).length < UInt32.size

instance (s : String) : Decidable (Short s) := inferInstanceAs (Decidable (_ < _))

lemma reads_short {s : String} (h : Short s) : Reads (inUnit text) (encodeText s) s :=
  (reads_text h).inUnit

/-! ### Parts of a unit -/

structure FieldDecl.Encodable (f : FieldDecl) : Prop where
  name : Short f.name
  descriptor : Short f.type.text
  parse : TypeDescriptor.parse f.type.text = .ok f.type

lemma FieldDecl.Encodable.reads {f : FieldDecl} (h : f.Encodable) :
    Reads FieldDecl.read f.encode f := by
  have hencode : f.encode =
      encodeText f.name ++ (encodeText f.type.text ++ ([] ++ encodeU32 f.flags)) := by
    simp [encode]
  rw [hencode]
  exact (reads_short h.name).bind ((reads_short h.descriptor).bind
    ((reads_ofDescriptor h.parse).bind ((reads_u32 f.flags).inUnit.map _)))

structure MethodDecl.Encodable (m : MethodDecl) : Prop where
  name : Short m.signature.name
  descriptor : Short m.signature.descriptor.text
  parse : Signature.ofParts m.signature.name m.signature.descriptor.text = .ok m.signature
  throws_length : m.throws.length < UInt32.size
  throws : ∀ s ∈ m.throws, Short s
  code : m.code.length < UInt32.size

lemma MethodDecl.Encodable.reads {m : MethodDecl} (h : m.Encodable) :
    Reads MethodDecl.read m.encode m := by
  have hthrows : Reads (inUnit (table u32 text)) (encodeTable encodeText m.throws) m.throws :=
    (reads_table reads_u32 h.throws_length fun s hs => reads_text (h.throws s hs)).inUnit
  have hencode : m.encode = encodeText m.signature.name ++
      (encodeText m.signature.descriptor.text ++ ([] ++ (encodeU32 m.flags ++
        (encodeTable encodeText m.throws ++ (encodeU16 m.locals ++ encodeBlob m.code))))) := by
    simp [encode]
  rw [hencode]
  exact (reads_short h.name).bind ((reads_short h.descriptor).bind
    ((reads_ofDescriptor h.parse).bind ((reads_u32 m.flags).inUnit.bind (hthrows.bind
      ((reads_u16 m.locals).inUnit.bind ((reads_blob h.code).inUnit.map _))))))

structure Attribute.Encodable (a : Attribute) : Prop where
  name : Short a.name
  data : a.data.length < UInt32.size

lemma Attribute.Encodable.reads {a : Attribute} (h : a.Encodable) :
    Reads Attribute.read a.encode a :=
  (reads_short h.name).bind ((reads_blob h.data).inUnit.map _)

structure ConstantPool.Encodable (p : ConstantPool) : Prop where
  strings_size : p.strings.size < UInt32.size
  strings : ∀ s ∈ p.strings.toList, Short s
  integers_length : p.integers.length < UInt32.size
  floats_length : p.floats.length < UInt32.size

lemma ConstantPool.Encodable.reads {p : ConstantPool} (h : p.Encodable) :
    Reads ConstantPool.read p.encode p := by
  have hstrings : Reads (table u32 text) (encodeTable encodeText p.strings.toList)
      p.strings.toList :=
    reads_table reads_u32 (by simpa using h.strings_size) fun s hs => reads_text (h.strings s hs)
  have hintegers : Reads (table u32 i64) (encodeTable encodeI64 p.integers) p.integers :=
    reads_table reads_u32 h.integers_length fun i _ => reads_i64 i
  have hfloats : Reads (table u32 f64) (encodeTable (fun d => encodeU64 d.bits) p.floats)
      p.floats :=
    reads_table reads_u32 h.floats_length fun d _ => reads_f64 d
  have hencode : p.encode = encodeTable encodeText p.strings.toList ++
      (encodeTable encodeI64 p.integers ++
        encodeTable (fun d => encodeU64 d.bits) p.floats) := by
    simp [encode, encodeTable]
  rw [hencode]
  exact hstrings.bind (hintegers.bind (hfloats.map _))

/-! ### Units -/

namespace TypeUnit

/-- A unit that is read back. -/
structure Encodable (u : TypeUnit) : Prop where
  name : Short u.name
  nonempty : u.name ≠ ""
  superName : ∀ s, u.superName = some s → Short s
  constants : u.constants.Encodable
  fields_length : u.fields.length < UInt32.size
  fields : ∀ f ∈ u.fields, f.Encodable
  methods_length : u.methods.length < UInt32.size
  methods : ∀ m ∈ u.methods, m.Encodable
  attributes_length : u.attributes.length < UInt32.size
  attributes : ∀ a ∈ u.attributes, a.Encodable

lemma reads_super {o : Option String} (h : ∀ s, o = some s → Short s) :
    Reads readSuper (encodeSuper o) o := by
  cases o with
  | none =>
    have hnone : Reads readSuper ([0] ++ []) none := (reads_u8 0).inUnit.bind (reads_pure none)
    exact hnone
  | some s => exact (reads_u8 1).inUnit.bind ((reads_short (h s rfl)).map _)

lemma Encodable.reads_body {u : TypeUnit} (h : u.Encodable) :
    Reads (readBody u.formatFlags) u.encodeBody u := by
  have hcount (n : UInt32) : Reads (inUnit u32) (encodeU32 n) n := (reads_u32 n).inUnit
  have hfields : Reads (table (inUnit u32) FieldDecl.read) (encodeTable FieldDecl.encode u.fields)
      u.fields :=
    reads_table hcount h.fields_length fun f hf => (h.fields f hf).reads
  have hmethods : Reads (table (inUnit u32) MethodDecl.read)
      (encodeTable MethodDecl.encode u.methods) u.methods :=
    reads_table hcount h.methods_length fun m hm => (h.methods m hm).reads
  have hattributes : Reads (table (inUnit u32) Attribute.read)
      (encodeTable Attribute.encode u.attributes) u.attributes :=
    reads_table hcount h.attributes_length fun a ha => (h.attributes a ha).reads
  have hencode : u.encodeBody = encodeText u.name ++ (encodeSuper u.superName ++
      (encodeU32 u.access ++ (u.constants.encode ++ (encodeTable FieldDecl.encode u.fields ++
        (encodeTable MethodDecl.encode u.methods ++
          encodeTable Attribute.encode u.attributes))))) := by
    simp [encodeBody]
  have hne : u.name.isEmpty = false := by simpa using h.nonempty
  rw [hencode]
  refine (reads_short h.name).bind ?_
  rw [hne]
  exact (reads_super h.superName).bind ((hcount u.access).bind (h.constants.reads.inUnit.bind
    (hfields.bind (hmethods.bind (hattributes.map _)))))

def headerWith (flags stored : UInt32) : List UInt8 :=
  UnitFormat.magic ++ (encodeU32 UnitFormat.version ++ (encodeU32 flags ++ encodeU32 stored))

@[simp] lemma length_headerWith (flags stored : UInt32) : (headerWith flags stored).length = 16 := by
  simp [headerWith, UnitFormat.magic]

/-- The checksum is what the first twelve bytes leave of a header. -/
lemma headerWith_append (flags stored : UInt32) (body : List UInt8) :
    headerWith flags stored ++ body = (UnitFormat.magic ++ encodeU32 UnitFormat.version ++
      encodeU32 flags) ++ (encodeU32 stored ++ body) := by
  simp [headerWith]

lemma encodeHeader_eq (flags : UInt32) (body : List UInt8) :
    encodeHeader flags body = headerWith flags (checksum body) := by
  simp [encodeHeader, headerWith]

/-- A header is read up to its checksum, which decides. -/
lemma readHeader_headerWith (flags stored : UInt32) (body : List UInt8) :
    readHeader (.start (headerWith flags stored ++ body)) =
      if stored ≠ checksum body then .error (.checksumMismatch stored (checksum body)) ⟨16, body⟩
      else .ok flags ⟨16, body⟩ := by
  rw [headerWith_append, List.append_assoc, List.append_assoc, Cursor.start]
  refine (bind_of_ok ((reads_bytes UnitFormat.magic).inUnit 0 _)).trans ?_
  rw [if_neg (not_not.mpr rfl)]
  refine (bind_of_ok ((reads_u32 UnitFormat.version).inUnit 4 _)).trans ?_
  rw [if_neg (not_not.mpr rfl)]
  refine (bind_of_ok ((reads_u32 flags).inUnit 8 _)).trans ?_
  refine (bind_of_ok ((reads_u32 stored).inUnit 12 body)).trans ?_
  refine (bind_of_ok (d := get) rfl).trans ?_
  show (if stored ≠ checksum body then throw _ >>= _ else _ : Decoder UnitError UInt32) _ = _
  split
  · rfl
  · rfl

lemma readHeader_encode (flags : UInt32) (body : List UInt8) :
    readHeader (.start (encodeHeader flags body ++ body)) = .ok flags ⟨16, body⟩ := by
  rw [encodeHeader_eq, readHeader_headerWith, if_neg (not_not.mpr rfl)]

/-- Decoding gives back the unit that was encoded. -/
theorem decode_encode {u : TypeUnit} (h : u.Encodable) : decode u.encode = .ok u := by
  have hbody := h.reads_body 16 []
  rw [List.append_nil] at hbody
  have hread : (readHeader >>= readBody) (.start u.encode) =
      .ok u ⟨16 + u.encodeBody.length, []⟩ :=
    bind_eq_ok.mpr ⟨_, _, readHeader_encode u.formatFlags u.encodeBody, hbody⟩
  rw [decode, hread]
  rfl

end TypeUnit

/-! ### What is read is short enough for its counts -/

namespace Decoder

lemma inUnit_eq_ok {α : Type} {d : Decoder DecodeError α} {c c' : Cursor} {a : α} :
    inUnit d c = .ok a c' ↔ d c = .ok a c' := by
  show EStateM.adaptExcept UnitError.decode d c = _ ↔ _
  rw [EStateM.adaptExcept]
  cases d c <;> simp

lemma length_of_blob {c c' : Cursor} {l : List UInt8} (h : blob c = .ok l c') :
    l.length < UInt32.size := by
  obtain ⟨n, c₁, -, hbytes⟩ := bind_eq_ok.mp h
  rw [(bytes_eq_ok_iff.mp hbytes).2.1]
  exact n.toNat_lt

/-- What is read many times is read each time. -/
lemma many_eq_ok {ε α : Type} {d : Decoder ε α} {n : Nat} {c c' : Cursor} {l : List α}
    (h : many d n c = .ok l c') :
    l.length = n ∧ ∀ a ∈ l, ∃ c₁ c₂, d c₁ = .ok a c₂ := by
  induction n generalizing c l with
  | zero =>
    obtain ⟨rfl, -⟩ := pure_eq_ok.mp h
    simp
  | succ n ih =>
    obtain ⟨a, c₁, ha, h⟩ := bind_eq_ok.mp h
    obtain ⟨rest, c₂, hrest, h⟩ := bind_eq_ok.mp h
    obtain ⟨rfl, rfl⟩ := pure_eq_ok.mp h
    obtain ⟨hlength, hall⟩ := ih hrest
    exact ⟨by simp [hlength], List.forall_mem_cons.mpr ⟨⟨c, c₁, ha⟩, hall⟩⟩

lemma table_eq_ok {ε α : Type} {count : Decoder ε UInt32} {d : Decoder ε α} {c c' : Cursor}
    {l : List α} (h : table count d c = .ok l c') :
    l.length < UInt32.size ∧ ∀ a ∈ l, ∃ c₁ c₂, d c₁ = .ok a c₂ := by
  obtain ⟨n, c₁, -, hmany⟩ := bind_eq_ok.mp h
  obtain ⟨hlength, hall⟩ := many_eq_ok hmany
  exact ⟨hlength ▸ n.toNat_lt, hall⟩

end Decoder

lemma TypeDescriptor.ne_void_of_parse {s : String} {t : TypeDescriptor} (h : parse s = .ok t) :
    t ≠ .void := by
  unfold parse at h
  split at h
  · cases h
  · split_ifs at h with _ hvoid
    obtain rfl := Except.ok.inj h
    exact hvoid

lemma FieldDecl.ne_void_of_read {f : FieldDecl} {c c' : Cursor} (h : FieldDecl.read c = .ok f c') :
    f.type ≠ .void := by
  simp only [FieldDecl.read, bind_eq_ok, inUnit_eq_ok, pure_eq_ok] at h
  obtain ⟨name, _, -, text, _, -, type, _, htype, flags, _, -, rfl, -⟩ := h
  cases hparse : TypeDescriptor.parse text with
  | ok type' =>
    rw [hparse] at htype
    obtain ⟨rfl, -⟩ := pure_eq_ok.mp htype
    exact TypeDescriptor.ne_void_of_parse hparse
  | error e =>
    rw [hparse] at htype
    cases htype

lemma MethodDecl.length_of_read {m : MethodDecl} {c c' : Cursor} (h : MethodDecl.read c = .ok m c') :
    m.code.length < UInt32.size := by
  simp only [MethodDecl.read, bind_eq_ok, inUnit_eq_ok, pure_eq_ok] at h
  obtain ⟨name, _, -, text, _, -, signature, _, -, flags, _, -, throws, _, -, locals, _, -, code, _,
    hcode, rfl, -⟩ := h
  exact length_of_blob hcode

namespace TypeUnit

/-- A unit whose members are counted by 32-bit numbers. -/
structure Bounded (u : TypeUnit) : Prop where
  fields_length : u.fields.length < UInt32.size
  methods_length : u.methods.length < UInt32.size
  code_length : ∀ m ∈ u.methods, m.code.length < UInt32.size

/-- The fields and the methods of a unit are read from tables of its bytes. -/
lemma tables_of_decode {data : List UInt8} {u : TypeUnit} (h : decode data = .ok u) :
    (∃ c c', table (inUnit u32) FieldDecl.read c = .ok u.fields c') ∧
      ∃ c c', table (inUnit u32) MethodDecl.read c = .ok u.methods c' := by
  unfold decode at h
  split at h
  · cases h
  · next u' c hread =>
    split at h
    · obtain rfl := Except.ok.inj h
      obtain ⟨flags, _, -, hbody⟩ := bind_eq_ok.mp hread
      obtain ⟨name, c₁, -, hbody⟩ := bind_eq_ok.mp hbody
      split at hbody
      · obtain ⟨_, _, hthrow, -⟩ := bind_eq_ok.mp hbody
        cases hthrow
      · simp only [bind_eq_ok, inUnit_eq_ok, pure_eq_ok] at hbody
        obtain ⟨superName, _, -, access, _, -, constants, _, -, fields, _, hfields, methods, _,
          hmethods, attributes, _, -, rfl, -⟩ := hbody
        exact ⟨⟨_, _, hfields⟩, _, _, hmethods⟩
    · cases h

/-- What is read from bytes is bounded. -/
theorem bounded_of_decode {data : List UInt8} {u : TypeUnit} (h : decode data = .ok u) :
    u.Bounded := by
  obtain ⟨⟨_, _, hfields⟩, _, _, hmethods⟩ := tables_of_decode h
  refine ⟨(table_eq_ok hfields).1, (table_eq_ok hmethods).1, fun m hm => ?_⟩
  obtain ⟨_, _, hread⟩ := (table_eq_ok hmethods).2 m hm
  exact MethodDecl.length_of_read hread

/-- The fields that are read from bytes hold values. -/
theorem fields_ne_void_of_decode {data : List UInt8} {u : TypeUnit} (h : decode data = .ok u) :
    ∀ f ∈ u.fields, f.type ≠ .void := by
  obtain ⟨⟨_, _, hfields⟩, -⟩ := tables_of_decode h
  intro f hf
  obtain ⟨_, _, hread⟩ := (table_eq_ok hfields).2 f hf
  exact FieldDecl.ne_void_of_read hread

end TypeUnit

end LiveTypes
