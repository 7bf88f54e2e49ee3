import LiveTypes.Proofs.TypeUnit.Canonical

/-!
# Readers that need all of their bytes

A reader frames its bytes when it reads a value from them, whatever follows, and comes to their end when
less than all of them is there. Reading one thing after another frames the bytes of both
(`Frames.bind`), so every reader that is put together from numbers, texts and tables frames whatever it
reads (`Framed`).
-/

namespace LiveTypes

/-- Whether the bytes ended early. -/
def DecodeError.IsEnd : DecodeError → Prop
  | .unexpectedEnd _ => True
  | _ => False

def UnitError.IsEnd : UnitError → Prop
  | .decode e => e.IsEnd
  | _ => False

lemma UnitError.isEnd_iff {e : UnitError} : e.IsEnd ↔ ∃ p, e = .decode (.unexpectedEnd p) := by
  constructor
  · intro h
    match e, h with
    | .decode (.unexpectedEnd p), _ => exact ⟨p, rfl⟩
  · rintro ⟨p, rfl⟩
    trivial

namespace Decoder

variable {ε α β : Type} {ended : ε → Prop} {d : Decoder ε α} {f : α → Decoder ε β}
  {bytes bytes' : List UInt8} {a : α} {b : β}

/-! ### Cutting off -/

/-- Whether a reader comes to the end when any part of the bytes is cut off. -/
def Starves (ended : ε → Prop) (d : Decoder ε α) (bytes : List UInt8) : Prop :=
  ∀ p front rest, bytes = front ++ rest → rest ≠ [] → ∃ e c, d ⟨p, front⟩ = .error e c ∧ ended e

lemma Starves.take (h : Starves ended d bytes) {n : Nat} (hn : n < bytes.length) (p : Nat) :
    ∃ e c, d ⟨p, bytes.take n⟩ = .error e c ∧ ended e :=
  h p (bytes.take n) (bytes.drop n) (List.take_append_drop n bytes).symm fun hnil =>
    absurd (List.drop_eq_nil_iff.mp hnil) (Nat.not_le.mpr hn)

lemma starves_nil : Starves ended d [] := fun _ _ _ h hne =>
  absurd (List.append_eq_nil_iff.mp h.symm).2 hne

/-- The bytes are cut off among the first, or among those that are read after them. -/
lemma Starves.bind (hreads : Reads d bytes a) (h : Starves ended d bytes)
    (h' : Starves ended (f a) bytes') : Starves ended (d >>= f) (bytes ++ bytes') := by
  intro p front rest hcut hne
  have hlater (later : List UInt8) (hfront : front = bytes ++ later) (hbytes : bytes' = later ++ rest) :
      ∃ e c, (d >>= f) ⟨p, front⟩ = .error e c ∧ ended e := by
    obtain ⟨e, c, herror, hend⟩ := h' (p + bytes.length) later rest hbytes hne
    exact ⟨e, c, by rw [hfront, bind_of_ok (hreads p later), herror], hend⟩
  rcases List.append_eq_append_iff.mp hcut with ⟨later, hfront, hbytes⟩ | ⟨left, hbytes, hrest⟩
  · exact hlater later hfront hbytes
  · by_cases hleft : left = []
    · subst hleft
      exact hlater [] (by simpa using hbytes.symm) (by simpa using hrest.symm)
    · obtain ⟨e, c, herror, hend⟩ := h p front left hbytes hleft
      exact ⟨e, c, bind_of_error herror, hend⟩

/-! ### Framing -/

/-- Whether a reader reads a value from bytes, whatever follows them, and needs them all. -/
structure Frames (ended : ε → Prop) (d : Decoder ε α) (bytes : List UInt8) (a : α) : Prop where
  reads : Reads d bytes a
  starves : Starves ended d bytes

lemma frames_pure (a : α) : Frames ended (pure a) [] a := ⟨reads_pure a, starves_nil⟩

lemma Frames.bind (h : Frames ended d bytes a) (h' : Frames ended (f a) bytes' b) :
    Frames ended (d >>= f) (bytes ++ bytes') b :=
  ⟨h.reads.bind h'.reads, h.starves.bind h.reads h'.starves⟩

/-- Whether a reader frames the bytes that it takes, whenever it succeeds. -/
def Framed (ended : ε → Prop) (d : Decoder ε α) : Prop :=
  ∀ c a c', d c = .ok a c' → ∃ bytes, c.rest = bytes ++ c'.rest ∧ Frames ended d bytes a

lemma framed_pure (a : α) : Framed ended (pure a) := by
  intro c a' c' h
  obtain ⟨rfl, rfl⟩ := pure_eq_ok.mp h
  exact ⟨[], rfl, frames_pure a⟩

lemma framed_throw (e : ε) : Framed ended (throw e : Decoder ε α) := by
  intro c a c' h
  cases h

lemma Framed.bind (h : Framed ended d) (h' : ∀ a, Framed ended (f a)) : Framed ended (d >>= f) := by
  intro c b c'' hbind
  obtain ⟨a, c', hd, hf⟩ := bind_eq_ok.mp hbind
  obtain ⟨bytes, hrest, hframes⟩ := h c a c' hd
  obtain ⟨bytes', hrest', hframes'⟩ := h' a c' b c'' hf
  exact ⟨bytes ++ bytes', by rw [hrest, hrest', List.append_assoc], hframes.bind hframes'⟩

lemma Framed.map (h : Framed ended d) (g : α → β) : Framed ended (do return g (← d)) :=
  h.bind fun a => framed_pure (g a)

lemma Framed.ite {p : Prop} [Decidable p] {d' : Decoder ε α} (h : Framed ended d)
    (h' : Framed ended d') : Framed ended (if p then d else d') := by
  split
  · exact h
  · exact h'

/-- The bytes that a reader frames are those from which it reads. -/
lemma Framed.frames (h : Framed ended d) (hreads : Reads d bytes a) : Frames ended d bytes a := by
  obtain ⟨bytes', hbytes, hframes⟩ := h _ _ _ (hreads 0 [])
  obtain rfl : bytes = bytes' := by simpa using hbytes
  exact hframes

/-! ### Numbers, texts and tables -/

lemma framed_bytes (n : Nat) : Framed DecodeError.IsEnd (Decoder.bytes n) := by
  intro c front c' h
  obtain ⟨hrest, rfl, -⟩ := bytes_eq_ok_iff.mp h
  refine ⟨front, hrest, reads_bytes front, fun p kept cut hcut hne => ?_⟩
  have hshort : (kept.take front.length).length ≠ front.length := by
    have hpositive := List.length_pos_iff.mpr hne
    rw [List.length_take, hcut, List.length_append]
    omega
  exact ⟨.unexpectedEnd p, ⟨p, kept⟩, by rw [Decoder.bytes, if_neg hshort], trivial⟩

lemma framed_number (width : Nat) : Framed DecodeError.IsEnd (number width) :=
  (framed_bytes width).map numberOf

lemma framed_u8 : Framed DecodeError.IsEnd u8 := (framed_number 1).map _

lemma framed_u16 : Framed DecodeError.IsEnd u16 := (framed_number 2).map _

lemma framed_u32 : Framed DecodeError.IsEnd u32 := (framed_number 4).map _

lemma framed_i64 : Framed DecodeError.IsEnd i64 := (framed_number 8).map _

lemma framed_f64 : Framed DecodeError.IsEnd f64 := (framed_number 8).map _

lemma framed_blob : Framed DecodeError.IsEnd blob := framed_u32.bind fun n => framed_bytes n.toNat

lemma text_of_blob {s : String} {c c' : Cursor} (h : blob c = .ok (textBytes s) c') :
    text c = .ok s c' := by
  refine bind_eq_ok.mpr ⟨c, c, rfl, bind_eq_ok.mpr ⟨textBytes s, c', h, ?_⟩⟩
  rw [fromUTF8?_textBytes]
  rfl

lemma framed_text : Framed DecodeError.IsEnd text := by
  intro c s c' h
  obtain ⟨bytes, hrest, hframes⟩ := framed_blob _ _ _ (text_eq_ok h)
  refine ⟨bytes, hrest, fun p rest => text_of_blob (hframes.reads p rest), ?_⟩
  intro p front rest hcut hne
  obtain ⟨e, c, herror, hend⟩ := hframes.starves p front rest hcut hne
  exact ⟨e, c, (bind_of_ok (d := get) rfl).trans (bind_of_error herror), hend⟩

lemma Framed.many (h : Framed ended d) (n : Nat) : Framed ended (many d n) := by
  induction n with
  | zero => exact framed_pure []
  | succ n ih => exact h.bind fun a => ih.map (a :: ·)

lemma Framed.table {count : Decoder ε UInt32} (hcount : Framed ended count) (h : Framed ended d) :
    Framed ended (table count d) :=
  hcount.bind fun n => h.many n.toNat

/-! ### Parts of a unit -/

lemma Framed.inUnit {d : Decoder DecodeError α} (h : Framed DecodeError.IsEnd d) :
    Framed UnitError.IsEnd (inUnit d) := by
  intro c a c' hread
  obtain ⟨bytes, hrest, hframes⟩ := h c a c' (inUnit_eq_ok.mp hread)
  refine ⟨bytes, hrest, hframes.reads.inUnit, fun p front rest hcut hne => ?_⟩
  obtain ⟨e, c, herror, hend⟩ := hframes.starves p front rest hcut hne
  refine ⟨.decode e, c, ?_, hend⟩
  show EStateM.adaptExcept UnitError.decode d _ = _
  rw [EStateM.adaptExcept, herror]

lemma framed_ofDescriptor (r : Except DescriptorError α) :
    Framed UnitError.IsEnd (ofDescriptor r) := by
  cases r with
  | ok a => exact framed_pure a
  | error e => exact framed_throw _

end Decoder

open Decoder

lemma FieldDecl.framed_read : Framed UnitError.IsEnd FieldDecl.read :=
  framed_text.inUnit.bind fun _ => framed_text.inUnit.bind fun _ =>
    (framed_ofDescriptor _).bind fun _ => framed_u32.inUnit.map _

lemma MethodDecl.framed_read : Framed UnitError.IsEnd MethodDecl.read :=
  framed_text.inUnit.bind fun _ => framed_text.inUnit.bind fun _ =>
    (framed_ofDescriptor _).bind fun _ => framed_u32.inUnit.bind fun _ =>
      (framed_u32.table framed_text).inUnit.bind fun _ => framed_u16.inUnit.bind fun _ =>
        framed_blob.inUnit.map _

lemma Attribute.framed_read : Framed UnitError.IsEnd Attribute.read :=
  framed_text.inUnit.bind fun _ => framed_blob.inUnit.map _

lemma ConstantPool.framed_read : Framed DecodeError.IsEnd ConstantPool.read :=
  (framed_u32.table framed_text).bind fun _ => (framed_u32.table framed_i64).bind fun _ =>
    (framed_u32.table framed_f64).map _

namespace TypeUnit

lemma framed_readSuper : Framed UnitError.IsEnd readSuper :=
  framed_u8.inUnit.bind fun _ => (framed_pure none).ite (framed_text.inUnit.map some)

/-- The body of a unit is framed: no unit is read from a part of it. -/
theorem framed_readBody (formatFlags : UInt32) : Framed UnitError.IsEnd (readBody formatFlags) := by
  have hcount := framed_u32.inUnit
  have hrest (name : String) : Framed UnitError.IsEnd (do
      let superName ← readSuper
      let access ← inUnit u32
      let constants ← inUnit ConstantPool.read
      let fields ← table (inUnit u32) FieldDecl.read
      let methods ← table (inUnit u32) MethodDecl.read
      let attributes ← table (inUnit u32) Attribute.read
      return (⟨formatFlags, name, superName, access, constants, fields, methods, attributes⟩ :
        TypeUnit)) :=
    framed_readSuper.bind fun _ => hcount.bind fun _ => ConstantPool.framed_read.inUnit.bind fun _ =>
      (hcount.table FieldDecl.framed_read).bind fun _ =>
        (hcount.table MethodDecl.framed_read).bind fun _ => (hcount.table Attribute.framed_read).map _
  exact framed_text.inUnit.bind fun name =>
    ((framed_throw _).bind fun _ => hrest name).ite (hrest name)

end TypeUnit

end LiveTypes
