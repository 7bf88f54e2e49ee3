import LiveTypes.Bytes.Cursor
import Mathlib.Tactic.Common

/-!
# Readers over the bytes they take

A reader that reads what was written takes just those bytes, whatever follows them, and a reader of a
fixed width takes that many. Both are kept by reading one thing after another.
-/

namespace LiveTypes.Decoder

variable {ε α β : Type} {d : Decoder ε α} {f : α → Decoder ε β}

lemma bind_eq_ok {c c'' : Cursor} {b : β} :
    (d >>= f) c = .ok b c'' ↔ ∃ a c', d c = .ok a c' ∧ f a c' = .ok b c'' := by
  change EStateM.bind d f c = _ ↔ _
  constructor
  · intro h
    cases hd : d c with
    | ok a c' =>
      rw [EStateM.bind, hd] at h
      exact ⟨a, c', rfl, h⟩
    | error e c' =>
      rw [EStateM.bind, hd] at h
      cases h
  · rintro ⟨a, c', hd, hf⟩
    rw [EStateM.bind, hd]
    exact hf

lemma bind_of_ok {c c' : Cursor} {a : α} (h : d c = .ok a c') : (d >>= f) c = f a c' := by
  show (EStateM.bind d f) c = _
  rw [EStateM.bind, h]

lemma bind_of_error {c c' : Cursor} {e : ε} (h : d c = .error e c') : (d >>= f) c = .error e c' := by
  show (EStateM.bind d f) c = _
  rw [EStateM.bind, h]

lemma pure_eq_ok {c c' : Cursor} {a a' : α} :
    (pure a : Decoder ε α) c = .ok a' c' ↔ a = a' ∧ c = c' := by
  constructor
  · intro h
    cases h
    exact ⟨rfl, rfl⟩
  · rintro ⟨rfl, rfl⟩
    rfl

lemma get_eq_ok {c c' a : Cursor} : (get : Decoder ε Cursor) c = .ok a c' ↔ c = a ∧ c = c' := by
  constructor
  · intro h
    cases h
    exact ⟨rfl, rfl⟩
  · rintro ⟨rfl, rfl⟩
    rfl

/-! ### Reading what was written -/

/-- Whether a reader reads a value from its bytes, whatever follows them. -/
def Reads (d : Decoder ε α) (bytes : List UInt8) (a : α) : Prop :=
  ∀ p rest, d ⟨p, bytes ++ rest⟩ = .ok a ⟨p + bytes.length, rest⟩

lemma reads_pure (a : α) : Reads (pure a : Decoder ε α) [] a := fun _ _ => rfl

lemma Reads.bind {bytes bytes' : List UInt8} {a : α} {b : β} (h : Reads d bytes a)
    (h' : Reads (f a) bytes' b) : Reads (d >>= f) (bytes ++ bytes') b := by
  intro p rest
  refine bind_eq_ok.mpr ⟨a, ⟨p + bytes.length, bytes' ++ rest⟩, ?_, ?_⟩
  · rw [List.append_assoc]
    exact h p (bytes' ++ rest)
  · rw [h', List.length_append, Nat.add_assoc]

lemma Reads.map {bytes : List UInt8} {a : α} (h : Reads d bytes a) (g : α → β) :
    Reads (do return g (← d)) bytes (g a) := by
  have hbind := h.bind (f := fun a => pure (g a)) (reads_pure (g a))
  rwa [List.append_nil] at hbind

lemma reads_number {width n : Nat} (h : n < Nat.pow 256 width) :
    Reads (number width) (bytesOf width n) n := by
  have hbytes : Reads (bytes width) (bytesOf width n) (bytesOf width n) := by
    intro p rest
    have happend := bytes_append (bytesOf width n) rest p
    rwa [length_bytesOf] at happend ⊢
  have hmap := hbytes.map numberOf
  rwa [numberOf_bytesOf h] at hmap

lemma reads_u8 (v : UInt8) : Reads u8 [v] v := by
  have h := (@reads_number 1 v.toNat v.toNat_lt).map UInt8.ofNat
  simpa [bytesOf, u8] using h

lemma reads_u16 (v : UInt16) : Reads u16 (encodeU16 v) v := by
  have h := (@reads_number 2 v.toNat v.toNat_lt).map UInt16.ofNat
  rwa [UInt16.ofNat_toNat] at h

lemma reads_u32 (v : UInt32) : Reads u32 (encodeU32 v) v := by
  have h := (@reads_number 4 v.toNat v.toNat_lt).map UInt32.ofNat
  rwa [UInt32.ofNat_toNat] at h

lemma reads_i32 (v : Int32) : Reads i32 (encodeI32 v) v := by
  have h := (@reads_number 4 v.toUInt32.toNat v.toUInt32.toNat_lt).map
    fun n => (UInt32.ofNat n).toInt32
  rwa [UInt32.ofNat_toNat] at h

lemma reads_i64 (v : Int64) : Reads i64 (encodeI64 v) v := by
  have h := (@reads_number 8 v.toUInt64.toNat v.toUInt64.toNat_lt).map
    fun n => (UInt64.ofNat n).toInt64
  rwa [UInt64.ofNat_toNat] at h

lemma reads_f64 (v : Double) : Reads f64 (encodeU64 v.bits) v := by
  have h := (@reads_number 8 v.bits.toNat v.bits.toNat_lt).map
    fun n => (⟨UInt64.ofNat n⟩ : Double)
  rwa [UInt64.ofNat_toNat] at h

/-! ### Taking a number of bytes -/

/-- Whether a reader takes the given number of bytes when it succeeds. -/
def Takes (d : Decoder ε α) (n : Nat) : Prop :=
  ∀ c a c', d c = .ok a c' →
    c'.pos = c.pos + n ∧ c'.rest = c.rest.drop n ∧ n ≤ c.rest.length

lemma takes_pure (a : α) : Takes (pure a : Decoder ε α) 0 := by
  intro c a' c' h
  obtain ⟨-, rfl⟩ := pure_eq_ok.mp h
  simp

lemma Takes.bind {n n' : Nat} (h : Takes d n) (h' : ∀ a, Takes (f a) n') :
    Takes (d >>= f) (n + n') := by
  intro c b c'' hbind
  obtain ⟨a, c', hd, hf⟩ := bind_eq_ok.mp hbind
  obtain ⟨hpos, hrest, hlength⟩ := h c a c' hd
  obtain ⟨hpos', hrest', hlength'⟩ := h' a c' b c'' hf
  rw [hrest, List.length_drop] at hlength'
  exact ⟨by omega, by rw [hrest', hrest, List.drop_drop], by omega⟩

lemma Takes.map {n : Nat} (h : Takes d n) (g : α → β) : Takes (do return g (← d)) n :=
  h.bind fun a => takes_pure (g a)

lemma takes_number (width : Nat) : Takes (number width) width := by
  have hbytes : Takes (bytes width) width := by
    intro c front c' h
    obtain ⟨hrest, hlength, hpos⟩ := bytes_eq_ok_iff.mp h
    refine ⟨hpos, ?_, ?_⟩
    · rw [hrest, ← hlength, List.drop_left]
    · rw [hrest, List.length_append]
      omega
  exact hbytes.map numberOf

lemma takes_u8 : Takes u8 1 := (takes_number 1).map _

lemma takes_u16 : Takes u16 2 := (takes_number 2).map _

lemma takes_u32 : Takes u32 4 := (takes_number 4).map _

lemma takes_i32 : Takes i32 4 := (takes_number 4).map _

lemma takes_i64 : Takes i64 8 := (takes_number 8).map _

lemma takes_f64 : Takes f64 8 := (takes_number 8).map _

/-! ### Taking the bytes of a value -/

/-- Whether a reader takes just the bytes of the value that it gives. -/
def TakesForm (d : Decoder ε α) (encode : α → List UInt8) : Prop :=
  ∀ c a c', d c = .ok a c' → c.rest = encode a ++ c'.rest

lemma takesForm_pure {a : α} {encode : α → List UInt8} (h : encode a = []) :
    TakesForm (pure a : Decoder ε α) encode := by
  intro c a' c' hpure
  obtain ⟨rfl, rfl⟩ := pure_eq_ok.mp hpure
  rw [h, List.nil_append]

lemma TakesForm.map {encode : α → List UInt8} {encode' : β → List UInt8} {g : α → β}
    (h : TakesForm d encode) (hg : ∀ a, encode' (g a) = encode a) :
    TakesForm (do return g (← d)) encode' := by
  intro c b c' hmap
  obtain ⟨a, c₁, ha, hpure⟩ := bind_eq_ok.mp hmap
  obtain ⟨rfl, rfl⟩ := pure_eq_ok.mp hpure
  rw [hg, h c a c₁ ha]

/-- A reader of a value that a number stands for takes the bytes of the number. -/
lemma takesForm_number {width : Nat} {encode : α → List UInt8} {g : Nat → α}
    (hg : ∀ n, n < Nat.pow 256 width → encode (g n) = bytesOf width n) :
    TakesForm (do return g (← number width)) encode := by
  intro c a c' h
  obtain ⟨n, c₁, hnumber, hpure⟩ := bind_eq_ok.mp h
  obtain ⟨rfl, rfl⟩ := pure_eq_ok.mp hpure
  obtain ⟨front, c₂, hbytes, hfront⟩ := bind_eq_ok.mp hnumber
  obtain ⟨rfl, rfl⟩ := pure_eq_ok.mp hfront
  obtain ⟨hrest, rfl, -⟩ := bytes_eq_ok_iff.mp hbytes
  rw [hg _ (numberOf_lt front), bytesOf_numberOf, hrest]

lemma takesForm_u8 : TakesForm u8 fun v => [v] :=
  takesForm_number fun n hn => by rw [bytesOf, bytesOf, Nat.mod_eq_of_lt hn]

lemma takesForm_u16 : TakesForm u16 encodeU16 :=
  takesForm_number fun n hn => by rw [encodeU16, UInt16.toNat_ofNat_of_lt' hn]

lemma takesForm_u32 : TakesForm u32 encodeU32 :=
  takesForm_number fun n hn => by rw [encodeU32, UInt32.toNat_ofNat_of_lt' hn]

lemma takesForm_i32 : TakesForm i32 encodeI32 :=
  takesForm_number fun n hn => by
    rw [encodeI32, UInt32.toUInt32_toInt32, encodeU32, UInt32.toNat_ofNat_of_lt' hn]

lemma takesForm_i64 : TakesForm i64 encodeI64 :=
  takesForm_number fun n hn => by
    rw [encodeI64, UInt64.toUInt64_toInt64, encodeU64, UInt64.toNat_ofNat_of_lt' hn]

lemma takesForm_f64 : TakesForm f64 fun d => encodeU64 d.bits :=
  takesForm_number fun n hn => by
    show encodeU64 (UInt64.ofNat n) = bytesOf 8 n
    rw [encodeU64, UInt64.toNat_ofNat_of_lt' hn]

end LiveTypes.Decoder
