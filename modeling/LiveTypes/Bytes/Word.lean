/-!
# Words as bytes

Numbers are stored with the lowest byte first. `numberOf` reads what `bytesOf` wrote as long as the
number fits, and every byte string is the form of the number it reads as.
-/

namespace LiveTypes

/-- The `k` lowest bytes of a number, lowest first. -/
def bytesOf : Nat → Nat → List UInt8
  | 0, _ => []
  | k + 1, n => UInt8.ofNat (n % 256) :: bytesOf k (n / 256)

/-- The number a byte string stands for, lowest byte first. -/
def numberOf : List UInt8 → Nat
  | [] => 0
  | b :: rest => b.toNat + 256 * numberOf rest

@[simp] theorem length_bytesOf (k n : Nat) : (bytesOf k n).length = k := by
  induction k generalizing n with
  | zero => rfl
  | succ k ih => simp [bytesOf, ih]

theorem numberOf_bytesOf {k n : Nat} (h : n < Nat.pow 256 k) : numberOf (bytesOf k n) = n := by
  induction k generalizing n with
  | zero =>
    have h0 : n = 0 := Nat.lt_one_iff.1 h
    simp [bytesOf, numberOf, h0]
  | succ k ih =>
    have hd : n / 256 < Nat.pow 256 k := by
      have hs : Nat.pow 256 (k + 1) = Nat.pow 256 k * 256 := rfl
      omega
    simp only [bytesOf, numberOf, ih hd, UInt8.toNat_ofNat']
    omega

theorem numberOf_lt (l : List UInt8) : numberOf l < Nat.pow 256 l.length := by
  induction l with
  | nil => exact Nat.zero_lt_one
  | cons b rest ih =>
    have hb : b.toNat < 256 := b.toNat_lt
    have hs : Nat.pow 256 (rest.length + 1) = Nat.pow 256 rest.length * 256 := rfl
    simp only [numberOf, List.length_cons, hs]
    omega

theorem bytesOf_numberOf (l : List UInt8) : bytesOf l.length (numberOf l) = l := by
  induction l with
  | nil => rfl
  | cons b rest ih =>
    have hb : b.toNat < 256 := b.toNat_lt
    have hm : (b.toNat + 256 * numberOf rest) % 256 = b.toNat := by omega
    have hd : (b.toNat + 256 * numberOf rest) / 256 = numberOf rest := by omega
    simp [bytesOf, numberOf, hm, hd, ih]

/-! ### Fixed widths -/

def encodeU16 (v : UInt16) : List UInt8 := bytesOf 2 v.toNat

def encodeU32 (v : UInt32) : List UInt8 := bytesOf 4 v.toNat

def encodeU64 (v : UInt64) : List UInt8 := bytesOf 8 v.toNat

/-- The four bytes of a signed 32-bit integer, in two's complement. -/
def encodeI32 (v : Int32) : List UInt8 := encodeU32 v.toUInt32

def encodeI64 (v : Int64) : List UInt8 := encodeU64 v.toUInt64

@[simp] theorem length_encodeU16 (v : UInt16) : (encodeU16 v).length = 2 := by simp [encodeU16]

@[simp] theorem length_encodeU32 (v : UInt32) : (encodeU32 v).length = 4 := by simp [encodeU32]

@[simp] theorem length_encodeU64 (v : UInt64) : (encodeU64 v).length = 8 := by simp [encodeU64]

@[simp] theorem length_encodeI32 (v : Int32) : (encodeI32 v).length = 4 := by simp [encodeI32]

@[simp] theorem length_encodeI64 (v : Int64) : (encodeI64 v).length = 8 := by simp [encodeI64]

/-- A byte string preceded by its length in four bytes. -/
def encodeBlob (bytes : List UInt8) : List UInt8 :=
  encodeU32 (UInt32.ofNat bytes.length) ++ bytes

def textBytes (s : String) : List UInt8 := s.toUTF8.data.toList

/-- A text as its UTF-8 bytes, preceded by their number. -/
def encodeText (s : String) : List UInt8 := encodeBlob (textBytes s)

end LiveTypes
