import LiveTypes.Bytes.Cursor

/-!
# Constant pools

A pool holds the names, signature keys and literals that code refers to by index. Constants are only
ever appended, so an index keeps its meaning.
-/

namespace LiveTypes

/-- The constants of a unit. -/
structure ConstantPool where
  strings : Array String
  integers : List Int64
  floats : List Double
deriving DecidableEq, Repr

namespace ConstantPool

def empty : ConstantPool := ⟨#[], [], []⟩

instance : Inhabited ConstantPool := ⟨empty⟩

def addString (p : ConstantPool) (s : String) : UInt32 × ConstantPool :=
  (UInt32.ofNat p.strings.size, { p with strings := p.strings.push s })

/-- The index of a string, which is appended if it is absent. -/
def intern (p : ConstantPool) (s : String) : UInt32 × ConstantPool :=
  match p.strings.idxOf? s with
  | some i => (UInt32.ofNat i, p)
  | none => p.addString s

def addInteger (p : ConstantPool) (i : Int64) : UInt32 × ConstantPool :=
  (UInt32.ofNat p.integers.length, { p with integers := p.integers ++ [i] })

def addFloat (p : ConstantPool) (d : Double) : UInt32 × ConstantPool :=
  (UInt32.ofNat p.floats.length, { p with floats := p.floats ++ [d] })

def string? (p : ConstantPool) (i : UInt32) : Option String := p.strings[i.toNat]?

def integer? (p : ConstantPool) (i : UInt32) : Option Int64 := p.integers[i.toNat]?

def float? (p : ConstantPool) (i : UInt32) : Option Double := p.floats[i.toNat]?

/-- The bytes of a pool: strings, integers and doubles, each kind preceded by its number. -/
def encode (p : ConstantPool) : List UInt8 :=
  encodeU32 (UInt32.ofNat p.strings.size) ++ p.strings.toList.flatMap encodeText ++
  encodeU32 (UInt32.ofNat p.integers.length) ++ p.integers.flatMap encodeI64 ++
  encodeU32 (UInt32.ofNat p.floats.length) ++ p.floats.flatMap (fun d => encodeU64 d.bits)

def read : Decoder DecodeError ConstantPool := do
  let strings ← Decoder.table Decoder.u32 Decoder.text
  let integers ← Decoder.table Decoder.u32 Decoder.i64
  let floats ← Decoder.table Decoder.u32 Decoder.f64
  return ⟨strings.toArray, integers, floats⟩

theorem strings_prefix_intern (p : ConstantPool) (s : String) :
    p.strings.toList <+: (p.intern s).2.strings.toList := by
  unfold intern
  split
  · exact List.prefix_refl _
  · simp [addString]

end ConstantPool

end LiveTypes
