/-!
# Doubles

A double is its 64-bit pattern, so that a pattern survives storing and loading unchanged, whatever
number it stands for. Arithmetic is that of binary64; comparison treats zeros of both signs as equal
and a pattern that is no number as different from everything.
-/

namespace LiveTypes

/-- A binary64 value, as its bit pattern. -/
structure Double where
  bits : UInt64
deriving DecidableEq, Repr

namespace Double

/-- Positive zero. -/
def zero : Double := ⟨0⟩

instance : Inhabited Double := ⟨zero⟩

def infinity : Double := ⟨0x7FF0000000000000⟩

/-- A pattern that stands for no number. -/
def nan : Double := ⟨0x7FF8000000000000⟩

def negate (d : Double) : Double := ⟨d.bits ^^^ 0x8000000000000000⟩

def ofFloat (x : Float) : Double := ⟨x.toBits⟩

def toFloat (d : Double) : Float := Float.ofBits d.bits

/-- Number of values of the fraction field, and the weight of the bit before it. -/
def fractionSize : Nat := 0x10000000000000

def exponentField (d : Double) : Nat := d.bits.toNat / fractionSize % 2048

def fractionField (d : Double) : Nat := d.bits.toNat % fractionSize

/-- Whether the sign bit is set. -/
def isNegative (d : Double) : Bool := 0x8000000000000000 ≤ d.bits.toNat

/-- Whether the pattern stands for no number. -/
def isNaN (d : Double) : Bool := d.exponentField = 2047 && d.fractionField ≠ 0

def isInfinite (d : Double) : Bool := d.exponentField = 2047 && d.fractionField = 0

/-- Whether the pattern stands for zero, of either sign. -/
def isZero (d : Double) : Bool := d.exponentField = 0 && d.fractionField = 0

def numEq (a b : Double) : Bool :=
  !a.isNaN && !b.isNaN && (a.bits == b.bits || (a.isZero && b.isZero))

def add (a b : Double) : Double := ofFloat (a.toFloat + b.toFloat)

def sub (a b : Double) : Double := ofFloat (a.toFloat - b.toFloat)

def mul (a b : Double) : Double := ofFloat (a.toFloat * b.toFloat)

def div (a b : Double) : Double := ofFloat (a.toFloat / b.toFloat)

end Double

end LiveTypes
