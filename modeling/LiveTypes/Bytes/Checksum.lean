/-!
# Checksum

The 32-bit cyclic redundancy check with the reflected polynomial `0xEDB88320`, all ones as initial
state and complemented at the end.
-/

namespace LiveTypes

namespace Checksum

/-- The generator polynomial, lowest power in the highest bit. -/
def polynomial : UInt32 := 0xEDB88320

/-- Feed a zero bit. -/
def shift (s : UInt32) : UInt32 :=
  if s &&& 1 = 1 then (s >>> 1) ^^^ polynomial else s >>> 1

def shifts : Nat → UInt32 → UInt32
  | 0, s => s
  | n + 1, s => shifts n (shift s)

def feed (s : UInt32) (b : UInt8) : UInt32 := shifts 8 (s ^^^ b.toUInt32)

/-- The state after feeding a byte string. -/
def run (s : UInt32) (bytes : List UInt8) : UInt32 := bytes.foldl feed s

theorem run_append (s : UInt32) (a b : List UInt8) : run s (a ++ b) = run (run s a) b :=
  List.foldl_append

end Checksum

def checksum (bytes : List UInt8) : UInt32 := ~~~ (Checksum.run 0xFFFFFFFF bytes)

end LiveTypes
