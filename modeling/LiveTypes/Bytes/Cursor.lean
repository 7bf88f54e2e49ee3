import LiveTypes.Bytes.Word
import LiveTypes.Double.Basic

/-!
# Reading bytes

A cursor is a position together with the bytes that follow it. A decoder reads from a cursor and
leaves it behind what it read; when it fails, it leaves the cursor behind the parts that it could
still read. Failures name the position at which they arose.
-/

namespace LiveTypes

/-- Why bytes could not be decoded. -/
inductive DecodeError where
  /-- The bytes end before the value that starts at this position -/
  | unexpectedEnd (position : Nat)
  /-- The text that starts at this position is not UTF-8 -/
  | invalidText (position : Nat)
  /-- The byte at this position is not an opcode -/
  | invalidOpcode (byte : UInt8) (position : Nat)
deriving DecidableEq, Repr

def DecodeError.code : DecodeError → String
  | .unexpectedEnd _ => "UnexpectedEnd"
  | .invalidText _ => "InvalidUtf8"
  | .invalidOpcode _ _ => "InvalidOpcode"

/-- A byte in hexadecimal with two digits. -/
def hexByte (b : UInt8) : String :=
  String.ofList [Nat.digitChar (b.toNat / 16), Nat.digitChar (b.toNat % 16)]

def hexBytes (bytes : List UInt8) : String := String.join (bytes.map hexByte)

def DecodeError.message : DecodeError → String
  | .unexpectedEnd p => s!"Unexpected end of bytecode at offset {p}"
  | .invalidText p => s!"Invalid UTF-8 string at offset {p}"
  | .invalidOpcode b p => s!"Invalid opcode 0x{hexByte b} at offset {p}"

/-- A position and the bytes that follow it. -/
structure Cursor where
  pos : Nat
  rest : List UInt8
deriving DecidableEq, Repr

namespace Cursor

def start (bytes : List UInt8) : Cursor := ⟨0, bytes⟩

/-- The cursor at a position of a byte string. -/
def seek (bytes : List UInt8) (pos : Nat) : Cursor := ⟨pos, bytes.drop pos⟩

def atEnd (c : Cursor) : Bool := c.rest.isEmpty

end Cursor

/-- A reader of values of type `α` from a cursor. -/
abbrev Decoder (ε α : Type) := EStateM ε Cursor α

namespace Decoder

def bytes (n : Nat) : Decoder DecodeError (List UInt8) := fun c =>
  let front := c.rest.take n
  if front.length = n then .ok front ⟨c.pos + n, c.rest.drop n⟩
  else .error (.unexpectedEnd c.pos) c

/-- Read a number of the given width in bytes. -/
def number (width : Nat) : Decoder DecodeError Nat := do
  let front ← bytes width
  return numberOf front

def u8 : Decoder DecodeError UInt8 := do return UInt8.ofNat (← number 1)

def u16 : Decoder DecodeError UInt16 := do return UInt16.ofNat (← number 2)

def u32 : Decoder DecodeError UInt32 := do return UInt32.ofNat (← number 4)

def i32 : Decoder DecodeError Int32 := do return (UInt32.ofNat (← number 4)).toInt32

def i64 : Decoder DecodeError Int64 := do return (UInt64.ofNat (← number 8)).toInt64

def f64 : Decoder DecodeError Double := do return ⟨UInt64.ofNat (← number 8)⟩

/-- Read a byte string preceded by its length. -/
def blob : Decoder DecodeError (List UInt8) := do
  let n ← u32
  bytes n.toNat

/-- Read a text preceded by its length in bytes. -/
def text : Decoder DecodeError String := do
  let before ← get
  let front ← blob
  match String.fromUTF8? ⟨front.toArray⟩ with
  | some s => return s
  | none => throw (.invalidText before.pos)

def many {ε α : Type} (d : Decoder ε α) : Nat → Decoder ε (List α)
  | 0 => pure []
  | n + 1 => do
    let a ← d
    let rest ← many d n
    return a :: rest

/-- Read a table: a count followed by that many values. -/
def table {ε α : Type} (count : Decoder ε UInt32) (d : Decoder ε α) : Decoder ε (List α) := do
  let n ← count
  many d n.toNat

/-- Read at a position of a byte string; nothing can be read past its end. -/
def runAt {α : Type} (d : Decoder DecodeError α) (bytes : List UInt8) (pos : Nat) :
    EStateM.Result DecodeError Cursor α :=
  if bytes.length < pos then .error (.unexpectedEnd pos) (.seek bytes pos) else d (.seek bytes pos)

/-! ### Reading what was written -/

theorem bytes_append (front rest : List UInt8) (p : Nat) :
    bytes front.length ⟨p, front ++ rest⟩ = .ok front ⟨p + front.length, rest⟩ := by
  simp [bytes]

theorem bytes_eq_ok_iff {n : Nat} {c c' : Cursor} {front : List UInt8} :
    bytes n c = .ok front c' ↔
      c.rest = front ++ c'.rest ∧ front.length = n ∧ c'.pos = c.pos + n := by
  obtain ⟨p, l⟩ := c
  obtain ⟨p', l'⟩ := c'
  simp only [bytes]
  constructor
  · intro h
    split at h
    · next hn =>
      simp only [EStateM.Result.ok.injEq, Cursor.mk.injEq] at h
      obtain ⟨rfl, rfl, rfl⟩ := h
      exact ⟨(List.take_append_drop n l).symm, hn, rfl⟩
    · cases h
  · rintro ⟨rfl, rfl, rfl⟩
    simp

end Decoder

end LiveTypes
