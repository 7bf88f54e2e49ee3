import LiveTypes.Code.Instruction

/-!
# Listings

Control goes from offset to offset of a body, and comes to the same offset many times. A listing keeps
what reading the body gives at each of its offsets, so that no instruction is read twice.

The main statement, `Listing.instruction?_eq`, says that an entry is what reading the bytes that
follow its offset gives. Bodies with the same bytes have the same listing.
-/

namespace LiveTypes

/-- What reading the bytes that follow an offset gives. -/
def Instruction.readAt (offset : Nat) (rest : List UInt8) : Except DecodeError Instruction :=
  match read ⟨offset, rest⟩ with
  | .ok i _ => .ok i
  | .error e _ => .error e

/-- What reading gives at the offsets of a body, from an offset on, behind the entries before it. -/
def Instruction.readEach (offset : Nat) (before : Array (Except DecodeError Instruction)) :
    List UInt8 → Array (Except DecodeError Instruction)
  | [] => before
  | b :: rest => readEach (offset + 1) (before.push (readAt offset (b :: rest))) rest

/-- A body ready to run. -/
structure Listing where
  bytes : List UInt8
  /-- What reading gives at each offset -/
  entries : Array (Except DecodeError Instruction)
  entries_eq : entries = Instruction.readEach 0 #[] bytes
deriving Repr

namespace Listing

def ofBytes (bytes : List UInt8) : Listing := ⟨bytes, Instruction.readEach 0 #[] bytes, rfl⟩

@[inline] def size (l : Listing) : Nat := l.entries.size

/-- What reading gives at an offset of the body. -/
@[inline] def instruction? (l : Listing) (offset : Nat) : Option (Except DecodeError Instruction) :=
  l.entries[offset]?

@[ext] theorem ext {l l' : Listing} (h : l.bytes = l'.bytes) : l = l' := by
  obtain ⟨bytes, entries, rfl⟩ := l
  obtain ⟨bytes', entries', rfl⟩ := l'
  cases h
  rfl

instance : DecidableEq Listing := fun l l' =>
  if h : l.bytes = l'.bytes then isTrue (ext h) else isFalse fun h' => h (h' ▸ rfl)

@[simp] theorem bytes_ofBytes (bytes : List UInt8) : (ofBytes bytes).bytes = bytes := rfl

theorem toList_readEach (bytes : List UInt8) (offset : Nat)
    (before : Array (Except DecodeError Instruction)) :
    (Instruction.readEach offset before bytes).toList =
      before.toList ++ (List.range bytes.length).map fun k =>
        Instruction.readAt (offset + k) (bytes.drop k) := by
  induction bytes generalizing offset before with
  | nil => simp [Instruction.readEach]
  | cons b rest ih =>
    simp [Instruction.readEach, ih, List.range_succ_eq_map, Nat.add_assoc, Nat.add_comm 1]

@[simp] theorem size_eq (l : Listing) : l.size = l.bytes.length := by
  obtain ⟨bytes, entries, rfl⟩ := l
  simp [size, ← Array.length_toList, toList_readEach]

/-- An entry is what reading the bytes that follow its offset gives. -/
theorem instruction?_eq (l : Listing) (offset : Nat) :
    l.instruction? offset =
      if offset < l.bytes.length then some (Instruction.readAt offset (l.bytes.drop offset))
      else none := by
  obtain ⟨bytes, entries, rfl⟩ := l
  simp only [instruction?, ← Array.getElem?_toList, toList_readEach]
  by_cases h : offset < bytes.length <;> simp [h]

end Listing

end LiveTypes
