import LiveTypes.Descriptor.Basic
import LiveTypes.TypeUnit.Basic
import LiveTypes.Version.Executable

/-!
# Capture sites

A closure is identified by where it is created: the declaring type, the key of the declaring method
and the place of the creation among those of the method. A site has typed slots, and its host reads
captured variables by position. Positions are mapped to slots by position and type: a position whose
type changes gets a new slot, and the slot it had is never used again, so that closures created
before keep what they captured.

    host v1 captures (I, J)      positions [0, 1]      slots I J
    host v2 captures (I, S, J)   positions [0, 2, 3]   slots I J S J

A site keeps the map of every host version it was bound to, because code of an earlier version may
still run.
-/

namespace LiveTypes

/-- Identity of a closure creation. -/
structure SiteId where
  /-- The declaring type -/
  declaring : TypeId
  /-- The key of the declaring method -/
  method : String
  /-- Place among the creations of the method -/
  ordinal : Nat
deriving DecidableEq, Repr

namespace SiteId

/-- The key of a site in redirected code, such as `run()I#0`. -/
def key (s : SiteId) : String := s.method ++ "#" ++ toString s.ordinal

/-- The text of a site, such as `3:run()I#0`. -/
def text (s : SiteId) : String := toString s.declaring ++ ":" ++ s.key

def digit? (c : Char) : Option Nat :=
  if '0' ≤ c ∧ c ≤ '9' then some (c.toNat - '0'.toNat) else none

/-- The number of a list of digits that continues one with the given value. -/
def readDigits (value : Nat) : List Char → Option Nat
  | [] => some value
  | c :: rest => (digit? c).bind fun d => readDigits (10 * value + d) rest

/-- The 32-bit number that a text writes in decimal, after at most one plus sign. -/
def readOrdinal (text : List Char) : Option Nat :=
  let digits := match text with
    | '+' :: rest => rest
    | other => other
  if digits.isEmpty then none
  else (readDigits 0 digits).filter (· < 0x100000000)

/-- The site of a type with the given key. -/
def ofKey? (declaring : TypeId) (key : String) : Option SiteId :=
  match Text.splitLast '#' key.toList with
  | some (method, ordinal) =>
    (readOrdinal ordinal).map fun n => ⟨declaring, String.ofList method, n⟩
  | none => none

/-- Sites are ordered by declaring type, method and ordinal. -/
instance : Ord SiteId :=
  ⟨compareLex (compareOn declaring) (compareLex (compareOn method) (compareOn ordinal))⟩

instance : Std.TransOrd SiteId :=
  inferInstanceAs (Std.TransCmp
    (compareLex (compareOn declaring) (compareLex (compareOn method) (compareOn ordinal))))

instance : Std.LawfulEqOrd SiteId where
  eq_of_compare {a b} h := by
    have h : compareLex (compareOn declaring)
        (compareLex (compareOn method) (compareOn ordinal)) a b = .eq := h
    simp only [compareLex, compareOn, Ordering.then_eq_eq, Std.LawfulEqOrd.compare_eq_iff_eq] at h
    cases a
    cases b
    simpa using h

end SiteId

/-- What the host of a closure captures. -/
structure HostShape where
  /-- Types of the captured variables, in order -/
  captured : List TypeDescriptor
  /-- Whether the host holds the enclosing instance -/
  capturesThis : Bool
deriving DecidableEq, Repr

def TypeUnit.hostShape (u : TypeUnit) : HostShape :=
  ⟨u.capturedFields.map FieldDecl.type, u.enclosingField?.isSome⟩

/-- The binding of a site to a host, as one closure creation asks for it. -/
structure SiteBinding where
  id : SiteId
  /-- Name of the host -/
  host : String
  hostId : TypeId
  /-- The host version that the shape was read from -/
  hostVersion : Nat
  shape : HostShape
deriving DecidableEq, Repr

/-- Number of values that the creation passes. -/
def SiteBinding.passed (b : SiteBinding) : Nat := b.shape.captured.length

/-- A slot of a site. -/
structure CaptureSlot where
  type : TypeDescriptor
  /-- Whether a position of the current host maps to the slot -/
  live : Bool
deriving DecidableEq, Repr

/-- The slots of the positions of one host version. -/
structure HostMapping where
  hostId : TypeId
  hostVersion : Nat
  positions : List Nat
deriving DecidableEq, Repr

/-- A site and its current binding. -/
structure CaptureSite where
  id : SiteId
  host : String
  hostId : TypeId
  /-- Whether closures of the site hold the enclosing instance -/
  capturesThis : Bool
  /-- Every slot ever made -/
  slots : List CaptureSlot
  /-- The slots of the positions of the current host version -/
  positions : List Nat
  /-- The maps of every host version the site was bound to, oldest first -/
  mappings : List HostMapping
  /-- How often the site was bound anew -/
  generation : Nat
deriving DecidableEq, Repr

namespace CaptureSite

def create (b : SiteBinding) : CaptureSite :=
  let positions := List.range b.shape.captured.length
  { id := b.id
    host := b.host
    hostId := b.hostId
    capturesThis := b.shape.capturesThis
    slots := b.shape.captured.map fun t => ⟨t, true⟩
    positions
    mappings := [⟨b.hostId, b.hostVersion, positions⟩]
    generation := 0 }

/-- The slot of a position of the current host version. -/
def slotFor? (s : CaptureSite) (position : Nat) : Option Nat := s.positions[position]?

/-- The newest map for a host at or before a version. -/
def mappingAt? (s : CaptureSite) (hostId : TypeId) (hostVersion : Nat) : Option HostMapping :=
  s.mappings.reverse.find? fun m => m.hostId = hostId && m.hostVersion ≤ hostVersion

/-- The slot of a position for code of a host version; without a map for it, the slot of the
position now. -/
def slotAt? (s : CaptureSite) (hostId : TypeId) (hostVersion position : Nat) : Option Nat :=
  let positions := match s.mappingAt? hostId hostVersion with
    | some m => m.positions
    | none => s.positions
  positions[position]?

def slotType? (s : CaptureSite) (slot : Nat) : Option TypeDescriptor :=
  s.slots[slot]?.map CaptureSlot.type

def liveSlots (s : CaptureSite) : Nat := s.slots.countP CaptureSlot.live

/-- The slot that a position keeps if its type is still the given one. -/
def kept? (s : CaptureSite) (position : Nat) (t : TypeDescriptor) : Option Nat :=
  (s.slotFor? position).filter fun slot => s.slotType? slot = some t

/-- Map the captured types from a position on, given the slot types made so far: the slots of the
positions, and the types of the slots made for them. -/
def assign (s : CaptureSite) (made : Nat) (position : Nat) :
    List TypeDescriptor → List Nat × List TypeDescriptor
  | [] => ([], [])
  | t :: rest =>
    match s.kept? position t with
    | some slot =>
      let (positions, new) := assign s made (position + 1) rest
      (slot :: positions, new)
    | none =>
      let (positions, new) := assign s (made + 1) (position + 1) rest
      (made :: positions, t :: new)

/-- The site after binding it anew; a message when its closures do not fit the host. -/
def rebind (s : CaptureSite) (b : SiteBinding) : Except String CaptureSite :=
  if b.shape.capturesThis ≠ s.capturesThis then
    .error s!"enclosing-instance capture changed from {s.capturesThis} to {b.shape.capturesThis}"
  else
    let (positions, new) := s.assign s.slots.length 0 b.shape.captured
    let types := s.slots.map CaptureSlot.type ++ new
    .ok { s with
      host := b.host
      hostId := b.hostId
      slots := types.zipIdx.map fun (t, i) => ⟨t, positions.contains i⟩
      positions
      mappings := s.mappings ++ [⟨b.hostId, b.hostVersion, positions⟩]
      generation := s.generation + 1 }

/-- Whether two states of a site have the same host, slots and positions. -/
def sameBinding (s t : CaptureSite) : Bool :=
  s.hostId = t.hostId && s.host = t.host && s.slots = t.slots && s.positions = t.positions

end CaptureSite

end LiveTypes
