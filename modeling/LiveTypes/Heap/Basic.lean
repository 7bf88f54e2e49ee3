import LiveTypes.Capture.Site
import LiveTypes.Heap.Extension

/-!
# Heap

Instances and closures, each at the place where it was made, and the extension slots of both. An
instance has the slots of its type's layout for its whole life; a closure never changes.
-/

namespace LiveTypes

structure Instance where
  typeId : TypeId
  typeName : String
  slots : List Value
deriving DecidableEq, Repr

structure Closure where
  /-- The site at which it was created -/
  site : SiteId
  /-- The enclosing instance, if the site captures it -/
  enclosing : Option Value
  /-- Captured values by site slot -/
  captured : List Value
deriving DecidableEq, Repr

inductive HeapObject where
  | instanceOf (i : Instance)
  | closureOf (c : Closure)
deriving DecidableEq, Repr

/-- All objects ever made, and their extension slots. -/
structure Heap where
  objects : Array HeapObject
  extensions : ExtensionStore
deriving DecidableEq

namespace Heap

def empty : Heap := ⟨#[], .empty⟩

instance : Inhabited Heap := ⟨empty⟩

def instance? (h : Heap) (id : ObjectId) : Option Instance :=
  match h.objects[id]? with
  | some (.instanceOf i) => some i
  | _ => none

def closure? (h : Heap) (id : ObjectId) : Option Closure :=
  match h.objects[id]? with
  | some (.closureOf c) => some c
  | _ => none

def allocate (h : Heap) (o : HeapObject) : ObjectId × Heap :=
  (h.objects.size, { h with objects := h.objects.push o })

def getSlot? (h : Heap) (id : ObjectId) (slot : Nat) : Option Value :=
  (h.instance? id).bind fun i => i.slots[slot]?

/-- Write a slot of an instance; nothing happens when there is no such slot. -/
def setSlot (h : Heap) (id : ObjectId) (slot : Nat) (v : Value) : Heap :=
  match h.instance? id with
  | some i =>
    { h with
      objects := h.objects.setIfInBounds id (.instanceOf { i with slots := i.slots.set slot v }) }
  | none => h

/-! ### Release -/

/-- The values that an object holds. -/
def contents (h : Heap) (id : ObjectId) : List Value :=
  let own := match h.objects[id]? with
    | some (.instanceOf i) => i.slots
    | some (.closureOf c) => c.captured ++ c.enclosing.toList
    | none => []
  own ++ (h.extensions.slotsOf id).values.map ExtensionSlot.value

/-- The objects that an object refers to, with repetition. -/
def references (h : Heap) (id : ObjectId) : List ObjectId :=
  (h.contents id).filterMap Value.object?

/-- Add references to the number of references to each object. -/
def countIn (counts : Array Nat) (refs : List ObjectId) : Array Nat :=
  refs.foldl (fun counts id => counts.modify id (· + 1)) counts

/-- Number of references to each object from the roots and from all objects. -/
def counts (h : Heap) (roots : List Value) : Array Nat :=
  let fromRoots := countIn (Array.replicate h.objects.size 0) (roots.filterMap Value.object?)
  (List.range h.objects.size).foldl (fun counts id => countIn counts (h.references id)) fromRoots

/-- Remove references, and add the objects that then have none to a list. -/
def uncount (counts : Array Nat) (free : List ObjectId) :
    List ObjectId → Array Nat × List ObjectId
  | [] => (counts, free)
  | id :: rest =>
    let left := counts.getD id 0 - 1
    uncount (counts.setIfInBounds id left) (if left = 0 then id :: free else free) rest

/-- Release the objects of a list, and those to which they held the last reference; `n` bounds the
number of releases. -/
def releaseAll : Nat → Array Nat → List ObjectId → Heap → Heap
  | 0, _, _, h => h
  | _, _, [], h => h
  | n + 1, counts, id :: rest, h =>
    let (counts, free) := uncount counts rest (h.references id)
    releaseAll n counts free { h with extensions := h.extensions.release id }

/-- Release every object that nothing refers to any more, so that its extension slots go. An object
stays as long as a root or another object refers to it, and so objects in a cycle stay. Without
extension slots there is nothing to release. -/
def release (h : Heap) (roots : List Value) : Heap :=
  if h.extensions.objectCount = 0 then h
  else
    let counts := h.counts roots
    let free := (List.range h.objects.size).filter fun id => counts.getD id 0 = 0
    releaseAll h.objects.size counts free h

end Heap

end LiveTypes
