/-!
# Association maps

A finite map kept as the list of its entries, oldest key first. `find?` is the view through which
every operation is described; two maps with the same lookups are the same map to every reader.
-/

namespace LiveTypes

/-- A finite map, as the list of its entries in insertion order. -/
structure AssocMap (κ ν : Type) where
  entries : List (κ × ν)
deriving DecidableEq, Repr

namespace AssocMap

variable {κ ν : Type}

def empty : AssocMap κ ν := ⟨[]⟩

instance : Inhabited (AssocMap κ ν) := ⟨empty⟩

/-- Keys, oldest first. -/
def keys (m : AssocMap κ ν) : List κ := m.entries.map Prod.fst

/-- Values, in the order of their keys. -/
def values (m : AssocMap κ ν) : List ν := m.entries.map Prod.snd

def size (m : AssocMap κ ν) : Nat := m.entries.length

def isEmpty (m : AssocMap κ ν) : Bool := m.entries.isEmpty

variable [DecidableEq κ]

/-- The value of the first entry with the given key. -/
def lookup (k : κ) : List (κ × ν) → Option ν
  | [] => none
  | (a, v) :: rest => if a = k then some v else lookup k rest

/-- Replace the value of a key in place, or append a new entry. -/
def put (k : κ) (v : ν) : List (κ × ν) → List (κ × ν)
  | [] => [(k, v)]
  | (a, w) :: rest => if a = k then (k, v) :: rest else (a, w) :: put k v rest

def find? (m : AssocMap κ ν) (k : κ) : Option ν := lookup k m.entries

def contains (m : AssocMap κ ν) (k : κ) : Bool := (m.find? k).isSome

/-- Give a key a value; a key already present keeps its place. -/
def insert (m : AssocMap κ ν) (k : κ) (v : ν) : AssocMap κ ν := ⟨put k v m.entries⟩

/-- Give a key a value unless it already has one. -/
def insertNew (m : AssocMap κ ν) (k : κ) (v : ν) : AssocMap κ ν :=
  if m.contains k then m else m.insert k v

def erase (m : AssocMap κ ν) (k : κ) : AssocMap κ ν :=
  ⟨m.entries.filter fun e => e.1 ≠ k⟩

/-- The map of a list of entries; of two entries with one key the later wins. -/
def ofList (l : List (κ × ν)) : AssocMap κ ν :=
  l.foldl (fun m e => m.insert e.1 e.2) empty

/-! ### Lookups -/

theorem lookup_put (k k' : κ) (v : ν) (l : List (κ × ν)) :
    lookup k' (put k v l) = if k = k' then some v else lookup k' l := by
  induction l with
  | nil => simp [put, lookup]
  | cons e rest ih =>
    obtain ⟨a, w⟩ := e
    by_cases ha : a = k
    · subst ha
      by_cases hk : a = k' <;> simp [put, lookup, hk]
    · by_cases hk : a = k'
      · subst hk
        simp [put, lookup, ha, Ne.symm ha]
      · simp [put, lookup, ha, hk, ih]

@[simp] theorem find?_empty (k : κ) : (empty : AssocMap κ ν).find? k = none := rfl

@[simp] theorem find?_insert (m : AssocMap κ ν) (k k' : κ) (v : ν) :
    (m.insert k v).find? k' = if k = k' then some v else m.find? k' :=
  lookup_put k k' v m.entries

@[simp] theorem find?_insertNew (m : AssocMap κ ν) (k k' : κ) (v : ν) :
    (m.insertNew k v).find? k' =
      if k = k' then some ((m.find? k).getD v) else m.find? k' := by
  unfold insertNew contains
  cases h : m.find? k with
  | none => simp
  | some w =>
    by_cases hk : k = k'
    · subst hk; simp [h]
    · simp [hk]

end AssocMap

end LiveTypes
