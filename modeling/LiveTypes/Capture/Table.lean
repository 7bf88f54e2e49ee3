import LiveTypes.Capture.Site
import LiveTypes.Version.Rejection
import Std.Data.ExtTreeMap

/-!
# Capture site table

All capture sites of a registry. A binding is checked before it is applied; a binding that would
change nothing is not applied, and one that the check refuses leaves the site as it is.
-/

namespace LiveTypes

structure SiteTable where
  sites : Std.ExtTreeMap SiteId CaptureSite
deriving DecidableEq

namespace SiteTable

def empty : SiteTable := ⟨∅⟩

instance : Inhabited SiteTable := ⟨empty⟩

def find? (t : SiteTable) (id : SiteId) : Option CaptureSite := t.sites[id]?

def size (t : SiteTable) : Nat := t.sites.size

def boundTo (t : SiteTable) (host : String) : List SiteId :=
  (t.sites.toList.filter fun e => e.2.host = host).map Prod.fst

/-- Check that a binding can be applied. -/
def check (t : SiteTable) (b : SiteBinding) : Except RejectReason Unit :=
  match t.find? b.id with
  | none => .ok ()
  | some s =>
    match s.rebind b with
    | .ok _ => .ok ()
    | .error detail => .error (.closureShape b.id.text detail)

/-- The binding of a site to a version of a host. -/
def hostBinding (host : String) (hostId : TypeId) (hostVersion : Nat) (shape : HostShape)
    (id : SiteId) : SiteBinding :=
  ⟨id, host, hostId, hostVersion, shape⟩

/-- Check that every site bound to a host accepts a new shape of it. -/
def checkHost (t : SiteTable) (host : String) (hostId : TypeId) (shape : HostShape) :
    Except RejectReason Unit :=
  (t.boundTo host).forM fun id => t.check (hostBinding host hostId 0 shape id)

/-- The state of a site after a binding. -/
def bound (t : SiteTable) (b : SiteBinding) : CaptureSite :=
  match t.find? b.id with
  | none => .create b
  | some s =>
    match s.rebind b with
    | .ok s' => if s.sameBinding s' then s else s'
    | .error _ => s

def bind (t : SiteTable) (b : SiteBinding) : SiteTable := ⟨t.sites.insert b.id (t.bound b)⟩

/-- Bind every site of a host to the shape of one of its versions. -/
def rebindHost (t : SiteTable) (host : String) (hostId : TypeId) (hostVersion : Nat)
    (shape : HostShape) : SiteTable :=
  (t.boundTo host).foldl (fun t id => t.bind (hostBinding host hostId hostVersion shape id)) t

/-- Bind the sites that are visited, in their order, to the shape of a version of a host; also how
many they are. -/
def rebindVisited (t : SiteTable) (host : String) (hostId : TypeId) (hostVersion : Nat)
    (shape : HostShape) (visited : List SiteId) : SiteTable × Nat :=
  (visited.foldl (fun t id => t.bind (hostBinding host hostId hostVersion shape id)) t,
    visited.length)

@[simp] theorem find?_empty (id : SiteId) : empty.find? id = none := by
  simp [empty, find?]

@[simp] theorem find?_bind (t : SiteTable) (b : SiteBinding) (id : SiteId) :
    (t.bind b).find? id = if b.id = id then some (t.bound b) else t.find? id := by
  simp [bind, find?, Std.ExtTreeMap.getElem?_insert]

end SiteTable

end LiveTypes
