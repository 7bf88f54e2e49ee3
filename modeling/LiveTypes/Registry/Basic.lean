import LiveTypes.Capture.Table
import LiveTypes.Config
import LiveTypes.Registry.LiveType

/-!
# Registry

All registered types in the order of registration, and the capture sites of their code. A type is
known by its name and by its place in that order.
-/

namespace LiveTypes

/-- The registered types and their capture sites. -/
structure Registry where
  config : RegistryConfig
  types : List LiveType
  sites : SiteTable
deriving DecidableEq

namespace Registry

def create (config : RegistryConfig) : Registry := ⟨config, [], .empty⟩

/-- The patterns among texts; a text that is no pattern selects nothing. -/
def patterns (texts : List String) : List NamePattern := texts.filterMap NamePattern.parse?

def includes (r : Registry) (name : String) : Bool :=
  (patterns r.config.included).any (·.selects name) &&
    !(patterns r.config.excluded).any (·.selects name)

def find? (r : Registry) (name : String) : Option LiveType := r.types.find? fun t => t.name = name

def byId? (r : Registry) (id : TypeId) : Option LiveType := r.types[id]?

def size (r : Registry) : Nat := r.types.length

/-- Text of a registry for diagnosis, given the number of objects with extension slots. -/
def text (r : Registry) (extended : Nat) : String :=
  "TypeRegistry \x7b types: " ++ toString r.size ++ ", sites: " ++ toString r.sites.size ++
    ", extended_objects: " ++ toString extended ++ " \x7d"

end Registry

end LiveTypes
