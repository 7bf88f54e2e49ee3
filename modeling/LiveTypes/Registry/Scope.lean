import LiveTypes.Registry.Reload

/-!
# Scopes

A scope groups the types that a pattern selects, such as a type and the types nested in it, so that
they can be registered and reloaded together.
-/

namespace LiveTypes

namespace Registry

def scope (text : String) : Except RegistryError NamePattern :=
  match NamePattern.parse? text with
  | some p => .ok p
  | none => .error (.invalidPattern text)

/-- The registered types of a scope, in the order of registration. -/
def typesIn (r : Registry) (p : NamePattern) : List LiveType :=
  r.types.filter fun t => p.selects t.name

def findIn? (r : Registry) (p : NamePattern) (name : String) : Option LiveType :=
  if p.selects name then r.find? name else none

/-- Check that a name lies in a scope. -/
def requireIn (p : NamePattern) (name : String) : Except RegistryError Unit :=
  if p.selects name then .ok () else .error (.outOfScope p.text name)

def registerIn (r : Registry) (p : NamePattern) (name : String) (bytes : List UInt8) :
    Except RegistryError (LiveType × Registry) := do
  requireIn p name
  r.register name bytes

/-- Reload a registered type of a scope, or register a new one. -/
def applyIn (r : Registry) (p : NamePattern) (label name : String) (bytes : List UInt8) :
    Except RegistryError Registry := do
  requireIn p name
  match r.find? name with
  | some t => (r.reloadType t label bytes).mapError .reload
  | none => return (← r.register name bytes).2

/-- Apply a batch of units in order, up to the first failure. What was applied before a failure
stays applied. -/
def reloadAll (r : Registry) (p : NamePattern) (label : String) :
    List (String × List UInt8) → Except RegistryError Unit × Registry
  | [] => (.ok (), r)
  | (name, bytes) :: rest =>
    match r.applyIn p label name bytes with
    | .ok r => reloadAll r p label rest
    | .error e => (.error e, r)

end Registry

end LiveTypes
