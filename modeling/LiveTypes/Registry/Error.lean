import LiveTypes.Version.Rejection

/-!
# Registry failures

Why an operation on a registry fails. A failed operation changes nothing.
-/

namespace LiveTypes

structure ReloadError where
  typeName : String
  label : String
  reason : RejectReason
deriving DecidableEq, Repr

def ReloadError.code (e : ReloadError) : String := "ReloadRejected/" ++ e.reason.code

def ReloadError.message (e : ReloadError) : String :=
  s!"reload of {e.typeName} as {Text.quoted e.label} rejected: {e.reason.message}"

inductive RegistryError where
  | malformedUnit (name : String) (detail : String)
  | unresolved (referrer missing : String)
  | duplicate (name : String)
  | notIncluded (name : String)
  | outOfScope (pattern name : String)
  | unknownType (name : String)
  | invalidPattern (text : String)
  | rejected (name : String) (reason : RejectReason)
  | reload (cause : ReloadError)
deriving DecidableEq, Repr

namespace RegistryError

/-- The failure of a registration for a reason. -/
def ofReason (name : String) : RejectReason → RegistryError
  | .malformedUnit detail => .malformedUnit name detail
  | .unresolved referrer missing => .unresolved referrer missing
  | reason => .rejected name reason

def code : RegistryError → String
  | .malformedUnit _ _ => "MalformedUnit"
  | .unresolved _ _ => "UnresolvedSibling"
  | .duplicate _ => "DuplicateRegistration"
  | .notIncluded _ => "NotIncluded"
  | .outOfScope _ _ => "OutOfScope"
  | .unknownType _ => "UnknownType"
  | .invalidPattern _ => "InvalidPattern"
  | .rejected _ reason => "Rejected/" ++ reason.code
  | .reload cause => cause.code

open Text in
def message : RegistryError → String
  | .malformedUnit name detail => s!"malformed unit for {name}: {detail}"
  | .unresolved referrer missing =>
    s!"{referrer} references unregistered type {missing}; register it first"
  | .duplicate name => s!"{name} is already registered; reload it instead"
  | .notIncluded name => s!"{name} is not included by the registry configuration"
  | .outOfScope pattern name => s!"{name} is outside scope {pattern}"
  | .unknownType name => s!"unknown type {name}"
  | .invalidPattern text => s!"invalid name pattern {quoted text}"
  | .rejected name reason => s!"registration of {name} rejected: {reason.message}"
  | .reload cause => cause.message

end RegistryError

end LiveTypes
