import LiveTypes.Registry.Error
import LiveTypes.Redirection.Version

/-!
# Registration

A type is registered with its first version: the version is read, verified and redirected against the
types registered before it, the loaded unit is made, and the type takes its place at the end of the
registry together with the capture sites of its code.
-/

namespace LiveTypes

/-- Read a unit and verify it if asked to. -/
def TypeUnit.admit (bytes : List UInt8) (verify : Bool) : Except RejectReason TypeUnit := do
  let u ← (TypeUnit.decode bytes).mapError UnitError.toReason
  if verify then
    (u.verify .source).mapError VerifyError.toReason
  return u

namespace LiveType

/-- The loaded unit of a first version, and whether it was made public. -/
def load (config : RegistryConfig) (u : TypeUnit) : Except RejectReason (TypeUnit × Bool) := do
  let dispatcher ← u.dispatcher
  let promoted := config.promote && dispatcher.isPromotable
  let loaded := if promoted then dispatcher.promote else dispatcher
  if config.verify then
    (loaded.verify .engine).mapError VerifyError.toReason
  return (loaded, promoted)

/-- The type with the given first version, and the bindings of its sites. -/
def create (r : Registry) (id : TypeId) (u : TypeUnit) (bytes : List UInt8) :
    Except RejectReason (LiveType × List SiteBinding) := do
  let cx := RedirectContext.ofBaseline id 0 u r
  let (loadedUnit, promoted) ← load r.config u
  let redirected ← u.redirect cx r.config.verify
  let initial : Version := {
    index := 0
    label := initialLabel
    bytes
    unit := u
    summary := u.summary bytes
    executorBytes := redirected.executor.encode }
  let t : LiveType := {
    id
    name := u.name
    layout := cx.layout
    loadedUnit
    loadedBytes := loadedUnit.encode
    dispatchers := .ofUnit loadedUnit id u.name 0 loadedLabel
    loadedMethods := cx.loadedMethods
    promoted
    initial
    later := []
    history := .ofInitial u
    table := .ofUnit redirected.executor id u.name 0 initialLabel }
  return (t, redirected.bindings)

end LiveType

namespace Registry

def bindAll (sites : SiteTable) (bindings : List SiteBinding) : SiteTable :=
  bindings.foldl SiteTable.bind sites

def tryRegister (r : Registry) (name : String) (bytes : List UInt8) :
    Except RejectReason (LiveType × Registry) := do
  let u ← TypeUnit.admit bytes r.config.verify
  if u.name ≠ name then throw (.nameMismatch name u.name)
  let (t, bindings) ← LiveType.create r r.size u bytes
  bindings.forM r.sites.check
  return (t, { r with types := r.types ++ [t], sites := bindAll r.sites bindings })

def register (r : Registry) (name : String) (bytes : List UInt8) :
    Except RegistryError (LiveType × Registry) :=
  if !r.includes name then .error (.notIncluded name)
  else if (r.find? name).isSome then .error (.duplicate name)
  else (r.tryRegister name bytes).mapError (RegistryError.ofReason name)

end Registry

end LiveTypes
