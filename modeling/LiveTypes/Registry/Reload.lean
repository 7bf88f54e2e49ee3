import LiveTypes.Registry.Register

/-!
# Reload

A reload gives a registered type a new version. The candidate is read, verified and checked against
the history; unless it is the current version again, it is redirected, its sites and those bound to
it are checked, and only then is anything changed: sites are bound, the history grows, the version
is appended and its table is published.

The current version given once more is only published under its new label, with the implementations
that it has.
-/

namespace LiveTypes

namespace LiveType

/-- The type with one more version that publishes the given table. -/
def publish (t : LiveType) (v : Version) (table : ExecutorTable) : LiveType :=
  { t with later := t.later ++ [v], table }

def nextVersion (t : LiveType) (label : String) (bytes : List UInt8) (u : TypeUnit)
    (executorBytes : List UInt8) : Version where
  index := t.versions.length
  label := label
  bytes := bytes
  unit := u
  summary := u.summary bytes
  executorBytes := executorBytes

/-- Read, verify and check a candidate for the next version. -/
def candidate (t : LiveType) (verify : Bool) (label : String) (bytes : List UInt8) :
    Except RejectReason TypeUnit := do
  let u ← TypeUnit.admit bytes verify
  t.history.check u
  if t.versions.any fun v => v.label = label then throw (.duplicateLabel label)
  return u

/-- Whether bytes are those of the current version, by their digest. -/
def isCurrent (t : LiveType) (bytes : List UInt8) : Bool :=
  digest bytes = t.current.summary.digest

/-- The type after its current version is given once more. -/
def reloadSame (t : LiveType) (label : String) (bytes : List UInt8) (u : TypeUnit) : LiveType :=
  t.publish (t.nextVersion label bytes u t.current.executorBytes)
    (t.table.republish t.versions.length label)

/-- The type after a new version, given its redirected form. -/
def reloadNew (t : LiveType) (label : String) (bytes : List UInt8) (u : TypeUnit)
    (redirected : RedirectedVersion) : LiveType :=
  let index := t.versions.length
  let t' := t.publish (t.nextVersion label bytes u redirected.executor.encode)
    (.ofUnit redirected.executor t.id t.name index label)
  { t' with history := t.history.record u }

end LiveType

namespace Registry

/-- Check the sites that a new version of a type binds, and those bound to the type. -/
def checkSites (r : Registry) (t : LiveType) (u : TypeUnit) (bindings : List SiteBinding) :
    Except RejectReason Unit := do
  bindings.forM r.sites.check
  if u.isClosureHost then r.sites.checkHost t.name t.id u.hostShape

/-- Bind the sites of a new version of a type, and then those bound to the type. -/
def bindSites (r : Registry) (t : LiveType) (u : TypeUnit) (bindings : List SiteBinding) :
    SiteTable :=
  let sites := bindAll r.sites bindings
  if u.isClosureHost then sites.rebindHost t.name t.id t.versions.length u.hostShape else sites

/-- The registry with a type replaced at its place. -/
def replace (r : Registry) (t : LiveType) : Registry := { r with types := r.types.set t.id t }

def tryReload (r : Registry) (t : LiveType) (label : String) (bytes : List UInt8) :
    Except RejectReason Registry := do
  let u ← t.candidate r.config.verify label bytes
  if t.isCurrent bytes then
    return r.replace (t.reloadSame label bytes u)
  else
    let cx : RedirectContext := ⟨t.id, t.versions.length, t.layout, t.loadedMethods, r⟩
    let redirected ← u.redirect cx r.config.verify
    r.checkSites t u redirected.bindings
    let r := { r with sites := r.bindSites t u redirected.bindings }
    return r.replace (t.reloadNew label bytes u redirected)

/-- Give a type a new version; a refusal names the type and the label. -/
def reloadType (r : Registry) (t : LiveType) (label : String) (bytes : List UInt8) :
    Except ReloadError Registry :=
  (r.tryReload t label bytes).mapError fun reason => ⟨t.name, label, reason⟩

def reload (r : Registry) (name label : String) (bytes : List UInt8) :
    Except RegistryError Registry :=
  match r.find? name with
  | none => .error (.unknownType name)
  | some t => (r.reloadType t label bytes).mapError .reload

end Registry

end LiveTypes
