import LiveTypes.Access
import LiveTypes.Capture.Site
import LiveTypes.Version.Dispatcher
import LiveTypes.Version.Executable
import LiveTypes.Version.History
import LiveTypes.Version.Layout

/-!
# Live types

A registered type across all of its versions. Its layout and its loaded unit are fixed by the first
version; its versions, its history and the table that it publishes grow with every reload.
-/

namespace LiveTypes

/-- One accepted version of a type. -/
structure Version where
  /-- Place among the versions, 0 for the first -/
  index : Nat
  label : String
  /-- The bytes as they were given -/
  bytes : List UInt8
  unit : TypeUnit
  summary : UnitSummary
  /-- The bytes of the unit with the redirected bodies -/
  executorBytes : List UInt8
deriving DecidableEq, Repr

/-- Why a method is not found when it is called. -/
inductive LookupError where
  /-- Only earlier versions declare it -/
  | removed (typeName key : String)
  /-- No version declares it -/
  | noSuchMember (typeName key : String)
deriving DecidableEq, Repr

def LookupError.code : LookupError → String
  | .removed _ _ => "RemovedMemberInvoked"
  | .noSuchMember _ _ => "NoSuchMember"

def LookupError.message : LookupError → String
  | .removed typeName key => s!"{typeName}.{key} was removed by a reload"
  | .noSuchMember typeName key => s!"{typeName} has no member {key}"

structure LiveType where
  id : TypeId
  name : String
  layout : Layout
  /-- The unit loaded under the name of the type, with dispatchers for bodies -/
  loadedUnit : TypeUnit
  loadedBytes : List UInt8
  dispatchers : ExecutorTable
  /-- Whether each method of the loaded unit is static -/
  loadedMethods : AssocMap String Bool
  /-- Whether the loaded unit was made public at registration -/
  promoted : Bool
  initial : Version
  /-- The versions after the first, oldest first -/
  later : List Version
  history : History
  /-- The published implementations -/
  table : ExecutorTable
deriving DecidableEq, Repr

namespace LiveType

def initialLabel : String := "initial"

/-- The label of the table of dispatchers. -/
def loadedLabel : String := "loaded"

/-- Every accepted version, oldest first. -/
def versions (t : LiveType) : List Version := t.initial :: t.later

/-- The version whose table is published. -/
def current (t : LiveType) : Version := (t.versions[t.table.version]?).getD t.initial

/-- The name with slashes in place of dots. -/
def internalName (t : LiveType) : String := TypeName.internal t.initial.unit.name

def isClosureHost (t : LiveType) : Bool := t.loadedUnit.isClosureHost

/-- The current version and its shape, if it hosts a closure. -/
def currentShape? (t : LiveType) : Option (Nat × HostShape) :=
  if t.current.unit.isClosureHost then some (t.current.index, t.current.unit.hostShape) else none

/-- The type of a field that some accepted version declares. -/
def fieldType? (t : LiveType) (name : String) : Option TypeDescriptor :=
  t.history.fieldTypes.find? name

/-- Whether a method of the loaded unit is static, if there is one. -/
def loadedKind? (t : LiveType) (key : String) : Option Bool := t.loadedMethods.find? key

def dispatcher? (t : LiveType) (key : String) : Option Executable := t.dispatchers.find? key

/-- The current implementation of a method. -/
def executable (t : LiveType) (key : String) : Except LookupError Executable :=
  match t.table.find? key with
  | some e => .ok e
  | none =>
    if t.history.methodKinds.contains key then .error (.removed t.name key)
    else .error (.noSuchMember t.name key)

def text (t : LiveType) : String :=
  "ReloadableType \x7b id: " ++ toString t.id ++ ", name: " ++ Text.quoted t.name ++
    ", version: " ++ toString t.table.version ++ ", label: " ++ Text.quoted t.table.label ++
    " \x7d"

end LiveType

end LiveTypes
