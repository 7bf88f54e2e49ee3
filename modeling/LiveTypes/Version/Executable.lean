import LiveTypes.AssocMap
import LiveTypes.Code.Listing
import LiveTypes.TypeUnit.Basic

/-!
# Executables

An executable is a method ready to run. The table of a version maps each signature key to its
implementation; a reload replaces the whole table.
-/

namespace LiveTypes

/-- Identity of a registered type: its place in the order of registration. -/
abbrev TypeId := Nat

/-- A method ready to run. -/
structure Executable where
  /-- The key under which it is called -/
  key : String
  signature : Signature
  isStatic : Bool
  /-- The declaring type -/
  typeId : TypeId
  typeName : String
  /-- The unit that holds the body, on whose behalf accesses are checked -/
  unitName : String
  /-- The version that the body was redirected for -/
  version : Nat
  /-- Number of local slots, parameters and receiver included -/
  locals : UInt16
  throws : List String
  code : Listing
  constants : ConstantPool
deriving DecidableEq, Repr

namespace Executable

/-- Number of argument slots, receiver included. -/
def argSlots (e : Executable) : Nat := e.signature.paramCount + if e.isStatic then 0 else 1

end Executable

/-- The implementations that one version publishes. -/
structure ExecutorTable where
  typeName : String
  version : Nat
  label : String
  entries : AssocMap String Executable
deriving DecidableEq, Repr

namespace ExecutorTable

def executable (u : TypeUnit) (typeId : TypeId) (typeName : String) (version : Nat)
    (m : MethodDecl) : Executable where
  key := m.key
  signature := m.signature
  isStatic := m.isStatic
  typeId := typeId
  typeName := typeName
  unitName := u.name
  version := version
  locals := m.locals
  throws := m.throws
  code := .ofBytes m.code
  constants := u.constants

def ofUnit (u : TypeUnit) (typeId : TypeId) (typeName : String) (version : Nat)
    (label : String) : ExecutorTable where
  typeName := typeName
  version := version
  label := label
  entries := .ofList <| u.methods.map fun m => (m.key, executable u typeId typeName version m)

/-- The same implementations published as another version. -/
def republish (t : ExecutorTable) (version : Nat) (label : String) : ExecutorTable :=
  { t with version, label }

def find? (t : ExecutorTable) (key : String) : Option Executable := t.entries.find? key

/-- The implementations by rising key. -/
def sorted (t : ExecutorTable) : List Executable :=
  t.entries.values.mergeSort fun a b => a.key ≤ b.key

end ExecutorTable

end LiveTypes
