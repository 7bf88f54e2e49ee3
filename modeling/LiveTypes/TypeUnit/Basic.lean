import LiveTypes.Bytes.Digest
import LiveTypes.Descriptor.Signature
import LiveTypes.TypeName
import LiveTypes.TypeUnit.ConstantPool

/-!
# Type units

A type unit is one version of one type: its name, supertype, access, constants, fields, methods and
attributes. A closure host is a type whose captured fields are filled in when a closure is created.
-/

namespace LiveTypes

/-- Whether a set of flags has all flags of another. -/
def hasFlag (flags flag : UInt32) : Bool := flags &&& flag ≠ 0

/-! ### Flags -/

namespace Access

/-- Accessible from anywhere. -/
def isPublic : UInt32 := 1

/-- Accessible only from the enclosing type. -/
def isPrivate : UInt32 := 2

/-- Made by a compiler. -/
def synthetic : UInt32 := 4

/-- Host of a closure. -/
def closureHost : UInt32 := 8

/-- Holds the redirected bodies of a version. -/
def executor : UInt32 := 16

/-- Holds dispatchers in place of bodies. -/
def dispatching : UInt32 := 32

end Access

/-- Flag of static fields. -/
def staticField : UInt32 := 1

/-- Flag of the captured variables of a closure host. -/
def capturedField : UInt32 := 2

/-- Flag of the enclosing instance of a closure host. -/
def enclosingField : UInt32 := 4

/-- Flag of methods without a receiver. -/
def staticMethod : UInt32 := 1

/-! ### Members -/

structure FieldDecl where
  name : String
  type : TypeDescriptor
  flags : UInt32
deriving DecidableEq, Repr

namespace FieldDecl

def isStatic (f : FieldDecl) : Bool := hasFlag f.flags staticField

def isCaptured (f : FieldDecl) : Bool := hasFlag f.flags capturedField

def isEnclosing (f : FieldDecl) : Bool := hasFlag f.flags enclosingField

end FieldDecl

structure MethodDecl where
  signature : Signature
  flags : UInt32
  /-- Names of the exception types it may throw -/
  throws : List String
  /-- Number of local slots, parameters and receiver included -/
  locals : UInt16
  code : List UInt8
deriving DecidableEq, Repr

namespace MethodDecl

/-- Whether the method has no receiver. -/
def isStatic (m : MethodDecl) : Bool := hasFlag m.flags staticMethod

def key (m : MethodDecl) : String := m.signature.key

/-- Number of argument slots, receiver included. -/
def argSlots (m : MethodDecl) : Nat := m.signature.paramCount + if m.isStatic then 0 else 1

end MethodDecl

/-- A named attribute with data of its own format. -/
structure Attribute where
  name : String
  data : List UInt8
deriving DecidableEq, Repr

/-! ### Units -/

/-- One version of one type. -/
structure TypeUnit where
  formatFlags : UInt32
  name : String
  superName : Option String
  access : UInt32
  constants : ConstantPool
  fields : List FieldDecl
  methods : List MethodDecl
  attributes : List Attribute
deriving DecidableEq, Repr

namespace TypeUnit

def isPublic (u : TypeUnit) : Bool := hasFlag u.access Access.isPublic

/-- Whether the unit is private to its enclosing type. -/
def isPrivate (u : TypeUnit) : Bool := hasFlag u.access Access.isPrivate

def isClosureHost (u : TypeUnit) : Bool := hasFlag u.access Access.closureHost

/-- The first method with a signature key. -/
def method? (u : TypeUnit) (key : String) : Option MethodDecl :=
  u.methods.find? fun m => m.key = key

def field? (u : TypeUnit) (name : String) : Option FieldDecl :=
  u.fields.find? fun f => f.name = name

def instanceFields (u : TypeUnit) : List FieldDecl := u.fields.filter fun f => !f.isStatic

def capturedFields (u : TypeUnit) : List FieldDecl := u.fields.filter FieldDecl.isCaptured

/-- The enclosing instance of a closure host. -/
def enclosingField? (u : TypeUnit) : Option FieldDecl := u.fields.find? FieldDecl.isEnclosing

def attribute? (u : TypeUnit) (name : String) : Option Attribute :=
  u.attributes.find? fun a => a.name = name

end TypeUnit

/-! ### Summaries -/

/-- What is known of a unit without its code: its members, and a digest of its bytes. -/
structure UnitSummary where
  name : String
  internalName : String
  superName : Option String
  access : UInt32
  fields : List (String × TypeDescriptor)
  /-- Signature keys, and whether the method is static -/
  methods : List (String × Bool)
  digest : List UInt8
deriving DecidableEq, Repr

def TypeUnit.summary (u : TypeUnit) (bytes : List UInt8) : UnitSummary where
  name := u.name
  internalName := TypeName.internal u.name
  superName := u.superName
  access := u.access
  fields := u.fields.map fun f => (f.name, f.type)
  methods := u.methods.map fun m => (m.key, m.isStatic)
  digest := LiveTypes.digest bytes

namespace UnitSummary

def hasMethod (s : UnitSummary) (key : String) : Bool := s.methods.any fun m => m.1 = key

def fieldType? (s : UnitSummary) (name : String) : Option TypeDescriptor :=
  (s.fields.find? fun f => f.1 = name).map Prod.snd

end UnitSummary

end LiveTypes
