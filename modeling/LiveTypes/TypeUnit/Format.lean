import LiveTypes.Bytes.Checksum
import LiveTypes.TypeUnit.Basic

/-!
# Unit format

A unit in bytes: a header of sixteen bytes with a magic number, the format version, flags and the
checksum of all that follows, then name, supertype, access, constants, fields, methods and
attributes. Reading checks the header before the body and leaves no byte over.
-/

namespace LiveTypes

/-- Why bytes are not a type unit. -/
inductive UnitError where
  | decode (cause : DecodeError)
  | descriptor (cause : DescriptorError)
  /-- The first four bytes -/
  | invalidMagic (found : List UInt8)
  | unsupportedVersion (version : UInt32)
  | checksumMismatch (expected actual : UInt32)
  /-- Number of bytes after the last table -/
  | trailingBytes (count : Nat)
  | emptyName
deriving DecidableEq, Repr

def UnitError.code : UnitError → String
  | .decode e => "Decode/" ++ e.code
  | .descriptor e => "Descriptor/" ++ e.code
  | .invalidMagic _ => "InvalidMagic"
  | .unsupportedVersion _ => "UnsupportedVersion"
  | .checksumMismatch _ _ => "ChecksumMismatch"
  | .trailingBytes _ => "TrailingBytes"
  | .emptyName => "EmptyName"

namespace UnitFormat

/-- The magic number `HSWP`. -/
def magic : List UInt8 := [0x48, 0x53, 0x57, 0x50]

/-- The version of the format. -/
def version : UInt32 := 1

end UnitFormat

open Text in
def UnitError.message : UnitError → String
  | .decode e => s!"Decode error: {e.message}"
  | .descriptor e => s!"Descriptor error: {e.message}"
  | .invalidMagic found =>
    let bytes := ", ".intercalate (found.map toString)
    s!"Invalid magic number: expected HSWP, got [{bytes}]"
  | .unsupportedVersion v => s!"Unsupported version: {v} (current: {UnitFormat.version})"
  | .checksumMismatch expected actual =>
    s!"Checksum mismatch: expected 0x{hexNumber expected.toNat}, got 0x{hexNumber actual.toNat}"
  | .trailingBytes n => s!"{n} trailing bytes after unit body"
  | .emptyName => "Type unit has an empty name"

/-! ### Writing -/

/-- A table in bytes: the number of its entries, then the entries. -/
def encodeTable {α : Type} (encode : α → List UInt8) (l : List α) : List UInt8 :=
  encodeU32 (UInt32.ofNat l.length) ++ l.flatMap encode

def FieldDecl.encode (f : FieldDecl) : List UInt8 :=
  encodeText f.name ++ encodeText f.type.text ++ encodeU32 f.flags

def MethodDecl.encode (m : MethodDecl) : List UInt8 :=
  encodeText m.signature.name ++ encodeText m.signature.descriptor.text ++ encodeU32 m.flags ++
    encodeTable encodeText m.throws ++ encodeU16 m.locals ++ encodeBlob m.code

def Attribute.encode (a : Attribute) : List UInt8 := encodeText a.name ++ encodeBlob a.data

namespace TypeUnit

/-- The bytes of an optional supertype: a byte that tells whether there is one, then its name. -/
def encodeSuper : Option String → List UInt8
  | none => [0]
  | some name => 1 :: encodeText name

/-- The bytes after the header. -/
def encodeBody (u : TypeUnit) : List UInt8 :=
  encodeText u.name ++ encodeSuper u.superName ++ encodeU32 u.access ++ u.constants.encode ++
    encodeTable FieldDecl.encode u.fields ++ encodeTable MethodDecl.encode u.methods ++
    encodeTable Attribute.encode u.attributes

/-- The header before a body. -/
def encodeHeader (formatFlags : UInt32) (body : List UInt8) : List UInt8 :=
  UnitFormat.magic ++ encodeU32 UnitFormat.version ++ encodeU32 formatFlags ++
    encodeU32 (checksum body)

def encode (u : TypeUnit) : List UInt8 :=
  let body := u.encodeBody
  encodeHeader u.formatFlags body ++ body

end TypeUnit

/-! ### Reading -/

namespace Decoder

def inUnit {α : Type} (d : Decoder DecodeError α) : Decoder UnitError α :=
  EStateM.adaptExcept UnitError.decode d

/-- Go on with a descriptor that was read as text. -/
def ofDescriptor {α : Type} (r : Except DescriptorError α) : Decoder UnitError α :=
  match r with
  | .ok a => pure a
  | .error e => throw (.descriptor e)

end Decoder

open Decoder

def FieldDecl.read : Decoder UnitError FieldDecl := do
  let name ← inUnit text
  let type ← ofDescriptor (TypeDescriptor.parse (← inUnit text))
  let flags ← inUnit u32
  return ⟨name, type, flags⟩

def MethodDecl.read : Decoder UnitError MethodDecl := do
  let name ← inUnit text
  let signature ← ofDescriptor (Signature.ofParts name (← inUnit text))
  let flags ← inUnit u32
  let throws ← inUnit (table u32 text)
  let locals ← inUnit u16
  let code ← inUnit blob
  return ⟨signature, flags, throws, locals, code⟩

def Attribute.read : Decoder UnitError Attribute := do
  let name ← inUnit text
  let data ← inUnit blob
  return ⟨name, data⟩

namespace TypeUnit

/-- Read an optional supertype; every presence byte but zero announces a name. -/
def readSuper : Decoder UnitError (Option String) := do
  let presence ← inUnit u8
  if presence = 0 then return none
  else return some (← inUnit text)

/-- Read and check the header, and give the format flags. -/
def readHeader : Decoder UnitError UInt32 := do
  let magic ← inUnit (bytes 4)
  if magic ≠ UnitFormat.magic then throw (.invalidMagic magic)
  let version ← inUnit u32
  if version ≠ UnitFormat.version then throw (.unsupportedVersion version)
  let formatFlags ← inUnit u32
  let stored ← inUnit u32
  let actual := checksum (← get).rest
  if stored ≠ actual then throw (.checksumMismatch stored actual)
  return formatFlags

def readBody (formatFlags : UInt32) : Decoder UnitError TypeUnit := do
  let name ← inUnit text
  if name.isEmpty then throw .emptyName
  let superName ← readSuper
  let access ← inUnit u32
  let constants ← inUnit ConstantPool.read
  let fields ← table (inUnit u32) FieldDecl.read
  let methods ← table (inUnit u32) MethodDecl.read
  let attributes ← table (inUnit u32) Attribute.read
  return ⟨formatFlags, name, superName, access, constants, fields, methods, attributes⟩

def decode (data : List UInt8) : Except UnitError TypeUnit :=
  match (readHeader >>= readBody) (.start data) with
  | .error e _ => .error e
  | .ok u c => if c.atEnd then .ok u else .error (.trailingBytes c.rest.length)

end TypeUnit

end LiveTypes
