import LiveTypes.AssocMap
import LiveTypes.Code.Assembler
import LiveTypes.TypeUnit.Basic

/-!
# Unit sources

A unit can be described by names in place of constant indices and by labels in place of jump
offsets. Names are interned in the order in which the bodies use them.
-/

namespace LiveTypes

/-- One line of a body. -/
inductive CodeLine where
  /-- An opcode, without operands -/
  | op (op : Opcode)
  | i32 (value : Int32)
  | i64 (value : Int64)
  | f64 (value : Double)
  | str (value : String)
  | load (slot : UInt16)
  | store (slot : UInt16)
  | invokeStatic (owner key : String)
  | invokeVirtual (owner key : String)
  | invokeClosure (key : String)
  | new (owner : String)
  | getField (owner field : String)
  | putField (owner field : String)
  | makeClosure (host : String) (count flags : UInt8)
  /-- Intern a name and emit nothing -/
  | intern (name : String)
  /-- Bytes as they are -/
  | raw (bytes : List UInt8)
  /-- A jump to the next place that binds the label -/
  | jump (op : Opcode) (label : String)
  /-- The place that the open jumps to the label lead to -/
  | bind (label : String)
  /-- A place for jumps back -/
  | mark (label : String)
  /-- A jump to the last mark with the label -/
  | back (op : Opcode) (label : String)
  /-- A jump by a given offset -/
  | jumpBy (op : Opcode) (offset : Int32)
  /-- Lines several times over -/
  | times (count : Nat) (lines : List CodeLine)

/-- A body under construction. -/
structure CodeDraft where
  code : Assembler
  constants : ConstantPool
  /-- Places of the jumps that wait for a label, newest first -/
  pending : AssocMap String (List Nat)
  marks : AssocMap String Nat

namespace CodeDraft

def start (constants : ConstantPool) : CodeDraft := ⟨.empty, constants, .empty, .empty⟩

def intern (d : CodeDraft) (name : String) : UInt32 × CodeDraft :=
  let (index, constants) := d.constants.intern name
  (index, { d with constants })

/-- Append code. -/
def write (d : CodeDraft) (f : Assembler → Assembler) : CodeDraft := { d with code := f d.code }

/-- Append an instruction with one name. -/
def writeName (d : CodeDraft) (f : Assembler → UInt32 → Assembler) (name : String) : CodeDraft :=
  let (index, d) := d.intern name
  d.write (f · index)

/-- Append an instruction with an owner and a member. -/
def writeMember (d : CodeDraft) (f : Assembler → UInt32 → UInt32 → Assembler)
    (owner member : String) : CodeDraft :=
  let (first, d) := d.intern owner
  let (second, d) := d.intern member
  d.write (f · first second)

mutual

def addLine (d : CodeDraft) : CodeLine → CodeDraft
  | .op op => d.write (·.opcode op)
  | .i32 v => d.write (·.constI32 v)
  | .i64 v => d.write (·.constI64 v)
  | .f64 v => d.write (·.constF64 v)
  | .str s => d.writeName .constStr s
  | .load slot => d.write (·.loadLocal slot)
  | .store slot => d.write (·.storeLocal slot)
  | .invokeStatic owner key => d.writeMember .invokeStatic owner key
  | .invokeVirtual owner key => d.writeMember .invokeVirtual owner key
  | .invokeClosure key => d.writeName .invokeClosure key
  | .new owner => d.writeName .new owner
  | .getField owner field => d.writeMember .getField owner field
  | .putField owner field => d.writeMember .putField owner field
  | .makeClosure host count flags => d.writeName (·.makeClosure · count flags) host
  | .intern name => (d.intern name).2
  | .raw bytes => d.write (·.append bytes)
  | .jump op label =>
    let (place, code) := d.code.jump op
    let waiting := (d.pending.find? label).getD []
    { d with code, pending := d.pending.insert label (place :: waiting) }
  | .bind label =>
    let waiting := (d.pending.find? label).getD []
    { d with code := waiting.foldl Assembler.bindJump d.code, pending := d.pending.erase label }
  | .mark label => { d with marks := d.marks.insert label d.code.offset }
  | .back op label =>
    let target := (d.marks.find? label).getD 0
    let distance := Int32.ofNat target - (Int32.ofNat d.code.offset + 5)
    d.write (·.emit op (.jump distance))
  | .jumpBy op offset => d.write (·.emit op (.jump offset))
  | .times count lines => Nat.repeat (fun d => d.addLines lines) count d

def addLines (d : CodeDraft) : List CodeLine → CodeDraft
  | [] => d
  | line :: rest => (d.addLine line).addLines rest

end

end CodeDraft

/-- A method described by names. -/
structure MethodSource where
  key : String
  flags : UInt32
  locals : UInt16
  throws : List String
  body : List CodeLine

/-- A unit described by names. -/
structure UnitSource where
  name : String
  superName : Option String
  access : UInt32
  /-- Name, descriptor and flags of each field -/
  fields : List (String × String × UInt32)
  methods : List MethodSource
  attributes : List Attribute
  /-- Constants after those that the bodies use -/
  strings : List String
  integers : List Int64
  floats : List Double
  formatFlags : UInt32

namespace UnitSource

/-- The bodies of methods, over one pool that grows from method to method. -/
def assemble (constants : ConstantPool) : List MethodSource →
    ConstantPool × List (MethodSource × List UInt8)
  | [] => (constants, [])
  | m :: rest =>
    let draft := (CodeDraft.start constants).addLines m.body
    let (constants, bodies) := assemble draft.constants rest
    (constants, (m, draft.code.bytes) :: bodies)

/-- The unit that a source describes. Field descriptors are read before signature keys. -/
def build (s : UnitSource) : Except DescriptorError TypeUnit := do
  let (constants, bodies) := assemble .empty s.methods
  let fields ← s.fields.mapM fun (name, descriptor, flags) => do
    return { name, type := ← TypeDescriptor.parse descriptor, flags : FieldDecl }
  let methods ← bodies.mapM fun (m, code) => do
    return { signature := ← Signature.parseKey m.key, flags := m.flags, throws := m.throws,
             locals := m.locals, code : MethodDecl }
  return {
    formatFlags := s.formatFlags
    name := s.name
    superName := s.superName
    access := s.access
    constants := {
      strings := constants.strings ++ s.strings.toArray
      integers := s.integers
      floats := s.floats }
    fields, methods
    attributes := s.attributes }

end UnitSource

end LiveTypes
