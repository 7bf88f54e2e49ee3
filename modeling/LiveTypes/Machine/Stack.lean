import LiveTypes.Machine.Error

/-!
# Operand stack

One stack holds the locals of every open frame, each followed by the operands of the frame. Arguments
are pushed by the caller and become the first locals of the callee.

    operands of the top frame
    locals after the arguments, null at first
    arguments                              base of the top frame
    operands and locals of the frame below

An operation that fails leaves the stack as it was.
-/

namespace LiveTypes

structure Frame where
  /-- Place of the first local -/
  base : Nat
  /-- Number of locals, arguments included -/
  locals : Nat
  /-- Number of arguments -/
  arguments : Nat
deriving DecidableEq, Repr

/-- The place of the first operand of a frame. -/
def Frame.floor (f : Frame) : Nat := f.base + f.locals

/-- Slots, lowest first, and frames, top first. -/
structure Stack where
  slots : Array Value
  frames : List Frame
  /-- Greatest number of slots -/
  limit : Nat
deriving DecidableEq, Repr

namespace Stack

/-- The number of slots of a stack without a limit of its own. -/
def defaultLimit : Nat := 16384

def empty (limit : Nat) : Stack := ⟨#[], [], limit⟩

def depth (s : Stack) : Nat := s.slots.size

/-- The place below which no operand is popped. -/
def floor (s : Stack) : Nat :=
  match s.frames with
  | f :: _ => f.floor
  | [] => 0

@[inline] def push (s : Stack) (v : Value) : Except VmError Stack :=
  if s.limit ≤ s.slots.size then .error .stackOverflow
  else .ok { s with slots := s.slots.push v }

/-- Pop an operand of the top frame. -/
@[inline] def pop (s : Stack) : Except VmError (Value × Stack) :=
  if s.slots.size ≤ s.floor then .error .stackUnderflow
  else
    match s.slots.back? with
    | some v => .ok (v, { s with slots := s.slots.pop })
    | none => .error .stackUnderflow

/-- The operand of the top frame with `n` operands above it. -/
def peek (s : Stack) (n : Nat) : Except VmError Value :=
  if s.slots.size ≤ s.floor + n then .error .stackUnderflow
  else
    match s.slots[s.slots.size - 1 - n]? with
    | some v => .ok v
    | none => .error .stackUnderflow

/-- Open a frame over the top values, which become its first locals. -/
@[inline] def pushFrame (s : Stack) (arguments locals : Nat) : Except VmError Stack :=
  if locals < arguments then .error (.runtime (.argumentsDoNotFit arguments locals))
  else if s.slots.size - s.floor < arguments then .error .stackUnderflow
  else
    let base := s.slots.size - arguments
    if s.limit < base + locals then .error .stackOverflow
    else
      .ok { s with
        slots := s.slots ++ Array.replicate (locals - arguments) Value.null
        frames := ⟨base, locals, arguments⟩ :: s.frames }

/-- Close the top frame and drop its locals and operands. -/
@[inline] def popFrame (s : Stack) : Except VmError (Frame × Stack) :=
  match s.frames with
  | f :: rest => .ok (f, { s with slots := s.slots.shrink f.base, frames := rest })
  | [] => .error (.runtime .noFrameToPop)

/-- The place of a local of the top frame. -/
def localPlace (s : Stack) (index : Nat) : Except VmError Nat :=
  match s.frames with
  | [] => .error (.runtime .noFrame)
  | f :: _ =>
    if f.locals ≤ index then .error (.runtime (.localOutOfBounds index f.locals))
    else .ok (f.base + index)

def loadLocal (s : Stack) (index : Nat) : Except VmError Value :=
  (s.localPlace index).map fun place => s.slots.getD place .null

@[inline] def storeLocal (s : Stack) (index : Nat) (v : Value) : Except VmError Stack :=
  match s.localPlace index with
  | .ok place => .ok { s with slots := s.slots.setIfInBounds place v }
  | .error e => .error e

end Stack

end LiveTypes
