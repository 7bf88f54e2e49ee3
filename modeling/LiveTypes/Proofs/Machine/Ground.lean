import LiveTypes.Proofs.Machine.Safety

/-!
# Frames over different grounds

Code sees the top frame and the heap. What lies under the frame is its ground, which running code leaves
as it is: a call opens a frame over its arguments (`enter_calling`), and when the frame is closed all but
the arguments is there again (`leave_state`).
-/

namespace LiveTypes

/-- What lies under the top frame. -/
structure Ground where
  /-- The slots of the frames below -/
  below : List Value
  frames : List Frame
  limit : Nat
  /-- Number of open calls below -/
  depth : Nat

/-- The top frame and the heap, as code sees them. -/
structure View where
  /-- Number of locals, arguments included -/
  locals : Nat
  arguments : Nat
  /-- The locals of the frame and its operands -/
  slots : List Value
  heap : Heap

/-- Failures for lack of room. -/
def VmError.IsLimit : VmError → Prop
  | .stackOverflow | .callDepthExceeded _ => True
  | _ => False

instance (e : VmError) : Decidable e.IsLimit := by
  unfold VmError.IsLimit
  split <;> infer_instance

namespace Ground

/-- The stack with a frame on a ground. -/
def stack (g : Ground) (v : View) : Stack :=
  ⟨(g.below ++ v.slots).toArray, ⟨g.below.length, v.locals, v.arguments⟩ :: g.frames, g.limit⟩

def state (g : Ground) (v : View) : MachineState := ⟨g.stack v, v.heap, g.depth + 1⟩

/-- The state in which a call is made, with its arguments on a ground. -/
def calling (g : Ground) (arguments : List Value) (h : Heap) : MachineState :=
  ⟨⟨(g.below ++ arguments).toArray, g.frames, g.limit⟩, h, g.depth⟩

/-- Whether a ground holds the locals of its top frame. -/
def Firm (g : Ground) : Prop := Stack.floor ⟨#[], g.frames, g.limit⟩ ≤ g.below.length

/-- The ground of a call that is made from a frame, which holds all that is not passed. -/
def under (g : Ground) (v : View) (rest : List Value) : Ground :=
  ⟨g.below ++ rest, ⟨g.below.length, v.locals, v.arguments⟩ :: g.frames, g.limit, g.depth + 1⟩

variable (g : Ground) (v : View)

@[simp] lemma stack_state : (g.state v).stack = g.stack v := rfl

@[simp] lemma limit_stack : (g.stack v).limit = g.limit := rfl

@[simp] lemma floor_stack : (g.stack v).floor = g.below.length + v.locals := rfl

@[simp] lemma size_stack : (g.stack v).slots.size = g.below.length + v.slots.length := by
  simp [stack]

/-- The last slot is the top one. -/
lemma slots_stack_concat (slots : List Value) (w : Value) :
    (g.stack { v with slots := slots ++ [w] }).slots = (g.stack { v with slots }).slots.push w := by
  simp [stack]

/-- A slot of the frame, counted from its base. -/
lemma getElem?_stack (n : Nat) : (g.stack v).slots[g.below.length + n]? = v.slots[n]? := by
  simp [stack, List.getElem?_append_right]

/-- The place of a local, counted from the base of the frame. -/
lemma localPlace_stack (index : Nat) : (g.stack v).localPlace index =
    if v.locals ≤ index then .error (.runtime (.localOutOfBounds index v.locals))
    else .ok (g.below.length + index) := rfl

/-- What a call from a frame finds on the ground that holds the rest of the frame. -/
lemma calling_under (rest values : List Value) (h : Heap) :
    (g.under v rest).calling values h = g.state { v with slots := rest ++ values, heap := h } := by
  simp [state, stack, calling, under]

lemma firm_under {rest : List Value} (h : v.locals ≤ rest.length) : (g.under v rest).Firm := by
  show g.below.length + v.locals ≤ (g.below ++ rest).length
  rw [List.length_append]
  omega

end Ground

namespace Run

variable {g : Ground} {v : View}

lemma push_state_of_le {w : Value} (h : g.limit ≤ g.below.length + v.slots.length) :
    push w (g.state v) = .error .stackOverflow (g.state v) :=
  push_of_le (by simpa using h)

lemma push_state_of_lt {w : Value} (h : g.below.length + v.slots.length < g.limit) :
    push w (g.state v) = .ok () (g.state { v with slots := v.slots ++ [w] }) := by
  refine push_eq_ok.mpr ⟨by simpa using h, ?_⟩
  simp [Ground.state, Ground.stack]

end Run

namespace Machine

variable {vm : Machine} {target : Executable} {g : Ground} {v : View} {arguments : List Value}
  {h : Heap}

/-- The frame of a call when it is opened. -/
def opened (target : Executable) (arguments : List Value) (h : Heap) : View where
  locals := target.locals.toNat
  arguments := arguments.length
  slots := arguments ++ List.replicate (target.locals.toNat - arguments.length) .null
  heap := h

/-- A call fails for lack of room or because it passes too few or too many arguments, or its frame is
opened over the arguments. -/
lemma enter_calling (hg : g.Firm) (hfits : target.argSlots ≤ target.locals.toNat) :
    (arguments.length = target.argSlots ∧ g.below.length + target.locals.toNat ≤ g.limit ∧
        enter vm target arguments.length (g.calling arguments h) =
          .ok () (g.state (opened target arguments h))) ∨
      (∃ e, e.IsLimit ∧ enter vm target arguments.length (g.calling arguments h) =
        .error e (g.calling arguments h)) ∨
      (arguments.length ≠ target.argSlots ∧
        enter vm target arguments.length (g.calling arguments h) =
          .error (.typeError (.argumentSlots target.key target.argSlots arguments.length))
            (g.calling arguments h)) := by
  rcases (Nat.lt_or_ge g.depth vm.maxCallDepth).symm with hdepth | hdepth
  · exact .inr (.inl ⟨.callDepthExceeded vm.maxCallDepth, trivial, enter_of_le hdepth _⟩)
  by_cases heq : arguments.length = target.argSlots
  swap
  · refine .inr (.inr ⟨heq, ?_⟩)
    rw [enter_of_lt hdepth, if_pos heq]
    rfl
  have hsize : (g.calling arguments h).stack.slots.size = g.below.length + arguments.length := by
    simp [Ground.calling]
  have hfloor : ¬ (g.calling arguments h).stack.slots.size - (g.calling arguments h).stack.floor <
      arguments.length := by
    rw [hsize]
    have hfloor : (g.calling arguments h).stack.floor ≤ g.below.length := hg
    omega
  have hbase : (g.calling arguments h).stack.slots.size - arguments.length = g.below.length := by
    rw [hsize]
    omega
  have hframe : (g.calling arguments h).stack.pushFrame arguments.length target.locals.toNat =
      if g.limit < g.below.length + target.locals.toNat then .error .stackOverflow
      else .ok (g.stack (opened target arguments h)) := by
    rw [Stack.pushFrame, if_neg (by omega), if_neg hfloor]
    simp only [hbase]
    refine if_congr Iff.rfl rfl ?_
    simp [Ground.calling, Ground.stack, opened]
  by_cases hlimit : g.limit < g.below.length + target.locals.toNat
  · rw [if_pos hlimit] at hframe
    exact .inr (.inl ⟨.stackOverflow, trivial, enter_of_pushFrame_error hdepth heq hframe⟩)
  · rw [if_neg hlimit] at hframe
    exact .inl ⟨heq, Nat.not_lt.mp hlimit, enter_of_pushFrame hdepth heq hframe⟩

/-- A call that passes more than the operands of a frame fails. -/
lemma enter_of_short {argc : Nat} (hfits : target.argSlots ≤ target.locals.toNat)
    (hlocals : v.locals ≤ v.slots.length) (hshort : v.slots.length < v.locals + argc) :
    (∃ e, e.IsLimit ∧ enter vm target argc (g.state v) = .error e (g.state v)) ∨
      enter vm target argc (g.state v) =
        .error (if argc = target.argSlots then .stackUnderflow else
          .typeError (.argumentSlots target.key target.argSlots argc)) (g.state v) := by
  rcases (Nat.lt_or_ge (g.depth + 1) vm.maxCallDepth).symm with hdepth | hdepth
  · exact .inl ⟨.callDepthExceeded vm.maxCallDepth, trivial, enter_of_le hdepth _⟩
  refine .inr ?_
  by_cases heq : argc = target.argSlots
  · rw [if_pos heq]
    refine enter_of_pushFrame_error hdepth heq ?_
    rw [Stack.pushFrame, if_neg (by omega), if_pos]
    simp only [Ground.stack_state, Ground.size_stack, Ground.floor_stack]
    omega
  · rw [if_neg heq, enter_of_lt hdepth, if_pos heq]
    rfl

/-- When its frame is closed, nothing is left of a call. -/
lemma leave_state : leave (g.state v) = .ok () (g.calling [] v.heap) := by
  have hshrink : (g.stack v).slots.shrink g.below.length = (g.below ++ []).toArray := by
    rw [← Array.toList_inj, Array.toList_shrink]
    simp [Ground.stack]
  have hframes : (g.state v).stack.frames =
      ⟨g.below.length, v.locals, v.arguments⟩ :: g.frames := rfl
  rw [leave_eq hframes]
  show EStateM.Result.ok () (⟨⟨(g.stack v).slots.shrink g.below.length, g.frames, g.limit⟩, v.heap,
    g.depth⟩ : MachineState) = _
  rw [hshrink]
  rfl

lemma finish_ok (w : Value) : finish (.ok w (g.state v)) = .ok w (g.calling [] v.heap) := by
  rw [finish, leave_state]

lemma finish_error (e : VmError) :
    finish (.error e (g.state v)) = .error e (g.calling [] v.heap) := by
  rw [finish, leave_state]

end Machine

end LiveTypes
