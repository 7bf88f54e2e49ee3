import LiveTypes.Machine.Step
import LiveTypes.Proofs.Capture.Closure
import LiveTypes.Proofs.Code.Tiling
import LiveTypes.Proofs.Machine.Keeps
import LiveTypes.Proofs.TypeUnit.Verify

/-!
# Sound code

What the interpreter relies on: control stays at instructions of the body, operands name constants,
locals, slots and sites that exist, and nothing is left that had to be redirected. A single
instruction of sound code never fails structurally, and where control goes then is sound again
(`step_keeps`).
-/

namespace LiveTypes

/-- Whether an instruction of a body starts at an offset. -/
def Executable.Starts (e : Executable) (offset : Nat) : Prop :=
  ∃ l, Instruction.decodeAll e.code.bytes = .ok l ∧ ∃ i ∈ l, i.offset = offset

/-- Whether an instruction is one of a body. -/
def Executable.Has (e : Executable) (i : Instruction) : Prop :=
  ∃ l, Instruction.decodeAll e.code.bytes = .ok l ∧ i ∈ l

/-- What is fetched where an instruction starts is an instruction of the body. -/
lemma Executable.has_of_starts {e : Executable} {offset : Nat} {i : Instruction}
    (hstarts : e.Starts offset) (hi : e.code.instruction? offset = some (.ok i)) : e.Has i := by
  obtain ⟨l, hdecoded, j, hj, rfl⟩ := hstarts
  obtain ⟨hlt, hat⟩ := (Instruction.tiles_of_decodeAll hdecoded).2 j hj
  rw [Listing.instruction?_eq, if_pos hlt, hat] at hi
  obtain rfl := Except.ok.inj (Option.some.inj hi)
  exact ⟨l, hdecoded, hj⟩

/-- An instruction of an executable that is redirected, with a slot or a site of the registry where it
names one. -/
structure Instruction.Linked (r : Registry) (e : Executable) (i : Instruction) : Prop where
  redirected : i.opcode ≠ .getField ∧ i.opcode ≠ .putField ∧ i.opcode ≠ .makeClosure
  layout : i.opcode = .getFieldSlot ∨ i.opcode = .putFieldSlot → ∀ a b owner,
    i.operands = .pair a b → e.constants.string? a = some owner →
      ∃ t, r.find? owner = some t ∧ b.toNat < t.layout.size
  site : i.opcode = .makeCaptured → ∀ a count flags key, i.operands = .closure a count flags →
    e.constants.string? a = some key → e.constants.Overfull ∨
      ∃ id s, SiteId.ofKey? e.typeId key = some id ∧ r.sites.find? id = some s ∧
        s.capturesThis = capturesThis flags

/-- An instruction of an executable whose operands are all there. -/
structure Instruction.Sound (r : Registry) (e : Executable) (i : Instruction) : Prop
    extends i.Linked r e where
  fits : i.Fits
  jump : ∀ target, i.jumpTarget? = some target →
    0 ≤ target ∧ target.toNat < e.code.size ∧ e.Starts target.toNat
  slot : ∀ index, i.operands = .localSlot index → index.toNat < e.locals.toNat
  uses : ∀ use ∈ i.constantUses, use.Resolves e.constants

lemma Instruction.Sound.form_eq {r : Registry} {e : Executable} {i : Instruction} {o : Operands}
    (hi : i.Sound r e) (h : i.operands = o) : i.opcode.form = o.form :=
  h ▸ hi.fits.symm

/-- An executable made of sound instructions, of which the last does not let control go on. -/
structure Executable.Sound (r : Registry) (e : Executable) : Prop where
  arguments_le : e.argSlots ≤ e.locals.toNat
  starts_zero : e.Starts 0
  each : ∀ offset, e.Starts offset → ∃ i, e.code.instruction? offset = some (.ok i) ∧
    i.Sound r e ∧ (i.opcode.isTerminator = false → e.Starts i.next)

/-- Every instruction of a sound executable is sound. -/
lemma Executable.Sound.of_has {r : Registry} {e : Executable} {i : Instruction} (h : e.Sound r)
    (hi : e.Has i) : i.Sound r e := by
  obtain ⟨l, hdecoded, hmem⟩ := hi
  obtain ⟨i', hi', hsound, -⟩ := h.each i.offset ⟨l, hdecoded, i, hmem, rfl⟩
  obtain ⟨hlt, hat⟩ := (Instruction.tiles_of_decodeAll hdecoded).2 i hmem
  rw [Listing.instruction?_eq, if_pos hlt, hat] at hi'
  obtain rfl := Except.ok.inj (Option.some.inj hi')
  exact hsound

def Registry.SoundCode (r : Registry) : Prop := ∀ e, r.HasBody e → e.Sound r

/-- Where control may go after an instruction of an executable. -/
def Flow.Lands (r : Registry) (e : Executable) (i : Instruction) : Flow → MachineState → Prop
  | .next, _ => i.opcode.isTerminator = false
  | .jump target, _ => e.Starts target
  | .ret v, s => s.heap.Holds v
  | .call target _, _ => r.HasBody target ∧ i.opcode.isTerminator = false

namespace Machine

open Run

variable {vm : Machine} {e : Executable} {i : Instruction} {s : MachineState}
  {Q : Flow → MachineState → Prop}

/-! ### Instructions without operands -/

section Plain

variable {r : Registry}

lemma keeps_pushNext {v : Value} (hs : s.Sound r) (hv : s.heap.Holds v) (hq : ∀ s, Q .next s) :
    Keeps r (pushNext v) Q s :=
  (keeps_push hs hv).bind fun _ s' hs' _ _ => keeps_pure hs' (hq s')

lemma keeps_binaryI32 {f : Int32 → Int32 → Except VmError Int32} (hs : s.Sound r)
    (hf : ∀ a b e, f a b = .error e → e.Tolerated r) (hq : ∀ s, Q .next s) :
    Keeps r (binaryI32 f) Q s := by
  refine (keeps_popI32 hs).bind fun b s₁ hs₁ _ _ => ?_
  refine (keeps_popI32 hs₁).bind fun a s₂ hs₂ _ _ => ?_
  refine (keeps_lift hs₂ (hf a b)).bind fun c s₃ hs₃ _ _ => ?_
  exact keeps_pushNext hs₃ (v := .i32 c) trivial hq

lemma keeps_binaryI64 {f : Int64 → Int64 → Except VmError Int64} (hs : s.Sound r)
    (hf : ∀ a b e, f a b = .error e → e.Tolerated r) (hq : ∀ s, Q .next s) :
    Keeps r (binaryI64 f) Q s := by
  refine (keeps_popI64 hs).bind fun b s₁ hs₁ _ _ => ?_
  refine (keeps_popI64 hs₁).bind fun a s₂ hs₂ _ _ => ?_
  refine (keeps_lift hs₂ (hf a b)).bind fun c s₃ hs₃ _ _ => ?_
  exact keeps_pushNext hs₃ (v := .i64 c) trivial hq

lemma keeps_binaryF64 {f : Double → Double → Double} (hs : s.Sound r) (hq : ∀ s, Q .next s) :
    Keeps r (binaryF64 f) Q s := by
  refine (keeps_popF64 hs).bind fun b s₁ hs₁ _ _ => ?_
  refine (keeps_popF64 hs₁).bind fun a s₂ hs₂ _ _ => ?_
  exact keeps_pushNext hs₂ (v := .f64 (f a b)) trivial hq

lemma keeps_comparison {f : Int → Int → Bool} (hs : s.Sound r) (hq : ∀ s, Q .next s) :
    Keeps r (comparison f) Q s := by
  refine (keeps_popIntegers hs).bind fun p s₁ hs₁ _ _ => ?_
  exact keeps_pushNext hs₁ (v := .bool (f p.1 p.2)) trivial hq

/-- Division fails in one way only. -/
lemma tolerated_of_div {α : Type} {p : Prop} [Decidable p] {a : α} {e : VmError}
    (h : (if p then .error .divisionByZero else .ok a : Except VmError α) = .error e) :
    e.Tolerated r := by
  split at h
  · rw [← Except.error.inj h]
    exact .of_not id
  · cases h

lemma keeps_stepPlain (hs : s.Sound r) {op : Opcode} (hform : op.form = .none)
    (hnext : op.isTerminator = false → ∀ s, Q .next s)
    (hret : ∀ v s, s.heap.Holds v → Q (.ret v) s) : Keeps r (stepPlain op) Q s := by
  cases op <;> dsimp only [stepPlain]
  case nop => exact keeps_pure hs (hnext rfl s)
  case pop => exact (keeps_pop hs).bind fun _ s' hs' _ _ => keeps_pure hs' (hnext rfl s')
  case dup =>
    refine (keeps_peek hs 0).bind ?_
    rintro v _ hs' - ⟨hv, rfl⟩
    exact keeps_pushNext hs' hv (hnext rfl)
  case swap =>
    refine (keeps_pop hs).bind fun b s₁ hs₁ _ hb => ?_
    refine (keeps_pop hs₁).bind fun a s₂ hs₂ hgrows ha => ?_
    refine (keeps_push hs₂ (hb.grows hgrows.heap)).bind fun _ s₃ hs₃ hgrows' _ => ?_
    exact keeps_pushNext hs₃ (ha.grows hgrows'.heap) (hnext rfl)
  case constNull | constTrue | constFalse => exact keeps_pushNext hs trivial (hnext rfl)
  case iadd | isub | imul => exact keeps_binaryI32 hs (by simp) (hnext rfl)
  case idiv | imod => exact keeps_binaryI32 hs (fun _ _ _ => tolerated_of_div) (hnext rfl)
  case ladd | lsub | lmul => exact keeps_binaryI64 hs (by simp) (hnext rfl)
  case ldiv => exact keeps_binaryI64 hs (fun _ _ _ => tolerated_of_div) (hnext rfl)
  case ineg =>
    exact (keeps_popI32 hs).bind fun a _ hs' _ _ =>
      keeps_pushNext hs' (v := .i32 (-a)) trivial (hnext rfl)
  case i2l =>
    exact (keeps_popI32 hs).bind fun a _ hs' _ _ =>
      keeps_pushNext hs' (v := .i64 a.toInt64) trivial (hnext rfl)
  case fadd | fsub | fmul | fdiv => exact keeps_binaryF64 hs (hnext rfl)
  case ieq | ine | ilt | ile | igt | ige => exact keeps_comparison hs (hnext rfl)
  case not =>
    exact (keeps_popBool hs).bind fun a _ hs' _ _ =>
      keeps_pushNext hs' (v := .bool (!a)) trivial (hnext rfl)
  case ret => exact (keeps_pop hs).bind fun v s' hs' _ hv => keeps_pure hs' (hret v s' hv)
  case retVoid => exact keeps_pure hs (hret .null s trivial)
  all_goals cases hform

end Plain

/-! ### Operands and lookups -/

lemma keeps_stringOperand {r : Registry} (hs : s.Sound r) {index : UInt32}
    (h : ∃ text, e.constants.string? index = some text) :
    Keeps r (stringOperand e index)
      (fun text s' => e.constants.string? index = some text ∧ s = s') s := by
  obtain ⟨text, htext⟩ := h
  refine keeps_require hs fun hnone => ?_
  rw [htext] at hnone
  cases hnone

lemma keeps_signatureOperand {r : Registry} (hs : s.Sound r) {index : UInt32}
    (h : (ConstantUse.signature index).Resolves e.constants) :
    Keeps r (signatureOperand e index) (fun _ s' => s = s') s := by
  obtain ⟨key, signature, hkey, hparse⟩ := h
  refine (keeps_stringOperand hs ⟨key, hkey⟩).bind ?_
  rintro key' _ hs' - ⟨hkey', rfl⟩
  obtain rfl := Option.some.inj (hkey.symm.trans hkey')
  rw [hparse]
  exact keeps_pure hs' rfl

lemma keeps_resolve (hs : s.Sound vm.registry) (name : String) :
    Keeps vm.registry (vm.resolve name)
      (fun t s' => vm.registry.find? name = some t ∧ s = s') s :=
  keeps_require hs fun _ => .of_not id

lemma keeps_typeById (hs : s.Sound vm.registry) (id : TypeId) :
    Keeps vm.registry (vm.typeById id) (fun t s' => t ∈ vm.registry.types ∧ s = s') s := by
  have hfound : Keeps vm.registry (vm.typeById id)
      (fun t s' => vm.registry.byId? id = some t ∧ s = s') s :=
    keeps_require hs fun _ => .of_not fun h => h
  refine hfound.mono ?_
  rintro t s' ⟨ht, rfl⟩
  exact ⟨List.mem_of_getElem? ht, rfl⟩

lemma keeps_checkAccess {r : Registry} (hs : s.Sound r) (t : LiveType) :
    Keeps r (checkAccess e t) (fun _ s' => s = s') s := by
  unfold checkAccess
  split
  · exact keeps_pure hs rfl
  · exact keeps_throw hs (.of_not id)

lemma keeps_expectKind {r : Registry} (hs : s.Sound r) (target : Executable) (isStatic : Bool) :
    Keeps r (expectKind target isStatic) (fun _ s' => s = s') s := by
  unfold expectKind
  split
  · exact keeps_pure hs rfl
  · exact keeps_throw hs (.of_not id)

lemma keeps_dispatcher {r : Registry} (hs : s.Sound r) {t : LiveType}
    (ht : t ∈ r.types) (key : String) :
    Keeps r (dispatcher t key) (fun target s' => r.HasBody target ∧ s = s') s := by
  refine (keeps_require hs fun _ => .of_not id).mono ?_
  rintro target s' ⟨htarget, rfl⟩
  exact ⟨⟨t, ht, key, .inr htarget⟩, rfl⟩

lemma keeps_implementation {r : Registry} (hs : s.Sound r) {t : LiveType}
    (ht : t ∈ r.types) (key : String) :
    Keeps r (implementation t key) (fun target s' => r.HasBody target ∧ s = s') s := by
  refine (keeps_lift hs fun e he => ?_).mono ?_
  · cases hlookup : t.executable key with
    | ok target =>
      rw [hlookup] at he
      cases he
    | error cause =>
      rw [hlookup] at he
      rw [← Except.error.inj he]
      exact .of_not id
  · rintro target s' ⟨htarget, rfl⟩
    refine ⟨⟨t, ht, key, .inl ?_⟩, rfl⟩
    rw [Outcome.mapError_eq_ok, LiveType.executable] at htarget
    split at htarget
    · next e he => rw [he, Except.ok.inj htarget]
    · split at htarget <;> cases htarget

/-- A site that is bound is found. -/
lemma keeps_site (hs : s.Sound vm.registry) {id : SiteId}
    (h : ∃ site, vm.registry.sites.find? id = some site) :
    Keeps vm.registry (vm.site id)
      (fun site s' => vm.registry.sites.find? id = some site ∧ s = s') s := by
  obtain ⟨site, hsite⟩ := h
  refine keeps_require hs fun hnone => ?_
  rw [hsite] at hnone
  cases hnone

lemma keeps_closureTarget (hs : s.Sound vm.registry) {c : Closure}
    (hbound : ∃ site, vm.registry.sites.find? c.site = some site) (key : String) :
    Keeps vm.registry (vm.closureTarget c key)
      (fun target s' => vm.registry.HasBody target ∧ s = s') s := by
  refine (keeps_site hs hbound).bind ?_
  rintro site _ hs - ⟨-, rfl⟩
  refine (keeps_typeById hs site.hostId).bind ?_
  rintro host _ hs - ⟨hhost, rfl⟩
  refine (keeps_implementation hs hhost key).bind ?_
  rintro target _ hs - ⟨htarget, rfl⟩
  refine (keeps_expectKind hs target false).bind ?_
  rintro _ _ hs - rfl
  exact keeps_pure hs ⟨htarget, rfl⟩

lemma keeps_receiverType (hs : s.Sound vm.registry) (owner : String) (params : Nat) :
    Keeps vm.registry (vm.receiverType owner params)
      (fun t s' => t ∈ vm.registry.types ∧ s = s') s := by
  refine (keeps_peek hs params).bind ?_
  rintro v _ hs - ⟨-, rfl⟩
  cases v with
  | object object typeName =>
    dsimp only
    split
    · refine (keeps_resolve hs owner).mono ?_
      rintro t s' ⟨ht, rfl⟩
      exact ⟨Registry.mem_of_find? ht, rfl⟩
    · exact keeps_throw hs (.of_not id)
  | _ => exact keeps_throw hs (.of_not id)

/-! ### Locals and jumps -/

lemma keeps_stepLocal {r : Registry} (hs : s.Sound r) {op : Opcode} {slot : UInt16}
    (hform : op.form = .localSlot) (hslot : s.stack.HasLocal slot.toNat)
    (hnext : op.isTerminator = false → ∀ s, Q .next s) : Keeps r (stepLocal slot op) Q s := by
  cases op
  case loadLocal =>
    exact (keeps_loadLocal hs hslot).bind fun v s' hs' _ hv => keeps_pushNext hs' hv (hnext rfl)
  case storeLocal =>
    refine (keeps_pop hs).bind fun v s₁ hs₁ hgrows hv => ?_
    have hslot₁ : s₁.stack.HasLocal slot.toNat := by
      obtain ⟨f, rest, hframes, hlt⟩ := hslot
      exact ⟨f, rest, hgrows.frames_eq.trans hframes, hlt⟩
    exact (keeps_storeLocal hs₁ hslot₁ hv).bind fun _ s₂ hs₂ _ _ => keeps_pure hs₂ (hnext rfl s₂)
  all_goals cases hform

lemma keeps_takeJump {r : Registry} (hs : s.Sound r) (hi : i.Sound r e)
    (hjump : ∃ target, i.jumpTarget? = some target) (hq : ∀ t s, e.Starts t → Q (.jump t) s) :
    Keeps r (takeJump e i) Q s := by
  obtain ⟨target, htarget⟩ := hjump
  obtain ⟨hle, hlt, hstarts⟩ := hi.jump target htarget
  rw [takeJump, htarget]
  dsimp only
  rw [if_pos ⟨hle, hlt⟩]
  exact keeps_pure hs (hq _ _ hstarts)

lemma keeps_stepJump {r : Registry} (hs : s.Sound r) (hi : i.Sound r e) {offset : Int32}
    (hoperands : i.operands = .jump offset)
    (hnext : i.opcode.isTerminator = false → ∀ s, Q .next s)
    (hq : ∀ t s, e.Starts t → Q (.jump t) s) : Keeps r (stepJump e i) Q s := by
  have hjump : ∃ target, i.jumpTarget? = some target := by
    rw [Instruction.jumpTarget?, hoperands]
    exact ⟨_, rfl⟩
  have hform : i.opcode.form = .jump := hi.form_eq hoperands
  unfold stepJump
  cases hop : i.opcode <;> dsimp only <;> rw [hop] at hnext hform
  case jmp => exact keeps_takeJump hs hi hjump hq
  case jmpIfFalse =>
    refine (keeps_popBool hs).bind fun b s' hs' _ _ => ?_
    cases b with
    | true => exact keeps_pure hs' (hnext rfl s')
    | false => exact keeps_takeJump hs' hi hjump hq
  case jmpIfTrue =>
    refine (keeps_popBool hs).bind fun b s' hs' _ _ => ?_
    cases b with
    | true => exact keeps_takeJump hs' hi hjump hq
    | false => exact keeps_pure hs' (hnext rfl s')
  all_goals cases hform

/-! ### Objects -/

lemma keeps_popOwner {r : Registry} (hs : s.Sound r) (owner : String) :
    Keeps r (popOwner owner) (fun object s' => s'.heap.Holds (.object object owner)) s := by
  refine (keeps_popInstance hs).bind fun p s' hs' _ hp => ?_
  obtain ⟨object, typeName⟩ := p
  dsimp only
  split
  · next howner => exact keeps_pure hs' (howner ▸ hp)
  · exact keeps_throw hs' (.of_not id)

lemma keeps_checkStore {r : Registry} (hs : s.Sound r) (typeName field : String)
    (type : Option TypeDescriptor) (v : Value) :
    Keeps r (checkStore typeName field type v) (fun _ s' => s = s') s := by
  unfold checkStore
  cases type with
  | none => exact keeps_throw hs (.of_not id)
  | some type =>
    dsimp only
    split
    · exact keeps_pure hs rfl
    · exact keeps_throw hs (.of_not id)

lemma keeps_getFieldSlot {r : Registry} (hs : s.Sound r) {a b : UInt32}
    (hstring : ∃ owner, e.constants.string? a = some owner)
    (hlayout : ∀ owner, e.constants.string? a = some owner →
      ∃ t, r.find? owner = some t ∧ b.toNat < t.layout.size)
    (hq : ∀ s, Q .next s) : Keeps r (getFieldSlot e a b) Q s := by
  refine (keeps_stringOperand hs hstring).bind ?_
  rintro owner _ hs - ⟨howner, rfl⟩
  refine (keeps_popOwner hs owner).bind fun object s₁ hs₁ _ hobject => ?_
  refine (keeps_get hs₁).bind ?_
  rintro _ _ hs₁ - ⟨rfl, rfl⟩
  -- the instance has the layout of its type, which has the slot
  obtain ⟨t, ht, hlt⟩ := hlayout owner howner
  obtain ⟨inst, hinst, rfl⟩ := hobject
  obtain ⟨t', ht', -, hlength⟩ := hs₁.heap.instances object inst hinst
  obtain rfl := Option.some.inj (ht.symm.trans ht')
  have hlt' : b.toNat < inst.slots.length := by rwa [hlength]
  have hslot : s₁.heap.getSlot? object b.toNat = some inst.slots[b.toNat] := by
    rw [Heap.getSlot?, hinst, Option.bind_some, List.getElem?_eq_getElem hlt']
  rw [hslot]
  have hv := hs₁.heap.slots object inst hinst _ (List.getElem_mem hlt')
  exact keeps_pushNext hs₁ hv hq

lemma keeps_putFieldSlot (hs : s.Sound vm.registry) {a b : UInt32}
    (hstring : ∃ owner, e.constants.string? a = some owner) (hq : ∀ s, Q .next s) :
    Keeps vm.registry (putFieldSlot vm e a b) Q s := by
  refine (keeps_stringOperand hs hstring).bind ?_
  rintro owner _ hs - ⟨-, rfl⟩
  refine (keeps_pop hs).bind fun v s₁ hs₁ _ hv => ?_
  refine (keeps_popOwner hs₁ owner).bind fun object s₂ hs₂ hgrows _ => ?_
  refine (keeps_resolve hs₂ owner).bind ?_
  rintro t _ hs₂ - ⟨-, rfl⟩
  refine (keeps_checkStore hs₂ _ _ _ v).bind ?_
  rintro _ _ hs₂ - rfl
  have hsound : (s₂.heap.setSlot object b.toNat v).Sound vm.registry :=
    hs₂.heap.setSlot (hv.grows hgrows.heap)
  refine (keeps_modifyHeap hs₂ hsound (Heap.grows_setSlot _ _ _ _)).bind fun _ s₃ hs₃ _ _ => ?_
  exact keeps_pure hs₃ (hq s₃)

lemma keeps_getField (hs : s.Sound vm.registry) {a b : UInt32}
    (howner : ∃ owner, e.constants.string? a = some owner)
    (hname : ∃ name, e.constants.string? b = some name) (hq : ∀ s, Q .next s) :
    Keeps vm.registry (getField vm e a b) Q s := by
  refine (keeps_stringOperand hs howner).bind ?_
  rintro owner _ hs - ⟨-, rfl⟩
  refine (keeps_stringOperand hs hname).bind ?_
  rintro name _ hs - ⟨-, rfl⟩
  refine (keeps_popOwner hs owner).bind fun object s₁ hs₁ _ _ => ?_
  refine (keeps_resolve hs₁ owner).bind ?_
  rintro t _ hs₁ - ⟨-, rfl⟩
  refine (keeps_require hs₁ fun _ => .of_not id).bind ?_
  rintro place _ hs₁ - ⟨-, rfl⟩
  refine (keeps_get hs₁).bind ?_
  rintro _ _ hs₁ - ⟨rfl, rfl⟩
  refine (keeps_require hs₁ fun _ => .of_not id).bind ?_
  rintro v _ hs₁ - ⟨hv, rfl⟩
  have hsound : (s₁.heap.touchAt object name place).Sound vm.registry :=
    hs₁.heap.touchAt name place
  have hgrows := Heap.grows_touchAt s₁.heap object name place
  refine (keeps_modifyHeap hs₁ hsound hgrows).bind fun _ s₂ hs₂ hgrows _ => ?_
  exact keeps_pushNext hs₂ ((hs₁.heap.valueAt? hv).grows hgrows.heap) hq

lemma keeps_putField (hs : s.Sound vm.registry) {a b : UInt32}
    (howner : ∃ owner, e.constants.string? a = some owner)
    (hname : ∃ name, e.constants.string? b = some name) (hq : ∀ s, Q .next s) :
    Keeps vm.registry (putField vm e a b) Q s := by
  refine (keeps_stringOperand hs howner).bind ?_
  rintro owner _ hs - ⟨-, rfl⟩
  refine (keeps_stringOperand hs hname).bind ?_
  rintro name _ hs - ⟨-, rfl⟩
  refine (keeps_pop hs).bind fun v s₁ hs₁ _ hv => ?_
  refine (keeps_popOwner hs₁ owner).bind fun object s₂ hs₂ hgrows _ => ?_
  refine (keeps_resolve hs₂ owner).bind ?_
  rintro t _ hs₂ - ⟨-, rfl⟩
  refine (keeps_checkStore hs₂ _ _ _ v).bind ?_
  rintro _ _ hs₂ - rfl
  cases t.fieldPlace? name with
  | none => exact keeps_pure hs₂ (hq _)
  | some place =>
    have hsound : (s₂.heap.storeAt object name v place).Sound vm.registry :=
      hs₂.heap.storeAt (hv.grows hgrows.heap) place
    refine (keeps_modifyHeap hs₂ hsound (Heap.grows_storeAt _ _ _ _ _)).bind fun _ s₃ hs₃ _ _ => ?_
    exact keeps_pure hs₃ (hq s₃)

lemma admits_newInstance {r : Registry} {h : Heap} {t : LiveType}
    (ht : r.find? t.name = some t) : Heap.Admits r h (newInstance t) := by
  refine ⟨⟨t, ht, rfl, by simp⟩, fun v hv => ?_⟩
  obtain ⟨f, -, rfl⟩ := List.mem_map.mp hv
  exact h.holds_default f.2

lemma keeps_new (hs : s.Sound vm.registry) {index : UInt32}
    (hstring : ∃ owner, e.constants.string? index = some owner) (hq : ∀ s, Q .next s) :
    Keeps vm.registry (stepIndex vm e index .new) Q s := by
  refine (keeps_stringOperand hs hstring).bind ?_
  rintro owner _ hs - ⟨-, rfl⟩
  refine (keeps_resolve hs owner).bind ?_
  rintro t _ hs - ⟨ht, rfl⟩
  obtain rfl := Registry.find?_name ht
  refine (keeps_checkAccess hs t).bind ?_
  rintro _ _ hs - rfl
  split
  · exact (keeps_throw hs (.of_not id) (Q := fun _ _ => False)).bind fun _ _ _ _ h => h.elim
  · refine (keeps_allocate hs (admits_newInstance ht)).bind fun object s₁ hs₁ _ hobject => ?_
    exact keeps_pushNext hs₁ ⟨_, Heap.instance?_eq_some.mpr hobject, rfl⟩ hq

/-! ### Closures -/

/-- What a closure holds was passed, or was there before. -/
lemma mem_of_fillSlots {id : SiteId} {site : CaptureSite} {position : Nat}
    {captured captured' values : List Value}
    (h : fillSlots id site position captured values = .ok captured') :
    ∀ v ∈ captured', v ∈ captured ∨ v ∈ values := by
  induction values generalizing position captured with
  | nil =>
    obtain rfl := Except.ok.inj h
    exact fun v hv => .inl hv
  | cons w rest ih =>
    rw [fillSlots] at h
    split at h
    · cases h
    · split at h
      · cases h
      · split at h
        · intro v hv
          rcases ih h v hv with hv | hv
          · rcases List.mem_or_eq_of_mem_set hv with hv | rfl
            · exact .inl hv
            · exact .inr List.mem_cons_self
          · exact .inr (List.mem_cons_of_mem w hv)
        · cases h

lemma tolerated_of_fillSlots {r : Registry} {id : SiteId} {site : CaptureSite} {position : Nat}
    {captured values : List Value} {e : VmError}
    (h : fillSlots id site position captured values = .error e) : e.Tolerated r := by
  induction values generalizing position captured with
  | nil => cases h
  | cons w rest ih =>
    rw [fillSlots] at h
    split at h
    · rw [← Except.error.inj h]
      exact .of_not fun h => h
    · split at h
      · rw [← Except.error.inj h]
        exact .of_not fun h => h
      · split at h
        · exact ih h
        · rw [← Except.error.inj h]
          exact .of_not fun h => h

/-- The last part of making a closure, over what it holds. -/
lemma keeps_fill (hs : s.Sound vm.registry) {id : SiteId} {site : CaptureSite}
    (hsite : vm.registry.sites.find? id = some site) {values : List Value}
    {enclosing : Option Value} (hvalues : ∀ v ∈ values, s.heap.Holds v)
    (henclosing : ∀ v ∈ enclosing, s.heap.Holds v) (hq : ∀ s, Q .next s) :
    Keeps vm.registry (do
      let captured ← Run.lift (fillSlots id site 0
        (site.slots.map fun slot => Value.default slot.type) values)
      let object ← Run.allocate (.closureOf ⟨id, enclosing, captured⟩)
      pushNext (.closure object)) Q s := by
  refine (keeps_lift hs fun e => tolerated_of_fillSlots).bind ?_
  rintro captured _ hs - ⟨hfill, rfl⟩
  have hadmits : Heap.Admits vm.registry s.heap (.closureOf ⟨id, enclosing, captured⟩) := by
    refine ⟨⟨site, hsite⟩, fun v hv => ?_⟩
    rcases List.mem_append.mp hv with hv | hv
    · rcases mem_of_fillSlots hfill v hv with hv | hv
      · obtain ⟨slot, -, rfl⟩ := List.mem_map.mp hv
        exact s.heap.holds_default slot.type
      · exact hvalues v hv
    · exact henclosing v (Option.mem_toList.mp hv)
  refine (keeps_allocate hs hadmits).bind fun object s₁ hs₁ _ hobject => ?_
  exact keeps_pushNext hs₁ (v := .closure object) ⟨_, Heap.closure?_eq_some.mpr hobject⟩ hq

lemma keeps_makeCaptured (hs : s.Sound vm.registry) {index : UInt32} {count flags : UInt8}
    (he : vm.registry.HasBody e) (hstring : ∃ key, e.constants.string? index = some key)
    (hsite : ∀ key, e.constants.string? index = some key → e.constants.Overfull ∨
      ∃ id site, SiteId.ofKey? e.typeId key = some id ∧ vm.registry.sites.find? id = some site ∧
        site.capturesThis = capturesThis flags)
    (hq : ∀ s, Q .next s) :
    Keeps vm.registry (makeCaptured vm e index count flags) Q s := by
  refine (keeps_stringOperand hs hstring).bind ?_
  rintro key _ hs - ⟨hkey, rfl⟩
  have hsite := hsite key hkey
  refine (keeps_require hs fun hnone _ => ?_).bind ?_
  · rcases hsite with hoverfull | ⟨id, site, hid, -⟩
    · exact ⟨trivial, e, he, hoverfull⟩
    · rw [hnone] at hid
      cases hid
  rintro id _ hs - ⟨hid, rfl⟩
  have hfound : Keeps vm.registry (vm.site id)
      (fun site s' => vm.registry.sites.find? id = some site ∧ s = s') s := by
    refine keeps_require hs fun hnone _ => ?_
    rcases hsite with hoverfull | ⟨id', site, hid', hsite, -⟩
    · exact ⟨trivial, e, he, hoverfull⟩
    · obtain rfl := Option.some.inj (hid.symm.trans hid')
      rw [hnone] at hsite
      cases hsite
  refine hfound.bind ?_
  rintro site _ hs - ⟨hsite, rfl⟩
  refine (keeps_typeById hs site.hostId).bind ?_
  rintro host _ hs - ⟨-, rfl⟩
  refine (keeps_checkAccess hs host).bind ?_
  rintro _ _ hs - rfl
  refine (keeps_popMany hs (by simp)).bind fun values s₁ hs₁ _ hvalues => ?_
  split
  · have hpop : Keeps vm.registry (some <$> Run.pop)
        (fun enclosing s' => ∀ v ∈ enclosing, s'.heap.Holds v) s₁ := by
      refine (keeps_pop hs₁).bind fun v s₂ hs₂ _ hv => keeps_pure hs₂ ?_
      intro w hw
      obtain rfl := Option.some.inj hw
      exact hv
    refine hpop.bind fun enclosing s₂ hs₂ hgrows henclosing => ?_
    exact keeps_fill hs₂ hsite (fun v hv => (hvalues v hv).grows hgrows.heap) henclosing hq
  · refine (keeps_pure hs₁ (Q := fun enclosing s' => none = enclosing ∧ s₁ = s') ⟨rfl, rfl⟩).bind ?_
    rintro _ _ hs₁ - ⟨rfl, rfl⟩
    exact keeps_fill hs₁ hsite hvalues (by simp) hq

lemma keeps_getCaptured (hs : s.Sound vm.registry) {b : UInt32} (hq : ∀ s, Q .next s) :
    Keeps vm.registry (getCaptured vm e b) Q s := by
  refine (keeps_popClosure hs).bind fun c s₁ hs₁ _ hc => ?_
  obtain ⟨hbound, hheld⟩ := hc
  refine (keeps_site hs₁ hbound).bind ?_
  rintro site _ hs₁ - ⟨-, rfl⟩
  refine (keeps_require hs₁ fun _ => .of_not id).bind ?_
  rintro slot _ hs₁ - ⟨-, rfl⟩
  cases hv : c.captured[slot]? with
  | some v =>
    have hmem := List.mem_append_left c.enclosing.toList (List.mem_of_getElem? hv)
    exact keeps_pushNext hs₁ (hheld v hmem) hq
  | none =>
    dsimp only
    split
    · exact keeps_pushNext hs₁ (Heap.holds_default _ _) hq
    · exact keeps_pushNext hs₁ (v := .null) trivial hq

lemma keeps_getEnclosing {r : Registry} (hs : s.Sound r) (hq : ∀ s, Q .next s) :
    Keeps r getEnclosing Q s := by
  refine (keeps_popClosure hs).bind fun c s₁ hs₁ _ hc => ?_
  apply keeps_pushNext hs₁ _ hq
  cases henclosing : c.enclosing with
  | none => trivial
  | some v => exact hc.2 v (List.mem_append_right _ (by simp [henclosing]))

/-! ### Calls -/

/-- What is left of a call once its type was found and may be reached. -/
lemma keeps_bind_call (hs : s.Sound vm.registry) {x : Run Executable}
    (hx : Keeps vm.registry x (fun target s' => vm.registry.HasBody target ∧ s = s') s)
    (isStatic : Bool) (argc : Executable → Nat)
    (hq : ∀ target n s, vm.registry.HasBody target → Q (.call target n) s) :
    Keeps vm.registry (do
      let target ← x
      expectKind target isStatic
      return Flow.call target (argc target)) Q s := by
  refine hx.bind ?_
  rintro target _ - - ⟨htarget, rfl⟩
  refine (keeps_expectKind hs target isStatic).bind ?_
  rintro _ _ hs - rfl
  exact keeps_pure hs (hq _ _ _ htarget)

lemma keeps_invokeStatic (hs : s.Sound vm.registry)
    {dynamic : Bool} {a b : UInt32} (howner : ∃ owner, e.constants.string? a = some owner)
    (hkey : ∃ key, e.constants.string? b = some key)
    (hq : ∀ target n s, vm.registry.HasBody target → Q (.call target n) s) :
    Keeps vm.registry (invokeStatic vm e dynamic a b) Q s := by
  refine (keeps_stringOperand hs howner).bind ?_
  rintro owner _ hs - ⟨-, rfl⟩
  refine (keeps_resolve hs owner).bind ?_
  rintro t _ hs - ⟨ht, rfl⟩
  refine (keeps_checkAccess hs t).bind ?_
  rintro _ _ hs - rfl
  refine (keeps_stringOperand hs hkey).bind ?_
  rintro key _ hs - ⟨-, rfl⟩
  have ht := Registry.mem_of_find? ht
  split
  · exact keeps_bind_call hs (keeps_implementation hs ht key) true _ hq
  · exact keeps_bind_call hs (keeps_dispatcher hs ht key) true _ hq

lemma keeps_invokeVirtual (hs : s.Sound vm.registry)
    {dynamic : Bool} {a b : UInt32} (howner : ∃ owner, e.constants.string? a = some owner)
    (hkey : (ConstantUse.signature b).Resolves e.constants)
    (hq : ∀ target n s, vm.registry.HasBody target → Q (.call target n) s) :
    Keeps vm.registry (invokeVirtual vm e dynamic a b) Q s := by
  refine (keeps_stringOperand hs howner).bind ?_
  rintro owner _ hs - ⟨-, rfl⟩
  refine (keeps_signatureOperand hs hkey).bind ?_
  rintro ⟨key, signature⟩ _ hs - rfl
  refine (keeps_receiverType hs owner signature.paramCount).bind ?_
  rintro t _ hs - ⟨ht, rfl⟩
  refine (keeps_checkAccess hs t).bind ?_
  rintro _ _ hs - rfl
  split
  · exact keeps_bind_call hs (keeps_implementation hs ht key) false _ hq
  · exact keeps_bind_call hs (keeps_dispatcher hs ht key) false _ hq

lemma keeps_invokeClosure (hs : s.Sound vm.registry)
    {index : UInt32} (hkey : (ConstantUse.signature index).Resolves e.constants)
    (hq : ∀ target n s, vm.registry.HasBody target → Q (.call target n) s) :
    Keeps vm.registry (stepIndex vm e index .invokeClosure) Q s := by
  refine (keeps_signatureOperand hs hkey).bind ?_
  rintro ⟨key, signature⟩ _ hs - rfl
  refine (keeps_peek hs signature.paramCount).bind ?_
  rintro v _ hs - ⟨-, rfl⟩
  cases v with
  | closure object =>
    refine (keeps_get hs).bind ?_
    rintro _ _ hs - ⟨rfl, rfl⟩
    refine (keeps_require hs fun _ => .of_not id).bind ?_
    rintro c _ hs - ⟨hc, rfl⟩
    refine (keeps_closureTarget hs (hs.heap.closures object c hc) key).bind ?_
    rintro target _ hs - ⟨htarget, rfl⟩
    exact keeps_pure hs (hq _ _ _ htarget)
  | _ => exact keeps_throw hs (.of_not id)

lemma keeps_stepDispatch (hs : s.Sound vm.registry)
    {index : UInt32} {argc : UInt16} (hkey : ∃ key, e.constants.string? index = some key)
    (hq : ∀ target n s, vm.registry.HasBody target → Q (.call target n) s) :
    Keeps vm.registry (stepDispatch vm e index argc) Q s := by
  refine (keeps_stringOperand hs hkey).bind ?_
  rintro key _ hs - ⟨-, rfl⟩
  refine (keeps_typeById hs e.typeId).bind ?_
  rintro t _ hs - ⟨ht, rfl⟩
  refine (keeps_implementation hs ht key).bind ?_
  rintro target _ hs - ⟨htarget, rfl⟩
  exact keeps_pure hs (hq _ _ _ htarget)

/-! ### Every instruction -/

/-- A signature key is a string. -/
lemma string_of_resolves {constants : ConstantPool} {index : UInt32}
    (h : (ConstantUse.signature index).Resolves constants) :
    ∃ key, constants.string? index = some key := by
  obtain ⟨key, -, hkey, -⟩ := h
  exact ⟨key, hkey⟩

lemma keeps_stepIndex (hi : i.Sound vm.registry e)
    (hs : s.Sound vm.registry) {a : UInt32} (hoperands : i.operands = .index a)
    (hnext : i.opcode.isTerminator = false → ∀ s, Q .next s)
    (hq : i.opcode.isTerminator = false →
      ∀ target n s, vm.registry.HasBody target → Q (.call target n) s) :
    Keeps vm.registry (stepIndex vm e a i.opcode) Q s := by
  have hform : i.opcode.form = .index := hi.form_eq hoperands
  have huses := hi.uses
  rw [Instruction.constantUses, hoperands] at huses
  cases hop : i.opcode <;> rw [hop] at hnext hq hform huses
  case constStr =>
    refine (keeps_stringOperand hs (huses _ List.mem_cons_self)).bind ?_
    rintro text _ hs - ⟨-, rfl⟩
    exact keeps_pushNext hs (v := .str text) trivial (hnext rfl)
  case new => exact keeps_new hs (huses _ List.mem_cons_self) (hnext rfl)
  case invokeClosure => exact keeps_invokeClosure hs (huses _ List.mem_cons_self) (hq rfl)
  all_goals cases hform

lemma keeps_stepPair (hi : i.Sound vm.registry e)
    (hs : s.Sound vm.registry) {a b : UInt32} (hoperands : i.operands = .pair a b)
    (hnext : i.opcode.isTerminator = false → ∀ s, Q .next s)
    (hq : i.opcode.isTerminator = false →
      ∀ target n s, vm.registry.HasBody target → Q (.call target n) s) :
    Keeps vm.registry (stepPair vm e a b i.opcode) Q s := by
  have hform : i.opcode.form = .pair := hi.form_eq hoperands
  have huses := hi.uses
  rw [Instruction.constantUses, hoperands] at huses
  have hlayout := hi.layout
  have hredirected := hi.redirected
  cases hop : i.opcode <;> rw [hop] at hnext hq hform huses hlayout hredirected
  case invokeStatic | invokeDynamicStatic =>
    exact keeps_invokeStatic hs (huses (.string a) (by simp))
      (string_of_resolves (huses (.signature b) (by simp))) (hq rfl)
  case invokeVirtual | invokeDynamicVirtual =>
    exact keeps_invokeVirtual hs (huses (.string a) (by simp))
      (huses (.signature b) (by simp)) (hq rfl)
  case getFieldSlot =>
    exact keeps_getFieldSlot hs (huses (.string a) (by simp))
      (fun owner => hlayout (.inl rfl) a b owner hoperands) (hnext rfl)
  case putFieldSlot => exact keeps_putFieldSlot hs (huses (.string a) (by simp)) (hnext rfl)
  case getExtField =>
    exact keeps_getField hs (huses (.string a) (by simp)) (huses (.string b) (by simp)) (hnext rfl)
  case putExtField =>
    exact keeps_putField hs (huses (.string a) (by simp)) (huses (.string b) (by simp)) (hnext rfl)
  case getCaptured => exact keeps_getCaptured hs (hnext rfl)
  case getEnclosing => exact keeps_getEnclosing hs (hnext rfl)
  case getField => exact absurd rfl hredirected.1
  case putField => exact absurd rfl hredirected.2.1
  all_goals cases hform

lemma keeps_stepClosure (he : vm.registry.HasBody e) (hi : i.Sound vm.registry e)
    (hs : s.Sound vm.registry) {a : UInt32} {count flags : UInt8} (hoperands : i.operands = .closure a count flags)
    (hnext : i.opcode.isTerminator = false → ∀ s, Q .next s) :
    Keeps vm.registry (stepClosure vm e a count flags i.opcode) Q s := by
  have hform : i.opcode.form = .closure := hi.form_eq hoperands
  have huses := hi.uses
  rw [Instruction.constantUses, hoperands] at huses
  have hsite := hi.site
  have hredirected := hi.redirected
  cases hop : i.opcode <;> rw [hop] at hnext hform huses hsite hredirected
  case makeCaptured =>
    exact keeps_makeCaptured hs he (huses (.string a) (by simp))
      (fun key => hsite rfl a count flags key hoperands) (hnext rfl)
  case makeClosure => exact absurd rfl hredirected.2.2
  all_goals cases hform

/-- A sound instruction in a sound state, in the frame of its body, fails only as it may, keeps the
heap and the stack sound, and lets control go only to where it is sound again. -/
theorem step_keeps (he : vm.registry.HasBody e) (hi : i.Sound vm.registry e)
    (hs : s.Sound vm.registry) (hlocals : ∀ n < e.locals.toNat, s.stack.HasLocal n) :
    Keeps vm.registry (step vm e i) (Flow.Lands vm.registry e i) s := by
  have hnext (hterminator : i.opcode.isTerminator = false) (s : MachineState) :
      Flow.Lands vm.registry e i .next s :=
    hterminator
  -- immediates are pushed, and never stand in an instruction that leaves the method
  have hpush {v : Value} (hv : s.heap.Holds v)
      (hform : i.operands.form = .i32 ∨ i.operands.form = .i64 ∨ i.operands.form = .f64) :
      Keeps vm.registry (pushNext v) (Flow.Lands vm.registry e i) s := by
    apply keeps_pushNext hs hv
    apply hnext
    rw [show i.operands.form = _ from hi.fits] at hform
    cases hop : i.opcode <;> rw [hop] at hform <;> first | rfl | simp [Opcode.form] at hform
  unfold step
  cases hoperands : i.operands with
  | none =>
    have hform : i.opcode.form = .none := hi.form_eq hoperands
    exact keeps_stepPlain hs hform hnext fun v s hv => hv
  | i32 v => exact hpush (v := .i32 v) trivial (by simp [hoperands, Operands.form])
  | i64 v => exact hpush (v := .i64 v) trivial (by simp [hoperands, Operands.form])
  | f64 v => exact hpush (v := .f64 v) trivial (by simp [hoperands, Operands.form])
  | index a => exact keeps_stepIndex hi hs hoperands hnext fun hop _ _ _ h => ⟨h, hop⟩
  | localSlot slot =>
    have hform : i.opcode.form = .localSlot := hi.form_eq hoperands
    exact keeps_stepLocal hs hform (hlocals _ (hi.slot slot hoperands)) hnext
  | jump offset => exact keeps_stepJump hs hi hoperands hnext fun _ _ h => h
  | pair a b => exact keeps_stepPair hi hs hoperands hnext fun hop _ _ _ h => ⟨h, hop⟩
  | dispatch signature argc =>
    have hform : i.opcode.form = .dispatch := hi.form_eq hoperands
    have huses := hi.uses
    rw [Instruction.constantUses, hoperands] at huses
    cases hop : i.opcode <;> rw [hop] at hform huses
    case dispatch =>
      exact keeps_stepDispatch hs
        (string_of_resolves (huses (.signature signature) (by simp))) fun _ _ _ h => ⟨h, hop ▸ rfl⟩
    all_goals cases hform
  | closure a count flags => exact keeps_stepClosure he hi hs hoperands hnext

end Machine

end LiveTypes
