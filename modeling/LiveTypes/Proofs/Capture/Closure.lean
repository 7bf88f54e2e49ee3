import LiveTypes.Machine.Step
import LiveTypes.Proofs.Capture.Mapping
import LiveTypes.Proofs.Machine.Run

/-!
# Creating closures and reading them

What a closure holds after it was created, slot by slot, and what code reads of it.
-/

namespace LiveTypes.Machine

variable {id : SiteId} {s : CaptureSite}

/-- Passed values are stored in the slots of their positions, and nothing else changes. -/
lemma fillSlots_eq_ok {position : Nat} {captured captured' values : List Value}
    (hnodup : s.positions.Nodup)
    (h : fillSlots id s position captured values = .ok captured') :
    captured'.length = captured.length ∧
      (∀ j v, values[j]? = some v → ∃ k, s.slotFor? (position + j) = some k ∧
        (k < captured.length → captured'[k]? = some v)) ∧
      ∀ k, (∀ j, j < values.length → s.slotFor? (position + j) ≠ some k) →
        captured'[k]? = captured[k]? := by
  induction values generalizing position captured with
  | nil =>
    obtain rfl := Except.ok.inj h
    simp
  | cons v rest ih =>
    simp only [fillSlots] at h
    split at h
    · cases h
    · next slot hslot =>
      split at h
      · cases h
      · next type htype =>
        split_ifs at h with hconforms
        obtain ⟨hlength, hstored, hother⟩ := ih h
        rw [List.length_set] at hlength
        refine ⟨hlength, fun j w hj => ?_, fun k hk => ?_⟩
        · cases j with
          | zero =>
            obtain rfl : v = w := by simpa using hj
            refine ⟨slot, hslot, fun hlt => ?_⟩
            rw [hother slot fun j _ heq => ?_, List.getElem?_set_self hlt]
            have hp : position < s.positions.length := (List.getElem?_eq_some_iff.mp hslot).1
            have := (List.getElem?_inj hp hnodup).mp (hslot.trans heq.symm)
            omega
          | succ j =>
            obtain ⟨k, hk, hvalue⟩ := hstored j w (by simpa using hj)
            refine ⟨k, by rwa [show position + (j + 1) = position + 1 + j by omega], ?_⟩
            rwa [List.length_set] at hvalue
        · have hne : slot ≠ k := fun heq => hk 0 (by simp) (heq ▸ hslot)
          rw [hother k fun j hj heq => hk (j + 1) (by simpa using hj)
            (by rwa [show position + (j + 1) = position + 1 + j by omega]),
            List.getElem?_set_ne hne]

/-- A step that creates a closure from the passed values on top of the stack. -/
def Creates (vm : Machine) (passed : List Value) (c : Closure) : Prop :=
  ∃ e i index count flags st st' object, i.opcode = .makeCaptured ∧
    i.operands = .closure index count flags ∧ passed.length = count.toNat ∧
    passed <:+ st.stack.slots.toList ∧ step vm e i st = .ok .next st' ∧
    st'.stack.slots.back? = some (.closure object) ∧ st'.heap.closure? object = some c

/-- A closure that a step creates holds the passed values in the slots of their positions at its
site, and defaults in all others. -/
lemma captured_of_creates {vm : Machine} {passed : List Value} {c : Closure}
    (h : vm.Creates passed c) :
    ∃ s, vm.registry.sites.find? c.site = some s ∧
      fillSlots c.site s 0 (s.slots.map fun slot => .default slot.type) passed =
        .ok c.captured := by
  obtain ⟨e, i, index, count, flags, st, st', object, hop, hoperands, hlength, hsuffix, hstep,
    htop, hclosure⟩ := h
  rw [step, hoperands, hop] at hstep
  obtain ⟨key, st₁, hkey, hstep⟩ := Run.bind_eq_ok.mp hstep
  obtain ⟨-, rfl⟩ := Run.require_eq_ok.mp hkey
  obtain ⟨id, st₂, hid, hstep⟩ := Run.bind_eq_ok.mp hstep
  obtain ⟨-, rfl⟩ := Run.require_eq_ok.mp hid
  obtain ⟨s, st₃, hs, hstep⟩ := Run.bind_eq_ok.mp hstep
  obtain ⟨hsite, rfl⟩ := Run.require_eq_ok.mp hs
  obtain ⟨host, st₄, hhost, hstep⟩ := Run.bind_eq_ok.mp hstep
  obtain ⟨-, rfl⟩ := Run.require_eq_ok.mp hhost
  obtain ⟨_, st₅, haccess, hstep⟩ := Run.bind_eq_ok.mp hstep
  obtain ⟨-, haccess⟩ := Run.ite_throw_eq_ok.mp haccess
  obtain ⟨-, rfl⟩ := Run.pure_eq_ok.mp haccess
  obtain ⟨values, st₆, hvalues, hstep⟩ := Run.bind_eq_ok.mp hstep
  obtain ⟨taken, htop', htaken, hslots, -⟩ := Run.popMany_eq_ok hvalues
  obtain rfl : values = taken := by simpa using htop'
  obtain ⟨enclosing, st₇, hstep⟩ : ∃ enclosing st₇, (do
      let captured ← Run.lift (fillSlots id s 0 (s.slots.map fun slot => .default slot.type) values)
      let object ← Run.allocate (.closureOf ⟨id, enclosing, captured⟩)
      pushNext (.closure object) : Run Flow) st₇ = .ok .next st' := by
    split at hstep
    all_goals
      obtain ⟨enclosing, st₇, -, hstep⟩ := Run.bind_eq_ok.mp hstep
      exact ⟨enclosing, st₇, hstep⟩
  obtain ⟨captured, st₈, hfill, hstep⟩ := Run.bind_eq_ok.mp hstep
  obtain ⟨hstored, rfl⟩ := Run.lift_eq_ok.mp hfill
  obtain ⟨object', st₉, halloc, hstep⟩ := Run.bind_eq_ok.mp hstep
  obtain ⟨rfl, rfl⟩ := Run.allocate_eq_ok.mp halloc
  obtain ⟨_, st₁₀, hpush, hstep⟩ := Run.bind_eq_ok.mp hstep
  obtain ⟨-, rfl⟩ := Run.push_eq_ok.mp hpush
  obtain ⟨-, rfl⟩ := Run.pure_eq_ok.mp hstep
  have hpassed : passed = values := by
    have hsuffix' : values <:+ st.stack.slots.toList := ⟨_, hslots.symm⟩
    exact (List.suffix_of_suffix_length_le hsuffix hsuffix' (by omega)).eq_of_length (by omega)
  obtain rfl : st₇.heap.objects.size = object := by simpa using htop
  obtain rfl : (⟨id, enclosing, captured⟩ : Closure) = c := by
    simpa [Heap.closure?] using hclosure
  exact ⟨s, hsite, by rw [hpassed, hstored]⟩

/-! ### Reading a captured variable -/

/-- What a closure holds in a slot; a slot made later reads as the default of its type. -/
def heldAt (c : Closure) (s : CaptureSite) (slot : Nat) : Value :=
  (c.captured[slot]?).getD ((s.slotType? slot).elim .null .default)

lemma popClosure_of_pop {st st₁ : MachineState} {object : ObjectId} {c : Closure}
    (hpop : Run.pop st = .ok (.closure object) st₁)
    (hclosure : st₁.heap.closure? object = some c) : Run.popClosure st = .ok c st₁ := by
  refine Run.bind_eq_ok.mpr ⟨_, _, hpop, ?_⟩
  exact Run.bind_eq_ok.mpr ⟨_, _, rfl, Run.require_eq_ok.mpr ⟨hclosure, rfl⟩⟩

/-- When a closure is popped, what it holds in the slot that the position has for the running code is
pushed. -/
lemma getCaptured_of_pop {vm : Machine} {e : Executable} {st st₁ : MachineState}
    {position : UInt32} {object : ObjectId} {c : Closure} {slot : Nat}
    (hpop : Run.pop st = .ok (.closure object) st₁)
    (hclosure : st₁.heap.closure? object = some c)
    (hsite : vm.registry.sites.find? c.site = some s)
    (hslot : s.slotAt? e.typeId e.version position.toNat = some slot) :
    getCaptured vm e position st = pushNext (heldAt c s slot) st₁ := by
  have hclosed := popClosure_of_pop hpop hclosure
  have hfound : site vm c.site st₁ = .ok s st₁ := Run.require_eq_ok.mpr ⟨hsite, rfl⟩
  unfold getCaptured
  rw [Run.bind_of_ok hclosed, Run.bind_of_ok hfound,
    Run.bind_of_ok (Run.require_eq_ok.mpr ⟨hslot, rfl⟩), heldAt]
  cases c.captured[slot]? with
  | some v => rfl
  | none => cases s.slotType? slot <;> rfl

/-- Reading a captured variable takes the closure from the stack and pushes what the closure holds
in the slot that the position has for the running code. -/
lemma step_getCaptured {vm : Machine} {e : Executable} {i : Instruction} {st : MachineState}
    {owner position : UInt32} {below : Array Value} {object : ObjectId} {c : Closure}
    {slot : Nat} (hop : i.opcode = .getCaptured) (hoperands : i.operands = .pair owner position)
    (hslots : st.stack.slots = below.push (.closure object))
    (hfloor : st.stack.floor ≤ below.size) (hlimit : below.size < st.stack.limit)
    (hclosure : st.heap.closure? object = some c)
    (hsite : vm.registry.sites.find? c.site = some s)
    (hslot : s.slotAt? e.typeId e.version position.toNat = some slot) :
    step vm e i st = .ok .next
      { st with stack := { st.stack with slots := below.push (heldAt c s slot) } } := by
  have hpop : Run.pop st = .ok (.closure object)
      { st with stack := { st.stack with slots := below } } := by
    rw [Run.pop_eq_ok, hslots]
    exact ⟨by simp; omega, by simp, by simp⟩
  rw [step, hoperands, hop]
  show getCaptured vm e position st = _
  rw [getCaptured_of_pop hpop hclosure hsite hslot]
  exact Run.bind_eq_ok.mpr ⟨(), _, Run.push_eq_ok.mpr ⟨hlimit, rfl⟩, rfl⟩

end LiveTypes.Machine
