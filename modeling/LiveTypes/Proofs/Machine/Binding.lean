import LiveTypes.Proofs.Machine.Bounded
import LiveTypes.Proofs.Machine.Twin

/-!
# Runs that were bound early or late

Code and its twin run to the same result, as long as there is room for both (`run_matched`): a call that
was bound early goes through a dispatcher, which passes its arguments on to the implementation and its
result back.
-/

namespace LiveTypes

namespace Ground

/-- Whether the frames of two runs are still open, over the same heap. -/
def Atop (σ : Renaming) (g g' : Ground) (s s' : MachineState) : Prop :=
  ∃ v v', s = g.state v ∧ s' = g'.state v' ∧ v'.heap = v.heap.rename σ

/-- Whether two calls have come back to their grounds. -/
def Back (σ : Renaming) (g g' : Ground) (s s' : MachineState) : Prop :=
  ∃ heap, s = g.calling [] heap ∧ s' = g'.calling [] (heap.rename σ)

/-- Whether two calls have left their grounds as they were. -/
def Kept (σ : Renaming) (g g' : Ground) (s s' : MachineState) : Prop :=
  ∃ values values' heap, s = g.calling values heap ∧ s' = g'.calling values' (heap.rename σ)

variable {σ : Renaming} {g g' : Ground} {v v' : View} {s s' : MachineState}

lemma Over.atop (h : g.Over σ g' s s') : g.Atop σ g' s s' := by
  obtain ⟨v, rfl, rfl⟩ := h
  exact ⟨v, v.rename σ, rfl, rfl, rfl⟩

lemma Kept.atop {rest rest' : List Value} (h : (g.under v rest).Kept σ (g'.under v' rest') s s') :
    g.Atop σ g' s s' := by
  obtain ⟨values, values', heap, rfl, rfl⟩ := h
  exact ⟨_, _, g.calling_under v rest values heap, g'.calling_under v' rest' values' _, rfl⟩

end Ground

abbrev Executable.Returns (e : Executable) : Prop := e.signature.returnsValue = true

namespace Executable.Stands

variable {σ : Renaming} {r r' : Registry} {target d : Executable}

lemma key_eq (h : target.Stands σ r r' d) : d.key = target.key := by
  cases h with
  | twin h => rw [h.same]
  | dispatcher h passes => rw [← passes.key_eq, h.same]

lemma argSlots_eq (h : target.Stands σ r r' d) : d.argSlots = target.argSlots := by
  cases h with
  | twin h => exact h.argSlots_eq
  | dispatcher h passes => rw [← passes.argSlots_eq, h.argSlots_eq]

lemma returns_eq (h : target.Stands σ r r' d) :
    d.signature.returnsValue = target.signature.returnsValue := by
  cases h with
  | twin h => rw [h.same]
  | dispatcher h passes => rw [← passes.returns_eq, h.same]

lemma body (h : target.Stands σ r r' d) : r.HasBody target := by
  cases h with
  | twin h => exact h.body
  | dispatcher h => exact h.body

/-- What stands for an implementation has room for its arguments. -/
lemma arguments_le (hr : r.SoundCode) (h : target.Stands σ r r' d) :
    d.argSlots ≤ d.locals.toNat := by
  have hslots := h.argSlots_eq
  cases h with
  | twin h =>
    rw [hslots, h.locals_eq]
    exact (hr target h.body).arguments_le
  | dispatcher h passes => exact Nat.le_of_eq passes.locals_eq.symm

end Executable.Stands

namespace Machine

open Run Bounded

variable {σ : Renaming} {vm vm' : Machine} {g g' : Ground} {v : View} {heap : Heap} {k : Nat}
  {e e' target target' d : Executable} {arguments : List Value} {res res' : RunResult} {p : Prop}

/-- Whether two bodies come to the same. -/
abbrev Bodies (σ : Renaming) (g g' : Ground) : RunResult → RunResult → Prop :=
  Tallies σ (g.Atop σ g') (g.Atop σ g') Eq

/-- Whether two calls come to the same, up to what they return if that is not asked for. -/
abbrev Calls (σ : Renaming) (g g' : Ground) (asked : Prop) : RunResult → RunResult → Prop :=
  Tallies σ (g.Back σ g') (g.Kept σ g') fun v v' => asked → v = v'

/-- Whether all code and its twins come to the same up to a bound. -/
def AllMatch (σ : Renaming) (vm vm' : Machine) (k : Nat) : Prop :=
  ∀ {e e' : Executable} {offset : Nat} {g g' : Ground} {v : View},
    e.Twin σ vm.registry vm'.registry e' → e.Starts offset → (g.state v).Sound vm.registry →
    v.locals = e.locals.toNat →
    Matched k (Bodies σ g g') (fun n => run vm n e offset (g.state v))
      fun n => run vm' n e' offset (g'.state (v.rename σ))

/-! ### Calls and their bodies -/

lemma call_of_enter_ok {s s₁ : MachineState} {argc : Nat} (h : enter vm target argc s = .ok () s₁)
    (n : Nat) : call vm n target argc s = (run vm n target 0 s₁).map finish := by
  rw [call, callBy, h]

lemma call_of_enter_error {s s₁ : MachineState} {argc : Nat} {cause : VmError}
    (h : enter vm target argc s = .error cause s₁) (n : Nat) :
    call vm n target argc s = some (.error cause s₁) := by
  rw [call, callBy, h]

/-- A call whose frame is opened runs its body in that frame. -/
lemma call_opened (h : enter vm target arguments.length (g.calling arguments heap) =
      .ok () (g.state (opened target arguments heap))) :
    (fun n => call vm n target arguments.length (g.calling arguments heap)) =
      fun n => (run vm n target 0 (g.state (opened target arguments heap))).map finish :=
  funext (call_of_enter_ok h)

/-- The state of a call whose frame can be opened is sound. -/
lemma sound_opened {r : Registry} (hs : (g.calling arguments heap).Sound r)
    (hfits : target.argSlots ≤ target.locals.toNat)
    (h : enter vm target arguments.length (g.calling arguments heap) =
      .ok () (g.state (opened target arguments heap))) :
    (g.state (opened target arguments heap)).Sound r := by
  rcases @enter_cases vm target _ r hs hfits arguments.length with
    ⟨s₁, hs₁, hsound, -⟩ | ⟨e, herror, -⟩
  · obtain ⟨-, rfl⟩ := EStateM.Result.ok.inj (h.symm.trans hs₁)
    exact hsound
  · rw [h] at herror
    cases herror

lemma finish_bodies (h : Bodies σ g g' res res') :
    Calls σ g g' p (finish res) (finish res') := by
  cases h with
  | ok hv hs =>
    obtain ⟨v, v', rfl, rfl, hheap⟩ := hs
    rw [finish_ok, finish_ok, hheap]
    exact .ok (fun _ => hv) ⟨v.heap, rfl, rfl⟩
  | error e hs =>
    obtain ⟨v, v', rfl, rfl, hheap⟩ := hs
    rw [finish_error, finish_error, hheap]
    exact .error e ⟨[], [], v.heap, rfl, rfl⟩
  | limit he hs =>
    obtain ⟨v, v', rfl, -, hheap⟩ := hs
    rw [finish_error]
    exact .limit he ⟨[], [], v.heap, rfl, rfl⟩ _
  | limit' he hs =>
    obtain ⟨v, v', -, rfl, hheap⟩ := hs
    rw [finish_error, hheap]
    exact .limit' he ⟨[], [], v.heap, rfl, rfl⟩ _

lemma finish_bodies_limit (h : ∀ res', Bodies σ g g' res res') (out' : RunResult) :
    Calls σ g g' p (finish res) out' := by
  obtain ⟨e, _, _, rfl, he, v, v', rfl, rfl, hheap⟩ := limit_of_forall h
  rw [finish_error]
  exact .limit he ⟨[], [], v.heap, rfl, rfl⟩ out'

lemma finish_bodies_limit' (h : ∀ res, Bodies σ g g' res res') (out : RunResult) :
    Calls σ g g' p out (finish res') := by
  obtain ⟨e, _, _, rfl, he, v, v', rfl, rfl, hheap⟩ := limit_of_forall' h
  rw [finish_error, hheap]
  exact .limit' he ⟨[], [], v.heap, rfl, rfl⟩ out

/-- Calls match that fail when they are entered, or match once their frames are opened. -/
lemma matched_of_opened (hg : g.Firm) (hg' : g'.Firm) (hfits : target.argSlots ≤ target.locals.toNat)
    (hfits' : d.argSlots ≤ d.locals.toNat) (hkey : d.key = target.key)
    (hslots : d.argSlots = target.argSlots)
    (h : enter vm target arguments.length (g.calling arguments heap) =
        .ok () (g.state (opened target arguments heap)) →
      enter vm' d arguments.length (g'.calling arguments (heap.rename σ)) =
        .ok () (g'.state (opened d arguments (heap.rename σ))) →
      arguments.length = d.argSlots → g'.below.length + d.locals.toNat ≤ g'.limit →
      Matched k (Calls σ g g' p)
        (fun n => call vm n target arguments.length (g.calling arguments heap))
        fun n => call vm' n d arguments.length (g'.calling arguments (heap.rename σ))) :
    Matched k (Calls σ g g' p)
      (fun n => call vm n target arguments.length (g.calling arguments heap))
      fun n => call vm' n d arguments.length (g'.calling arguments (heap.rename σ)) := by
  have hkept : g.Kept σ g' (g.calling arguments heap) (g'.calling arguments (heap.rename σ)) :=
    ⟨arguments, arguments, heap, rfl, rfl⟩
  have hmono {vm : Machine} {target : Executable} {s : MachineState} :=
    @mono_call vm target arguments.length s
  rcases @enter_calling vm target g arguments heap hg hfits with
    ⟨hcount, -, henter⟩ | ⟨e, he, henter⟩ | ⟨hcount, henter⟩
  · rcases @enter_calling vm' d g' arguments (heap.rename σ) hg' hfits' with
      ⟨hcount', hroom, henter'⟩ | ⟨e, he, henter'⟩ | ⟨hcount', -⟩
    · exact h henter henter' hcount' hroom
    · exact .of_free' hmono (call_of_enter_error henter' 0) (.limit' he hkept)
    · exact absurd (hcount.trans hslots.symm) hcount'
  · exact .of_free hmono (call_of_enter_error henter 0) (.limit he hkept)
  · rcases @enter_calling vm' d g' arguments (heap.rename σ) hg' hfits' with
      ⟨hcount', -⟩ | ⟨e, he, henter'⟩ | ⟨-, henter'⟩
    · exact absurd (hcount'.trans hslots) hcount
    · exact .of_free' hmono (call_of_enter_error henter' 0) (.limit' he hkept)
    · refine .of_mono hmono hmono (call_of_enter_error henter 0) (call_of_enter_error henter' 0) ?_
      rw [hslots, hkey]
      exact .error _ hkept

/-! ### Dispatchers -/

section Dispatchers

variable (hpasses : d.PassesTo vm.registry target) (hcount : arguments.length = d.argSlots)
include hpasses hcount

/-- With room for its arguments, a dispatcher calls the implementation over them. -/
lemma run_passes (hroom : g.below.length + 2 * arguments.length ≤ g.limit) (n : Nat) :
    run vm (arguments.length + 1 + n) d 0 (g.state (loaded arguments heap 0)) =
      (call vm n target arguments.length
        ((g.under (loaded arguments heap 0) arguments).calling arguments heap)).bind
        (resume vm d (3 * arguments.length + 7) target n) := by
  obtain ⟨t, ht, htarget⟩ := hpasses.found
  obtain ⟨i, hi, hoffset, hnext, -, hcalls⟩ := exists_lookup hpasses.toIsDispatcher hcount ht
  have hstate : g.state (loaded arguments heap arguments.length) =
      (g.under (loaded arguments heap 0) arguments).calling arguments heap := by
    rw [g.calling_under, loaded, List.take_length]
    rfl
  have hrun (s : MachineState) : run vm (n + 1) d (3 * arguments.length) s =
      (call vm n target arguments.length s).bind (resume vm d (3 * arguments.length + 7) target n) := by
    rw [← hoffset, run_of_has hi, hcalls target htarget, hnext, hoffset]
    rfl
  rw [Nat.add_assoc, run_loads hpasses.toIsDispatcher hcount (Nat.le_refl _) (by omega),
    Nat.add_comm 1 n, hstate, hrun]

/-- It comes to nothing in fewer steps. -/
lemma run_passes_of_lt (hroom : g.below.length + 2 * arguments.length ≤ g.limit) {n : Nat}
    (hn : n < arguments.length + 1) : run vm n d 0 (g.state (loaded arguments heap 0)) = none := by
  have hnone : run vm arguments.length d 0 (g.state (loaded arguments heap 0)) = none :=
    @run_loads vm d heap arguments 0 _ g hpasses.toIsDispatcher hcount (Nat.le_refl _) (by omega)
  cases hrun : run vm n d 0 (g.state (loaded arguments heap 0)) with
  | none => rfl
  | some res =>
    rw [run_mono (Nat.le_of_lt_succ hn) hrun] at hnone
    cases hnone

/-- With room for what the implementation returned, a dispatcher returns it. -/
lemma resume_passes {s : MachineState} (hfloor : s.stack.floor ≤ s.stack.slots.size)
    (hroom : target.signature.returnsValue = true → s.stack.slots.size < s.stack.limit) (w : Value)
    (n : Nat) :
    resume vm d (3 * arguments.length + 7) target (n + 1) (.ok w s) =
      some (.ok (if target.signature.returnsValue then w else .null) s) := by
  obtain ⟨s₁, hpushed, hrun⟩ := @run_return vm d target s arguments n hpasses.toIsDispatcher hcount w
    hpasses.returns_eq hfloor hroom
  simp only [resume, hpushed, hrun]

end Dispatchers

/-- When a dispatcher fails, its frame is closed. -/
lemma resume_error {cause : VmError} {rest values : List Value} (next n : Nat) :
    (resume vm d next target n (.error cause ((g.under v rest).calling values heap))).map finish =
      some (.error cause (g.calling [] heap)) := by
  rw [g.calling_under, resume, Option.map_some, finish_error]

/-- What a dispatcher makes of what the implementation returned. -/
lemma resume_ok (hpasses : d.PassesTo vm.registry target) (hcount : arguments.length = d.argSlots)
    (w : Value) (heap₀ : Heap) (n : Nat) :
    (∃ e, e.IsLimit ∧ (resume vm d (3 * arguments.length + 7) target (n + 1)
        (.ok w ((g.under (loaded arguments heap₀ 0) arguments).calling [] heap))).map finish =
          some (.error e (g.calling [] heap))) ∨
      (resume vm d (3 * arguments.length + 7) target (n + 1)
        (.ok w ((g.under (loaded arguments heap₀ 0) arguments).calling [] heap))).map finish =
          some (.ok (if target.signature.returnsValue then w else .null) (g.calling [] heap)) := by
  rw [g.calling_under]
  by_cases hfull : target.signature.returnsValue = true ∧
      g.limit ≤ g.below.length + arguments.length
  · refine .inl ⟨.stackOverflow, trivial, ?_⟩
    rw [resume, pushResult, if_pos hfull.1, push_state_of_le (by simpa using hfull.2),
      Option.map_some, finish_error]
  · refine .inr ?_
    rw [resume_passes hpasses hcount, Option.map_some, finish_ok]
    · simp [loaded]
    · intro hreturns
      simp only [Ground.stack_state, Ground.size_stack, Ground.limit_stack, List.append_nil]
      exact Nat.not_le.mp fun hle => hfull ⟨hreturns, hle⟩

/-- What the implementation gives, and what the dispatcher makes of it. -/
lemma matched_resume (hpasses : d.PassesTo vm'.registry target')
    (hcount : arguments.length = d.argSlots)
    (hreturns : target'.signature.returnsValue = target.signature.returnsValue)
    (h : Calls σ g (g'.under (loaded arguments heap 0) arguments) target.Returns res res') :
    Matched k (Calls σ g g' target.Returns) (fun _ => some res)
      fun n => (resume vm' d (3 * arguments.length + 7) target' n res').map finish := by
  have hmono : Mono fun n =>
      (resume vm' d (3 * arguments.length + 7) target' n res').map finish :=
    (mono_resume _ _ res').map finish
  cases h with
  | @ok w w' _ _ hw hs =>
    obtain ⟨heap₁, rfl, rfl⟩ := hs
    rcases @resume_ok vm' g' (heap₁.rename σ) target' d arguments hpasses hcount w' heap 0 with
      ⟨e, he, hres'⟩ | hres'
    · exact .of_free' hmono hres' (.limit' he ⟨[], [], heap₁, rfl, rfl⟩)
    · refine .of_mono (mono_const _) hmono (n := 0) rfl hres' (.ok (fun hvalue => ?_) ⟨heap₁, rfl, rfl⟩)
      rw [if_pos (hreturns.trans hvalue), hw hvalue]
  | error e hs =>
    obtain ⟨values, values', heap₁, rfl, rfl⟩ := hs
    exact .of_mono (mono_const _) hmono (n := 0) rfl (resume_error _ 0)
      (.error e ⟨values, [], heap₁, rfl, rfl⟩)
  | limit he hs =>
    obtain ⟨values, values', heap₁, rfl, rfl⟩ := hs
    exact .of_free (mono_const _) (n := 0) rfl (.limit he ⟨values, values', heap₁, rfl, rfl⟩)
  | limit' he hs =>
    obtain ⟨values, values', heap₁, rfl, rfl⟩ := hs
    exact .of_free' hmono (resume_error _ 0) (.limit' he ⟨[], [], heap₁, rfl, rfl⟩)

section Calls

variable (hcode : vm.registry.SoundCode) (ih : AllMatch σ vm vm' k) (hg : g.Firm) (hg' : g'.Firm)
  (hs : (g.calling arguments heap).Sound vm.registry)
include hcode ih hg hg' hs

/-- A call of an implementation and one of its twin come to the same. -/
lemma matched_twin (ht : target.Twin σ vm.registry vm'.registry target') :
    Matched k (Calls σ g g' p)
      (fun n => call vm n target arguments.length (g.calling arguments heap))
      fun n => call vm' n target' arguments.length (g'.calling arguments (heap.rename σ)) := by
  have hstands : target.Stands σ vm.registry vm'.registry target' := .twin ht
  have hbody := hcode target ht.body
  refine matched_of_opened hg hg' hbody.arguments_le (hstands.arguments_le hcode) hstands.key_eq
    hstands.argSlots_eq fun henter henter' _ _ => ?_
  have hview : opened target' arguments (heap.rename σ) =
      (opened target arguments heap).rename σ := by
    rw [opened, ht.locals_eq]
    rfl
  rw [call_opened henter, call_opened henter', hview]
  exact (ih ht hbody.starts_zero (sound_opened hs hbody.arguments_le henter) rfl).map
    (fun _ => finish_bodies_limit) (fun _ => finish_bodies_limit') fun _ _ => finish_bodies

/-- A call of an implementation comes to what a call of the dispatcher of its twin comes to. -/
lemma matched_dispatcher (ht : target.Twin σ vm.registry vm'.registry target')
    (hpasses : d.PassesTo vm'.registry target') :
    Matched k (Calls σ g g' target.Returns)
      (fun n => call vm n target arguments.length (g.calling arguments heap))
      fun n => call vm' n d arguments.length (g'.calling arguments (heap.rename σ)) := by
  have hstands : target.Stands σ vm.registry vm'.registry d := .dispatcher ht hpasses
  have hbody := hcode target ht.body
  refine matched_of_opened hg hg' hbody.arguments_le (hstands.arguments_le hcode) hstands.key_eq
    hstands.argSlots_eq fun henter henter' hcount hroom => ?_
  have hlocals : d.locals.toNat = arguments.length := hpasses.locals_eq.trans hcount.symm
  have hview : opened d arguments (heap.rename σ) = loaded arguments (heap.rename σ) 0 := by
    rw [opened, hlocals, Nat.sub_self, List.replicate_zero, loaded, List.take_zero]
  rw [call_opened henter', hview]
  rw [hlocals] at hroom
  rcases Nat.lt_or_ge g'.limit (g'.below.length + 2 * arguments.length) with hfull | hroom'
  · obtain ⟨j, hrun⟩ := @run_loads_overflow vm' d (heap.rename σ) arguments 0 g'
      hpasses.toIsDispatcher hcount hroom hfull
    refine .of_free' (Mono.map (fun _ _ _ => run_mono) finish) (congrArg (Option.map finish) hrun) ?_
    intro res
    rw [finish_error]
    exact .limit' (e := .stackOverflow) trivial (s := g.calling [] heap) ⟨[], [], heap, rfl, rfl⟩ res
  -- The dispatcher loads its arguments and calls, and only from there on do the two sides agree.
  have hstart (n : Nat) :
      (run vm' (arguments.length + 1 + n) d 0 (g'.state (loaded arguments (heap.rename σ) 0))).map
          finish =
        (call vm' n target' arguments.length ((g'.under (loaded arguments (heap.rename σ) 0)
          arguments).calling arguments (heap.rename σ))).bind
          fun res => (resume vm' d (3 * arguments.length + 7) target' n res).map finish := by
    rw [run_passes hpasses hcount hroom', Option.map_bind]
    rfl
  have hnone (n : Nat) (hn : n < arguments.length + 1) :
      (run vm' n d 0 (g'.state (loaded arguments (heap.rename σ) 0))).map finish = none := by
    rw [run_passes_of_lt hpasses hcount hroom' hn]
    rfl
  have hcall : Matched k
      (Calls σ g (g'.under (loaded arguments (heap.rename σ) 0) arguments) target.Returns)
      (fun n => call vm n target arguments.length (g.calling arguments heap))
      fun n => call vm' n target' arguments.length ((g'.under (loaded arguments (heap.rename σ) 0)
          arguments).calling arguments (heap.rename σ)) :=
    matched_twin hcode ih hg (g'.firm_under _ (Nat.le_refl _)) hs ht
  have hbind : Matched k (Calls σ g g' target.Returns)
      (fun n => (call vm n target arguments.length (g.calling arguments heap)).bind some)
      fun n => (call vm' n target' arguments.length ((g'.under (loaded arguments (heap.rename σ) 0)
        arguments).calling arguments (heap.rename σ))).bind
        fun res => (resume vm' d (3 * arguments.length + 7) target' n res).map finish := by
    refine hcall.bind (mono_call _ _ _) (mono_call _ _ _) (fun _ _ _ _ _ h => h)
      (fun res => (mono_resume _ _ res).map finish) ?_ ?_ fun n res res' _ =>
        matched_resume hpasses hcount (hpasses.returns_eq.trans hstands.returns_eq)
    · rintro n res _ hfree ⟨⟩ out'
      obtain ⟨e, _, _, rfl, he, values, values', heap₁, rfl, rfl⟩ := limit_of_forall hfree
      exact .limit he ⟨values, values', heap₁, rfl, rfl⟩ out'
    · intro n res' out' hfree hout out
      obtain ⟨e, _, _, rfl, he, values, values', heap₁, rfl, rfl⟩ := limit_of_forall' hfree
      rw [← Option.some.inj ((resume_error _ n).symm.trans hout)]
      exact .limit' he ⟨[], [], heap₁, rfl, rfl⟩ out
  refine Matched.shift (a := 0) (fun n => ?_) (fun n hn => absurd hn (Nat.not_lt_zero n)) hstart
    hnone hbind
  rw [Nat.zero_add, Option.bind_fun_some]

lemma matched_stands (h : target.Stands σ vm.registry vm'.registry d) :
    Matched k (Calls σ g g' target.Returns)
      (fun n => call vm n target arguments.length (g.calling arguments heap))
      fun n => call vm' n d arguments.length (g'.calling arguments (heap.rename σ)) := by
  cases h with
  | twin h => exact matched_twin hcode ih hg hg' hs h
  | dispatcher h passes => exact matched_dispatcher hcode ih hg hg' hs h passes

end Calls

/-- Calls that pass more than there is in a frame come to the same. -/
lemma matched_short (hcode : vm.registry.SoundCode)
    (h : target.Stands σ vm.registry vm'.registry d) (hlocals : v.locals ≤ v.slots.length)
    {argc : Nat} (hshort : v.slots.length < v.locals + argc) :
    Matched k (Calls σ (g.under v v.slots) (g'.under v v.slots) p)
      (fun n => call vm n target argc (g.state v))
      fun n => call vm' n d argc (g'.state (v.rename σ)) := by
  have hmono {vm : Machine} {target : Executable} {s : MachineState} := @mono_call vm target argc s
  have hstate (g : Ground) (h : Heap) :
      g.state { v with heap := h } = (g.under v v.slots).calling [] h := by
    rw [g.calling_under, List.append_nil]
  have hkept : (g.under v v.slots).Kept σ (g'.under v v.slots) (g.state v)
      (g'.state (v.rename σ)) :=
    ⟨[], [], v.heap, hstate g v.heap, hstate g' (v.heap.rename σ)⟩
  rcases @enter_of_short vm target g v argc (hcode target h.body).arguments_le hlocals hshort with
    ⟨e, he, henter⟩ | henter
  · exact .of_free hmono (call_of_enter_error henter 0) (.limit he hkept)
  rcases @enter_of_short vm' d g' (v.rename σ) argc (h.arguments_le hcode) hlocals hshort with
    ⟨e, he, henter'⟩ | henter'
  · exact .of_free' hmono (call_of_enter_error henter' 0) (.limit' he hkept)
  · refine .of_mono hmono hmono (call_of_enter_error henter 0) (call_of_enter_error henter' 0) ?_
    rw [h.argSlots_eq, h.key_eq]
    split
    · exact .error .stackUnderflow hkept
    · exact .error _ hkept

/-- Calls that are made from a frame come to the same, over what they do not pass. -/
lemma matched_call (hcode : vm.registry.SoundCode) (ih : AllMatch σ vm vm' k)
    (hs : (g.state v).Sound vm.registry) (h : target.Stands σ vm.registry vm'.registry d)
    (argc : Nat) :
    ∃ rest, Matched k (Calls σ (g.under v rest) (g'.under v rest) target.Returns)
      (fun n => call vm n target argc (g.state v))
      fun n => call vm' n d argc (g'.state (v.rename σ)) := by
  have hlocals : v.locals ≤ v.slots.length := by
    have hfloor := hs.floor_le
    simpa using hfloor
  rcases Nat.lt_or_ge v.slots.length (v.locals + argc) with hshort | hle
  · exact ⟨v.slots, matched_short hcode h hlocals hshort⟩
  obtain ⟨rest, arguments, hslots, rfl⟩ :
      ∃ rest arguments, v.slots = rest ++ arguments ∧ arguments.length = argc :=
    ⟨_, v.slots.drop (v.slots.length - argc), (List.take_append_drop _ _).symm, by simp; omega⟩
  have hrest : v.locals ≤ rest.length := by
    rw [hslots, List.length_append] at hle
    omega
  have hstate (g : Ground) (h : Heap) :
      g.state { v with heap := h } = (g.under v rest).calling arguments h := by
    rw [g.calling_under, ← hslots]
  have hcalling : g.state v = (g.under v rest).calling arguments v.heap := hstate g v.heap
  have hcalling' : g'.state (v.rename σ) =
      (g'.under v rest).calling arguments (v.heap.rename σ) := hstate g' _
  rw [hcalling, hcalling']
  rw [hcalling] at hs
  exact ⟨rest, matched_stands hcode ih (g.firm_under v hrest) (g'.firm_under v hrest) hs h⟩

/-! ### Runs -/

/-- Where an instruction of a sound body starts, it is sound and lets control go on in the body. -/
lemma exists_of_starts {r : Registry} {offset : Nat} (he : e.Sound r) (h : e.Starts offset) :
    ∃ i, e.Has i ∧ i.offset = offset ∧ i.Sound r e ∧
      (i.opcode.isTerminator = false → e.Starts i.next) := by
  obtain ⟨i, hi, hsound, hnext⟩ := he.each offset h
  obtain ⟨l, hdecoded, j, hj, rfl⟩ := h
  have hfetch := fetch_of_has ⟨l, hdecoded, hj⟩
  simp only [fetch, hi] at hfetch
  obtain rfl := Except.ok.inj hfetch
  exact ⟨i, ⟨l, hdecoded, hj⟩, rfl, hsound, hnext⟩

lemma inFrameOf_state : InFrameOf e (g.state v) ↔ v.locals = e.locals.toNat := by
  constructor
  · rintro ⟨f, rest, hframes, hlocals⟩
    obtain ⟨rfl, -⟩ := List.cons.inj hframes
    exact hlocals
  · exact fun hlocals => ⟨_, _, rfl, hlocals⟩

section Runs

variable (hcode : vm.registry.SoundCode) (ih : AllMatch σ vm vm' k)
  (he : e.Twin σ vm.registry vm'.registry e')
include ih he

/-- What a call gives is gone on with in the same way. -/
lemma matched_after {rest : List Value} {next : Nat}
    (hreturns : d.signature.returnsValue = target.signature.returnsValue)
    (hnext : e.Starts next) (hlocals : v.locals = e.locals.toNat)
    (hsettles : Settles vm.registry Given (g.state v) res)
    (h : Calls σ (g.under v rest) (g'.under v rest) target.Returns res res') :
    Matched k (Bodies σ g g') (fun n => resume vm e next target n res)
      fun n => resume vm' e' next d n res' := by
  cases h with
  | error e hs => exact .const (.error e hs.atop)
  | limit he hs => exact .of_free (mono_const _) (n := 0) rfl (.limit he hs.atop)
  | limit' he hs => exact .of_free' (mono_const _) (n := 0) rfl (.limit' he hs.atop)
  | @ok w w' _ _ hw hs =>
    obtain ⟨heap, rfl, rfl⟩ := hs
    obtain ⟨hsound, hgrows, hholds⟩ := hsettles
    rw [g.calling_under] at hsound hgrows hholds ⊢
    rw [g'.calling_under]
    have hagree : Agree σ g g' Eq (pushResult target w) (pushResult d w')
        { v with slots := rest ++ [], heap } := by
      unfold pushResult
      rw [hreturns]
      refine .ite (fun hvalue => ?_) fun _ => agree_pure rfl
      rw [hw hvalue]
      exact agree_push w'
    have hkeeps := @keeps_pushResult target _ _ _ hsound hholds
    unfold Agree at hagree
    unfold Keeps at hkeeps
    generalize hpushed : pushResult target w _ = pushed at hagree hkeeps
    generalize hpushed' : pushResult d w' _ = pushed' at hagree
    change pushResult d w' (g'.state { v with slots := rest ++ [], heap := heap.rename σ }) = _
      at hpushed'
    simp only [resume, hpushed, hpushed']
    cases hagree with
    | error e hs => exact .const (.error e hs.atop)
    | limit he hs => exact .of_free (mono_const _) (n := 0) rfl (.limit he hs.atop)
    | limit' he hs => exact .of_free' (mono_const _) (n := 0) rfl (.limit' he hs.atop)
    | ok _ hs =>
      obtain ⟨v₁, rfl, rfl⟩ := hs
      have hframe := ((inFrameOf_state.mpr hlocals).grows hgrows).grows hkeeps.2.1
      exact ih he hnext hkeeps.1 (inFrameOf_state.mp hframe)

include hcode

/-- Where control goes after an instruction and its twin, it goes on in the same way. -/
lemma matched_follow {i : Instruction} {flow : EStateM.Result VmError MachineState Flow}
    {flow' : EStateM.Result VmError MachineState Flow} (hlocals : v.locals = e.locals.toNat)
    (hnext : i.opcode.isTerminator = false → e.Starts i.next)
    (hsettles : Settles vm.registry (Flow.Lands vm.registry e i) (g.state v) flow)
    (h : Tallies σ (g.Over σ g') (g.Over σ g') (Flow.Twin σ vm.registry vm'.registry) flow flow') :
    Matched k (Bodies σ g g') (fun n => follow vm e i.next n flow)
      fun n => follow vm' e' i.next n flow' := by
  cases h with
  | error e hs => exact .const (.error e hs.atop)
  | limit he hs => exact .of_free (mono_const _) (n := 0) rfl (.limit he hs.atop)
  | limit' he hs => exact .of_free' (mono_const _) (n := 0) rfl (.limit' he hs.atop)
  | ok hflow hs =>
    obtain ⟨v₁, rfl, rfl⟩ := hs
    obtain ⟨hsound, hgrows, hlands⟩ := hsettles
    have hlocals₁ : v₁.locals = e.locals.toNat :=
      inFrameOf_state.mp ((inFrameOf_state.mpr hlocals).grows hgrows)
    cases hflow with
    | next => exact ih he (hnext hlands) hsound hlocals₁
    | jump target => exact ih he hlands hsound hlocals₁
    | ret w => exact .const (.ok rfl ⟨v₁, _, rfl, rfl, rfl⟩)
    | call hstands argc =>
      obtain ⟨rest, hcall⟩ := @matched_call _ _ _ g g' v₁ _ _ _ hcode ih hsound hstands argc
      refine hcall.bind (mono_call _ _ _) (mono_call _ _ _) (mono_resume _ _) (mono_resume _ _) ?_ ?_ ?_
      · rintro n res out hfree hout out'
        obtain ⟨e, _, _, rfl, he, hs⟩ := limit_of_forall hfree
        obtain rfl := Option.some.inj hout
        exact .limit he hs.atop out'
      · rintro n res' out' hfree hout' out
        obtain ⟨e, _, _, rfl, he, hs⟩ := limit_of_forall' hfree
        obtain rfl := Option.some.inj hout'
        exact .limit' he hs.atop out
      · intro n res res' hres htallies
        obtain ⟨hsettles, -⟩ := call_settles hcode (survives_true vm) hlands.1 hsound trivial hres
        exact matched_after ih he hstands.returns_eq (hnext hlands.2) hlocals₁ hsettles htallies

end Runs

/-- Code and its twins come to the same, however long they run. -/
theorem run_matched (h : vm.registry.Twin σ vm'.registry) (hr : vm.registry.WellFormed)
    (hcode : vm.registry.SoundCode) (k : Nat) : AllMatch σ vm vm' k := by
  -- One step of each body, then the rest of both, or the calls that the step comes to, with `k`.
  induction k with
  | zero =>
    intro e e' offset g g' v _ _ _ _
    exact .zero rfl rfl
  | succ k ih =>
    intro e e' offset g g' v he hstarts hs hlocals
    obtain ⟨i, hi, rfl, hsound, hnext⟩ := exists_of_starts (hcode e he.body) hstarts
    obtain ⟨i', hi', htwin⟩ := he.instruction i hi
    have hsettles := step_keeps he.body hsound hs (inFrameOf_state.mpr hlocals).hasLocal
    have hagree : Agree σ g g' _ _ _ v := step_agree h he hr hs htwin
    have hstep := matched_follow hcode ih he hlocals hnext hsettles hagree
    refine hstep.shift (a := 1) (b := 1) (fun n => ?_) ?_ (fun n => ?_) ?_
    · rw [Nat.add_comm, run_of_has hi]
    · intro n hn
      rw [Nat.lt_one_iff.mp hn]
      rfl
    · rw [Nat.add_comm, ← htwin.offset_eq, run_of_has hi', htwin.next_eq]
    · intro n hn
      rw [Nat.lt_one_iff.mp hn]
      rfl

/-! ### Invocations -/

/-- Whether two states have the same heap, up to the identities of types. -/
def Housed (σ : Renaming) (s s' : MachineState) : Prop := s'.heap = s.heap.rename σ

lemma agree_findDispatcher (h : vm.registry.Twin σ vm'.registry) (typeName key : String)
    (isStatic : Bool) : Agree σ g g' (Executable.Twin σ vm.registry vm'.registry)
      (findDispatcher vm typeName key isStatic) (findDispatcher vm' typeName key isStatic) v := by
  refine (agree_resolve h typeName).bind fun t t' v ⟨_, _, ht⟩ => ?_
  refine (agree_dispatcher ht key).bind fun target target' v htarget => ?_
  rw [expectKind_of_twin htarget]
  exact (agree_expectKind isStatic).after fun _ _ => agree_pure htarget

lemma stateless_expectKind (target : Executable) (isStatic : Bool) :
    (expectKind target isStatic).Stateless := by
  unfold expectKind
  split
  · exact stateless_pure ()
  · exact stateless_throw _

lemma stateless_findDispatcher (vm : Machine) (typeName key : String) (isStatic : Bool) :
    (findDispatcher vm typeName key isStatic).Stateless :=
  (stateless_require _ _).bind fun _ => (stateless_require _ _).bind fun target =>
    (stateless_expectKind target isStatic).bind fun _ => stateless_pure target

lemma stateless_closureTarget (vm : Machine) (c : Closure) (key : String) :
    (closureTarget vm c key).Stateless :=
  (stateless_require _ _).bind fun _ => (stateless_require _ _).bind fun _ =>
    (stateless_lift _).bind fun target =>
      (stateless_expectKind target false).bind fun _ => stateless_pure target

section Invocations

variable {find find' : Run Executable} {receiver : Option Value}
  (h : vm.registry.Twin σ vm'.registry) (hr : vm.registry.WellFormed)
  (hcode : vm.registry.SoundCode) (hh : heap.Sound vm.registry)
  (hvalues : ∀ w ∈ passed receiver arguments, heap.Holds w)
include h hr hcode hh hvalues

/-- Invocations of code and its twin come to the same. -/
lemma matched_invoke_twin (ht : target.Twin σ vm.registry vm'.registry target')
    (hfind : find (startState heap) = .ok target (startState heap))
    (hfind' : find' (startState (heap.rename σ)) = .ok target' (startState (heap.rename σ))) :
    Matched k (Tallies σ (Housed σ) (Housed σ) Eq)
      (fun n => invoke vm n find receiver arguments (startState heap))
      fun n => invoke vm' n find' receiver arguments (startState (heap.rename σ)) := by
  have hmono := @mono_invoke vm find receiver arguments (startState heap)
  have hmono' := @mono_invoke vm' find' receiver arguments (startState (heap.rename σ))
  have hslots := ht.argSlots_eq
  by_cases hcount : (passed receiver arguments).length = target.argSlots
  swap
  · refine .of_mono hmono hmono' (invoke_of_prepare_error (n := 0) hfind (prepare_of_ne hcount))
      (invoke_of_prepare_error (n := 0) hfind' (prepare_of_ne (hslots ▸ hcount))) ?_
    rw [ht.same]
    exact .error _ rfl
  rcases Nat.lt_or_ge Stack.defaultLimit (passed receiver arguments).length with hfull | hsize
  · obtain ⟨s₁, hs₁⟩ := @pushAll_of_lt (startState heap) (passed receiver arguments)
      (by simpa [startState, Stack.empty] using hfull) (Nat.zero_le _)
    have hhoused : Housed σ s₁ (startState (s₁.heap.rename σ)) := rfl
    exact .of_free hmono (invoke_of_prepare_error (n := 0) hfind
      ((prepare_of_eq hcount).trans (bind_of_error hs₁))) (.limit (e := .stackOverflow) trivial hhoused)
  have hstart (vm : Machine) (find : Run Executable) (target : Executable) (heap : Heap)
      (hfind : find (startState heap) = .ok target (startState heap))
      (hcount : (passed receiver arguments).length = target.argSlots) :
      (fun n => invoke vm n find receiver arguments (startState heap)) =
        fun n => call vm n target (passed receiver arguments).length
          (hostGround.calling (passed receiver arguments) heap) :=
    funext fun n => invoke_of_le hfind hcount hsize
  rw [hstart vm find target heap hfind hcount,
    hstart vm' find' target' _ hfind' (hcount.trans hslots.symm)]
  have hs : (hostGround.calling (passed receiver arguments) heap).Sound vm.registry :=
    ⟨hh, fun w hw => hvalues w (List.mem_toArray.mp hw), Nat.zero_le _⟩
  have hmatched : Matched k (Calls σ hostGround hostGround True) _ _ :=
    matched_twin hcode (run_matched h hr hcode k) (Nat.zero_le 0) (Nat.zero_le 0) hs ht
  refine hmatched.imp fun _ _ htallies => htallies.imp ?_ ?_ fun _ _ hw => hw trivial
  · rintro _ _ ⟨heap, rfl, rfl⟩
    rfl
  · rintro _ _ ⟨values, values', heap, rfl, rfl⟩
    rfl

/-- Invocations come to the same when what they call is looked up in the same way. -/
theorem matched_invoke
    (hfind : ∀ g g' v, Agree σ g g' (Executable.Twin σ vm.registry vm'.registry) find find' v)
    (hstateless : find.Stateless) (hstateless' : find'.Stateless) :
    Matched k (Tallies σ (Housed σ) (Housed σ) Eq)
      (fun n => invoke vm n find receiver arguments (startState heap))
      fun n => invoke vm' n find' receiver arguments (startState (heap.rename σ)) := by
  have hmono := @mono_invoke vm find receiver arguments (startState heap)
  have hmono' := @mono_invoke vm' find' receiver arguments (startState (heap.rename σ))
  have hstart : startState heap = startState heap ∧
      startState (heap.rename σ) = startState (heap.rename σ) := ⟨rfl, rfl⟩
  have htallies := (hfind hostGround hostGround (loaded [] heap 0)).tallies hstateless hstateless'
    (P := fun s s' => s = startState heap ∧ s' = startState (heap.rename σ)) hstart
  generalize hrun : find (startState heap) = res at htallies
  generalize hrun' : find' (startState (heap.rename σ)) = res' at htallies
  cases htallies with
  | ok ht hs =>
    obtain ⟨rfl, rfl⟩ := hs
    exact matched_invoke_twin h hr hcode hh hvalues ht hrun hrun'
  | error e hs =>
    obtain ⟨rfl, rfl⟩ := hs
    exact .of_mono hmono hmono' (invoke_of_find_error (n := 0) hrun)
      (invoke_of_find_error (n := 0) hrun') (.error e rfl)
  | limit he hs =>
    obtain ⟨rfl, rfl⟩ := hs
    have hhoused : Housed σ (startState heap) (startState (heap.rename σ)) := rfl
    exact .of_free hmono (invoke_of_find_error (n := 0) hrun) (.limit he hhoused)
  | limit' he hs =>
    obtain ⟨rfl, rfl⟩ := hs
    have hhoused : Housed σ (startState heap) (startState (heap.rename σ)) := rfl
    exact .of_free' hmono' (invoke_of_find_error (n := 0) hrun') (.limit' he hhoused)

end Invocations

end Machine

end LiveTypes
