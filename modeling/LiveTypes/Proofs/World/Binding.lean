import LiveTypes.Proofs.Machine.Binding
import LiveTypes.Proofs.Registry.Binding
import LiveTypes.Proofs.World.Link

/-!
# Types that were bound early or late

A host registers a type before or after one that it is nested in, and then makes objects, calls into
their code and touches their fields. The answers that it gets do not depend on the order, up to the
identities of types, as long as there is room for every call in both (`Reachable.answers_orders`).
-/

namespace LiveTypes

variable {σ : Renaming} {vm vm' : Machine} {heap heap₁ heap₂ : Heap}

/-! ### Uses of objects -/

/-- What a host does with objects. -/
inductive Use where
  | make (typeName : String)
  | static (typeName key : String) (arguments : List Value)
  | method (receiver : ObjectId) (typeName key : String) (arguments : List Value)
  | closure (object : ObjectId) (key : String) (arguments : List Value)
  | read (object : ObjectId) (typeName name : String)
  | write (object : ObjectId) (typeName name : String) (v : Value)
  | release (roots : List Value)

inductive Answer where
  | value (o : Except VmError Value)
  | field (v : Option Value)
  | written (done : Bool)
  | released

namespace Answer

/-- Whether there was no room for what was asked for. -/
def IsLimit : Answer → Prop
  | .value (.error e) => e.IsLimit
  | _ => False

def rename (σ : Renaming) : Answer → Answer
  | .value o => .value (o.mapError (VmError.rename σ))
  | answer => answer

end Answer

namespace Use

/-- Whether a use is one of objects that are there. -/
def Belongs (h : Heap) : Use → Prop
  | .make _ | .release _ => True
  | .static _ _ arguments => ∀ v ∈ arguments, h.Holds v
  | .method receiver typeName _ arguments =>
    h.Holds (.object receiver typeName) ∧ ∀ v ∈ arguments, h.Holds v
  | .closure object _ arguments => h.Holds (.closure object) ∧ ∀ v ∈ arguments, h.Holds v
  | .read object typeName _ => h.Holds (.object object typeName)
  | .write object typeName _ v => h.Holds (.object object typeName) ∧ h.Holds v

/-- What a call gives as an answer. -/
def answered (o : Except VmError Value × Heap) : Answer × Heap := (.value o.1, o.2)

/-- The answer to a use and the heap then, unless a call does not end in the given number of nested
steps. -/
def run (vm : Machine) (fuel : Nat) (h : Heap) : Use → Option (Answer × Heap)
  | .make typeName =>
    match vm.makeInstance typeName h with
    | .ok (v, h) => some (.value (.ok v), h)
    | .error e => some (.value (.error e), h)
  | .static typeName key arguments =>
    ((Invocation.static typeName key arguments).run vm fuel h).map answered
  | .method receiver typeName key arguments =>
    ((Invocation.method receiver typeName key arguments).run vm fuel h).map answered
  | .closure object key arguments =>
    (h.closure? object).bind fun c =>
      ((Invocation.closure object c key arguments).run vm fuel h).map answered
  | .read object typeName name =>
    match (vm.registry.find? typeName).bind (h.readField · object name) with
    | some (v, h) => some (.field (some v), h)
    | none => some (.field none, h)
  | .write object typeName name v =>
    match (vm.registry.find? typeName).bind (h.writeField · object name v) with
    | some h => some (.written true, h)
    | none => some (.written false, h)
  | .release roots => some (.released, h.release roots)

end Use

/-- The answers to uses, one after another, and the heap in the end. -/
inductive Machine.Performs (vm : Machine) : Heap → List Use → List Answer → Heap → Prop
  | nil (h : Heap) : Performs vm h [] [] h
  | cons {h h₁ h₂ : Heap} {use : Use} {uses : List Use} {answer : Answer} {answers : List Answer}
      {fuel : Nat} (belongs : use.Belongs h) (ok : use.run vm fuel h = some (answer, h₁))
      (rest : Performs vm h₁ uses answers h₂) :
      Performs vm h (use :: uses) (answer :: answers) h₂

/-- Whether there is no room for some of the uses. -/
def Machine.RunsOut (vm : Machine) (h : Heap) (uses : List Use) : Prop :=
  ∃ before after answers h₁, uses = before ++ after ∧ vm.Performs h before answers h₁ ∧
    ∃ answer ∈ answers, answer.IsLimit

/-- Whether uses come to the same on two machines, up to the identities of types: either they do not
end on either of them, or they do with the same answers. -/
structure Machine.Answers (σ : Renaming) (vm vm' : Machine) (h h' : Heap) (uses : List Use) :
    Prop where
  ends : (∃ answers h₁, vm.Performs h uses answers h₁) ↔
    ∃ answers' h₁', vm'.Performs h' uses answers' h₁'
  same : ∀ answers h₁ answers' h₁', vm.Performs h uses answers h₁ →
    vm'.Performs h' uses answers' h₁' →
      answers' = answers.map (Answer.rename σ) ∧ h₁' = h₁.rename σ

/-! ### Answers are determined -/

lemma Invocation.run_unique {call : Invocation} {n m : Nat} {o o' : Except VmError Value × Heap}
    (hn : call.run vm n heap = some o) (hm : call.run vm m heap = some o') : o = o' := by
  rw [Invocation.run_eq] at hn hm
  obtain ⟨res, hres, rfl⟩ := Option.map_eq_some_iff.mp hn
  obtain ⟨res', hres', rfl⟩ := Option.map_eq_some_iff.mp hm
  rw [(Machine.mono_invoke _ _ _ _).eq hres hres']

lemma Use.run_unique {use : Use} {n m : Nat} {o o' : Answer × Heap} (hn : use.run vm n heap = some o)
    (hm : use.run vm m heap = some o') : o = o' := by
  have hcall {call : Invocation} (hn : (call.run vm n heap).map answered = some o)
      (hm : (call.run vm m heap).map answered = some o') : o = o' := by
    obtain ⟨p, hp, rfl⟩ := Option.map_eq_some_iff.mp hn
    obtain ⟨p', hp', rfl⟩ := Option.map_eq_some_iff.mp hm
    rw [Invocation.run_unique hp hp']
  cases use with
  | static | method => exact hcall hn hm
  | closure object key arguments =>
    obtain ⟨c, hc, hn⟩ := Option.bind_eq_some_iff.mp hn
    obtain ⟨c', hc', hm⟩ := Option.bind_eq_some_iff.mp hm
    obtain rfl := Option.some.inj (hc.symm.trans hc')
    exact hcall hn hm
  | make | read | write | release => exact Option.some.inj (hn.symm.trans hm)

namespace Machine

variable {use : Use} {uses before after : List Use} {answer : Answer}
  {answers answers₁ answers₂ : List Answer} {fuel : Nat}

/-- The answers to the first uses are the first answers. -/
lemma Performs.split (hall : vm.Performs heap (before ++ after) answers heap₂)
    (hbefore : vm.Performs heap before answers₁ heap₁) :
    ∃ answers₂, answers = answers₁ ++ answers₂ ∧ vm.Performs heap₁ after answers₂ heap₂ := by
  induction hbefore generalizing answers with
  | nil heap => exact ⟨answers, rfl, hall⟩
  | cons belongs ok rest ih =>
    cases hall with
    | cons belongs' ok' rest' =>
      obtain ⟨rfl, rfl⟩ := Prod.mk.inj (Use.run_unique ok ok')
      obtain ⟨answers₂, rfl, hafter⟩ := ih rest'
      exact ⟨answers₂, rfl, hafter⟩

/-- There is one list of answers to uses. -/
lemma Performs.unique (hfirst : vm.Performs heap uses answers₁ heap₁)
    (hsecond : vm.Performs heap uses answers₂ heap₂) : answers₂ = answers₁ ∧ heap₂ = heap₁ := by
  rw [← List.append_nil uses] at hsecond
  obtain ⟨rest, rfl, hrest⟩ := hsecond.split hfirst
  cases hrest
  exact ⟨List.append_nil _, rfl⟩

/-- There is room for uses to which no answer is a lack of it. -/
lemma Performs.not_runsOut (hall : vm.Performs heap uses answers heap₂)
    (hroom : ∀ answer ∈ answers, ¬ answer.IsLimit) : ¬ vm.RunsOut heap uses := by
  rintro ⟨before, after, answers₁, heap₁, rfl, hbefore, answer, hmem, hlimit⟩
  obtain ⟨answers₂, rfl, -⟩ := hall.split hbefore
  exact hroom answer (List.mem_append_left _ hmem) hlimit

lemma RunsOut.head (belongs : use.Belongs heap) (ok : use.run vm fuel heap = some (answer, heap₁))
    (hlimit : answer.IsLimit) : vm.RunsOut heap (use :: uses) :=
  ⟨[use], uses, [answer], heap₁, rfl, .cons belongs ok (.nil heap₁), answer, List.mem_singleton_self _,
    hlimit⟩

lemma RunsOut.cons (belongs : use.Belongs heap) (ok : use.run vm fuel heap = some (answer, heap₁))
    (hrest : vm.RunsOut heap₁ uses) : vm.RunsOut heap (use :: uses) := by
  obtain ⟨before, after, answers, heap₂, rfl, hbefore, answer', hmem, hlimit⟩ := hrest
  exact ⟨use :: before, after, answer :: answers, heap₂, rfl, .cons belongs ok hbefore, answer',
    List.mem_cons_of_mem _ hmem, hlimit⟩

end Machine

/-! ### Bounded answers -/

def Answer.renamed (σ : Renaming) (o : Answer × Heap) : Answer × Heap :=
  (o.1.rename σ, o.2.rename σ)

/-- Whether two uses that are bounded by a number of steps come to the same answer, unless there is no
room for one of them. -/
structure Use.Meets (σ : Renaming) (x x' : Nat → Option (Answer × Heap)) : Prop where
  forth : ∀ n o, x n = some o →
    o.1.IsLimit ∨ ∃ m o', x' m = some o' ∧ (o'.1.IsLimit ∨ o' = Answer.renamed σ o)
  back : ∀ n o', x' n = some o' →
    o'.1.IsLimit ∨ ∃ m o, x m = some o ∧ (o.1.IsLimit ∨ o' = Answer.renamed σ o)

lemma Use.meets_of_map {x x' : Nat → Option (Answer × Heap)}
    (hx : ∀ n, x' n = (x n).map (Answer.renamed σ)) : Use.Meets σ x x' := by
  constructor
  · intro n o ho
    exact .inr ⟨n, Answer.renamed σ o, by rw [hx, ho]; rfl, .inr rfl⟩
  · intro n o' ho'
    rw [hx] at ho'
    obtain ⟨o, ho, rfl⟩ := Option.map_eq_some_iff.mp ho'
    exact .inr ⟨n, o, ho, .inr rfl⟩

open Machine Machine.Bounded Run

/-- What a host gets for two results that tally. -/
lemma Use.answered_of_tallies {res res' : RunResult}
    (h : Tallies σ (Housed σ) (Housed σ) Eq res res') :
    (Use.answered (outcome res)).1.IsLimit ∨ (Use.answered (outcome res')).1.IsLimit ∨
      Use.answered (outcome res') = Answer.renamed σ (Use.answered (outcome res)) := by
  cases h with
  | ok hw hs =>
    refine .inr (.inr ?_)
    rw [hw]
    exact congrArg (Prod.mk _) hs
  | error e hs => exact .inr (.inr (congrArg (Prod.mk _) hs))
  | limit he => exact .inl he
  | limit' he => exact .inr (.inl he)

/-- Calls that match come to the same answer. -/
lemma Use.meets_of_matched {x x' : Bounded}
    (h : ∀ k, Matched k (Tallies σ (Housed σ) (Housed σ) Eq) x x') :
    Use.Meets σ (fun n => ((x n).map outcome).map Use.answered)
      fun n => ((x' n).map outcome).map Use.answered := by
  constructor
  · intro n o ho
    obtain ⟨p, hp, rfl⟩ := Option.map_eq_some_iff.mp ho
    obtain ⟨res, hres, rfl⟩ := Option.map_eq_some_iff.mp hp
    rcases (h n).left n (Nat.le_refl n) res hres with hfree | ⟨m, res', hm, htallies⟩
    · obtain ⟨e, _, _, rfl, he, -⟩ := limit_of_forall hfree
      exact .inl he
    · refine (Use.answered_of_tallies htallies).imp id fun hsame => ?_
      exact ⟨m, Use.answered (outcome res'), by rw [hm]; rfl, hsame⟩
  · intro n o' ho'
    obtain ⟨p, hp, rfl⟩ := Option.map_eq_some_iff.mp ho'
    obtain ⟨res', hres', rfl⟩ := Option.map_eq_some_iff.mp hp
    rcases (h n).right n (Nat.le_refl n) res' hres' with hfree | ⟨m, res, hm, htallies⟩
    · obtain ⟨e, _, _, rfl, he, -⟩ := limit_of_forall' hfree
      exact .inl he
    · rcases Use.answered_of_tallies htallies with hlimit | hlimit | hsame
      · exact .inr ⟨m, _, by rw [hm]; rfl, .inl hlimit⟩
      · exact .inl hlimit
      · exact .inr ⟨m, _, by rw [hm]; rfl, .inr hsame⟩

def Invocation.rename (σ : Renaming) : Invocation → Invocation
  | .closure object c key arguments => .closure object (c.rename σ) key arguments
  | call => call

section Machines

variable {use : Use} {fuel : Nat} {o : Answer × Heap}

lemma Heap.holds_rename {v : Value} : (heap.rename σ).Holds v ↔ heap.Holds v := by
  cases v with
  | object id typeName =>
    simp only [Holds, instance?_rename, Option.map_eq_some_iff]
    constructor
    · rintro ⟨_, ⟨i, hi, rfl⟩, rfl⟩
      exact ⟨i, hi, rfl⟩
    · rintro ⟨i, hi, rfl⟩
      exact ⟨_, ⟨i, hi, rfl⟩, rfl⟩
  | closure id =>
    simp only [Holds, closure?_rename, Option.map_eq_some_iff]
    exact ⟨fun ⟨_, c, hc, _⟩ => ⟨c, hc⟩, fun ⟨c, hc⟩ => ⟨_, c, hc, rfl⟩⟩
  | _ => exact Iff.rfl

lemma Use.belongs_rename : use.Belongs (heap.rename σ) ↔ use.Belongs heap := by
  cases use <;> simp only [Belongs, Heap.holds_rename]

/-- Uses leave a world sound. -/
lemma Use.sound_run (hw : World.Sound ⟨vm.registry, heap⟩) (hbelongs : use.Belongs heap)
    (hrun : use.run vm fuel heap = some o) : World.Sound ⟨vm.registry, o.2⟩ := by
  have hcall {call : Invocation} (hcall : call.Belongs heap)
      (hrun : (call.run vm fuel heap).map answered = some o) : World.Sound ⟨vm.registry, o.2⟩ := by
    obtain ⟨p, hp, rfl⟩ := Option.map_eq_some_iff.mp hrun
    exact hw.step (.call hcall hp)
  cases use with
  | static typeName key arguments => exact @hcall (.static typeName key arguments) hbelongs hrun
  | method receiver typeName key arguments =>
    exact @hcall (.method receiver typeName key arguments) hbelongs hrun
  | closure object key arguments =>
    obtain ⟨c, hc, hrun⟩ := Option.bind_eq_some_iff.mp hrun
    exact @hcall (.closure object c key arguments) ⟨hc, hbelongs.2⟩ hrun
  | make typeName =>
    dsimp only [run] at hrun
    split at hrun <;> obtain rfl := Option.some.inj hrun
    · next hmade => exact hw.step (.make hmade)
    · exact hw
  | read object typeName name =>
    dsimp only [run] at hrun
    split at hrun <;> obtain rfl := Option.some.inj hrun
    · next hread =>
      obtain ⟨t, -, hread⟩ := Option.bind_eq_some_iff.mp hread
      exact hw.step (.readField hread)
    · exact hw
  | write object typeName name v =>
    dsimp only [run] at hrun
    split at hrun <;> obtain rfl := Option.some.inj hrun
    · next hwrite =>
      obtain ⟨t, -, hwrite⟩ := Option.bind_eq_some_iff.mp hwrite
      exact hw.step (.writeField hbelongs.2 hwrite)
    · exact hw
  | release roots =>
    obtain rfl := Option.some.inj hrun
    exact hw.step (.release roots)

variable (h : vm.registry.Twin σ vm'.registry) (hw : World.Sound ⟨vm.registry, heap⟩)
include h hw

/-- Calls come to the same on both machines. -/
lemma Invocation.meets (call : Invocation) (hcall : call.Belongs heap) :
    Use.Meets σ (fun n => (call.run vm n heap).map Use.answered)
      fun n => ((call.rename σ).run vm' n (heap.rename σ)).map Use.answered := by
  have hvalues := call.holds_values hcall
  simp only [Invocation.run_eq]
  refine Use.meets_of_matched fun k => ?_
  cases call with
  | static typeName key arguments =>
    exact matched_invoke h hw.registry hw.code hw.heap hvalues
      (fun _ _ _ => agree_findDispatcher h typeName key true) (stateless_findDispatcher ..)
      (stateless_findDispatcher ..)
  | method receiver typeName key arguments =>
    exact matched_invoke h hw.registry hw.code hw.heap hvalues
      (fun _ _ _ => agree_findDispatcher h typeName key false) (stateless_findDispatcher ..)
      (stateless_findDispatcher ..)
  | closure object c key arguments =>
    exact matched_invoke h hw.registry hw.code hw.heap hvalues
      (fun _ _ _ => agree_closureTarget h c key) (stateless_closureTarget ..) (stateless_closureTarget ..)

omit hw in
lemma Machine.makeInstance_twin (typeName : String) :
    vm'.makeInstance typeName (heap.rename σ) =
      ((vm.makeInstance typeName heap).map fun p => (p.1, p.2.rename σ)).mapError
        (VmError.rename σ) := by
  unfold makeInstance
  rcases Outcome.rel_cases (h.byName typeName) with ⟨hnone, hnone'⟩ | ⟨t, t', ht, ht', htwin⟩
  · rw [hnone, hnone']
    rfl
  · rw [ht, ht']
    dsimp only
    rw [htwin.isClosureHost_eq, htwin.name_eq, htwin.newInstance_eq, Heap.allocate_rename]
    split <;> rfl

omit hw in
lemma Use.readField_twin (object : ObjectId) (typeName name : String) :
    (vm'.registry.find? typeName).bind ((heap.rename σ).readField · object name) =
      ((vm.registry.find? typeName).bind (heap.readField · object name)).map
        fun p => (p.1, p.2.rename σ) := by
  rcases Outcome.rel_cases (h.byName typeName) with ⟨hnone, hnone'⟩ | ⟨t, t', ht, ht', htwin⟩
  · rw [hnone, hnone']
    rfl
  · rw [ht, ht', Option.bind_some, Option.bind_some, Heap.readField, Heap.readField,
      htwin.fieldPlace?_eq]
    cases t.fieldPlace? name with
    | none => rfl
    | some place =>
      simp only [Option.bind_eq_bind, Option.bind_some, Heap.valueAt?_rename, Heap.touchAt_rename]
      cases heap.valueAt? object name place <;> rfl

omit hw in
lemma Use.writeField_twin (object : ObjectId) (typeName name : String) (v : Value) :
    (vm'.registry.find? typeName).bind ((heap.rename σ).writeField · object name v) =
      ((vm.registry.find? typeName).bind (heap.writeField · object name v)).map (Heap.rename σ) := by
  rcases Outcome.rel_cases (h.byName typeName) with ⟨hnone, hnone'⟩ | ⟨t, t', ht, ht', htwin⟩
  · rw [hnone, hnone']
    rfl
  · rw [ht, ht', Option.bind_some, Option.bind_some, Heap.writeField, Heap.writeField,
      htwin.fieldPlace?_eq]
    cases t.fieldPlace? name with
    | none => rfl
    | some place =>
      simp only [Option.bind_eq_bind, Option.bind_some, Heap.valueAt?_rename, Heap.storeAt_rename]
      cases heap.valueAt? object name place <;> rfl

/-- Every use comes to the same on both machines. -/
lemma Use.meets (hbelongs : use.Belongs heap) :
    Use.Meets σ (fun n => use.run vm n heap) fun n => use.run vm' n (heap.rename σ) := by
  cases use with
  | make typeName =>
    refine meets_of_map fun n => ?_
    dsimp only [run]
    rw [makeInstance_twin h]
    cases vm.makeInstance typeName heap <;> rfl
  | static typeName key arguments =>
    exact Invocation.meets h hw (.static typeName key arguments) hbelongs
  | method receiver typeName key arguments =>
    exact Invocation.meets h hw (.method receiver typeName key arguments) hbelongs
  | closure object key arguments =>
    obtain ⟨c, hc⟩ := hbelongs.1
    simp only [run, Heap.closure?_rename, hc, Option.map_some, Option.bind_some]
    exact Invocation.meets h hw (.closure object c key arguments) ⟨hc, hbelongs.2⟩
  | read object typeName name =>
    refine meets_of_map fun n => ?_
    dsimp only [run]
    rw [readField_twin h]
    cases (vm.registry.find? typeName).bind (heap.readField · object name) <;> rfl
  | write object typeName name v =>
    refine meets_of_map fun n => ?_
    dsimp only [run]
    rw [writeField_twin h]
    cases (vm.registry.find? typeName).bind (heap.writeField · object name v) <;> rfl
  | release roots =>
    refine meets_of_map fun n => ?_
    dsimp only [run]
    rw [Heap.release_rename]
    rfl

variable {uses : List Use} {answers : List Answer} (hroom : ¬ vm.RunsOut heap uses)
  (hroom' : ¬ vm'.RunsOut (heap.rename σ) uses)
include hroom hroom'

/-- What one machine answers, the other one does. -/
lemma Machine.Performs.twin (hperforms : vm.Performs heap uses answers heap₁) :
    vm'.Performs (heap.rename σ) uses (answers.map (Answer.rename σ)) (heap₁.rename σ) := by
  -- Each use leaves a sound heap, and the same one up to the identities, to the uses after it.
  induction hperforms with
  | nil heap => exact .nil _
  | cons belongs ok rest ih =>
    have belongs' : Use.Belongs (Heap.rename σ _) _ := Use.belongs_rename.mpr belongs
    rcases (Use.meets h hw belongs).forth _ _ ok with hlimit | ⟨m, o', ok', hlimit | rfl⟩
    · exact absurd (.head belongs ok hlimit) hroom
    · exact absurd (.head belongs' ok' hlimit) hroom'
    · exact .cons belongs' ok' (ih (Use.sound_run hw belongs ok)
        (fun hrest => hroom (hrest.cons belongs ok)) fun hrest => hroom' (hrest.cons belongs' ok'))

/-- Uses that end on one machine end on the other one. -/
lemma Machine.Performs.exists_twin {heap₁' : Heap} {answers' : List Answer}
    (hperforms : vm'.Performs (heap.rename σ) uses answers' heap₁') :
    ∃ answers heap₁, vm.Performs heap uses answers heap₁ := by
  induction uses generalizing heap answers' with
  | nil => exact ⟨[], heap, .nil heap⟩
  | cons use uses ih =>
    cases hperforms with
    | cons belongs' ok' rest' =>
      have belongs := Use.belongs_rename.mp belongs'
      rcases (Use.meets h hw belongs).back _ _ ok' with
        hlimit | ⟨m, ⟨answer, heap₂⟩, ok, hlimit | hsame⟩
      · exact absurd (.head belongs' ok' hlimit) hroom'
      · exact absurd (.head belongs ok hlimit) hroom
      · obtain ⟨rfl, rfl⟩ := Prod.mk.inj hsame
        obtain ⟨answers, heap₁, rest⟩ := ih (Use.sound_run hw belongs ok)
          (fun hrest => hroom (hrest.cons belongs ok)) (fun hrest => hroom' (hrest.cons belongs' ok'))
          rest'
        exact ⟨answer :: answers, heap₁, .cons belongs ok rest⟩

/-- Machines over twin registries give the same answers. -/
theorem Machine.answers_twin : Answers σ vm vm' heap (heap.rename σ) uses where
  ends := ⟨fun ⟨_, _, hperforms⟩ => ⟨_, _, hperforms.twin h hw hroom hroom'⟩,
    fun ⟨_, _, hperforms⟩ => hperforms.exists_twin h hw hroom hroom'⟩
  same _ _ _ _ hperforms hperforms' := (hperforms.twin h hw hroom hroom').unique hperforms'

end Machines

/-- A renaming of types that are not registered changes no heap. -/
lemma Registry.Reachable.rename_heap {config : RegistryConfig} {r : Registry}
    (h : Registry.Reachable config r) (hverify : config.verify = true) (hh : heap.Sound r)
    (hfixed : ∀ id < r.size, σ id = id) : heap.rename σ = heap := by
  have hr := h.wellFormed hverify
  have hobject : ∀ o ∈ heap.objects, o.rename σ = o := by
    intro o ho
    obtain ⟨id, hid⟩ := Array.getElem?_of_mem ho
    cases o with
    | instanceOf i =>
      obtain ⟨t, ht, htypeId, -⟩ := hh.instances id i (Heap.instance?_eq_some.mpr hid)
      have hlt : i.typeId < r.size := htypeId ▸ hr.id_lt (Registry.mem_of_find? ht)
      rw [HeapObject.rename, Instance.rename, hfixed _ hlt]
    | closureOf c =>
      obtain ⟨site, hsite⟩ := hh.closures id c (Heap.closure?_eq_some.mpr hid)
      obtain ⟨t, ht, hdeclaring⟩ := h.declared hverify c.site site hsite
      have hlt : c.site.declaring < r.size := hdeclaring ▸ hr.id_lt ht
      rw [HeapObject.rename, Closure.rename, SiteId.rename, hfixed _ hlt]
  rw [Heap.rename, Array.map_congr_left hobject, Array.map_id']

namespace World

variable {w : World} {config : RegistryConfig}

/-- In every world that a host comes to, it makes no difference to the answers that it gets whether a
type is registered before or after one that it is nested in, as long as there is room for all calls. -/
theorem Reachable.answers_orders (h : Reachable config w) (hverify : config.verify = true)
    {nested outer rest : String} (hname : nested = outer ++ "$" ++ rest)
    {nestedBytes outerBytes : List UInt8} {late early : Registry}
    (hlate : w.registry.replay [.register nested nestedBytes, .register outer outerBytes] = some late)
    (hearly : w.registry.replay [.register outer outerBytes, .register nested nestedBytes] = some early)
    {limit : Nat} {uses : List Use} (hroom : ¬ (Machine.mk late limit).RunsOut w.heap uses)
    (hroom' : ¬ (Machine.mk early limit).RunsOut w.heap uses) :
    Machine.Answers (Equiv.swap w.registry.size (w.registry.size + 1)) ⟨late, limit⟩ ⟨early, limit⟩
      w.heap w.heap uses := by
  have htwin := h.registry.twin_of_orders hverify hname hlate hearly
  have hafter := (h.leads (Registry.leads_of_replay hlate)).sound hverify
  have hheap : w.heap.rename (Equiv.swap w.registry.size (w.registry.size + 1)) = w.heap :=
    h.registry.rename_heap hverify (h.sound hverify).heap fun id hlt =>
      Equiv.swap_apply_of_ne_of_ne (Nat.ne_of_lt hlt) (Nat.ne_of_lt (Nat.lt_succ_of_lt hlt))
  have hanswers : Machine.Answers (Equiv.swap w.registry.size (w.registry.size + 1)) ⟨late, limit⟩
      ⟨early, limit⟩ w.heap (w.heap.rename _) uses :=
    Machine.answers_twin htwin hafter hroom (hheap.symm ▸ hroom')
  rwa [hheap] at hanswers

/-! ### A nested type that reaches the field and the method of the other one -/

/-- A type with a field and a method that reads it. -/
def outerType : TypeUnit := { divider with
  name := "a.E"
  constants := (ConstantPool.empty.intern "a.E").2.intern "x" |>.2
  fields := [⟨"x", .i32, 0⟩]
  methods := [⟨⟨"get", ⟨[], .i32⟩⟩, 0, [], 1, Instruction.encodeAll
    [⟨0, .loadLocal, .localSlot 0⟩, ⟨3, .getField, .pair 0 1⟩, ⟨12, .ret, .none⟩]⟩] }

/-- A type nested in it, with a method that writes the field and calls that method. -/
def nestedType : TypeUnit := { divider with
  name := "a.E$N"
  constants := ((ConstantPool.empty.intern "a.E").2.intern "x" |>.2).intern "get()I" |>.2
  methods := [⟨⟨"run", ⟨[], .i32⟩⟩, staticMethod, [], 0, Instruction.encodeAll
    [⟨0, .new, .index 0⟩, ⟨5, .dup, .none⟩, ⟨6, .constI32, .i32 7⟩, ⟨11, .putField, .pair 0 1⟩,
      ⟨20, .invokeVirtual, .pair 0 2⟩, ⟨29, .ret, .none⟩]⟩] }

def value? : Option (Answer × Heap) → Option Value
  | some (.value (.ok v), _) => some v
  | _ => none

lemma performs_of_value? {vm : Machine} {heap : Heap} {use : Use} {fuel : Nat} {v : Value}
    (hbelongs : use.Belongs heap) (h : value? (use.run vm fuel heap) = some v) :
    ∃ heap₁, vm.Performs heap [use] [.value (.ok v)] heap₁ := by
  unfold value? at h
  split at h
  · next v' heap₁ hrun =>
    obtain rfl := Option.some.inj h
    exact ⟨heap₁, .cons hbelongs hrun (.nil heap₁)⟩
  · cases h

set_option maxRecDepth 100000 in
/-- The field and the method are reached by name in one order and through slot and dispatcher in the
other. -/
theorem answers_orders_nested :
    ∃ late early, (Registry.create .default).replay [.register "a.E$N" nestedType.encode,
        .register "a.E" outerType.encode] = some late ∧
      (Registry.create .default).replay [.register "a.E" outerType.encode,
        .register "a.E$N" nestedType.encode] = some early ∧
      (∃ heap, (Machine.mk late 256).Performs .empty [.static "a.E$N" "run()I" []]
        [.value (.ok (.i32 7))] heap) ∧
      Machine.Answers (Equiv.swap 0 1) ⟨late, 256⟩ ⟨early, 256⟩ .empty .empty
        [.static "a.E$N" "run()I" []] := by
  have hfacts : ((Registry.create .default).replay [.register "a.E$N" nestedType.encode,
      .register "a.E" outerType.encode]).any (fun late =>
        ((Registry.create .default).replay [.register "a.E" outerType.encode,
          .register "a.E$N" nestedType.encode]).any fun early =>
            value? ((Use.static "a.E$N" "run()I" []).run ⟨late, 256⟩ 20 .empty) = some (.i32 7) ∧
            value? ((Use.static "a.E$N" "run()I" []).run ⟨early, 256⟩ 20 .empty) = some (.i32 7)) =
      true := by
    decide +kernel
  obtain ⟨late, hlate, hfacts⟩ := (Option.any_eq_true _ _).mp hfacts
  obtain ⟨early, hearly, hfacts⟩ := (Option.any_eq_true _ _).mp hfacts
  obtain ⟨hvalue, hvalue'⟩ := of_decide_eq_true hfacts
  have hbelongs : (Use.static "a.E$N" "run()I" []).Belongs .empty := List.forall_mem_nil _
  obtain ⟨heap, hperforms⟩ := performs_of_value? hbelongs hvalue
  obtain ⟨heap', hperforms'⟩ := performs_of_value? hbelongs hvalue'
  have hname : "a.E$N" = "a.E" ++ "$" ++ "N" := by decide
  have hroom : ∀ answer ∈ [Answer.value (.ok (.i32 7))], ¬ answer.IsLimit := by
    simp [Answer.IsLimit]
  have hempty : Reachable .default ⟨.create .default, .empty⟩ := .refl
  exact ⟨late, early, hlate, hearly, ⟨heap, hperforms⟩, hempty.answers_orders rfl hname hlate hearly
    (hperforms.not_runsOut hroom) (hperforms'.not_runsOut hroom)⟩

end World

end LiveTypes
