import LiveTypes.Proofs.Capture.Law
import LiveTypes.Proofs.Machine.Repetition
import LiveTypes.Proofs.World.Basic

/-!
# Repeating the current version of a type

A host that reloads a type with the bytes of its current version should not notice it: whatever it asks
for afterwards, it should get the replies that it would have got without the reload. It does as long as
code cannot tell that the version was repeated (`repetition_neutral`), which holds at least until the
next reload. But when a capture site moves to another host and back after that, the closures made there
read something else than without the repetition (`repetition_noticed`).
-/

namespace LiveTypes

/-! ### What a host asks for -/

/-- What a host asks for. -/
inductive Act where
  | update (op : Registry.Operation)
  | make (typeName : String)
  | invoke (call : Invocation)

/-- Whether what a host asks for gives a type no new version under a label. -/
def Act.Avoids (name label : String) : Act → Prop
  | .update op => op.Avoids name label
  | .make _ | .invoke _ => True

instance (name label : String) (act : Act) : Decidable (act.Avoids name label) := by
  cases act <;> unfold Act.Avoids <;> infer_instance

/-- What a host gets in reply. -/
inductive Reply where
  | updated (o : Except RegistryError Unit)
  | made (o : Except VmError Value)
  | returned (o : Except VmError Value)

/-- Two replies that are the same, up to the version of an executor unit in a failure. -/
inductive Reply.Alike : Reply → Reply → Prop
  | refl (reply : Reply) : Alike reply reply
  | failed {e e' : VmError} (h : e.Alike e') : Alike (.returned (.error e)) (.returned (.error e'))

/-- Calls on machines that are alike come to the same. -/
lemma Invocation.run_alike {vm vm' : Machine} (h : vm.Alike vm') (hcode : vm.registry.SoundCode)
    (fuel : Nat) (heap : Heap) (call : Invocation) :
    Option.Rel Machine.OutcomeAlike (call.run vm fuel heap) (call.run vm' fuel heap) := by
  cases call with
  | static typeName key arguments =>
    exact Machine.invoke_alike h hcode fuel (Machine.alike_findDispatcher h typeName key true) none
      arguments _
  | method receiver typeName key arguments =>
    exact Machine.invoke_alike h hcode fuel (Machine.alike_findDispatcher h typeName key false)
      (some _) arguments _
  | closure object c key arguments =>
    exact Machine.invoke_alike h hcode fuel (Machine.alike_closureTarget h c key) (some _) arguments _

namespace World

variable (limit fuel : Nat)

/-- The reply to what a host asks for, and the world then, unless a call does not end in the given
number of nested steps. -/
def perform (w : World) : Act → Option (Reply × World)
  | .update op =>
    match w.registry.apply op with
    | .ok r => some (.updated (.ok ()), ⟨r, w.heap⟩)
    | .error e => some (.updated (.error e), w)
  | .make typeName =>
    match (Machine.mk w.registry limit).makeInstance typeName w.heap with
    | .ok (v, heap) => some (.made (.ok v), ⟨w.registry, heap⟩)
    | .error e => some (.made (.error e), w)
  | .invoke call =>
    (call.run ⟨w.registry, limit⟩ fuel w.heap).map fun o => (.returned o.1, ⟨w.registry, o.2⟩)

/-- The replies to all that a host asks for, one thing after another, and the world in the end. -/
def performAll (w : World) : List Act → Option (List Reply × World)
  | [] => some ([], w)
  | act :: rest =>
    match w.perform limit fuel act with
    | none => none
    | some (reply, w) => (w.performAll rest).map fun o => (reply :: o.1, o.2)

/-- Whether code cannot tell that a version was repeated, at any call that a host makes. -/
def Undisturbed (q : Repetition) (w : World) (acts : List Act) : Prop :=
  ∀ before call after, acts = before ++ .invoke call :: after → ∀ replies w₁,
    w.performAll limit fuel before = some (replies, w₁) → w₁.registry.Undisturbed q

variable {limit fuel} {q : Repetition} {config : RegistryConfig} {name : String} {w w' w₁ : World}
  {act : Act} {acts : List Act}

lemma Undisturbed.head {call : Invocation} (h : w.Undisturbed limit fuel q (.invoke call :: acts)) :
    w.registry.Undisturbed q :=
  h [] call acts rfl [] w rfl

lemma Undisturbed.tail {reply : Reply} (h : w.Undisturbed limit fuel q (act :: acts))
    (hact : w.perform limit fuel act = some (reply, w₁)) : w₁.Undisturbed limit fuel q acts := by
  intro before call after hacts replies w₂ hbefore
  refine h (act :: before) call after (hacts ▸ rfl) (reply :: replies) w₂ ?_
  simp only [performAll, hact, hbefore, Option.map_some]

/-! ### Two worlds side by side -/

/-- A world without a repeated version of the named type, and the same world with it. -/
structure Paired (config : RegistryConfig) (q : Repetition) (name : String) (w w' : World) :
    Prop where
  registry : w.registry.Shifted q w'.registry
  heap_eq : w'.heap = w.heap
  reachable : Registry.Reachable config w.registry
  reachable' : Registry.Reachable config w'.registry
  named : ∀ t, w.registry.byId? q.id = some t → t.name = name

namespace Paired

lemma update (h : w.Paired config q name w') {r r' : Registry}
    (hverify : config.verify = true) (hrr : r.Shifted q r') (hstep : Registry.Step w.registry r)
    (hstep' : Registry.Step w'.registry r') : Paired config q name ⟨r, w.heap⟩ ⟨r', w'.heap⟩ where
  registry := hrr
  heap_eq := h.heap_eq
  reachable := h.reachable.tail hstep
  reachable' := h.reachable'.tail hstep'
  named t ht := by
    have hr := h.reachable.wellFormed hverify
    have hr' := hr.change hstep.change
    obtain ⟨t₀, ht₀⟩ : ∃ t₀, w.registry.byId? q.id = some t₀ :=
      ⟨_, List.getElem?_eq_getElem h.registry.id_lt⟩
    obtain ⟨hmem, hid⟩ := hr.byId?_eq_some.mp ht₀
    obtain ⟨t₁, ht₁, hcontinues⟩ := (hstep.change.extends hr).types t₀ hmem
    obtain ⟨hmem', hid'⟩ := hr'.byId?_eq_some.mp ht
    obtain rfl := hr'.eq_of_id hmem' ht₁ (by rw [hid', hcontinues.id_eq, hid])
    rw [hcontinues.name_eq]
    exact h.named t₀ ht₀

lemma withHeap (h : w.Paired config q name w') (heap : Heap) :
    Paired config q name ⟨w.registry, heap⟩ ⟨w'.registry, heap⟩ :=
  ⟨h.registry, rfl, h.reachable, h.reachable', h.named⟩

/-- An instance is made as it is without the repetition. -/
lemma makeInstance_eq (h : w.Paired config q name w') (typeName : String) :
    (Machine.mk w'.registry limit).makeInstance typeName w'.heap =
      (Machine.mk w.registry limit).makeInstance typeName w.heap := by
  unfold Machine.makeInstance
  dsimp only
  rw [h.heap_eq]
  rcases Outcome.rel_cases (h.registry.find? typeName) with
    ⟨hnone, hnone'⟩ | ⟨t, t', ht, ht', htt⟩
  · rw [hnone, hnone']
  · rw [ht, ht', htt.same]
    rfl

variable (limit fuel) in
/-- Whatever a host asks for, it gets the same reply with the repetition. -/
lemma perform (h : w.Paired config q name w') (hverify : config.verify = true)
    (havoids : act.Avoids name q.label)
    (hundisturbed : ∀ call, act = .invoke call → w'.registry.Undisturbed q) :
    Option.Rel (fun x x' => x.1.Alike x'.1 ∧ x.2.Paired config q name x'.2)
      (w.perform limit fuel act) (w'.perform limit fuel act) := by
  have hr := h.reachable.wellFormed hverify
  have hr' := h.reachable'.wellFormed hverify
  cases act with
  | update op =>
    have hop (t : LiveType) (ht : w.registry.byId? q.id = some t) : op.Avoids t.name q.label :=
      (h.named t ht).symm ▸ havoids
    have halike := h.registry.apply hr hr' hop
    dsimp only [World.perform]
    generalize hrun : w.registry.apply op = res at halike
    generalize hrun' : w'.registry.apply op = res' at halike
    cases halike with
    | ok hrr =>
      exact .some ⟨.refl _, h.update hverify hrr (Registry.step_of_apply hrun)
        (Registry.step_of_apply hrun')⟩
    | error e => exact .some ⟨.refl _, h⟩
  | make typeName =>
    dsimp only [World.perform]
    rw [h.makeInstance_eq]
    cases (Machine.mk w.registry limit).makeInstance typeName w.heap with
    | ok made => exact .some ⟨.refl _, h.withHeap made.2⟩
    | error e => exact .some ⟨.refl _, h⟩
  | invoke call =>
    have hmachine : Machine.Alike ⟨w.registry, limit⟩ ⟨w'.registry, limit⟩ :=
      ⟨h.registry.alike h.reachable hverify hr' (hundisturbed call rfl), rfl⟩
    have halike := call.run_alike hmachine (h.reachable.soundCode hverify) fuel w.heap
    dsimp only [World.perform]
    rw [h.heap_eq]
    rcases Outcome.rel_cases halike with ⟨hnone, hnone'⟩ | ⟨o, o', ho, ho', hoo⟩
    · rw [hnone, hnone']
      exact .none
    · rw [ho, ho']
      cases hoo with
      | ok v heap => exact .some ⟨.refl _, h.withHeap heap⟩
      | error he heap => exact .some ⟨.failed he, h.withHeap heap⟩

/-- A host gets the same replies with the repetition, as long as code cannot tell. -/
theorem performAll (h : w.Paired config q name w') (hverify : config.verify = true)
    (havoids : ∀ act ∈ acts, act.Avoids name q.label)
    (hundisturbed : w'.Undisturbed limit fuel q acts) :
    Option.Rel (fun x x' => List.Forall₂ Reply.Alike x.1 x'.1 ∧ x.2.Paired config q name x'.2)
      (w.performAll limit fuel acts) (w'.performAll limit fuel acts) := by
  induction acts generalizing w w' with
  | nil => exact .some ⟨.nil, h⟩
  | cons act rest ih =>
    obtain ⟨hact, hrest⟩ := List.forall_mem_cons.mp havoids
    have halike := h.perform limit fuel hverify hact fun call hcall => (hcall ▸ hundisturbed).head
    dsimp only [World.performAll]
    rcases Outcome.rel_cases halike with ⟨hnone, hnone'⟩ | ⟨x, x', hx, hx', hreply, hpaired⟩
    · rw [hnone, hnone']
      exact .none
    · rw [hx, hx']
      dsimp only
      rcases Outcome.rel_cases (ih hpaired hrest (hundisturbed.tail hx')) with
        ⟨hnone, hnone'⟩ | ⟨y, y', hy, hy', hreplies, hend⟩
      · rw [hnone, hnone']
        exact .none
      · rw [hy, hy']
        exact .some ⟨.cons hreply hreplies, hend⟩

end Paired

/-! ### Repeating a version -/

lemma Reachable.paired_reloadSame (h : Reachable config w) (hverify : config.verify = true)
    {t : LiveType} (ht : t ∈ w.registry.types) {label : String}
    (hfresh : ∀ v ∈ t.versions, v.label ≠ label) :
    w.Paired config ⟨t.id, t.versions.length, label⟩ t.name
      ⟨w.registry.replace (t.reloadSame label t.current.bytes t.current.unit), w.heap⟩ where
  registry := h.registry.shifted_reloadSame hverify ht label
  heap_eq := rfl
  reachable := h.registry
  reachable' := h.registry.tail (.reload ((h.registry.wellFormed hverify).reload_current ht hfresh))
  named t' ht' := by
    have hsame := ht'.symm.trans ((h.registry.wellFormed hverify).byId?_id ht)
    rw [Option.some.inj hsame]

/-- A host that reloads a type with the bytes of its current version, under a fresh label, gets the
replies that it would have got without the reload, to whatever it asks for under other labels, as long
as code cannot tell that the version was repeated. -/
theorem Reachable.repetition_neutral (h : Reachable config w) (hverify : config.verify = true)
    {t : LiveType} (ht : t ∈ w.registry.types) {label : String}
    (hfresh : ∀ v ∈ t.versions, v.label ≠ label) :
    ∃ r, w.registry.reload t.name label t.current.bytes = .ok r ∧
      ∀ limit fuel acts, (∀ act ∈ acts, act.Avoids t.name label) →
        Undisturbed limit fuel ⟨t.id, t.versions.length, label⟩ ⟨r, w.heap⟩ acts →
        Option.Rel (fun x x' => List.Forall₂ Reply.Alike x.1 x'.1 ∧ x'.2.heap = x.2.heap)
          (w.performAll limit fuel acts) (performAll limit fuel ⟨r, w.heap⟩ acts) := by
  refine ⟨_, (h.registry.wellFormed hverify).reload_current ht hfresh, ?_⟩
  intro limit fuel acts havoids hundisturbed
  have hrel := (h.paired_reloadSame hverify ht hfresh).performAll hverify havoids hundisturbed
  rcases Outcome.rel_cases hrel with ⟨hnone, hnone'⟩ | ⟨x, x', hx, hx', hreplies, hend⟩
  · rw [hnone, hnone']
    exact .none
  · rw [hx, hx']
    exact .some ⟨hreplies, hend.heap_eq⟩

/-! ### Before the next operation -/

lemma registry_of_performAll {replies : List Reply}
    (hacts : ∀ act ∈ acts, ∀ op, act ≠ .update op)
    (h : w.performAll limit fuel acts = some (replies, w₁)) : w₁.registry = w.registry := by
  induction acts generalizing w replies with
  | nil =>
    obtain ⟨-, rfl⟩ := Prod.mk.inj (Option.some.inj h)
    rfl
  | cons act rest ih =>
    obtain ⟨hact, hrest⟩ := List.forall_mem_cons.mp hacts
    dsimp only [performAll] at h
    split at h
    · cases h
    · next reply w₂ hperform =>
      obtain ⟨o, ho, heq⟩ := Option.map_eq_some_iff.mp h
      obtain ⟨-, rfl⟩ := Prod.mk.inj heq
      rw [ih hrest ho]
      cases act with
      | update op => exact absurd rfl (hact op)
      | make typeName =>
        dsimp only [perform] at hperform
        split at hperform <;>
        · obtain ⟨-, rfl⟩ := Prod.mk.inj (Option.some.inj hperform)
          rfl
      | invoke call =>
        obtain ⟨o, -, heq⟩ := Option.map_eq_some_iff.mp hperform
        obtain ⟨-, rfl⟩ := Prod.mk.inj heq
        rfl

/-- What code cannot tell now, it cannot tell before the next operation. -/
lemma undisturbed_of_registry (h : w.registry.Undisturbed q)
    (hacts : ∀ act ∈ acts, ∀ op, act ≠ .update op) : w.Undisturbed limit fuel q acts := by
  rintro before call after rfl replies w₁ hbefore
  have hnone : ∀ act ∈ before, ∀ op, act ≠ .update op := fun act hact =>
    hacts act (List.mem_append_left _ hact)
  rw [registry_of_performAll hnone hbefore]
  exact h

/-! ### A site that moves to another host and back -/

/-- The value that a call returned at last, and the closure that is the first object. -/
def lastRead? : Option (List Reply × World) → Option (Value × Closure)
  | some (replies, w) =>
    match replies.getLast?, w.heap.closure? 0 with
    | some (.returned (.ok v)), some c => some (v, c)
    | _, _ => none
  | none => none

/-- A closure is created over 7, and the method that reads it is called. -/
def makeAndGet (c : Closure) : List Act :=
  [.invoke (.static "a.G" "make()La.G;" []), .invoke (.closure 0 c "get()I" [])]

/-- A closure of the site that was created over 7 after the moves. Only its last slot is in use. -/
def lateClosure : Closure := Machine.madeClosure [.i32 0, .i64 0, .i32 7]

/-- The site moves to the other host and back before a closure is created and read. -/
def moveAndGet : List Act :=
  [.update (.reload "a.G" "own" Machine.ownMaker.encode),
    .update (.reload "a.G" "foreign" Machine.foreignMaker.encode)] ++ makeAndGet lateClosure

/-- Whether both types can be registered, and the host and the registry are as asked for then. -/
def onOpenings (p : Registry → LiveType → Bool) : Bool :=
  ((Registry.create .default).replay Machine.openings).any fun r =>
    (r.find? "a.H").any fun t => decide (∀ v ∈ t.versions, v.label ≠ "same") && p r t

lemma exists_of_onOpenings {p : Registry → LiveType → Bool} (h : onOpenings p = true) :
    ∃ r t, (Registry.create .default).replay Machine.openings = some r ∧
      Reachable .default ⟨r, .empty⟩ ∧ r.find? "a.H" = some t ∧
      (∀ v ∈ t.versions, v.label ≠ "same") ∧ p r t = true := by
  obtain ⟨r, hr, h⟩ := (Option.any_eq_true _ _).mp h
  obtain ⟨t, ht, h⟩ := (Option.any_eq_true _ _).mp h
  obtain ⟨hfresh, hp⟩ := Bool.and_eq_true_iff.mp h
  exact ⟨r, t, hr, reachable_of_leads (Registry.leads_of_replay hr), ht, of_decide_eq_true hfresh, hp⟩

set_option maxRecDepth 100000 in
/-- A closure that is created and read before the site moves reads 7 with the repetition as well. -/
theorem repetition_neutral_seven :
    ∃ r t r', (Registry.create .default).replay Machine.openings = some r ∧
      Reachable .default ⟨r, .empty⟩ ∧ t ∈ r.types ∧ (∀ v ∈ t.versions, v.label ≠ "same") ∧
      r.reload t.name "same" t.current.bytes = .ok r' ∧
      lastRead? (performAll 256 20 ⟨r, .empty⟩ (makeAndGet (Machine.madeClosure [.i32 7]))) =
        some (.i32 7, Machine.madeClosure [.i32 7]) ∧
      Option.Rel (fun x x' => List.Forall₂ Reply.Alike x.1 x'.1 ∧ x'.2.heap = x.2.heap)
        (performAll 256 20 ⟨r, .empty⟩ (makeAndGet (Machine.madeClosure [.i32 7])))
        (performAll 256 20 ⟨r', .empty⟩ (makeAndGet (Machine.madeClosure [.i32 7]))) := by
  have hfacts : onOpenings (fun r t =>
      decide (∀ t' ∈ r.types, ¬ TypeName.InExecutor t.name t'.name) &&
        decide (lastRead? (performAll 256 20 ⟨r, .empty⟩
          (makeAndGet (Machine.madeClosure [.i32 7]))) =
            some (.i32 7, Machine.madeClosure [.i32 7]))) = true := by
    decide +kernel
  obtain ⟨r, t, hr, hreachable, hfind, hfresh, hfacts⟩ := exists_of_onOpenings hfacts
  obtain ⟨hnames, hread⟩ := Bool.and_eq_true_iff.mp hfacts
  have ht := Registry.mem_of_find? hfind
  obtain ⟨r', hr', hneutral⟩ := hreachable.repetition_neutral rfl ht hfresh
  have hwell := hreachable.registry.wellFormed rfl
  have hr'eq := Except.ok.inj (hr'.symm.trans (hwell.reload_current ht hfresh))
  refine ⟨r, t, r', hr, hreachable, ht, hfresh, hr', of_decide_eq_true hread, ?_⟩
  refine hneutral 256 20 _ (fun act hact => ?_) (undisturbed_of_registry ?_ fun act hact op => ?_)
  · rcases List.mem_pair.mp hact with rfl | rfl <;> trivial
  · rw [hr'eq]
    exact hreachable.registry.undisturbed_reloadSame rfl ht (of_decide_eq_true hnames) "same"
  · rcases List.mem_pair.mp hact with rfl | rfl <;> exact nofun

set_option maxRecDepth 100000 in
/-- After the site moved to the other host and back, a closure that is created over 7 reads 7, and 0 if
the first version of its host was repeated before. -/
theorem repetition_noticed :
    ∃ r t r', (Registry.create .default).replay Machine.openings = some r ∧
      Reachable .default ⟨r, .empty⟩ ∧ t ∈ r.types ∧ (∀ v ∈ t.versions, v.label ≠ "same") ∧
      r.reload t.name "same" t.current.bytes = .ok r' ∧
      (∀ act ∈ moveAndGet, act.Avoids t.name "same") ∧
      lastRead? (performAll 256 20 ⟨r, .empty⟩ moveAndGet) = some (.i32 7, lateClosure) ∧
      lastRead? (performAll 256 20 ⟨r', .empty⟩ moveAndGet) = some (.i32 0, lateClosure) := by
  have hfacts : onOpenings (fun r t =>
      decide (∀ act ∈ moveAndGet, act.Avoids t.name "same") &&
      decide (lastRead? (performAll 256 20 ⟨r, .empty⟩ moveAndGet) =
        some (.i32 7, lateClosure)) &&
      match r.reload t.name "same" t.current.bytes with
      | .ok r' => decide (lastRead? (performAll 256 20 ⟨r', .empty⟩ moveAndGet) =
        some (.i32 0, lateClosure))
      | .error _ => false) = true := by
    decide +kernel
  obtain ⟨r, t, hr, hreachable, hfind, hfresh, hfacts⟩ := exists_of_onOpenings hfacts
  obtain ⟨hfacts, hwith⟩ := Bool.and_eq_true_iff.mp hfacts
  obtain ⟨havoids, hwithout⟩ := Bool.and_eq_true_iff.mp hfacts
  split at hwith
  · next r' hr' =>
    exact ⟨r, t, r', hr, hreachable, Registry.mem_of_find? hfind, hfresh, hr',
      of_decide_eq_true havoids, of_decide_eq_true hwithout, of_decide_eq_true hwith⟩
  · cases hwith

end World

end LiveTypes
