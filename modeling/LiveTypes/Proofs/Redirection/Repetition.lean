import LiveTypes.Proofs.Capture.Repetition
import LiveTypes.Redirection.Version

/-!
# Redirecting with one repeated version more

Redirecting sees of a type what the repetition of a version leaves as it is, and the number of the
current version. So with the repetition a version is accepted or refused alike, its redirected bodies are
the same, and its bindings are the same but for the numbers of hosts (`TypeUnit.redirect_shifted`).
-/

namespace LiveTypes

variable {q : Repetition}

/-- A type as code sees it that is redirected, without and with the repetition. -/
structure LiveType.Looks (q : Repetition) (t t' : LiveType) : Prop where
  same : t' = { t with later := t'.later, table := t'.table }
  shape : Option.Rel (fun x y => q.After t.id x.1 ∧ y = (q.shift t.id x.1, x.2))
    t.currentShape? t'.currentShape?

/-- What the code of a version sees, without and with the repetition. -/
structure RedirectContext.Shifted (q : Repetition) (cx cx' : RedirectContext) : Prop where
  same : cx' = { cx with version := q.shift cx.typeId cx.version, registry := cx'.registry }
  after : q.After cx.typeId cx.version
  types : ∀ name,
    Option.Rel (LiveType.Looks q) (cx.registry.find? name) (cx'.registry.find? name)

/-- What redirecting has made, without and with the repetition. -/
structure RedirectState.Shifted (q : Repetition) (s s' : RedirectState) : Prop where
  same : s' = { s with bindings := s'.bindings }
  bindings : List.Forall₂ (SiteBinding.Shifted q) s.bindings.toList s'.bindings.toList

inductive Owner.Shifted (q : Repetition) : Owner → Owner → Prop
  | own : Shifted q .own .own
  | registered {t t' : LiveType} (h : t.Looks q t') : Shifted q (.registered t) (.registered t')
  | lateBound : Shifted q .lateBound .lateBound

/-- A redirected version, without and with the repetition: at most the executor unit has another
name. -/
structure RedirectedVersion.Shifted (q : Repetition) (x y : RedirectedVersion) : Prop where
  executor : y.executor = { x.executor with name := y.executor.name }
  bindings : List.Forall₂ (SiteBinding.Shifted q) x.bindings y.bindings

namespace RedirectState.Shifted

variable {s s' : RedirectState}

lemma constants_eq (h : s.Shifted q s') : s'.constants = s.constants := by
  rw [h.same]

lemma countSlot (h : s.Shifted q s') : s.countSlot.Shifted q s'.countSlot := by
  refine ⟨?_, h.bindings⟩
  rw [h.same]
  rfl

lemma countExtension (h : s.Shifted q s') : s.countExtension.Shifted q s'.countExtension := by
  refine ⟨?_, h.bindings⟩
  rw [h.same]
  rfl

lemma countDynamic (h : s.Shifted q s') : s.countDynamic.Shifted q s'.countDynamic := by
  refine ⟨?_, h.bindings⟩
  rw [h.same]
  rfl

lemma addSite (h : s.Shifted q s') (constants : ConstantPool) {b b' : SiteBinding}
    (hb : b.Shifted q b') : (s.addSite constants b).Shifted q (s'.addSite constants b') := by
  constructor
  · rw [h.same]
    rfl
  · simp only [RedirectState.addSite, Array.toList_push]
    exact List.rel_append h.bindings (.cons hb .nil)

end RedirectState.Shifted

namespace Redirection

variable {cx cx' : RedirectContext} {u : TypeUnit} {m : MethodDecl} {s s' : RedirectState}

open Outcome

/-- Whether redirecting gave the same, with states that are the same but for the repetition. -/
abbrev SameWith (q : Repetition) {α : Type} (x y : α × RedirectState) : Prop :=
  y.1 = x.1 ∧ x.2.Shifted q y.2

lemma alike_owner (h : cx.Shifted q cx') (name : String) :
    Alike (Owner.Shifted q) (owner cx u name) (owner cx' u name) := by
  unfold owner
  split
  · exact .ok .own
  · rcases rel_cases (h.types name) with ⟨hnone, hnone'⟩ | ⟨t, t', ht, ht', htt⟩
    · rw [hnone, hnone']
      dsimp only
      split
      · exact .ok .lateBound
      · exact .error _
    · rw [ht, ht']
      exact .ok (.registered htt)

lemma alike_ownFieldAccess (h : cx.Shifted q cx') (hs : s.Shifted q s') (write : Bool)
    (i : Instruction) (a b : UInt32) (name : String) :
    Alike (SameWith q) (ownFieldAccess cx u m write i a b name s)
      (ownFieldAccess cx' u m write i a b name s') := by
  have hlayout : cx'.layout = cx.layout := by rw [h.same]
  unfold ownFieldAccess
  rw [hlayout]
  cases u.field? name with
  | none => exact .error _
  | some f =>
    refine .ite (fun _ => .error _) fun _ => .ite (fun _ => ?_) fun _ => ?_
    · refine .ite (fun _ => .error _) fun _ => .ite (fun _ => ?_) fun _ => ?_
      · exact .ok ⟨rfl, hs⟩
      · exact .ok ⟨rfl, hs⟩
    · cases cx.layout.slot? name with
      | none => exact .ok ⟨rfl, hs.countExtension⟩
      | some slot => exact .ok ⟨rfl, hs.countSlot⟩

lemma alike_fieldAccess (h : cx.Shifted q cx') (hs : s.Shifted q s') (write : Bool)
    (i : Instruction) (a b : UInt32) :
    Alike (SameWith q) (fieldAccess cx u m write i a b s) (fieldAccess cx' u m write i a b s') := by
  unfold fieldAccess
  rw [hs.constants_eq]
  refine .after fun ownerName => .after fun name => ?_
  refine (alike_owner h ownerName).bind fun o o' ho => ?_
  cases ho with
  | own => exact alike_ownFieldAccess h hs write i a b name
  | lateBound => exact .ok ⟨rfl, hs.countExtension⟩
  | @registered t t' ht =>
    rw [ht.same]
    refine .ite (fun _ => .error _) fun _ => ?_
    dsimp only
    cases t.layout.slot? name with
    | some slot => exact .ok ⟨rfl, hs.countSlot⟩
    | none => exact .ite (fun _ => .error _) fun _ => .ok ⟨rfl, hs.countExtension⟩

lemma alike_invocation (h : cx.Shifted q cx') (hs : s.Shifted q s') (isStatic : Bool)
    (i : Instruction) (a b : UInt32) :
    Alike (SameWith q) (invocation cx u m isStatic i a b s)
      (invocation cx' u m isStatic i a b s') := by
  have hloaded : cx'.loadedMethods = cx.loadedMethods := by rw [h.same]
  unfold invocation
  rw [hs.constants_eq, hloaded]
  refine .after fun ownerName => .after fun key => ?_
  refine (alike_owner h ownerName).bind fun o o' ho => ?_
  have hrest (loaded : Option Bool) : Alike (SameWith q)
      (if loaded = some isStatic then (.ok (i, s) : Except RejectReason _) else
        .ok ({ i with opcode := if isStatic then .invokeDynamicStatic else .invokeDynamicVirtual },
          s.countDynamic))
      (if loaded = some isStatic then .ok (i, s') else
        .ok ({ i with opcode := if isStatic then .invokeDynamicStatic else .invokeDynamicVirtual },
          s'.countDynamic)) := by
    exact .ite (fun _ => .ok ⟨rfl, hs⟩) fun _ => .ok ⟨rfl, hs.countDynamic⟩
  cases ho with
  | own =>
    cases u.method? key with
    | none => exact .error _
    | some declared => exact .ite (fun _ => .error _) fun _ => hrest _
  | registered ht =>
    rw [ht.same]
    exact hrest _
  | lateBound => exact hrest none

lemma alike_allocation (h : cx.Shifted q cx') (hs : s.Shifted q s') (a : UInt32) :
    Alike (fun _ _ => True) (allocation cx u m a s) (allocation cx' u m a s') := by
  unfold allocation
  rw [hs.constants_eq]
  refine .after fun ownerName => (alike_owner h ownerName).bind fun o o' ho => ?_
  refine .of_eq ?_ fun _ => trivial
  cases ho with
  | own => rfl
  | registered ht =>
    rw [ht.same]
    rfl
  | lateBound => rfl

lemma alike_host (h : cx.Shifted q cx') (name : String) :
    Alike (fun x y => q.After x.1 x.2.1 ∧ y = (x.1, q.shift x.1 x.2.1, x.2.2))
      (host cx u m name) (host cx' u m name) := by
  unfold host
  refine (alike_owner h name).bind fun o o' ho => ?_
  cases ho with
  | own =>
    rw [h.same]
    exact .ite (fun _ => .ok ⟨h.after, rfl⟩) fun _ => .error _
  | @registered t t' ht =>
    have hid : t'.id = t.id := by rw [ht.same]
    dsimp only
    rw [hid]
    rcases rel_cases ht.shape with ⟨hnone, hnone'⟩ | ⟨x, y, hx, hy, hafter, rfl⟩
    · rw [hnone, hnone']
      exact .error _
    · rw [hx, hy]
      exact .ok ⟨hafter, rfl⟩
  | lateBound => exact .error _

lemma alike_closureCreation (h : cx.Shifted q cx') (hs : s.Shifted q s') (ordinal : Nat)
    (i : Instruction) (a : UInt32) (count flags : UInt8) :
    Alike (SameWith q) (closureCreation cx u m ordinal i a count flags s)
      (closureCreation cx' u m ordinal i a count flags s') := by
  have htypeId : cx'.typeId = cx.typeId := by rw [h.same]
  unfold closureCreation
  rw [hs.constants_eq, htypeId]
  refine .after fun hostName => (alike_host h hostName).bind ?_
  rintro ⟨hostId, version, shape⟩ _ ⟨hafter, rfl⟩
  refine .ite (fun _ => .error _) fun _ => .ite (fun _ => .error _) fun _ => ?_
  exact .ok ⟨rfl, hs.addSite _ ⟨hafter, rfl⟩⟩

lemma alike_instruction (h : cx.Shifted q cx') (hs : s.Shifted q s') (ordinal : Nat)
    (i : Instruction) :
    Alike (SameWith q) (instruction cx u m ordinal i s) (instruction cx' u m ordinal i s') := by
  unfold instruction
  refine .ite (fun _ => .error _) fun _ => ?_
  split
  · exact alike_fieldAccess h hs false i _ _
  · exact alike_fieldAccess h hs true i _ _
  · exact alike_invocation h hs true i _ _
  · exact alike_invocation h hs false i _ _
  · exact (alike_allocation h hs _).map fun _ _ _ => ⟨rfl, hs⟩
  · exact alike_closureCreation h hs ordinal i _ _ _
  · exact .ok ⟨rfl, hs⟩

lemma alike_instructions (h : cx.Shifted q cx') (hs : s.Shifted q s') (ordinal : Nat)
    (l : List Instruction) :
    Alike (SameWith q) (instructions cx u m ordinal s l) (instructions cx' u m ordinal s' l) := by
  induction l generalizing ordinal s s' with
  | nil => exact .ok ⟨rfl, hs⟩
  | cons i rest ih =>
    refine (alike_instruction h hs ordinal i).bind ?_
    rintro ⟨j, s₁⟩ ⟨_, s₁'⟩ ⟨rfl, hs₁⟩
    refine (ih hs₁ _).bind ?_
    rintro ⟨rest', s₂⟩ ⟨_, s₂'⟩ ⟨rfl, hs₂⟩
    exact .ok ⟨rfl, hs₂⟩

lemma alike_method (h : cx.Shifted q cx') (hs : s.Shifted q s') :
    Alike (SameWith q) (method cx u m s) (method cx' u m s') := by
  unfold method
  cases Instruction.decodeAll m.code with
  | error e => exact .error _
  | ok l =>
    refine (alike_instructions h hs 0 l).bind ?_
    rintro ⟨l', s₁⟩ ⟨_, s₁'⟩ ⟨rfl, hs₁⟩
    exact .ok ⟨rfl, hs₁⟩

lemma alike_methods (h : cx.Shifted q cx') (hs : s.Shifted q s') (ms : List MethodDecl) :
    Alike (SameWith q) (methods cx u s ms) (methods cx' u s' ms) := by
  induction ms generalizing s s' with
  | nil => exact .ok ⟨rfl, hs⟩
  | cons m rest ih =>
    refine (alike_method h hs).bind ?_
    rintro ⟨m', s₁⟩ ⟨_, s₁'⟩ ⟨rfl, hs₁⟩
    refine (ih hs₁).bind ?_
    rintro ⟨rest', s₂⟩ ⟨_, s₂'⟩ ⟨rfl, hs₂⟩
    exact .ok ⟨rfl, hs₂⟩

end Redirection

/-- A version is redirected with the repetition as it is without it. -/
theorem TypeUnit.redirect_shifted {cx cx' : RedirectContext} (u : TypeUnit) (h : cx.Shifted q cx')
    (verify : Bool) :
    Outcome.Alike (RedirectedVersion.Shifted q) (u.redirect cx verify) (u.redirect cx' verify) := by
  unfold redirect
  refine (Redirection.alike_methods h (s := .start u.constants) ⟨rfl, .nil⟩ u.methods).bind ?_
  rintro ⟨_, s⟩ ⟨ms, s'⟩ ⟨rfl, hs⟩
  dsimp only
  rw [hs.constants_eq]
  -- the check does not look at the name of the executor
  have hverify : (u.executor cx'.version s.constants ms).verify .engine =
      (u.executor cx.version s.constants ms).verify .engine := rfl
  rw [hverify]
  refine .ite (fun _ => .after fun _ => ?_) fun _ => ?_
  · exact .ok ⟨rfl, hs.bindings⟩
  · exact .ok ⟨rfl, hs.bindings⟩

end LiveTypes
