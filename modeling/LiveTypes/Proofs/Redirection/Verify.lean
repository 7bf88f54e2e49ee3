import LiveTypes.Proofs.Alike
import LiveTypes.Proofs.Redirection.Version

/-!
# Redirected versions pass verification

What takes the place of an instruction lies where it lay, jumps to where it jumped and lets control
go on just when it did. It refers to constants that were there before, or to the one that was added
for it. So the executor unit of a verified unit is verified, whatever the registry, and asking for
the check makes no difference (`TypeUnit.verify_redirect`).
-/

namespace LiveTypes

/-- A constant that an instruction can use stays usable in a larger pool. -/
lemma ConstantUse.Resolves.mono {p q : ConstantPool} {use : ConstantUse}
    (hgrows : p.strings.toList <+: q.strings.toList) (h : use.Resolves p) : use.Resolves q := by
  cases use with
  | string index =>
    obtain ⟨text, htext⟩ := h
    exact ⟨text, ConstantPool.string?_mono hgrows htext⟩
  | signature index =>
    obtain ⟨key, signature, hkey, hsignature⟩ := h
    exact ⟨key, signature, ConstantPool.string?_mono hgrows hkey, hsignature⟩

/-- There is a string at the index that a text was given, also when the indices have run out. -/
lemma ConstantPool.exists_string?_intern (p : ConstantPool) (text : String) :
    ∃ found, (p.intern text).2.string? (p.intern text).1 = some found := by
  have hlt : (p.intern text).1.toNat < (p.intern text).2.strings.size := by
    unfold intern
    cases hindex : p.strings.idxOf? text with
    | some k =>
      have hindex : p.strings.toList.idxOf? text = some k := by
        rw [← List.idxOf?_toArray]
        exact hindex
      have hk : k < p.strings.size := by simpa using (List.idxOf?_eq_some_iff.mp hindex).1
      exact Nat.lt_of_le_of_lt (Nat.mod_le _ _) hk
    | none =>
      simp only [addString, Array.size_push]
      exact Nat.lt_succ_of_le (Nat.mod_le _ _)
  exact ⟨_, Array.getElem?_eq_getElem hlt⟩

/-- Whether an instruction can take the place of another in a verified body, whose constants grow at
the same time. -/
structure Instruction.Replaces (i' i : Instruction) (constants constants' : ConstantPool) :
    Prop where
  offset_eq : i'.offset = i.offset
  jump_eq : i'.jumpTarget? = i.jumpTarget?
  slot : ∀ index, i'.operands = .localSlot index → i.operands = .localSlot index
  terminator_eq : i'.opcode.isTerminator = i.opcode.isTerminator
  uses : (∀ use ∈ i.constantUses, use.Resolves constants) →
    ∀ use ∈ i'.constantUses, use.Resolves constants'

namespace Redirection

variable {cx : RedirectContext} {u : TypeUnit} {m : MethodDecl} {ordinal : Nat}
  {i i' : Instruction} {s s' : RedirectState}

lemma replaces_self (i : Instruction) (constants : ConstantPool) :
    i.Replaces i constants constants :=
  ⟨rfl, rfl, fun _ h => h, rfl, fun h => h⟩

/-- An access to a field may become any other that refers to no more than the access did. -/
lemma replaces_access {op : Opcode} {a b c : UInt32} {constants : ConstantPool}
    (haccess : i.opcode = .getField ∨ i.opcode = .putField) (hoperands : i.operands = .pair a b)
    (hop : (op = .getExtField ∨ op = .putExtField ∨ op = .getEnclosing) ∧ c = b ∨
      (op = .getFieldSlot ∨ op = .putFieldSlot ∨ op = .getCaptured)) :
    Instruction.Replaces { i with opcode := op, operands := .pair a c } i constants constants := by
  have huses : i.constantUses = [.string a, .string b] := by
    rcases haccess with haccess | haccess <;> simp [Instruction.constantUses, haccess, hoperands]
  have huses' : Instruction.constantUses { i with opcode := op, operands := .pair a c } ⊆
      [.string a, .string b] := by
    rcases hop with ⟨rfl | rfl | rfl, rfl⟩ | rfl | rfl | rfl <;> simp [Instruction.constantUses]
  refine ⟨rfl, ?_, ?_, ?_, fun h use huse => h use (huses ▸ huses' huse)⟩
  · simp [Instruction.jumpTarget?, hoperands]
  · intro _ hslot
    cases hslot
  · have hterminator : i.opcode.isTerminator = false := by
      rcases haccess with haccess | haccess <;> rw [haccess] <;> rfl
    rw [hterminator]
    rcases hop with ⟨rfl | rfl | rfl, -⟩ | rfl | rfl | rfl <;> rfl

lemma replaces_of_fieldAccess {write : Bool} {a b : UInt32}
    (haccess : i.opcode = .getField ∨ i.opcode = .putField) (hoperands : i.operands = .pair a b)
    (h : fieldAccess cx u m write i a b s = .ok (i', s')) :
    i'.Replaces i s.constants s'.constants := by
  obtain ⟨_, _, _, -, -, -, -, haccessed⟩ := fieldAccess_cases h
  cases haccessed with
  | captured _ hop =>
    exact replaces_access haccess hoperands
      (hop.imp (And.imp_left fun hop => .inr (.inr hop)) fun hop => .inr (.inr hop))
  | slot => exact replaces_access haccess hoperands (by cases write <;> simp)
  | byName => exact replaces_access haccess hoperands (by cases write <;> simp)

lemma replaces_of_invocation {isStatic : Bool} {a b : UInt32}
    (hop : i.opcode = if isStatic then .invokeStatic else .invokeVirtual)
    (hoperands : i.operands = .pair a b) (h : invocation cx u m isStatic i a b s = .ok (i', s')) :
    i'.Replaces i s.constants s'.constants := by
  obtain ⟨-, -, -, -, -, -, ⟨rfl, rfl⟩ | ⟨rfl, rfl⟩⟩ := invocation_cases h
  · exact replaces_self _ _
  · refine ⟨rfl, ?_, fun _ h => h, ?_, ?_⟩
    · simp [Instruction.jumpTarget?, hoperands]
    · rw [hop]
      cases isStatic <;> rfl
    · cases isStatic <;>
        simp [Instruction.constantUses, hop, hoperands, RedirectState.countDynamic]

/-- The site of a closure takes the place of its host, and is among the constants then. -/
lemma replaces_of_closureCreation {hostIndex : UInt32} {count flags : UInt8}
    (hop : i.opcode = .makeClosure) (hoperands : i.operands = .closure hostIndex count flags)
    (h : closureCreation cx u m ordinal i hostIndex count flags s = .ok (i', s')) :
    i'.Replaces i s.constants s'.constants := by
  simp only [closureCreation, Outcome.bind_eq_ok, Outcome.guard_eq_ok] at h
  obtain ⟨hostName, -, ⟨id, version, shape⟩, -, -, -, h⟩ := h
  obtain ⟨rfl, rfl⟩ := Prod.mk.inj (Outcome.pure_eq_ok.mp h)
  refine ⟨rfl, ?_, ?_, ?_, fun _ use huse => ?_⟩
  · simp [Instruction.jumpTarget?, hoperands]
  · intro _ hslot
    cases hslot
  · rw [hop]
    rfl
  · obtain rfl := List.mem_singleton.mp huse
    exact ConstantPool.exists_string?_intern _ _

/-- What redirecting gives for an instruction can take its place. -/
theorem replaces_of_instruction (h : instruction cx u m ordinal i s = .ok (i', s')) :
    i'.Replaces i s.constants s'.constants := by
  unfold instruction at h
  split at h
  · cases h
  · split at h
    · next hop hoperands => exact replaces_of_fieldAccess (.inl hop) hoperands h
    · next hop hoperands => exact replaces_of_fieldAccess (.inr hop) hoperands h
    · next hop hoperands => exact replaces_of_invocation (by rw [hop]; rfl) hoperands h
    · next hop hoperands => exact replaces_of_invocation (by rw [hop]; rfl) hoperands h
    · obtain ⟨_, -, hresult⟩ := Outcome.map_eq_ok.mp h
      obtain ⟨rfl, rfl⟩ := Prod.mk.inj hresult
      exact replaces_self _ _
    · next hop hoperands => exact replaces_of_closureCreation hop hoperands h
    · obtain ⟨rfl, rfl⟩ := Prod.mk.inj (Except.ok.inj h)
      exact replaces_self _ _

end Redirection

/-! ### Bodies -/

namespace Instruction

variable {p p' q q' : ConstantPool} {i i' : Instruction} {l l' : List Instruction}

/-- Fewer constants before and more after do no harm. -/
lemma Replaces.mono (h : i'.Replaces i p' q') (hp : p.strings.toList <+: p'.strings.toList)
    (hq : q'.strings.toList <+: q.strings.toList) : i'.Replaces i p q where
  offset_eq := h.offset_eq
  jump_eq := h.jump_eq
  slot := h.slot
  terminator_eq := h.terminator_eq
  uses huses use huse := (h.uses (fun use huse => (huses use huse).mono hp) use huse).mono hq

/-- Instructions that take the places of verified ones are verified. -/
lemma Verified.of_replaced {locals : UInt16} {size : Nat}
    (hall : List.Forall₂ (fun i i' => i'.Replaces i p q) l l') (h : i.Verified p locals size l)
    (hi : i'.Replaces i p q) : i'.Verified q locals size l' where
  jump target htarget := by
    obtain ⟨hnonneg, hlt, j, hj, hoffset⟩ := h.jump target (hi.jump_eq ▸ htarget)
    obtain ⟨j', hj', hreplaces⟩ := Outcome.exists_mem_of_forall₂ hall hj
    exact ⟨hnonneg, hlt, j', hj', hreplaces.offset_eq.trans hoffset⟩
  slot index hindex := h.slot index (hi.slot index hindex)
  uses := hi.uses h.uses

end Instruction

/-- A verified method is verified over more constants too. -/
lemma MethodDecl.Verified.mono {p q : ConstantPool} {m : MethodDecl} {body : List Instruction}
    (hgrows : p.strings.toList <+: q.strings.toList) (h : m.Verified p body) :
    m.Verified q body where
  arguments_le := h.arguments_le
  decoded := h.decoded
  terminated := h.terminated
  each i hi := ⟨(h.each i hi).jump, (h.each i hi).slot,
    fun use huse => ((h.each i hi).uses use huse).mono hgrows⟩

namespace Redirection

variable {cx : RedirectContext} {u : TypeUnit} {p : ConstantPool} {s s' : RedirectState}

lemma replaces_of_instructions {m : MethodDecl} {ordinal : Nat} {l l' : List Instruction}
    (hp : p.strings.toList <+: s.constants.strings.toList) (hfits : ∀ i ∈ l, i.Fits)
    (h : instructions cx u m ordinal s l = .ok (l', s')) :
    List.Forall₂ (fun i i' => i'.Replaces i p s'.constants) l l' := by
  induction l generalizing ordinal s l' s' with
  | nil =>
    obtain ⟨rfl, rfl⟩ := Prod.mk.inj (Except.ok.inj h)
    exact .nil
  | cons i rest ih =>
    obtain ⟨hi, hrest⟩ := List.forall_mem_cons.mp hfits
    obtain ⟨i', s₁, rest', hfirst, hothers, rfl⟩ := instructions_cons_eq_ok.mp h
    have hbefore := (redirected_of_instruction hi hfirst).grows.constants
    have hafter := (redirectedAll_of_instructions hrest hothers).grows.constants
    exact .cons ((replaces_of_instruction hfirst).mono hp hafter)
      (ih (hp.trans hbefore) hrest hothers)

/-- A verified method is redirected to a verified one. -/
lemma verified_of_method {m m' : MethodDecl} {body : List Instruction}
    (hp : p.strings.toList <+: s.constants.strings.toList) (hm : m.Verified p body)
    (h : method cx u m s = .ok (m', s')) :
    m'.key = m.key ∧ s.constants.strings.toList <+: s'.constants.strings.toList ∧
      ∃ body', m'.Verified s'.constants body' := by
  obtain ⟨l, body', hdecoded, hbody', rfl⟩ := method_eq_ok.mp h
  obtain rfl := Except.ok.inj (hm.decoded.symm.trans hdecoded)
  have htiles := (Instruction.tiles_of_decodeAll hm.decoded).1
  have hall := replaces_of_instructions hp htiles.fits hbody'
  have hredirected := redirectedAll_of_instructions htiles.fits hbody'
  have htiles' := hredirected.tiles htiles
  refine ⟨rfl, hredirected.grows.constants, body', hm.arguments_le,
    Instruction.decodeAll_encodeAll htiles', ?_, fun i' hi' => ?_⟩
  · obtain ⟨last, hlast, hterminator⟩ := hm.terminated
    rcases Outcome.rel_cases (Outcome.rel_getLast? hall) with ⟨hnone, -⟩ |
      ⟨j, last', hj, hlast', hreplaces⟩
    · rw [hlast] at hnone
      cases hnone
    · rw [hlast] at hj
      cases hj
      exact ⟨last', hlast', hreplaces.terminator_eq.trans hterminator⟩
  · obtain ⟨i, hi, hreplaces⟩ := Outcome.exists_mem_of_forall₂ hall.flip hi'
    rw [htiles'.length_encodeAll]
    exact .of_replaced hall (hm.each i hi) hreplaces

/-- Verified methods are redirected to verified ones with the same keys. -/
lemma verified_of_methods {ms ms' : List MethodDecl}
    (hp : p.strings.toList <+: s.constants.strings.toList)
    (hms : ∀ m ∈ ms, ∃ body, m.Verified p body) (h : methods cx u s ms = .ok (ms', s')) :
    ms'.map MethodDecl.key = ms.map MethodDecl.key ∧
      ∀ m' ∈ ms', ∃ body', m'.Verified s'.constants body' := by
  induction ms generalizing s ms' s' with
  | nil =>
    obtain ⟨rfl, rfl⟩ := Prod.mk.inj (Except.ok.inj h)
    simp
  | cons m rest ih =>
    obtain ⟨⟨body, hbody⟩, hrest⟩ := List.forall_mem_cons.mp hms
    obtain ⟨m', s₁, rest', hfirst, hothers, rfl⟩ := methods_cons_eq_ok.mp h
    obtain ⟨hkey, hbefore, body', hbody'⟩ := verified_of_method hp hbody hfirst
    obtain ⟨hkeys, hrest'⟩ := ih (hp.trans hbefore) hrest hothers
    have hafter := (redirectedMethods_of_methods hothers).grows.constants
    refine ⟨by simp [hkey, hkeys], List.forall_mem_cons.mpr ⟨⟨body', .mono hafter hbody'⟩, hrest'⟩⟩

end Redirection

/-! ### Versions -/

/-- The executor unit of a verified unit is verified. -/
lemma TypeUnit.Verified.executor {u : TypeUnit} {cx : RedirectContext}
    {redirected : RedirectedVersion} (hu : u.Verified)
    (h : u.redirect cx false = .ok redirected) : redirected.executor.Verified := by
  simp only [redirect, Outcome.bind_eq_ok] at h
  obtain ⟨⟨ms, s⟩, hms, h⟩ := h
  obtain rfl := Outcome.pure_eq_ok.mp h
  obtain ⟨hkeys, hbodies⟩ := Redirection.verified_of_methods (List.prefix_refl _) hu.bodies hms
  exact ⟨List.nodup_nil, hkeys ▸ hu.methods_nodup, hbodies⟩

/-- A verified unit whose methods are redirected is redirected, with the check as without. -/
lemma TypeUnit.Verified.redirect_of_methods {cx : RedirectContext} {u : TypeUnit} {s : RedirectState}
    {ms : List MethodDecl} (hu : u.Verified)
    (h : Redirection.methods cx u (.start u.constants) u.methods = .ok (ms, s)) (verify : Bool) :
    u.redirect cx verify =
      .ok ⟨u.executor cx.version s.constants ms, s.bindings.toList, s.stats⟩ := by
  have hunchecked : u.redirect cx false =
      .ok ⟨u.executor cx.version s.constants ms, s.bindings.toList, s.stats⟩ := by
    simp only [redirect, h]
    rfl
  cases verify with
  | false => exact hunchecked
  | true =>
    have hverify := (hu.executor hunchecked).verify_engine
    simp only [redirect, h, Outcome.ok_bind, hverify]
    rfl

/-- The check of a redirected version never fails for a unit from a compiler that was checked before
it was redirected, so asking for it makes no difference. -/
theorem TypeUnit.verify_redirect {u : TypeUnit} (cx : RedirectContext)
    (hu : u.verify .source = .ok ()) :
    (∀ redirected, u.redirect cx false = .ok redirected →
      redirected.executor.verify .engine = .ok ()) ∧
    u.redirect cx true = u.redirect cx false := by
  have hverified : u.Verified := verified_of_verify hu
  refine ⟨fun redirected h => (hverified.executor h).verify_engine, ?_⟩
  cases hms : Redirection.methods cx u (.start u.constants) u.methods with
  | error e => simp only [redirect, hms, bind, Except.bind]
  | ok result =>
    rw [hverified.redirect_of_methods hms true, hverified.redirect_of_methods hms false]

/-- A closure host that reads a captured and another field, calls a method of its own, jumps and
creates a closure of itself. -/
def adderHost : TypeUnit where
  formatFlags := 0
  name := "a.S"
  superName := none
  access := Access.isPublic ||| Access.closureHost
  constants := ⟨#["a.S", "x", "y", "seven()I"], [], []⟩
  fields := [⟨"x", .i32, capturedField⟩, ⟨"y", .i32, 0⟩]
  methods := [
    ⟨⟨"seven", ⟨[], .i32⟩⟩, staticMethod, [], 0, Instruction.encodeAll
      [⟨0, .constI32, .i32 7⟩, ⟨5, .ret, .none⟩]⟩,
    ⟨⟨"sum", ⟨[], .i32⟩⟩, 0, [], 1, Instruction.encodeAll
      [⟨0, .loadLocal, .localSlot 0⟩, ⟨3, .getField, .pair 0 1⟩, ⟨12, .loadLocal, .localSlot 0⟩,
        ⟨15, .getField, .pair 0 2⟩, ⟨24, .iadd, .none⟩, ⟨25, .ret, .none⟩]⟩,
    ⟨⟨"make", ⟨[], .object "a.S"⟩⟩, staticMethod, [], 0, Instruction.encodeAll
      [⟨0, .invokeStatic, .pair 0 3⟩, ⟨9, .jmp, .jump 0⟩, ⟨14, .makeClosure, .closure 0 1 0⟩,
        ⟨21, .ret, .none⟩]⟩]
  attributes := []

/-- A context in which the first version had no members. -/
def bareContext : RedirectContext :=
  .ofBaseline 0 1 { adderHost with fields := [], methods := [] } (Registry.create .default)

/-- The host is redirected with an access by name, a call by name and a site, and passes. -/
theorem TypeUnit.verify_redirect_adderHost :
    adderHost.verify .source = .ok () ∧
      ∃ redirected, adderHost.redirect bareContext false = .ok redirected ∧
        redirected.stats = ⟨0, 1, 1, 1⟩ ∧ redirected.executor.verify .engine = .ok () ∧
        adderHost.redirect bareContext true = .ok redirected := by
  have hfacts : adderHost.verify .source = .ok () ∧
      (adderHost.redirect bareContext false).toOption.any
        (fun redirected => redirected.stats = ⟨0, 1, 1, 1⟩) = true := by
    decide +kernel
  obtain ⟨hverify, hstats⟩ := hfacts
  obtain ⟨hexecutor, hsame⟩ := TypeUnit.verify_redirect bareContext hverify
  obtain ⟨redirected, hredirect, hstats⟩ := (Option.any_eq_true _ _).mp hstats
  rw [Outcome.toOption_eq_some] at hredirect
  exact ⟨hverify, redirected, hredirect, of_decide_eq_true hstats, hexecutor redirected hredirect,
    hsame.trans hredirect⟩

end LiveTypes
