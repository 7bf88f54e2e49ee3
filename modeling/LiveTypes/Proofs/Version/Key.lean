import LiveTypes.Proofs.TypeUnit.Canonical
import LiveTypes.Proofs.TypeUnit.Verify
import LiveTypes.Proofs.Version.Dispatcher
import Mathlib.Data.List.Nodup

/-!
# Keys and the methods they stand for

A unit stores the name of a method and its descriptor apart, and everything else goes by the key, which
is one text after the other. The key is read back as the signature when the name is legible: not empty,
and without the bracket at which a key is taken apart (`Signature.parseKey_eq_ok_iff`). Neither reading
nor verifying a unit asks for that. The dispatchers of a unit are the first to refer to its keys, so
they are verified just when every key reads as some signature (`TypeUnit.verify_dispatcher_iff`).
-/

namespace LiveTypes

/-! ### Keys of a unit that was read -/

lemma MethodDecl.signature_of_read {m : MethodDecl} {c c' : Cursor}
    (h : MethodDecl.read c = .ok m c') :
    Signature.ofParts m.signature.name m.signature.descriptor.text = .ok m.signature := by
  simp only [MethodDecl.read, Decoder.bind_eq_ok, Decoder.pure_eq_ok, Decoder.ofDescriptor_eq_ok] at h
  obtain ⟨name, _, -, text, _, -, signature, _, ⟨hsignature, -⟩, flags, _, -, throws, _, -, locals, _,
    -, code, _, -, rfl, -⟩ := h
  obtain ⟨hname, htypes, hresult, htext⟩ := Signature.ofParts_eq_ok_iff.mp hsignature
  exact Signature.ofParts_eq_ok_iff.mpr ⟨rfl, htypes, hresult, rfl⟩

namespace TypeUnit

variable {u d : TypeUnit} {data : List UInt8}

/-- The key of a method that was read from bytes is read back just when its signature is legible. -/
lemma parseKey_key_iff (h : decode data = .ok u) {m : MethodDecl} (hm : m ∈ u.methods) :
    Signature.parseKey m.key = .ok m.signature ↔ m.signature.Legible := by
  obtain ⟨-, _, _, hmethods⟩ := tables_of_decode h
  obtain ⟨_, _, hread⟩ := (Decoder.table_eq_ok hmethods).2 m hm
  have hparts := MethodDecl.signature_of_read hread
  exact Signature.parseKey_eq_ok_iff.trans ⟨And.left, fun hlegible => ⟨hlegible, hparts, rfl⟩⟩

/-- A method with a key that no other one has is found by it. -/
lemma Verified.method?_key (hu : u.Verified) {m : MethodDecl} (hm : m ∈ u.methods) :
    u.method? m.key = some m := by
  obtain ⟨m', hm'⟩ : ∃ m', u.method? m.key = some m' := by
    rw [← Option.isSome_iff_exists, method?, List.find?_isSome]
    exact ⟨m, hm, by simp⟩
  have hkey : m'.key = m.key := by simpa using List.find?_some hm'
  rw [hm', List.inj_on_of_nodup_map hu.methods_nodup (List.mem_of_find?_eq_some hm') hm hkey]

end TypeUnit

/-! ### The dispatchers of a unit -/

namespace Dispatcher

open Instruction

/-- There are dispatchers for methods whose arguments can be counted. -/
lemma exists_methods {ms : List MethodDecl} (hfew : ∀ m ∈ ms, m.argSlots < 0x10000)
    (constants : ConstantPool) : ∃ constants' ms', methods constants ms = .ok (constants', ms') := by
  induction ms generalizing constants with
  | nil => exact ⟨constants, [], rfl⟩
  | cons m rest ih =>
    obtain ⟨hm, hrest⟩ := List.forall_mem_cons.mp hfew
    obtain ⟨constants', rest', hmethods⟩ := ih hrest (constants.intern m.key).2
    simp only [methods, if_neg (Nat.not_le.mpr hm), hmethods, Outcome.ok_bind]
    exact ⟨_, _, rfl⟩

/-- The dispatchers of methods have the keys of the methods. -/
lemma keys_of_methods {constants constants' : ConstantPool} {ms ms' : List MethodDecl}
    (h : methods constants ms = .ok (constants', ms')) :
    ms'.map MethodDecl.key = ms.map MethodDecl.key := by
  induction ms generalizing constants constants' ms' with
  | nil =>
    obtain ⟨rfl, rfl⟩ := Prod.mk.inj (Except.ok.inj h)
    rfl
  | cons m rest ih =>
    rw [methods] at h
    split at h
    · cases h
    · simp only [Outcome.bind_eq_ok] at h
      obtain ⟨⟨constants₁, rest'⟩, hrest, h⟩ := h
      obtain ⟨rfl, rfl⟩ := Prod.mk.inj (Outcome.pure_eq_ok.mp h)
      rw [List.map_cons, List.map_cons, ih hrest]
      rfl

/-- The instructions of a dispatcher are verified just when its constant is a signature key. -/
lemma verified_instructions_iff {constants : ConstantPool} {signature : UInt32} {argc size : Nat}
    {returnsValue : Bool} (hfew : argc < 0x10000) :
    (∀ i ∈ instructions signature argc returnsValue, i.Verified constants (UInt16.ofNat argc) size
      (instructions signature argc returnsValue)) ↔
    (ConstantUse.signature signature).Resolves constants := by
  constructor
  · intro h
    have hdispatch : (⟨3 * argc, .dispatch, .dispatch signature (UInt16.ofNat argc)⟩ : Instruction) ∈
        instructions signature argc returnsValue := by
      simp [instructions]
    exact (h _ hdispatch).uses _ List.mem_cons_self
  · intro hkey i hi
    simp only [instructions, loads, List.mem_append, List.mem_map, List.mem_range, List.mem_cons,
      List.not_mem_nil, or_false] at hi
    rcases hi with ⟨n, hn, rfl⟩ | rfl | rfl
    · refine ⟨by simp [Instruction.jumpTarget?], ?_, by simp [Instruction.constantUses]⟩
      rintro index ⟨⟩
      rw [UInt16.lt_iff_toNat_lt, UInt16.toNat_ofNat_of_lt' (Nat.lt_trans hn hfew),
        UInt16.toNat_ofNat_of_lt' hfew]
      exact hn
    · refine ⟨by simp [Instruction.jumpTarget?], by simp, ?_⟩
      simpa [Instruction.constantUses] using hkey
    · cases returnsValue <;>
        exact ⟨by simp [Instruction.jumpTarget?], by simp, by simp [Instruction.constantUses]⟩

/-- The dispatcher of a method is verified just when the key of the method is read as a signature. -/
lemma Forwards.verified_iff {constants : ConstantPool} {m m' : MethodDecl}
    (h : Forwards constants m m') (hfull : ¬ constants.Overfull) :
    (∃ body, m'.Verified constants body) ↔ ∃ s, Signature.parseKey m.key = .ok s := by
  obtain ⟨code, rfl⟩ := h.same
  obtain ⟨index, hcode, hindex⟩ := h.body
  obtain rfl : code = Dispatcher.body index m.argSlots m.signature.returnsValue := hcode
  have hresolves : (ConstantUse.signature index).Resolves constants ↔
      ∃ s, Signature.parseKey m.key = .ok s := by
    simp [ConstantUse.Resolves, hindex.resolve_left hfull]
  rw [← hresolves, ← verified_instructions_iff h.few]
  constructor
  · rintro ⟨l, hl⟩
    obtain rfl := Except.ok.inj (hl.decoded.symm.trans (decodeAll_body _ _ _))
    exact hl.each
  · intro heach
    refine ⟨_, ?_, decodeAll_body _ _ _, ?_, heach⟩
    · show m.argSlots ≤ (UInt16.ofNat m.argSlots).toNat
      exact Nat.le_of_eq (UInt16.toNat_ofNat_of_lt' h.few).symm
    · cases m.signature.returnsValue <;> exact ⟨_, by simp [instructions]; rfl, rfl⟩

end Dispatcher

namespace TypeUnit

variable {u d : TypeUnit} {data : List UInt8}

/-- A verified unit has dispatchers. -/
lemma Verified.exists_dispatcher (hu : u.Verified) : ∃ d, u.dispatcher = .ok d := by
  have hfew : ∀ m ∈ u.methods, m.argSlots < 0x10000 := fun m hm => by
    obtain ⟨body, hbody⟩ := hu.bodies m hm
    exact Nat.lt_of_le_of_lt hbody.arguments_le m.locals.toNat_lt
  obtain ⟨constants, methods, hmethods⟩ := Dispatcher.exists_methods hfew .empty
  exact ⟨{ u with access := u.access ||| Access.dispatching, constants, methods }, by
    rw [dispatcher, hmethods]
    rfl⟩

/-- Dispatchers are verified just when the key of every method is read as a signature. -/
theorem verify_dispatcher_iff (hu : u.Verified) (hfew : u.methods.length < UInt32.size)
    (h : u.dispatcher = .ok d) :
    d.verify .engine = .ok () ↔ ∀ m ∈ u.methods, ∃ s, Signature.parseKey m.key = .ok s := by
  obtain ⟨hsize, hof, hfrom⟩ := forwards_of_dispatcher h
  have hfull : ¬ d.constants.Overfull := Nat.not_lt.mpr (by omega)
  have hmembers : d.fields = u.fields ∧ d.methods.map MethodDecl.key = u.methods.map MethodDecl.key := by
    obtain ⟨constants, methods, hmethods, rfl⟩ := dispatcher_eq_ok.mp h
    exact ⟨rfl, Dispatcher.keys_of_methods hmethods⟩
  constructor
  · intro hverify m hm
    obtain ⟨m', hm', hforwards⟩ := hof m hm
    exact (hforwards.verified_iff hfull).mp ((verified_of_verify hverify).bodies m' hm')
  · intro hkeys
    refine Verified.verify_engine ⟨?_, ?_, fun m' hm' => ?_⟩
    · rw [hmembers.1]
      exact hu.fields_nodup
    · rw [hmembers.2]
      exact hu.methods_nodup
    · obtain ⟨m, hm, hforwards⟩ := hfrom m' hm'
      exact (hforwards.verified_iff hfull).mpr (hkeys m hm)

/-- What the keys of a unit tell that was read from bytes and verified. A key stands for one method, and
is read as the signature of that method just when the signature is legible. There are dispatchers, and
they are verified just when every key is read as a signature. -/
theorem keys_of_decode (hdecode : decode data = .ok u) (hverify : u.verify .source = .ok ()) :
    (∀ m ∈ u.methods, u.method? m.key = some m ∧
      (Signature.parseKey m.key = .ok m.signature ↔ m.signature.Legible)) ∧
    ∃ d, u.dispatcher = .ok d ∧
      (d.verify .engine = .ok () ↔ ∀ m ∈ u.methods, ∃ s, Signature.parseKey m.key = .ok s) := by
  have hu := verified_of_verify hverify
  obtain ⟨d, hd⟩ := hu.exists_dispatcher
  exact ⟨fun m hm => ⟨hu.method?_key hm, parseKey_key_iff hdecode hm⟩, d, hd,
    verify_dispatcher_iff hu (bounded_of_decode hdecode).methods_length hd⟩

/-- A method without arguments or result, that does nothing. -/
def idle (name : String) : MethodDecl where
  signature := ⟨name, ⟨[], .void⟩⟩
  flags := staticMethod
  throws := []
  locals := 0
  code := Instruction.encodeAll [⟨0, .retVoid, .none⟩]

def idling (names : List String) : TypeUnit where
  formatFlags := 0
  name := "a.T"
  superName := none
  access := Access.isPublic
  constants := .empty
  fields := []
  methods := names.map idle
  attributes := []

set_option maxRecDepth 100000 in
/-- With names that end at their brackets, the dispatchers are verified. -/
theorem keys_of_decode_legible :
    decode (idling ["run", ")"]).encode = .ok (idling ["run", ")"]) ∧
      (idling ["run", ")"]).verify .source = .ok () ∧
      ∃ d, (idling ["run", ")"]).dispatcher = .ok d ∧ d.verify .engine = .ok () := by
  have hdecode : decode (idling ["run", ")"]).encode = .ok (idling ["run", ")"]) := by
    decide +kernel
  have hverify : (idling ["run", ")"]).verify .source = .ok () := by decide +kernel
  obtain ⟨hkeys, d, hd, hiff⟩ := keys_of_decode hdecode hverify
  have hlegible : ∀ m ∈ (idling ["run", ")"]).methods, m.signature.Legible := by decide
  exact ⟨hdecode, hverify, d, hd,
    hiff.mpr fun m hm => ⟨m.signature, (hkeys m hm).2.mpr (hlegible m hm)⟩⟩

/-- A method with one parameter whose key reads as that of a method with two. -/
def bracketing : MethodDecl where
  signature := ⟨"f(ILa", ⟨[.object "b"], .i32⟩⟩
  flags := staticMethod
  throws := []
  locals := 1
  code := Instruction.encodeAll [⟨0, .constI32, .i32 0⟩, ⟨5, .ret, .none⟩]

/-- A unit with a method without a name, and one with a bracket in its name. -/
def illegible : TypeUnit := { idling [] with methods := [idle "", bracketing] }

set_option maxRecDepth 100000 in
/-- The unit is read and verified. But one of its keys is not read at all, so that its dispatchers are not
verified, and the other is read as the signature of another method. -/
theorem not_keys_of_decode_illegible :
    decode illegible.encode = .ok illegible ∧ illegible.verify .source = .ok () ∧
      idle "" ∈ illegible.methods ∧
      Signature.parseKey (idle "").key = .error (.malformedKey "()V") ∧
      bracketing ∈ illegible.methods ∧
      Signature.parseKey bracketing.key = .ok ⟨"f", ⟨[.i32, .object "a(Lb"], .i32⟩⟩ ∧
      ∃ d, illegible.dispatcher = .ok d ∧
        d.verify .engine = .error (.invalidSignature "()V" "()V" 0) := by
  refine ⟨by decide +kernel, by decide +kernel, by decide, by decide +kernel, by decide,
    by decide +kernel, ?_⟩
  have hfacts : (match illegible.dispatcher with
      | .ok d => decide (d.verify .engine = .error (.invalidSignature "()V" "()V" 0))
      | .error _ => false) = true := by
    decide +kernel
  split at hfacts
  · next d hd => exact ⟨d, hd, of_decide_eq_true hfacts⟩
  · cases hfacts

end TypeUnit

end LiveTypes
