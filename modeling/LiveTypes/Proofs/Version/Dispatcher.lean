import LiveTypes.Proofs.Code.Tiling
import LiveTypes.Proofs.Outcome
import LiveTypes.Proofs.TypeUnit.ConstantPool
import LiveTypes.Version.Dispatcher
import LiveTypes.Version.Executable

/-!
# What dispatchers are made of

The body of a dispatcher decodes to the instructions that it was made of: it loads its arguments,
calls the current implementation and returns.
-/

namespace LiveTypes

namespace Dispatcher

open Instruction

def loads (argc : Nat) : List Instruction :=
  (List.range argc).map fun n => ⟨3 * n, .loadLocal, .localSlot (UInt16.ofNat n)⟩

def instructions (signature : UInt32) (argc : Nat) (returnsValue : Bool) : List Instruction :=
  loads argc ++ [⟨3 * argc, .dispatch, .dispatch signature (UInt16.ofNat argc)⟩,
    ⟨3 * argc + 7, if returnsValue then .ret else .retVoid, .none⟩]

lemma tiles_loads (argc : Nat) : Tiles 0 (loads argc) (3 * argc) := by
  induction argc with
  | zero => rfl
  | succ n ih =>
    rw [loads, List.range_succ, List.map_append]
    exact ih.append ⟨rfl, rfl, rfl⟩

lemma tiles_instructions (signature : UInt32) (argc : Nat) (returnsValue : Bool) :
    Tiles 0 (instructions signature argc returnsValue) (3 * argc + 8) := by
  refine (tiles_loads argc).append ⟨rfl, rfl, rfl, ?_, ?_⟩ <;> cases returnsValue <;> rfl

lemma encodeAll_instructions (signature : UInt32) (argc : Nat) (returnsValue : Bool) :
    encodeAll (instructions signature argc returnsValue) = body signature argc returnsValue := by
  have hloads : encodeAll (loads argc) = (List.range argc).flatMap fun n =>
      emit .loadLocal (.localSlot (UInt16.ofNat n)) :=
    List.flatMap_map _ _ _
  have happend (l l' : List Instruction) : encodeAll (l ++ l') = encodeAll l ++ encodeAll l' :=
    List.flatMap_append
  rw [instructions, happend, hloads, body, List.append_assoc]
  simp [encodeAll, encode, emit]

theorem decodeAll_body (signature : UInt32) (argc : Nat) (returnsValue : Bool) :
    decodeAll (body signature argc returnsValue) =
      .ok (instructions signature argc returnsValue) := by
  rw [← encodeAll_instructions]
  exact decodeAll_encodeAll (tiles_instructions signature argc returnsValue)

lemma opcode_of_mem {signature : UInt32} {argc : Nat} {returnsValue : Bool} {i : Instruction}
    (h : i ∈ instructions signature argc returnsValue) :
    i.opcode = .loadLocal ∨ i.opcode = .dispatch ∨ i.opcode = .ret ∨ i.opcode = .retVoid := by
  rcases List.mem_append.mp h with h | h
  · obtain ⟨n, -, rfl⟩ := List.mem_map.mp h
    exact .inl rfl
  · cases returnsValue <;> simp at h <;> rcases h with rfl | rfl <;> simp

/-- Whether a method passes its arguments on to the implementation of another one, whose key is found
in a pool. -/
structure Forwards (constants : ConstantPool) (m m' : MethodDecl) : Prop where
  few : m.argSlots < 0x10000
  same : ∃ code, m' = { m with locals := UInt16.ofNat m.argSlots, code }
  body : ∃ index, m'.code = Dispatcher.body index m.argSlots m.signature.returnsValue ∧
    (constants.Overfull ∨ constants.string? index = some m.key)

lemma Forwards.key_eq {constants : ConstantPool} {m m' : MethodDecl} (h : Forwards constants m m') :
    m'.key = m.key := by
  obtain ⟨code, rfl⟩ := h.same
  rfl

/-- There is a dispatcher for each method, over a pool with at most one string for each. -/
lemma forwards_of_methods {constants constants' : ConstantPool} {ms ms' : List MethodDecl}
    (h : methods constants ms = .ok (constants', ms')) :
    constants.strings.toList <+: constants'.strings.toList ∧
      constants'.strings.size ≤ constants.strings.size + ms.length ∧
      (∀ m ∈ ms, ∃ m' ∈ ms', Forwards constants' m m') ∧
      ∀ m' ∈ ms', ∃ m ∈ ms, Forwards constants' m m' := by
  induction ms generalizing constants constants' ms' with
  | nil =>
    obtain ⟨rfl, rfl⟩ := Prod.mk.inj (Except.ok.inj h)
    simp
  | cons m rest ih =>
    rw [methods] at h
    split at h
    · cases h
    · next hfew =>
      simp only [Outcome.bind_eq_ok] at h
      obtain ⟨⟨constants₁, rest'⟩, hrest, h⟩ := h
      obtain ⟨rfl, rfl⟩ := Prod.mk.inj (Outcome.pure_eq_ok.mp h)
      obtain ⟨hgrow, hsize, hof, hfrom⟩ := ih hrest
      have hinterned := ConstantPool.size_intern_le constants m.key
      have hfirst : Forwards constants₁ m { m with
          locals := UInt16.ofNat m.argSlots
          code := body (constants.intern m.key).1 m.argSlots m.signature.returnsValue } :=
        ⟨Nat.not_le.mp hfew, ⟨_, rfl⟩, _, rfl, ConstantPool.string?_intern hgrow⟩
      refine ⟨(ConstantPool.strings_prefix_intern constants m.key).trans hgrow, ?_, ?_, ?_⟩
      · show constants₁.strings.size ≤ _
        rw [List.length_cons]
        omega
      · refine List.forall_mem_cons.mpr ⟨⟨_, List.mem_cons_self, hfirst⟩, fun m₀ hm₀ => ?_⟩
        obtain ⟨m', hm', hforwards⟩ := hof m₀ hm₀
        exact ⟨m', List.mem_cons_of_mem _ hm', hforwards⟩
      · refine List.forall_mem_cons.mpr ⟨⟨m, List.mem_cons_self, hfirst⟩, fun m' hm' => ?_⟩
        obtain ⟨m₀, hm₀, hforwards⟩ := hfrom m' hm'
        exact ⟨m₀, List.mem_cons_of_mem _ hm₀, hforwards⟩

end Dispatcher

/-- What a method declares besides its body: its signature, its flags and its exceptions. -/
def MethodDecl.declaration (m : MethodDecl) : Signature × UInt32 × List String :=
  (m.signature, m.flags, m.throws)

lemma Dispatcher.declarations_of_methods {constants constants' : ConstantPool}
    {ms ms' : List MethodDecl} (h : methods constants ms = .ok (constants', ms')) :
    ms'.map MethodDecl.declaration = ms.map MethodDecl.declaration := by
  induction ms generalizing constants constants' ms' with
  | nil =>
    obtain ⟨-, rfl⟩ := Prod.mk.inj (Except.ok.inj h)
    rfl
  | cons m rest ih =>
    rw [methods] at h
    split at h
    · cases h
    · simp only [Outcome.bind_eq_ok] at h
      obtain ⟨⟨_, rest'⟩, hrest, h⟩ := h
      obtain ⟨-, rfl⟩ := Prod.mk.inj (Outcome.pure_eq_ok.mp h)
      rw [List.map_cons, List.map_cons, ih hrest]
      rfl

/-- A unit that declares what another one does, whatever the bodies of its methods. -/
structure TypeUnit.Mirrors (d u : TypeUnit) : Prop where
  name_eq : d.name = u.name
  superName_eq : d.superName = u.superName
  fields_eq : d.fields = u.fields
  attributes_eq : d.attributes = u.attributes
  methods_eq : d.methods.map MethodDecl.declaration = u.methods.map MethodDecl.declaration

lemma TypeUnit.dispatcher_eq_ok {u d : TypeUnit} : u.dispatcher = .ok d ↔ ∃ constants methods,
    Dispatcher.methods .empty u.methods = .ok (constants, methods) ∧
      d = { u with access := u.access ||| Access.dispatching, constants, methods } := by
  simp only [dispatcher, Outcome.bind_eq_ok]
  constructor
  · rintro ⟨⟨constants, methods⟩, hmethods, h⟩
    exact ⟨constants, methods, hmethods, (Outcome.pure_eq_ok.mp h).symm⟩
  · rintro ⟨constants, methods, hmethods, rfl⟩
    exact ⟨(constants, methods), hmethods, rfl⟩

lemma TypeUnit.mirrors_of_dispatcher {u d : TypeUnit} (h : u.dispatcher = .ok d) : d.Mirrors u := by
  obtain ⟨constants, methods, hmethods, rfl⟩ := dispatcher_eq_ok.mp h
  exact ⟨rfl, rfl, rfl, rfl, Dispatcher.declarations_of_methods hmethods⟩

/-- The dispatchers of a unit, as long as there are indices for all its keys. -/
lemma TypeUnit.forwards_of_dispatcher {u d : TypeUnit} (h : u.dispatcher = .ok d) :
    d.constants.strings.size ≤ u.methods.length ∧
      (∀ m ∈ u.methods, ∃ m' ∈ d.methods, Dispatcher.Forwards d.constants m m') ∧
      ∀ m' ∈ d.methods, ∃ m ∈ u.methods, Dispatcher.Forwards d.constants m m' := by
  obtain ⟨constants, methods, hmethods, rfl⟩ := dispatcher_eq_ok.mp h
  obtain ⟨-, hsize, hall⟩ := Dispatcher.forwards_of_methods hmethods
  exact ⟨by simpa [ConstantPool.empty] using hsize, hall⟩

/-- Whether an executable passes its arguments on to the implementation of its key. -/
structure Executable.IsDispatcher (d : Executable) : Prop where
  few : d.argSlots < 0x10000
  locals_eq : d.locals.toNat = d.argSlots
  code_eq : ∃ index, d.code = .ofBytes (Dispatcher.body index d.argSlots d.signature.returnsValue) ∧
    d.constants.string? index = some d.key

lemma Dispatcher.Forwards.isDispatcher {d : TypeUnit} {m m' : MethodDecl} {typeId version : Nat}
    {typeName : String} (h : Forwards d.constants m m') (hfull : ¬ d.constants.Overfull) :
    (ExecutorTable.executable d typeId typeName version m').IsDispatcher := by
  have hfew := h.few
  obtain ⟨code, rfl⟩ := h.same
  obtain ⟨index, hcode, hkey⟩ := h.body
  refine ⟨hfew, ?_, index, congrArg Listing.ofBytes hcode, hkey.resolve_left hfull⟩
  show (UInt16.ofNat m.argSlots).toNat = m.argSlots
  rw [UInt16.toNat_ofNat']
  exact Nat.mod_eq_of_lt hfew

/-- Every dispatcher has a body of that form. -/
lemma TypeUnit.code_of_dispatcher {u d : TypeUnit} (h : u.dispatcher = .ok d) :
    ∀ m ∈ d.methods, ∃ signature argc returnsValue,
      m.code = Dispatcher.body signature argc returnsValue := by
  intro m hm
  obtain ⟨m₀, -, hforwards⟩ := (forwards_of_dispatcher h).2.2 m hm
  obtain ⟨index, hcode, -⟩ := hforwards.body
  exact ⟨index, _, _, hcode⟩

end LiveTypes
