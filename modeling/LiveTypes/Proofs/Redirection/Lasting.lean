import LiveTypes.Proofs.Redirection.Footprint
import LiveTypes.Proofs.Registry.Sites

/-!
# Redirecting in a later registry

What redirecting reads of a registered type either never changes, such as its layout and its loaded
methods, or is only added to, such as the types of its fields. So a version that was redirected is
redirected to the same executor in a later registry, as long as the types that its code names were there
before (`TypeUnit.redirect_lasting`). A name that stands for no type yet is another matter: members of
it are resolved by name until there is such a type, and the type may turn out to host closures, which are
not allocated. Of the hosts of closures, only what they capture is read.
-/

namespace LiveTypes

/-! ### The names in code -/

namespace Instruction

/-- The constant with the name of the type whose member an instruction reaches. -/
def memberOwner? (i : Instruction) : Option UInt32 :=
  match i.opcode, i.operands with
  | .getField, .pair a _ | .putField, .pair a _ | .invokeStatic, .pair a _
  | .invokeVirtual, .pair a _ => some a
  | _, _ => none

/-- The constant with the name of the type that an instruction allocates. -/
def allocated? (i : Instruction) : Option UInt32 :=
  match i.opcode, i.operands with
  | .new, .index a => some a
  | _, _ => none

/-- The constant with the name of the host of the closure that an instruction creates. -/
def createdHost? (i : Instruction) : Option UInt32 :=
  match i.opcode, i.operands with
  | .makeClosure, .closure a _ _ => some a
  | _, _ => none

end Instruction

/-- The names that instructions of a unit have among given constants. -/
def TypeUnit.named (u : TypeUnit) (constants : ConstantPool)
    (index? : Instruction → Option UInt32) : List String :=
  u.methods.flatMap fun m => m.instructions.filterMap fun i => (index? i).bind constants.string?

lemma TypeUnit.mem_named {u : TypeUnit} {constants : ConstantPool}
    {index? : Instruction → Option UInt32} {m : MethodDecl} {i : Instruction} {a : UInt32}
    {name : String} (hm : m ∈ u.methods) (hi : i ∈ m.instructions) (ha : index? i = some a)
    (hname : constants.string? a = some name) : name ∈ u.named constants index? := by
  refine List.mem_flatMap.mpr ⟨m, hm, List.mem_filterMap.mpr ⟨i, hi, ?_⟩⟩
  rw [ha]
  exact hname

/-- Whether the types that the code of a unit names are settled for it: those with members that it
reaches are registered, and so is each type that it allocates, or it does not come to host closures.
Hosts of its closures capture as many values later, and the enclosing instance as before. -/
structure TypeUnit.Settled (u : TypeUnit) (constants : ConstantPool) (r r' : Registry) : Prop where
  owners : ∀ name ∈ u.named constants Instruction.memberOwner?,
    name = u.name ∨ (r.find? name).isSome
  allocated : ∀ name ∈ u.named constants Instruction.allocated?,
    name = u.name ∨ (r.find? name).isSome ∨ ∀ q ∈ r'.find? name, q.isClosureHost = false
  hosts : ∀ name ∈ u.named constants Instruction.createdHost?, name ≠ u.name →
    ∀ q ∈ r.find? name, ∀ q' ∈ r'.find? name,
      q'.current.unit.hostShape.captured.length = q.current.unit.hostShape.captured.length ∧
      q'.current.unit.hostShape.capturesThis = q.current.unit.hostShape.capturesThis

instance (u : TypeUnit) (constants : ConstantPool) (r r' : Registry) :
    Decidable (u.Settled constants r r') :=
  decidable_of_iff
    ((∀ name ∈ u.named constants Instruction.memberOwner?,
        name = u.name ∨ (r.find? name).isSome) ∧
      (∀ name ∈ u.named constants Instruction.allocated?,
        name = u.name ∨ (r.find? name).isSome ∨ ∀ q ∈ r'.find? name, q.isClosureHost = false) ∧
      ∀ name ∈ u.named constants Instruction.createdHost?, name ≠ u.name →
        ∀ q ∈ r.find? name, ∀ q' ∈ r'.find? name,
          q'.current.unit.hostShape.captured.length = q.current.unit.hostShape.captured.length ∧
          q'.current.unit.hostShape.capturesThis = q.current.unit.hostShape.capturesThis)
    ⟨fun ⟨howners, hallocated, hhosts⟩ => ⟨howners, hallocated, hhosts⟩,
      fun h => ⟨h.owners, h.allocated, h.hosts⟩⟩

/-- Whether a registry has the types of another one, in later states, under their names. -/
def Registry.Outlasts (r' r : Registry) : Prop :=
  ∀ name q, r.find? name = some q → ∃ q', r'.find? name = some q' ∧ q.Continues q' ∧
    q'.current.unit.isClosureHost = q.current.unit.isClosureHost

/-- The owner that a name has later, when it stood for a type before. -/
inductive Owner.Lasts : Owner → Owner → Prop where
  | own : Lasts .own .own
  | registered {q q' : LiveType} (continues : q.Continues q')
      (closureHost_eq : q'.current.unit.isClosureHost = q.current.unit.isClosureHost) :
      Lasts (.registered q) (.registered q')

/-- Whether an owner hosts closures, so that it is not allocated. -/
def Owner.hosts (u : TypeUnit) : Owner → Bool
  | .own => u.isClosureHost
  | .registered q => q.isClosureHost
  | .lateBound => false

namespace Redirection

/-! ### Redirecting with the same result -/

/-- Whether a redirection that succeeds is matched by one with the same result, and the same constants
in its state. -/
def Matched {α : Type} (x y : Except RejectReason (α × RedirectState)) : Prop :=
  ∀ a s, x = .ok (a, s) → ∃ s₁, y = .ok (a, s₁) ∧ s₁.constants = s.constants

namespace Matched

variable {α β γ δ : Type} {x x' y y' : Except RejectReason (α × RedirectState)}

lemma ok {a : α} {s s₁ : RedirectState} (h : s₁.constants = s.constants) :
    Matched (.ok (a, s)) (.ok (a, s₁)) := by
  intro b s' heq
  obtain ⟨rfl, rfl⟩ := Prod.mk.inj (Except.ok.inj heq)
  exact ⟨s₁, rfl, h⟩

lemma error {e : RejectReason} : Matched (.error e) y := nofun

lemma throw {e : RejectReason} {f : β → Except RejectReason (α × RedirectState)} :
    Matched (MonadExcept.throw e >>= f) y := nofun

lemma ite {p : Prop} [Decidable p] (h : p → Matched x y) (h' : ¬ p → Matched x' y') :
    Matched (if p then x else x') (if p then y else y') := by
  split_ifs with hp
  · exact h hp
  · exact h' hp

lemma bind {e : Except RejectReason β} {e' : Except RejectReason γ}
    {f : β → Except RejectReason (α × RedirectState)}
    {g : γ → Except RejectReason (α × RedirectState)}
    (h : ∀ b, e = .ok b → ∃ c, e' = .ok c ∧ Matched (f b) (g c)) : Matched (e >>= f) (e' >>= g) := by
  intro a s hok
  obtain ⟨b, hb, hok⟩ := Outcome.bind_eq_ok.mp hok
  obtain ⟨c, hc, hmatched⟩ := h b hb
  obtain ⟨s₁, hs₁, hconstants⟩ := hmatched a s hok
  exact ⟨s₁, Outcome.bind_eq_ok.mpr ⟨c, hc, hs₁⟩, hconstants⟩

/-- What is read alike on both sides does not matter. -/
lemma bind_same {e : Except RejectReason β} {f g : β → Except RejectReason (α × RedirectState)}
    (h : ∀ b, e = .ok b → Matched (f b) (g b)) : Matched (e >>= f) (e >>= g) :=
  .bind fun b hb => ⟨b, hb, h b hb⟩

end Matched

variable {cx : RedirectContext} {u : TypeUnit} {m : MethodDecl} {r' : Registry} {i i' : Instruction}
  {s s' s₁ : RedirectState} {name : String}

/-! ### Owners -/

lemma owner_own : owner cx u u.name = .ok .own := if_pos rfl

lemma owner_registered {q : LiveType} (hne : name ≠ u.name)
    (hfind : cx.registry.find? name = some q) : owner cx u name = .ok (.registered q) := by
  rw [owner, if_neg hne, hfind]

/-- A name that stands for a type goes on standing for it. -/
lemma owner_lasts (hlater : r'.Outlasts cx.registry)
    (hname : name = u.name ∨ (cx.registry.find? name).isSome) {o : Owner}
    (ho : owner cx u name = .ok o) :
    ∃ o', owner { cx with registry := r' } u name = .ok o' ∧ o.Lasts o' := by
  by_cases hown : name = u.name
  · subst hown
    obtain rfl := Except.ok.inj (owner_own.symm.trans ho)
    exact ⟨.own, owner_own, .own⟩
  · obtain ⟨q, hq⟩ := Option.isSome_iff_exists.mp (hname.resolve_left hown)
    obtain ⟨q', hq', hcontinues, hhost⟩ := hlater name q hq
    obtain rfl := Except.ok.inj ((owner_registered hown hq).symm.trans ho)
    exact ⟨.registered q', owner_registered hown hq', .registered hcontinues hhost⟩

/-- Accesses to the fields of the type itself read nothing of the registry. -/
lemma ownFieldAccess_matched {write : Bool} {a b : UInt32} (hs : s₁.constants = s.constants) :
    Matched (ownFieldAccess cx u m write i a b name s)
      (ownFieldAccess { cx with registry := r' } u m write i a b name s₁) := by
  unfold ownFieldAccess
  cases u.field? name with
  | none => exact .error
  | some f =>
    refine .ite (fun _ => .error) fun _ => .ite (fun _ => ?_) fun _ => ?_
    · exact .ite (fun _ => .error) fun _ => .ite (fun _ => .ok hs) fun _ => .ok hs
    · dsimp only
      cases cx.layout.slot? name with
      | some slot => exact .ok hs
      | none => exact .ok hs

lemma fieldAccess_matched (hlater : r'.Outlasts cx.registry) {write : Bool} {a b : UInt32}
    (howner : ∀ name, s.constants.string? a = some name →
      name = u.name ∨ (cx.registry.find? name).isSome) (hs : s₁.constants = s.constants) :
    Matched (fieldAccess cx u m write i a b s)
      (fieldAccess { cx with registry := r' } u m write i a b s₁) := by
  unfold fieldAccess
  rw [hs]
  refine .bind_same fun ownerName hownerName => .bind_same fun name _ => .bind fun o ho => ?_
  obtain ⟨o', ho', hlasts⟩ := owner_lasts hlater (howner _ (string?_of_stringAt hownerName)) ho
  refine ⟨o', ho', ?_⟩
  cases hlasts with
  | own => exact ownFieldAccess_matched hs
  | @registered q q' hcontinues =>
    have hhost : q'.isClosureHost = q.isClosureHost := congrArg TypeUnit.isClosureHost hcontinues.loadedUnit_eq
    dsimp only
    rw [hhost, hcontinues.layout_eq]
    refine .ite (fun _ => .throw) fun _ => ?_
    cases q.layout.slot? name with
    | some slot => exact .ok hs
    | none =>
      cases htype : q.fieldType? name with
      | none => exact .throw
      | some type =>
        rw [hcontinues.fieldType?_of name type htype]
        exact .ok hs

lemma invocation_matched (hlater : r'.Outlasts cx.registry) {isStatic : Bool} {a b : UInt32}
    (howner : ∀ name, s.constants.string? a = some name →
      name = u.name ∨ (cx.registry.find? name).isSome) (hs : s₁.constants = s.constants) :
    Matched (invocation cx u m isStatic i a b s)
      (invocation { cx with registry := r' } u m isStatic i a b s₁) := by
  unfold invocation
  rw [hs]
  refine .bind_same fun ownerName hownerName => .bind_same fun key _ => .bind fun o ho => ?_
  obtain ⟨o', ho', hlasts⟩ := owner_lasts hlater (howner _ (string?_of_stringAt hownerName)) ho
  refine ⟨o', ho', ?_⟩
  have hcall (loaded : Option Bool) : Matched
      (if loaded = some isStatic then pure (i, s)
        else pure ({ i with
          opcode := if isStatic then .invokeDynamicStatic else .invokeDynamicVirtual }, s.countDynamic))
      (if loaded = some isStatic then pure (i, s₁)
        else pure ({ i with
          opcode := if isStatic then .invokeDynamicStatic else .invokeDynamicVirtual },
            s₁.countDynamic)) :=
    .ite (fun _ => .ok hs) fun _ => .ok hs
  cases hlasts with
  | own =>
    dsimp only
    cases u.method? key with
    | none => exact .throw
    | some declared =>
      exact .ite (fun _ => .throw) fun _ => hcall _
  | @registered q q' hcontinues =>
    have hkind : q'.loadedKind? key = q.loadedKind? key := by
      rw [LiveType.loadedKind?, LiveType.loadedKind?, hcontinues.loadedMethods_eq]
    dsimp only
    rw [hkind]
    exact hcall _

/-- A type is allocated when it has an owner that does not host closures. -/
lemma allocation_eq_ok {a : UInt32} : allocation cx u m a s = .ok () ↔
    ∃ name o, stringAt u m s.constants a = .ok name ∧ owner cx u name = .ok o ∧
      o.hosts u = false := by
  unfold allocation
  simp only [Outcome.bind_eq_ok]
  constructor
  · rintro ⟨name, hname, o, ho, h⟩
    refine ⟨name, o, hname, ho, ?_⟩
    cases o <;> simp_all [Owner.hosts]
  · rintro ⟨name, o, hname, ho, hhosts⟩
    refine ⟨name, hname, o, ho, ?_⟩
    cases o <;> simp_all [Owner.hosts]

/-- A type that may be allocated may be allocated later, unless it was not registered and hosts closures
now that it is. -/
lemma allocation_lasting (hlater : r'.Outlasts cx.registry) {a : UInt32}
    (hname : ∀ name, s.constants.string? a = some name → name = u.name ∨
      (cx.registry.find? name).isSome ∨ ∀ q ∈ r'.find? name, q.isClosureHost = false)
    (hs : s₁.constants = s.constants) (h : allocation cx u m a s = .ok ()) :
    allocation { cx with registry := r' } u m a s₁ = .ok () := by
  obtain ⟨ownerName, o, hownerName, ho, hhosts⟩ := allocation_eq_ok.mp h
  suffices hlasts : ∃ o', owner { cx with registry := r' } u ownerName = .ok o' ∧
      o'.hosts u = false by
    obtain ⟨o', ho', hhosts'⟩ := hlasts
    exact allocation_eq_ok.mpr ⟨ownerName, o', by rwa [hs], ho', hhosts'⟩
  have hregistered (hknown : ownerName = u.name ∨ (cx.registry.find? ownerName).isSome) :
      ∃ o', owner { cx with registry := r' } u ownerName = .ok o' ∧ o'.hosts u = false := by
    obtain ⟨o', ho', hlasts⟩ := owner_lasts hlater hknown ho
    refine ⟨o', ho', ?_⟩
    cases hlasts with
    | own => exact hhosts
    | registered hcontinues =>
      exact (congrArg TypeUnit.isClosureHost hcontinues.loadedUnit_eq).trans hhosts
  rcases hname ownerName (string?_of_stringAt hownerName) with hown | hsome | hnone
  · exact hregistered (.inl hown)
  · exact hregistered (.inr hsome)
  · by_cases hknown : ownerName = u.name ∨ (cx.registry.find? ownerName).isSome
    · exact hregistered hknown
    -- the name stood for no type, and may stand for one now
    · obtain ⟨hne, hfind⟩ := not_or.mp hknown
      have hfind : cx.registry.find? ownerName = none := by simpa using hfind
      cases hq : r'.find? ownerName with
      | none => exact ⟨o, (owner_congr (hq.trans hfind.symm)).trans ho, hhosts⟩
      | some q => exact ⟨.registered q, owner_registered hne hq, hnone q hq⟩

lemma host_lasting (hlater : r'.Outlasts cx.registry)
    (hshape : name ≠ u.name → ∀ q ∈ cx.registry.find? name, ∀ q' ∈ r'.find? name,
      q'.current.unit.hostShape.captured.length = q.current.unit.hostShape.captured.length ∧
      q'.current.unit.hostShape.capturesThis = q.current.unit.hostShape.capturesThis)
    {id : TypeId} {version : Nat} {shape : HostShape}
    (h : host cx u m name = .ok (id, version, shape)) :
    ∃ id' version' shape', host { cx with registry := r' } u m name = .ok (id', version', shape') ∧
      shape'.captured.length = shape.captured.length ∧
      shape'.capturesThis = shape.capturesThis := by
  unfold host at h ⊢
  obtain ⟨o, ho, h⟩ := Outcome.bind_eq_ok.mp h
  cases o with
  | own =>
    obtain rfl := owner_eq_own ho
    rw [owner_own]
    exact ⟨id, version, shape, h, rfl, rfl⟩
  | registered q =>
    obtain ⟨hne, hq⟩ := owner_eq_registered ho
    obtain ⟨q', hq', -, hhost⟩ := hlater name q hq
    rw [owner_registered hne hq']
    dsimp only at h
    split at h
    · next version₀ shape₀ hcurrent =>
      obtain ⟨hcloses, rfl, rfl⟩ := LiveType.of_currentShape? hcurrent
      obtain ⟨rfl, rfl, rfl⟩ : _ ∧ _ ∧ _ := by
        simpa only [Outcome.pure_eq_ok, Prod.mk.injEq] using h
      refine ⟨q'.id, q'.current.index, q'.current.unit.hostShape, ?_, hshape hne q hq q' hq'⟩
      simp [Outcome.ok_bind, LiveType.currentShape?, hhost, hcloses]
    · simp at h
  | lateBound => simp at h

lemma closureCreation_matched (hlater : r'.Outlasts cx.registry) {ordinal : Nat} {a : UInt32}
    {count flags : UInt8}
    (hshape : ∀ name, s.constants.string? a = some name → name ≠ u.name →
      ∀ q ∈ cx.registry.find? name, ∀ q' ∈ r'.find? name,
        q'.current.unit.hostShape.captured.length = q.current.unit.hostShape.captured.length ∧
        q'.current.unit.hostShape.capturesThis = q.current.unit.hostShape.capturesThis)
    (hs : s₁.constants = s.constants) :
    Matched (closureCreation cx u m ordinal i a count flags s)
      (closureCreation { cx with registry := r' } u m ordinal i a count flags s₁) := by
  unfold closureCreation
  rw [hs]
  refine .bind_same fun hostName hhostName => .bind fun ⟨id, version, shape⟩ hhost => ?_
  obtain ⟨id', version', shape', hhost', hlength, hthis⟩ :=
    host_lasting hlater (hshape _ (string?_of_stringAt hhostName)) hhost
  refine ⟨_, hhost', ?_⟩
  dsimp only
  rw [hlength, hthis]
  exact .ite (fun _ => .throw) fun _ => .ite (fun _ => .throw) fun _ => .ok rfl

/-! ### Code -/

section Settled

variable {constants : ConstantPool} (hlater : r'.Outlasts cx.registry)
  (hsettled : u.Settled constants cx.registry r')
include hlater hsettled

lemma instruction_matched {ordinal : Nat} (hm : m ∈ u.methods) (hi : i ∈ m.instructions)
    (hgrows : s.constants.strings.toList <+: constants.strings.toList)
    (hs : s₁.constants = s.constants) :
    Matched (instruction cx u m ordinal i s)
      (instruction { cx with registry := r' } u m ordinal i s₁) := by
  have hnamed {index? : Instruction → Option UInt32} {a : UInt32} (ha : index? i = some a)
      (name : String) (hname : s.constants.string? a = some name) :
      name ∈ u.named constants index? :=
    TypeUnit.mem_named hm hi ha (ConstantPool.string?_mono hgrows hname)
  unfold instruction
  refine .ite (fun _ => .error) fun _ => ?_
  split
  · next a b hop hoperands =>
    exact fieldAccess_matched hlater (fun name hname => hsettled.owners name
      (hnamed (by simp [Instruction.memberOwner?, hop, hoperands]) name hname)) hs
  · next a b hop hoperands =>
    exact fieldAccess_matched hlater (fun name hname => hsettled.owners name
      (hnamed (by simp [Instruction.memberOwner?, hop, hoperands]) name hname)) hs
  · next a b hop hoperands =>
    exact invocation_matched hlater (fun name hname => hsettled.owners name
      (hnamed (by simp [Instruction.memberOwner?, hop, hoperands]) name hname)) hs
  · next a b hop hoperands =>
    exact invocation_matched hlater (fun name hname => hsettled.owners name
      (hnamed (by simp [Instruction.memberOwner?, hop, hoperands]) name hname)) hs
  · next a hop hoperands =>
    intro i' s' h
    obtain ⟨_, hallocation, heq⟩ := Outcome.map_eq_ok.mp h
    obtain ⟨rfl, rfl⟩ := Prod.mk.inj heq
    refine ⟨s₁, Outcome.map_eq_ok.mpr ⟨(), ?_, rfl⟩, hs⟩
    exact allocation_lasting hlater (fun name hname => hsettled.allocated name
      (hnamed (by simp [Instruction.allocated?, hop, hoperands]) name hname)) hs hallocation
  · next a count flags hop hoperands =>
    exact closureCreation_matched hlater (fun name hname => hsettled.hosts name
      (hnamed (by simp [Instruction.createdHost?, hop, hoperands]) name hname)) hs
  · exact .ok hs

/-- The constants only grow, so those of a state are among those that redirecting ends with. -/
lemma instructions_matched (hm : m ∈ u.methods) {l : List Instruction}
    (hl : ∀ i ∈ l, i.Fits ∧ i ∈ m.instructions) {ordinal : Nat} {l' : List Instruction}
    (h : instructions cx u m ordinal s l = .ok (l', s'))
    (hgrows : s'.constants.strings.toList <+: constants.strings.toList)
    (hs : s₁.constants = s.constants) :
    ∃ s₁', instructions { cx with registry := r' } u m ordinal s₁ l = .ok (l', s₁') ∧
      s₁'.constants = s'.constants := by
  induction l generalizing ordinal s s₁ l' with
  | nil =>
    obtain ⟨rfl, rfl⟩ := Prod.mk.inj (Except.ok.inj h)
    exact ⟨s₁, rfl, hs⟩
  | cons i rest ih =>
    obtain ⟨⟨hfits, hi⟩, hrest⟩ := List.forall_mem_cons.mp hl
    obtain ⟨i', s₂, rest', hfirst, hothers, rfl⟩ := instructions_cons_eq_ok.mp h
    have hafter := redirectedAll_of_instructions (fun i hi => (hrest i hi).1) hothers
    have hgrows₁ := ((redirected_of_instruction hfits hfirst).grows.trans hafter.grows).constants
    obtain ⟨s₂', hfirst', hs₂⟩ :=
      instruction_matched hlater hsettled hm hi (hgrows₁.trans hgrows) hs i' s₂ hfirst
    obtain ⟨s₃', hothers', hs₃⟩ := ih hrest hothers hs₂
    exact ⟨s₃', instructions_cons_eq_ok.mpr ⟨i', s₂', rest', hfirst', hothers', rfl⟩, hs₃⟩

lemma method_matched (hm : m ∈ u.methods) {m' : MethodDecl}
    (h : method cx u m s = .ok (m', s'))
    (hgrows : s'.constants.strings.toList <+: constants.strings.toList)
    (hs : s₁.constants = s.constants) :
    ∃ s₁', method { cx with registry := r' } u m s₁ = .ok (m', s₁') ∧
      s₁'.constants = s'.constants := by
  obtain ⟨l, l', hl, hinstructions, rfl⟩ := method_eq_ok.mp h
  have hmem (i : Instruction) (hi : i ∈ l) : i.Fits ∧ i ∈ m.instructions :=
    ⟨(Instruction.tiles_of_decodeAll hl).1.fits i hi, by rwa [MethodDecl.instructions_eq hl]⟩
  obtain ⟨s₂', hinstructions', hs₂⟩ :=
    instructions_matched hlater hsettled hm hmem hinstructions hgrows hs
  exact ⟨s₂', method_eq_ok.mpr ⟨l, l', hl, hinstructions', rfl⟩, hs₂⟩

lemma methods_matched {ms ms' : List MethodDecl} (hms : ms ⊆ u.methods)
    (h : methods cx u s ms = .ok (ms', s'))
    (hgrows : s'.constants.strings.toList <+: constants.strings.toList)
    (hs : s₁.constants = s.constants) :
    ∃ s₁', methods { cx with registry := r' } u s₁ ms = .ok (ms', s₁') ∧
      s₁'.constants = s'.constants := by
  induction ms generalizing s s₁ ms' with
  | nil =>
    obtain ⟨rfl, rfl⟩ := Prod.mk.inj (Except.ok.inj h)
    exact ⟨s₁, rfl, hs⟩
  | cons m rest ih =>
    obtain ⟨hm, hrest⟩ := List.cons_subset.mp hms
    obtain ⟨m', s₂, rest', hfirst, hothers, rfl⟩ := methods_cons_eq_ok.mp h
    have hgrows₂ := (redirectedMethods_of_methods hothers).grows.constants
    obtain ⟨s₂', hfirst', hs₂⟩ :=
      method_matched hlater hsettled hm hfirst (hgrows₂.trans hgrows) hs
    obtain ⟨s₃', hothers', hs₃⟩ := ih hrest hothers hs₂
    exact ⟨s₃', methods_cons_eq_ok.mpr ⟨m', s₂', rest', hfirst', hothers', rfl⟩, hs₃⟩

end Settled

end Redirection

/-- A version is redirected to the same executor in a later registry, when the types that its code names
are settled. -/
theorem TypeUnit.redirect_lasting {u : TypeUnit} {cx : RedirectContext} {r' : Registry} {verify : Bool}
    {redirected : RedirectedVersion} (hlater : r'.Outlasts cx.registry)
    (h : u.redirect cx verify = .ok redirected)
    (hsettled : u.Settled redirected.executor.constants cx.registry r') :
    ∃ redirected', u.redirect { cx with registry := r' } verify = .ok redirected' ∧
      redirected'.executor = redirected.executor := by
  obtain ⟨methods, s, hmethods, hexecutor, -⟩ := methods_of_redirect h
  rw [hexecutor] at hsettled
  obtain ⟨s', hmethods', hs⟩ := Redirection.methods_matched hlater hsettled
    (List.Subset.refl u.methods) hmethods (List.prefix_refl _) rfl
  refine ⟨⟨redirected.executor, s'.bindings.toList, s'.stats⟩, ?_, rfl⟩
  rw [redirect, hmethods, Outcome.ok_bind] at h
  rw [redirect, hmethods', Outcome.ok_bind, hexecutor]
  dsimp only at h ⊢
  rw [hs]
  cases verify with
  | false => rfl
  | true =>
    obtain ⟨_, hverified, -⟩ := Outcome.bind_eq_ok.mp h
    exact Outcome.bind_eq_ok.mpr ⟨(), hverified, rfl⟩

end LiveTypes
