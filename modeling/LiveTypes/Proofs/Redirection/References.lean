import LiveTypes.Proofs.Redirection.Version
import LiveTypes.Proofs.TypeName
import Mathlib.Data.List.Forall2

/-!
# What code refers to

An instruction may refer by name to a type, to a field of one or to the host of a closure. Redirecting
accepts a reference when it sees what is referred to, and otherwise only when the owner may still come:
it is not registered, and the code is that of a type nested in it. The redirected code refers to nothing
else (`TypeUnit.admitted_of_redirect`).
-/

namespace LiveTypes

/-- What an instruction refers to by name. -/
inductive Reference where
  /-- A type, to make an instance of it or to call a method of it -/
  | type (name : String)
  /-- A field of a type -/
  | field (owner name : String)
  /-- The host of a closure -/
  | host (name : String)
deriving DecidableEq, Repr

def Reference.owner : Reference → String
  | .type name | .host name => name
  | .field owner _ => owner

/-- What an instruction refers to, over the constants of its unit. -/
def Instruction.reference? (constants : ConstantPool) (i : Instruction) : Option Reference :=
  match i.opcode, i.operands with
  | .new, .index a => (constants.string? a).map .type
  | .invokeStatic, .pair a _ | .invokeVirtual, .pair a _ | .invokeDynamicStatic, .pair a _
  | .invokeDynamicVirtual, .pair a _ => (constants.string? a).map .type
  | .getField, .pair a b | .putField, .pair a b | .getExtField, .pair a b
  | .putExtField, .pair a b =>
    (constants.string? a).bind fun owner => (constants.string? b).map (.field owner)
  | .makeClosure, .closure a _ _ => (constants.string? a).map .host
  | _, _ => none

def TypeUnit.RefersTo (u : TypeUnit) (ref : Reference) : Prop :=
  ∃ m ∈ u.methods, ∃ l, Instruction.decodeAll m.code = .ok l ∧
    ∃ i ∈ l, i.reference? u.constants = some ref

namespace Reference

/-- Whether what is referred to is seen when a unit is redirected: in the unit itself, or in the
registry. -/
def Seen (cx : RedirectContext) (u : TypeUnit) : Reference → Prop
  | .type name => name = u.name ∨ ∃ t, cx.registry.find? name = some t
  | .field owner name => (owner = u.name ∧ ∃ f ∈ u.fields, f.name = name) ∨
      ∃ t, cx.registry.find? owner = some t ∧
        ((∃ k, t.layout.slot? name = some k) ∨ ∃ type, t.fieldType? name = some type)
  | .host name => (name = u.name ∧ u.isClosureHost = true) ∨
      ∃ t version shape, cx.registry.find? name = some t ∧
        t.currentShape? = some (version, shape)

/-- Whether a reference is left to be resolved when it is used: its owner is not registered, and the
code is that of a type nested in it. -/
def LateBound (r : Registry) (u : TypeUnit) (ref : Reference) : Prop :=
  r.find? ref.owner = none ∧ TypeName.isNestedIn u.name ref.owner = true

/-- Whether redirecting accepts a reference. -/
def Admitted (cx : RedirectContext) (u : TypeUnit) (ref : Reference) : Prop :=
  ref.Seen cx u ∨ ref.LateBound cx.registry u

end Reference

/-- An instruction refers to the same over more constants. -/
lemma Instruction.reference?_mono {p q : ConstantPool} {i : Instruction} {ref : Reference}
    (h : p.strings.toList <+: q.strings.toList) (hp : i.reference? p = some ref) :
    i.reference? q = some ref := by
  have hstring {a : UInt32} {text : String} (ha : p.string? a = some text) :
      q.string? a = some text :=
    ConstantPool.string?_mono h ha
  unfold reference? at hp ⊢
  split at hp
  case h_11 => cases hp
  case h_6 | h_7 | h_8 | h_9 =>
    obtain ⟨owner, howner, hp⟩ := Option.bind_eq_some_iff.mp hp
    obtain ⟨name, hname, rfl⟩ := Option.map_eq_some_iff.mp hp
    simp [hstring howner, hstring hname]
  all_goals
    obtain ⟨name, hname, rfl⟩ := Option.map_eq_some_iff.mp hp
    simp [hstring hname]

namespace Redirection

variable {cx : RedirectContext} {u : TypeUnit} {m : MethodDecl} {ordinal : Nat}
  {i i' : Instruction} {s s' : RedirectState} {ref : Reference} {constants : ConstantPool}

lemma owner_eq_lateBound {name : String} (h : owner cx u name = .ok .lateBound) :
    cx.registry.find? name = none ∧ TypeName.isNestedIn u.name name = true := by
  by_cases hname : name = u.name
  · simp only [owner, hname, ↓reduceIte] at h
    cases h
  · simp only [owner, hname, ↓reduceIte] at h
    split at h
    · cases h
    · next hfind =>
      split at h
      · next hnested => exact ⟨hfind, hnested⟩
      · cases h

/-- An owner that was found is the unit itself or registered, or it may still come. -/
lemma admitted_of_owner {name : String} {o : Owner} (h : owner cx u name = .ok o) :
    (Reference.type name).Admitted cx u := by
  cases o with
  | own => exact .inl (.inl (owner_eq_own h))
  | registered t => exact .inl (.inr ⟨t, (owner_eq_registered h).2⟩)
  | lateBound => exact .inr (owner_eq_lateBound h)

/-- A field that is found belongs to the unit itself or to a registered type, or its owner may still
come. -/
lemma admitted_of_offers {ownerName name : String} {o : Owner} (h : owner cx u ownerName = .ok o)
    (hoffers : o.Offers u name) : (Reference.field ownerName name).Admitted cx u := by
  cases o with
  | own =>
    obtain ⟨f, hf⟩ := hoffers
    rw [TypeUnit.field?] at hf
    exact .inl (.inl ⟨owner_eq_own h, f, List.mem_of_find?_eq_some hf, by
      simpa using List.find?_some hf⟩)
  | registered t => exact .inl (.inr ⟨t, (owner_eq_registered h).2, hoffers⟩)
  | lateBound => exact .inr (owner_eq_lateBound h)

/-- Whether an instruction and what it was redirected to refer only to what is admitted, over the
constants so far and over more constants. -/
def Admits (cx : RedirectContext) (u : TypeUnit) (constants : ConstantPool) (i i' : Instruction)
    (s : RedirectState) : Prop :=
  ∀ ref, i.reference? s.constants = some ref ∨ i'.reference? constants = some ref →
    ref.Admitted cx u

/-- An access to a field refers to the field of its owner. -/
lemma admits_of_fieldAccess {write : Bool} {a b : UInt32}
    (hconstants : s.constants.strings.toList <+: constants.strings.toList)
    (hop : i.opcode = if write then .putField else .getField) (hoperands : i.operands = .pair a b)
    (h : fieldAccess cx u m write i a b s = .ok (i', s')) : Admits cx u constants i i' s := by
  obtain ⟨ownerName, name, o, ha, hb, ho, hoffers, haccessed⟩ := fieldAccess_cases h
  have hadmitted := admitted_of_offers ho hoffers
  have ha' := ConstantPool.string?_mono hconstants ha
  have hb' := ConstantPool.string?_mono hconstants hb
  rintro ref (href | href)
  · cases write <;> simp [Instruction.reference?, hop, hoperands, ha, hb] at href <;>
      exact href ▸ hadmitted
  · cases haccessed with
    | captured _ hop' => rcases hop' with ⟨rfl, -⟩ | rfl <;> cases href
    | slot => cases write <;> cases href
    | byName =>
      cases write <;> simp [Instruction.reference?, ha', hb'] at href <;> exact href ▸ hadmitted

/-- A call refers to the owner of its method. -/
lemma admits_of_invocation {isStatic : Bool} {a b : UInt32}
    (hconstants : s.constants.strings.toList <+: constants.strings.toList)
    (hop : i.opcode = if isStatic then .invokeStatic else .invokeVirtual)
    (hoperands : i.operands = .pair a b)
    (h : invocation cx u m isStatic i a b s = .ok (i', s')) : Admits cx u constants i i' s := by
  obtain ⟨ownerName, key, o, ha, -, ho, hresult⟩ := invocation_cases h
  have ha' := ConstantPool.string?_mono hconstants ha
  have hadmitted := admitted_of_owner ho
  have hresult : i'.operands = .pair a b ∧ (i'.opcode = i.opcode ∨
      i'.opcode = if isStatic then .invokeDynamicStatic else .invokeDynamicVirtual) := by
    rcases hresult with ⟨rfl, -⟩ | ⟨rfl, -⟩
    · exact ⟨hoperands, .inl rfl⟩
    · exact ⟨hoperands, .inr rfl⟩
  obtain ⟨hoperands', hop'⟩ := hresult
  rintro ref (href | href)
  · cases isStatic <;> simp [Instruction.reference?, hop, hoperands, ha] at href <;>
      exact href ▸ hadmitted
  · rw [hop] at hop'
    cases isStatic <;> rcases hop' with hop' | hop' <;>
      simp [Instruction.reference?, hop', hoperands', ha'] at href <;> exact href ▸ hadmitted

/-- An allocation refers to the type of the instance. -/
lemma admits_of_allocation {a : UInt32} {v : Unit}
    (hconstants : s.constants.strings.toList <+: constants.strings.toList)
    (hop : i.opcode = .new) (hoperands : i.operands = .index a)
    (h : allocation cx u m a s = .ok v) : Admits cx u constants i i s := by
  simp only [allocation, Outcome.bind_eq_ok] at h
  obtain ⟨ownerName, howner, o, ho, -⟩ := h
  have ha := string?_of_stringAt howner
  have ha' := ConstantPool.string?_mono hconstants ha
  rintro ref (href | href) <;>
  · simp [Instruction.reference?, hop, hoperands, ha, ha'] at href
    exact href ▸ admitted_of_owner ho

/-- The creation of a closure refers to its host, which is seen. -/
lemma admits_of_closureCreation {a : UInt32} {count flags : UInt8}
    (hop : i.opcode = .makeClosure) (hoperands : i.operands = .closure a count flags)
    (h : closureCreation cx u m ordinal i a count flags s = .ok (i', s')) :
    Admits cx u constants i i' s := by
  simp only [closureCreation, Outcome.bind_eq_ok, Outcome.guard_eq_ok] at h
  obtain ⟨hostName, hname, ⟨id, version, shape⟩, hhost, -, -, h⟩ := h
  obtain ⟨rfl, rfl⟩ := Prod.mk.inj (Outcome.pure_eq_ok.mp h)
  have ha := string?_of_stringAt hname
  have hseen : (Reference.host hostName).Seen cx u := by
    have hsite : (⟨cx.typeId, m.key, ordinal⟩ : SiteId).declaring = cx.typeId := rfl
    rcases (asked_of_host hsite hhost).host with
      ⟨hown, hclosure, -⟩ | ⟨-, t, hfind, -, hshape⟩
    · exact .inl ⟨hown, hclosure⟩
    · exact .inr ⟨t, version, shape, hfind, hshape⟩
  rintro ref (href | href)
  · simp [Instruction.reference?, hop, hoperands, ha] at href
    exact href ▸ .inl hseen
  · simp [Instruction.reference?] at href

/-- An instruction that stays as it is and is none of those that are redirected refers to nothing. -/
lemma reference?_of_plain (hsource : i.opcode.isEngineOnly = false)
    (hget : ∀ a b, i.opcode = .getField → i.operands = .pair a b → False)
    (hput : ∀ a b, i.opcode = .putField → i.operands = .pair a b → False)
    (hstatic : ∀ a b, i.opcode = .invokeStatic → i.operands = .pair a b → False)
    (hvirtual : ∀ a b, i.opcode = .invokeVirtual → i.operands = .pair a b → False)
    (hnew : ∀ a, i.opcode = .new → i.operands = .index a → False)
    (hclosure : ∀ a count flags, i.opcode = .makeClosure → i.operands = .closure a count flags →
      False) : i.reference? constants = none := by
  have hengine {op : Opcode} (h : op.isEngineOnly = true) (hop : i.opcode = op) : False := by
    rw [hop, h] at hsource
    cases hsource
  unfold Instruction.reference?
  split
  next a hop hoperands => exact (hnew a hop hoperands).elim
  next a b hop hoperands => exact (hstatic a b hop hoperands).elim
  next a b hop hoperands => exact (hvirtual a b hop hoperands).elim
  next hop _ => exact (hengine rfl hop).elim
  next hop _ => exact (hengine rfl hop).elim
  next a b hop hoperands => exact (hget a b hop hoperands).elim
  next a b hop hoperands => exact (hput a b hop hoperands).elim
  next hop _ => exact (hengine rfl hop).elim
  next hop _ => exact (hengine rfl hop).elim
  next a count flags hop hoperands => exact (hclosure a count flags hop hoperands).elim
  next => rfl

/-- An instruction that is redirected refers only to what is admitted, and so does the result. -/
theorem admits_of_instruction
    (hconstants : s.constants.strings.toList <+: constants.strings.toList)
    (h : instruction cx u m ordinal i s = .ok (i', s')) : Admits cx u constants i i' s := by
  unfold instruction at h
  split at h
  · cases h
  · next hsource =>
    split at h
    · next a b hop hoperands => exact admits_of_fieldAccess hconstants (by simp [hop]) hoperands h
    · next a b hop hoperands => exact admits_of_fieldAccess hconstants (by simp [hop]) hoperands h
    · next a b hop hoperands => exact admits_of_invocation hconstants (by simp [hop]) hoperands h
    · next a b hop hoperands => exact admits_of_invocation hconstants (by simp [hop]) hoperands h
    · next a hop hoperands =>
      obtain ⟨_, hallocation, hresult⟩ := Outcome.map_eq_ok.mp h
      obtain ⟨rfl, rfl⟩ := Prod.mk.inj hresult
      exact admits_of_allocation hconstants hop hoperands hallocation
    · next a count flags hop hoperands => exact admits_of_closureCreation hop hoperands h
    · next hget hput hstatic hvirtual hnew hclosure =>
      obtain ⟨rfl, rfl⟩ := Prod.mk.inj (Except.ok.inj h)
      have hnone {p : ConstantPool} : i.reference? p = none :=
        reference?_of_plain (by simpa using hsource) hget hput hstatic hvirtual hnew hclosure
      rintro ref (href | href) <;>
      · rw [hnone] at href
        cases href

/-- The same of instructions that are redirected one after the other. -/
lemma admits_of_instructions {l l' : List Instruction} (hfits : ∀ i ∈ l, i.Fits)
    (hbefore : u.constants.strings.toList <+: s.constants.strings.toList)
    (hafter : s'.constants.strings.toList <+: constants.strings.toList)
    (h : instructions cx u m ordinal s l = .ok (l', s')) :
    (∀ i ∈ l, ∀ ref, i.reference? u.constants = some ref → ref.Admitted cx u) ∧
      ∀ i ∈ l', ∀ ref, i.reference? constants = some ref → ref.Admitted cx u := by
  induction l generalizing ordinal s l' s' with
  | nil =>
    obtain ⟨rfl, rfl⟩ := Prod.mk.inj (Except.ok.inj h)
    simp
  | cons i rest ih =>
    obtain ⟨hi, hrest⟩ := List.forall_mem_cons.mp hfits
    obtain ⟨i', s₁, rest', hfirst, hothers, rfl⟩ := instructions_cons_eq_ok.mp h
    have hgrows₁ := (redirected_of_instruction hi hfirst).grows.constants
    have hgrows₂ := (redirectedAll_of_instructions hrest hothers).grows.constants
    have hadmits := admits_of_instruction (hgrows₁.trans (hgrows₂.trans hafter)) hfirst
    obtain ⟨hsource, hresult⟩ := ih hrest (hbefore.trans hgrows₁) hafter hothers
    refine ⟨List.forall_mem_cons.mpr ⟨fun ref href => hadmits ref (.inl ?_), hsource⟩,
      List.forall_mem_cons.mpr ⟨fun ref href => hadmits ref (.inr href), hresult⟩⟩
    exact Instruction.reference?_mono hbefore href

/-- The same of methods that are redirected one after the other. -/
lemma admits_of_methods {ms ms' : List MethodDecl}
    (hbefore : u.constants.strings.toList <+: s.constants.strings.toList)
    (hafter : s'.constants.strings.toList <+: constants.strings.toList)
    (h : methods cx u s ms = .ok (ms', s')) :
    (∀ m ∈ ms, ∀ l, Instruction.decodeAll m.code = .ok l →
        ∀ i ∈ l, ∀ ref, i.reference? u.constants = some ref → ref.Admitted cx u) ∧
      ∀ m ∈ ms', ∀ l, Instruction.decodeAll m.code = .ok l →
        ∀ i ∈ l, ∀ ref, i.reference? constants = some ref → ref.Admitted cx u := by
  induction ms generalizing s ms' s' with
  | nil =>
    obtain ⟨rfl, rfl⟩ := Prod.mk.inj (Except.ok.inj h)
    simp
  | cons m rest ih =>
    obtain ⟨m', s₁, rest', hfirst, hothers, rfl⟩ := methods_cons_eq_ok.mp h
    obtain ⟨l, l', hdecoded, hinstructions, rfl⟩ := method_eq_ok.mp hfirst
    have htiles := (Instruction.tiles_of_decodeAll hdecoded).1
    have hall := redirectedAll_of_instructions htiles.fits hinstructions
    have hgrows₂ := (redirectedMethods_of_methods hothers).grows.constants
    obtain ⟨hsource, hresult⟩ :=
      admits_of_instructions htiles.fits hbefore (hgrows₂.trans hafter) hinstructions
    obtain ⟨hsources, hresults⟩ := ih (hbefore.trans hall.grows.constants) hafter hothers
    refine ⟨List.forall_mem_cons.mpr ⟨fun l₁ hl₁ => ?_, hsources⟩,
      List.forall_mem_cons.mpr ⟨fun l₁ hl₁ => ?_, hresults⟩⟩
    · obtain rfl := Except.ok.inj (hdecoded.symm.trans hl₁)
      exact hsource
    · have hdecoded' := Instruction.decodeAll_encodeAll (hall.tiles htiles)
      obtain rfl := Except.ok.inj (hdecoded'.symm.trans hl₁)
      exact hresult

end Redirection

/-- Everything that a redirected unit refers to is admitted, and so is everything that its redirected
bodies refer to. -/
theorem TypeUnit.admitted_of_redirect {u : TypeUnit} {cx : RedirectContext} {verify : Bool}
    {redirected : RedirectedVersion} {ref : Reference}
    (h : u.redirect cx verify = .ok redirected)
    (href : u.RefersTo ref ∨ redirected.executor.RefersTo ref) : ref.Admitted cx u := by
  obtain ⟨methods, s, hmethods, hexecutor, -⟩ := methods_of_redirect h
  obtain ⟨hsource, hresult⟩ :=
    Redirection.admits_of_methods (List.prefix_refl _) (List.prefix_refl _) hmethods
  rcases href with ⟨m, hm, l, hl, i, hi, href⟩ | ⟨m, hm, l, hl, i, hi, href⟩
  · exact hsource m hm l hl i hi ref href
  · rw [hexecutor] at hm href
    exact hresult m hm l hl i hi ref href

end LiveTypes
