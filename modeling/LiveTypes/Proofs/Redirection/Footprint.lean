import LiveTypes.Proofs.Redirection.Version

/-!
# What redirecting reads of other types

Redirecting looks up the types that the code names: the owners of fields and methods, the hosts of
closures and the types that are allocated. Registries that agree on those are one to it
(`TypeUnit.redirect_congr`). A name is looked up among the constants so far, which have the sites of
closures besides the constants of the unit.
-/

namespace LiveTypes

/-- The constant with the name of the type that an instruction reaches: the owner of a member, the host
of a closure or the type that is allocated. -/
def Instruction.ownerIndex? (i : Instruction) : Option UInt32 :=
  match i.opcode, i.operands with
  | .getField, .pair a _ | .putField, .pair a _ | .invokeStatic, .pair a _
  | .invokeVirtual, .pair a _ | .new, .index a | .makeClosure, .closure a _ _ => some a
  | _, _ => none

/-- The instructions of a method, as far as its code decodes. -/
def MethodDecl.instructions (m : MethodDecl) : List Instruction :=
  match Instruction.decodeAll m.code with
  | .ok l => l
  | .error _ => []

lemma MethodDecl.instructions_eq {m : MethodDecl} {l : List Instruction}
    (h : Instruction.decodeAll m.code = .ok l) : m.instructions = l := by
  rw [instructions, h]

namespace TypeUnit

def Names (u : TypeUnit) (name : String) : Prop :=
  ∃ m ∈ u.methods, ∃ i ∈ m.instructions, i.ownerIndex?.bind u.constants.string? = some name

instance (u : TypeUnit) (name : String) : Decidable (u.Names name) :=
  inferInstanceAs (Decidable (∃ m ∈ u.methods, ∃ i ∈ m.instructions, _ = _))

/-- Whether some instruction of a unit reaches beyond its constants for a name, where the key of a site
may come to stand that is the name of a type. -/
def Dangles (u : TypeUnit) (name : String) : Prop :=
  (∃ m ∈ u.methods, ∃ i ∈ m.instructions, ∃ a,
    i.ownerIndex? = some a ∧ u.constants.string? a = none) ∧ ∃ site : SiteId, site.key = name

/-- The code of a verified unit names types by its own constants. -/
lemma Verified.not_dangles {u : TypeUnit} (hu : u.Verified) (name : String) : ¬ u.Dangles name := by
  rintro ⟨⟨m, hm, i, hi, a, ha, hnone⟩, -⟩
  obtain ⟨body, hbody⟩ := hu.bodies m hm
  rw [MethodDecl.instructions_eq hbody.decoded] at hi
  have huse : ConstantUse.string a ∈ i.constantUses := by
    unfold Instruction.ownerIndex? at ha
    split at ha <;> simp_all [Instruction.constantUses]
  obtain ⟨text, htext⟩ := (hbody.each i hi).uses _ huse
  rw [hnone] at htext
  cases htext

end TypeUnit

/-- A string of a pool after interning was there before, or it is the one that was interned. -/
lemma ConstantPool.string?_intern_inv {p : ConstantPool} {text found : String} {a : UInt32}
    (h : (p.intern text).2.string? a = some found) :
    p.string? a = some found ∨ p.string? a = none ∧ found = text := by
  unfold intern at h
  split at h
  · exact .inl h
  · rw [addString, string?, Array.getElem?_push] at h
    split at h
    · next hsize =>
      refine .inr ⟨?_, (Option.some.inj h).symm⟩
      rw [string?, hsize]
      exact Array.getElem?_size
    · exact .inl h

/-- Whether a state has the constants of a unit, and besides them only the keys of sites. -/
structure RedirectState.Sited (p : ConstantPool) (s : RedirectState) : Prop where
  grows : p.strings.toList <+: s.constants.strings.toList
  added : ∀ a text, s.constants.string? a = some text →
    p.string? a = some text ∨ p.string? a = none ∧ ∃ site : SiteId, site.key = text

lemma RedirectState.sited_start (p : ConstantPool) : (start p).Sited p :=
  ⟨List.prefix_refl _, fun _ _ h => .inl h⟩

variable {cx : RedirectContext} {u : TypeUnit} {m : MethodDecl} {r' : Registry} {name : String}

lemma Redirected.sited {p : ConstantPool} {ordinal : Nat} {i i' : Instruction}
    {s s' : RedirectState} (h : Redirected cx u m ordinal i s i' s') (hs : s.Sited p) :
    s'.Sited p := by
  refine ⟨hs.grows.trans h.grows.constants, fun a text htext => ?_⟩
  cases h with
  | plain hconstants => exact hs.added a text (hconstants ▸ htext)
  | @site b _ _ _ _ _ _ _ _ hconstants =>
    rw [hconstants] at htext
    rcases ConstantPool.string?_intern_inv htext with hold | ⟨hnone, rfl⟩
    · exact hs.added a text hold
    · refine .inr ⟨Option.eq_none_iff_forall_ne_some.mpr fun found hfound => ?_, b.id, rfl⟩
      rw [ConstantPool.string?_mono hs.grows hfound] at hnone
      cases hnone

/-- Whether two registries have the same type for every name but one. -/
def Registry.AgreeExcept (name : String) (r r' : Registry) : Prop :=
  ∀ other, other ≠ name → r'.find? other = r.find? other

namespace Redirection

open Outcome

variable {s : RedirectState}

lemma owner_congr {text : String} (h : r'.find? text = cx.registry.find? text) :
    owner { cx with registry := r' } u text = owner cx u text := by
  unfold owner
  rw [h]

lemma host_congr {text : String} (h : r'.find? text = cx.registry.find? text) :
    host { cx with registry := r' } u m text = host cx u m text := by
  unfold host
  rw [owner_congr h]

/-- Whether the types that an instruction reaches are the same in another registry. -/
def Reaches (cx : RedirectContext) (r' : Registry) (constants : ConstantPool) (i : Instruction) :
    Prop :=
  ∀ a text, i.ownerIndex? = some a → constants.string? a = some text →
    r'.find? text = cx.registry.find? text

lemma fieldAccess_congr {write : Bool} {i : Instruction} {a b : UInt32}
    (h : ∀ text, s.constants.string? a = some text → r'.find? text = cx.registry.find? text) :
    fieldAccess { cx with registry := r' } u m write i a b s = fieldAccess cx u m write i a b s := by
  unfold fieldAccess
  refine bind_congr_of_ok fun ownerName howner => bind_congr_of_ok fun fieldName _ => ?_
  rw [owner_congr (h ownerName (string?_of_stringAt howner))]
  rfl

lemma invocation_congr {isStatic : Bool} {i : Instruction} {a b : UInt32}
    (h : ∀ text, s.constants.string? a = some text → r'.find? text = cx.registry.find? text) :
    invocation { cx with registry := r' } u m isStatic i a b s =
      invocation cx u m isStatic i a b s := by
  unfold invocation
  refine bind_congr_of_ok fun ownerName howner => bind_congr_of_ok fun key _ => ?_
  rw [owner_congr (h ownerName (string?_of_stringAt howner))]

lemma allocation_congr {a : UInt32}
    (h : ∀ text, s.constants.string? a = some text → r'.find? text = cx.registry.find? text) :
    allocation { cx with registry := r' } u m a s = allocation cx u m a s := by
  unfold allocation
  refine bind_congr_of_ok fun ownerName howner => ?_
  rw [owner_congr (h ownerName (string?_of_stringAt howner))]

lemma closureCreation_congr {ordinal : Nat} {i : Instruction} {a : UInt32} {count flags : UInt8}
    (h : ∀ text, s.constants.string? a = some text → r'.find? text = cx.registry.find? text) :
    closureCreation { cx with registry := r' } u m ordinal i a count flags s =
      closureCreation cx u m ordinal i a count flags s := by
  unfold closureCreation
  refine bind_congr_of_ok fun hostName hname => ?_
  rw [host_congr (h hostName (string?_of_stringAt hname))]

lemma instruction_congr {ordinal : Nat} {i : Instruction} (h : Reaches cx r' s.constants i) :
    instruction { cx with registry := r' } u m ordinal i s = instruction cx u m ordinal i s := by
  have hindex {op : Opcode} {operands : Operands} {a : UInt32} (hop : i.opcode = op)
      (hoperands : i.operands = operands)
      (ha : Instruction.ownerIndex? ⟨i.offset, op, operands⟩ = some a) (text : String)
      (htext : s.constants.string? a = some text) : r'.find? text = cx.registry.find? text := by
    subst hop hoperands
    exact h a text ha htext
  unfold instruction
  refine ite_congr rfl (fun _ => rfl) fun _ => ?_
  split
  · next hop hoperands => exact fieldAccess_congr (hindex hop hoperands rfl)
  · next hop hoperands => exact fieldAccess_congr (hindex hop hoperands rfl)
  · next hop hoperands => exact invocation_congr (hindex hop hoperands rfl)
  · next hop hoperands => exact invocation_congr (hindex hop hoperands rfl)
  · next hop hoperands => rw [allocation_congr (hindex hop hoperands rfl)]
  · next hop hoperands => exact closureCreation_congr (hindex hop hoperands rfl)
  · rfl

section AgreeExcept

variable (hagree : cx.registry.AgreeExcept name r') (hnames : ¬ u.Names name)
  (hdangles : ¬ u.Dangles name)
include hagree hnames hdangles

/-- The code of a unit reaches only types that the registries agree on. -/
lemma reaches_of_agree (hm : m ∈ u.methods) {i : Instruction} (hi : i ∈ m.instructions)
    (hs : s.Sited u.constants) : Reaches cx r' s.constants i := by
  intro a text ha htext
  refine hagree text fun heq => ?_
  subst heq
  rcases hs.added a text htext with hconstant | ⟨hnone, hsite⟩
  · exact hnames ⟨m, hm, i, hi, by rw [ha]; exact hconstant⟩
  · exact hdangles ⟨⟨m, hm, i, hi, a, ha, hnone⟩, hsite⟩

lemma instructions_congr (hm : m ∈ u.methods) {l : List Instruction}
    (hl : Instruction.decodeAll m.code = .ok l) {rest : List Instruction} (hrest : rest ⊆ l)
    {ordinal : Nat} (hs : s.Sited u.constants) :
    instructions { cx with registry := r' } u m ordinal s rest =
      instructions cx u m ordinal s rest := by
  induction rest generalizing ordinal s with
  | nil => rfl
  | cons i rest ih =>
    obtain ⟨hi, hrest⟩ := List.cons_subset.mp hrest
    have hmem : i ∈ m.instructions := by rwa [MethodDecl.instructions_eq hl]
    have hfits := (Instruction.tiles_of_decodeAll hl).1.fits i hi
    unfold instructions
    rw [instruction_congr (reaches_of_agree hagree hnames hdangles hm hmem hs)]
    refine bind_congr_of_ok fun first hfirst => ?_
    obtain ⟨i', s₁⟩ := first
    dsimp only
    rw [ih hrest ((redirected_of_instruction hfits hfirst).sited hs)]

lemma method_congr (hm : m ∈ u.methods) (hs : s.Sited u.constants) :
    method { cx with registry := r' } u m s = method cx u m s := by
  unfold method
  cases hl : Instruction.decodeAll m.code with
  | error e => rfl
  | ok l =>
    dsimp only
    rw [instructions_congr hagree hnames hdangles hm hl (List.Subset.refl l) hs]

end AgreeExcept

lemma sited_of_instructions {p : ConstantPool} {ordinal : Nat} {s s' : RedirectState}
    {l l' : List Instruction} (h : RedirectedAll cx u m ordinal s l l' s') (hs : s.Sited p) :
    s'.Sited p := by
  induction h with
  | nil => exact hs
  | cons first _ ih => exact ih (first.sited hs)

lemma sited_of_method {p : ConstantPool} {s s' : RedirectState} {m' : MethodDecl}
    (h : method cx u m s = .ok (m', s')) (hs : s.Sited p) : s'.Sited p := by
  obtain ⟨l, l', hl, hinstructions, -⟩ := method_eq_ok.mp h
  have hfits := (Instruction.tiles_of_decodeAll hl).1.fits
  exact sited_of_instructions (redirectedAll_of_instructions hfits hinstructions) hs

lemma methods_congr (hagree : cx.registry.AgreeExcept name r') (hnames : ¬ u.Names name)
    (hdangles : ¬ u.Dangles name) {ms : List MethodDecl} (hms : ms ⊆ u.methods)
    {s : RedirectState} (hs : s.Sited u.constants) :
    methods { cx with registry := r' } u s ms = methods cx u s ms := by
  induction ms generalizing s with
  | nil => rfl
  | cons m rest ih =>
    obtain ⟨hm, hrest⟩ := List.cons_subset.mp hms
    unfold methods
    rw [method_congr hagree hnames hdangles hm hs]
    refine bind_congr_of_ok fun first hfirst => ?_
    obtain ⟨m', s₁⟩ := first
    dsimp only
    rw [ih hrest (sited_of_method hfirst hs)]

end Redirection

/-- A version is redirected alike in registries that differ in one type, when the code does not name
that type. -/
theorem TypeUnit.redirect_congr (hagree : cx.registry.AgreeExcept name r') (hnames : ¬ u.Names name)
    (hdangles : ¬ u.Dangles name) (verify : Bool) :
    u.redirect { cx with registry := r' } verify = u.redirect cx verify := by
  unfold redirect
  rw [Redirection.methods_congr hagree hnames hdangles (List.Subset.refl u.methods)
    (RedirectState.sited_start u.constants)]

/-- The sites that a version binds are those of its own type. -/
lemma TypeUnit.declaring_of_redirect {redirected : RedirectedVersion} {verify : Bool}
    (h : u.redirect cx verify = .ok redirected) :
    ∀ b ∈ redirected.bindings, b.id.declaring = cx.typeId :=
  fun _ hb => (createdBy_of_redirect h hb).1

end LiveTypes
