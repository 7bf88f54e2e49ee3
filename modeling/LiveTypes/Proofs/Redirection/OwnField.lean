import LiveTypes.Proofs.Redirection.Footprint
import LiveTypes.Proofs.TypeUnit.Format

/-!
# Accesses to own fields

Redirected code reaches a field of its own type in one of four ways, which the flags of the field and
the layout of the type decide (`FieldDecl.ReachedBy`). Every access of a method to a field of its unit
becomes the one for the field, at the offset where it is (`TypeUnit.reached_of_redirect`).
-/

namespace LiveTypes

/-- Whether a method of a unit has, at an offset, an instruction that reads or writes a field of the
unit by its name. -/
structure TypeUnit.Accesses (u : TypeUnit) (write : Bool) (key : String) (offset : Nat)
    (f : FieldDecl) : Prop where
  field_eq : u.field? f.name = some f
  named : ∃ m ∈ u.methods, m.key = key ∧ ∃ a b,
    ⟨offset, if write then .putField else .getField, .pair a b⟩ ∈ m.instructions ∧
      u.constants.string? a = some u.name ∧ u.constants.string? b = some f.name

/-- How redirected code of a unit reads or writes a field of the unit. -/
inductive FieldDecl.ReachedBy (layout : Layout) (u : TypeUnit) (constants : ConstantPool)
    (f : FieldDecl) (offset : Nat) : Bool → Instruction → Prop where
  /-- The enclosing instance is only read. -/
  | enclosing {a b : UInt32} (flag : f.isEnclosing = true) :
      ReachedBy layout u constants f offset false ⟨offset, .getEnclosing, .pair a b⟩
  /-- A captured variable is only read, by its place among the captured fields. -/
  | captured {a position : UInt32} (other : f.isEnclosing = false) (flag : f.isCaptured = true)
      (place : u.capturedFields[position.toNat]? = some f) :
      ReachedBy layout u constants f offset false ⟨offset, .getCaptured, .pair a position⟩
  /-- A field of the layout has a slot. -/
  | slot {write : Bool} {a : UInt32} {k : Nat} (plain : (f.isCaptured || f.isEnclosing) = false)
      (owner_eq : constants.string? a = some u.name) (slot_eq : layout.slot? f.name = some k) :
      ReachedBy layout u constants f offset write
        ⟨offset, if write then .putFieldSlot else .getFieldSlot, .pair a (UInt32.ofNat k)⟩
  /-- Any other field is looked up by its name. -/
  | byName {write : Bool} {a b : UInt32} (plain : (f.isCaptured || f.isEnclosing) = false)
      (owner_eq : constants.string? a = some u.name) (name_eq : constants.string? b = some f.name)
      (slot_eq : layout.slot? f.name = none) :
      ReachedBy layout u constants f offset write
        ⟨offset, if write then .putExtField else .getExtField, .pair a b⟩

/-- A unit that is read from its bytes has fewer captured fields than there are 32-bit numbers, and
each of them is found at its position. -/
lemma TypeUnit.capturedFields_capturedPosition {u : TypeUnit} {f : FieldDecl} (hu : u.Verified)
    (hlength : u.fields.length < UInt32.size) (hf : u.field? f.name = some f)
    (hflag : f.isCaptured = true) :
    u.capturedFields[(UInt32.ofNat (Redirection.capturedPosition u f.name)).toNat]? = some f := by
  have hmem : f ∈ u.capturedFields := List.mem_filter.mpr ⟨List.mem_of_find?_eq_some hf, hflag⟩
  obtain ⟨p, hp⟩ : ∃ p, u.capturedFields.findIdx? (fun g => g.name = f.name) = some p := by
    refine Option.isSome_iff_exists.mp (List.findIdx?_isSome.trans ?_)
    exact List.any_eq_true.mpr ⟨f, hmem, by simp⟩
  obtain ⟨hlt, hname, -⟩ := List.findIdx?_eq_some_iff_getElem.mp hp
  have hle : u.capturedFields.length ≤ u.fields.length := List.length_filter_le _ _
  -- no two fields of a verified unit have one name
  have hsame : u.capturedFields[p] = f :=
    List.inj_on_of_nodup_map hu.fields_nodup (List.mem_filter.mp (List.getElem_mem hlt)).1
      (List.mem_of_find?_eq_some hf) (by simpa using hname)
  rw [Redirection.capturedPosition, hp, Option.getD_some, UInt32.toNat_ofNat_of_lt' (by omega),
    List.getElem?_eq_getElem hlt, hsame]

namespace Redirection

variable {cx : RedirectContext} {u : TypeUnit} {m : MethodDecl} {f : FieldDecl}
  {constants : ConstantPool} {s s' : RedirectState} {write : Bool} {offset : Nat} {a b : UInt32}

/-- An access to a field of the unit itself becomes the one for the field. -/
lemma reachedBy_of_ownFieldAccess {op : Opcode} {operands : Operands} {i' : Instruction}
    (hu : u.Verified) (hlength : u.fields.length < UInt32.size) (hf : u.field? f.name = some f)
    (ha : constants.string? a = some u.name) (hb : constants.string? b = some f.name)
    (h : ownFieldAccess cx u m write ⟨offset, op, operands⟩ a b f.name s = .ok (i', s')) :
    f.ReachedBy cx.layout u constants offset write i' := by
  simp only [ownFieldAccess, hf] at h
  split at h
  · cases h
  · split at h
    · next hflags =>
      split at h
      · cases h
      · next hread =>
        obtain rfl : write = false := by simpa using hread
        split at h <;> obtain ⟨rfl, -⟩ := Prod.mk.inj (Except.ok.inj h)
        · next hflag => exact .enclosing hflag
        · next hother =>
          have hother : f.isEnclosing = false := by simpa using hother
          have hflag : f.isCaptured = true := by simpa [hother] using hflags
          exact .captured hother hflag (u.capturedFields_capturedPosition hu hlength hf hflag)
    · next hplain =>
      have hplain : (f.isCaptured || f.isEnclosing) = false := by simpa using hplain
      split at h <;> obtain ⟨rfl, -⟩ := Prod.mk.inj (Except.ok.inj h)
      · next hslot => exact .slot hplain ha hslot
      · next hslot => exact .byName hplain ha hb hslot

/-- The same of the instruction that accesses the field. -/
lemma reachedBy_of_instruction {ordinal : Nat} {i' : Instruction} (hu : u.Verified)
    (hlength : u.fields.length < UInt32.size) (hf : u.field? f.name = some f)
    (ha : s.constants.string? a = some u.name) (hb : s.constants.string? b = some f.name)
    (hgrows : s.constants.strings.toList <+: constants.strings.toList)
    (h : instruction cx u m ordinal ⟨offset, if write then .putField else .getField, .pair a b⟩ s =
      .ok (i', s')) : f.ReachedBy cx.layout u constants offset write i' := by
  have haccess : fieldAccess cx u m write
      ⟨offset, if write then .putField else .getField, .pair a b⟩ a b s = .ok (i', s') := by
    cases write <;> exact h
  simp only [fieldAccess, stringAt, ha, hb, owner, ↓reduceIte, Outcome.ok_bind] at haccess
  exact reachedBy_of_ownFieldAccess hu hlength hf (ConstantPool.string?_mono hgrows ha)
    (ConstantPool.string?_mono hgrows hb) haccess

/-- Every instruction that is redirected comes out, with the states before and after. -/
lemma exists_of_instructions {ordinal : Nat} {l l' : List Instruction} {i : Instruction}
    (hfits : ∀ i ∈ l, i.Fits) (h : instructions cx u m ordinal s l = .ok (l', s')) (hi : i ∈ l) :
    ∃ n s₀ i' s₁, instruction cx u m n i s₀ = .ok (i', s₁) ∧ i' ∈ l' ∧ s.Grows s₀ ∧
      s₀.Grows s' := by
  induction l generalizing ordinal s l' s' with
  | nil => cases hi
  | cons j rest ih =>
    obtain ⟨hj, hrest⟩ := List.forall_mem_cons.mp hfits
    obtain ⟨j', s₁, rest', hfirst, hothers, rfl⟩ := instructions_cons_eq_ok.mp h
    have hgrows := (redirected_of_instruction (m := m) hj hfirst).grows
    rcases List.mem_cons.mp hi with rfl | hi
    · exact ⟨ordinal, s, j', s₁, hfirst, List.mem_cons_self, .refl s,
        hgrows.trans (redirectedAll_of_instructions hrest hothers).grows⟩
    · obtain ⟨n, s₀, i', s₃, hinstruction, hmem, hbefore, hafter⟩ := ih hrest hothers hi
      exact ⟨n, s₀, i', s₃, hinstruction, List.mem_cons_of_mem _ hmem, hgrows.trans hbefore, hafter⟩

/-- Every method that is redirected comes out with its instructions, with the states before and
after. -/
lemma exists_of_methods {ms ms' : List MethodDecl} (h : methods cx u s ms = .ok (ms', s'))
    (hm : m ∈ ms) :
    ∃ l l' s₀ s₁, Instruction.decodeAll m.code = .ok l ∧
      instructions cx u m 0 s₀ l = .ok (l', s₁) ∧ s.Grows s₀ ∧ s₁.Grows s' ∧
      ∃ m' ∈ ms', m'.key = m.key ∧ m'.instructions = l' := by
  induction ms generalizing s ms' s' with
  | nil => cases hm
  | cons m₀ rest ih =>
    obtain ⟨m₁, s₁, rest', hfirst, hothers, rfl⟩ := methods_cons_eq_ok.mp h
    obtain ⟨l, l', hdecoded, hinstructions, rfl⟩ := method_eq_ok.mp hfirst
    have htiles := (Instruction.tiles_of_decodeAll hdecoded).1
    have hall := redirectedAll_of_instructions htiles.fits hinstructions
    have hafter := (redirectedMethods_of_methods hothers).grows
    rcases List.mem_cons.mp hm with rfl | hm
    · have hdecoded' := Instruction.decodeAll_encodeAll (hall.tiles htiles)
      exact ⟨l, l', s, s₁, hdecoded, hinstructions, .refl s, hafter, _, List.mem_cons_self, rfl,
        MethodDecl.instructions_eq hdecoded'⟩
    · obtain ⟨l₁, l₁', s₃, s₄, hl, hredirected, hgrows, hafter', m', hm', hrest⟩ := ih hothers hm
      exact ⟨l₁, l₁', s₃, s₄, hl, hredirected, hall.grows.trans hgrows, hafter', m',
        List.mem_cons_of_mem _ hm', hrest⟩

end Redirection

/-- Every access of a method to a field of its unit becomes the one for the field, at the offset where
it is. -/
theorem TypeUnit.reached_of_redirect {u : TypeUnit} {cx : RedirectContext}
    {redirected : RedirectedVersion} {write : Bool} {key : String} {offset : Nat} {f : FieldDecl}
    (hu : u.Verified) (hlength : u.fields.length < UInt32.size)
    (h : u.redirect cx true = .ok redirected) (haccess : u.Accesses write key offset f) :
    ∃ m ∈ redirected.executor.methods, m.key = key ∧ ∃ i ∈ m.instructions, i.offset = offset ∧
      f.ReachedBy cx.layout u redirected.executor.constants offset write i := by
  obtain ⟨methods, s, hmethods, hexecutor, -⟩ := methods_of_redirect h
  obtain ⟨m, hm, rfl, a, b, hi, ha, hb⟩ := haccess.named
  obtain ⟨l, l', s₀, s₁, hl, hinstructions, hbefore, hafter, m', hm', hkey, hm''⟩ :=
    Redirection.exists_of_methods hmethods hm
  rw [MethodDecl.instructions_eq hl] at hi
  have hfits := (Instruction.tiles_of_decodeAll hl).1.fits
  obtain ⟨n, s₂, i', s₃, hinstruction, hi', hbefore', hafter'⟩ :=
    Redirection.exists_of_instructions hfits hinstructions hi
  have hstrings := (hbefore.trans hbefore').constants
  have hreached := Redirection.reachedBy_of_instruction hu hlength haccess.field_eq
    (ConstantPool.string?_mono hstrings ha) (ConstantPool.string?_mono hstrings hb)
    (hafter'.trans hafter).constants hinstruction
  rw [hexecutor]
  refine ⟨m', hm', hkey, i', hm'' ▸ hi', ?_, hreached⟩
  cases hreached <;> rfl

end LiveTypes
