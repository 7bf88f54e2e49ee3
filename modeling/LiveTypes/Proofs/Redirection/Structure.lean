import LiveTypes.Proofs.Capture.Key
import LiveTypes.Proofs.Redirection.Crowded
import LiveTypes.Proofs.Redirection.Footprint
import Mathlib.Data.List.Perm.Subperm

/-!
# The structure of a redirected version

The executor of a version has the methods of its unit one for one. Their bodies have the same lengths,
with instructions at the same offsets, and only those that reach members or create closures are others
(`TypeUnit.follows_of_redirect`). The constants of the unit keep their indices; the keys of the sites
come behind them, and the instruction of each closure names the site that was bound for it, as long as
there are indices for all strings. When there are not, it names another constant
(`TypeUnit.not_namesSite_crowded`).
-/

namespace LiveTypes

/-! ### What a version takes over -/

/-- The instructions of a redirected method that create closures, in code order. -/
def MethodDecl.captures (m : MethodDecl) : List Instruction :=
  m.instructions.filter fun i => i.opcode = .makeCaptured

/-- Whether a method has the declaration of another and its instructions redirected, each of them in
place. -/
structure MethodDecl.RedirectsTo (m m' : MethodDecl) : Prop where
  same : m' = { m with code := m'.code }
  length_eq : m'.code.length = m.code.length
  bodies : ∃ l l', Instruction.decodeAll m.code = .ok l ∧ Instruction.decodeAll m'.code = .ok l' ∧
    l'.map Instruction.offset = l.map Instruction.offset ∧
    List.Forall₂ Instruction.RedirectsTo l l' ∧
    Instruction.patchAll m.code (l.zip l') = some m'.code
  redirected : ∀ i ∈ m'.instructions,
    i.opcode ≠ .getField ∧ i.opcode ≠ .putField ∧ i.opcode ≠ .makeClosure

/-- Whether the constant of an instruction is the key of a site. -/
def Instruction.NamesSite (constants : ConstantPool) (i : Instruction) (id : SiteId) : Prop :=
  ∃ index count flags key, i.operands = .closure index count flags ∧
    constants.string? index = some key ∧ SiteId.ofKey? id.declaring key = some id

/-- What a redirected version has of its unit, and what comes in for the closures. -/
structure RedirectedVersion.Follows (cx : RedirectContext) (u : TypeUnit) (r : RedirectedVersion) :
    Prop where
  methods : List.Forall₂ MethodDecl.RedirectsTo u.methods r.executor.methods
  strings : u.constants.strings.toList <+: r.executor.constants.strings.toList
  integers_eq : r.executor.constants.integers = u.constants.integers
  floats_eq : r.executor.constants.floats = u.constants.floats
  bindings_eq : r.bindings.map SiteBinding.id = u.methods.flatMap (MethodDecl.sites cx.typeId)
  sites_nodup : (r.bindings.map SiteBinding.id).Nodup
  captures : ¬ r.executor.constants.Overfull → List.Forall₂ (fun m m' =>
    List.Forall₂ (Instruction.NamesSite r.executor.constants) m'.captures (m.sites cx.typeId))
    u.methods r.executor.methods

variable {cx : RedirectContext} {u : TypeUnit} {m : MethodDecl} {ordinal : Nat}
  {i i' : Instruction} {s s' : RedirectState} {l l' : List Instruction} {ms ms' : List MethodDecl}

/-! ### Methods -/

lemma Instruction.RedirectsTo.offset_eq (h : i.RedirectsTo i') : i'.offset = i.offset := by
  cases h <;> rfl

/-- No instruction is left that reaches a member or a host through its name. -/
lemma Instruction.RedirectsTo.redirected (h : i.RedirectsTo i') :
    i'.opcode ≠ .getField ∧ i'.opcode ≠ .putField ∧ i'.opcode ≠ .makeClosure := by
  cases h with
  | same hkept => exact hkept
  | read _ _ hop | write _ _ hop =>
    refine ⟨?_, ?_, ?_⟩ <;>
    · rintro rfl
      simp at hop
  | call isStatic => cases isStatic <;> simp
  | creation => simp

lemma Instruction.RedirectsTo.offsets_eq (h : List.Forall₂ Instruction.RedirectsTo l l') :
    l'.map Instruction.offset = l.map Instruction.offset := by
  induction h with
  | nil => rfl
  | cons hi _ ih => rw [List.map_cons, List.map_cons, hi.offset_eq, ih]

lemma RedirectedAll.redirectsTo (h : RedirectedAll cx u m ordinal s l l' s') :
    List.Forall₂ Instruction.RedirectsTo l l' := by
  induction h with
  | nil => exact .nil
  | cons first _ ih => exact .cons first.redirectsTo ih

lemma RedirectedAll.method_redirectsTo (hdecoded : Instruction.decodeAll m.code = .ok l)
    (h : RedirectedAll cx u m ordinal s l l' s') :
    m.RedirectsTo { m with code := Instruction.encodeAll l' } := by
  obtain ⟨hpatched, hdecoded', hlength⟩ :=
    Instruction.patchAll_of_decodeAll hdecoded h.displaces
  have hall := h.redirectsTo
  have hoffsets := Instruction.RedirectsTo.offsets_eq hall
  refine ⟨rfl, hlength, ⟨l, l', hdecoded, hdecoded', hoffsets, hall, hpatched⟩, fun i' hi' => ?_⟩
  rw [MethodDecl.instructions_eq hdecoded'] at hi'
  obtain ⟨i, -, hi⟩ := Outcome.exists_mem_of_forall₂ hall.flip hi'
  exact hi.redirected

lemma RedirectedMethods.redirectsTo (h : RedirectedMethods cx u s ms ms' s') :
    List.Forall₂ MethodDecl.RedirectsTo ms ms' := by
  induction h with
  | nil => exact .nil
  | cons hdecoded first _ ih => exact .cons (first.method_redirectsTo hdecoded) ih

/-! ### Literals -/

lemma Redirected.literals_eq (h : Redirected cx u m ordinal i s i' s') :
    s'.constants.literals = s.constants.literals := by
  cases h with
  | plain hconstants => rw [hconstants]
  | site _ _ _ _ _ hconstants => rw [hconstants, ConstantPool.literals_intern]

lemma RedirectedAll.literals_eq (h : RedirectedAll cx u m ordinal s l l' s') :
    s'.constants.literals = s.constants.literals := by
  induction h with
  | nil => rfl
  | cons first _ ih => exact ih.trans first.literals_eq

lemma RedirectedMethods.literals_eq (h : RedirectedMethods cx u s ms ms' s') :
    s'.constants.literals = s.constants.literals := by
  induction h with
  | nil => rfl
  | cons _ first _ ih => exact ih.trans first.literals_eq

/-! ### Keys -/

/-- Whether the constant of an instruction is what a site has for its key. -/
def Instruction.HasKey (constants : ConstantPool) (i : Instruction) (id : SiteId) : Prop :=
  ∃ index count flags, i.operands = .closure index count flags ∧
    constants.string? index = some id.key

section

variable {constants : ConstantPool} (hfull : ¬ constants.Overfull)
include hfull

/-- The instructions that create closures have the keys of the sites that were bound for them. -/
lemma RedirectedAll.hasKey (h : RedirectedAll cx u m ordinal s l l' s')
    (hgrows : s'.constants.strings.toList <+: constants.strings.toList) :
    List.Forall₂ (Instruction.HasKey constants) (l'.filter fun i => i.opcode = .makeCaptured)
      ((List.range' ordinal (l.filter fun i => i.opcode = .makeClosure).length).map
        fun n => ⟨cx.typeId, m.key, n⟩) := by
  induction h with
  | nil => exact .nil
  | cons first others ih =>
    have hrest := ih hgrows
    cases first with
    | plain _ _ _ _ _ hcreated hredirected =>
      rw [if_neg hcreated] at hrest
      rwa [List.filter_cons_of_neg (by simpa using hredirected.2.2.2),
        List.filter_cons_of_neg (by simpa using hcreated)]
    | @site b hostIndex count flags hop hoperands _ hid hresult hconstants =>
      subst hresult
      rw [if_pos hop] at hrest
      rw [List.filter_cons_of_pos (by simp), List.filter_cons_of_pos (by simpa using hop),
        List.length_cons, List.range'_succ, List.map_cons]
      have hprefix := (hconstants ▸ others.grows.constants).trans hgrows
      refine .cons ⟨_, count, flags, rfl, ?_⟩ hrest
      rw [← hid]
      exact (ConstantPool.string?_intern hprefix).resolve_left hfull

/-- Each place of a closure in its method is a 32-bit number: the keys of the sites are among the
constants, and no two are the same. -/
lemma MethodDecl.ordinal_lt {typeId : TypeId} {captures : List Instruction}
    (h : List.Forall₂ (Instruction.HasKey constants) captures (m.sites typeId))
    {id : SiteId} (hid : id ∈ m.sites typeId) : id.ordinal < UInt32.size := by
  have hkeys : (m.sites typeId).map SiteId.key ⊆ constants.strings.toList := by
    intro key hkey
    obtain ⟨id, hid, rfl⟩ := List.mem_map.mp hkey
    obtain ⟨_, -, index, _, _, -, hstring⟩ := Outcome.exists_mem_of_forall₂ h.flip hid
    rw [ConstantPool.string?, ← Array.getElem?_toList] at hstring
    exact List.mem_of_getElem? hstring
  have hnodup : ((m.sites typeId).map SiteId.key).Nodup := by
    rw [sites, List.map_map]
    exact List.nodup_range.map (SiteId.key_injective typeId m.key)
  have hlength := (List.subperm_of_subset hnodup hkeys).length_le
  rw [List.length_map, sites, List.length_map, List.length_range] at hlength
  have hsize : constants.strings.toList.length ≤ UInt32.size := Nat.le_of_not_lt hfull
  obtain ⟨n, hn, rfl⟩ := List.mem_map.mp hid
  exact Nat.lt_of_lt_of_le (List.mem_range.mp hn) (Nat.le_trans hlength hsize)

/-- The instructions that create closures name the sites that were bound for them. -/
lemma MethodDecl.namesSite_of_hasKey {typeId : TypeId} {captures : List Instruction}
    (h : List.Forall₂ (Instruction.HasKey constants) captures (m.sites typeId)) :
    List.Forall₂ (Instruction.NamesSite constants) captures (m.sites typeId) := by
  obtain ⟨hlength, hall⟩ := List.forall₂_iff_zip.mp h
  refine List.forall₂_iff_zip.mpr ⟨hlength, fun {i id} hmem => ?_⟩
  obtain ⟨index, count, flags, hoperands, hkey⟩ := hall hmem
  have hlt := ordinal_lt hfull h (List.of_mem_zip hmem).2
  exact ⟨index, count, flags, id.key, hoperands, hkey, SiteId.ofKey?_key hlt⟩

lemma RedirectedMethods.namesSite (h : RedirectedMethods cx u s ms ms' s')
    (hgrows : s'.constants.strings.toList <+: constants.strings.toList) :
    List.Forall₂ (fun m m' =>
      List.Forall₂ (Instruction.NamesSite constants) m'.captures (m.sites cx.typeId)) ms ms' := by
  induction h with
  | nil => exact .nil
  | @cons _ _ _ m l l' _ _ hdecoded first others ih =>
    refine .cons (MethodDecl.namesSite_of_hasKey hfull ?_) (ih hgrows)
    have htiles := first.tiles (Instruction.tiles_of_decodeAll hdecoded).1
    rw [MethodDecl.captures, MethodDecl.sites_eq hdecoded,
      MethodDecl.instructions_eq (Instruction.decodeAll_encodeAll htiles)]
    exact first.hasKey hfull (others.grows.constants.trans hgrows)

end

/-! ### Versions -/

/-- A redirected version of a unit whose methods have different keys follows the unit, whether it is
verified or not. -/
theorem TypeUnit.follows_of_redirect {r : RedirectedVersion} {verify : Bool}
    (hkeys : (u.methods.map MethodDecl.key).Nodup) (h : u.redirect cx verify = .ok r) :
    r.Follows cx u := by
  obtain ⟨methods, s, hmethods, hexecutor, -⟩ := methods_of_redirect h
  have hredirected := redirectedMethods_of_methods hmethods
  have hliterals := hredirected.literals_eq
  have hconstants : r.executor.constants = s.constants := by
    rw [hexecutor]
    rfl
  have hexecutorMethods : r.executor.methods = methods := by
    rw [hexecutor]
    rfl
  have hids : r.bindings.map SiteBinding.id = u.methods.flatMap (MethodDecl.sites cx.typeId) :=
    ids_of_redirect h
  constructor
  · exact hexecutorMethods ▸ hredirected.redirectsTo
  · exact hconstants ▸ hredirected.grows.constants
  · rw [hconstants]
    exact congrArg Prod.fst hliterals
  · rw [hconstants]
    exact congrArg Prod.snd hliterals
  · exact hids
  · rw [hids]
    exact MethodDecl.nodup_sites cx.typeId hkeys
  · intro hfull
    rw [hconstants] at hfull ⊢
    exact hexecutorMethods ▸ hredirected.namesSite hfull (List.prefix_refl _)

/-- The host with a captured field follows. -/
theorem TypeUnit.follows_of_redirect_adderHost :
    (adderHost.methods.map MethodDecl.key).Nodup ∧
      ∃ r, adderHost.redirect bareContext true = .ok r ∧ r.Follows bareContext adderHost := by
  have hfacts : (adderHost.methods.map MethodDecl.key).Nodup ∧
      (adderHost.redirect bareContext true).isOk = true := by
    decide +kernel
  obtain ⟨hkeys, hok⟩ := hfacts
  cases hredirect : adderHost.redirect bareContext true with
  | error e =>
    rw [hredirect] at hok
    cases hok
  | ok r => exact ⟨hkeys, r, rfl, TypeUnit.follows_of_redirect hkeys hredirect⟩

/-- A unit with all strings that there are indices for but one has a closure whose instruction names no
site. -/
theorem TypeUnit.not_namesSite_crowded :
    ∃ u g q r, u = crowded (List.replicate (UInt32.size - 4) "") ∧
      (Registry.create .default).register "a.G" encloser.encode = .ok (g, q) ∧
      (u.methods.map MethodDecl.key).Nodup ∧
      u.redirect (.ofBaseline q.size 0 u q) true = .ok r ∧
      ¬ List.Forall₂ (fun m m' => List.Forall₂ (Instruction.NamesSite r.executor.constants)
        m'.captures (m.sites q.size)) u.methods r.executor.methods := by
  obtain ⟨g, q, hhost⟩ := Crowded.exists_host
  obtain ⟨hsize, hblank⟩ := Crowded.replicate_blank
  -- only these two facts of the other constants are used
  generalize List.replicate (UInt32.size - 4) "" = rest at hsize hblank ⊢
  have hverified := verified_of_verify (Crowded.verify_eq_ok rest)
  refine ⟨crowded rest, g, q, _, rfl, hhost.registered, hverified.methods_nodup,
    Crowded.redirect_eq hsize hblank hhost.found hhost.shape true, ?_⟩
  rintro (_ | ⟨-, _ | ⟨-, _ | ⟨-, _ | ⟨hlast, -⟩⟩⟩⟩)
  have hcaptures : (creator "z" .makeCaptured 1 0).captures =
      [⟨0, .makeCaptured, .closure 1 0 0⟩] := by
    rw [MethodDecl.captures, MethodDecl.instructions_eq (decodeAll_creator (.inr rfl))]
    rfl
  have hsites : (creator "z" .makeClosure 2 0).sites q.size = [⟨q.size, "z()V", 0⟩] := by
    rw [MethodDecl.sites_eq (decodeAll_creator (.inl rfl))]
    rfl
  rw [hcaptures, hsites, List.forall₂_cons] at hlast
  obtain ⟨⟨index, count, flags, key, hoperands, hstring, hkey⟩, -⟩ := hlast
  obtain ⟨rfl, -, -⟩ := Operands.closure.inj hoperands
  obtain rfl := Option.some.inj ((Crowded.string?_redirected _ rest g 0).2.symm.trans hstring)
  rw [Crowded.ofKey?_name] at hkey
  cases hkey

end LiveTypes
