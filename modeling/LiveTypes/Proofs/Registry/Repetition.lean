import LiveTypes.Proofs.Redirection.Repetition
import LiveTypes.Proofs.Registry.Apply
import LiveTypes.Proofs.Registry.Sites

/-!
# Registries with one repeated version more

A registry that was given the current version of a type once more differs from the one without that
version in the type and in the numbers that the maps of sites have for it. Every later operation is
accepted or refused alike in both, and they differ in the same way then (`Shifted.apply`).
-/

namespace LiveTypes

variable {q : Repetition}

/-! ### Types -/

/-- A body that the type publishes without the repetition, and the same body with it: one from before is
the very same, and one that was made later has the next number. -/
def Executable.Shifted (q : Repetition) (name : String) (e e' : Executable) : Prop :=
  (e.version < q.index ∧ e' = e) ∨
    (q.index ≤ e.version ∧ e.unitName = executorName name e.version ∧
      e' = { e with version := e.version + 1, unitName := executorName name (e.version + 1) })

/-- The type without the repetition, and with it. -/
structure LiveType.Repeated (q : Repetition) (t t' : LiveType) : Prop where
  same : t' = { t with later := t'.later, table := t'.table }
  length_eq : t'.versions.length = t.versions.length + 1
  index_le : q.index ≤ t.versions.length
  unit_eq : t'.current.unit = t.current.unit
  digest_eq : t'.current.summary.digest = t.current.summary.digest
  labels : ∀ label, label ≠ q.label →
    ((∃ v ∈ t'.versions, v.label = label) ↔ ∃ v ∈ t.versions, v.label = label)
  bodies : ∀ key,
    Option.Rel (Executable.Shifted q t.name) (t.table.find? key) (t'.table.find? key)

/-- A type without the repetition and with it: only the type whose version was repeated differs. -/
def LiveType.Shifted (q : Repetition) (t t' : LiveType) : Prop :=
  (t.id ≠ q.id ∧ t' = t) ∨ (t.id = q.id ∧ t.Repeated q t')

/-- A registry without the repetition, and with it. -/
structure Registry.Shifted (q : Repetition) (r r' : Registry) : Prop where
  config_eq : r'.config = r.config
  id_lt : q.id < r.types.length
  types : List.Forall₂ (LiveType.Shifted q) r.types r'.types
  sites : r.sites.Shifted q r'.sites

namespace LiveType

variable {t t' : LiveType} {label : String} {bytes : List UInt8} {u : TypeUnit}

namespace Shifted

lemma same (h : t.Shifted q t') : t' = { t with later := t'.later, table := t'.table } := by
  rcases h with ⟨-, rfl⟩ | ⟨-, h⟩
  · rfl
  · exact h.same

lemma id_eq (h : t.Shifted q t') : t'.id = t.id := by
  rw [h.same]

lemma name_eq (h : t.Shifted q t') : t'.name = t.name := by
  rw [h.same]

/-- The next version of a type is numbered as its bodies and its bindings are. -/
lemma length_eq (h : t.Shifted q t') :
    t'.versions.length = q.shift t.id t.versions.length := by
  rcases h with ⟨hid, rfl⟩ | ⟨hid, h⟩
  · exact (if_neg hid).symm
  · rw [h.length_eq, Repetition.shift, if_pos hid]

lemma after (h : t.Shifted q t') : q.After t.id t.versions.length := by
  intro hid
  rcases h with ⟨hne, -⟩ | ⟨-, h⟩
  · exact absurd hid hne
  · exact Nat.le_succ_of_le h.index_le

lemma looks (h : t.Shifted q t') (ht : t.WellFormed) (ht' : t'.WellFormed) : t.Looks q t' := by
  refine ⟨h.same, ?_⟩
  rcases h with ⟨hid, rfl⟩ | ⟨hid, h⟩
  · cases hshape : t'.currentShape? with
    | none => exact .none
    | some x =>
      refine .some ⟨fun h => absurd h hid, ?_⟩
      rw [Repetition.shift, if_neg hid]
  · have hindex := ht.current_index
    have hindex' := ht'.current_index
    have hpublished := ht.published
    have hpublished' := ht'.published
    have hlength := h.length_eq
    have hle := h.index_le
    unfold currentShape?
    rw [h.unit_eq]
    split
    · refine .some ⟨fun _ => ?_, ?_⟩
      · dsimp only
        omega
      · rw [Repetition.shift, if_pos hid, Prod.mk.injEq]
        exact ⟨by omega, rfl⟩
    · exact .none

lemma isCurrent (h : t.Shifted q t') (bytes : List UInt8) :
    t'.isCurrent bytes = t.isCurrent bytes := by
  rcases h with ⟨-, rfl⟩ | ⟨-, h⟩
  · rfl
  · rw [LiveType.isCurrent, LiveType.isCurrent, h.digest_eq]

/-- A candidate under another label than that of the repetition is accepted or refused alike. -/
lemma candidate (h : t.Shifted q t') (hlabel : t.id = q.id → label ≠ q.label) (verify : Bool)
    (bytes : List UInt8) :
    t'.candidate verify label bytes = t.candidate verify label bytes := by
  have hhistory : t'.history = t.history := by rw [h.same]
  have hany : (t'.versions.any fun v => v.label = label) =
      t.versions.any fun v => v.label = label := by
    rcases h with ⟨-, rfl⟩ | ⟨hid, h⟩
    · rfl
    · rw [Bool.eq_iff_iff]
      simpa using h.labels label (hlabel hid)
  unfold LiveType.candidate
  rw [hhistory, hany]

end Shifted

namespace Repeated

/-- The type with another version, without the repetition and with it. -/
lemma publish (h : t.Repeated q t') (v v' : Version) (table table' : ExecutorTable)
    (hunit : v'.unit = v.unit) (hdigest : v'.summary.digest = v.summary.digest)
    (hlabel : v'.label = v.label) (htable : table.version = t.versions.length)
    (htable' : table'.version = t'.versions.length)
    (hbodies : ∀ key,
      Option.Rel (Executable.Shifted q t.name) (table.find? key) (table'.find? key)) :
    (t.publish v table).Repeated q (t'.publish v' table') where
  same := by
    rw [h.same]
    rfl
  length_eq := by
    simp [h.length_eq]
  index_le := by
    rw [versions_publish, List.length_append]
    exact Nat.le_add_right_of_le h.index_le
  unit_eq := by rw [current_publish htable, current_publish htable', hunit]
  digest_eq := by rw [current_publish htable, current_publish htable', hdigest]
  labels label hne := by
    have hold := h.labels label hne
    simp only [versions_publish, List.mem_append, List.mem_singleton, or_and_right, exists_or,
      exists_eq_left, hold, hlabel]
  bodies := hbodies

lemma withHistory (h : t.Repeated q t') (history : History) :
    Repeated q { t with history } { t' with history } where
  same := by rw [h.same]
  length_eq := h.length_eq
  index_le := h.index_le
  unit_eq := h.unit_eq
  digest_eq := h.digest_eq
  labels := h.labels
  bodies := h.bodies

/-- A reload that repeats the current version. -/
lemma reloadSame (h : t.Repeated q t') (label : String) (bytes : List UInt8) (u : TypeUnit) :
    (t.reloadSame label bytes u).Repeated q (t'.reloadSame label bytes u) :=
  h.publish _ _ _ _ rfl rfl rfl rfl rfl h.bodies

end Repeated

lemma Shifted.reloadSame (h : t.Shifted q t') (label : String) (bytes : List UInt8)
    (u : TypeUnit) : (t.reloadSame label bytes u).Shifted q (t'.reloadSame label bytes u) := by
  rcases h with ⟨hid, rfl⟩ | ⟨hid, h⟩
  · exact .inl ⟨hid, rfl⟩
  · exact .inr ⟨hid, h.reloadSame label bytes u⟩

end LiveType

/-- The type and the same type with its current version once more. -/
lemma LiveType.WellFormed.repeated_reloadSame {t : LiveType} (ht : t.WellFormed) (label : String) :
    t.Repeated ⟨t.id, t.versions.length, label⟩
      (t.reloadSame label t.current.bytes t.current.unit) := by
  have hlast : (t.reloadSame label t.current.bytes t.current.unit).current =
      t.nextVersion label t.current.bytes t.current.unit t.current.executorBytes :=
    current_publish rfl
  have hversions : (t.reloadSame label t.current.bytes t.current.unit).versions = t.versions ++
      [t.nextVersion label t.current.bytes t.current.unit t.current.executorBytes] := rfl
  exact {
    same := rfl
    length_eq := by rw [hversions, List.length_append]; rfl
    index_le := Nat.le_refl _
    unit_eq := by rw [hlast]; rfl
    digest_eq := by
      rw [hlast, (ht.genuine _ ht.current_mem).summary_eq]
      rfl
    labels label' hne := by
      simp only [hversions, List.mem_append, List.mem_singleton, or_and_right, exists_or,
        exists_eq_left]
      exact or_iff_left fun heq => hne heq.symm
    bodies key := by
      show Option.Rel _ (t.table.find? key) (t.table.find? key)
      cases he : t.table.find? key with
      | none => exact .none
      | some e =>
        obtain ⟨version, hle, hbodies⟩ := ht.bodies
        have hversion := (hbodies key e he).2.2.1
        have hpublished := ht.published
        refine .some (.inl ⟨?_, rfl⟩)
        show e.version < t.versions.length
        omega }

/-! ### Redirected versions -/

lemma ExecutorTable.find?_ofUnit (u : TypeUnit) (id : TypeId) (name label key : String)
    (version : Nat) : (ofUnit u id name version label).find? key =
      ((AssocMap.ofList (u.methods.map fun m => (m.key, m))).find? key).map
        (executable u id name version) :=
  AssocMap.find?_ofList_map _ _ _ _

namespace RedirectedVersion.Shifted

variable {x y : RedirectedVersion} {cx cx' : RedirectContext} {u : TypeUnit} {verify : Bool}

/-- Another type gets the same executor. -/
lemma executor_eq (h : x.Shifted q y) (hcx : cx.Shifted q cx') (hid : cx.typeId ≠ q.id)
    (hx : u.redirect cx verify = .ok x) (hy : u.redirect cx' verify = .ok y) :
    y.executor = x.executor := by
  have hversion : cx'.version = cx.version := by
    rw [hcx.same]
    exact if_neg hid
  rw [h.executor, TypeUnit.name_executor hy, hversion, ← TypeUnit.name_executor hx]

/-- The new bodies of the type whose version was repeated have the next number. -/
lemma bodies (h : x.Shifted q y) {name : String} {version : Nat} (hle : q.index ≤ version)
    (hx : x.executor.name = executorName name version)
    (hy : y.executor.name = executorName name (version + 1)) (id : TypeId) (label key : String) :
    Option.Rel (Executable.Shifted q name)
      ((ExecutorTable.ofUnit x.executor id name version label).find? key)
      ((ExecutorTable.ofUnit y.executor id name (version + 1) label).find? key) := by
  rw [ExecutorTable.find?_ofUnit, ExecutorTable.find?_ofUnit, h.executor]
  dsimp only
  cases (AssocMap.ofList (x.executor.methods.map fun m => (m.key, m))).find? key with
  | none => exact .none
  | some m =>
    refine .some (.inr ⟨hle, hx, ?_⟩)
    simp only [ExecutorTable.executable, hy]

end RedirectedVersion.Shifted

/-! ### Registries -/

namespace Registry

variable {r r' : Registry} {t t' : LiveType}

open Outcome

namespace Shifted

lemma find? (h : r.Shifted q r') (name : String) :
    Option.Rel (LiveType.Shifted q) (r.find? name) (r'.find? name) :=
  rel_find? h.types fun t t' ht => by rw [ht.name_eq]

lemma byId? (h : r.Shifted q r') (id : TypeId) :
    Option.Rel (LiveType.Shifted q) (r.byId? id) (r'.byId? id) :=
  rel_getElem? h.types id

lemma size_eq (h : r.Shifted q r') : r'.size = r.size := h.types.length_eq.symm

lemma context (h : r.Shifted q r') (hr : r.WellFormed) (hr' : r'.WellFormed)
    {cx cx' : RedirectContext} (hregistry : cx.registry = r) (hregistry' : cx'.registry = r')
    (hsame : cx' = { cx with version := q.shift cx.typeId cx.version, registry := cx'.registry })
    (hafter : q.After cx.typeId cx.version) : cx.Shifted q cx' := by
  refine ⟨hsame, hafter, fun name => ?_⟩
  rw [hregistry, hregistry']
  rcases rel_cases (h.find? name) with ⟨hnone, hnone'⟩ | ⟨t, t', ht, ht', htt⟩
  · rw [hnone, hnone']
    exact .none
  · rw [ht, ht']
    exact .some (htt.looks (hr.types t (mem_of_find? ht)) (hr'.types t' (mem_of_find? ht')))

lemma replace (h : r.Shifted q r') (ht : t.Shifted q t') : (r.replace t).Shifted q (r'.replace t') where
  config_eq := h.config_eq
  id_lt := by
    rw [Registry.replace, List.length_set]
    exact h.id_lt
  types := by
    rw [Registry.replace, Registry.replace, ht.id_eq]
    exact forall₂_set h.types t.id ht
  sites := h.sites

lemma withSites (h : r.Shifted q r') {sites sites' : SiteTable} (hsites : sites.Shifted q sites') :
    Registry.Shifted q { r with sites } { r' with sites := sites' } :=
  ⟨h.config_eq, h.id_lt, h.types, hsites⟩

lemma checkSites (h : r.Shifted q r') (ht : t.Shifted q t') (u : TypeUnit)
    {bindings bindings' : List SiteBinding}
    (hb : List.Forall₂ (SiteBinding.Shifted q) bindings bindings') :
    r'.checkSites t' u bindings' = r.checkSites t u bindings := by
  unfold Registry.checkSites
  rw [forM_eq_forM hb fun _ _ hb => h.sites.check hb, h.sites.checkHost, ht.name_eq, ht.id_eq]

lemma bindSites (h : r.Shifted q r') (ht : t.Shifted q t') (u : TypeUnit)
    {bindings bindings' : List SiteBinding}
    (hb : List.Forall₂ (SiteBinding.Shifted q) bindings bindings') :
    (r.bindSites t u bindings).Shifted q (r'.bindSites t' u bindings') := by
  unfold Registry.bindSites
  dsimp only
  rw [ht.name_eq, ht.id_eq, ht.length_eq]
  split
  · exact (h.sites.bindAll hb).rebindHost ht.after u.hostShape
  · exact h.sites.bindAll hb

end Shifted

/-! ### Operations -/

/-- The type with a version of its own, without the repetition and with it. -/
lemma shifted_reloadNew (ht : t.Shifted q t') {label : String} {bytes : List UInt8} {u : TypeUnit}
    {verify : Bool} (hname : u.name = t.name) {cx cx' : RedirectContext} (hcx : cx.Shifted q cx')
    (htypeId : cx.typeId = t.id) (hversion : cx.version = t.versions.length)
    (hversion' : cx'.version = t'.versions.length) {x y : RedirectedVersion}
    (hx : u.redirect cx verify = .ok x) (hy : u.redirect cx' verify = .ok y) (hxy : x.Shifted q y) :
    (t.reloadNew label bytes u x).Shifted q (t'.reloadNew label bytes u y) := by
  rcases ht with ⟨hid, rfl⟩ | ⟨hid, ht⟩
  · refine .inl ⟨hid, ?_⟩
    unfold LiveType.reloadNew
    rw [hxy.executor_eq hcx (htypeId ▸ hid) hx hy]
  · refine .inr ⟨hid, ?_⟩
    have hnameX := TypeUnit.name_executor hx
    have hnameY := TypeUnit.name_executor hy
    rw [hname, hversion] at hnameX
    rw [hname, hversion', ht.length_eq] at hnameY
    have hsame : t'.id = t.id ∧ t'.name = t.name ∧ t'.history = t.history := by
      rw [ht.same]
      exact ⟨rfl, rfl, rfl⟩
    have hpublished := ht.publish (t.nextVersion label bytes u x.executor.encode)
      (t'.nextVersion label bytes u y.executor.encode)
      (.ofUnit x.executor t.id t.name t.versions.length label)
      (.ofUnit y.executor t.id t.name t'.versions.length label) rfl rfl rfl rfl rfl fun key => by
        rw [ht.length_eq]
        exact hxy.bodies ht.index_le hnameX hnameY t.id label key
    unfold LiveType.reloadNew
    dsimp only
    rw [hsame.1, hsame.2.1, hsame.2.2]
    exact hpublished.withHistory (t.history.record u)

namespace Shifted

/-- A reload under another label than that of the repetition does the same with it. -/
lemma tryReload (h : r.Shifted q r') (hr : r.WellFormed) (hr' : r'.WellFormed) (ht : t ∈ r.types)
    (htt : t.Shifted q t') {label : String}
    (hlabel : t.id = q.id → label ≠ q.label) (bytes : List UInt8) :
    Outcome.Alike (Registry.Shifted q) (r.tryReload t label bytes) (r'.tryReload t' label bytes) := by
  have hverify : r'.config.verify = r.config.verify := by rw [h.config_eq]
  unfold Registry.tryReload
  rw [hverify, htt.candidate hlabel, htt.isCurrent]
  cases hcandidate : t.candidate r.config.verify label bytes with
  | error e => exact .error e
  | ok u =>
    have haccepts := LiveType.candidate_eq_ok.mp hcandidate
    refine .ite (fun _ => ?_) fun _ => ?_
    · exact .ok (h.replace (htt.reloadSame label bytes u))
    · have hcx : RedirectContext.Shifted q ⟨t.id, t.versions.length, t.layout, t.loadedMethods, r⟩
          ⟨t'.id, t'.versions.length, t'.layout, t'.loadedMethods, r'⟩ := by
        refine h.context hr hr' rfl rfl ?_ htt.after
        rw [htt.length_eq, htt.same]
      refine (u.redirect_shifted hcx r.config.verify).bind_of_eq fun x y hx hy hxy => ?_
      rw [h.checkSites htt u hxy.bindings]
      refine .after fun _ => .ok ?_
      refine (h.withSites (h.bindSites htt u hxy.bindings)).replace ?_
      exact shifted_reloadNew htt (haccepts.name_eq (hr.types t ht)) hcx rfl rfl rfl hx hy hxy

/-- A reload does the same with the repetition, unless it has the label of the repetition. -/
lemma reload (h : r.Shifted q r') (hr : r.WellFormed) (hr' : r'.WellFormed) {name label : String}
    (hlabel : ∀ t, r.find? name = some t → t.id = q.id → label ≠ q.label) (bytes : List UInt8) :
    Outcome.Alike (Registry.Shifted q) (r.reload name label bytes) (r'.reload name label bytes) := by
  unfold Registry.reload
  rcases rel_cases (h.find? name) with ⟨hnone, hnone'⟩ | ⟨t, t', ht, ht', htt⟩
  · rw [hnone, hnone']
    exact .error _
  · rw [ht, ht']
    dsimp only [Registry.reloadType]
    rw [htt.name_eq]
    exact ((h.tryReload hr hr' (mem_of_find? ht) htt (hlabel t ht) bytes).mapError _).mapError _

/-- A type is made from its first version as it is without the repetition. -/
lemma create (h : r.Shifted q r') (hr : r.WellFormed) (hr' : r'.WellFormed) (u : TypeUnit)
    (bytes : List UInt8) :
    Outcome.Alike (fun x y => x.1.id = r.size ∧ y.1 = x.1 ∧ List.Forall₂ (SiteBinding.Shifted q) x.2 y.2)
      (LiveType.create r r.size u bytes) (LiveType.create r' r'.size u bytes) := by
  have hne : r.size ≠ q.id := Nat.ne_of_gt h.id_lt
  have hcx : RedirectContext.Shifted q (.ofBaseline r.size 0 u r) (.ofBaseline r.size 0 u r') := by
    have hzero : q.shift r.size 0 = 0 := if_neg hne
    refine h.context hr hr' rfl rfl ?_ fun hid => absurd hid hne
    simp only [RedirectContext.ofBaseline, hzero]
  unfold LiveType.create
  rw [h.size_eq, h.config_eq]
  refine .after fun loaded => ?_
  refine (u.redirect_shifted hcx r.config.verify).bind_of_eq fun x y hx hy hxy => .ok ?_
  dsimp only
  rw [hxy.executor_eq hcx hne hx hy]
  exact ⟨rfl, rfl, hxy.bindings⟩

/-- A registration does the same with the repetition, and makes the same type. -/
lemma register (h : r.Shifted q r') (hr : r.WellFormed) (hr' : r'.WellFormed) (name : String)
    (bytes : List UInt8) :
    Outcome.Alike (fun x y => y.1 = x.1 ∧ x.2.Shifted q y.2) (r.register name bytes)
      (r'.register name bytes) := by
  have hincludes : r'.includes name = r.includes name := by
    unfold Registry.includes
    rw [h.config_eq]
  have hfound : (r'.find? name).isSome = (r.find? name).isSome := by
    rcases rel_cases (h.find? name) with ⟨hnone, hnone'⟩ | ⟨t, t', ht, ht', -⟩
    · rw [hnone, hnone']
    · rw [ht, ht']
      rfl
  unfold Registry.register
  rw [hincludes, hfound]
  refine .ite (fun _ => .error _) fun _ => .ite (fun _ => .error _) fun _ => .mapError _ ?_
  have hverify : r'.config.verify = r.config.verify := by rw [h.config_eq]
  unfold Registry.tryRegister
  rw [hverify]
  refine .after fun u => .ite (fun _ => .error _) fun _ => ?_
  refine (h.create hr hr' u bytes).bind ?_
  rintro ⟨_, bindings⟩ ⟨t, bindings'⟩ ⟨hid, rfl, hb⟩
  dsimp only
  rw [forM_eq_forM hb fun _ _ hb => h.sites.check hb]
  refine .after fun _ => .ok ⟨rfl, h.config_eq, ?_, ?_, h.sites.bindAll hb⟩
  · rw [List.length_append]
    exact Nat.lt_add_right _ h.id_lt
  · have hne : t.id ≠ q.id := hid ▸ Nat.ne_of_gt h.id_lt
    exact List.rel_append h.types (.cons (.inl ⟨hne, rfl⟩) .nil)

end Shifted

/-- Whether an operation gives no new version of a type under a label. -/
def Operation.Avoids (name label : String) : Operation → Prop
  | .register _ _ => True
  | .reload name' label' _ => name' = name → label' ≠ label

instance (name label : String) (op : Operation) : Decidable (op.Avoids name label) := by
  cases op <;> unfold Operation.Avoids <;> infer_instance

/-- Every operation under other labels than that of the repetition does the same with it. -/
theorem Shifted.apply (h : r.Shifted q r') (hr : r.WellFormed) (hr' : r'.WellFormed)
    {op : Operation} (hop : ∀ t, r.byId? q.id = some t → op.Avoids t.name q.label) :
    Outcome.Alike (Registry.Shifted q) (r.apply op) (r'.apply op) := by
  cases op with
  | register name bytes => exact (h.register hr hr' name bytes).map fun _ _ hxy => hxy.2
  | reload name label bytes =>
    refine h.reload hr hr' (fun t ht hid => ?_) bytes
    obtain rfl := find?_name ht
    exact hop t (hid ▸ hr.byId?_id (mem_of_find? ht)) rfl

/-- A reload of the current version of a type makes a registry that differs by the repetition. -/
theorem Reachable.shifted_reloadSame {config : RegistryConfig} (h : Reachable config r)
    (hverify : config.verify = true) (ht : t ∈ r.types) (label : String) :
    r.Shifted ⟨t.id, t.versions.length, label⟩
      (r.replace (t.reloadSame label t.current.bytes t.current.unit)) where
  config_eq := rfl
  id_lt := (List.getElem?_eq_some_iff.mp ((h.wellFormed hverify).byId?_id ht)).1
  types := by
    have hr := h.wellFormed hverify
    have hrepeated := (hr.types t ht).repeated_reloadSame label
    refine List.forall₂_iff_get.mpr ⟨(List.length_set).symm, fun k hk hk' => ?_⟩
    have hget : r.types[k]? = some r.types[k] := List.getElem?_eq_getElem hk
    have hkid := hr.id_eq k _ hget
    simp only [Registry.replace, List.get_eq_getElem, List.getElem_set]
    split_ifs with hid
    · have hsame : r.types[k] = t := hr.eq_of_id (List.getElem_mem hk) ht (hkid.trans hid.symm)
      rw [hsame]
      exact .inr ⟨rfl, hrepeated⟩
    · refine .inl ⟨fun heq => hid ?_, rfl⟩
      exact heq.symm.trans hkid
  sites id := by
    show Option.Rel _ (r.sites.find? id) (r.sites.find? id)
    cases hs : r.sites.find? id with
    | none => exact .none
    | some s =>
      refine .some ⟨rfl, List.forall₂_same.mpr fun m hm => .inl ⟨fun hid => ?_, rfl⟩⟩
      -- no site was bound to a version that does not exist yet
      obtain ⟨t', ht', hid', hle⟩ := (h.tidy hverify id s hs).2 m hm
      have hr := h.wellFormed hverify
      obtain rfl := hr.eq_of_id ht' ht (hid'.trans hid)
      have hpublished := (hr.types t' ht).published
      show m.hostVersion < t'.versions.length
      omega

end Registry

end LiveTypes
