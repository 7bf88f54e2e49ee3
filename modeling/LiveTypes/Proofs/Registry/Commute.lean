import LiveTypes.Proofs.Redirection.Footprint
import LiveTypes.Proofs.Registry.Placed
import LiveTypes.Proofs.Registry.Request

/-!
# Reloads of unrelated types

A reload of a type that hosts no closures changes the type and its sites, and reads the types that the
new code names. So two reloads of types that do not name each other can change places: each is accepted
or refused alike, and the registry is the same in the end (`Reachable.reload_comm`).
-/

namespace LiveTypes

namespace Registry

variable {r r₁ : Registry} {t t' : LiveType} {config : RegistryConfig} {name label : String}
  {bytes : List UInt8}

/-! ### Preparing and installing -/

/-- What a reload of a type that hosts no closures is going to change: the type and the bindings of its
sites. -/
def prepare (r : Registry) (t : LiveType) (label : String) (bytes : List UInt8) :
    Except RejectReason (LiveType × List SiteBinding) := do
  let u ← t.candidate r.config.verify label bytes
  if t.isCurrent bytes then return (t.reloadSame label bytes u, [])
  else
    let cx : RedirectContext := ⟨t.id, t.versions.length, t.layout, t.loadedMethods, r⟩
    let redirected ← u.redirect cx r.config.verify
    redirected.bindings.forM r.sites.check
    return (t.reloadNew label bytes u redirected, redirected.bindings)

/-- The registry with a type and bindings of its sites. -/
def install (r : Registry) (x : LiveType × List SiteBinding) : Registry :=
  replace { r with sites := bindAll r.sites x.2 } x.1

/-- A reload of a type that hosts no closures is prepared and then installed. -/
lemma tryReload_eq (hhost : t.history.closureHost = false) :
    r.tryReload t label bytes = (r.prepare t label bytes).map r.install := by
  unfold tryReload prepare
  cases hu : t.candidate r.config.verify label bytes with
  | error e => rfl
  | ok u =>
    have hclosure : u.isClosureHost = false := by
      have hchecked := (LiveType.candidate_eq_ok.mp hu).checked
      rw [(History.check_eq_ok.mp hchecked).2.2.1, hhost]
    simp only [Outcome.ok_bind]
    split_ifs with hcurrent
    · rfl
    · cases hredirect : u.redirect ⟨t.id, t.versions.length, t.layout, t.loadedMethods, r⟩
          r.config.verify with
      | error e => rfl
      | ok redirected =>
        simp only [Outcome.ok_bind, checkSites, bindSites, hclosure]
        cases redirected.bindings.forM r.sites.check with
        | error e => rfl
        | ok => rfl

/-- What is prepared for a type is the type itself, and sites of its own. -/
lemma of_prepare {x : LiveType × List SiteBinding} (h : r.prepare t label bytes = .ok x) :
    x.1.id = t.id ∧ x.1.name = t.name ∧ ∀ b ∈ x.2, b.id.declaring = t.id := by
  simp only [prepare, Outcome.bind_eq_ok] at h
  obtain ⟨u, -, h⟩ := h
  split_ifs at h with hcurrent
  · obtain rfl := Outcome.pure_eq_ok.mp h
    exact ⟨rfl, rfl, by simp⟩
  · simp only [Outcome.bind_eq_ok, Outcome.pure_eq_ok] at h
    obtain ⟨redirected, hredirect, -, -, rfl⟩ := h
    exact ⟨rfl, rfl, TypeUnit.declaring_of_redirect hredirect⟩

/-- The effects of reloads of two types can change places. -/
lemma install_comm {x y : LiveType × List SiteBinding} (hne : x.1.id ≠ y.1.id)
    (hx : ∀ b ∈ x.2, b.id.declaring = x.1.id) (hy : ∀ b ∈ y.2, b.id.declaring = y.1.id) :
    (r.install x).install y = (r.install y).install x := by
  have hsites : ∀ b ∈ x.2, ∀ b' ∈ y.2, b.id ≠ b'.id := by
    intro b hb b' hb' heq
    exact hne ((hx b hb).symm.trans ((congrArg SiteId.declaring heq).trans (hy b' hb')))
  simp only [install, replace, Registry.mk.injEq, true_and]
  exact ⟨List.set_comm _ _ hne, bindAll_comm r.sites hsites⟩

/-! ### Beside a reload -/

/-- Whether a registry is another one after a change of one type and of its sites. -/
structure Beside (t : LiveType) (r r₁ : Registry) : Prop where
  config_eq : r₁.config = r.config
  agree : r.AgreeExcept t.name r₁
  sites : ∀ id : SiteId, id.declaring ≠ t.id → r₁.sites.find? id = r.sites.find? id

lemma find?_set_of_neg {l : List LiveType} {k : Nat} {p : LiveType → Bool} (hk : l[k]? = some t)
    (ht : p t = false) (ht' : p t' = false) : (l.set k t').find? p = l.find? p := by
  induction l generalizing k with
  | nil => rfl
  | cons q rest ih =>
    cases k with
    | zero =>
      obtain rfl := Option.some.inj hk
      simp [ht, ht']
    | succ k =>
      rw [List.set_cons_succ, List.find?_cons, List.find?_cons, ih hk]

lemma beside_install (hr : r.Placed) (ht : t ∈ r.types) {x : LiveType × List SiteBinding}
    (hx : x.1.id = t.id ∧ x.1.name = t.name ∧ ∀ b ∈ x.2, b.id.declaring = t.id) :
    Beside t r (r.install x) := by
  obtain ⟨hid, hname, hsites⟩ := hx
  refine ⟨rfl, fun other hother => ?_, fun id hid' => ?_⟩
  · refine find?_set_of_neg (hid ▸ hr.getElem?_id ht) ?_ ?_
    · simpa using hother.symm
    · simpa [hname] using hother.symm
  · exact find?_bindAll_of_other fun b hb heq => hid' (heq ▸ hsites b hb)

/-- A reload is prepared alike beside that of a type that the new code does not name. -/
lemma prepare_congr {q : LiveType} (h : Beside q r r₁) (hne : t.id ≠ q.id)
    (hu : ∀ u, t.candidate r.config.verify label bytes = .ok u →
      ¬ u.Names q.name ∧ ¬ u.Dangles q.name) :
    r₁.prepare t label bytes = r.prepare t label bytes := by
  unfold prepare
  rw [h.config_eq]
  refine Outcome.bind_congr_of_ok fun u hcandidate => ?_
  obtain ⟨hnames, hdangles⟩ := hu u hcandidate
  have hredirect : u.redirect ⟨t.id, t.versions.length, t.layout, t.loadedMethods, r₁⟩
      r.config.verify = u.redirect ⟨t.id, t.versions.length, t.layout, t.loadedMethods, r⟩
        r.config.verify :=
    @TypeUnit.redirect_congr ⟨t.id, t.versions.length, t.layout, t.loadedMethods, r⟩ u r₁ q.name
      h.agree hnames hdangles r.config.verify
  dsimp only
  rw [hredirect]
  split_ifs with hcurrent
  · rfl
  · refine Outcome.bind_congr_of_ok fun redirected hok => ?_
    have hchecks : redirected.bindings.forM r₁.sites.check =
        redirected.bindings.forM r.sites.check := by
      refine Outcome.forM_congr fun b hb => SiteTable.check_congr (h.sites b.id ?_)
      rw [TypeUnit.declaring_of_redirect hok b hb]
      exact hne
    rw [hchecks]

/-! ### Reloads of two types -/

/-- What a host is told of an operation. -/
def answer (r : Registry) (op : Operation) : Except RegistryError Unit :=
  (r.apply op).map fun _ => ()

section Prepared

variable {q : LiveType} {label' : String} {bytes' : List UInt8}

lemma apply_reload_eq (hfind : r.find? t.name = some t) (hhost : t.history.closureHost = false) :
    r.apply (.reload t.name label bytes) = ((r.prepare t label bytes).map r.install).mapError
      fun reason => .reload ⟨t.name, label, reason⟩ := by
  simp only [apply, reload, hfind, reloadType, tryReload_eq hhost]
  cases r.prepare t label bytes <;> rfl

/-- The answer to a reload is that to its preparation. -/
lemma answer_reload_eq (hfind : r.find? t.name = some t) (hhost : t.history.closureHost = false) :
    r.answer (.reload t.name label bytes) = ((r.prepare t label bytes).map fun _ => ()).mapError
      fun reason => .reload ⟨t.name, label, reason⟩ := by
  rw [answer, apply_reload_eq hfind hhost]
  cases r.prepare t label bytes <;> rfl

/-- A reload is installed when it could be prepared. -/
lemma serve_reload_eq (hfind : r.find? t.name = some t) (hhost : t.history.closureHost = false) :
    r.serve (.single (.reload t.name label bytes)) =
      ((r.prepare t label bytes).toOption.map r.install).getD r := by
  rw [serve, apply_reload_eq hfind hhost]
  cases r.prepare t label bytes <;> rfl

lemma Placed.id_ne (hr : r.Placed) (ht : r.find? t.name = some t) (hq : r.find? q.name = some q)
    (hne : t.name ≠ q.name) : t.id ≠ q.id := by
  intro heq
  have hplace := hr.getElem?_id (mem_of_find? ht)
  rw [heq, hr.getElem?_id (mem_of_find? hq)] at hplace
  exact hne (congrArg LiveType.name (Option.some.inj hplace)).symm

/-- A reload of one type, accepted or refused, leaves another type and its preparation as they are. -/
lemma unchanged_of_unnamed (hr : r.Placed) (ht : r.find? t.name = some t)
    (hq : r.find? q.name = some q) (hne : t.name ≠ q.name) (hhost : q.history.closureHost = false)
    (hu : ∀ u, t.candidate r.config.verify label bytes = .ok u →
      ¬ u.Names q.name ∧ ¬ u.Dangles q.name) :
    (r.serve (.single (.reload q.name label' bytes'))).find? t.name = some t ∧
      (r.serve (.single (.reload q.name label' bytes'))).prepare t label bytes =
        r.prepare t label bytes := by
  rw [serve_reload_eq hq hhost]
  cases hprepare : r.prepare q label' bytes' with
  | error e => exact ⟨ht, rfl⟩
  | ok x =>
    have hbeside := beside_install hr (mem_of_find? hq) (of_prepare hprepare)
    exact ⟨(hbeside.agree t.name hne).trans ht, prepare_congr hbeside (hr.id_ne ht hq hne) hu⟩

/-- The unit of an accepted candidate does not name a type that the bytes do not name. -/
lemma unnamed_of_candidate {verify : Bool} {name : String}
    (hnames : ∀ u, TypeUnit.decode bytes = .ok u → ¬ u.Names name)
    (hwithin : verify = true ∨ ∀ u, TypeUnit.decode bytes = .ok u → ¬ u.Dangles name) :
    ∀ u, t.candidate verify label bytes = .ok u → ¬ u.Names name ∧ ¬ u.Dangles name := by
  intro u hu
  have hadmitted := (LiveType.candidate_eq_ok.mp hu).admitted
  cases verify with
  | true =>
    obtain ⟨hdecode, hverify⟩ := TypeUnit.admit_eq_ok.mp hadmitted
    exact ⟨hnames u hdecode, (TypeUnit.verified_of_verify hverify).not_dangles name⟩
  | false =>
    unfold TypeUnit.admit at hadmitted
    simp only [Bool.false_eq_true, ↓reduceIte, Outcome.bind_eq_ok, Outcome.mapError_eq_ok,
      Outcome.pure_eq_ok] at hadmitted
    obtain ⟨u', hdecode, rfl⟩ := hadmitted
    exact ⟨hnames u' hdecode, (hwithin.resolve_left Bool.false_ne_true) u' hdecode⟩

end Prepared

/-- Whether two operations can change places: each is answered alike before and after the other, and
the registry is the same in the end. -/
structure Commutes (r : Registry) (op op' : Operation) : Prop where
  first : (r.serve (.single op')).answer op = r.answer op
  second : (r.serve (.single op)).answer op' = r.answer op'
  same : (r.serve (.single op)).serve (.single op') = (r.serve (.single op')).serve (.single op)

/-- Reloads of two types that host no closures can change places, accepted or refused, when neither
version names the other type. Versions that are not verified must not reach beyond their constants for a
name either, where they would find the sites of their closures. -/
theorem Reachable.reload_comm (h : Reachable config r) {a b : String} {t q : LiveType}
    (ht : r.find? a = some t) (hq : r.find? b = some q) (hne : a ≠ b)
    (hhostt : t.isClosureHost = false) (hhostq : q.isClosureHost = false) (la lb : String)
    {ba bb : List UInt8} (hba : ∀ u, TypeUnit.decode ba = .ok u → ¬ u.Names b)
    (hbb : ∀ u, TypeUnit.decode bb = .ok u → ¬ u.Names a)
    (hwithin : config.verify = true ∨ (∀ u, TypeUnit.decode ba = .ok u → ¬ u.Dangles b) ∧
      ∀ u, TypeUnit.decode bb = .ok u → ¬ u.Dangles a) :
    Commutes r (.reload a la ba) (.reload b lb bb) := by
  have hr := h.placed
  obtain rfl := find?_name ht
  obtain rfl := find?_name hq
  obtain rfl : r.config = config := h.config_eq
  rw [← hr.closureHost_eq t (mem_of_find? ht)] at hhostt
  rw [← hr.closureHost_eq q (mem_of_find? hq)] at hhostq
  have hunamed := @unnamed_of_candidate t la ba _ _ hba (hwithin.imp_right And.left)
  have hunamed' := @unnamed_of_candidate q lb bb _ _ hbb (hwithin.imp_right And.right)
  obtain ⟨ht', hpreparet⟩ := @unchanged_of_unnamed r t la ba q lb bb hr ht hq hne hhostq hunamed
  obtain ⟨hq', hprepareq⟩ :=
    @unchanged_of_unnamed r q lb bb t la ba hr hq ht hne.symm hhostt hunamed'
  refine ⟨?_, ?_, ?_⟩
  · rw [answer_reload_eq ht' hhostt, answer_reload_eq ht hhostt, hpreparet]
  · rw [answer_reload_eq hq' hhostq, answer_reload_eq hq hhostq, hprepareq]
  · rw [serve_reload_eq hq' hhostq, serve_reload_eq ht' hhostt, hpreparet, hprepareq,
      serve_reload_eq ht hhostt, serve_reload_eq hq hhostq]
    cases hx : r.prepare t la ba with
    | error e => rfl
    | ok x =>
      cases hy : r.prepare q lb bb with
      | error e => rfl
      | ok y =>
        obtain ⟨hidx, -, hsitesx⟩ := of_prepare hx
        obtain ⟨hidy, -, hsitesy⟩ := of_prepare hy
        have hid := hr.id_ne ht hq hne
        exact install_comm (by rwa [hidx, hidy]) (hidx ▸ hsitesx) (hidy ▸ hsitesy)

def emptyHost : TypeUnit where
  formatFlags := 0
  name := "a.H"
  superName := none
  access := Access.isPublic ||| Access.closureHost
  constants := .empty
  fields := []
  methods := []
  attributes := []

/-- A type with a method that creates a closure of the host and goes on with other code. -/
def maker (name : String) (fields : List FieldDecl) (rest : List Instruction) : TypeUnit where
  formatFlags := 0
  name := name
  superName := none
  access := Access.isPublic
  constants := ⟨#["a.H", "f"], [], []⟩
  fields := fields
  methods := [⟨⟨"x", ⟨[], .void⟩⟩, staticMethod, [], 0, Instruction.encodeAll
    (⟨0, .makeClosure, .closure 0 0 0⟩ :: ⟨7, .pop, .none⟩ :: rest)⟩]
  attributes := []

def makers (other : String) : List Operation :=
  [.register "a.H" emptyHost.encode,
    .register "a.A" (maker "a.A" [] [⟨8, .retVoid, .none⟩]).encode,
    .register other (maker other [] [⟨8, .retVoid, .none⟩]).encode]

def grown (name : String) : TypeUnit := maker name [⟨"f", .i32, 0⟩] [⟨8, .retVoid, .none⟩]

/-- A version that reads the field of a type beyond its constants. -/
def blindReader : TypeUnit := maker "a.A" []
  [⟨8, .constNull, .none⟩, ⟨9, .getField, .pair 2 1⟩, ⟨18, .pop, .none⟩, ⟨19, .retVoid, .none⟩]

/-- The names that bytes use are among the texts that they carry. -/
lemma not_names_of_all {name : String}
    (h : (TypeUnit.decode bytes).toOption.all (fun u => name ∉ u.constants.strings.toList) = true) :
    ∀ u, TypeUnit.decode bytes = .ok u → ¬ u.Names name := by
  rintro u hu ⟨m, -, i, -, howner⟩
  rw [hu] at h
  obtain ⟨a, -, hstring⟩ := Option.bind_eq_some_iff.mp howner
  exact of_decide_eq_true h (Array.mem_toList_iff.mpr (Array.mem_of_getElem? hstring))

set_option maxRecDepth 100000 in
/-- Both types are given a field. -/
theorem reload_comm_grown :
    ∃ r t q, Reachable .default r ∧ r.find? "a.A" = some t ∧ r.find? "a.B" = some q ∧
      t.isClosureHost = false ∧ q.isClosureHost = false ∧
      (∀ u, TypeUnit.decode (grown "a.A").encode = .ok u → ¬ u.Names "a.B") ∧
      (∀ u, TypeUnit.decode (grown "a.B").encode = .ok u → ¬ u.Names "a.A") ∧
      (r.answer (.reload "a.A" "a" (grown "a.A").encode)).isOk = true ∧
      (r.answer (.reload "a.B" "b" (grown "a.B").encode)).isOk = true ∧
      Commutes r (.reload "a.A" "a" (grown "a.A").encode)
        (.reload "a.B" "b" (grown "a.B").encode) := by
  have hfacts : ((Registry.create .default).replay (makers "a.B")).any (fun r =>
      (r.find? "a.A").any (fun t => t.isClosureHost = false) ∧
      (r.find? "a.B").any (fun q => q.isClosureHost = false) ∧
      (r.answer (.reload "a.A" "a" (grown "a.A").encode)).isOk ∧
      (r.answer (.reload "a.B" "b" (grown "a.B").encode)).isOk) = true := by
    decide +kernel
  obtain ⟨r, hr, hfacts⟩ := (Option.any_eq_true _ _).mp hfacts
  obtain ⟨hfindt, hfindq, hokt, hokq⟩ := of_decide_eq_true hfacts
  obtain ⟨t, ht, hhostt⟩ := (Option.any_eq_true _ _).mp hfindt
  obtain ⟨q, hq, hhostq⟩ := (Option.any_eq_true _ _).mp hfindq
  have hreachable : Reachable .default r := leads_of_replay hr
  have hnamest := @not_names_of_all (grown "a.A").encode "a.B" (by decide +kernel)
  have hnamesq := @not_names_of_all (grown "a.B").encode "a.A" (by decide +kernel)
  exact ⟨r, t, q, hreachable, ht, hq, of_decide_eq_true hhostt, of_decide_eq_true hhostq, hnamest,
    hnamesq, hokt, hokq, hreachable.reload_comm ht hq (by decide) (of_decide_eq_true hhostt)
      (of_decide_eq_true hhostq) "a" "b" hnamest hnamesq (.inl rfl)⟩

set_option maxRecDepth 100000 in
/-- A version that is not verified finds its own site in place of a type that it does not name, and is
refused before that type has the field and accepted afterwards. -/
theorem not_commutes_blindReader :
    ∃ r t q, Reachable { RegistryConfig.default with verify := false } r ∧
      r.find? "a.A" = some t ∧ r.find? "x()V#0" = some q ∧
      t.isClosureHost = false ∧ q.isClosureHost = false ∧
      (∀ u, TypeUnit.decode blindReader.encode = .ok u → ¬ u.Names "x()V#0") ∧
      (∀ u, TypeUnit.decode (grown "x()V#0").encode = .ok u → ¬ u.Names "a.A") ∧
      ¬ Commutes r (.reload "a.A" "a" blindReader.encode)
        (.reload "x()V#0" "b" (grown "x()V#0").encode) := by
  have hfacts : ((Registry.create { RegistryConfig.default with verify := false }).replay
      (makers "x()V#0")).any (fun r =>
        (r.find? "a.A").any (fun t => t.isClosureHost = false) ∧
        (r.find? "x()V#0").any (fun q => q.isClosureHost = false) ∧
        (r.answer (.reload "a.A" "a" blindReader.encode)).isOk = false ∧
        ((r.serve (.single (.reload "x()V#0" "b" (grown "x()V#0").encode))).answer
          (.reload "a.A" "a" blindReader.encode)).isOk = true) = true := by
    decide +kernel
  obtain ⟨r, hr, hfacts⟩ := (Option.any_eq_true _ _).mp hfacts
  obtain ⟨hfindt, hfindq, hrefused, haccepted⟩ := of_decide_eq_true hfacts
  obtain ⟨t, ht, hhostt⟩ := (Option.any_eq_true _ _).mp hfindt
  obtain ⟨q, hq, hhostq⟩ := (Option.any_eq_true _ _).mp hfindq
  refine ⟨r, t, q, leads_of_replay hr, ht, hq, of_decide_eq_true hhostt, of_decide_eq_true hhostq,
    not_names_of_all (by decide +kernel), not_names_of_all (by decide +kernel), fun hcommutes => ?_⟩
  rw [hcommutes.first, hrefused] at haccepted
  cases haccepted

end Registry

end LiveTypes
