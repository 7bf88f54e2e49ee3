import LiveTypes.Proofs.Registry.Lookup
import LiveTypes.Proofs.Registry.Request

/-!
# The versions of a type

Versions are numbered in the order in which they were accepted, and none is ever changed. The bodies
that a type publishes were made when one of its versions was accepted, in the registry as it was then:
the version is the first of those that hold the bytes of the newest. All of them are told the same
(`Reachable.keeps_versions`), whatever was asked for and refused in between.
-/

namespace LiveTypes

namespace LiveType

variable {t : LiveType}

/-! ### Labels -/

/-- A type whose versions have labels of their own, and that publishes under the newest. -/
structure Labelled (t : LiveType) : Prop where
  labels_nodup : (t.versions.map Version.label).Nodup
  initial_eq : t.initial.label = initialLabel
  published_eq : t.table.label = t.current.label

/-- A type that publishes one more version under a label of its own. -/
lemma Labelled.publish (h : t.Labelled) {v : Version} {table : ExecutorTable} {history : History}
    (hfresh : ∀ w ∈ t.versions, w.label ≠ v.label) (hversion : table.version = t.versions.length)
    (hlabel : table.label = v.label) :
    Labelled { t.publish v table with history } where
  labels_nodup := by
    show ((t.versions ++ [v]).map Version.label).Nodup
    rw [List.map_append, List.nodup_append]
    refine ⟨h.labels_nodup, by simp, fun label hmem label' hmem' heq => ?_⟩
    obtain ⟨w, hw, rfl⟩ := List.mem_map.mp hmem
    obtain rfl : label' = v.label := by simpa using hmem'
    exact hfresh w hw heq
  initial_eq := h.initial_eq
  published_eq := by
    show table.label = (t.publish v table).current.label
    rw [current_publish hversion, hlabel]

lemma Created.labelled {r : Registry} {u : TypeUnit} {bytes : List UInt8}
    {redirected : RedirectedVersion} (h : t.Created r u bytes redirected) : t.Labelled := by
  have hversions : t.versions = [t.initial] := by rw [versions, h.later_eq]
  have hlabel : t.initial.label = initialLabel := by rw [h.initial_eq]
  refine ⟨by simp [hversions], hlabel, ?_⟩
  rw [current, hversions, h.table_eq, hlabel.symm]
  rfl

/-! ### The version that the published bodies were made for -/

/-- Whether the newest bytes of a type are those of a version: the versions from it on have its digest
and the given executor, and the one before it has other bytes. -/
structure Renews (t : LiveType) (v : Version) (executorBytes : List UInt8) : Prop where
  repeated : ∀ w ∈ t.versions, v.index ≤ w.index →
    digest w.bytes = digest v.bytes ∧ w.executorBytes = executorBytes
  other : ∀ w ∈ t.versions, w.index + 1 = v.index → w.bytes ≠ v.bytes

lemma Created.renews {r : Registry} {u : TypeUnit} {bytes : List UInt8}
    {redirected : RedirectedVersion} (h : t.Created r u bytes redirected) :
    t.Renews t.initial redirected.executor.encode := by
  have hmem {w : Version} (hw : w ∈ t.versions) : w = t.initial := by
    rw [versions, h.later_eq] at hw
    exact List.mem_singleton.mp hw
  refine ⟨fun w hw _ => ?_, fun w hw hindex => ?_⟩ <;> obtain rfl := hmem hw
  · rw [h.initial_eq]
    exact ⟨rfl, rfl⟩
  · omega

/-- Giving the current version once more changes neither its bytes nor its executor. -/
lemma Renews.reloadSame {v : Version} {executorBytes : List UInt8} (h : t.Renews v executorBytes)
    (ht : t.WellFormed) (hv : v ∈ t.versions) {label : String} {bytes : List UInt8} {u : TypeUnit}
    (hcurrent : t.isCurrent bytes = true) :
    (t.reloadSame label bytes u).Renews v executorBytes := by
  have hlt := ht.index_lt hv
  have hindex : v.index ≤ t.current.index := by
    have := ht.published
    rw [ht.current_index]
    omega
  obtain ⟨hdigest, hexecutor⟩ := h.repeated t.current ht.current_mem hindex
  refine ⟨fun w hw hle => ?_, fun w hw hnext => ?_⟩ <;>
    rcases List.mem_append.mp (show w ∈ t.versions ++ [_] from hw) with hw | hw
  · exact h.repeated w hw hle
  · obtain rfl := List.mem_singleton.mp hw
    exact ⟨(ht.digest_current hcurrent).symm.trans hdigest, hexecutor⟩
  · exact h.other w hw hnext
  · obtain rfl := List.mem_singleton.mp hw
    have hnext : t.versions.length + 1 = v.index := hnext
    omega

/-- A version that is not the current one again has bytes of its own. -/
lemma renews_reloadNew (ht : t.WellFormed) {label : String} {bytes : List UInt8} {u : TypeUnit}
    {redirected : RedirectedVersion} (hother : t.isCurrent bytes = false) :
    (t.reloadNew label bytes u redirected).Renews
      (t.nextVersion label bytes u redirected.executor.encode) redirected.executor.encode := by
  refine ⟨fun w hw hle => ?_, fun w hw hnext heq => ?_⟩ <;>
    rcases List.mem_append.mp (show w ∈ t.versions ++ [_] from hw) with hw | hw
  · have hle : t.versions.length ≤ w.index := hle
    have := ht.index_lt hw
    omega
  · obtain rfl := List.mem_singleton.mp hw
    exact ⟨rfl, rfl⟩
  · have hnext : w.index + 1 = t.versions.length := hnext
    obtain rfl := ht.eq_current_of_index hw (Nat.succ.inj (hnext.trans ht.published.symm))
    have heq : t.current.bytes = bytes := heq
    rw [isCurrent, (ht.genuine _ ht.current_mem).summary_eq, ← heq] at hother
    simp [TypeUnit.summary] at hother
  · obtain rfl := List.mem_singleton.mp hw
    have hnext : t.versions.length + 1 = t.versions.length := hnext
    omega

end LiveType

/-- The operation that gave a type a version. -/
def Version.operation (name : String) (v : Version) : Registry.Operation :=
  if v.index = 0 then .register name v.bytes else .reload name v.label v.bytes

namespace Registry

variable {r r' r₀ r₁ : Registry} {t : LiveType} {v : Version} {redirected : RedirectedVersion}
  {config : RegistryConfig}

/-- The acceptance of the version that the bodies of a type were made for: the registries before and
after, and the version in its redirected form. -/
structure Acceptance (config : RegistryConfig) (r r₀ r₁ : Registry) (t : LiveType) (v : Version)
    (redirected : RedirectedVersion) : Prop where
  reachable : Reachable config r₀
  accepted : r₀.apply (v.operation t.name) = .ok r₁
  leads : Leads r₁ r
  before : (r₀.find? t.name).elim [] LiveType.versions = t.versions.take v.index
  after : ∃ t₁, r₁.find? t.name = some t₁ ∧ t₁.versions = t.versions.take (v.index + 1)
  publishes : t.Publishes v ⟨t.id, v.index, t.layout, t.loadedMethods, r₀⟩ redirected

lemma Acceptance.tail (h : Acceptance config r r₀ r₁ t v redirected) (hstep : Step r r') :
    Acceptance config r' r₀ r₁ t v redirected :=
  { h with leads := h.leads.tail hstep }

lemma acceptance_register {u : TypeUnit} {bytes : List UInt8} (hreachable : Reachable config r)
    (hverify : config.verify = true) (hok : r.register u.name bytes = .ok (t, r'))
    (hfresh : r.find? u.name = none) (hcreated : t.Created r u bytes redirected)
    (ht : t ∈ r'.types) : Acceptance config r' r r' t t.initial redirected := by
  have hr := hreachable.wellFormed hverify
  have hr' := hr.change (change_of_register hok)
  have hindex : t.initial.index = 0 := by rw [hcreated.initial_eq]
  have hbytes : t.initial.bytes = bytes := by rw [hcreated.initial_eq]
  refine ⟨hreachable, ?_, .refl, ?_, ⟨t, hr'.find?_name ht, ?_⟩, ?_⟩
  · rw [Version.operation, if_pos hindex, hbytes, hcreated.name_eq, apply, hok]
    rfl
  · rw [hcreated.name_eq, hfresh, hindex]
    rfl
  · rw [LiveType.versions, hcreated.later_eq, hindex]
    rfl
  · rw [hindex, hcreated.id_eq, hcreated.layout_eq, hcreated.loadedMethods_eq]
    exact hcreated.publishes hr.verifies

lemma Acceptance.reloadSame {label : String} {bytes : List UInt8} {u : TypeUnit}
    (h : Acceptance config r r₀ r₁ t v redirected) (ht : t.WellFormed) (hstep : Step r r')
    (hcurrent : t.isCurrent bytes = true) :
    Acceptance config r' r₀ r₁ (t.reloadSame label bytes u) v redirected := by
  have hlt := ht.index_lt h.publishes.mem
  have htake {n : Nat} (hn : n ≤ t.versions.length) :
      (t.reloadSame label bytes u).versions.take n = t.versions.take n :=
    List.take_append_of_le_length hn
  obtain ⟨t₁, hfind, hversions⟩ := h.after
  refine ⟨h.reachable, h.accepted, h.leads.tail hstep, ?_, ⟨t₁, hfind, ?_⟩,
    h.publishes.reloadSame ht hcurrent⟩
  · rw [htake (by omega)]
    exact h.before
  · rw [htake (by omega), hversions]

lemma acceptance_reloadNew {label : String} {bytes : List UInt8} {u : TypeUnit}
    (hreachable : Reachable config r) (hverify : config.verify = true)
    (hok : r.reload t.name label bytes = .ok r') (hfind : r.find? t.name = some t)
    (hredirect : u.redirect ⟨t.id, t.versions.length, t.layout, t.loadedMethods, r⟩ true =
      .ok redirected) (ht : t.reloadNew label bytes u redirected ∈ r'.types) :
    Acceptance config r' r r' (t.reloadNew label bytes u redirected)
      (t.nextVersion label bytes u redirected.executor.encode) redirected := by
  have hr' := (hreachable.wellFormed hverify).change (change_of_reload hok)
  refine ⟨hreachable, hok, .refl, ?_, ⟨_, hr'.find?_name ht, ?_⟩,
    LiveType.publishes_reloadNew hredirect rfl rfl⟩
  · show (r.find? t.name).elim [] LiveType.versions = (t.versions ++ [_]).take t.versions.length
    rw [hfind, List.take_left]
    rfl
  · show t.versions ++ [_] = (t.versions ++ [_]).take (t.versions.length + 1)
    rw [List.take_of_length_le (by simp)]

/-- The published bodies of every type were made when some version of it was accepted, the first of
those that hold its newest bytes. -/
theorem Reachable.acceptance (h : Reachable config r) (hverify : config.verify = true) :
    ∀ t ∈ r.types, ∃ v redirected r₀ r₁, Acceptance config r r₀ r₁ t v redirected ∧
      t.Renews v redirected.executor.encode := by
  induction h with
  | refl => simp [Registry.create]
  | @tail r r' hreachable hstep ih =>
    have hr := Reachable.wellFormed hreachable hverify
    have hold {t : LiveType} (ht : t ∈ r.types) : ∃ v redirected r₀ r₁,
        Acceptance config r' r₀ r₁ t v redirected ∧ t.Renews v redirected.executor.encode := by
      obtain ⟨v, redirected, r₀, r₁, haccepted, hrenews⟩ := ih t ht
      exact ⟨v, redirected, r₀, r₁, haccepted.tail hstep, hrenews⟩
    intro q hq
    cases hstep with
    | @register name bytes t ok =>
      obtain ⟨u, redirected, rfl, hfresh, -, hcreated, -, hr'⟩ := register_cases ok
      have hmem := hq
      rw [hr'] at hq
      rcases List.mem_append.mp hq with hq | hq
      · exact hold hq
      · obtain rfl := List.mem_singleton.mp hq
        exact ⟨_, _, _, _, acceptance_register hreachable hverify ok hfresh hcreated hmem,
          hcreated.renews⟩
    | @reload name label bytes ok =>
      obtain ⟨t, u, hfind, haccepts, hresult⟩ := reload_cases ok
      obtain rfl := find?_name hfind
      have ht := mem_of_find? hfind
      have hmem := hq
      rcases hresult with ⟨hcurrent, hr'⟩ | ⟨hother, redirected, hredirect, -, hr'⟩ <;>
        rw [hr'] at hq
      · have hid : (t.reloadSame label bytes u).id = t.id := rfl
        rcases (hr.mem_replace ht hid).mp hq with rfl | ⟨hq, -⟩
        · obtain ⟨v, redirected, r₀, r₁, haccepted, hrenews⟩ := ih t ht
          exact ⟨v, redirected, r₀, r₁,
            haccepted.reloadSame (hr.types t ht) (.reload ok) hcurrent,
            hrenews.reloadSame (hr.types t ht) haccepted.publishes.mem hcurrent⟩
        · exact hold hq
      · have hid : (t.reloadNew label bytes u redirected).id = t.id := rfl
        rcases (hr.mem_replace ht hid).mp hq with rfl | ⟨hq, -⟩
        · rw [hr.verifies] at hredirect
          exact ⟨_, _, _, _, acceptance_reloadNew hreachable hverify ok hfind hredirect hmem,
            LiveType.renews_reloadNew (hr.types t ht) hother⟩
        · exact hold hq

/-- The versions of every type have labels of their own. -/
theorem Reachable.labelled (h : Reachable config r) (hverify : config.verify = true) :
    ∀ t ∈ r.types, t.Labelled := by
  refine h.types_invariant hverify ?_ ?_ ?_
  · intro r u bytes t redirected _ _ hcreated
    exact hcreated.labelled
  · intro t label bytes u _ hlabelled haccepts _
    exact hlabelled.publish haccepts.fresh rfl rfl
  · intro r t label bytes u redirected _ hlabelled haccepts _
    exact hlabelled.publish haccepts.fresh rfl rfl

/-! ### What is kept of the versions -/

/-- What the versions of a type are, and which of them its published bodies were made for. -/
structure Stored (config : RegistryConfig) (r : Registry) (t : LiveType) : Prop where
  index_eq : ∀ (k : Nat) (w : Version), t.versions[k]? = some w → w.index = k
  labels_nodup : (t.versions.map Version.label).Nodup
  initial_label : t.versions.head?.map Version.label = some LiveType.initialLabel
  newest : t.versions.getLast? = some t.current ∧ t.table.version = t.current.index ∧
    t.table.label = t.current.label
  bodies : ∃ v redirected r₀ r₁, Acceptance config r r₀ r₁ t v redirected ∧
    (∀ w ∈ t.versions, v.index ≤ w.index →
      w.bytes = v.bytes ∧ w.executorBytes = redirected.executor.encode) ∧
    (∀ w ∈ t.versions, w.index + 1 = v.index → w.bytes ≠ v.bytes) ∧
    ∀ key e, t.table.find? key = some e → e.version = v.index ∧
      ∃ m ∈ v.unit.methods, m.key = key ∧ ∃ m' ∈ redirected.executor.methods, ∃ s s',
        Redirection.method ⟨t.id, v.index, t.layout, t.loadedMethods, r₀⟩ v.unit m s =
          .ok (m', s') ∧
        e = ExecutorTable.executable redirected.executor t.id t.name v.index m'

lemma Reachable.stored (h : Reachable config r) (hverify : config.verify = true)
    (hfree : r.CollisionFree) (ht : t ∈ r.types) : Stored config r t := by
  have hwell := (h.wellFormed hverify).types t ht
  have hlabelled := h.labelled hverify t ht
  obtain ⟨v, redirected, r₀, r₁, haccepted, hrenews⟩ := h.acceptance hverify t ht
  have hlast : t.versions.getLast? = some t.current := by
    have hpublished := hwell.published
    rw [List.getLast?_eq_getElem?, show t.versions.length - 1 = t.table.version by omega]
    exact LiveType.getLast_current hpublished
  refine {
    index_eq := hwell.index_eq
    labels_nodup := hlabelled.labels_nodup
    initial_label := congrArg some hlabelled.initial_eq
    newest := ⟨hlast, hwell.current_index.symm, hlabelled.published_eq⟩
    bodies := ⟨v, redirected, r₀, r₁, haccepted, fun w hw hle => ?_, hrenews.other,
      fun key e he => ?_⟩ }
  · obtain ⟨hdigest, hexecutor⟩ := hrenews.repeated w hw hle
    exact ⟨hfree t ht w hw v haccepted.publishes.mem hdigest, hexecutor⟩
  · obtain ⟨m, hm, hkey, m', hm', s, s', hmethod, rfl⟩ := haccepted.publishes.method_of_find? he
    exact ⟨rfl, m, hm, hkey, m', hm', s, s', hmethod, rfl⟩

/-- Whatever is asked of a registry, accepted or refused, every type keeps the versions that it had,
and what it stores of them is in order, as long as no two versions of a type with different bytes have
one digest. -/
theorem Reachable.keeps_versions (h : Reachable config r) (hverify : config.verify = true)
    (requests : List Request) (hfree : (r.serveAll requests).CollisionFree) :
    (∀ t ∈ r.types, ∃ t' ∈ (r.serveAll requests).types,
      t'.id = t.id ∧ t'.name = t.name ∧ t.versions <+: t'.versions) ∧
    ∀ t ∈ (r.serveAll requests).types, Stored config (r.serveAll requests) t := by
  have hleads := r.leads_serveAll requests
  refine ⟨fun t ht => ?_, fun t ht => Reachable.stored (h.trans hleads) hverify hfree ht⟩
  obtain ⟨-, hextends⟩ := hleads.extends (h.wellFormed hverify)
  obtain ⟨t', ht', hcontinues⟩ := hextends.types t ht
  exact ⟨t', ht', hcontinues.id_eq, hcontinues.name_eq, hcontinues.versions_grow⟩

def constantly (n : Int32) : TypeUnit where
  formatFlags := 0
  name := "a.K"
  superName := none
  access := Access.isPublic
  constants := .empty
  fields := []
  methods := [⟨⟨"get", ⟨[], .i32⟩⟩, staticMethod, [], 0, Instruction.encodeAll
    [⟨0, .constI32, .i32 n⟩, ⟨5, .ret, .none⟩]⟩]
  attributes := []

/-- A version given again, two requests that are refused, and another version given twice. -/
def revisions : List Request :=
  [.single (.reload "a.K" "same" (constantly 1).encode), .single (.reload "a.K" "none" []),
    .single (.reload "a.K" "same" (constantly 2).encode),
    .single (.reload "a.K" "two" (constantly 2).encode),
    .single (.reload "a.K" "two again" (constantly 2).encode)]

set_option maxRecDepth 100000 in
/-- After the revisions, the fourth version is published with the bodies of the third. -/
theorem keeps_versions_revised :
    ∃ r t t', (Registry.create .default).replay [.register "a.K" (constantly 1).encode] = some r ∧
      t ∈ r.types ∧ t' ∈ (r.serveAll revisions).types ∧ (r.serveAll revisions).CollisionFree ∧
      t'.versions.map Version.label = ["initial", "same", "two", "two again"] ∧
      (∃ e, t'.table.find? "get()I" = some e ∧ e.version = 2 ∧ t'.table.version = 3) ∧
      t.versions <+: t'.versions ∧ Stored .default (r.serveAll revisions) t' := by
  have hfacts : ((Registry.create .default).replay
      [.register "a.K" (constantly 1).encode]).any (fun r =>
        (r.serveAll revisions).CollisionFree ∧ (r.find? "a.K").isSome ∧
        ((r.serveAll revisions).find? "a.K").any fun t' =>
          t'.versions.map Version.label = ["initial", "same", "two", "two again"] ∧
          ((t'.table.find? "get()I").any fun e => e.version = 2 ∧ t'.table.version = 3)) =
      true := by
    decide +kernel
  obtain ⟨r, hr, hfacts⟩ := (Option.any_eq_true _ _).mp hfacts
  obtain ⟨hfree, hfound, hfacts⟩ := of_decide_eq_true hfacts
  obtain ⟨t, hfind⟩ := Option.isSome_iff_exists.mp hfound
  obtain ⟨t', hfind', hfacts⟩ := (Option.any_eq_true _ _).mp hfacts
  obtain ⟨hlabels, hversion⟩ := of_decide_eq_true hfacts
  obtain ⟨e, he, hversion⟩ := (Option.any_eq_true _ _).mp hversion
  have hreachable : Reachable .default r := leads_of_replay hr
  have ht := mem_of_find? hfind
  have ht' := mem_of_find? hfind'
  obtain ⟨hkeeps, hstored⟩ := hreachable.keeps_versions rfl revisions hfree
  obtain ⟨q, hq, -, hsame, hgrow⟩ := hkeeps t ht
  have hwell : (r.serveAll revisions).WellFormed :=
    Reachable.wellFormed (hreachable.trans (r.leads_serveAll revisions)) rfl
  obtain rfl := hwell.eq_of_name hq ht'
    (hsame.trans ((find?_name hfind).trans (find?_name hfind').symm))
  exact ⟨r, t, q, hr, ht, hq, hfree, hlabels, ⟨e, he, of_decide_eq_true hversion⟩, hgrow,
    hstored q hq⟩

end Registry

end LiveTypes
