import LiveTypes.Proofs.Capture.Table
import LiveTypes.Proofs.Machine.Binding
import LiveTypes.Proofs.Machine.Frames
import LiveTypes.Proofs.Redirection.Crowded
import LiveTypes.Proofs.TypeUnit.Canonical
import LiveTypes.Proofs.World.Lookup

/-!
# Calls into a unit with a full pool

A unit with all strings that there are indices for but one is accepted like any other. Of its closures,
the third is created at the site of the first, which belongs to another host (`Crowded.run_moved`), and
the fourth cannot be created, for its key is none (`Crowded.run_lost`).
-/

namespace LiveTypes.Crowded

open Machine

variable {rest : List String} {g t : LiveType} {q r : Registry}

/-! ### Creating closures -/

/-- A closure that captures nothing is created when its site is found and its host may be reached. -/
lemma makeCaptured_of_bare {vm : Machine} {e : Executable} {s : MachineState} {index : UInt32}
    {key : String} {id : SiteId} {c : CaptureSite} {host : LiveType}
    (hkey : e.constants.string? index = some key) (hid : SiteId.ofKey? e.typeId key = some id)
    (hsite : vm.registry.sites.find? id = some c) (hslots : c.slots = [])
    (hhost : vm.registry.byId? c.hostId = some host)
    (hallows : Access.allows e.unitName host.name host.loadedUnit.access = true)
    (hroom : s.stack.slots.size < s.stack.limit) :
    makeCaptured vm e index 0 0 s = .ok .next
      ⟨{ s.stack with slots := s.stack.slots.push (.closure s.heap.objects.size) },
        (s.heap.allocate (.closureOf ⟨id, none, []⟩)).2, s.depth⟩ := by
  obtain ⟨stack, heap, depth⟩ := s
  have hpush : Run.push (.closure heap.objects.size)
      ⟨stack, (heap.allocate (.closureOf ⟨id, none, []⟩)).2, depth⟩ = .ok () _ :=
    Run.push_eq_ok.mpr ⟨hroom, rfl⟩
  rw [makeCaptured, stringOperand, Run.bind_of_ok (Run.require_eq_ok.mpr ⟨hkey, rfl⟩),
    Run.bind_of_ok (Run.require_eq_ok.mpr ⟨hid, rfl⟩), site,
    Run.bind_of_ok (Run.require_eq_ok.mpr ⟨hsite, rfl⟩), typeById,
    Run.bind_of_ok (Run.require_eq_ok.mpr ⟨hhost, rfl⟩), checkAccess, if_pos hallows, hslots]
  exact Run.bind_of_ok hpush

/-! ### Registration -/

def context (rest : List String) (q : Registry) : RedirectContext :=
  .ofBaseline q.size 0 (crowded rest) q

/-- The type as it is registered after the other host. -/
structure Registers (rest : List String) (g t : LiveType) (q r : Registry) : Prop
    extends Host g q where
  accepted : q.register "a.H" (crowded rest).encode = .ok (t, r)
  created : t.Created q (crowded rest) (crowded rest).encode (redirected (context rest q) rest g 0)
  result_eq : r = { q with
    types := q.types ++ [t]
    sites := Registry.bindAll q.sites (redirected (context rest q) rest g 0).bindings }

section

variable (hsize : rest.length + 4 = UInt32.size) (hblank : ∀ s ∈ rest, s = "")
include hsize hblank

lemma expressible : (crowded rest).Expressible := by
  have hempty : (crowded []).Expressible := {
    nonempty := by decide
    name := by decide
    superName := nofun
    constants := ⟨by decide, by decide, by decide, by decide⟩
    fields_length := by decide
    fields := nofun
    methods_length := by decide
    methods := by decide
    attributes_length := by decide
    attributes := nofun
    fieldTypes := nofun
    paramTypes := by decide
    resultTypes := by decide }
  refine { hempty with constants := ⟨?_, ?_, hempty.constants.3, hempty.constants.4⟩ }
  · show ("k()V#0" :: "a.G" :: "a.H" :: rest).toArray.size < _
    simp only [List.size_toArray, List.length_cons]
    omega
  · intro s hs
    have hs : s ∈ ["k()V#0", "a.G", "a.H"] ++ rest := by simpa [crowded] using hs
    rcases List.mem_append.mp hs with hs | hs
    · exact hempty.constants.strings s (by simpa [crowded] using hs)
    · obtain rfl := hblank s hs
      decide

lemma admitted : TypeUnit.admit (crowded rest).encode true = .ok (crowded rest) :=
  TypeUnit.admit_eq_ok.mpr ⟨(expressible hsize hblank).decodes, verify_eq_ok rest⟩

omit hsize hblank in
/-- Loading does not read the constants. -/
lemma exists_load (rest : List String) : ∃ o, LiveType.load .default (crowded rest) = .ok o := by
  have hempty : (LiveType.load .default (crowded [])).isOk = true := by
    decide +kernel
  cases ho : LiveType.load .default (crowded []) with
  | ok o => exact ⟨o, ho⟩
  | error e =>
    rw [ho] at hempty
    cases hempty

/-- Nothing asks for the other constants when the type is registered. -/
lemma exists_registers : ∃ g t q r, Registers rest g t q r := by
  obtain ⟨g, q, hhost⟩ := exists_host
  have hverify : q.config.verify = true := congrArg RegistryConfig.verify hhost.config_eq
  have hadmitted := admitted hsize hblank
  have hredirect : (crowded rest).redirect (context rest q) true = _ :=
    redirect_eq hsize hblank hhost.found hhost.shape true
  obtain ⟨⟨loadedUnit, promoted⟩, hload⟩ := exists_load rest
  rw [← hhost.config_eq] at hload
  obtain ⟨t, hcreate⟩ : ∃ t, LiveType.create q q.size (crowded rest) (crowded rest).encode =
      .ok (t, (redirected (context rest q) rest g 0).bindings) := by
    unfold context at hredirect ⊢
    simp only [LiveType.create, hverify, hload, hredirect, Outcome.ok_bind]
    exact ⟨_, rfl⟩
  have hincluded : q.includes "a.H" = true := by
    rw [Registry.includes, hhost.config_eq]
    decide
  have hfresh : q.find? "a.H" = none := by
    have hname := Registry.find?_name hhost.found
    simp [Registry.find?, hhost.types_eq, hname]
  have hfits : (redirected (context rest q) rest g 0).bindings.forM q.sites.check = .ok () := by
    rw [hhost.sites_eq]
    exact Outcome.forM_eq_ok.mpr fun b _ => by rw [SiteTable.check, SiteTable.find?_empty]
  obtain ⟨x, hcreated, hbindings⟩ := LiveType.created_of_create hcreate
  obtain rfl := Except.ok.inj (hcreated.redirect_eq.symm.trans (hverify ▸ hredirect))
  refine ⟨g, t, q, _, hhost, ?_, hcreated, rfl⟩
  rw [Registry.register, if_neg (by simp [hincluded]), if_neg (by simp [hfresh]),
    Outcome.mapError_eq_ok, Registry.tryRegister, hverify]
  simp only [hadmitted, hcreate, hfits, Outcome.ok_bind]
  rfl

end

/-! ### Calls -/

def body (rest : List String) (q : Registry) (g : LiveType) (name : String) (index : UInt32) :
    Executable :=
  ExecutorTable.executable (redirected (context rest q) rest g 0).executor q.size "a.H" 0
    (creator name .makeCaptured index 0)

namespace Registers

variable (h : Registers rest g t q r)
include h

lemma reachable : Registry.Reachable .default r :=
  .tail (.single (.register h.registered)) (.register h.accepted)

lemma mem : t ∈ r.types := by
  rw [h.result_eq]
  exact List.mem_append_right _ List.mem_cons_self

lemma executable_eq {name : String} {index : UInt32}
    (hm : creator name .makeCaptured index 0 ∈ redirectedMethods) :
    t.executable (name ++ "()V") = .ok (body rest q g name index) := by
  have hkeys : ∀ m ∈ redirectedMethods, ∀ m' ∈ redirectedMethods, m.key = m'.key → m = m' := by
    decide
  obtain ⟨e, he⟩ : ∃ e, t.table.find? (name ++ "()V") = some e := by
    rw [h.created.table_eq]
    exact AssocMap.exists_find?_ofList (List.mem_map.mpr ⟨_, hm, rfl⟩)
  rw [LiveType.executable_eq_ok, he]
  rw [h.created.table_eq, h.created.id_eq, h.created.name_eq] at he
  obtain ⟨m, hm', hkey, rfl⟩ := ExecutorTable.mem_of_find?_ofUnit he
  rw [hkeys m hm' _ hm hkey]
  rfl

/-- A call comes to what the redirected body does. -/
lemma run_eq {name : String} {index : UInt32}
    (hm : creator name .makeCaptured index 0 ∈ redirectedMethods) :
    (Invocation.static "a.H" (name ++ "()V") []).run ⟨r, 256⟩ 3 .empty =
      (call ⟨r, 256⟩ 2 (body rest q g name index) 0 (loading .empty [] 0)).map
        (handedBack (body rest q g name index)) := by
  have hr := h.reachable.wellFormed rfl
  have hunit : t.initial.unit = crowded rest := by rw [h.created.initial_eq]
  have hbounded : t.initial.unit.Bounded :=
    TypeUnit.bounded_of_read ((hr.types t h.mem).genuine _ List.mem_cons_self).admitted
  -- the methods of the type are the same whatever the other constants are
  have hmethods : (∀ m ∈ (crowded rest).methods, m.isStatic = true ∧ m.argSlots = 0 ∧
      m.signature.paramCount = 0) ∧
      ∀ m' ∈ redirectedMethods, ∃ m ∈ (crowded rest).methods, m.key = m'.key := by
    show (∀ m ∈ (crowded []).methods, _) ∧ ∀ m' ∈ redirectedMethods, ∃ m ∈ (crowded []).methods, _
    decide
  have hdeclares : t.initial.unit.Declares (name ++ "()V") := hunit ▸ hmethods.2 _ hm
  obtain ⟨d, hd⟩ := (h.reachable.loaded t h.mem).exists_dispatcher hdeclares
  obtain ⟨m, hm', hkey, hdispatches⟩ := (h.reachable.loaded t h.mem).dispatches hbounded hd
  obtain ⟨hstatic, hslots, hcount⟩ := hmethods.1 m (hunit ▸ hm')
  have hforwards : t.Forwards r m 256 .empty none [] := by
    refine hdispatches.forwards (hkey ▸ hd) hr (h.reachable.soundCode rfl) h.mem
      (Heap.sound_empty r) nofun fun target htarget => ?_
    rw [hkey, h.executable_eq hm] at htarget
    obtain rfl := Except.ok.inj htarget
    rw [hkey]
    rfl
  have harrives : LiveType.Arrives m 256 none [] :=
    ⟨hstatic, hcount.symm, by decide, by rw [hslots]; decide⟩
  have hresolved := hforwards.resolved harrives _ (hkey ▸ h.executable_eq hm) 1
  have hname : t.name = "a.H" := h.created.name_eq
  rw [LiveType.invocation, hname, hkey, hslots] at hresolved
  exact hresolved

omit h in
lemma has_creation {name : String} {index : UInt32} :
    (body rest q g name index).Has ⟨0, .makeCaptured, .closure index 0 0⟩ ∧
      (body rest q g name index).Has ⟨7, .retVoid, .none⟩ := by
  have hdecoded : Instruction.decodeAll (body rest q g name index).code.bytes =
      .ok [⟨0, .makeCaptured, .closure index 0 0⟩, ⟨7, .retVoid, .none⟩] :=
    @decodeAll_creator name _ index 0 (.inr rfl)
  exact ⟨⟨_, hdecoded, by simp⟩, ⟨_, hdecoded, by simp⟩⟩

/-- The state in which the body of a called method starts. -/
def opened : MachineState where
  stack := ⟨#[], [⟨0, 0, 0⟩, ⟨0, 0, 0⟩], Stack.defaultLimit⟩
  heap := .empty
  depth := 2

/-- The state in which a closure of the first site has been created. -/
def made (q : Registry) : MachineState where
  stack := ⟨#[.closure 0], [⟨0, 0, 0⟩, ⟨0, 0, 0⟩], Stack.defaultLimit⟩
  heap := (Heap.empty.allocate (.closureOf ⟨⟨q.size, "k()V", 0⟩, none, []⟩)).2
  depth := 2

omit h in
lemma call_of_run {name : String} {index : UInt32} {res : RunResult}
    (hrun : run ⟨r, 256⟩ 2 (body rest q g name index) 0 opened = some res) :
    call ⟨r, 256⟩ 2 (body rest q g name index) 0 (loading .empty [] 0) = some (finish res) := by
  have hstatic : (creator name .makeCaptured index 0).isStatic = true :=
    show hasFlag staticMethod staticMethod = true by decide
  have hslots : (body rest q g name index).argSlots = 0 := by
    rw [Executable.argSlots, body, ExecutorTable.executable, hstatic]
    rfl
  have henter : enter ⟨r, 256⟩ (body rest q g name index) 0 (loading .empty [] 0) = .ok () opened :=
    enter_eq_ok.mpr ⟨show 1 < 256 by decide, hslots.symm, _, rfl, rfl⟩
  rw [call_of_enter_ok henter, hrun, Option.map_some]

/-- The key of the fourth closure is the name of the other host. -/
theorem run_lost : (Invocation.static "a.H" "z()V" []).run ⟨r, 256⟩ 3 .empty =
    some (.error (.runtime (.badSiteKey "a.G")), .empty) := by
  have hm : creator "z" .makeCaptured 1 0 ∈ redirectedMethods := by decide
  have hstring : stringOperand (body rest q g "z" 1) 1 opened = .ok "a.G" opened :=
    Run.require_eq_ok.mpr ⟨(string?_redirected (context rest q) rest g 0).2, rfl⟩
  have hstep : step ⟨r, 256⟩ (body rest q g "z" 1) ⟨0, .makeCaptured, .closure 1 0 0⟩ opened =
      .error (.runtime (.badSiteKey "a.G")) opened := by
    show makeCaptured ⟨r, 256⟩ (body rest q g "z" 1) 1 0 0 opened = _
    rw [makeCaptured, Run.bind_of_ok hstring]
    refine Run.bind_of_error ?_
    show Run.require _ (SiteId.ofKey? q.size "a.G") opened = _
    rw [ofKey?_name]
    rfl
  have hbody := run_of_error (n := 1) has_creation.1 hstep
  have hrun := h.run_eq hm
  rw [call_of_run hbody, finish, leave_eq rfl] at hrun
  exact hrun

lemma find?_site : r.sites.find? ⟨q.size, "k()V", 0⟩ =
    some (.create (foreign (context rest q) g 0)) := by
  rw [h.result_eq, h.sites_eq]
  show (((SiteTable.empty.bind _).bind (own (context rest q) "n")).bind (own (context rest q) "m")
    |>.bind (own (context rest q) "z")).find? _ = _
  rw [SiteTable.find?_bind_of_ne (by simp [own]), SiteTable.find?_bind_of_ne (by simp [own]),
    SiteTable.find?_bind_of_ne (by simp [own])]
  exact (SiteTable.find?_bind_self _ _).trans (by rw [SiteTable.bound, SiteTable.find?_empty])

/-- The third closure is one of the site of the first, without the instance that the site captures. -/
theorem run_moved : ∃ o, (Invocation.static "a.H" "m()V" []).run ⟨r, 256⟩ 3 .empty = some o ∧
    o.2.closure? 0 = some ⟨⟨q.size, "k()V", 0⟩, none, []⟩ := by
  have hm : creator "m" .makeCaptured 0 0 ∈ redirectedMethods := by decide
  have hid : SiteId.ofKey? q.size "k()V#0" = some ⟨q.size, "k()V", 0⟩ := by
    have hkey : SiteId.key ⟨q.size, "k()V", 0⟩ = "k()V#0" :=
      show "k()V" ++ "#" ++ toString 0 = "k()V#0" by decide
    have hlt : SiteId.ordinal ⟨q.size, "k()V", 0⟩ < UInt32.size := Nat.zero_lt_succ _
    exact hkey ▸ SiteId.ofKey?_key hlt
  have hg : g ∈ r.types := by simp [h.result_eq, h.types_eq]
  have hcreated : step ⟨r, 256⟩ (body rest q g "m" 0) ⟨0, .makeCaptured, .closure 0 0 0⟩ opened =
      .ok .next (made q) :=
    makeCaptured_of_bare (string?_redirected (context rest q) rest g 0).1 hid h.find?_site rfl
      ((h.reachable.wellFormed rfl).byId?_id hg) h.allows (Nat.zero_lt_succ _)
  have hreturned : step ⟨r, 256⟩ (body rest q g "m" 0) ⟨7, .retVoid, .none⟩ (made q) =
      .ok (.ret .null) (made q) := rfl
  have hfirst := run_of_next (n := 1) has_creation.1 hcreated
  have hsecond := run_of_ret (n := 0) has_creation.2 hreturned
  have hnext : Instruction.next ⟨0, .makeCaptured, .closure 0 0 0⟩ = 7 := rfl
  rw [hnext] at hfirst
  have hrun := h.run_eq hm
  rw [call_of_run (hfirst.trans hsecond), finish, leave_eq rfl] at hrun
  exact ⟨_, hrun, rfl⟩

end Registers

end LiveTypes.Crowded
