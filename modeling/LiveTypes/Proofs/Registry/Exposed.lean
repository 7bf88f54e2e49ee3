import LiveTypes.Proofs.Registry.Versions
import LiveTypes.Proofs.TypeUnit.Fits

/-!
# Exposed bytes

A type exposes two units as bytes: the executor of its current version, and the unit that is loaded
under its name. The first is read back as a unit whose methods are the bodies that run, also when the
current version repeats another one and its bodies were made for that one. The second is read back as
the loaded unit, which declares what the first version does (`Reachable.exposes`).
-/

namespace LiveTypes

/-! ### Units that the engine makes can be read back -/

namespace TypeUnit

variable {u d : TypeUnit}

/-- A unit that declares what one with readable types does has readable types. -/
lemma Mirrors.readable (h : d.Mirrors u) (hu : u.Readable) : d.Readable := by
  refine ⟨h.name_eq ▸ hu.nonempty, h.fields_eq ▸ hu.fields, fun m hm => ?_⟩
  have hmem : m.declaration ∈ u.methods.map MethodDecl.declaration :=
    h.methods_eq ▸ List.mem_map_of_mem hm
  obtain ⟨m', hm', heq⟩ := List.mem_map.mp hmem
  have hsignature : m'.signature = m.signature := congrArg Prod.fst heq
  exact hsignature ▸ hu.methods m' hm'

lemma readable_executor {cx : RedirectContext} {verify : Bool} {redirected : RedirectedVersion}
    (hu : u.Readable) (h : u.redirect cx verify = .ok redirected) : redirected.executor.Readable := by
  obtain ⟨methods, s, hmethods, hexecutor, -⟩ := methods_of_redirect h
  rw [hexecutor]
  refine ⟨by simp [executor, executorName], nofun, fun m hm => ?_⟩
  obtain ⟨m₀, hm₀, _, _, _, _, -, -, -, rfl⟩ := (redirectedMethods_of_methods hmethods).of_mem hm
  exact hu.methods m₀ hm₀

end TypeUnit

lemma Version.Genuine.readable {v : Version} (h : v.Genuine) : v.unit.Readable :=
  TypeUnit.readable_of_decode (TypeUnit.admit_eq_ok.mp h.admitted).1

/-! ### Tables of units without two methods of one key -/

lemma ExecutorTable.find?_ofUnit_eq_some {u : TypeUnit} {id : TypeId} {name label key : String}
    {version : Nat} {e : Executable} (hkeys : (u.methods.map MethodDecl.key).Nodup) :
    (ofUnit u id name version label).find? key = some e ↔
      ∃ m ∈ u.methods, m.key = key ∧ e = executable u id name version m := by
  refine ⟨mem_of_find?_ofUnit, ?_⟩
  rintro ⟨m, hm, rfl, rfl⟩
  obtain ⟨e, he⟩ : ∃ e, (ofUnit u id name version label).find? m.key = some e :=
    AssocMap.exists_find?_ofList (List.mem_map_of_mem hm)
  obtain ⟨m', hm', hkey, rfl⟩ := mem_of_find?_ofUnit he
  obtain rfl := List.inj_on_of_nodup_map hkeys hm' hm hkey
  exact he

namespace LiveType

variable {t : LiveType} {config : RegistryConfig}

/-- Whether the executor bytes of a type are those of a unit that holds the published bodies, key for
key. -/
structure RunsFrom (t : LiveType) (executor : TypeUnit) (version : Nat) : Prop where
  name_eq : executor.name = executorName t.name version
  bytes_eq : t.current.executorBytes = executor.encode
  decode_eq : executor.Fits → TypeUnit.decode t.current.executorBytes = .ok executor
  keys_nodup : (executor.methods.map MethodDecl.key).Nodup
  bodies : ∀ key e, t.table.find? key = some e ↔ ∃ m ∈ executor.methods, m.key = key ∧
    e = ExecutorTable.executable executor t.id t.name version m

/-- A type whose exposed bytes are read back as what runs: the executor of the current version holds the
published bodies, and the loaded unit declares what the first version does. -/
structure Exposes (t : LiveType) : Prop where
  runsFrom : ∃ executor version, t.RunsFrom executor version
  loadedBytes_eq : t.loadedBytes = t.loadedUnit.encode
  decode_eq : t.loadedUnit.Fits → TypeUnit.decode t.loadedBytes = .ok t.loadedUnit
  mirrors : t.loadedUnit.Mirrors t.initial.unit

/-- The loaded unit declares what the first version does, whether it was made public or not. -/
lemma Loaded.mirrors (h : t.Loaded config) : t.loadedUnit.Mirrors t.initial.unit := by
  obtain ⟨d, hd, hunit⟩ := h.unit_eq
  have hmirrors := TypeUnit.mirrors_of_dispatcher hd
  rw [hunit]
  split_ifs
  · exact { hmirrors with }
  · exact hmirrors

lemma Publishes.runsFrom {v : Version} {cx : RedirectContext} {redirected : RedirectedVersion}
    (h : t.Publishes v cx redirected) (ht : t.WellFormed) :
    t.RunsFrom redirected.executor v.index := by
  obtain ⟨_, _, -, -, -, hverified⟩ := TypeUnit.redirect_eq_ok h.redirect_eq
  have hkeys := hverified.methods_nodup
  have hreadable := TypeUnit.readable_executor (ht.genuine v h.mem).readable h.redirect_eq
  refine ⟨?_, h.executor_eq, fun hfits => ?_, hkeys, fun key e => ?_⟩
  · rw [TypeUnit.name_executor h.redirect_eq, h.version_eq, ht.named v h.mem]
  · rw [h.executor_eq]
    exact hfits.read_back hreadable
  · have htable : t.table.find? key =
        (ExecutorTable.ofUnit redirected.executor t.id t.name v.index v.label).find? key := by
      rw [ExecutorTable.find?, h.entries_eq, ExecutorTable.find?]
    rw [htable, ExecutorTable.find?_ofUnit_eq_some hkeys]

end LiveType

namespace Registry

variable {r : Registry} {config : RegistryConfig}

/-- The bytes of the loaded unit were made with it. -/
lemma Reachable.loadedBytes_eq (h : Reachable config r) :
    ∀ t ∈ r.types, t.loadedBytes = t.loadedUnit.encode :=
  h.forall_types (fun _ _ hcreated => hcreated.loadedBytes_eq) (fun hold _ _ => hold)
    fun hold _ _ => hold

/-- Whatever is asked of a registry, accepted or refused, the bytes that each type exposes are read back
as what runs: the executor of its current version as a unit that holds the published bodies, and the
loaded unit as it is. -/
theorem Reachable.exposes (h : Reachable config r) (hverify : config.verify = true)
    (requests : List Request) : ∀ t ∈ (r.serveAll requests).types, t.Exposes := by
  intro t ht
  have hreachable : Reachable config (r.serveAll requests) := h.trans (r.leads_serveAll requests)
  have hwell := (hreachable.wellFormed hverify).types t ht
  obtain ⟨v, cx, redirected, hpublishes⟩ := hreachable.publishes hverify t ht
  have hbytes := hreachable.loadedBytes_eq t ht
  have hmirrors := (hreachable.loaded t ht).mirrors
  refine ⟨⟨redirected.executor, v.index, hpublishes.runsFrom hwell⟩, hbytes, fun hfits => ?_,
    hmirrors⟩
  rw [hbytes]
  exact hfits.read_back (hmirrors.readable (hwell.genuine _ List.mem_cons_self).readable)

set_option maxRecDepth 100000 in
/-- After the revisions, the type exposes the bodies of its third version with its fourth. -/
theorem exposes_revised :
    ∃ r t, (Registry.create .default).replay [.register "a.K" (constantly 1).encode] = some r ∧
      t ∈ (r.serveAll revisions).types ∧ t.table.version = 3 ∧ t.Exposes ∧
      (∃ executor, executor.Fits ∧ executor.name = "a.K$$E2" ∧
        TypeUnit.decode t.current.executorBytes = .ok executor) ∧
      TypeUnit.decode t.loadedBytes = .ok t.loadedUnit := by
  have hfacts : ((Registry.create .default).replay
      [.register "a.K" (constantly 1).encode]).any (fun r =>
        ((r.serveAll revisions).find? "a.K").any fun t =>
          t.table.version = 3 ∧ t.current.executorBytes.length < UInt32.size ∧ t.loadedUnit.Fits ∧
            (TypeUnit.decode t.current.executorBytes).toOption.any fun executor =>
              executor.name = "a.K$$E2") = true := by
    decide +kernel
  obtain ⟨r, hr, hfacts⟩ := (Option.any_eq_true _ _).mp hfacts
  obtain ⟨t, hfind, hfacts⟩ := (Option.any_eq_true _ _).mp hfacts
  obtain ⟨hversion, hlength, hfits, hname⟩ := of_decide_eq_true hfacts
  have hreachable : Reachable .default r := leads_of_replay hr
  have hexposes := hreachable.exposes rfl revisions t (mem_of_find? hfind)
  obtain ⟨executor, _, hruns⟩ := hexposes.runsFrom
  have hfits' : executor.Fits := TypeUnit.fits_of_length (hruns.bytes_eq ▸ hlength)
  have hdecode := hruns.decode_eq hfits'
  rw [hdecode] at hname
  exact ⟨r, t, hr, mem_of_find? hfind, hversion, hexposes,
    ⟨executor, hfits', of_decide_eq_true hname, hdecode⟩, hexposes.decode_eq hfits⟩

end Registry

end LiveTypes
