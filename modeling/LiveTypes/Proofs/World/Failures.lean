import LiveTypes.Proofs.World.Crowded

/-!
# Failures of verified code

No call into verified code fails structurally, whatever was registered and reloaded before
(`Reachable.run_tolerated`). The one exception needs a body with more strings than there are indices: an
index then names another string than the key of its site, and the closure cannot be created
(`badSiteKey_crowded`).
-/

namespace LiveTypes.World

variable {w : World} {config : RegistryConfig}

/-- No call into verified code fails structurally, whatever was registered and reloaded before. The
only fault that is left is over the key of a site, in a body with more constants than there are
indices. -/
theorem Reachable.run_tolerated (h : Reachable config w) (hverify : config.verify = true)
    {call : Invocation} (hcall : call.Belongs w.heap) {limit fuel : Nat} {e : VmError}
    {heap : Heap} (hrun : call.run ⟨w.registry, limit⟩ fuel w.heap = some (.error e, heap)) :
    ¬ e.IsStructural ∨ e.IsSiteFault ∧ w.registry.Overfull := by
  have hw := h.sound hverify
  have hsettled :=
    Invocation.settled_run hw.code (Machine.survives_true _) hw.heap trivial hcall hrun
  by_cases he : e.IsStructural
  · exact .inr (hsettled.1.failure e rfl he)
  · exact .inl he

set_option maxRecDepth 100000 in
/-- A call that fails in its code, and not structurally. -/
theorem run_tolerated_divider :
    ∃ r heap, Reachable .default ⟨r, .empty⟩ ∧
      (Invocation.static "a.D" "div()I" []).run ⟨r, 256⟩ 10 .empty =
        some (.error .divisionByZero, heap) ∧
      (¬ VmError.divisionByZero.IsStructural ∨
        VmError.divisionByZero.IsSiteFault ∧ r.Overfull) := by
  have hfacts : ((Registry.create .default).replay [.register "a.D" divider.encode]).any (fun r =>
      failure? ((Invocation.static "a.D" "div()I" []).run ⟨r, 256⟩ 10 .empty) =
        some .divisionByZero) = true := by
    decide +kernel
  obtain ⟨r, hr, hfails⟩ := (Option.any_eq_true _ _).mp hfacts
  obtain ⟨e, heap, hrun, he⟩ : ∃ e heap, (Invocation.static "a.D" "div()I" []).run ⟨r, 256⟩ 10
      .empty = some (.error e, heap) ∧ e = .divisionByZero := by
    unfold failure? at hfails
    split at hfails
    · next e heap hrun => exact ⟨e, heap, hrun, by simpa using hfails⟩
    · simp at hfails
  subst he
  have hreachable : Reachable .default ⟨r, .empty⟩ := reachable_of_leads (Registry.leads_of_replay hr)
  refine ⟨r, heap, hreachable, hrun, ?_⟩
  exact @Reachable.run_tolerated _ _ hreachable rfl (.static "a.D" "div()I" []) nofun _ _ _ _ hrun

/-- A unit with all strings that there are indices for but one has a method that fails over the key of a
site. -/
theorem badSiteKey_crowded :
    ∃ g t q r, (Registry.create .default).register "a.G" encloser.encode = .ok (g, q) ∧
      q.register "a.H" (crowded (List.replicate (UInt32.size - 4) "")).encode = .ok (t, r) ∧
      Reachable .default ⟨r, .empty⟩ ∧ (Invocation.static "a.H" "z()V" []).Belongs .empty ∧
      (Invocation.static "a.H" "z()V" []).run ⟨r, 256⟩ 3 .empty =
        some (.error (.runtime (.badSiteKey "a.G")), .empty) ∧
      (VmError.runtime (.badSiteKey "a.G")).IsStructural := by
  obtain ⟨hsize, hblank⟩ := Crowded.replicate_blank
  obtain ⟨g, t, q, r, h⟩ := Crowded.exists_registers hsize hblank
  exact ⟨g, t, q, r, h.registered, h.accepted, reachable_of_leads h.reachable, nofun, h.run_lost,
    trivial⟩

end LiveTypes.World
