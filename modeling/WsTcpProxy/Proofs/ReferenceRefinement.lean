import WsTcpProxy.Proofs.SlidingWindows

/-!
# The limiter refines the reference ledger

Without a cap on tracked prefixes, the pruned and garbage-collected limiter answers every
sequence of calls exactly as the ledger that never forgets.
-/

namespace WsTcpProxy.Proofs
open Library

/-- The outcome of `acquire` is decided by the counters before the call. -/
lemma acquire_result (g : Inner) (ip : IpAddr) (dest : Str) (now : Instant) :
    (g.acquire ip dest now).1 =
      if capped g.cfg.maxGlobalConnections g.globalConnections then .error .globalFull
      else if capped g.cfg.maxConnsPerIp (g.row (g.key ip)).connections then .error .perIpFull
      else if capped g.cfg.maxConnsPerDest (g.perDest.rowD dest 0) then .error .perDestFull
      else .ok ⟨g.key ip, dest⟩ := by
  have hgc := SameLeases.maybeGc g now
  have hperDest : ∀ st, ((g.maybeGc now).setRow (g.key ip) st).perDest = g.perDest :=
    fun _ => hgc.perDest
  unfold Inner.acquire
  simp only [setRow_cfg, hperDest, hgc.cfg, hgc.global, hgc.perIp]
  split
  · rfl
  · split
    · rfl
    · split <;> rfl

lemma LeaseLedger.decideAcquire {cfg : LimitsConfig} {s : LimitSystem} (h : LeaseLedger cfg s)
    (l : ReferenceLedger) (hlive : l.live = s.live) (ip : IpAddr) (dest : Str) (now : Instant) :
    (s.limits.acquire ip dest now).1 =
      l.decideAcquire cfg (limitKey ip cfg.ipv4Prefix cfg.ipv6Prefix) dest := by
  rw [acquire_result, ReferenceLedger.decideAcquire, h.cfg_eq, h.global, h.perIp, h.rowD_perDest,
    hlive, Inner.key, h.cfg_eq]

lemma referenceLedger_run_concat (cfg : LimitsConfig) (l : ReferenceLedger) (cs : List Call) (c : Call) :
    l.run cfg (cs ++ [c]) =
      ((l.run cfg cs).1 ++ [((l.run cfg cs).2.step cfg c).1], ((l.run cfg cs).2.step cfg c).2) := by
  induction cs generalizing l with
  | nil => rfl
  | cons c' cs ih => simp [ReferenceLedger.run, ih]

/-- Without a tracked-prefix cap, one step of the limiter is one step of the ledger. -/
lemma reference_step {cfg : LimitsConfig} (hcap : cfg.maxTrackedIps = 0)
    {trace : List (Call × Reply)} {s s' : LimitSystem} {c : Call} {r : Reply}
    (hw : WindowInvariant cfg trace s) (hl : LeaseLedger cfg s) (hs : s.step c = some (r, s')) :
    ReferenceLedger.step cfg { ledgerOf cfg trace with live := s.live } c =
      (r, { ledgerOf cfg (trace ++ [(c, r)]) with live := s'.live }) := by
  have hkey : ∀ ip, s.limits.key ip = limitKey ip cfg.ipv4Prefix cfg.ipv6Prefix := by
    intro ip
    rw [Inner.key, hw.represents.cfg_eq]
  rcases limitSystem_step_cases hs with ⟨ip, dest, now, rfl, hle, rfl, rfl⟩ |
    ⟨holder, ip, dest, now, rfl, hle, rfl, rfl⟩ | ⟨ip, n, gcNow, now, rfl, hgc, hle, rfl, rfl⟩ |
    ⟨held, now, rfl, hle, hmem, rfl, rfl⟩
  · rcases hw.represents.recordAttempt hle ip dest with ⟨hne, -⟩ | ⟨hdec, -⟩
    · exact (hne hcap).elim
    · rw [ledgerOf_recordAttempt, hdec, hkey]
      dsimp only [ReferenceLedger.step]
      have hsame : ReferenceLedger.decideAttempt cfg { ledgerOf cfg trace with live := s.live }
          (limitKey ip cfg.ipv4Prefix cfg.ipv6Prefix) dest now =
          (ledgerOf cfg trace).decideAttempt cfg (limitKey ip cfg.ipv4Prefix cfg.ipv6Prefix) dest now := rfl
      rw [hsame]
      cases (ledgerOf cfg trace).decideAttempt cfg (limitKey ip cfg.ipv4Prefix cfg.ipv6Prefix) dest now <;> rfl
  · rw [ledgerOf_acquire, hl.decideAcquire { ledgerOf cfg trace with live := s.live } rfl ip dest now]
    rfl
  · obtain ⟨hdec, -⟩ := hw.represents.addBytes hgc hle ip n
    rw [ledgerOf_addBytes, hdec, hkey]
    dsimp only [ReferenceLedger.step]
    have hsame : ReferenceLedger.decideCharge cfg { ledgerOf cfg trace with live := s.live }
        (limitKey ip cfg.ipv4Prefix cfg.ipv6Prefix) n now =
        (ledgerOf cfg trace).decideCharge cfg (limitKey ip cfg.ipv4Prefix cfg.ipv6Prefix) n now := rfl
    rw [hsame]
    cases (ledgerOf cfg trace).decideCharge cfg (limitKey ip cfg.ipv4Prefix cfg.ipv6Prefix) n now <;> rfl
  · rw [ledgerOf_drop]
    rfl

/-- In every run without a cap on tracked prefixes, the replies of the limiter are those of the
reference ledger to the same calls. -/
theorem limiter_refines_reference (cfg : LimitsConfig) (hcap : cfg.maxTrackedIps = 0) (t₀ : Instant)
    (trace : List (Call × Reply)) (s : LimitSystem) (hrun : LimitRuns cfg t₀ trace s) :
    (ReferenceLedger.run cfg {} (trace.map Prod.fst)).1 = trace.map Prod.snd := by
  have hsim : ReferenceLedger.run cfg {} (trace.map Prod.fst) =
      (trace.map Prod.snd, { ledgerOf cfg trace with live := s.live }) ∧
      WindowInvariant cfg trace s ∧ LeaseLedger cfg s := by
    refine hrun.invariant (P := fun trace s => ReferenceLedger.run cfg {} (trace.map Prod.fst) =
      (trace.map Prod.snd, { ledgerOf cfg trace with live := s.live }) ∧
      WindowInvariant cfg trace s ∧ LeaseLedger cfg s)
      ⟨rfl, WindowInvariant.start cfg t₀, LeaseLedger.start cfg t₀⟩ ?_
    rintro trace s c r s' ⟨hrun, hw, hl⟩ hs
    refine ⟨?_, hw.step hs, hl.step hs⟩
    simp only [List.map_append, List.map_cons, List.map_nil]
    rw [referenceLedger_run_concat, hrun, reference_step hcap hw hl hs]
  rw [hsim.1]

theorem limiter_refines_reference_rejected_attempt :
    ∃ (trace : List (Call × Reply)) (s : LimitSystem),
      LimitRuns { LimitsConfig.unlimited with connectsPerIp := 1 } 0 trace s ∧ trace.length = 3 ∧
      (ReferenceLedger.run { LimitsConfig.unlimited with connectsPerIp := 1 } {}
        (trace.map Prod.fst)).1 = trace.map Prod.snd := by
  let client : IpAddr := .v4 (Ipv4Addr.new 203 0 113 1)
  have hrun : LimitRuns { LimitsConfig.unlimited with connectsPerIp := 1 } 0 _ _ :=
    ((Runs.nil.snoc (i := Call.recordAttempt client "a:993".toList 5) rfl).snoc
      (i := Call.recordAttempt client "b:993".toList 6) rfl).snoc
      (i := Call.addBytes client 10 7 8) rfl
  exact ⟨_, _, hrun, rfl, limiter_refines_reference _ rfl _ _ _ hrun⟩

end WsTcpProxy.Proofs
