import WsTcpProxy.Proofs.SlidingWindows
import Mathlib.Data.List.TakeWhile

/-!
# Recovery of the limiter

What the limiter remembers of its past, and for how long.
-/

namespace WsTcpProxy

/-- The longest time that a call can matter to the limiter, once no lease is live. -/
def LimitsConfig.horizon (cfg : LimitsConfig) : Duration :=
  max (fromSecs 30) (max (max cfg.connectsPerIpWindow cfg.distinctDestsWindow)
    (max cfg.globalConnectsWindow cfg.bytesWindow))

lemma LimitsConfig.windows_le_horizon (cfg : LimitsConfig) :
    cfg.connectsPerIpWindow ≤ cfg.horizon ∧ cfg.distinctDestsWindow ≤ cfg.horizon ∧
      cfg.globalConnectsWindow ≤ cfg.horizon ∧ cfg.bytesWindow ≤ cfg.horizon := by
  simp [LimitsConfig.horizon]

/-- The reading of the clock by which a call decides whether to collect idle rows. -/
def Call.gcTime : Call → Option Instant
  | .recordAttempt _ _ now => some now
  | .acquire _ _ _ now => some now
  | .addBytes _ n gcNow _ => if n = 0 then none else some gcNow
  | .drop _ _ => none

end WsTcpProxy

namespace WsTcpProxy.Proofs
open Library

/-! ### What is kept -/

section Kept

variable {g : Inner} {clock now : Instant}

/-- Garbage was collected before, and nothing is kept for a byte cap that is off. -/
structure Kept (g : Inner) (clock : Instant) : Prop where
  gc : g.lastGc ≤ clock
  bytes : g.cfg.maxBytesPerIp = 0 → ∀ k, (g.row k).bytes = []

lemma expireFront_eq_nil {α : Type} {time : α → ℕ} {now window : ℕ} {q : List α}
    (h : ∀ e ∈ q, window < now - time e) : expireFront time now window q = [] := by
  rw [expireFront, List.dropWhile_eq_nil_iff]
  intro e he
  exact decide_eq_true (h e he)

/-- What happened by `clock` has left a window that is no longer than the horizon. -/
lemma lt_sub_of_quiet {clock now t window horizon : ℕ} (hquiet : clock + horizon < now) (ht : t ≤ clock)
    (hwindow : window ≤ horizon) : window < now - t := by
  omega

namespace Kept

lemma later (h : Kept g clock) (hle : clock ≤ now) : Kept g now := ⟨h.gc.trans hle, h.bytes⟩

lemma setRow (h : Kept g clock) (k : IpAddr) {st : IpState}
    (hst : g.cfg.maxBytesPerIp = 0 → st.bytes = []) : Kept (g.setRow k st) clock := by
  refine ⟨h.gc, ?_⟩
  intro h0 k'
  rw [row_setRow]
  split
  · exact hst h0
  · exact h.bytes h0 k'

lemma prune_bytes (h : Kept g clock) (k : IpAddr) (now : Instant) (h0 : g.cfg.maxBytesPerIp = 0) :
    ((g.row k).prune now g.cfg).bytes = [] := by
  rw [Proofs.prune_bytes, h.bytes h0 k]
  rfl

lemma pruneGlobal (h : Kept g clock) (hle : clock ≤ now) : Kept (g.pruneGlobal now) now :=
  ⟨h.gc.trans hle, h.bytes⟩

lemma gcIdle (h : Kept g clock) (now : Instant) : Kept (g.gcIdle now) now := by
  refine ⟨le_rfl, ?_⟩
  intro h0 k
  obtain heq | ⟨-, heq⟩ := gcIdle_row g now k
  · rw [heq]
    exact h.prune_bytes k now h0
  · rw [heq]

lemma maybeGc (h : Kept g clock) (hle : clock ≤ now) : Kept (g.maybeGc now) now := by
  obtain heq | heq := maybeGc_cases g now <;> rw [heq]
  · exact h.later hle
  · exact h.gcIdle _

lemma countAttempt (h : Kept g clock) (k : IpAddr) (dest : Str) (now : Instant) :
    Kept (g.countAttempt k dest now).2 clock := by
  have hrow := h.setRow k (h.prune_bytes k now)
  unfold Inner.countAttempt
  dsimp only
  split
  · exact h
  · split
    · exact hrow
    · split
      · exact hrow
      · have hpush : Kept (g.setRow k (((g.row k).prune now g.cfg).pushAttempt now dest)) clock :=
          h.setRow k (h.prune_bytes k now)
        exact ⟨hpush.gc, hpush.bytes⟩

lemma recordAttempt (h : Kept g clock) (hle : clock ≤ now) (ip : IpAddr) (dest : Str) :
    Kept (g.recordAttempt ip dest now).2 now := by
  have hgc := (h.maybeGc hle).pruneGlobal le_rfl
  obtain heq | heq | ⟨-, heq⟩ := recordAttempt_cases g ip dest now <;> rw [heq]
  · exact hgc.countAttempt _ dest now
  · exact (hgc.gcIdle now).countAttempt _ dest now
  · exact hgc.gcIdle now

lemma acquire (h : Kept g clock) (hle : clock ≤ now) (ip : IpAddr) (dest : Str) :
    Kept (g.acquire ip dest now).2 now := by
  have hgc := h.maybeGc hle
  have hrow := hgc.setRow (g.key ip) (fun h0 => hgc.bytes h0 (g.key ip))
  unfold Inner.acquire
  dsimp only
  split
  · exact hgc
  · split
    · exact hrow
    · split
      · exact hrow
      · have hcount : Kept (((g.maybeGc now).setRow (g.key ip) ((g.maybeGc now).row (g.key ip))).setRow
            (g.key ip) { (g.maybeGc now).row (g.key ip) with
              connections := ((g.maybeGc now).row (g.key ip)).connections + 1 }) now :=
          hrow.setRow (g.key ip) (fun h0 => hgc.bytes h0 (g.key ip))
        exact ⟨hcount.gc, hcount.bytes⟩

lemma addBytes (h : Kept g clock) {gcNow : Instant} (hgc : clock ≤ gcNow) (hle : gcNow ≤ now)
    (ip : IpAddr) (n : Nat) : Kept (g.addBytes ip n gcNow now).2 now := by
  have hkept := (h.maybeGc hgc).later hle
  unfold Inner.addBytes
  dsimp only
  split
  · exact h.later (hgc.trans hle)
  · split
    · exact hkept
    · rename_i h0
      split
      · exact hkept.setRow _ (fun h0' => absurd h0' h0)
      · exact hkept.setRow _ (fun h0' => absurd h0' h0)

lemma release (h : Kept g clock) (hle : clock ≤ now) (ip : IpAddr) (dest : Str) :
    Kept (g.release ip dest now) now := by
  obtain ⟨hcfg, -⟩ := release_frame g ip dest now
  refine ⟨?_, ?_⟩
  · obtain ⟨perIp, hip⟩ := releaseIp_frame { g with globalConnections := g.globalConnections - 1 } ip now
    obtain ⟨perDest, hdest⟩ := releaseDest_frame
      (Inner.releaseIp { g with globalConnections := g.globalConnections - 1 } ip now) dest
    rw [Inner.release, hdest, hip]
    exact h.gc.trans hle
  · intro h0 k
    rw [hcfg] at h0
    rw [Inner.release, releaseDest_row]
    obtain heq | ⟨-, -, heq⟩ :=
      releaseIp_row { g with globalConnections := g.globalConnections - 1 } ip k now <;> rw [heq]
    split
    · exact h.prune_bytes ip now h0
    · exact h.bytes h0 k

lemma of_runs {cfg : LimitsConfig} {t₀ : Instant} {trace : List (Call × Reply)} {s : LimitSystem}
    (hrun : LimitRuns cfg t₀ trace s) : Kept s.limits s.clock := by
  refine hrun.state_invariant (P := fun s => Kept s.limits s.clock) ⟨le_rfl, fun _ k => congrArg IpState.bytes (row_new cfg t₀ k)⟩ ?_
  intro s c r s' h hs
  obtain ⟨ip, dest, now, -, hle, -, rfl⟩ | ⟨holder, ip, dest, now, -, hle, -, rfl⟩ |
    ⟨ip, n, gcNow, now, -, hgc, hle, -, rfl⟩ | ⟨held, now, -, hle, -, -, rfl⟩ := limitSystem_step_cases hs
  · exact h.recordAttempt hle ip dest
  · exact h.acquire hle ip dest
  · exact h.addBytes hgc hle ip n
  · exact h.release hle held.lease.ip held.lease.dest

end Kept

end Kept

/-! ### What is forgotten -/

section Forgotten

variable {cfg : LimitsConfig} {t₀ now : Instant} {trace : List (Call × Reply)} {s : LimitSystem}

/-- After the horizon, a limiter without live leases that collects its garbage is a new one. -/
lemma gcIdle_eq_new (hrun : LimitRuns cfg t₀ trace s) (hidle : s.live = [])
    (hquiet : s.clock + cfg.horizon < now) : s.limits.gcIdle now = Inner.new cfg now := by
  have hrep := (WindowInvariant.of_runs hrun).represents
  have hleases := LeaseLedger.of_runs hrun
  have hkept := Kept.of_runs hrun
  obtain ⟨hconnectsWindow, hdestsWindow, hglobalWindow, hbytesWindow⟩ := cfg.windows_le_horizon
  have hglobal : pruneInstants s.limits.globalConnects now cfg.globalConnectsWindow = [] := by
    apply expireFront_eq_nil
    exact fun t ht => lt_sub_of_quiet hquiet (hrep.global.past t ht) hglobalWindow
  have hrow (k : IpAddr) : ((s.limits.row k).prune now cfg).isIdle = true := by
    have htracks := hrep.rows k
    rw [isIdle_iff]
    refine ⟨?_, ?_, ?_, ?_⟩
    · rw [prune_connections, hleases.perIp, hidle]
      rfl
    · apply expireFront_eq_nil
      exact fun t ht => lt_sub_of_quiet hquiet (htracks.connects.past t ht) hconnectsWindow
    · apply expireFront_eq_nil
      exact fun e he => lt_sub_of_quiet hquiet (htracks.dests.past e he) hdestsWindow
    · rw [prune_bytes]
      apply expireFront_eq_nil
      intro e he
      by_cases h0 : cfg.maxBytesPerIp = 0
      · rw [hkept.bytes (hrep.cfg_eq ▸ h0) k] at he
        cases he
      · exact lt_sub_of_quiet hquiet ((htracks.bytes h0).past e he) hbytesWindow
  have hperIp : (s.limits.perIp.retain fun _ st =>
      if (st.prune now cfg).isIdle then none else some (st.prune now cfg)) = ∅ := by
    apply AList.retain_eq_empty
    intro k st hst
    have hk : s.limits.row k = st := by rw [Inner.row, AList.rowD, hst, Option.getD_some]
    rw [← hk]
    exact if_pos (hrow k)
  have hperDest : s.limits.perDest = ∅ := by
    apply AList.eq_empty_of_lookup
    intro d
    rw [hleases.perDest, hidle]
    rfl
  have hnone : s.limits.globalConnections = 0 := by
    rw [hleases.global, hidle]
    rfl
  have hcfg := hrep.cfg_eq
  unfold Inner.gcIdle Inner.pruneGlobal Inner.new
  simp only [hcfg, hnone, hglobal, hperIp, hperDest]

lemma maybeGc_new (cfg : LimitsConfig) (now : Instant) :
    (Inner.new cfg now).maybeGc now = Inner.new cfg now := by
  simp [Inner.maybeGc, Inner.new, fromSecs]

/-- The first call after the horizon finds the state of a new limiter. -/
lemma maybeGc_eq_new (hrun : LimitRuns cfg t₀ trace s) (hidle : s.live = [])
    (hquiet : s.clock + cfg.horizon < now) : s.limits.maybeGc now = Inner.new cfg now := by
  have hgc := (Kept.of_runs hrun).gc
  have hhorizon : fromSecs 30 ≤ cfg.horizon := le_max_left _ _
  have hoverdue : fromSecs 30 ≤ now - s.limits.lastGc := (lt_sub_of_quiet hquiet hgc hhorizon).le
  rw [← gcIdle_eq_new hrun hidle hquiet, Inner.maybeGc]
  simp [hoverdue]

/-- Once every lease is given back and the horizon has passed, nothing that calls on the limiter can
tell it from a new one. -/
theorem limiter_forgets (cfg : LimitsConfig) (t₀ : Instant) (trace : List (Call × Reply))
    (s : LimitSystem) (hrun : LimitRuns cfg t₀ trace s) (hidle : s.live = []) (now : Instant)
    (hquiet : s.clock + cfg.horizon < now) (c : Call) (hfirst : c.gcTime = some now) (r : Reply)
    (rest : List (Call × Reply)) (s' : LimitSystem) :
    Runs LimitSystem.step s ((c, r) :: rest) s' ↔ LimitRuns cfg now ((c, r) :: rest) s' := by
  have hcfg := (LeaseLedger.of_runs hrun).cfg_eq
  have hgc := maybeGc_eq_new hrun hidle hquiet
  have hle : s.clock ≤ now := (Nat.le_add_right s.clock cfg.horizon).trans hquiet.le
  have hstep : s.step c = (LimitSystem.start cfg now).step c := by
    cases c with
    | recordAttempt ip dest t =>
      cases hfirst
      have hreply : s.limits.recordAttempt ip dest now =
          (Inner.new cfg now).recordAttempt ip dest now := by
        rw [Inner.recordAttempt, Inner.recordAttempt, hgc, maybeGc_new, Inner.key, Inner.key, hcfg]
        rfl
      simp only [LimitSystem.step, LimitSystem.start, hreply, hidle, hle, le_refl]
    | acquire holder ip dest t =>
      cases hfirst
      have hreply : s.limits.acquire ip dest now = (Inner.new cfg now).acquire ip dest now := by
        rw [Inner.acquire, Inner.acquire, hgc, maybeGc_new, Inner.key, Inner.key, hcfg]
        rfl
      simp only [LimitSystem.step, LimitSystem.start, hreply, hidle, hle, le_refl]
    | addBytes ip n gcNow t =>
      have hn : n ≠ 0 := by
        rintro rfl
        cases hfirst
      rw [Call.gcTime, if_neg hn] at hfirst
      cases hfirst
      have hreply : s.limits.addBytes ip n now t = (Inner.new cfg now).addBytes ip n now t := by
        rw [Inner.addBytes, Inner.addBytes, if_neg hn, if_neg hn, hgc, maybeGc_new, Inner.key, Inner.key, hcfg]
        rfl
      simp only [LimitSystem.step, LimitSystem.start, hreply, hidle, hle, le_refl]
    | drop held t => cases hfirst
  calc Runs LimitSystem.step s ((c, r) :: rest) s'
      ↔ ∃ next, s.step c = some (r, next) ∧ Runs LimitSystem.step next rest s' := Runs.cons_iff
    _ ↔ ∃ next, (LimitSystem.start cfg now).step c = some (r, next) ∧
          Runs LimitSystem.step next rest s' := by rw [hstep]
    _ ↔ LimitRuns cfg now ((c, r) :: rest) s' := Runs.cons_iff.symm

theorem limiter_forgets_session :
    ∃ (trace : List (Call × Reply)) (s s' : LimitSystem), LimitRuns {} 0 trace s ∧ trace.length = 4 ∧
      Runs LimitSystem.step s [(.recordAttempt (.v4 (Ipv4Addr.new 203 0 113 1)) "b:993".toList
        (fromSecs 4000), .attempt (.ok ()))] s' := by
  let client : IpAddr := .v4 (Ipv4Addr.new 203 0 113 1)
  have hrun : LimitRuns {} 0 _ _ :=
    .of_inputs [.recordAttempt client "a:993".toList 5, .acquire 0 client "a:993".toList 6,
      .addBytes client 100 7 8, .drop ⟨0, ⟨client, "a:993".toList⟩⟩ 9] rfl
  have hfresh : LimitRuns {} (fromSecs 4000) _ _ :=
    .of_inputs [.recordAttempt client "b:993".toList (fromSecs 4000)] rfl
  exact ⟨_, _, _, hrun, rfl,
    (limiter_forgets _ _ _ _ hrun rfl _ (by decide) _ rfl _ _ _).mpr hfresh⟩

end Forgotten

end WsTcpProxy.Proofs
