import WsTcpProxy.LimitSystem

/-!
# Rows of the limiter

What pruning, garbage collection and row updates do to a single row. A row that is absent
counts as the empty row, so garbage collection either prunes a row or replaces a pruned row
that holds nothing by the empty one.
-/

namespace WsTcpProxy.Proofs
open Library

@[simp] lemma row_setRow (g : Inner) (k k' : IpAddr) (st : IpState) :
    (g.setRow k st).row k' = if k' = k then st else g.row k' :=
  AList.rowD_insert g.perIp k' k st {}

@[simp] lemma setRow_cfg (g : Inner) (k : IpAddr) (st : IpState) : (g.setRow k st).cfg = g.cfg := rfl

@[simp] lemma pruneGlobal_cfg (g : Inner) (now : Instant) : (g.pruneGlobal now).cfg = g.cfg := rfl

@[simp] lemma row_new (cfg : LimitsConfig) (now : Instant) (k : IpAddr) :
    (Inner.new cfg now).row k = {} := by
  simp [Inner.new, Inner.row]

@[simp] lemma prune_empty (now : Instant) (cfg : LimitsConfig) : IpState.prune {} now cfg = {} := rfl

@[simp] lemma prune_connections (st : IpState) (now : Instant) (cfg : LimitsConfig) :
    (st.prune now cfg).connections = st.connections := rfl

@[simp] lemma prune_connects (st : IpState) (now : Instant) (cfg : LimitsConfig) :
    (st.prune now cfg).connects = expireFront id now cfg.connectsPerIpWindow st.connects := rfl

@[simp] lemma prune_dests (st : IpState) (now : Instant) (cfg : LimitsConfig) :
    (st.prune now cfg).dests = expireFront Prod.fst now cfg.distinctDestsWindow st.dests := rfl

lemma pruneBytes_fst (now : Instant) (window : Duration) (q : List (Instant × Nat)) (sum : Nat) :
    (pruneBytes now window q sum).1 = expireFront Prod.fst now window q := by
  induction q generalizing sum with
  | nil => rfl
  | cons e q ih =>
    obtain ⟨t, n⟩ := e
    by_cases h : window < now - t
    · simpa [pruneBytes, expireFront, h] using ih (sum - n)
    · simp [pruneBytes, expireFront, h]

@[simp] lemma prune_bytes (st : IpState) (now : Instant) (cfg : LimitsConfig) :
    (st.prune now cfg).bytes = expireFront Prod.fst now cfg.bytesWindow st.bytes :=
  pruneBytes_fst now cfg.bytesWindow st.bytes st.bytesSum

/-- The cached sum stays exact while expired counts are taken off it. -/
lemma pruneBytes_sum (now : Instant) (window : Duration) (q : List (Instant × Nat)) :
    (pruneBytes now window q (q.map Prod.snd).sum).2 =
      ((pruneBytes now window q (q.map Prod.snd).sum).1.map Prod.snd).sum := by
  induction q with
  | nil => rfl
  | cons e q ih =>
    obtain ⟨t, n⟩ := e
    have hsum : ((((t, n) :: q).map Prod.snd).sum) - n = (q.map Prod.snd).sum := by
      simp only [List.map_cons, List.sum_cons]
      omega
    by_cases h : window < now - t
    · simp only [pruneBytes, h, ite_true, hsum]
      exact ih
    · simp [pruneBytes, h]

lemma prune_bytesSum {st : IpState} (hst : st.bytesSum = (st.bytes.map Prod.snd).sum)
    (now : Instant) (cfg : LimitsConfig) :
    (st.prune now cfg).bytesSum = ((st.prune now cfg).bytes.map Prod.snd).sum := by
  have h := pruneBytes_sum now cfg.bytesWindow st.bytes
  rw [← hst] at h
  exact h

lemma isIdle_iff (st : IpState) : st.isIdle = true ↔
    st.connections = 0 ∧ st.connects = [] ∧ st.dests = [] ∧ st.bytes = [] := by
  simp [IpState.isIdle, and_assoc]

/-- Garbage collection leaves the pruned row, or the empty row in place of an idle one. -/
lemma gcIdle_row (g : Inner) (now : Instant) (k : IpAddr) :
    (g.gcIdle now).row k = (g.row k).prune now g.cfg ∨
      ((g.row k).prune now g.cfg).isIdle = true ∧ (g.gcIdle now).row k = {} := by
  unfold Inner.gcIdle Inner.row AList.rowD
  cases h : g.perIp.lookup k with
  | none => simp [Inner.pruneGlobal, h]
  | some st =>
    by_cases hi : (st.prune now g.cfg).isIdle = true
    · simp [Inner.pruneGlobal, h, hi]
    · simp [Inner.pruneGlobal, h, hi]

lemma maybeGc_cases (g : Inner) (now : Instant) :
    g.maybeGc now = g ∨ g.maybeGc now = g.gcIdle now := by
  unfold Inner.maybeGc
  dsimp only
  split
  · exact .inr rfl
  · exact .inl rfl

@[simp] lemma maybeGc_cfg (g : Inner) (now : Instant) : (g.maybeGc now).cfg = g.cfg := by
  rcases maybeGc_cases g now with h | h <;> rw [h]
  rfl

/-- The state on which `record_attempt` makes its rate checks, after at most two
garbage collections at the same instant. -/
lemma recordAttempt_cases (g : Inner) (ip : IpAddr) (dest : Str) (now : Instant) :
    let g₁ := (g.maybeGc now).pruneGlobal now
    (g.recordAttempt ip dest now = g₁.countAttempt (g.key ip) dest now) ∨
    (g.recordAttempt ip dest now = (g₁.gcIdle now).countAttempt (g.key ip) dest now) ∨
    (g.cfg.maxTrackedIps ≠ 0 ∧
      g.recordAttempt ip dest now = (.error .globalConnectRate, g₁.gcIdle now)) := by
  dsimp only [Inner.recordAttempt]
  split
  · rename_i hfull
    have hcap : g.cfg.maxTrackedIps ≠ 0 := by
      intro h0
      simp [Inner.trackedFull, capped, h0] at hfull
    split
    · exact .inr (.inr ⟨hcap, rfl⟩)
    · exact .inr (.inl rfl)
  · exact .inl rfl

/-- Everything one call on the shared limiter can do. -/
lemma limitSystem_step_cases {s s' : LimitSystem} {c : Call} {r : Reply}
    (hs : s.step c = some (r, s')) :
    (∃ ip dest now, c = .recordAttempt ip dest now ∧ s.clock ≤ now ∧
      r = .attempt (s.limits.recordAttempt ip dest now).1 ∧
      s' = { s with limits := (s.limits.recordAttempt ip dest now).2, clock := now }) ∨
    (∃ holder ip dest now, c = .acquire holder ip dest now ∧ s.clock ≤ now ∧
      r = .lease (s.limits.acquire ip dest now).1 ∧
      s' = { limits := (s.limits.acquire ip dest now).2
             live := s.live ++ heldBy holder (s.limits.acquire ip dest now).1
             clock := now }) ∨
    (∃ ip n gcNow now, c = .addBytes ip n gcNow now ∧ s.clock ≤ gcNow ∧ gcNow ≤ now ∧
      r = .bytes (s.limits.addBytes ip n gcNow now).1 ∧
      s' = { s with limits := (s.limits.addBytes ip n gcNow now).2, clock := now }) ∨
    (∃ held now, c = .drop held now ∧ s.clock ≤ now ∧ held ∈ s.live ∧ r = .dropped ∧
      s' = { limits := s.limits.release held.lease.ip held.lease.dest now
             live := s.live.erase held
             clock := now }) := by
  cases c with
  | recordAttempt ip dest now =>
    simp only [LimitSystem.step] at hs
    split at hs
    · cases hs
      exact .inl ⟨ip, dest, now, rfl, ‹_›, rfl, rfl⟩
    · cases hs
  | acquire holder ip dest now =>
    simp only [LimitSystem.step] at hs
    split at hs
    · cases hs
      exact .inr (.inl ⟨holder, ip, dest, now, rfl, ‹_›, rfl, rfl⟩)
    · cases hs
  | addBytes ip n gcNow now =>
    simp only [LimitSystem.step] at hs
    split at hs
    · rename_i hen
      cases hs
      exact .inr (.inr (.inl ⟨ip, n, gcNow, now, rfl, hen.1, hen.2, rfl, rfl⟩))
    · cases hs
  | drop held now =>
    simp only [LimitSystem.step] at hs
    split at hs
    · rename_i hen
      cases hs
      exact .inr (.inr (.inr ⟨held, now, rfl, hen.1, hen.2, rfl, rfl⟩))
    · cases hs

end WsTcpProxy.Proofs
