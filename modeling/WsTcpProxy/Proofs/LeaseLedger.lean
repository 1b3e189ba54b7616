import WsTcpProxy.Proofs.LimiterRows

/-!
# Lease ledger

The three lease counters of the limiter count the live leases exactly in every reachable
state. Attempts, byte charges, pruning and garbage collection leave all three alone; only
`acquire` and `release` move them, and always together.
-/

namespace WsTcpProxy.Proofs
open Library

/-- Both states have the same configuration and the same lease counters. -/
structure SameLeases (g g' : Inner) : Prop where
  cfg : g'.cfg = g.cfg
  global : g'.globalConnections = g.globalConnections
  perIp : ∀ k, (g'.row k).connections = (g.row k).connections
  perDest : g'.perDest = g.perDest

namespace SameLeases

lemma refl (g : Inner) : SameLeases g g := ⟨rfl, rfl, fun _ => rfl, rfl⟩

lemma trans {g g' g'' : Inner} (h : SameLeases g g') (h' : SameLeases g' g'') : SameLeases g g'' :=
  ⟨h'.cfg.trans h.cfg, h'.global.trans h.global, fun k => (h'.perIp k).trans (h.perIp k),
    h'.perDest.trans h.perDest⟩

lemma pruneGlobal (g : Inner) (now : Instant) : SameLeases g (g.pruneGlobal now) :=
  ⟨rfl, rfl, fun _ => rfl, rfl⟩

lemma gcIdle (g : Inner) (now : Instant) : SameLeases g (g.gcIdle now) := by
  refine ⟨rfl, rfl, ?_, rfl⟩
  intro k
  rcases gcIdle_row g now k with h | ⟨hi, h⟩
  · rw [h, prune_connections]
  · rw [isIdle_iff, prune_connections] at hi
    rw [h, hi.1]

lemma maybeGc (g : Inner) (now : Instant) : SameLeases g (g.maybeGc now) := by
  rcases maybeGc_cases g now with h | h <;> rw [h]
  · exact refl g
  · exact gcIdle g now

lemma setRow (g : Inner) (k : IpAddr) {st : IpState} (hst : st.connections = (g.row k).connections) :
    SameLeases g (g.setRow k st) := by
  refine ⟨rfl, rfl, ?_, rfl⟩
  intro k'
  rw [row_setRow]
  split
  · rename_i hk
    rw [hst, hk]
  · rfl

lemma countAttempt (g : Inner) (k : IpAddr) (dest : Str) (now : Instant) :
    SameLeases g (g.countAttempt k dest now).2 := by
  unfold Inner.countAttempt
  dsimp only
  split
  · exact refl g
  · split
    · exact setRow g k rfl
    · split
      · exact setRow g k rfl
      · have hrow : SameLeases g (g.setRow k (((g.row k).prune now g.cfg).pushAttempt now dest)) :=
          setRow g k rfl
        exact ⟨hrow.cfg, hrow.global, hrow.perIp, hrow.perDest⟩

lemma recordAttempt (g : Inner) (ip : IpAddr) (dest : Str) (now : Instant) :
    SameLeases g (g.recordAttempt ip dest now).2 := by
  have h1 : SameLeases g ((g.maybeGc now).pruneGlobal now) :=
    (maybeGc g now).trans (pruneGlobal _ now)
  have h2 : SameLeases g (((g.maybeGc now).pruneGlobal now).gcIdle now) := h1.trans (gcIdle _ now)
  rcases recordAttempt_cases g ip dest now with h | h | ⟨-, h⟩ <;> rw [h]
  · exact h1.trans (countAttempt _ _ dest now)
  · exact h2.trans (countAttempt _ _ dest now)
  · exact h2

lemma addBytes (g : Inner) (ip : IpAddr) (n : Nat) (gcNow now : Instant) :
    SameLeases g (g.addBytes ip n gcNow now).2 := by
  unfold Inner.addBytes
  dsimp only
  split
  · exact refl g
  · split
    · exact maybeGc g gcNow
    · split
      · exact (maybeGc g gcNow).trans (setRow _ _ rfl)
      · exact (maybeGc g gcNow).trans (setRow _ _ rfl)

end SameLeases

/-- A refused `acquire` moves no counter; a granted one passed the three caps and moves all. -/
lemma acquire_cases (g : Inner) (ip : IpAddr) (dest : Str) (now : Instant) :
    (∃ e, (g.acquire ip dest now).1 = .error e ∧ SameLeases g (g.acquire ip dest now).2) ∨
    (g.acquire ip dest now).1 = .ok ⟨g.key ip, dest⟩ ∧
      capped g.cfg.maxGlobalConnections g.globalConnections = false ∧
      capped g.cfg.maxConnsPerIp (g.row (g.key ip)).connections = false ∧
      capped g.cfg.maxConnsPerDest (g.perDest.rowD dest 0) = false ∧
      (g.acquire ip dest now).2.cfg = g.cfg ∧
      (g.acquire ip dest now).2.globalConnections = g.globalConnections + 1 ∧
      (∀ k, ((g.acquire ip dest now).2.row k).connections =
        (g.row k).connections + if k = g.key ip then 1 else 0) ∧
      (g.acquire ip dest now).2.perDest = g.perDest.insert dest (g.perDest.rowD dest 0 + 1) := by
  have hgc := SameLeases.maybeGc g now
  have hrow : SameLeases g ((g.maybeGc now).setRow (g.key ip) ((g.maybeGc now).row (g.key ip))) :=
    hgc.trans (SameLeases.setRow _ _ rfl)
  unfold Inner.acquire
  dsimp only
  split
  · exact .inl ⟨_, rfl, hgc⟩
  · rename_i hglobal
    split
    · exact .inl ⟨_, rfl, hrow⟩
    · rename_i hip
      split
      · exact .inl ⟨_, rfl, hrow⟩
      · rename_i hdest
        refine .inr ⟨rfl, ?_, ?_, ?_, hgc.cfg, ?_, ?_, ?_⟩
        · simpa [hgc.cfg, hgc.global] using hglobal
        · simpa [hgc.cfg, hgc.perIp] using hip
        · simpa [hgc.cfg, hrow.perDest] using hdest
        · simp [Inner.setRow, hgc.global]
        · intro k
          have hset : ∀ (g' : Inner) (n : Nat) (m : AList fun _ : Str => Nat),
              Inner.row { g' with globalConnections := n, perDest := m } k = g'.row k :=
            fun _ _ _ => rfl
          rw [hset, row_setRow]
          by_cases hk : k = g.key ip
          · simp [hk, hgc.perIp]
          · simp [hk, hgc.perIp]
        · simp [Inner.setRow, hgc.perDest]

/-- `per_dest` is all that the destination part of `release` changes. -/
lemma releaseDest_frame (g : Inner) (dest : Str) :
    ∃ perDest, g.releaseDest dest = { g with perDest := perDest } := by
  unfold Inner.releaseDest
  split
  · exact ⟨_, rfl⟩
  · split <;> exact ⟨_, rfl⟩

lemma releaseIp_frame (g : Inner) (ip : IpAddr) (now : Instant) :
    ∃ perIp, g.releaseIp ip now = { g with perIp := perIp } := by
  unfold Inner.releaseIp
  split
  · exact ⟨_, rfl⟩
  · dsimp only
    split <;> exact ⟨_, rfl⟩

lemma releaseDest_row (g : Inner) (dest : Str) (k : IpAddr) : (g.releaseDest dest).row k = g.row k := by
  obtain ⟨perDest, h⟩ := releaseDest_frame g dest
  rw [h]
  rfl

lemma releaseIp_perDest (g : Inner) (ip : IpAddr) (now : Instant) :
    (g.releaseIp ip now).perDest = g.perDest := by
  obtain ⟨perIp, h⟩ := releaseIp_frame g ip now
  rw [h]

lemma release_frame (g : Inner) (ip : IpAddr) (dest : Str) (now : Instant) :
    (g.release ip dest now).cfg = g.cfg ∧
      (g.release ip dest now).globalConnections = g.globalConnections - 1 ∧
      (g.release ip dest now).globalConnects = g.globalConnects := by
  obtain ⟨perIp, hip⟩ :=
    releaseIp_frame { g with globalConnections := g.globalConnections - 1 } ip now
  obtain ⟨perDest, hdest⟩ := releaseDest_frame
    (Inner.releaseIp { g with globalConnections := g.globalConnections - 1 } ip now) dest
  rw [Inner.release, hdest, hip]
  exact ⟨rfl, rfl, rfl⟩

lemma releaseDest_lookup (g : Inner) (dest d : Str) :
    (g.releaseDest dest).perDest.lookup d = if d = dest then
      (g.perDest.lookup dest).bind (fun c => if c - 1 = 0 then none else some (c - 1))
      else g.perDest.lookup d := by
  unfold Inner.releaseDest
  by_cases hd : d = dest
  · subst hd
    cases h : g.perDest.lookup d with
    | none => simp [h]
    | some c => by_cases hc : c - 1 = 0 <;> simp [hc]
  · cases h : g.perDest.lookup dest with
    | none => simp [hd]
    | some c =>
      by_cases hc : c - 1 = 0
      · simp [hc, hd, AList.lookup_erase_ne hd]
      · simp [hc, hd, AList.lookup_insert_ne hd]

/-- Giving a row back prunes it and counts it down, or leaves the empty row. -/
lemma releaseIp_row (g : Inner) (ip k : IpAddr) (now : Instant) :
    let st := { g.row ip with connections := (g.row ip).connections - 1 }.prune now g.cfg
    (g.releaseIp ip now).row k = (if k = ip then st else g.row k) ∨
      k = ip ∧ st.isIdle = true ∧ (g.releaseIp ip now).row k = {} := by
  dsimp only
  unfold Inner.releaseIp
  cases h : g.perIp.lookup ip with
  | none =>
    have hrow : g.row ip = {} := by simp [Inner.row, AList.rowD, h]
    by_cases hk : k = ip
    · subst hk
      simp only [hrow, ite_true]
      exact .inl rfl
    · simp [hk]
  | some st =>
    have hrow : g.row ip = st := by simp [Inner.row, AList.rowD, h]
    rw [hrow]
    dsimp only
    split
    · rename_i hi
      by_cases hk : k = ip
      · subst hk
        refine .inr ⟨rfl, hi, ?_⟩
        simp [Inner.row, AList.rowD]
      · refine .inl ?_
        simp only [hk, ite_false, Inner.row, AList.rowD, AList.lookup_erase_ne hk]
    · exact .inl (row_setRow _ _ _ _)

lemma release_connections (g : Inner) (ip : IpAddr) (dest : Str) (now : Instant) (k : IpAddr) :
    ((g.release ip dest now).row k).connections =
      (g.row k).connections - if k = ip then 1 else 0 := by
  unfold Inner.release
  rw [releaseDest_row]
  have hsame : ∀ k, Inner.row { g with globalConnections := g.globalConnections - 1 } k = g.row k :=
    fun _ => rfl
  rcases releaseIp_row { g with globalConnections := g.globalConnections - 1 } ip k now with h | ⟨hk, hi, h⟩
  · rw [h]
    by_cases hk : k = ip
    · simp [hk, hsame]
    · simp [hk, hsame]
  · rw [isIdle_iff, prune_connections] at hi
    rw [h, if_pos hk, hk]
    exact hi.1.symm

/-- The counters count the live leases, and no non-zero cap is exceeded. -/
structure LeaseLedger (cfg : LimitsConfig) (s : LimitSystem) : Prop where
  cfg_eq : s.limits.cfg = cfg
  global : s.limits.globalConnections = s.live.length
  perIp : ∀ k, (s.limits.row k).connections = leasesOf s.live k
  perDest : ∀ d, s.limits.perDest.lookup d =
    if leasesTo s.live d = 0 then none else some (leasesTo s.live d)
  globalCap : cfg.maxGlobalConnections ≠ 0 → s.live.length ≤ cfg.maxGlobalConnections
  ipCap : ∀ k, cfg.maxConnsPerIp ≠ 0 → leasesOf s.live k ≤ cfg.maxConnsPerIp
  destCap : ∀ d, cfg.maxConnsPerDest ≠ 0 → leasesTo s.live d ≤ cfg.maxConnsPerDest

lemma lt_of_not_capped {limit used : Nat} (h : capped limit used = false) (h0 : limit ≠ 0) :
    used < limit := by
  simpa [capped, h0] using h

namespace LeaseLedger

variable {cfg : LimitsConfig} {s : LimitSystem}

lemma start (cfg : LimitsConfig) (t₀ : Instant) : LeaseLedger cfg (LimitSystem.start cfg t₀) where
  cfg_eq := rfl
  global := rfl
  perIp k := by simp [LimitSystem.start, leasesOf]
  perDest d := by simp [LimitSystem.start, Inner.new, leasesTo]
  globalCap _ := Nat.zero_le _
  ipCap _ _ := by simp [LimitSystem.start, leasesOf]
  destCap _ _ := by simp [LimitSystem.start, leasesTo]

lemma of_sameLeases (h : LeaseLedger cfg s) {g : Inner} (hg : SameLeases s.limits g) (now : Instant) :
    LeaseLedger cfg { s with limits := g, clock := now } where
  cfg_eq := hg.cfg.trans h.cfg_eq
  global := hg.global.trans h.global
  perIp k := (hg.perIp k).trans (h.perIp k)
  perDest d := by rw [hg.perDest]; exact h.perDest d
  globalCap := h.globalCap
  ipCap := h.ipCap
  destCap := h.destCap

lemma rowD_perDest (h : LeaseLedger cfg s) (d : Str) :
    s.limits.perDest.rowD d 0 = leasesTo s.live d := by
  unfold AList.rowD
  rw [h.perDest d]
  by_cases h0 : leasesTo s.live d = 0
  · simp [h0]
  · simp [h0]

/-- A granted slot enters the three counters, each of which was below its cap. -/
lemma acquired (h : LeaseLedger cfg s) {g : Inner} {lease : ConnectionLease} (holder : Nat)
    (hglobal : capped s.limits.cfg.maxGlobalConnections s.limits.globalConnections = false)
    (hip : capped s.limits.cfg.maxConnsPerIp (s.limits.row lease.ip).connections = false)
    (hdest : capped s.limits.cfg.maxConnsPerDest (s.limits.perDest.rowD lease.dest 0) = false)
    (hcfg : g.cfg = s.limits.cfg) (hg : g.globalConnections = s.limits.globalConnections + 1)
    (hrow : ∀ k, (g.row k).connections = (s.limits.row k).connections + if k = lease.ip then 1 else 0)
    (hd : g.perDest = s.limits.perDest.insert lease.dest (s.limits.perDest.rowD lease.dest 0 + 1))
    (now : Instant) :
    LeaseLedger cfg { limits := g, live := s.live ++ [⟨holder, lease⟩], clock := now } := by
  have hof : ∀ k, leasesOf (s.live ++ [⟨holder, lease⟩]) k =
      leasesOf s.live k + if k = lease.ip then 1 else 0 := by
    intro k
    simp [leasesOf, List.countP_append, List.countP_singleton, eq_comm]
  have hto : ∀ d, leasesTo (s.live ++ [⟨holder, lease⟩]) d =
      leasesTo s.live d + if d = lease.dest then 1 else 0 := by
    intro d
    simp [leasesTo, List.countP_append, List.countP_singleton, eq_comm]
  rw [h.cfg_eq] at hglobal hip hdest
  refine ⟨hcfg.trans h.cfg_eq, ?_, ?_, ?_, ?_, ?_, ?_⟩
  · simp [hg, h.global]
  · intro k
    simp [hrow, hof, h.perIp]
  · intro d
    rw [hd, hto, h.rowD_perDest]
    by_cases hdd : d = lease.dest
    · subst hdd
      simp
    · simpa [hdd, AList.lookup_insert_ne hdd] using h.perDest d
  · intro h0
    have := lt_of_not_capped hglobal h0
    rw [h.global] at this
    simpa using this
  · intro k h0
    have hlt := lt_of_not_capped hip h0
    have hle := h.ipCap k h0
    rw [h.perIp] at hlt
    dsimp only
    rw [hof]
    split
    · rename_i hk
      rw [hk]
      omega
    · omega
  · intro d h0
    have hlt := lt_of_not_capped hdest h0
    have hle := h.destCap d h0
    rw [h.rowD_perDest] at hlt
    dsimp only
    rw [hto]
    split
    · rename_i hdd
      rw [hdd]
      omega
    · omega

lemma leasesOf_erase {live : List HeldLease} {held : HeldLease} (hmem : held ∈ live) (k : IpAddr) :
    leasesOf (live.erase held) k = leasesOf live k - if k = held.lease.ip then 1 else 0 := by
  simp [leasesOf, List.countP_erase, hmem, eq_comm]

lemma leasesTo_erase {live : List HeldLease} {held : HeldLease} (hmem : held ∈ live) (d : Str) :
    leasesTo (live.erase held) d = leasesTo live d - if d = held.lease.dest then 1 else 0 := by
  simp [leasesTo, List.countP_erase, hmem, eq_comm]

lemma leasesOf_pos {live : List HeldLease} {held : HeldLease} (hmem : held ∈ live) :
    0 < leasesOf live held.lease.ip :=
  List.countP_pos_iff.mpr ⟨held, hmem, by simp⟩

lemma leasesTo_pos {live : List HeldLease} {held : HeldLease} (hmem : held ∈ live) :
    0 < leasesTo live held.lease.dest :=
  List.countP_pos_iff.mpr ⟨held, hmem, by simp⟩

lemma released (h : LeaseLedger cfg s) {held : HeldLease} (hmem : held ∈ s.live) (now : Instant) :
    LeaseLedger cfg
      { limits := s.limits.release held.lease.ip held.lease.dest now
        live := s.live.erase held
        clock := now } := by
  have hlen : (s.live.erase held).length = s.live.length - 1 := List.length_erase_of_mem hmem
  refine ⟨?_, ?_, ?_, ?_, ?_, ?_, ?_⟩
  · exact (release_frame ..).1.trans h.cfg_eq
  · rw [(release_frame ..).2.1, h.global, hlen]
  · intro k
    rw [release_connections, leasesOf_erase hmem, h.perIp]
  · intro d
    have hpos := leasesTo_pos hmem
    have hlookup := h.perDest held.lease.dest
    rw [if_neg hpos.ne'] at hlookup
    simp only [Inner.release, releaseDest_lookup, releaseIp_perDest]
    rw [leasesTo_erase hmem, hlookup]
    by_cases hd : d = held.lease.dest
    · simp [hd]
    · simpa [hd] using h.perDest d
  · intro h0
    have := h.globalCap h0
    simp only [hlen]
    omega
  · intro k h0
    have := h.ipCap k h0
    simp only [leasesOf_erase hmem]
    omega
  · intro d h0
    have := h.destCap d h0
    simp only [leasesTo_erase hmem]
    omega

lemma step (h : LeaseLedger cfg s) {c : Call} {r : Reply} {s' : LimitSystem}
    (hs : s.step c = some (r, s')) : LeaseLedger cfg s' := by
  rcases limitSystem_step_cases hs with ⟨ip, dest, now, -, -, -, rfl⟩ |
    ⟨holder, ip, dest, now, -, -, -, rfl⟩ | ⟨ip, n, gcNow, now, -, -, -, -, rfl⟩ |
    ⟨held, now, -, -, hmem, -, rfl⟩
  · exact h.of_sameLeases (SameLeases.recordAttempt _ ip dest now) now
  · rcases acquire_cases s.limits ip dest now with
      ⟨e, he, hsame⟩ | ⟨hok, hglobal, hip, hdest, hcfg, hg, hrow, hd⟩
    · rw [he, heldBy, List.append_nil]
      exact h.of_sameLeases hsame now
    · rw [hok]
      exact h.acquired holder hglobal hip hdest hcfg hg hrow hd now
  · exact h.of_sameLeases (SameLeases.addBytes _ ip n gcNow now) now
  · exact h.released hmem now

lemma of_runs {t₀ : Instant} {trace : List (Call × Reply)} (h : LimitRuns cfg t₀ trace s) :
    LeaseLedger cfg s :=
  h.state_invariant (start cfg t₀) (fun _ _ _ _ hs he => hs.step he)

/-- Every live lease has its row and its destination count, so none of the subtractions of
`release` saturates. -/
lemma held_counted (h : LeaseLedger cfg s) {held : HeldLease} (hmem : held ∈ s.live) :
    1 ≤ s.limits.globalConnections ∧
    (∃ st, s.limits.perIp.lookup held.lease.ip = some st ∧ 1 ≤ st.connections) ∧
    (∃ c, s.limits.perDest.lookup held.lease.dest = some c ∧ 1 ≤ c) := by
  refine ⟨?_, ?_, ?_⟩
  · rw [h.global]
    exact List.length_pos_of_mem hmem
  · have hpos := leasesOf_pos hmem
    rw [← h.perIp] at hpos
    cases hl : s.limits.perIp.lookup held.lease.ip with
    | none => simp [Inner.row, AList.rowD, hl] at hpos
    | some st =>
      simp only [Inner.row, AList.rowD, hl, Option.getD_some] at hpos
      exact ⟨st, rfl, hpos⟩
  · have hpos := leasesTo_pos hmem
    exact ⟨leasesTo s.live held.lease.dest, by rw [h.perDest, if_neg hpos.ne'], hpos⟩

/-- Garbage collection keeps every row that a lease stands on. -/
lemma gcIdle (h : LeaseLedger cfg s) (now : Instant) :
    LeaseLedger cfg { s with limits := s.limits.gcIdle now, clock := now } :=
  h.of_sameLeases (SameLeases.gcIdle s.limits now) now

lemma mem_perIp (h : LeaseLedger cfg s) {held : HeldLease} (hmem : held ∈ s.live) :
    held.lease.ip ∈ s.limits.perIp := by
  obtain ⟨-, ⟨st, hst, -⟩, -⟩ := h.held_counted hmem
  rw [← AList.lookup_isSome, hst]
  rfl

end LeaseLedger

/-- In every reachable state the counters equal the numbers of live leases, no subtraction of
`release` saturates, neither `gc_idle` nor `release` drops a row or a destination that still
holds a lease, and no non-zero cap is exceeded. -/
theorem lease_ledger_exact (cfg : LimitsConfig) (t₀ : Instant) (trace : List (Call × Reply))
    (s : LimitSystem) (hrun : LimitRuns cfg t₀ trace s) :
    s.limits.globalConnections = s.live.length ∧
    (∀ k, (s.limits.row k).connections = leasesOf s.live k) ∧
    (∀ d, d ∈ s.limits.perDest ↔ ∃ l ∈ s.live, l.lease.dest = d) ∧
    (∀ d n, s.limits.perDest.lookup d = some n → n = leasesTo s.live d) ∧
    (∀ held ∈ s.live, 1 ≤ s.limits.globalConnections ∧
      (∃ st, s.limits.perIp.lookup held.lease.ip = some st ∧ 1 ≤ st.connections) ∧
      (∃ c, s.limits.perDest.lookup held.lease.dest = some c ∧ 1 ≤ c)) ∧
    (∀ now, ∀ l ∈ s.live, l.lease.ip ∈ (s.limits.gcIdle now).perIp) ∧
    (∀ now, ∀ held ∈ s.live, ∀ l ∈ s.live.erase held,
      l.lease.ip ∈ (s.limits.release held.lease.ip held.lease.dest now).perIp ∧
      l.lease.dest ∈ (s.limits.release held.lease.ip held.lease.dest now).perDest) ∧
    (cfg.maxGlobalConnections ≠ 0 → s.live.length ≤ cfg.maxGlobalConnections) ∧
    (∀ k, cfg.maxConnsPerIp ≠ 0 → leasesOf s.live k ≤ cfg.maxConnsPerIp) ∧
    (∀ d, cfg.maxConnsPerDest ≠ 0 → leasesTo s.live d ≤ cfg.maxConnsPerDest) := by
  have h := LeaseLedger.of_runs hrun
  refine ⟨h.global, h.perIp, ?_, ?_, fun held hmem => h.held_counted hmem, ?_, ?_,
    h.globalCap, h.ipCap, h.destCap⟩
  · intro d
    rw [← AList.lookup_isSome, h.perDest]
    have hpos : 0 < leasesTo s.live d ↔ ∃ l ∈ s.live, l.lease.dest = d := by
      simp [leasesTo, List.countP_pos_iff]
    rw [← hpos]
    by_cases h0 : leasesTo s.live d = 0
    · simp [h0]
    · simp [h0]
      omega
  · intro d n hn
    rw [h.perDest] at hn
    split at hn
    · cases hn
    · exact (Option.some.inj hn).symm
  · intro now l hl
    exact (h.gcIdle now).mem_perIp hl
  · intro now held hmem l hl
    have hr := h.released hmem now
    refine ⟨hr.mem_perIp hl, ?_⟩
    obtain ⟨-, -, c, hc, -⟩ := hr.held_counted hl
    rw [← AList.lookup_isSome, hc]
    rfl

theorem lease_ledger_exact_after_drop :
    ∃ (trace : List (Call × Reply)) (s : LimitSystem),
      LimitRuns { LimitsConfig.unlimited with maxConnsPerIp := 2 } 0 trace s ∧
      trace.length = 3 ∧ s.live.length = 1 ∧ s.limits.globalConnections = s.live.length := by
  let held : HeldLease := ⟨1, ⟨.v4 (Ipv4Addr.new 203 0 113 1), "a:993".toList⟩⟩
  have hrun : LimitRuns { LimitsConfig.unlimited with maxConnsPerIp := 2 } 0 _ _ :=
    (((Runs.nil.snoc (i := Call.acquire 1 (.v4 (Ipv4Addr.new 203 0 113 1)) "a:993".toList 5) rfl).snoc
      (i := Call.acquire 2 (.v4 (Ipv4Addr.new 203 0 113 1)) "b:993".toList 6) rfl).snoc
      (i := Call.drop held 7) rfl)
  exact ⟨_, _, hrun, rfl, rfl, (lease_ledger_exact _ _ _ _ hrun).1⟩

end WsTcpProxy.Proofs
