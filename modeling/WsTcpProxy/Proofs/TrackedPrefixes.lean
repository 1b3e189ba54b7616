import WsTcpProxy.HandlerOrder
import WsTcpProxy.Proofs.LimitKeys

/-!
# Tracked prefixes

How many rows `per_ip` holds. `record_attempt` checks the cap before it inserts a row, a byte
charge finds the row of its lease, and a release inserts none. `acquire` relies on the row of the
earlier attempt, which garbage collection may have dropped in the meantime.
-/

namespace WsTcpProxy.Proofs
open Library

def tracked (g : Inner) : ℕ := g.perIp.keys.length

/-- A row for `k` can be written without exceeding `K` rows. -/
def HasRoom (K : ℕ) (g : Inner) (k : IpAddr) : Prop := k ∈ g.perIp ∨ tracked g < K

lemma tracked_gcIdle_le (g : Inner) (now : Instant) : tracked (g.gcIdle now) ≤ tracked g :=
  AList.length_keys_retain_le _ _

lemma tracked_maybeGc_le (g : Inner) (now : Instant) : tracked (g.maybeGc now) ≤ tracked g := by
  rcases maybeGc_cases g now with h | h <;> rw [h]
  exact tracked_gcIdle_le g now

lemma tracked_setRow_le_iff {K : ℕ} {g : Inner} (hg : tracked g ≤ K) (k : IpAddr) (st : IpState) :
    tracked (g.setRow k st) ≤ K ↔ HasRoom K g k := by
  have hlen : tracked (g.setRow k st) = tracked g + if k ∈ g.perIp then 0 else 1 :=
    AList.length_keys_insert g.perIp k st
  rw [hlen, HasRoom]
  split
  · rename_i hk
    simp [hk, hg]
  · rename_i hk
    simp only [hk, false_or]
    omega

/-- The guard of `record_attempt` asks for room. -/
lemma trackedFull_eq_false {K : ℕ} (hK : K ≠ 0) {g : Inner} (hcfg : g.cfg.maxTrackedIps = K)
    (k : IpAddr) : g.trackedFull k = false ↔ HasRoom K g k := by
  rw [Inner.trackedFull, capped, HasRoom, tracked, hcfg]
  by_cases hk : k ∈ g.perIp
  · simp [hk]
  · simp [hk, hK]

/-! ### The four operations -/

lemma tracked_countAttempt_le {K : ℕ} {g : Inner} (hg : tracked g ≤ K) {k : IpAddr}
    (hroom : HasRoom K g k) (dest : Str) (now : Instant) :
    tracked (g.countAttempt k dest now).2 ≤ K := by
  have hset (st : IpState) : tracked (g.setRow k st) ≤ K := (tracked_setRow_le_iff hg k st).mpr hroom
  unfold Inner.countAttempt
  dsimp only
  split
  · exact hg
  · split
    · exact hset _
    · split
      · exact hset _
      · exact hset (((g.row k).prune now g.cfg).pushAttempt now dest)

lemma tracked_recordAttempt_le {K : ℕ} (hK : K ≠ 0) {g : Inner} (hcfg : g.cfg.maxTrackedIps = K)
    (hg : tracked g ≤ K) (ip : IpAddr) (dest : Str) (now : Instant) :
    tracked (g.recordAttempt ip dest now).2 ≤ K := by
  have hcfg1 : ((g.maybeGc now).pruneGlobal now).cfg.maxTrackedIps = K := by
    rwa [pruneGlobal_cfg, maybeGc_cfg]
  have hcfg2 : (((g.maybeGc now).pruneGlobal now).gcIdle now).cfg.maxTrackedIps = K := hcfg1
  have h1 : tracked ((g.maybeGc now).pruneGlobal now) ≤ K := (tracked_maybeGc_le g now).trans hg
  have h2 := (tracked_gcIdle_le ((g.maybeGc now).pruneGlobal now) now).trans h1
  unfold Inner.recordAttempt
  dsimp only
  split
  · split
    · exact h2
    · rename_i hfree
      rw [Bool.not_eq_true, trackedFull_eq_false hK hcfg2] at hfree
      exact tracked_countAttempt_le h2 hfree dest now
  · rename_i hfree
    rw [Bool.not_eq_true, trackedFull_eq_false hK hcfg1] at hfree
    exact tracked_countAttempt_le h1 hfree dest now

/-- Whether `acquire` writes no row, or one for which there is room: the guard that
`record_attempt` has, on the rows that `acquire` finds. -/
def acquireFits (g : Inner) (ip : IpAddr) (now : Instant) : Bool :=
  capped g.cfg.maxGlobalConnections g.globalConnections || !(g.maybeGc now).trackedFull (g.key ip)

lemma acquire_perIp (g : Inner) (ip : IpAddr) (dest : Str) (now : Instant) :
    (capped g.cfg.maxGlobalConnections g.globalConnections = true ∧
      (g.acquire ip dest now).2.perIp = (g.maybeGc now).perIp) ∨
    (capped g.cfg.maxGlobalConnections g.globalConnections = false ∧
      ∃ st, (g.acquire ip dest now).2.perIp = ((g.maybeGc now).setRow (g.key ip) st).perIp) := by
  have hgc := SameLeases.maybeGc g now
  unfold Inner.acquire
  dsimp only
  rw [hgc.cfg, hgc.global]
  split
  · rename_i hfull
    exact .inl ⟨hfull, rfl⟩
  · rename_i hfree
    refine .inr ⟨Bool.not_eq_true _ ▸ hfree, ?_⟩
    split
    · exact ⟨_, rfl⟩
    · split
      · exact ⟨_, rfl⟩
      · exact ⟨_, AList.insert_insert _⟩

lemma tracked_acquire_le_iff {K : ℕ} (hK : K ≠ 0) {g : Inner} (hcfg : g.cfg.maxTrackedIps = K)
    (hg : tracked g ≤ K) (ip : IpAddr) (dest : Str) (now : Instant) :
    tracked (g.acquire ip dest now).2 ≤ K ↔ acquireFits g ip now = true := by
  have hgc : tracked (g.maybeGc now) ≤ K := (tracked_maybeGc_le g now).trans hg
  have hcfg1 : (g.maybeGc now).cfg.maxTrackedIps = K := by rwa [maybeGc_cfg]
  rcases acquire_perIp g ip dest now with ⟨hfull, hrows⟩ | ⟨hfree, st, hrows⟩
  · rw [tracked, hrows, acquireFits, hfull, Bool.true_or]
    exact iff_of_true hgc rfl
  · rw [tracked, hrows, acquireFits, hfree, Bool.false_or, Bool.not_eq_true',
      trackedFull_eq_false hK hcfg1]
    exact tracked_setRow_le_iff hgc (g.key ip) st

lemma tracked_addBytes_le {K : ℕ} {g : Inner} (hg : tracked g ≤ K) {ip : IpAddr} {gcNow : Instant}
    (hrow : g.key ip ∈ (g.maybeGc gcNow).perIp) (n : ℕ) (now : Instant) :
    tracked (g.addBytes ip n gcNow now).2 ≤ K := by
  have hgc : tracked (g.maybeGc gcNow) ≤ K := (tracked_maybeGc_le g gcNow).trans hg
  have hset (st : IpState) : tracked ((g.maybeGc gcNow).setRow (g.key ip) st) ≤ K :=
    (tracked_setRow_le_iff hgc _ st).mpr (.inl hrow)
  unfold Inner.addBytes
  dsimp only
  split
  · exact hg
  · split
    · exact hgc
    · split
      · exact hset _
      · exact hset _

lemma tracked_release_le {K : ℕ} {g : Inner} (hg : tracked g ≤ K) (ip : IpAddr) (dest : Str)
    (now : Instant) : tracked (g.release ip dest now) ≤ K := by
  have hdest (g : Inner) : tracked (g.releaseDest dest) = tracked g := by
    obtain ⟨perDest, h⟩ := releaseDest_frame g dest
    rw [h]
    rfl
  rw [Inner.release, hdest]
  unfold Inner.releaseIp
  dsimp only
  split
  · exact hg
  · rename_i st hst
    split
    · exact (AList.length_keys_erase_le _ _).trans hg
    · apply (tracked_setRow_le_iff (g := { g with globalConnections := g.globalConnections - 1 })
        hg ip _).mpr
      left
      exact AList.lookup_isSome.mp (by rw [hst]; rfl)

/-! ### Runs of the handlers -/

inductive HandlerStep (s : HandlerSystem) (handler : ℕ) : HandlerCall → Call → Prop
  | recordAttempt {ip : IpAddr} {dest : Str} {now : Instant} (h : s.stage handler = .idle) :
      HandlerStep s handler (.recordAttempt ip dest now) (.recordAttempt ip dest now)
  | acquire {ip : IpAddr} {dest : Str} {now : Instant} (h : s.stage handler = .attempted ip dest) :
      HandlerStep s handler (.acquire now) (.acquire handler ip dest now)
  | addBytes {ip : IpAddr} {lease : ConnectionLease} {n : ℕ} {gcNow now : Instant}
      (h : s.stage handler = .holding ip lease) :
      HandlerStep s handler (.addBytes n gcNow now) (.addBytes ip n gcNow now)
  | drop {ip : IpAddr} {lease : ConnectionLease} {now : Instant}
      (h : s.stage handler = .holding ip lease) :
      HandlerStep s handler (.drop now) (.drop ⟨handler, lease⟩ now)

lemma handlerStep_of_call {s : HandlerSystem} {handler : ℕ} {call : HandlerCall} {c : Call}
    (h : (s.stage handler).call handler call = some c) : HandlerStep s handler call c := by
  cases hstage : s.stage handler with
  | idle =>
    rw [hstage] at h
    cases call <;> cases h
    exact .recordAttempt hstage
  | attempted ip dest =>
    rw [hstage] at h
    cases call <;> cases h
    exact .acquire hstage
  | holding ip lease =>
    rw [hstage] at h
    cases call <;> cases h
    · exact .addBytes hstage
    · exact .drop hstage
  | finished =>
    rw [hstage] at h
    cases call <;> cases h

lemma handlerSystem_step_cases {s s' : HandlerSystem} {handler : ℕ} {call : HandlerCall} {r : Reply}
    (hs : s.step (handler, call) = some (r, s')) :
    ∃ c, HandlerStep s handler call c ∧ s.system.step c = some (r, s'.system) ∧
      s'.stage = Function.update s.stage handler ((s.stage handler).after call r) := by
  obtain ⟨c, hcall, hmap⟩ := Option.bind_eq_some_iff.mp hs
  obtain ⟨⟨r', system⟩, hstep, heq⟩ := Option.map_eq_some_iff.mp hmap
  cases heq
  exact ⟨c, handlerStep_of_call hcall, hstep, rfl⟩

/-- A handler comes to hold a lease by `acquire`, and holds it across its charges. -/
lemma after_eq_holding {stage : Stage} {call : HandlerCall} {r : Reply} {ip : IpAddr}
    {lease : ConnectionLease} (h : stage.after call r = .holding ip lease) :
    (∃ dest now, stage = .attempted ip dest ∧ call = .acquire now ∧ r = .lease (.ok lease)) ∨
    (∃ n gcNow now, stage = .holding ip lease ∧ call = .addBytes n gcNow now) := by
  unfold Stage.after at h
  split at h
  · cases h
  · cases h
    exact .inl ⟨_, _, rfl, rfl, rfl⟩
  · cases h
    exact .inr ⟨_, _, _, rfl, rfl⟩
  · cases h

/-- The counters are exact, and every handler that holds a lease holds a live one, on the key of
its address. -/
structure HandlerLedger (cfg : LimitsConfig) (s : HandlerSystem) : Prop where
  ledger : LeaseLedger cfg s.system
  live : ∀ handler ip lease, s.stage handler = .holding ip lease →
    ⟨handler, lease⟩ ∈ s.system.live ∧ lease.ip = limitKey ip cfg.ipv4Prefix cfg.ipv6Prefix

namespace HandlerLedger

variable {cfg : LimitsConfig} {s s' : HandlerSystem}

lemma start (cfg : LimitsConfig) (t₀ : Instant) : HandlerLedger cfg (HandlerSystem.start cfg t₀) where
  ledger := LeaseLedger.start cfg t₀
  live _ _ _ h := by cases h

lemma live_other {handler other : ℕ} {call : HandlerCall} {c : Call} {r : Reply}
    {lease : ConnectionLease} (hcall : HandlerStep s handler call c)
    (hstep : s.system.step c = some (r, s'.system)) (hne : other ≠ handler)
    (hmem : ⟨other, lease⟩ ∈ s.system.live) : ⟨other, lease⟩ ∈ s'.system.live := by
  rcases limitSystem_step_cases hstep with ⟨ip, dest, now, -, -, -, hs'⟩ |
    ⟨holder, ip, dest, now, -, -, -, hs'⟩ | ⟨ip, n, gcNow, now, -, -, -, -, hs'⟩ |
    ⟨held, now, hc, -, -, -, hs'⟩ <;> rw [hs']
  · exact hmem
  · exact List.mem_append_left _ hmem
  · exact hmem
  · rw [hc] at hcall
    cases hcall with
    | drop h =>
      refine (List.mem_erase_of_ne ?_).mpr hmem
      intro heq
      exact hne (HeldLease.mk.inj heq).1

lemma live_self (h : HandlerLedger cfg s) {handler : ℕ} {call : HandlerCall} {c : Call} {r : Reply}
    {ip : IpAddr} {lease : ConnectionLease} (hcall : HandlerStep s handler call c)
    (hstep : s.system.step c = some (r, s'.system))
    (hafter : (s.stage handler).after call r = .holding ip lease) :
    ⟨handler, lease⟩ ∈ s'.system.live ∧ lease.ip = limitKey ip cfg.ipv4Prefix cfg.ipv6Prefix := by
  rcases after_eq_holding hafter with ⟨dest, now, hstage, rfl, rfl⟩ |
    ⟨n, gcNow, now, hstage, rfl⟩
  · cases hcall with
    | acquire hattempted =>
      cases hattempted.symm.trans hstage
      rcases limitSystem_step_cases hstep with ⟨_, _, _, hc, -⟩ | ⟨_, _, _, _, hc, -, hr, hs'⟩ |
        ⟨_, _, _, _, hc, -⟩ | ⟨_, _, hc, -⟩ <;> cases hc
      have hok := (Reply.lease.inj hr).symm
      rw [hs', hok]
      refine ⟨List.mem_append_right _ (List.mem_singleton.mpr rfl), ?_⟩
      rw [acquire_lease_ip hok, Inner.key, h.ledger.cfg_eq]
  · obtain ⟨hmem, hkey⟩ := h.live handler ip lease hstage
    cases hcall with
    | addBytes _ =>
      rcases limitSystem_step_cases hstep with ⟨_, _, _, hc, -⟩ | ⟨_, _, _, _, hc, -⟩ |
        ⟨_, _, _, _, hc, -, -, -, hs'⟩ | ⟨_, _, hc, -⟩ <;> cases hc
      rw [hs']
      exact ⟨hmem, hkey⟩

lemma step (h : HandlerLedger cfg s) {i : ℕ × HandlerCall} {r : Reply}
    (hs : s.step i = some (r, s')) : HandlerLedger cfg s' := by
  obtain ⟨handler, call⟩ := i
  obtain ⟨c, hcall, hstep, hstage⟩ := handlerSystem_step_cases hs
  refine ⟨h.ledger.step hstep, ?_⟩
  intro other ip lease hother
  rw [hstage] at hother
  by_cases hne : other = handler
  · rw [hne, Function.update_self] at hother
    rw [hne]
    exact h.live_self hcall hstep hother
  · rw [Function.update_of_ne hne] at hother
    obtain ⟨hmem, hkey⟩ := h.live other ip lease hother
    exact ⟨live_other hcall hstep hne hmem, hkey⟩

/-- The row that a byte charge goes to is there, also after garbage collection. -/
lemma charged_row (h : HandlerLedger cfg s) {handler : ℕ} {ip : IpAddr} {lease : ConnectionLease}
    (hstage : s.stage handler = .holding ip lease) (gcNow : Instant) :
    s.system.limits.key ip ∈ (s.system.limits.maybeGc gcNow).perIp := by
  obtain ⟨hmem, hkey⟩ := h.live handler ip lease hstage
  have hgc := h.ledger.of_sameLeases (SameLeases.maybeGc s.system.limits gcNow) gcNow
  rw [Inner.key, h.ledger.cfg_eq, ← hkey]
  exact hgc.mem_perIp hmem

end HandlerLedger

/-- Whether the next call of a handler leaves room, if it is an `acquire`. -/
def callFits (s : HandlerSystem) : ℕ × HandlerCall → Bool
  | (handler, .acquire now) =>
    match s.stage handler with
    | .attempted ip _ => acquireFits s.system.limits ip now
    | _ => true
  | _ => true

/-- From a state within the cap, exactly the calls that fit lead to a state within it. -/
lemma tracked_step_le_iff {cfg : LimitsConfig} (hK : cfg.maxTrackedIps ≠ 0) {s s' : HandlerSystem}
    (h : HandlerLedger cfg s) (hs : tracked s.system.limits ≤ cfg.maxTrackedIps)
    {i : ℕ × HandlerCall} {r : Reply} (hstep : s.step i = some (r, s')) :
    tracked s'.system.limits ≤ cfg.maxTrackedIps ↔ callFits s i = true := by
  obtain ⟨handler, call⟩ := i
  obtain ⟨c, hcall, hlimits, -⟩ := handlerSystem_step_cases hstep
  have hcfg : s.system.limits.cfg.maxTrackedIps = cfg.maxTrackedIps := by rw [h.ledger.cfg_eq]
  rcases limitSystem_step_cases hlimits with ⟨ip, dest, now, rfl, -, -, hs'⟩ |
    ⟨holder, ip, dest, now, rfl, -, -, hs'⟩ | ⟨ip, n, gcNow, now, rfl, -, -, -, hs'⟩ |
    ⟨held, now, rfl, -, -, -, hs'⟩ <;> rw [hs'] <;> cases hcall
  · exact iff_of_true (tracked_recordAttempt_le hK hcfg hs ip dest now) rfl
  · rename_i hstage
    rw [callFits, hstage]
    exact tracked_acquire_le_iff hK hcfg hs ip dest now
  · rename_i hstage
    exact iff_of_true (tracked_addBytes_le hs (h.charged_row hstage gcNow) n now) rfl
  · exact iff_of_true (tracked_release_le hs _ _ now) rfl

lemma tracked_of_runs {cfg : LimitsConfig} (hK : cfg.maxTrackedIps ≠ 0) {t₀ : Instant}
    {trace : List ((ℕ × HandlerCall) × Reply)} {s : HandlerSystem}
    (hrun : Runs (guarded callFits HandlerSystem.step) (HandlerSystem.start cfg t₀) trace s) :
    HandlerLedger cfg s ∧ tracked s.system.limits ≤ cfg.maxTrackedIps := by
  refine hrun.state_invariant
    (P := fun s => HandlerLedger cfg s ∧ tracked s.system.limits ≤ cfg.maxTrackedIps)
    ⟨HandlerLedger.start cfg t₀, Nat.zero_le _⟩ ?_
  intro s i r s' ⟨hledger, hle⟩ hs
  obtain ⟨hfits, hstep⟩ := guarded_some hs
  exact ⟨hledger.step hstep, (tracked_step_le_iff hK hledger hle hstep).mpr hfits⟩

/-- In every run whose calls of `acquire` fit, at most `max_tracked_ips` rows are tracked in every
state reached, and the first call of `acquire` that does not fit exceeds them. -/
theorem tracked_prefixes_bounded_iff (cfg : LimitsConfig) (hK : cfg.maxTrackedIps ≠ 0) (t₀ : Instant)
    (trace : List ((ℕ × HandlerCall) × Reply)) (s : HandlerSystem)
    (hrun : Runs (guarded callFits HandlerSystem.step) (HandlerSystem.start cfg t₀) trace s) :
    s.system.limits.perIp.keys.length ≤ cfg.maxTrackedIps ∧
    ∀ i r s', s.step i = some (r, s') →
      (s'.system.limits.perIp.keys.length ≤ cfg.maxTrackedIps ↔ callFits s i = true) := by
  obtain ⟨hledger, hle⟩ := tracked_of_runs hK hrun
  refine ⟨hle, ?_⟩
  intro i r s' hstep
  exact tracked_step_le_iff hK hledger hle hstep

/-- One handler from its attempt to the end of its lease, with room for one row. -/
theorem tracked_prefixes_bounded_iff_session :
    ∃ trace s, Runs (guarded callFits HandlerSystem.step)
        (HandlerSystem.start { maxTrackedIps := 1 } 0) trace s ∧
      trace.length = 4 ∧ s.system.limits.perIp.keys.length ≤ 1 := by
  have hrun : Runs (guarded callFits HandlerSystem.step)
      (HandlerSystem.start { maxTrackedIps := 1 } 0) _ _ :=
    Runs.of_inputs [(0, .recordAttempt (.v4 (.new 203 0 113 1)) "a:993".toList 1), (0, .acquire 2),
      (0, .addBytes 100 3 3), (0, .drop 4)] rfl
  exact ⟨_, _, hrun, rfl, (tracked_prefixes_bounded_iff _ (by decide) 0 _ _ hrun).1⟩

/-- With room for one row, the attempt of a second client drops the row of a first one that takes
more than a minute to connect, and the lease of the first one brings it back. -/
theorem late_acquire_exceeds_cap :
    ¬∀ cfg : LimitsConfig, cfg.maxTrackedIps ≠ 0 → ∀ t₀ trace s, HandlerRuns cfg t₀ trace s →
      s.system.limits.perIp.keys.length ≤ cfg.maxTrackedIps := by
  intro h
  have hrun : HandlerRuns { maxTrackedIps := 1 } 0 _ _ :=
    Runs.of_inputs [(0, .recordAttempt (.v4 (.new 203 0 113 1)) "a:993".toList 0),
      (1, .recordAttempt (.v4 (.new 203 0 113 2)) "b:993".toList (fromSecs 61)),
      (0, .acquire (fromSecs 61))] rfl
  exact absurd (h _ (by decide) 0 _ _ hrun) (by decide)

end WsTcpProxy.Proofs
