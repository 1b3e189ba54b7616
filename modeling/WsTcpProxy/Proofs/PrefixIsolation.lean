import WsTcpProxy.Proofs.ReferenceRefinement

/-!
# Isolation of client prefixes

What one client prefix gets from the limiter does not depend on the others, except through the
caps that all of them share.
-/

namespace WsTcpProxy

/-- The configuration with its shared caps switched off. -/
def LimitsConfig.perPrefix (cfg : LimitsConfig) : LimitsConfig :=
  { cfg with
    maxGlobalConnections := 0
    maxConnsPerDest := 0
    globalConnects := 0
    maxTrackedIps := 0 }

/-- The limit key that a call is about. -/
def Call.limitKey (cfg : LimitsConfig) : Call → IpAddr
  | .recordAttempt ip _ _ => WsTcpProxy.limitKey ip cfg.ipv4Prefix cfg.ipv6Prefix
  | .acquire _ ip _ _ => WsTcpProxy.limitKey ip cfg.ipv4Prefix cfg.ipv6Prefix
  | .addBytes ip _ _ _ => WsTcpProxy.limitKey ip cfg.ipv4Prefix cfg.ipv6Prefix
  | .drop held _ => held.lease.ip

/-- A refusal for a cap that all prefixes share. -/
def Reply.isShared : Reply → Bool
  | .attempt (.error .globalConnectRate) => true
  | .lease (.error .globalFull) => true
  | .lease (.error .perDestFull) => true
  | _ => false

/-- A call about `k` that no shared cap turned away. -/
def ownCall (cfg : LimitsConfig) (k : IpAddr) (e : Call × Reply) : Bool :=
  e.1.limitKey cfg = k && !e.2.isShared

end WsTcpProxy

namespace WsTcpProxy.Proofs
open Library

/-! ### Histories -/

section Histories

variable (cfg : LimitsConfig) (k : IpAddr)

/-- Dropping elements whose images are filtered out changes nothing. -/
lemma filter_filterMap_filter {α β : Type} {keep : α → Bool} {p : β → Bool} {f : α → Option β}
    (h : ∀ a b, f a = some b → p b = true → keep a = true) (l : List α) :
    ((l.filter keep).filterMap f).filter p = (l.filterMap f).filter p := by
  induction l with
  | nil => rfl
  | cons a l ih =>
    by_cases hkeep : keep a = true
    · rw [List.filter_cons_of_pos hkeep, List.filterMap_cons, List.filterMap_cons]
      cases f a with
      | none => exact ih
      | some b => rw [List.filter_cons, List.filter_cons, ih]
    · rw [List.filter_cons_of_neg hkeep, ih, List.filterMap_cons]
      cases hf : f a with
      | none => rfl
      | some b => rw [List.filter_cons_of_neg fun hp => hkeep (h a b hf hp)]

lemma attemptsOf_ownCall (trace : List (Call × Reply)) :
    (ledgerOf cfg.perPrefix (trace.filter (ownCall cfg k))).attemptsOf k =
      (ledgerOf cfg trace).attemptsOf k := by
  apply filter_filterMap_filter
  intro e a hattempt hkey
  split at hattempt
  · cases hattempt
    rw [ownCall, Bool.and_eq_true]
    exact ⟨hkey, rfl⟩
  · cases hattempt

lemma chargesOf_ownCall (trace : List (Call × Reply)) :
    (ledgerOf cfg.perPrefix (trace.filter (ownCall cfg k))).chargesOf k =
      (ledgerOf cfg trace).chargesOf k := by
  apply filter_filterMap_filter
  intro e c hcharge hkey
  split at hcharge
  · cases hcharge
    rw [ownCall, Bool.and_eq_true]
    exact ⟨hkey, rfl⟩
  · cases hcharge

end Histories

/-! ### Decisions -/

section Decisions

variable {cfg : LimitsConfig} {k : IpAddr} {l l' : ReferenceLedger}

lemma capped_zero (used : Nat) : capped 0 used = false := by
  simp [capped]

lemma decideAttempt_perPrefix (hsame : l'.attemptsOf k = l.attemptsOf k) (dest : Str) (now : Instant)
    (hshared : l.decideAttempt cfg k dest now ≠ .error .globalConnectRate) :
    l'.decideAttempt cfg.perPrefix k dest now = l.decideAttempt cfg k dest now := by
  unfold ReferenceLedger.decideAttempt at hshared ⊢
  dsimp only at hshared ⊢
  rw [hsame]
  split at hshared
  · exact absurd rfl hshared
  · rename_i hglobal
    rw [if_neg hglobal, if_neg (by simp [capped, LimitsConfig.perPrefix])]
    rfl

lemma decideCharge_perPrefix (hsame : l'.chargesOf k = l.chargesOf k) (n : Nat) (now : Instant) :
    l'.decideCharge cfg.perPrefix k n now = l.decideCharge cfg k n now := by
  unfold ReferenceLedger.decideCharge
  rw [hsame]
  rfl

lemma decideAcquire_perPrefix (hsame : leasesOf l'.live k = leasesOf l.live k) (dest : Str)
    (hglobal : l.decideAcquire cfg k dest ≠ .error .globalFull)
    (hdest : l.decideAcquire cfg k dest ≠ .error .perDestFull) :
    l'.decideAcquire cfg.perPrefix k dest = l.decideAcquire cfg k dest := by
  have hown : l'.decideAcquire cfg.perPrefix k dest =
      if capped cfg.maxConnsPerIp (leasesOf l.live k) then .error .perIpFull else .ok ⟨k, dest⟩ := by
    simp only [ReferenceLedger.decideAcquire, hsame, LimitsConfig.perPrefix, capped_zero,
      Bool.false_eq_true, if_false]
  rw [hown]
  unfold ReferenceLedger.decideAcquire at hglobal hdest ⊢
  split at hglobal
  · exact absurd rfl hglobal
  · rename_i hfree
    rw [if_neg hfree] at hdest ⊢
    split
    · rfl
    · rename_i hperIp
      rw [if_neg hperIp] at hdest
      split at hdest
      · exact absurd rfl hdest
      · rename_i hperDest
        rw [if_neg hperDest]

end Decisions

/-! ### Runs -/

section Isolation

variable {cfg : LimitsConfig} {t₀ : Instant} {trace : List (Call × Reply)} {s s' t : LimitSystem}
  {k : IpAddr}

/-- The state of a limiter that serves `k` alone, beside one that serves all. -/
structure OwnState (k : IpAddr) (s t : LimitSystem) : Prop where
  live : t.live = s.live.filter (fun l => l.lease.ip = k)
  clock : t.clock ≤ s.clock

lemma leasesOf_filter (live : List HeldLease) (k : IpAddr) :
    leasesOf (live.filter fun l => l.lease.ip = k) k = leasesOf live k := by
  rw [leasesOf, leasesOf, List.countP_filter]
  apply List.countP_congr
  simp

lemma ownCall_iff {c : Call} {r : Reply} :
    ownCall cfg k (c, r) = true ↔ c.limitKey cfg = k ∧ r.isShared = false := by
  simp [ownCall]

lemma heldBy_filter (holder : Nat) {r : Except LimitError ConnectionLease} {k' : IpAddr}
    (hr : ∀ lease, r = .ok lease → lease.ip = k') :
    (heldBy holder r).filter (fun l => l.lease.ip = k) = if k' = k then heldBy holder r else [] := by
  cases r with
  | error e => simp [heldBy]
  | ok lease => by_cases hk : k' = k <;> simp [heldBy, hr lease rfl, hk]

lemma decideAcquire_ip {l : ReferenceLedger} {dest : Str} {lease : ConnectionLease}
    (h : l.decideAcquire cfg k dest = .ok lease) : lease.ip = k := by
  unfold ReferenceLedger.decideAcquire at h
  split_ifs at h
  cases h
  rfl

section Replies

variable (hrun : LimitRuns cfg t₀ trace s)
  (hown : LimitRuns cfg.perPrefix t₀ (trace.filter (ownCall cfg k)) t) (hR : OwnState k s t)
include hrun hown hR

lemma own_recordAttempt {ip : IpAddr} {dest : Str} {now : Instant} (hle : s.clock ≤ now)
    (hkeep : ownCall cfg k (.recordAttempt ip dest now, .attempt (s.limits.recordAttempt ip dest now).1)) :
    (t.limits.recordAttempt ip dest now).1 = (s.limits.recordAttempt ip dest now).1 := by
  have hw := (WindowInvariant.of_runs hrun).represents
  have hw' := (WindowInvariant.of_runs hown).represents
  obtain ⟨hk, hshared⟩ := ownCall_iff.mp hkeep
  have hkey : s.limits.key ip = k := by rw [Inner.key, hw.cfg_eq]; exact hk
  have hkey' : t.limits.key ip = k := by rw [Inner.key, hw'.cfg_eq]; exact hk
  obtain ⟨hcap, -⟩ | ⟨hdec', -⟩ := hw'.recordAttempt (hR.clock.trans hle) ip dest
  · exact absurd rfl hcap
  obtain ⟨-, hrefused, -⟩ | ⟨hdec, -⟩ := hw.recordAttempt hle ip dest
  · rw [hrefused] at hshared
    cases hshared
  rw [hdec, hkey] at hshared ⊢
  rw [hdec', hkey']
  apply decideAttempt_perPrefix (attemptsOf_ownCall cfg k trace)
  intro hrefused
  rw [hrefused] at hshared
  cases hshared

lemma own_acquire {holder : Nat} {ip : IpAddr} {dest : Str} {now : Instant}
    (hkeep : ownCall cfg k (.acquire holder ip dest now, .lease (s.limits.acquire ip dest now).1)) :
    (t.limits.acquire ip dest now).1 = (s.limits.acquire ip dest now).1 := by
  obtain ⟨hk, hshared⟩ := ownCall_iff.mp hkeep
  replace hk : limitKey ip cfg.ipv4Prefix cfg.ipv6Prefix = k := hk
  have hdec := (LeaseLedger.of_runs hrun).decideAcquire { live := s.live } rfl ip dest now
  have hdec' : (t.limits.acquire ip dest now).1 = ReferenceLedger.decideAcquire cfg.perPrefix
      { live := t.live } (limitKey ip cfg.ipv4Prefix cfg.ipv6Prefix) dest :=
    (LeaseLedger.of_runs hown).decideAcquire { live := t.live } rfl ip dest now
  rw [hdec, hk] at hshared ⊢
  rw [hdec', hk]
  apply decideAcquire_perPrefix
  · change leasesOf t.live k = leasesOf s.live k
    rw [hR.live, leasesOf_filter]
  · intro hrefused
    rw [hrefused] at hshared
    cases hshared
  · intro hrefused
    rw [hrefused] at hshared
    cases hshared

lemma own_addBytes {ip : IpAddr} {n : Nat} {gcNow now : Instant} (hgc : s.clock ≤ gcNow)
    (hle : gcNow ≤ now)
    (hkeep : ownCall cfg k (.addBytes ip n gcNow now, .bytes (s.limits.addBytes ip n gcNow now).1)) :
    (t.limits.addBytes ip n gcNow now).1 = (s.limits.addBytes ip n gcNow now).1 := by
  have hw := (WindowInvariant.of_runs hrun).represents
  have hw' := (WindowInvariant.of_runs hown).represents
  obtain ⟨hk, -⟩ := ownCall_iff.mp hkeep
  have hkey : s.limits.key ip = k := by rw [Inner.key, hw.cfg_eq]; exact hk
  have hkey' : t.limits.key ip = k := by rw [Inner.key, hw'.cfg_eq]; exact hk
  obtain ⟨hdec, -⟩ := hw.addBytes hgc hle ip n
  obtain ⟨hdec', -⟩ := hw'.addBytes (hR.clock.trans hgc) hle ip n
  rw [hdec, hdec', hkey, hkey']
  exact decideCharge_perPrefix (chargesOf_ownCall cfg k trace) n now

end Replies

/-- A call of `k` that no shared cap turned away is answered in the same way by a limiter that
serves `k` alone; the other calls leave its state as it is. -/
lemma own_step (hrun : LimitRuns cfg t₀ trace s)
    (hown : LimitRuns cfg.perPrefix t₀ (trace.filter (ownCall cfg k)) t) (hR : OwnState k s t)
    {c : Call} {r : Reply} (hs : s.step c = some (r, s')) :
    if ownCall cfg k (c, r) then ∃ t', t.step c = some (r, t') ∧ OwnState k s' t'
    else OwnState k s' t := by
  rcases limitSystem_step_cases hs with ⟨ip, dest, now, rfl, hle, rfl, rfl⟩ |
    ⟨holder, ip, dest, now, rfl, hle, rfl, rfl⟩ | ⟨ip, n, gcNow, now, rfl, hgc, hle, rfl, rfl⟩ |
    ⟨held, now, rfl, hle, hmem, rfl, rfl⟩
  · split
    · rename_i hkeep
      refine ⟨{ t with limits := (t.limits.recordAttempt ip dest now).2, clock := now }, ?_, hR.live,
        le_refl now⟩
      rw [LimitSystem.step, if_pos (hR.clock.trans hle), ← own_recordAttempt hrun hown hR hle hkeep]
    · exact ⟨hR.live, hR.clock.trans hle⟩
  · have hip : ∀ lease, (s.limits.acquire ip dest now).1 = .ok lease →
        lease.ip = limitKey ip cfg.ipv4Prefix cfg.ipv6Prefix := by
      intro lease hok
      rw [(LeaseLedger.of_runs hrun).decideAcquire { live := s.live } rfl ip dest now] at hok
      exact decideAcquire_ip hok
    have hheld := heldBy_filter (k := k) holder hip
    split
    · rename_i hkeep
      have hreply := own_acquire hrun hown hR hkeep
      refine ⟨{ limits := (t.limits.acquire ip dest now).2
                live := t.live ++ heldBy holder (t.limits.acquire ip dest now).1
                clock := now }, ?_, ?_, le_refl now⟩
      · rw [LimitSystem.step, if_pos (hR.clock.trans hle), ← hreply]
      · change t.live ++ _ = (s.live ++ _).filter _
        have hk : limitKey ip cfg.ipv4Prefix cfg.ipv6Prefix = k := (ownCall_iff.mp hkeep).1
        rw [List.filter_append, hheld, if_pos hk, hR.live, hreply]
    · rename_i hkeep
      refine ⟨?_, hR.clock.trans hle⟩
      change t.live = (s.live ++ _).filter _
      rw [List.filter_append, hheld, ← hR.live]
      split
      · rename_i hk
        cases hr : (s.limits.acquire ip dest now).1 with
        | error e => exact (List.append_nil _).symm
        | ok lease =>
          rw [hr] at hkeep
          exact (hkeep (ownCall_iff.mpr ⟨hk, rfl⟩)).elim
      · exact (List.append_nil _).symm
  · split
    · rename_i hkeep
      refine ⟨{ t with limits := (t.limits.addBytes ip n gcNow now).2, clock := now }, ?_, hR.live,
        le_refl now⟩
      rw [LimitSystem.step, if_pos ⟨hR.clock.trans hgc, hle⟩, ← own_addBytes hrun hown hR hgc hle hkeep]
    · exact ⟨hR.live, hR.clock.trans (hgc.trans hle)⟩
  · split
    · rename_i hkeep
      have hheld : held ∈ t.live := by
        rw [hR.live]
        exact List.mem_filter.mpr ⟨hmem, decide_eq_true (ownCall_iff.mp hkeep).1⟩
      refine ⟨{ limits := t.limits.release held.lease.ip held.lease.dest now
                live := t.live.erase held
                clock := now }, ?_, ?_, le_refl now⟩
      · rw [LimitSystem.step, if_pos ⟨hR.clock.trans hle, hheld⟩]
      · change t.live.erase held = (s.live.erase held).filter _
        rw [hR.live, List.erase_filter]
    · rename_i hkeep
      have hheld : held ∉ t.live := by
        rw [hR.live, List.mem_filter]
        rintro ⟨-, hk⟩
        exact hkeep (ownCall_iff.mpr ⟨of_decide_eq_true hk, rfl⟩)
      refine ⟨?_, hR.clock.trans hle⟩
      change t.live = (s.live.erase held).filter _
      rw [← List.erase_filter, ← hR.live, List.erase_of_not_mem hheld]

/-- In every run, the calls of one client prefix that no shared cap turned away, with the replies
they got, form a run of a limiter that serves this prefix alone and has no shared cap. -/
theorem prefix_isolated (cfg : LimitsConfig) (t₀ : Instant) (trace : List (Call × Reply))
    (s : LimitSystem) (hrun : LimitRuns cfg t₀ trace s) (k : IpAddr) :
    ∃ t, LimitRuns cfg.perPrefix t₀ (trace.filter (ownCall cfg k)) t ∧
      t.live = s.live.filter (fun l => l.lease.ip = k) := by
  have h0 : OwnState k (LimitSystem.start cfg t₀) (LimitSystem.start cfg.perPrefix t₀) := ⟨rfl, le_rfl⟩
  obtain ⟨t, hown, hR⟩ := hrun.thinned (ownCall cfg k) h0
    fun _ _ _ _ _ _ hrun hown hR hs => own_step hrun hown hR hs
  exact ⟨t, hown, hR.live⟩

theorem prefix_isolated_flooded :
    ∃ (trace : List (Call × Reply)) (s t : LimitSystem),
      LimitRuns { LimitsConfig.unlimited with globalConnects := 2, globalConnectsWindow := 50 } 0 trace s ∧
      trace.length = 4 ∧
      LimitRuns (LimitsConfig.perPrefix
        { LimitsConfig.unlimited with globalConnects := 2, globalConnectsWindow := 50 }) 0
        [(.recordAttempt (.v4 (Ipv4Addr.new 203 0 113 1)) "a:993".toList 5, .attempt (.ok ()))] t := by
  let client : IpAddr := .v4 (Ipv4Addr.new 203 0 113 1)
  let other : IpAddr := .v4 (Ipv4Addr.new 203 0 113 2)
  have hrun : LimitRuns { LimitsConfig.unlimited with globalConnects := 2, globalConnectsWindow := 50 }
      0 _ _ :=
    .of_inputs [.recordAttempt client "a:993".toList 5, .recordAttempt other "a:993".toList 6,
      .recordAttempt client "a:993".toList 7, .recordAttempt other "a:993".toList 8] rfl
  obtain ⟨t, hown, -⟩ := prefix_isolated _ _ _ _ hrun client
  exact ⟨_, _, t, hrun, rfl, hown⟩

end Isolation

end WsTcpProxy.Proofs
