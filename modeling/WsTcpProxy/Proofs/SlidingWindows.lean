import WsTcpProxy.Proofs.WindowHistory

/-!
# Sliding windows

The rate caps bound every window of their length, not only those that end at a check. Each
success was admitted while the window ending at it was within the cap, and the last success
inside any other window bounds that window.
-/

namespace WsTcpProxy.Proofs
open Library

/-- The ledger that a trace of the limiter writes. -/
def ledgerOf (cfg : LimitsConfig) (trace : List (Call × Reply)) : ReferenceLedger where
  attempts := successfulAttempts cfg trace
  charges := acceptedCharges cfg trace

section LedgerOf

variable (cfg : LimitsConfig) (trace : List (Call × Reply))

lemma successfulAttempts_concat (x : Call × Reply) :
    successfulAttempts cfg (trace ++ [x]) =
      successfulAttempts cfg trace ++ successfulAttempts cfg [x] :=
  List.filterMap_append

lemma acceptedCharges_concat (x : Call × Reply) :
    acceptedCharges cfg (trace ++ [x]) = acceptedCharges cfg trace ++ acceptedCharges cfg [x] :=
  List.filterMap_append

lemma ledgerOf_unchanged {x : Call × Reply} (ha : successfulAttempts cfg [x] = [])
    (hc : acceptedCharges cfg [x] = []) : ledgerOf cfg (trace ++ [x]) = ledgerOf cfg trace := by
  rw [ledgerOf, successfulAttempts_concat, acceptedCharges_concat, ha, hc, List.append_nil,
    List.append_nil]
  rfl

lemma ledgerOf_recordAttempt (ip : IpAddr) (dest : Str) (now : Instant) (r : Except LimitError Unit) :
    ledgerOf cfg (trace ++ [(.recordAttempt ip dest now, .attempt r)]) =
      (ledgerOf cfg trace).addAttempt ⟨now, limitKey ip cfg.ipv4Prefix cfg.ipv6Prefix, dest⟩ r := by
  cases r with
  | error e => exact ledgerOf_unchanged cfg trace rfl rfl
  | ok _ =>
    rw [ledgerOf, successfulAttempts_concat, acceptedCharges_concat]
    congr 1
    exact List.append_nil _

lemma ledgerOf_addBytes (ip : IpAddr) (n : Nat) (gcNow now : Instant) (r : Except LimitError Unit) :
    ledgerOf cfg (trace ++ [(.addBytes ip n gcNow now, .bytes r)]) =
      (ledgerOf cfg trace).addCharge ⟨now, limitKey ip cfg.ipv4Prefix cfg.ipv6Prefix, n⟩ r := by
  cases r with
  | error e => exact ledgerOf_unchanged cfg trace rfl rfl
  | ok _ =>
    rw [ledgerOf, successfulAttempts_concat, acceptedCharges_concat]
    congr 1
    exact List.append_nil _

lemma ledgerOf_acquire (holder : Nat) (ip : IpAddr) (dest : Str) (now : Instant) (r : Reply) :
    ledgerOf cfg (trace ++ [(.acquire holder ip dest now, r)]) = ledgerOf cfg trace :=
  ledgerOf_unchanged cfg trace rfl rfl

lemma ledgerOf_drop (held : HeldLease) (now : Instant) (r : Reply) :
    ledgerOf cfg (trace ++ [(.drop held now, r)]) = ledgerOf cfg trace :=
  ledgerOf_unchanged cfg trace rfl rfl

end LedgerOf

def distinctDests (as : List Attempt) : Nat := (as.map Attempt.dest).dedup.length

def cappedTotal (cs : List Charge) : Nat := min (cs.map Charge.bytes).sum u64Max

lemma distinctDests_mono (l l' : List Attempt) (h : l.Sublist l') :
    distinctDests l ≤ distinctDests l' := by
  have hsub : (l.map Attempt.dest).dedup ⊆ (l'.map Attempt.dest).dedup := by
    intro d hd
    rw [List.mem_dedup] at hd ⊢
    exact (h.map _).subset hd
  exact (List.subperm_of_subset (List.nodup_dedup _) hsub).length_le

lemma cappedTotal_mono (l l' : List Charge) (h : l.Sublist l') : cappedTotal l ≤ cappedTotal l' := by
  have hsum : (l.map Charge.bytes).sum ≤ (l'.map Charge.bytes).sum :=
    (h.map Charge.bytes).sum_le_sum (fun _ _ => Nat.zero_le _)
  unfold cappedTotal
  omega

/-- What the checks of the limiter establish about the ledger of a run. -/
structure WindowsAdmitted (cfg : LimitsConfig) (clock : Instant) (l : ReferenceLedger) : Prop where
  past : ∀ a ∈ l.attempts, a.time ≤ clock
  pastCharges : ∀ c ∈ l.charges, c.time ≤ clock
  global : cfg.globalConnects ≠ 0 →
    Admitted Attempt.time cfg.globalConnectsWindow List.length cfg.globalConnects l.attempts
  connects : ∀ k, cfg.connectsPerIp ≠ 0 →
    Admitted Attempt.time cfg.connectsPerIpWindow List.length cfg.connectsPerIp (l.attemptsOf k)
  dests : ∀ k, cfg.distinctDestsPerIp ≠ 0 →
    Admitted Attempt.time cfg.distinctDestsWindow distinctDests cfg.distinctDestsPerIp (l.attemptsOf k)
  bytes : ∀ k, cfg.maxBytesPerIp ≠ 0 →
    Admitted Charge.time cfg.bytesWindow cappedTotal cfg.maxBytesPerIp (l.chargesOf k)

namespace WindowsAdmitted

variable {cfg : LimitsConfig} {clock now : Instant} {l : ReferenceLedger}

lemma later (h : WindowsAdmitted cfg clock l) (hle : clock ≤ now) : WindowsAdmitted cfg now l :=
  ⟨fun a ha => (h.past a ha).trans hle, fun c hc => (h.pastCharges c hc).trans hle, h.global,
    h.connects, h.dests, h.bytes⟩

lemma concat_length {as : List Attempt} {window cap : Nat} (a : Attempt)
    (hadm : Admitted Attempt.time window List.length cap as) (h0 : cap ≠ 0)
    (hcap : capped cap (recent Attempt.time a.time window as).length = false) :
    Admitted Attempt.time window List.length cap (as ++ [a]) := by
  apply hadm.concat
  have hlt := lt_of_not_capped hcap h0
  rw [recent_append, recent_singleton_self, List.length_append, List.length_singleton]
  omega

/-- One more destination: it is among the recent ones, which form a window of their own, or
there was room for a new one. -/
lemma concat_distinctDests {as : List Attempt} {window cap : Nat} (a : Attempt)
    (hadm : Admitted Attempt.time window distinctDests cap as)
    (hpast : ∀ x ∈ as, x.time ≤ a.time)
    (hcap : a.dest ∈ ((recent Attempt.time a.time window as).map Attempt.dest).dedup ∨
      ((recent Attempt.time a.time window as).map Attempt.dest).dedup.length < cap) :
    Admitted Attempt.time window distinctDests cap (as ++ [a]) := by
  apply hadm.concat
  have hrecent : distinctDests (recent Attempt.time a.time window as) ≤ cap :=
    (distinctDests_mono _ _ (recent_sublist_inWindow Attempt.time hpast)).trans
      (hadm.inWindow_le (by simp [distinctDests]) distinctDests_mono _)
  rw [recent_append, recent_singleton_self]
  unfold distinctDests at hrecent ⊢
  rw [List.map_append]
  generalize (recent Attempt.time a.time window as).map Attempt.dest = ds at hcap hrecent ⊢
  have hsub : (ds ++ [a].map Attempt.dest).dedup ⊆ a.dest :: ds.dedup := by
    intro d hd
    simp only [List.mem_dedup, List.mem_append, List.map_cons, List.map_nil, List.mem_cons,
      List.not_mem_nil, or_false] at hd ⊢
    tauto
  rcases hcap with hin | hlt
  · have hsub' : (ds ++ [a].map Attempt.dest).dedup ⊆ ds.dedup := by
      intro d hd
      rcases List.mem_cons.mp (hsub hd) with rfl | hd
      · exact hin
      · exact hd
    exact (List.subperm_of_subset (List.nodup_dedup _) hsub').length_le.trans hrecent
  · have hle := (List.subperm_of_subset (List.nodup_dedup _) hsub).length_le
    simp only [List.length_cons] at hle
    omega

lemma addAttempt (h : WindowsAdmitted cfg now l) (k : IpAddr) (dest : Str) :
    WindowsAdmitted cfg now
      (l.addAttempt ⟨now, k, dest⟩ (l.decideAttempt cfg k dest now)) := by
  unfold ReferenceLedger.decideAttempt
  dsimp only
  split
  · exact h
  · rename_i hglobal
    split
    · exact h
    · rename_i hconnects
      split
      · exact h
      · rename_i hdests
        refine ⟨?_, h.pastCharges, ?_, ?_, ?_, h.bytes⟩
        · intro a ha
          rcases List.mem_append.mp ha with ha | ha
          · exact h.past a ha
          · rw [List.mem_singleton.mp ha]
        · intro h0
          exact concat_length _ (h.global h0) h0 (by simpa using hglobal)
        · intro k' h0
          rw [ReferenceLedger.addAttempt, attemptsOf_concat]
          split
          · rename_i hk
            dsimp only at hk
            subst hk
            exact concat_length _ (h.connects k h0) h0 (by simpa using hconnects)
          · rw [List.append_nil]
            exact h.connects k' h0
        · intro k' h0
          rw [ReferenceLedger.addAttempt, attemptsOf_concat]
          split
          · rename_i hk
            dsimp only at hk
            subst hk
            refine concat_distinctDests _ (h.dests k h0) ?_ ?_
            · intro a ha
              exact h.past a (List.mem_filter.mp ha).1
            · dsimp only
              by_contra hne
              rw [not_or, not_lt] at hne
              exact hdests ⟨h0, hne⟩
          · rw [List.append_nil]
            exact h.dests k' h0

lemma addCharge (h : WindowsAdmitted cfg now l) (k : IpAddr) (n : Nat) :
    WindowsAdmitted cfg now (l.addCharge ⟨now, k, n⟩ (l.decideCharge cfg k n now)) := by
  unfold ReferenceLedger.decideCharge
  dsimp only
  split
  · exact h
  · rename_i hcap
    refine ⟨h.past, ?_, h.global, h.connects, h.dests, ?_⟩
    · intro c hc
      rcases List.mem_append.mp hc with hc | hc
      · exact h.pastCharges c hc
      · rw [List.mem_singleton.mp hc]
    intro k' h0
    rw [ReferenceLedger.addCharge, chargesOf_concat]
    split
    · rename_i hk
      dsimp only at hk
      subst hk
      apply (h.bytes k h0).concat
      rw [recent_append, recent_singleton_self]
      dsimp only
      have hrecent : cappedTotal (recent Charge.time now cfg.bytesWindow (l.chargesOf k)) ≤
          cfg.maxBytesPerIp := by
        have hpast : ∀ c ∈ l.chargesOf k, c.time ≤ now :=
          fun c hc => h.pastCharges c (List.mem_filter.mp hc).1
        exact (cappedTotal_mono _ _ (recent_sublist_inWindow Charge.time hpast)).trans
          ((h.bytes k h0).inWindow_le (by simp [cappedTotal]) cappedTotal_mono _)
      simp only [cappedTotal, List.map_append, List.sum_append, List.map_cons, List.map_nil,
        List.sum_cons, List.sum_nil] at hrecent ⊢
      by_cases hn : n = 0
      · simpa [hn] using hrecent
      · have hle : ¬ cfg.maxBytesPerIp < min (((recent Charge.time now cfg.bytesWindow
            (l.chargesOf k)).map Charge.bytes).sum + n) u64Max := fun hlt => hcap ⟨h0, hn, hlt⟩
        omega
    · rw [List.append_nil]
      exact h.bytes k' h0

end WindowsAdmitted

/-- The limiter stands for the ledger of the run so far, and that ledger passed every check. -/
structure WindowInvariant (cfg : LimitsConfig) (trace : List (Call × Reply)) (s : LimitSystem) :
    Prop where
  represents : Represents cfg s.limits s.clock (ledgerOf cfg trace)
  admitted : WindowsAdmitted cfg s.clock (ledgerOf cfg trace)

namespace WindowInvariant

variable {cfg : LimitsConfig} {trace : List (Call × Reply)} {s s' : LimitSystem}

lemma start (cfg : LimitsConfig) (t₀ : Instant) :
    WindowInvariant cfg [] (LimitSystem.start cfg t₀) := by
  refine ⟨Represents.new cfg t₀, ?_, ?_, ?_, ?_, ?_, ?_⟩
  · simp [ledgerOf, successfulAttempts]
  · simp [ledgerOf, acceptedCharges]
  · exact fun _ => Admitted.nil
  · exact fun _ _ => Admitted.nil
  · exact fun _ _ => Admitted.nil
  · exact fun _ _ => Admitted.nil

lemma step (h : WindowInvariant cfg trace s) {c : Call} {r : Reply}
    (hs : s.step c = some (r, s')) : WindowInvariant cfg (trace ++ [(c, r)]) s' := by
  have hkey : ∀ ip, s.limits.key ip = limitKey ip cfg.ipv4Prefix cfg.ipv6Prefix := by
    intro ip
    rw [Inner.key, h.represents.cfg_eq]
  rcases limitSystem_step_cases hs with ⟨ip, dest, now, rfl, hle, rfl, rfl⟩ |
    ⟨holder, ip, dest, now, rfl, hle, rfl, rfl⟩ | ⟨ip, n, gcNow, now, rfl, hgc, hle, rfl, rfl⟩ |
    ⟨held, now, rfl, hle, hmem, rfl, rfl⟩
  · have hadm := h.admitted.later hle
    rcases h.represents.recordAttempt hle ip dest with ⟨-, herr, hrep⟩ | ⟨hdec, hrep⟩
    · rw [herr]
      refine ⟨?_, ?_⟩
      · rw [ledgerOf_recordAttempt]
        exact hrep
      · rw [ledgerOf_recordAttempt]
        exact hadm
    · rw [hdec]
      rw [hkey] at hrep ⊢
      refine ⟨?_, ?_⟩
      · rw [ledgerOf_recordAttempt]
        exact hrep
      · rw [ledgerOf_recordAttempt]
        exact hadm.addAttempt _ dest
  · refine ⟨?_, ?_⟩
    · rw [ledgerOf_acquire]
      exact h.represents.acquire hle ip dest
    · rw [ledgerOf_acquire]
      exact h.admitted.later hle
  · obtain ⟨hdec, hrep⟩ := h.represents.addBytes hgc hle ip n
    rw [hdec]
    rw [hkey] at hrep ⊢
    refine ⟨?_, ?_⟩
    · rw [ledgerOf_addBytes]
      exact hrep
    · rw [ledgerOf_addBytes]
      exact (h.admitted.later (hgc.trans hle)).addCharge _ n
  · refine ⟨?_, ?_⟩
    · rw [ledgerOf_drop]
      exact h.represents.release hle held.lease.ip held.lease.dest
    · rw [ledgerOf_drop]
      exact h.admitted.later hle

lemma of_runs {t₀ : Instant} (h : LimitRuns cfg t₀ trace s) : WindowInvariant cfg trace s :=
  h.invariant (start cfg t₀) (fun _ _ _ _ _ hinv hs => hinv.step hs)

end WindowInvariant

/-- In every run, every closed window of the configured length holds at most the capped number
of successful attempts, of attempts per limit key and of distinct destinations per key, and
the bytes accepted for a key in it total at most the byte cap. -/
theorem sliding_window_caps (cfg : LimitsConfig) (t₀ : Instant) (trace : List (Call × Reply))
    (s : LimitSystem) (hrun : LimitRuns cfg t₀ trace s) (start : Instant) :
    (cfg.globalConnects ≠ 0 →
      (inWindow Attempt.time start cfg.globalConnectsWindow
        (successfulAttempts cfg trace)).length ≤ cfg.globalConnects) ∧
    (∀ k, cfg.connectsPerIp ≠ 0 →
      (inWindow Attempt.time start cfg.connectsPerIpWindow
        ((successfulAttempts cfg trace).filter (fun a => a.key = k))).length ≤ cfg.connectsPerIp) ∧
    (∀ k, cfg.distinctDestsPerIp ≠ 0 →
      distinctDests (inWindow Attempt.time start cfg.distinctDestsWindow
        ((successfulAttempts cfg trace).filter (fun a => a.key = k))) ≤ cfg.distinctDestsPerIp) ∧
    (∀ k, cfg.maxBytesPerIp ≠ 0 →
      cappedTotal (inWindow Charge.time start cfg.bytesWindow
        ((acceptedCharges cfg trace).filter (fun c => c.key = k))) ≤ cfg.maxBytesPerIp) := by
  have h := (WindowInvariant.of_runs hrun).admitted
  refine ⟨?_, ?_, ?_, ?_⟩
  · intro h0
    exact (h.global h0).inWindow_le (Nat.zero_le _) (fun _ _ hsub => hsub.length_le) start
  · intro k h0
    exact (h.connects k h0).inWindow_le (Nat.zero_le _) (fun _ _ hsub => hsub.length_le) start
  · intro k h0
    exact (h.dests k h0).inWindow_le (by simp [distinctDests]) distinctDests_mono start
  · intro k h0
    exact (h.bytes k h0).inWindow_le (by simp [cappedTotal]) cappedTotal_mono start

/-- Of two attempts within a minute one is let through. -/
theorem sliding_window_caps_two_attempts :
    ∃ (trace : List (Call × Reply)) (s : LimitSystem),
      LimitRuns { LimitsConfig.unlimited with connectsPerIp := 1, maxTrackedIps := 4 } 0 trace s ∧
      trace.length = 2 ∧
      (inWindow Attempt.time 3 (fromSecs 60)
        ((successfulAttempts { LimitsConfig.unlimited with connectsPerIp := 1, maxTrackedIps := 4 }
          trace).filter (fun a => a.key = .v4 (Ipv4Addr.new 203 0 113 1)))).length = 1 := by
  let client : IpAddr := .v4 (Ipv4Addr.new 203 0 113 1)
  have hrun : LimitRuns { LimitsConfig.unlimited with connectsPerIp := 1, maxTrackedIps := 4 } 0 _ _ :=
    (Runs.nil.snoc (i := Call.recordAttempt client "a:993".toList 5) rfl).snoc
      (i := Call.recordAttempt client "b:993".toList 6) rfl
  refine ⟨_, _, hrun, rfl, le_antisymm ?_ (by decide)⟩
  exact (sliding_window_caps _ _ _ _ hrun 3).2.1 client (by decide)

end WsTcpProxy.Proofs
