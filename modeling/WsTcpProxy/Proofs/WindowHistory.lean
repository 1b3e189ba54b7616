import WsTcpProxy.ReferenceLedger
import WsTcpProxy.Proofs.LeaseLedger

/-!
# Queues and histories

The queues of the limiter stand for the full history of the reference ledger: for each
window, the entries of the queue that are recent now or later are those of the history.
Pruning at any instant, garbage collection and the creation of empty rows keep this, so
every decision of the limiter is the one the reference ledger makes.
-/

namespace WsTcpProxy.Proofs
open Library

lemma recent_map {α β : Type} (time : β → Nat) (f : α → β) (now window : Nat) (l : List α) :
    recent time now window (l.map f) = (recent (fun a => time (f a)) now window l).map f := by
  simp [recent, List.filter_map, Function.comp_def]

/-- The charges of `k` that leave an entry in its row. -/
def storedCharges (l : ReferenceLedger) (k : IpAddr) : List (Instant × Nat) :=
  ((l.chargesOf k).filter (fun c => c.bytes ≠ 0)).map (fun c => (c.time, c.bytes))

/-- The row `st` stands for the history of `k`. Charges are stored only under a byte cap, and
the cached sum is exact below the saturation point. -/
structure RowTracks (cfg : LimitsConfig) (clock : Instant) (l : ReferenceLedger) (k : IpAddr)
    (st : IpState) : Prop where
  connects : Tracks id cfg.connectsPerIpWindow clock st.connects ((l.attemptsOf k).map Attempt.time)
  dests : Tracks Prod.fst cfg.distinctDestsWindow clock st.dests
    ((l.attemptsOf k).map fun a => (a.time, a.dest))
  bytes : cfg.maxBytesPerIp ≠ 0 → Tracks Prod.fst cfg.bytesWindow clock st.bytes (storedCharges l k)
  sum : cfg.maxBytesPerIp < u64Max → st.bytesSum = (st.bytes.map Prod.snd).sum

namespace RowTracks

variable {cfg : LimitsConfig} {clock now : Instant} {l : ReferenceLedger} {k : IpAddr} {st : IpState}

lemma later (h : RowTracks cfg clock l k st) (hle : clock ≤ now) : RowTracks cfg now l k st :=
  ⟨h.connects.later hle, h.dests.later hle, fun h0 => (h.bytes h0).later hle, h.sum⟩

lemma connections (h : RowTracks cfg clock l k st) (n : Nat) :
    RowTracks cfg clock l k { st with connections := n } :=
  ⟨h.connects, h.dests, h.bytes, h.sum⟩

lemma prune (h : RowTracks cfg clock l k st) (hle : clock ≤ now) :
    RowTracks cfg now l k (st.prune now cfg) := by
  refine ⟨h.connects.expire hle, h.dests.expire hle, ?_, fun h0 => prune_bytesSum (h.sum h0) now cfg⟩
  intro h0
  rw [prune_bytes]
  exact (h.bytes h0).expire hle

/-- An idle row holds nothing, so the empty row stands for the same history. -/
lemma of_isIdle (h : RowTracks cfg clock l k st) (hi : st.isIdle = true) :
    RowTracks cfg clock l k {} := by
  rw [isIdle_iff] at hi
  obtain ⟨-, hc, hd, hb⟩ := hi
  refine ⟨?_, ?_, ?_, fun _ => rfl⟩
  · have := h.connects
    rwa [hc] at this
  · have := h.dests
    rwa [hd] at this
  · intro h0
    have := h.bytes h0
    rwa [hb] at this

end RowTracks

/-- The limiter state `g` stands for the ledger `l` at every time from `clock` on. -/
structure Represents (cfg : LimitsConfig) (g : Inner) (clock : Instant) (l : ReferenceLedger) :
    Prop where
  cfg_eq : g.cfg = cfg
  global : Tracks id cfg.globalConnectsWindow clock g.globalConnects (l.attempts.map Attempt.time)
  rows : ∀ k, RowTracks cfg clock l k (g.row k)

namespace Represents

variable {cfg : LimitsConfig} {g : Inner} {clock now : Instant} {l : ReferenceLedger}

lemma new (cfg : LimitsConfig) (t₀ : Instant) : Represents cfg (Inner.new cfg t₀) t₀ {} := by
  refine ⟨rfl, Tracks.nil, ?_⟩
  intro k
  rw [row_new]
  exact ⟨Tracks.nil, Tracks.nil, fun _ => Tracks.nil, fun _ => rfl⟩

lemma later (h : Represents cfg g clock l) (hle : clock ≤ now) : Represents cfg g now l :=
  ⟨h.cfg_eq, h.global.later hle, fun k => (h.rows k).later hle⟩

lemma pruneGlobal (h : Represents cfg g clock l) (hle : clock ≤ now) :
    Represents cfg (g.pruneGlobal now) now l := by
  refine ⟨h.cfg_eq, ?_, fun k => (h.rows k).later hle⟩
  unfold Inner.pruneGlobal pruneInstants
  rw [h.cfg_eq]
  exact h.global.expire hle

lemma gcIdle (h : Represents cfg g clock l) (hle : clock ≤ now) :
    Represents cfg (g.gcIdle now) now l := by
  refine ⟨h.cfg_eq, (h.pruneGlobal hle).global, ?_⟩
  intro k
  have hrow := (h.rows k).prune hle
  rcases gcIdle_row g now k with heq | ⟨hi, heq⟩
  · rw [heq, h.cfg_eq]
    exact hrow
  · rw [h.cfg_eq] at hi
    rw [heq]
    exact hrow.of_isIdle hi

lemma maybeGc (h : Represents cfg g clock l) (hle : clock ≤ now) :
    Represents cfg (g.maybeGc now) now l := by
  rcases maybeGc_cases g now with heq | heq <;> rw [heq]
  · exact h.later hle
  · exact h.gcIdle hle

lemma setRow (h : Represents cfg g clock l) {k : IpAddr} {st : IpState}
    (hst : RowTracks cfg clock l k st) : Represents cfg (g.setRow k st) clock l := by
  refine ⟨h.cfg_eq, h.global, ?_⟩
  intro k'
  rw [row_setRow]
  split
  · rename_i hk
    rwa [hk]
  · exact h.rows k'

/-! ### Decisions -/

lemma global_eq (h : Represents cfg g clock l) (hle : clock ≤ now) :
    (g.pruneGlobal now).globalConnects.length =
      (recent Attempt.time now cfg.globalConnectsWindow l.attempts).length := by
  unfold Inner.pruneGlobal pruneInstants
  rw [h.cfg_eq, h.global.expire_eq hle, recent_map]
  exact List.length_map _

lemma connects_eq (h : Represents cfg g clock l) (hle : clock ≤ now) (k : IpAddr) :
    ((g.row k).prune now cfg).connects.length =
      (recent Attempt.time now cfg.connectsPerIpWindow (l.attemptsOf k)).length := by
  rw [prune_connects, (h.rows k).connects.expire_eq hle, recent_map]
  exact List.length_map _

lemma dests_eq (h : Represents cfg g clock l) (hle : clock ≤ now) (k : IpAddr) :
    ((g.row k).prune now cfg).dests.map Prod.snd =
      (recent Attempt.time now cfg.distinctDestsWindow (l.attemptsOf k)).map Attempt.dest := by
  rw [prune_dests, (h.rows k).dests.expire_eq hle, recent_map, List.map_map]
  rfl

end Represents

lemma attemptsOf_concat (l : ReferenceLedger) (a : Attempt) (k : IpAddr) :
    ReferenceLedger.attemptsOf { l with attempts := l.attempts ++ [a] } k =
      l.attemptsOf k ++ if a.key = k then [a] else [] := by
  unfold ReferenceLedger.attemptsOf
  by_cases h : a.key = k <;> simp [h]

lemma chargesOf_concat (l : ReferenceLedger) (c : Charge) (k : IpAddr) :
    ReferenceLedger.chargesOf { l with charges := l.charges ++ [c] } k =
      l.chargesOf k ++ if c.key = k then [c] else [] := by
  unfold ReferenceLedger.chargesOf
  by_cases h : c.key = k <;> simp [h]

lemma storedCharges_concat (l : ReferenceLedger) (c : Charge) (k : IpAddr) :
    storedCharges { l with charges := l.charges ++ [c] } k =
      storedCharges l k ++ if c.key = k ∧ c.bytes ≠ 0 then [(c.time, c.bytes)] else [] := by
  unfold storedCharges
  rw [chargesOf_concat]
  by_cases hk : c.key = k
  · by_cases h0 : c.bytes = 0 <;> simp [hk, h0]
  · simp [hk]

lemma sum_bytes_filter (p : Charge → Bool) (cs : List Charge) :
    (((cs.filter (fun c => c.bytes ≠ 0)).filter p).map Charge.bytes).sum =
      ((cs.filter p).map Charge.bytes).sum := by
  induction cs with
  | nil => rfl
  | cons c cs ih =>
    by_cases h0 : c.bytes = 0
    · cases hp : p c <;> simpa [h0, hp] using ih
    · cases hp : p c <;> simpa [h0, hp] using ih

lemma sum_recent_storedCharges (l : ReferenceLedger) (k : IpAddr) (now window : Nat) :
    ((recent Prod.fst now window (storedCharges l k)).map Prod.snd).sum =
      ((recent Charge.time now window (l.chargesOf k)).map Charge.bytes).sum := by
  unfold storedCharges
  rw [recent_map, List.map_map]
  exact sum_bytes_filter _ _

lemma RowTracks.addAttempt {cfg : LimitsConfig} {now : Instant} {l : ReferenceLedger} {k k' : IpAddr}
    {st : IpState} (h : RowTracks cfg now l k' st) (dest : Str) :
    RowTracks cfg now { l with attempts := l.attempts ++ [⟨now, k, dest⟩] } k'
      (if k' = k then st.pushAttempt now dest else st) := by
  by_cases hk : k' = k
  · subst hk
    rw [if_pos rfl]
    refine ⟨?_, ?_, h.bytes, h.sum⟩
    · rw [attemptsOf_concat, if_pos rfl, List.map_append]
      exact h.connects.push rfl
    · rw [attemptsOf_concat, if_pos rfl, List.map_append]
      exact h.dests.push rfl
  · rw [if_neg hk]
    refine ⟨?_, ?_, h.bytes, h.sum⟩
    · rw [attemptsOf_concat, if_neg (Ne.symm hk), List.append_nil]
      exact h.connects
    · rw [attemptsOf_concat, if_neg (Ne.symm hk), List.append_nil]
      exact h.dests

namespace Represents

variable {cfg : LimitsConfig} {g : Inner} {clock now : Instant} {l : ReferenceLedger}

/-- Pushing one instant on the global queue and one entry on the row of `k`. -/
lemma pushAttempt (h : Represents cfg g now l) {k : IpAddr} {st : IpState}
    (hst : RowTracks cfg now l k st) (dest : Str) :
    Represents cfg { g.setRow k (st.pushAttempt now dest) with
      globalConnects := g.globalConnects ++ [now] } now
      { l with attempts := l.attempts ++ [⟨now, k, dest⟩] } := by
  refine ⟨h.cfg_eq, ?_, ?_⟩
  · dsimp only
    rw [List.map_append]
    exact h.global.push rfl
  · intro k'
    have hrow : Inner.row { g.setRow k (st.pushAttempt now dest) with
        globalConnects := g.globalConnects ++ [now] } k' =
        if k' = k then st.pushAttempt now dest else g.row k' := row_setRow g k k' _
    rw [hrow]
    by_cases hk : k' = k
    · subst hk
      rw [if_pos rfl]
      simpa using hst.addAttempt (k := k') dest
    · rw [if_neg hk]
      simpa [hk] using (h.rows k').addAttempt (k := k) dest

lemma countAttempt (h : Represents cfg g now l)
    (hglobal : g.globalConnects.length =
      (recent Attempt.time now cfg.globalConnectsWindow l.attempts).length)
    (k : IpAddr) (dest : Str) :
    (g.countAttempt k dest now).1 = l.decideAttempt cfg k dest now ∧
    Represents cfg (g.countAttempt k dest now).2 now
      (l.addAttempt ⟨now, k, dest⟩ (l.decideAttempt cfg k dest now)) := by
  have hrow : RowTracks cfg now l k ((g.row k).prune now cfg) := (h.rows k).prune le_rfl
  have hconnects := h.connects_eq le_rfl k
  have hdests := h.dests_eq le_rfl k
  unfold Inner.countAttempt ReferenceLedger.decideAttempt
  simp only [h.cfg_eq, hglobal, hconnects, hdests]
  by_cases h1 : capped cfg.globalConnects
      (recent Attempt.time now cfg.globalConnectsWindow l.attempts).length = true
  · simp only [if_pos h1]
    exact ⟨trivial, h⟩
  · by_cases h2 : capped cfg.connectsPerIp
        (recent Attempt.time now cfg.connectsPerIpWindow (l.attemptsOf k)).length = true
    · simp only [if_neg h1, if_pos h2]
      exact ⟨trivial, h.setRow hrow⟩
    · by_cases h3 : cfg.distinctDestsPerIp ≠ 0 ∧
          dest ∉ ((recent Attempt.time now cfg.distinctDestsWindow (l.attemptsOf k)).map
            Attempt.dest).dedup ∧
          cfg.distinctDestsPerIp ≤ ((recent Attempt.time now cfg.distinctDestsWindow
            (l.attemptsOf k)).map Attempt.dest).dedup.length
      · simp only [if_neg h1, if_neg h2, if_pos h3]
        exact ⟨trivial, h.setRow hrow⟩
      · simp only [if_neg h1, if_neg h2, if_neg h3]
        exact ⟨trivial, h.pushAttempt hrow dest⟩

/-- Either the tracked-prefix cap refuses the attempt, or its outcome is the decision of the
reference ledger, whatever was pruned or collected before. -/
lemma recordAttempt (h : Represents cfg g clock l) (hle : clock ≤ now) (ip : IpAddr) (dest : Str) :
    (cfg.maxTrackedIps ≠ 0 ∧ (g.recordAttempt ip dest now).1 = .error .globalConnectRate ∧
      Represents cfg (g.recordAttempt ip dest now).2 now l) ∨
    ((g.recordAttempt ip dest now).1 = l.decideAttempt cfg (g.key ip) dest now ∧
      Represents cfg (g.recordAttempt ip dest now).2 now
        (l.addAttempt ⟨now, g.key ip, dest⟩ (l.decideAttempt cfg (g.key ip) dest now))) := by
  have hgc := h.maybeGc hle
  have h1 := hgc.pruneGlobal le_rfl
  have h2 := h1.gcIdle le_rfl
  rcases recordAttempt_cases g ip dest now with heq | heq | ⟨hcap, heq⟩ <;> rw [heq]
  · exact .inr (h1.countAttempt (hgc.global_eq le_rfl) (g.key ip) dest)
  · exact .inr (h2.countAttempt (h1.global_eq le_rfl) (g.key ip) dest)
  · rw [h.cfg_eq] at hcap
    exact .inl ⟨hcap, rfl, h2⟩

/-- A charge that is accepted without an entry changes nothing a row has to stand for. -/
lemma unstored (h : Represents cfg g clock l) {c : Charge}
    (hc : c.bytes = 0 ∨ cfg.maxBytesPerIp = 0) :
    Represents cfg g clock { l with charges := l.charges ++ [c] } := by
  refine ⟨h.cfg_eq, h.global, ?_⟩
  intro k
  refine ⟨(h.rows k).connects, (h.rows k).dests, ?_, (h.rows k).sum⟩
  intro h0
  rw [storedCharges_concat, if_neg (by tauto), List.append_nil]
  exact (h.rows k).bytes h0

lemma pushBytes (h : Represents cfg g now l) {k : IpAddr} {st : IpState}
    (hst : RowTracks cfg now l k st) {n : Nat} (hn : n ≠ 0)
    (hsum : cfg.maxBytesPerIp < u64Max → saturatingAdd st.bytesSum n = st.bytesSum + n) :
    Represents cfg (g.setRow k (st.pushBytes now n)) now
      { l with charges := l.charges ++ [⟨now, k, n⟩] } := by
  refine ⟨h.cfg_eq, h.global, ?_⟩
  intro k'
  rw [row_setRow]
  by_cases hk : k' = k
  · subst hk
    rw [if_pos rfl]
    refine ⟨hst.connects, hst.dests, ?_, ?_⟩
    · intro h0
      rw [storedCharges_concat, if_pos ⟨rfl, hn⟩]
      exact (hst.bytes h0).push rfl
    · intro h0
      simp only [IpState.pushBytes, List.map_append, List.sum_append, hsum h0]
      rw [hst.sum h0]
      rfl
  · rw [if_neg hk]
    have hrow := h.rows k'
    refine ⟨hrow.connects, hrow.dests, ?_, hrow.sum⟩
    intro h0
    rw [storedCharges_concat, if_neg (fun hc => hk hc.1.symm), List.append_nil]
    exact hrow.bytes h0

/-- Below the saturation point the cached sum of a pruned row is the recent total. -/
lemma bytesSum_eq (h : Represents cfg g clock l) (hle : clock ≤ now) (k : IpAddr)
    (h0 : cfg.maxBytesPerIp ≠ 0) (hmax : cfg.maxBytesPerIp < u64Max) :
    ((g.row k).prune now cfg).bytesSum =
      ((recent Charge.time now cfg.bytesWindow (l.chargesOf k)).map Charge.bytes).sum := by
  rw [prune_bytesSum ((h.rows k).sum hmax), prune_bytes, ((h.rows k).bytes h0).expire_eq hle]
  exact sum_recent_storedCharges l k now cfg.bytesWindow

lemma addBytes (h : Represents cfg g clock l) {gcNow : Instant} (hgc : clock ≤ gcNow)
    (hle : gcNow ≤ now) (ip : IpAddr) (n : Nat) :
    (g.addBytes ip n gcNow now).1 = l.decideCharge cfg (g.key ip) n now ∧
    Represents cfg (g.addBytes ip n gcNow now).2 now
      (l.addCharge ⟨now, g.key ip, n⟩ (l.decideCharge cfg (g.key ip) n now)) := by
  have hrep := h.maybeGc hgc
  unfold Inner.addBytes ReferenceLedger.decideCharge
  by_cases hn : n = 0
  · simp only [if_pos hn, if_neg (fun hc : cfg.maxBytesPerIp ≠ 0 ∧ n ≠ 0 ∧ _ => hc.2.1 hn)]
    exact ⟨trivial, (h.later (hgc.trans hle)).unstored (.inl hn)⟩
  · simp only [if_neg hn, hrep.cfg_eq]
    by_cases h0 : cfg.maxBytesPerIp = 0
    · simp only [if_pos h0, if_neg (fun hc : cfg.maxBytesPerIp ≠ 0 ∧ n ≠ 0 ∧ _ => hc.1 h0)]
      exact ⟨trivial, (hrep.later hle).unstored (.inr h0)⟩
    · simp only [if_neg h0]
      have hrow : RowTracks cfg now l (g.key ip) (((g.maybeGc gcNow).row (g.key ip)).prune now cfg) :=
        (hrep.rows _).prune hle
      have hcond : cfg.maxBytesPerIp <
            saturatingAdd (((g.maybeGc gcNow).row (g.key ip)).prune now cfg).bytesSum n ↔
          cfg.maxBytesPerIp ≠ 0 ∧ n ≠ 0 ∧ cfg.maxBytesPerIp <
            min (((recent Charge.time now cfg.bytesWindow (l.chargesOf (g.key ip))).map
              Charge.bytes).sum + n) u64Max := by
        unfold saturatingAdd
        by_cases hmax : cfg.maxBytesPerIp < u64Max
        · rw [hrep.bytesSum_eq hle _ h0 hmax]
          tauto
        · simp only [lt_min_iff]
          tauto
      by_cases hcap : cfg.maxBytesPerIp <
          saturatingAdd (((g.maybeGc gcNow).row (g.key ip)).prune now cfg).bytesSum n
      · simp only [if_pos hcap, if_pos (hcond.mp hcap)]
        exact ⟨trivial, (hrep.later hle).setRow hrow⟩
      · simp only [if_neg hcap, if_neg (fun hc => hcap (hcond.mpr hc))]
        refine ⟨trivial, (hrep.later hle).pushBytes hrow hn ?_⟩
        intro hmax
        unfold saturatingAdd at hcap ⊢
        omega

lemma acquire (h : Represents cfg g clock l) (hle : clock ≤ now) (ip : IpAddr) (dest : Str) :
    Represents cfg (g.acquire ip dest now).2 now l := by
  have hrep := h.maybeGc hle
  have hrow := hrep.rows (g.key ip)
  unfold Inner.acquire
  dsimp only
  split
  · exact hrep
  · split
    · exact hrep.setRow hrow
    · split
      · exact hrep.setRow hrow
      · have hset := (hrep.setRow hrow).setRow
          (hrow.connections (((g.maybeGc now).row (g.key ip)).connections + 1))
        exact ⟨hset.cfg_eq, hset.global, hset.rows⟩

lemma release (h : Represents cfg g clock l) (hle : clock ≤ now) (ip : IpAddr) (dest : Str) :
    Represents cfg (g.release ip dest now) now l := by
  obtain ⟨hcfg, -, hglobal⟩ := release_frame g ip dest now
  rw [h.cfg_eq] at hcfg
  refine ⟨hcfg, hglobal ▸ h.global.later hle, ?_⟩
  intro k
  have hst : RowTracks cfg now l ip
      ({ g.row ip with connections := (g.row ip).connections - 1 }.prune now cfg) :=
    ((h.rows ip).connections _).prune hle
  unfold Inner.release
  rw [releaseDest_row]
  rcases releaseIp_row { g with globalConnections := g.globalConnections - 1 } ip k now with
    heq | ⟨hk, hi, heq⟩
  · rw [heq]
    by_cases hk : k = ip
    · subst hk
      rw [if_pos rfl, h.cfg_eq]
      exact hst
    · rw [if_neg hk]
      exact (h.rows k).later hle
  · rw [heq, hk]
    rw [h.cfg_eq] at hi
    exact hst.of_isIdle hi

end Represents

end WsTcpProxy.Proofs
