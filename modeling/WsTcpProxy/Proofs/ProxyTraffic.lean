import WsTcpProxy.Proofs.ProxyRefinement
import WsTcpProxy.Proofs.SlidingWindows

/-!
# Traffic of the process

The byte cap of a prefix is a cap on what the relays of all its sessions together deliver: over
any stretch of a run that is no longer than the window, their payload stays within the cap, up to
what they held when the stretch began.
-/

namespace WsTcpProxy

/-- The payload bytes that a step of a session delivered from its relay. -/
def Observed.relayed (o : Observed) : Nat :=
  match o.session with
  | some (_, effects) => if o.probing then 0 else Proofs.delivered effects
  | none => 0

def Observed.charged (o : Observed) : Nat :=
  match o.session with
  | some (_, effects) => Proofs.charge effects
  | none => 0

/-- The limit key of the client of a session. -/
def Task.key (cfg : LimitsConfig) (t : Task) : Option IpAddr :=
  match t.stage with
  | .running u _ | .ending u _ => some (limitKey u.client cfg.ipv4Prefix cfg.ipv6Prefix)
  | _ => none

/-- The payload bytes that are charged but not yet delivered. -/
def Task.inFlight (t : Task) : Nat :=
  match t.stage with
  | .running _ s => Proofs.relayHeld s.phase
  | _ => 0

end WsTcpProxy

namespace WsTcpProxy.Proofs
open Library

/-- What the steps of request `id` add up to. -/
def tally (f : Observed → Nat) (id : Nat) (trace : ProxyTrace) : Nat :=
  (trace.map fun (i, o) => if i.id = id then f o else 0).sum

section Sessions

variable {cfg : Config} {remote : Remote} {s s' : Session} {e : Event} {effects : List Effect}

/-- Behind a step inside `probe`, nothing is held by the relay. -/
lemma SessionStep.held_after_probe (h : SessionStep cfg remote s e effects s')
    (hprobe : s.phase.inProbe = true) : relayHeld s'.phase = 0 := by
  cases h with
  | helloData hp hd hx =>
    obtain ⟨-, hcases⟩ := probeHello_spec hx
    obtain ⟨hs, -⟩ | ⟨hs, -⟩ | hs := hcases <;> rw [hs] <;> rfl
  | helloControl hp he hr hphase => obtain rfl | ⟨p, rfl⟩ := hphase <;> rfl
  | greetRead hp hx =>
    obtain ⟨-, hcases⟩ := probeGreet_spec hx
    obtain ⟨hs, -⟩ | ⟨hs, -⟩ | hs := hcases <;> rw [hs] <;> rfl
  | relayUp hp | relayDown hp | relayControl hp | dataWrote hp | messageSent hp =>
    rw [hp] at hprobe
    cases hprobe
  | _ => rfl

lemma relayHeld_start (cfg : Config) (remote : Remote) (now : Instant) :
    relayHeld (Connection.start cfg remote now).phase = 0 := by
  unfold Connection.start
  dsimp only
  split <;> rfl

lemma probeDelivers_outside (hprobe : s.phase.inProbe = false) :
    probeDelivers s.phase e = false := by
  cases hp : s.phase <;> rw [hp] at hprobe <;> first | rfl | cases hprobe

end Sessions

section Tasks

variable {d : Deployment} {limits limits' : LimitSystem} {m m' : Metrics} {i : ProxyInput}
  {o : Observed} {t : Option Task} {t' : Task} {trace : ProxyTrace} {p₀ p : Proxy} {id : Nat}

lemma tally_own (f : Observed → Nat) (trace : ProxyTrace) (i : ProxyInput) (o : Observed) :
    tally f i.id (trace ++ [(i, o)]) = tally f i.id trace + f o := by
  simp [tally]

lemma tally_other (f : Observed → Nat) (hid : i.id ≠ id) (trace : ProxyTrace) (o : Observed) :
    tally f id (trace ++ [(i, o)]) = tally f id trace := by
  simp [tally, hid]

lemma inFlight_after (request : Request) (u : Upgrade) (phase : Phase) (s' : Session) :
    Task.inFlight ⟨request, Proxy.afterSession u phase s'⟩ ≤ relayHeld s'.phase := by
  unfold Proxy.afterSession
  split
  · exact Nat.zero_le _
  · exact le_rfl

lemma key_after (cfg : LimitsConfig) (request : Request) (u : Upgrade) (phase : Phase)
    (s' : Session) :
    Task.key cfg ⟨request, Proxy.afterSession u phase s'⟩ =
      some (limitKey u.client cfg.ipv4Prefix cfg.ipv6Prefix) := by
  unfold Proxy.afterSession
  split <;> rfl

/-- The relay of a session delivers what it held and what is charged. -/
lemma TaskStep.relayed_le (h : TaskStep d limits m i o t t' limits' m') :
    o.relayed + t'.inFlight ≤ share Task.inFlight t + o.charged := by
  cases h with
  | @upgraded id request u now =>
    change 0 + relayHeld (Connection.start d.config u.remote now).phase ≤ 0
    rw [relayHeld_start]
  | @ran id i gcNow now request u s s' o limits' ok effects hs =>
    have hflight := inFlight_after request u s.phase s'
    have hstep := step_cases hs.step
    rw [Observed.relayed, Observed.charged, hs.session, hs.probing]
    dsimp only [share]
    split
    · have hheld := hstep.held_after_probe ‹_›
      omega
    · rename_i hprobe
      rw [Bool.not_eq_true] at hprobe
      have hcovered := (byteStep_of_step hstep (probeDelivers_outside hprobe)).covered
      change _ ≤ relayHeld s.phase + _
      change _ ≤ relayHeld s.phase + _ at hcovered
      omega
  | cleaned hc =>
    rw [hc.observed]
    exact Nat.le_refl _
  | _ => exact Nat.le_refl 0

/-- A step that charges belongs to a session, and the limiter has granted what it charges. -/
lemma TaskStep.charged_cases (cfg : LimitsConfig) (h : TaskStep d limits m i o t t' limits' m') :
    (o.charged = 0 ∧ acceptedCharges cfg (o.limiter.toList) = []) ∨
    ∃ t₀ k now, t = some t₀ ∧ t₀.key cfg = some k ∧ t'.key cfg = some k ∧
      acceptedCharges cfg (o.limiter.toList) = [⟨now, k, o.charged⟩] := by
  cases h with
  | @answered id outcome request prog prog' e limits' hr =>
    refine .inl ⟨rfl, ?_⟩
    dsimp only
    unfold limiterCall
    split <;> rfl
  | @ran id i gcNow now request u s s' o limits' ok effects hs =>
    rw [Observed.charged, hs.session]
    obtain ⟨hnone, -, hcharge⟩ | ⟨n, r, hcall, -, hcharge⟩ := hs.limiter
    · exact .inl ⟨hcharge, by rw [hnone]; rfl⟩
    · cases r with
      | error e => exact .inl ⟨hcharge, by rw [hcall]; rfl⟩
      | ok _ =>
        refine .inr ⟨_, _, now, rfl, rfl, key_after cfg request u s.phase s', ?_⟩
        have hn : charge effects = n := hcharge
        rw [hcall]
        dsimp only
        rw [hn]
        rfl
  | cleaned hc =>
    refine .inl ⟨by rw [hc.observed]; rfl, ?_⟩
    obtain ⟨-, hnone, -⟩ | ⟨-, hcall, -⟩ := hc.limiter
    · rw [hnone]
      rfl
    · rw [hcall]
      rfl
  | _ => exact .inl ⟨rfl, rfl⟩

/-- The key of a session stays. -/
lemma TaskStep.key_kept {cfg : LimitsConfig} {t₀ : Task} {k : IpAddr}
    (h : TaskStep d limits m i o (some t₀) t' limits' m') (hk : t₀.key cfg = some k) :
    t'.key cfg = some k := by
  cases h with
  | ran hs => exact (key_after _ _ _ _ _).trans hk
  | cleaned hc => exact hk
  | _ => cases hk

lemma tally_nil (f : Observed → Nat) (id : Nat) : tally f id [] = 0 := rfl

/-- What the relay of a request has delivered since some point. -/
lemma relayed_since (h : Runs (Proxy.step d) p₀ trace p) (id : Nat) :
    tally Observed.relayed id trace + share Task.inFlight p.tasks[id]? ≤
      share Task.inFlight p₀.tasks[id]? + tally Observed.charged id trace := by
  refine task_invariant_since (P := fun id trace t =>
    tally Observed.relayed id trace + share Task.inFlight t ≤
      share Task.inFlight p₀.tasks[id]? + tally Observed.charged id trace) ?_ ?_ ?_ h id
  · intro id
    rw [tally_nil, tally_nil]
    omega
  · intro trace p i o t' limits' m' _ hstep hp
    have hle := hstep.relayed_le
    rw [tally_own, tally_own]
    change _ + t'.inFlight ≤ _
    omega
  · intro id trace i o t hid hp
    rw [tally_other _ hid, tally_other _ hid]
    exact hp

/-- A request that has had no session since some point has charged nothing since, and one that had
a session keeps its key. -/
lemma key_since (cfg : LimitsConfig) (h : Runs (Proxy.step d) p₀ trace p) (id : Nat) :
    ((p.tasks[id]?.bind (Task.key cfg)) = none → tally Observed.charged id trace = 0) ∧
      ∀ k, p₀.tasks[id]?.bind (Task.key cfg) = some k → p.tasks[id]?.bind (Task.key cfg) = some k := by
  refine task_invariant_since (P := fun id trace t =>
    (t.bind (Task.key cfg) = none → tally Observed.charged id trace = 0) ∧
      ∀ k, p₀.tasks[id]?.bind (Task.key cfg) = some k → t.bind (Task.key cfg) = some k) ?_ ?_ ?_ h id
  · intro id
    exact ⟨fun _ => rfl, fun _ hk => hk⟩
  · intro trace p i o t' limits' m' _ hstep hp
    generalize p.tasks[i.id]? = t at hstep hp
    have hkept (k : IpAddr) (hk : t.bind (Task.key cfg) = some k) : t'.key cfg = some k := by
      obtain ⟨t₀, rfl, hk⟩ := Option.bind_eq_some_iff.1 hk
      exact hstep.key_kept hk
    refine ⟨?_, fun k hk => hkept k (hp.2 k hk)⟩
    intro hnone
    have hbefore : t.bind (Task.key cfg) = none := by
      by_contra hsome
      obtain ⟨k, hk⟩ := Option.ne_none_iff_exists'.1 hsome
      rw [Option.bind_some, hkept k hk] at hnone
      cases hnone
    rw [tally_own, hp.1 hbefore, Nat.zero_add]
    obtain ⟨hzero, -⟩ | ⟨t₀, k, now, -, -, hk, -⟩ := hstep.charged_cases cfg
    · exact hzero
    · rw [Option.bind_some, hk] at hnone
      cases hnone
  · intro id trace i o t hid hp
    rw [tally_other _ hid]
    exact hp

end Tasks

/-! ### A stretch of a run -/

section Stretch

variable {d : Deployment} {now : Instant} {trace pre mid : ProxyTrace} {p₀ p : Proxy} {k : IpAddr}

/-- The bytes that the limiter has granted to a key. -/
def grantedTo (cfg : LimitsConfig) (k : IpAddr) (calls : List (Call × Reply)) : Nat :=
  (((acceptedCharges cfg calls).filter fun c => c.key = k).map Charge.bytes).sum

/-- What the requests of a key add up to. -/
def tallyOf (cfg : LimitsConfig) (f : Observed → Nat) (k : IpAddr) (trace : ProxyTrace)
    (tasks : List Task) (id : Nat) : Nat :=
  if tasks[id]?.bind (Task.key cfg) = some k then tally f id trace else 0

lemma limiter_concat (trace : ProxyTrace) (i : ProxyInput) (o : Observed) :
    (trace ++ [(i, o)]).filterMap limiterView = trace.filterMap limiterView ++ o.limiter.toList := by
  rw [List.filterMap_append]
  cases h : o.limiter <;> simp [limiterView, h]

lemma grantedTo_append (cfg : LimitsConfig) (k : IpAddr) (calls calls' : List (Call × Reply)) :
    grantedTo cfg k (calls ++ calls') = grantedTo cfg k calls + grantedTo cfg k calls' := by
  simp [grantedTo, acceptedCharges]

/-- A step adds to the charges of a key what the limiter has granted to it in that step. -/
lemma tallyOf_step {i : ProxyInput} {o : Observed} {t' : Task} {limits' : LimitSystem}
    {m' : Metrics} {tasks' : List Task} (cfg : LimitsConfig) (hr : Runs (Proxy.step d) p₀ trace p)
    (ht : TaskStep d p.limits p.metrics i o p.tasks[i.id]? t' limits' m')
    (htasks : tasks'[i.id]? = some t') :
    tallyOf cfg Observed.charged k (trace ++ [(i, o)]) tasks' i.id =
      tallyOf cfg Observed.charged k trace p.tasks i.id + grantedTo cfg k o.limiter.toList := by
  have hquiet := (key_since cfg hr i.id).1
  rw [tallyOf, tallyOf, htasks, tally_own, Option.bind_some]
  generalize p.tasks[i.id]? = t at ht hquiet
  obtain ⟨hzero, hcharges⟩ | ⟨t₀, k', now, rfl, hbefore, hafter, hcharges⟩ := ht.charged_cases cfg
  · rw [hzero, grantedTo, hcharges]
    cases hkey : t.bind (Task.key cfg) with
    | none =>
      rw [hquiet hkey]
      simp
    | some k' =>
      obtain ⟨t₀, rfl, hk⟩ := Option.bind_eq_some_iff.1 hkey
      rw [ht.key_kept hk]
      rfl
  · rw [hafter, Option.bind_some, hbefore, grantedTo, hcharges]
    by_cases hk : k' = k
    · simp [hk]
    · simp [hk]

/-- What the limiter grants to a key is what its sessions charge. -/
lemma granted_eq (cfg : LimitsConfig) (h : Runs (Proxy.step d) p₀ trace p) {n : Nat}
    (hn : p.tasks.length ≤ n) :
    grantedTo cfg k (trace.filterMap limiterView) =
      ∑ id ∈ Finset.range n, tallyOf cfg Observed.charged k trace p.tasks id := by
  revert hn
  refine h.reachable_invariant (P := fun trace p => p.tasks.length ≤ n →
    grantedTo cfg k (trace.filterMap limiterView) =
      ∑ id ∈ Finset.range n, tallyOf cfg Observed.charged k trace p.tasks id) ?_ ?_
  · intro _
    simp [tallyOf, tally_nil, grantedTo, acceptedCharges]
  · intro trace p i o p' hr hp hstep hn
    obtain ⟨t', ht, htasks, hle⟩ := proxy_step_cases hstep
    have hlen := congrArg List.length htasks
    rw [length_place hle] at hlen
    have hother : ∀ id, id ≠ i.id →
        tallyOf cfg Observed.charged k (trace ++ [(i, o)]) p'.tasks id =
          tallyOf cfg Observed.charged k trace p.tasks id := by
      intro id hid
      rw [tallyOf, tallyOf, htasks, getElem?_place_other hid, tally_other _ (Ne.symm hid)]
    have hown := tallyOf_step (k := k) cfg hr ht
      (show p'.tasks[i.id]? = some t' by rw [htasks, getElem?_place_self hle])
    rw [limiter_concat, grantedTo_append, hp (by omega), sum_range_step (by omega) hother hown]

lemma tasks_grow (h : Runs (Proxy.step d) p₀ trace p) : p₀.tasks.length ≤ p.tasks.length := by
  refine h.state_invariant (P := fun p => p₀.tasks.length ≤ p.tasks.length) le_rfl ?_
  intro p i o p' hp hstep
  obtain ⟨t', ht, htasks, hle⟩ := proxy_step_cases hstep
  rw [htasks, length_place hle]
  omega

lemma inFlight_of_keyless {cfg : LimitsConfig} {t : Task} (h : t.key cfg = none) :
    t.inFlight = 0 := by
  obtain ⟨request, stage⟩ := t
  cases stage with
  | running u s => cases h
  | _ => rfl

/-- What a session of key `k` held at the beginning of a stretch. -/
def heldOf (cfg : LimitsConfig) (k : IpAddr) (t : Task) : Nat :=
  if t.key cfg = some k then t.inFlight else 0

lemma relayed_le_charged (cfg : LimitsConfig) (h : Runs (Proxy.step d) p₀ trace p) (id : Nat) :
    tallyOf cfg Observed.relayed k trace p.tasks id ≤
      share (heldOf cfg k) p₀.tasks[id]? + tallyOf cfg Observed.charged k trace p.tasks id := by
  have hrelayed := relayed_since h id
  have hkept := (key_since cfg h id).2
  unfold tallyOf
  split
  · rename_i hkey
    have hheld : share Task.inFlight p₀.tasks[id]? ≤ share (heldOf cfg k) p₀.tasks[id]? := by
      cases ht : p₀.tasks[id]? with
      | none => exact le_rfl
      | some t =>
        rw [ht, Option.bind_some, hkey] at hkept
        dsimp only [share]
        cases hk : t.key cfg with
        | none =>
          rw [inFlight_of_keyless hk]
          exact Nat.zero_le _
        | some k' =>
          obtain rfl : k = k' := Option.some.inj (hkept k' hk)
          rw [heldOf, if_pos hk]
    omega
  · exact Nat.zero_le _

/-- What the relays of a key deliver is what they held and what is granted to the key. -/
lemma relayed_le_granted (cfg : LimitsConfig) (h : Runs (Proxy.step d) p₀ trace p) :
    ∑ id ∈ Finset.range p.tasks.length, tallyOf cfg Observed.relayed k trace p.tasks id ≤
      total (heldOf cfg k) p₀.tasks + grantedTo cfg k (trace.filterMap limiterView) := by
  rw [granted_eq cfg h le_rfl, total_eq_sum_range _ (tasks_grow h), ← Finset.sum_add_distrib]
  exact Finset.sum_le_sum fun id _ => relayed_le_charged cfg h id

/-- The clock of the limiter does not go back, and a charge is granted at its reading. -/
lemma charge_time {l l' : LimitSystem} {call : Call} {r : Reply} (cfg : LimitsConfig)
    (h : l.step call = some (r, l')) :
    l.clock ≤ l'.clock ∧ ∀ c ∈ acceptedCharges cfg [(call, r)], c.time = l'.clock := by
  obtain ⟨ip, dest, now, rfl, hnow, rfl, rfl⟩ | ⟨holder, ip, dest, now, rfl, hnow, rfl, rfl⟩ |
    ⟨ip, n, gcNow, now, rfl, hgc, hnow, rfl, rfl⟩ | ⟨held, now, rfl, hnow, -, rfl, rfl⟩ :=
    limitSystem_step_cases h
  · exact ⟨hnow, by simp [acceptedCharges]⟩
  · exact ⟨hnow, by simp [acceptedCharges]⟩
  · refine ⟨hgc.trans hnow, ?_⟩
    cases hr : (l.limits.addBytes ip n gcNow now).1 <;> simp [acceptedCharges]
  · exact ⟨hnow, by simp [acceptedCharges]⟩

lemma charges_between {l₀ l : LimitSystem} {calls : List (Call × Reply)} (cfg : LimitsConfig)
    (h : Runs LimitSystem.step l₀ calls l) :
    l₀.clock ≤ l.clock ∧
      ∀ c ∈ acceptedCharges cfg calls, l₀.clock ≤ c.time ∧ c.time ≤ l.clock := by
  refine h.invariant (P := fun calls l => l₀.clock ≤ l.clock ∧
    ∀ c ∈ acceptedCharges cfg calls, l₀.clock ≤ c.time ∧ c.time ≤ l.clock)
    ⟨le_rfl, by simp [acceptedCharges]⟩ ?_
  rintro calls l call r l' ⟨hle, hold⟩ hstep
  obtain ⟨hlater, hnew⟩ := charge_time cfg hstep
  refine ⟨hle.trans hlater, ?_⟩
  intro c hc
  rw [acceptedCharges_concat, List.mem_append] at hc
  obtain hc | hc := hc
  · exact ⟨(hold c hc).1, (hold c hc).2.trans hlater⟩
  · rw [hnew c hc]
    exact ⟨hle.trans hlater, le_rfl⟩

/-- What is granted inside a window is among the charges of the window. -/
lemma grantedTo_le_inWindow {cfg : LimitsConfig} {start window : Nat} (before : List (Call × Reply))
    {calls : List (Call × Reply)}
    (hinside : ∀ c ∈ acceptedCharges cfg calls, start ≤ c.time ∧ c.time ≤ start + window) :
    grantedTo cfg k calls ≤
      ((inWindow Charge.time start window ((ledgerOf cfg (before ++ calls)).chargesOf k)).map
        Charge.bytes).sum := by
  have hall : inWindow Charge.time start window ((ledgerOf cfg calls).chargesOf k) =
      (ledgerOf cfg calls).chargesOf k := by
    refine List.filter_eq_self.2 ?_
    intro c hc
    exact decide_eq_true (hinside c (List.mem_filter.1 hc).1)
  have hsplit : (ledgerOf cfg (before ++ calls)).chargesOf k =
      (ledgerOf cfg before).chargesOf k ++ (ledgerOf cfg calls).chargesOf k := by
    simp [ReferenceLedger.chargesOf, ledgerOf, acceptedCharges]
  rw [hsplit, inWindow, List.filter_append, List.map_append, List.sum_append]
  change _ ≤ _ + ((inWindow Charge.time start window
    ((ledgerOf cfg calls).chargesOf k)).map Charge.bytes).sum
  rw [hall]
  exact Nat.le_add_left _ _

lemma le_of_cappedTotal_le {cs : List Charge} {cap : Nat} (h : cappedTotal cs ≤ cap)
    (hcap : cap < u64Max) : (cs.map Charge.bytes).sum ≤ cap := by
  unfold cappedTotal at h
  omega

/-- Over any stretch of a run that takes at most the window on the limiter's clock, the relays of
all sessions of a prefix together deliver at most the byte cap, and what they held at its
beginning. -/
theorem prefix_traffic_bounded (d : Deployment) (now : Instant) (pre mid : ProxyTrace)
    (p₀ p : Proxy) (hpre : ProxyRuns d now pre p₀) (hmid : Runs (Proxy.step d) p₀ mid p)
    (k : IpAddr) (hcap : d.config.limits.maxBytesPerIp ≠ 0)
    (hrange : d.config.limits.maxBytesPerIp < u64Max)
    (hwindow : p.limits.clock ≤ p₀.limits.clock + d.config.limits.bytesWindow) :
    ∑ id ∈ Finset.range p.tasks.length,
        tallyOf d.config.limits Observed.relayed k mid p.tasks id ≤
      d.config.limits.maxBytesPerIp + total (heldOf d.config.limits k) p₀.tasks := by
  have hstretch : Runs LimitSystem.step p₀.limits (mid.filterMap limiterView) p.limits := by
    refine hmid.viewed Proxy.limits limiterView ?_
    intro trace p i o p' _ hstep
    obtain ⟨t', ht, -, -⟩ := proxy_step_cases hstep
    exact ht.viewed_limiter
  have hinside : ∀ c ∈ acceptedCharges d.config.limits (mid.filterMap limiterView),
      p₀.limits.clock ≤ c.time ∧ c.time ≤ p₀.limits.clock + d.config.limits.bytesWindow := by
    intro c hc
    obtain ⟨hlo, hhi⟩ := (charges_between d.config.limits hstretch).2 c hc
    exact ⟨hlo, hhi.trans hwindow⟩
  have hadmitted := ((WindowInvariant.of_runs (limiter_run (hpre.append hmid))).admitted.bytes k
    hcap).inWindow_le (by simp [cappedTotal]) cappedTotal_mono p₀.limits.clock
  rw [List.filterMap_append] at hadmitted
  have hgranted := grantedTo_le_inWindow (k := k) (pre.filterMap limiterView) hinside
  have hsum := hgranted.trans (le_of_cappedTotal_le hadmitted hrange)
  have hrelayed := relayed_le_granted (k := k) d.config.limits hmid
  omega

/-- Three bytes are in flight when the stretch begins, and the relay delivers them in it. -/
theorem prefix_traffic_bounded_mail :
    ∃ pre p₀ mid p, ProxyRuns openDeployment 0 pre p₀ ∧ Runs (Proxy.step openDeployment) p₀ mid p ∧
      total (heldOf openDeployment.config.limits (.v4 (.new 192 0 2 1))) p₀.tasks = 3 ∧
      tally Observed.relayed 0 mid = 3 ∧
      ∑ id ∈ Finset.range p.tasks.length,
          tallyOf openDeployment.config.limits Observed.relayed (.v4 (.new 192 0 2 1)) mid p.tasks
            id ≤
        openDeployment.config.limits.maxBytesPerIp + 3 := by
  have hpre : ProxyRuns openDeployment 0 _ _ := Runs.of_inputs mailInputs rfl
  refine ⟨_, _, _, _, hpre, Runs.of_inputs flushInputs rfl, rfl, rfl, ?_⟩
  exact prefix_traffic_bounded openDeployment 0 _ _ _ _ hpre (Runs.of_inputs flushInputs rfl)
    (.v4 (.new 192 0 2 1)) (by decide) (by decide) (by decide)

end Stretch

end WsTcpProxy.Proofs
