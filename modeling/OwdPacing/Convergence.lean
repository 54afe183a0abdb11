import OwdPacing.Framing
import OwdPacing.Measurements
import OwdPacing.Numeric.Search

/-!
# Convergence of the forward estimate

When the one-way delays stay constant, every estimation round is a step of a
search for the difference of the two forward delays: the probes are the window,
and the order in which the server processes them and the slow packet tells where
the difference lies.
-/

namespace OwdPacing

open Container Numeric OWdClientBasic Round Runs

/-! ## The schedule as a window -/

theorem Config.probeOffset_window {cfg : Config} {E : Int} (three : 3 ≤ cfg.probes)
    (nonneg : 0 ≤ E) : Window cfg.gap E (cfg.probeOffset E) (cfg.probes - 1) := by
  have shift : 0 ≤ cfg.shift E := Config.shift_nonneg nonneg
  have half : cfg.shift E ≤ (cfg.probes : Int) / 2 := Config.shift_le_half
  constructor
  · exact Config.probeOffset_succ
  · refine ⟨(cfg.shift E).toNat, by omega, ?_, ?_⟩
    · rw [Config.probeOffset, Int.toNat_of_nonneg shift, sub_self, mul_zero, add_zero]
    · intro first
      have quotient : E / cfg.gap < 1 := by
        rw [Config.shift] at first shift
        omega
      rw [Int.ediv_lt_iff_lt_mul cfg.gap_pos, one_mul] at quotient
      exact quotient.le

/-! ## A round with constant delays -/

/-- The packets that were received on a socket all took the same time to the server
and the same time back. -/
structure ConstantDelays (arrivals : List Arrival) (forward reverse : Socket → Int) : Prop where
  forward : ∀ a ∈ arrivals, a.servedAt = a.sentAt + forward a.sock
  reverse : ∀ a ∈ arrivals, a.time = a.servedAt + reverse a.sock

/-- An estimation round with constant delays that is over. -/
structure SteadyRound (cfg : Config) (r : Nat) (fast : Socket) (E start : Int)
    (c : OWdClientBasic) (log : List Logged) (arrivals : List Arrival)
    (forward reverse : Socket → Int) : Prop where
  started : Started cfg ⟨r, .estimation fast E, start⟩ c
  estimation : EstimationStarted cfg fast E start c
  echoes : AllEchoes cfg ⟨r, .estimation fast E, start⟩ log arrivals
  nodup : (log.map Logged.tag).Nodup
  served : log.Pairwise fun x y => x.time ≤ y.time
  received : arrivals.Pairwise fun a b => a.time ≤ b.time
  positive : ∀ a ∈ arrivals, 0 < a.time
  sentAt : ∀ a ∈ arrivals, a.sentAt = a.seqTs.receiverTs
  delays : ConstantDelays arrivals forward reverse

namespace SteadyRound

variable {cfg : Config} {r i j : Nat} {fast : Socket} {E start : Int} {log : List Logged}
  {arrivals : List Arrival} {forward reverse : Socket → Int} {a : Arrival} {c : OWdClientBasic}

/-- The server processed the slow packet after the slow forward delay. -/
theorem slow_mem (h : SteadyRound cfg r fast E start c log arrivals forward reverse) :
    ⟨slowTag r, start + forward fast.other⟩ ∈ log := by
  obtain ⟨a, mem, slow⟩ := h.echoes.exists_slow
  obtain ⟨call, -, tag, -, echo⟩ := h.echoes.fromPlan a mem
  have served := h.delays.forward a mem
  rw [h.sentAt a mem, slow.receiverTs, slow.sock] at served
  have logged := echo.logged
  rwa [← tag, slow.tag, served] at logged

theorem probe_served (h : SteadyRound cfg r fast E start c log arrivals forward reverse)
    (mem : a ∈ arrivals) (probe : ProbeEcho cfg r fast E start (log.map Logged.tag) i a) :
    a.servedAt = start + cfg.probeOffset E i + forward fast := by
  rw [h.delays.forward a mem, h.sentAt a mem, probe.receiverTs, probe.sock]

theorem probe_time (h : SteadyRound cfg r fast E start c log arrivals forward reverse)
    (mem : a ∈ arrivals) (probe : ProbeEcho cfg r fast E start (log.map Logged.tag) i a) :
    a.time = start + cfg.probeOffset E i + forward fast + reverse fast := by
  rw [h.delays.reverse a mem, h.probe_served mem probe, probe.sock]

/-- And each probe after its own and the fast forward delay. -/
theorem probe_mem (h : SteadyRound cfg r fast E start c log arrivals forward reverse)
    (lt : i < cfg.probes) :
    ⟨probeTag r i, start + cfg.probeOffset E i + forward fast⟩ ∈ log := by
  obtain ⟨a, mem, probe⟩ := h.echoes.exists_probe lt
  obtain ⟨call, -, tag, -, echo⟩ := h.echoes.fromPlan a mem
  have logged := echo.logged
  rwa [← tag, probe.tag, h.probe_served mem probe] at logged

/-- A probe that the server processed before the slow packet was sent no later than
the difference of the forward delays. -/
theorem offset_le_of_before (h : SteadyRound cfg r fast E start c log arrivals forward reverse)
    (lt : i < cfg.probes) (before : Before (log.map Logged.tag) (probeTag r i) (slowTag r)) :
    cfg.probeOffset E i ≤ forward fast.other - forward fast := by
  have order := time_le_of_before h.served h.nodup (h.probe_mem lt) h.slow_mem before
  dsimp only at order
  omega

theorem before_of_offset_lt (h : SteadyRound cfg r fast E start c log arrivals forward reverse)
    (lt : i < cfg.probes) (early : cfg.probeOffset E i < forward fast.other - forward fast) :
    Before (log.map Logged.tag) (probeTag r i) (slowTag r) := by
  apply before_of_time_lt h.served h.nodup (h.probe_mem lt) h.slow_mem
  dsimp only
  omega

/-- And one that it processed after the slow packet, no earlier. -/
theorem le_offset_of_not_before (h : SteadyRound cfg r fast E start c log arrivals forward reverse)
    (lt : i < cfg.probes) (after : ¬ Before (log.map Logged.tag) (probeTag r i) (slowTag r)) :
    forward fast.other - forward fast ≤ cfg.probeOffset E i := by
  by_contra early
  exact after (h.before_of_offset_lt lt (not_le.mp early))

/-- The probes before the slow packet are the first ones. -/
theorem before_of_le (h : SteadyRound cfg r fast E start c log arrivals forward reverse)
    (lt : i < cfg.probes) (before : Before (log.map Logged.tag) (probeTag r i) (slowTag r))
    (le : j ≤ i) : Before (log.map Logged.tag) (probeTag r j) (slowTag r) := by
  cases Nat.lt_or_eq_of_le le with
  | inl earlier =>
      apply h.before_of_offset_lt (lt_of_le_of_lt le lt)
      exact (Config.probeOffset_lt earlier).trans_le (h.offset_le_of_before lt before)
  | inr same => exact same ▸ before

/-- The probes before the slow packet are those up to probe `i`. -/
theorem before_iff_le (h : SteadyRound cfg r fast E start c log arrivals forward reverse)
    (lt : i + 1 < cfg.probes)
    (before : Before (log.map Logged.tag) (probeTag r i) (slowTag r))
    (after : ¬ Before (log.map Logged.tag) (probeTag r (i + 1)) (slowTag r))
    (ltJ : j < cfg.probes) : Before (log.map Logged.tag) (probeTag r j) (slowTag r) ↔ j ≤ i := by
  constructor
  · intro beforeJ
    by_contra above
    exact after (h.before_of_le ltJ beforeJ (Nat.lt_of_not_le above))
  · exact h.before_of_le (Nat.lt_of_succ_lt lt) before

/-- Constant delays keep the order of the probes. -/
theorem ordered (h : SteadyRound cfg r fast E start c log arrivals forward reverse) :
    OrderedRound cfg r fast E start c log arrivals where
  started := h.started
  estimation := h.estimation
  echoes := h.echoes
  received := h.received
  positive := h.positive
  ordered a memA b memB i j le probeA probeB := by
    have timeA := h.probe_time memA probeA
    have timeB := h.probe_time memB probeB
    have offset : cfg.probeOffset E i ≤ cfg.probeOffset E j := Config.probeOffset_le le
    omega

/-- The slow packet came between two probes, or before or after all of them. -/
theorem exists_framing (h : SteadyRound cfg r fast E start c log arrivals forward reverse)
    (notBefore : ¬ AllBefore cfg (log.map Logged.tag) r)
    (notAfter : ¬ AllAfter cfg (log.map Logged.tag) r) :
    ∃ i, i + 1 < cfg.probes ∧ Before (log.map Logged.tag) (probeTag r i) (slowTag r) ∧
      ¬ Before (log.map Logged.tag) (probeTag r (i + 1)) (slowTag r) := by
  have someAfter : ∃ j, j < cfg.probes ∧
      ¬ Before (log.map Logged.tag) (probeTag r j) (slowTag r) := by
    rw [AllBefore] at notBefore
    push Not at notBefore
    exact notBefore
  obtain ⟨k, ltK, beforeK⟩ : ∃ k < cfg.probes,
      Before (log.map Logged.tag) (probeTag r k) (slowTag r) := by
    rw [AllAfter] at notAfter
    push Not at notAfter
    exact notAfter
  obtain ⟨lt, after⟩ := Nat.find_spec someAfter
  cases first : Nat.find someAfter with
  | zero =>
      rw [first] at after
      exact absurd (h.before_of_le ltK beforeK (Nat.zero_le k)) after
  | succ i =>
      rw [first] at lt after
      refine ⟨i, lt, ?_, after⟩
      by_contra none
      have least := Nat.find_min someAfter (m := i) (by rw [first]; exact Nat.lt_succ_self i)
      exact least ⟨Nat.lt_of_succ_lt lt, none⟩

/-- So a round whose slow packet the server processed between two probes has two
neighbouring ones around it. -/
theorem exists_framing_of_some (h : SteadyRound cfg r fast E start c log arrivals forward reverse)
    (someBefore : ∃ m < cfg.probes, Before (log.map Logged.tag) (probeTag r m) (slowTag r))
    (someAfter : ∃ n < cfg.probes, Before (log.map Logged.tag) (slowTag r) (probeTag r n)) :
    ∃ i, i + 1 < cfg.probes ∧ Before (log.map Logged.tag) (probeTag r i) (slowTag r) ∧
      ¬ Before (log.map Logged.tag) (probeTag r (i + 1)) (slowTag r) := by
  obtain ⟨m, ltM, beforeM⟩ := someBefore
  obtain ⟨n, ltN, afterN⟩ := someAfter
  have notBefore : ¬ AllBefore cfg (log.map Logged.tag) r :=
    fun all => afterN.asymm (all n ltN)
  exact h.exists_framing notBefore fun all => all m ltM beforeM

/-- The client remembers which probe arrived at a time. -/
theorem departureAt_time (h : SteadyRound cfg r fast E start c log arrivals forward reverse)
    (mem : a ∈ arrivals) (probe : ProbeEcho cfg r fast E start (log.map Logged.tag) i a) :
    (replay (.estimation fast E) arrivals c).departureAt a.time =
      start + cfg.probeOffset E i := by
  obtain ⟨x, memX, j, probeX, same, departure⟩ := departureAt_eq h.estimation h.echoes.toEchoes
    (find?_replay_m_probes (E := E) (c := c) mem probe.sock)
  have timeX := h.probe_time memX probeX
  have time := h.probe_time mem probe
  omega

/-- When probe `i + 1` came after the slow packet and probe `i` before it, the time
kept of the probes before is that of probe `i`. -/
theorem lastBefore_eq (h : SteadyRound cfg r fast E start c log arrivals forward reverse)
    (lt : i + 1 < cfg.probes)
    (before : Before (log.map Logged.tag) (probeTag r i) (slowTag r))
    (after : ¬ Before (log.map Logged.tag) (probeTag r (i + 1)) (slowTag r)) :
    ∃ a ∈ arrivals, ProbeEcho cfg r fast E start (log.map Logged.tag) i a ∧
      (replay (.estimation fast E) arrivals c).m_arrivalTimeLastProbeBeforeSlowPath = a.time := by
  exact h.ordered.lastBefore_eq (Nat.lt_of_succ_lt lt) fun j => h.before_iff_le lt before after

/-- And that of the probes after it is the time of probe `i + 1`. -/
theorem firstAfter_eq (h : SteadyRound cfg r fast E start c log arrivals forward reverse)
    (lt : i + 1 < cfg.probes)
    (before : Before (log.map Logged.tag) (probeTag r i) (slowTag r))
    (after : ¬ Before (log.map Logged.tag) (probeTag r (i + 1)) (slowTag r)) :
    ∃ a ∈ arrivals, ProbeEcho cfg r fast E start (log.map Logged.tag) (i + 1) a ∧
      (replay (.estimation fast E) arrivals c).m_arrivalTimeFirstProbeAfterSlowPath = a.time := by
  exact h.ordered.firstAfter_eq lt fun j => h.before_iff_le lt before after

/-- So the probes between which it found the slow packet are these two. -/
theorem departureAt_lastBefore (h : SteadyRound cfg r fast E start c log arrivals forward reverse)
    (lt : i + 1 < cfg.probes)
    (before : Before (log.map Logged.tag) (probeTag r i) (slowTag r))
    (after : ¬ Before (log.map Logged.tag) (probeTag r (i + 1)) (slowTag r)) :
    (replay (.estimation fast E) arrivals c).departureAt
      (replay (.estimation fast E) arrivals c).m_arrivalTimeLastProbeBeforeSlowPath =
        start + cfg.probeOffset E i := by
  obtain ⟨a, mem, probe, eq⟩ := h.lastBefore_eq lt before after
  rw [eq, h.departureAt_time mem probe]

theorem departureAt_firstAfter (h : SteadyRound cfg r fast E start c log arrivals forward reverse)
    (lt : i + 1 < cfg.probes)
    (before : Before (log.map Logged.tag) (probeTag r i) (slowTag r))
    (after : ¬ Before (log.map Logged.tag) (probeTag r (i + 1)) (slowTag r)) :
    (replay (.estimation fast E) arrivals c).departureAt
      (replay (.estimation fast E) arrivals c).m_arrivalTimeFirstProbeAfterSlowPath =
        start + cfg.probeOffset E (i + 1) := by
  obtain ⟨a, mem, probe, eq⟩ := h.firstAfter_eq lt before after
  rw [eq, h.departureAt_time mem probe]

/-- And the framing term is the delay of probe `i`: three tenths of the two
milliseconds to the next probe are no millisecond. -/
theorem framedEstimate_eq_probeOffset
    (h : SteadyRound cfg r fast E start c log arrivals forward reverse)
    (lt : i + 1 < cfg.probes)
    (before : Before (log.map Logged.tag) (probeTag r i) (slowTag r))
    (after : ¬ Before (log.map Logged.tag) (probeTag r (i + 1)) (slowTag r)) :
    framedEstimate cfg (replay (.estimation fast E) arrivals c) = cfg.probeOffset E i := by
  have last := h.departureAt_lastBefore lt before after
  have first := h.departureAt_firstAfter lt before after
  have distance : cfg.probeOffset E (i + 1) - cfg.probeOffset E i = cfg.milliSeconds 2 := by
    rw [Config.probeOffset_succ, Config.gap]
    omega
  have fraction : threeTenths 2 = 0 := by decide
  rw [framedEstimate_eq h.echoes last first, distance, cfg.getMilliSeconds_milliSeconds, fraction,
    Config.milliSeconds, zero_mul, add_zero]

/-- What a round records that finds the slow packet between the probes `i` and `i + 1`. -/
theorem nextEstimate_framed (h : SteadyRound cfg r fast E start c log arrivals forward reverse)
    (lt : i + 1 < cfg.probes)
    (before : Before (log.map Logged.tag) (probeTag r i) (slowTag r))
    (after : ¬ Before (log.map Logged.tag) (probeTag r (i + 1)) (slowTag r)) :
    nextEstimate cfg (replay (.estimation fast E) arrivals c) = cfg.probeOffset E i := by
  rw [nextEstimate, h.ordered.slowPacketPosition_eq lt fun j => h.before_iff_le lt before after]
  exact h.framedEstimate_eq_probeOffset lt before after

/-- **A round with constant delays is a step of the search** for their difference. -/
theorem search (h : SteadyRound cfg r fast E start c log arrivals forward reverse)
    (nonempty : 1 ≤ cfg.probes) :
    Search (cfg.probeOffset E) (cfg.probes - 1) (forward fast.other - forward fast)
      (nextEstimate cfg (replay (.estimation fast E) arrivals c)) := by
  have previous : (replay (.estimation fast E) arrivals c).previousEstimate = E :=
    replay_sameRound.previousEstimate.trans h.estimation.previous
  have position := slowPacketPosition_eq h.started h.estimation h.echoes h.positive
  rw [servedPosition] at position
  by_cases before : AllBefore cfg (log.map Logged.tag) r
  · rw [if_pos before] at position
    rw [nextEstimate, position, previous]
    exact .above (h.offset_le_of_before (by omega) (before _ (by omega)))
  · rw [if_neg before] at position
    by_cases after : AllAfter cfg (log.map Logged.tag) r
    · rw [if_pos after] at position
      rw [nextEstimate, position, previous]
      exact .below (h.le_offset_of_not_before nonempty (after 0 nonempty))
    · obtain ⟨i, lt, beforeI, afterI⟩ := h.exists_framing before after
      rw [h.nextEstimate_framed lt beforeI afterI]
      exact .framed i (by omega) (h.offset_le_of_before (by omega) beforeI)
        (h.le_offset_of_not_before lt afterI)

end SteadyRound

namespace Sys

variable {cfg : Config} {s s₀ : Sys} {c₀ : OWdClientBasic} {r k : Nat} {D : Int}

/-! ## Steady rounds of a run -/

/-- Estimation round `k` is over, its packets saw constant delays, and forward the
slow path took `D` longer than the fast one. -/
def Steady (s : Sys) (k : Nat) (D : Int) : Prop :=
  ∃ (stats : RoundStats) (fast : Socket) (forward reverse : Socket → Int),
    s.client.m_owdRoundStats[k]? = some stats ∧ stats.ForwardFastSubflow = (fast : Nat) ∧
    ConstantDelays (s.receivedIn (s.client.m_rttRoundStats.length + k)) forward reverse ∧
    forward fast.other - forward fast = D

/-- The server processed the slow packet of round `r` between two probes. -/
def Framed (cfg : Config) (s : Sys) (r : Nat) : Prop :=
  (∃ i < cfg.probes, s.ServedBefore (probeTag r i) (slowTag r)) ∧
    ∃ i < cfg.probes, s.ServedBefore (slowTag r) (probeTag r i)

/-- No probe of round `r` reached the server at the same time as the slow packet. -/
def NoTie (s : Sys) (r : Nat) : Prop :=
  ∀ i t, ⟨probeTag r i, t⟩ ∈ s.servedLog → ⟨slowTag r, t⟩ ∉ s.servedLog

/-- A round that is over and whose packets saw constant delays is a steady one. -/
theorem RoundOver.steadyRound {fast : Socket} {E begin : Int} {c : OWdClientBasic}
    {stats : RoundStats} {forward reverse : Socket → Int}
    (ended : RoundOver cfg ⟨r, .estimation fast E, begin⟩ c s stats)
    (adm : cfg.Admissible) (start : Start cfg s₀) (reach : Reach (next cfg) Simulated s₀ s)
    (delays : ConstantDelays (s.receivedIn r) forward reverse) :
    SteadyRound cfg r fast E begin c s.servedLog (s.receivedIn r) forward reverse := by
  have timely : Reach (next cfg) Timely s₀ s := reach.mono fun _ _ guard => guard.1
  have positive : Reach (next cfg) ArrivalsPositive s₀ s := reach.mono fun _ _ guard => guard.2
  have clocked := start.clocked adm timely
  exact {
    started := ended.started
    estimation := ended.kind
    echoes := ended.echoes
    nodup := (start.reach adm reach).servedNodup
    served := clocked.served.sorted
    received := clocked.received.sorted.sublist List.filter_sublist
    positive := fun a mem =>
      start.arrivals_positive adm positive a (List.mem_of_mem_filter mem)
    sentAt := fun a mem =>
      ((start.onTime adm timely).arrivals a (List.mem_of_mem_filter mem)).1
    delays := delays }

/-- What a run knows of a steady round. -/
theorem Steady.round (steady : s.Steady k D) (adm : cfg.Admissible) (start : Start cfg s₀)
    (reach : Reach (next cfg) Simulated s₀ s) (le : s₀.client.m_owdRoundStats.length ≤ k) :
    ∃ E fast begin c forward reverse, E = estimateAfter s.client.m_owdRoundStats k ∧ 0 ≤ E ∧
      forward fast.other - forward fast = D ∧
      SteadyRound cfg (s.client.m_rttRoundStats.length + k) fast E begin c s.servedLog
        (s.receivedIn (s.client.m_rttRoundStats.length + k)) forward reverse ∧
      estimateAfter s.client.m_owdRoundStats (k + 1) =
        nextEstimate cfg (replay (.estimation fast E)
          (s.receivedIn (s.client.m_rttRoundStats.length + k)) c) := by
  obtain ⟨stats, fast', forward, reverse, record, chosen, delays, difference⟩ := steady
  obtain ⟨fast, begin, c, nonneg, ended⟩ :=
    (start.reach adm reach).history.estimatedFrom le record
  generalize previous : estimateAfter s.client.m_owdRoundStats k = E at nonneg ended
  obtain rfl : fast = fast' := Fin.ext (Int.ofNat_inj.mp (ended.estimated_fast.symm.trans chosen))
  refine ⟨E, fast, begin, c, forward, reverse, rfl, nonneg, difference,
    ended.steadyRound adm start reach delays, ?_⟩
  have finished : stats = finishedStats cfg fast (replay (.estimation fast E)
      (s.receivedIn (s.client.m_rttRoundStats.length + k)) c) := ended.record
  rw [← finishedStats_estimate cfg fast, ← finished, estimateAfter, record, Option.getD_some]

/-- **One steady round** brings the estimate 2 ms nearer, or within 2 ms. -/
theorem Steady.contracts (steady : s.Steady k D) (adm : cfg.Admissible) (three : 3 ≤ cfg.probes)
    (nonneg : 0 ≤ D) (start : Start cfg s₀) (reach : Reach (next cfg) Simulated s₀ s)
    (le : s₀.client.m_owdRoundStats.length ≤ k) :
    |estimateAfter s.client.m_owdRoundStats (k + 1) - D| ≤
      max cfg.gap (|estimateAfter s.client.m_owdRoundStats k - D| - cfg.gap) := by
  obtain ⟨E, fast, begin, c, forward, reverse, previous, estimate, rfl, round, next⟩ :=
    steady.round adm start reach le
  have window := Config.probeOffset_window three estimate
  rw [next, ← previous]
  exact window.contracts cfg.gap_pos nonneg (round.search adm.probes_pos)

/-- A framed round without a tie leaves less than 2 ms between its estimate and the
difference of the forward delays. -/
theorem Steady.between (steady : s.Steady k D) (adm : cfg.Admissible) (start : Start cfg s₀)
    (reach : Reach (next cfg) Simulated s₀ s) (le : s₀.client.m_owdRoundStats.length ≤ k)
    (framed : s.Framed cfg (s.client.m_rttRoundStats.length + k))
    (noTie : s.NoTie (s.client.m_rttRoundStats.length + k)) :
    estimateAfter s.client.m_owdRoundStats (k + 1) < D ∧
      D < estimateAfter s.client.m_owdRoundStats (k + 1) + cfg.gap := by
  obtain ⟨E, fast, begin, c, forward, reverse, -, -, rfl, round, next⟩ :=
    steady.round adm start reach le
  obtain ⟨i, lt, before, after⟩ := round.exists_framing_of_some framed.1 framed.2
  have low := round.offset_le_of_before (Nat.lt_of_succ_lt lt) before
  have high := round.le_offset_of_not_before lt after
  -- a probe at the difference itself would tie with the slow packet
  have apart : ∀ j < cfg.probes, cfg.probeOffset E j ≠ forward fast.other - forward fast := by
    intro j ltJ same
    have together : begin + cfg.probeOffset E j + forward fast = begin + forward fast.other := by
      omega
    exact noTie j _ (together ▸ round.probe_mem ltJ) round.slow_mem
  have neLow := apart i (Nat.lt_of_succ_lt lt)
  have neHigh := apart (i + 1) lt
  rw [next, round.nextEstimate_framed lt before after]
  rw [Config.probeOffset_succ] at high neHigh
  omega

/-- From such an estimate a steady round is framed and leaves the estimate as it is. -/
theorem Steady.frames (steady : s.Steady k D) (adm : cfg.Admissible) (three : 3 ≤ cfg.probes)
    (start : Start cfg s₀) (reach : Reach (next cfg) Simulated s₀ s)
    (le : s₀.client.m_owdRoundStats.length ≤ k)
    (low : estimateAfter s.client.m_owdRoundStats k < D)
    (high : D < estimateAfter s.client.m_owdRoundStats k + cfg.gap) :
    s.Framed cfg (s.client.m_rttRoundStats.length + k) ∧
      estimateAfter s.client.m_owdRoundStats (k + 1) =
        estimateAfter s.client.m_owdRoundStats k := by
  obtain ⟨E, fast, begin, c, forward, reverse, previous, estimate, rfl, round, next⟩ :=
    steady.round adm start reach le
  rw [← previous] at low high ⊢
  have window := Config.probeOffset_window three estimate
  obtain ⟨i, lt, centre, lowI, highI⟩ := window.frames low high
  have ltNext : i + 1 < cfg.probes := by omega
  constructor
  · refine ⟨⟨i, by omega, round.before_of_offset_lt (by omega) lowI⟩, i + 1, ltNext, ?_⟩
    apply (round.echoes.slow_before_iff ltNext).mpr
    intro before
    exact absurd (round.offset_le_of_before ltNext before) highI.not_ge
  · rw [next, (round.search adm.probes_pos).eq_of_between (window.strictMono cfg.gap_pos) lt lowI
      highI, centre]

/-! ## Runs of steady rounds -/

/-- And so do all the steady rounds that follow. -/
theorem frames_of_steady {j : Nat} (adm : cfg.Admissible) (three : 3 ≤ cfg.probes)
    (start : Start cfg s₀) (reach : Reach (next cfg) Simulated s₀ s)
    (le : s₀.client.m_owdRoundStats.length ≤ k) (steady : ∀ i ≤ j, s.Steady (k + i) D)
    (framed : s.Framed cfg (s.client.m_rttRoundStats.length + k))
    (noTie : s.NoTie (s.client.m_rttRoundStats.length + k)) :
    s.Framed cfg (s.client.m_rttRoundStats.length + (k + j)) ∧
      estimateAfter s.client.m_owdRoundStats (k + j + 1) =
        estimateAfter s.client.m_owdRoundStats (k + 1) := by
  have between := (steady 0 (Nat.zero_le j)).between adm start reach le framed noTie
  induction j with
  | zero => exact ⟨framed, rfl⟩
  | succ j ih =>
      obtain ⟨-, same⟩ := ih fun i lt => steady i (Nat.le_succ_of_le lt)
      have next := (steady (j + 1) (Nat.le_refl _)).frames adm three start reach
        (Nat.le_add_right_of_le le)
      rw [← Nat.add_assoc, same] at next
      exact next between.1 between.2

/-- **Convergence of the forward estimate.**  A round with constant delays, whose
forward delays differ by `D`, brings the estimate 2 ms nearer to `D`, or within
2 ms; a run of `j` such rounds brings it `2 j` ms nearer, or within 2 ms; and a
framed round in which no probe ties with the slow packet is followed by framed
rounds with the same estimate only, as long as the delays stay constant. -/
theorem estimate_converges (adm : cfg.Admissible) (three : 3 ≤ cfg.probes) (start : Start cfg s₀)
    (reach : Reach (next cfg) Simulated s₀ s) (nonneg : 0 ≤ D)
    (le : s₀.client.m_owdRoundStats.length ≤ k) :
    (s.Steady k D →
      |estimateAfter s.client.m_owdRoundStats (k + 1) - D| ≤
        max (cfg.milliSeconds 2)
          (|estimateAfter s.client.m_owdRoundStats k - D| - cfg.milliSeconds 2)) ∧
    (∀ j, (∀ i < j, s.Steady (k + i) D) →
      |estimateAfter s.client.m_owdRoundStats (k + j) - D| ≤
        max (cfg.milliSeconds 2)
          (|estimateAfter s.client.m_owdRoundStats k - D| - cfg.milliSeconds (2 * j))) ∧
    ∀ j, (∀ i ≤ j, s.Steady (k + i) D) →
      s.Framed cfg (s.client.m_rttRoundStats.length + k) →
      s.NoTie (s.client.m_rttRoundStats.length + k) →
      s.Framed cfg (s.client.m_rttRoundStats.length + (k + j)) ∧
        estimateAfter s.client.m_owdRoundStats (k + j + 1) =
          estimateAfter s.client.m_owdRoundStats (k + 1) := by
  refine ⟨?_, ?_, ?_⟩
  · intro steady
    exact steady.contracts adm three nonneg start reach le
  · intro j steady
    have total : cfg.milliSeconds (2 * j) = j * cfg.gap := by
      rw [Config.milliSeconds, Config.gap_eq]
      ring
    rw [total]
    exact error_le_of_contracts (fun i => estimateAfter s.client.m_owdRoundStats (k + i))
      cfg.gap_pos.le fun i lt =>
        (steady i lt).contracts adm three nonneg start reach (Nat.le_add_right_of_le le)
  · intro j steady framed noTie
    exact frames_of_steady adm three start reach le steady framed noTie

/-- Two estimation rounds with the same delays, in both of which the slow packet
takes 3 ms longer than the probes. -/
def framedRounds : List Event :=
  framedRound ++ [framedRoundEnd, ⟨4000070, 7⟩, ⟨4000080, 7⟩, ⟨4000100, 7⟩, ⟨6000070, 8⟩,
    ⟨6000080, 8⟩, ⟨6000100, 8⟩, ⟨7000080, 6⟩, ⟨7000085, 6⟩, ⟨8000070, 9⟩, ⟨8000080, 9⟩,
    ⟨8000100, 9⟩]

theorem framedRounds_reach : Reach (next .nanoseconds) Simulated (boot 0)
    (final (next .nanoseconds) framedRounds (boot 0)) :=
  .final (by decide +kernel) (by decide +kernel)

theorem framedRounds_sampled :
    (final (next .nanoseconds) framedRounds (boot 0)).client.m_rttRoundStats.length = 1 := by
  decide +kernel

theorem framedRounds_framed : (final (next .nanoseconds) framedRounds (boot 0)).Framed .nanoseconds
    ((final (next .nanoseconds) framedRounds (boot 0)).client.m_rttRoundStats.length + 0) := by
  rw [framedRounds_sampled]
  exact ⟨⟨0, by decide +kernel, by decide +kernel⟩, 2, by decide +kernel, by decide +kernel⟩

theorem framedRounds_record : ∀ k < 2, ∃ stats,
    (final (next .nanoseconds) framedRounds (boot 0)).client.m_owdRoundStats[k]? = some stats ∧
      stats.ForwardFastSubflow = (((1 : Socket) : Nat) : Int) := by
  have chosen : ∀ k < 2, ((final (next .nanoseconds) framedRounds
      (boot 0)).client.m_owdRoundStats[k]?.map RoundStats.ForwardFastSubflow) =
        some (((1 : Socket) : Nat) : Int) := by decide +kernel
  intro k lt
  exact Option.map_eq_some_iff.mp (chosen k lt)

theorem framedRounds_delays : ∀ k < 2, ConstantDelays
    ((final (next .nanoseconds) framedRounds (boot 0)).receivedIn
      ((final (next .nanoseconds) framedRounds (boot 0)).client.m_rttRoundStats.length + k))
    (fun sock => if sock = 1 then 10 else 3000010) (fun sock => if sock = 1 then 20 else 5) := by
  have forward : ∀ k < 2, ∀ a ∈ (final (next .nanoseconds) framedRounds (boot 0)).receivedIn
      ((final (next .nanoseconds) framedRounds (boot 0)).client.m_rttRoundStats.length + k),
      a.servedAt = a.sentAt + if a.sock = 1 then 10 else 3000010 := by decide +kernel
  have reverse : ∀ k < 2, ∀ a ∈ (final (next .nanoseconds) framedRounds (boot 0)).receivedIn
      ((final (next .nanoseconds) framedRounds (boot 0)).client.m_rttRoundStats.length + k),
      a.time = a.servedAt + if a.sock = 1 then 20 else 5 := by decide +kernel
  exact fun k lt => ⟨forward k lt, reverse k lt⟩

theorem framedRounds_steady :
    ∀ k < 2, (final (next .nanoseconds) framedRounds (boot 0)).Steady k 3000000 := by
  intro k lt
  obtain ⟨stats, record, chosen⟩ := framedRounds_record k lt
  exact ⟨stats, 1, _, _, record, chosen, framedRounds_delays k lt, rfl⟩

theorem estimate_converges_framed : ∃ s, Reach (next .nanoseconds) Simulated (boot 0) s ∧
    |estimateAfter s.client.m_owdRoundStats 1 - 3000000| ≤ 2000000 ∧
    |estimateAfter s.client.m_owdRoundStats 2 - 3000000| ≤ 2000000 ∧
    s.Framed .nanoseconds (s.client.m_rttRoundStats.length + 1) ∧
    estimateAfter s.client.m_owdRoundStats 2 = estimateAfter s.client.m_owdRoundStats 1 := by
  have reach := framedRounds_reach
  have steady := framedRounds_steady
  have noTie : (final (next .nanoseconds) framedRounds (boot 0)).NoTie 1 := by
    intro i t probe slow
    have alone : ∀ x ∈ (final (next .nanoseconds) framedRounds (boot 0)).servedLog,
        ∀ y ∈ (final (next .nanoseconds) framedRounds (boot 0)).servedLog,
        y.tag = slowTag 1 → x.time = y.time → x.tag = slowTag 1 := by decide +kernel
    have tie := alone _ probe _ slow rfl rfl
    exact absurd tie (probeTag_ne_slowTag 1 i)
  obtain ⟨one, many, framing⟩ := estimate_converges Config.nanoseconds_admissible (Nat.le_refl 3)
    (.boot 0) reach (D := 3000000) (k := 0) (by decide) (Nat.zero_le 0)
  have first := one (steady 0 (by decide))
  have second := many 2 fun i lt => (Nat.zero_add i).symm ▸ steady i lt
  obtain ⟨stays, same⟩ := framing 1 (fun i le => (Nat.zero_add i).symm ▸ steady i (by omega))
    framedRounds_framed (by rw [framedRounds_sampled]; exact noTie)
  exact ⟨_, reach, first.trans (by decide +kernel), second.trans (by decide +kernel), stays, same⟩

/-! ## Delays that change -/

/-- **Tracking.**  When the delays are constant within each round and the difference of the
forward delays changes by at most `v`, no more than 2 ms, from round to round, each round
still takes the estimate `2 ms - v` nearer to the difference, until it is within
`2 ms + v`; and there it stays. -/
theorem estimate_tracks {j : Nat} {D : ℕ → Int} {v : Int} (adm : cfg.Admissible)
    (three : 3 ≤ cfg.probes) (start : Start cfg s₀) (reach : Reach (next cfg) Simulated s₀ s)
    (le : s₀.client.m_owdRoundStats.length ≤ k) (nonneg : ∀ i < j, 0 ≤ D i)
    (steady : ∀ i < j, s.Steady (k + i) (D i))
    (drift : ∀ i < j, |D (i + 1) - D i| ≤ v) (slow : v ≤ cfg.milliSeconds 2) :
    |estimateAfter s.client.m_owdRoundStats (k + j) - D j| ≤
      max (cfg.milliSeconds 2 + v)
        (|estimateAfter s.client.m_owdRoundStats k - D 0| -
          j * (cfg.milliSeconds 2 - v)) := by
  have step : ∀ i < j, |estimateAfter s.client.m_owdRoundStats (k + (i + 1)) - D i| ≤
      max cfg.gap (|estimateAfter s.client.m_owdRoundStats (k + i) - D i| - cfg.gap) :=
    fun i lt => (steady i lt).contracts adm three (nonneg i lt) start reach
      (Nat.le_add_right_of_le le)
  exact error_le_of_drift (fun i => estimateAfter s.client.m_owdRoundStats (k + i)) D
    step drift slow

theorem estimate_tracks_framed : ∃ s, Reach (next .nanoseconds) Simulated (boot 0) s ∧
    |estimateAfter s.client.m_owdRoundStats 2 - 4000000| ≤ 3000000 := by
  have bound := estimate_tracks (j := 2) (k := 0) (v := 1000000) Config.nanoseconds_admissible
    (Nat.le_refl 3) (.boot 0) framedRounds_reach (Nat.zero_le 0) (by decide)
    (D := fun i => if i = 2 then 4000000 else 3000000)
    (fun i lt => by
      rw [Nat.zero_add, if_neg (Nat.ne_of_lt lt)]
      exact framedRounds_steady i lt) (by decide) (by decide)
  exact ⟨_, framedRounds_reach, bound.trans (by decide +kernel)⟩

end Sys

end OwdPacing
