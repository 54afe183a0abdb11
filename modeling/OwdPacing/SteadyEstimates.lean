import OwdPacing.Estimates

/-!
# The estimates of a framed round with constant delays

When the delays of a framed round are constant the client knows the round-trip
times, and the forward and the reverse difference to within the two milliseconds
between the framing probes.  This module says how good the reverse estimate is
then, and when the four one-way estimates are not negative.
-/

namespace OwdPacing

open Container OWdClientBasic Round Runs

/-- None of the four one-way estimates is negative. -/
def RoundStats.Nonneg (stats : RoundStats) : Prop :=
  ∀ sock, 0 ≤ stats.EstimatedForwardDelay sock ∧ 0 ≤ stats.EstimatedReverseDelay sock

namespace SteadyRound

variable {cfg : Config} {r i : Nat} {fast : Socket} {E start : Int} {log : List Logged}
  {arrivals : List Arrival} {forward reverse : Socket → Int} {c : OWdClientBasic}

theorem slowPacket_eq (h : SteadyRound cfg r fast E start c log arrivals forward reverse) :
    (replay (.estimation fast E) arrivals c).m_slowPacket =
      (start + forward fast.other + reverse fast.other, start) := by
  obtain ⟨a, mem, slow⟩ := h.echoes.exists_slow
  have kept := (replay_slow (E := E) (c := c) mem slow.sock (h.echoes.slow_onlyOn mem slow)).1
  rw [kept, h.delays.reverse a mem, h.delays.forward a mem, h.sentAt a mem, slow.receiverTs,
    slow.sock]

/-- What the client takes for the reverse difference: the slow packet left the
server before probe `i + 1`. -/
theorem reverseDelta_eq (h : SteadyRound cfg r fast E start c log arrivals forward reverse)
    (lt : i + 1 < cfg.probes)
    (before : Before (log.map Logged.tag) (probeTag r i) (slowTag r))
    (after : ¬ Before (log.map Logged.tag) (probeTag r (i + 1)) (slowTag r)) :
    (replay (.estimation fast E) arrivals c).m_slowPacket.1 -
        (replay (.estimation fast E) arrivals c).m_arrivalTimeFirstProbeAfterSlowPath =
      (forward fast.other + reverse fast.other) -
        (cfg.probeOffset E (i + 1) + forward fast + reverse fast) := by
  obtain ⟨a, mem, probe, first⟩ := h.firstAfter_eq lt before after
  rw [h.slowPacket_eq, first, h.probe_time mem probe]
  ring

end SteadyRound

namespace Sys

variable {cfg : Config} {s s₀ : Sys} {c : OWdClientBasic} {r k i : Nat} {fast : Socket}
  {E begin : Int} {stats : RoundStats} {forward reverse : Socket → Int} {a : Arrival}

/-- The server processed the slow packet of round `r` after the probes up to `i` and
before the later ones; it was sent at `slowSent`, and the two probes around it at
`lastSent` and `firstSent`. -/
structure FramedBy (cfg : Config) (s : Sys) (r i : Nat) (slowSent lastSent firstSent : Int) :
    Prop where
  next : i + 1 < cfg.probes
  before_iff : ∀ j < cfg.probes, s.ServedBefore (probeTag r j) (slowTag r) ↔ j ≤ i
  slow : ⟨slowTag r, slowSent⟩ ∈ s.sentLog
  last : ⟨probeTag r i, lastSent⟩ ∈ s.sentLog
  first : ⟨probeTag r (i + 1), firstSent⟩ ∈ s.sentLog

/-! ## What such a round records -/

theorem MeasuredBy.rtt_of_delays (h : s.MeasuredBy stats a) (round : a.tag.round = r)
    (delays : ConstantDelays (s.receivedIn r) forward reverse) :
    stats.rtt a.sock = forward a.sock + reverse a.sock := by
  have mem : a ∈ s.receivedIn r := List.mem_filter.mpr ⟨h.received, decide_eq_true round⟩
  rw [h.rtt, delays.reverse a mem, delays.forward a mem]
  ring

/-- The round-trip times are the sums of the delays. -/
theorem RoundOver.rtt_eq (h : RoundOver cfg ⟨r, .estimation fast E, begin⟩ c s stats)
    (nonempty : 1 ≤ cfg.probes) (onTime : s.OnTime) (clocked : s.Clocked)
    (delays : ConstantDelays (s.receivedIn r) forward reverse) (sock : Socket) :
    stats.rtt sock = forward sock + reverse sock := by
  rcases sock.eq_or_eq_other fast with rfl | rfl
  · obtain ⟨i, a, -, tag, rfl, -, measured⟩ := h.fast_measuredBy nonempty onTime clocked
    exact measured.rtt_of_delays (congrArg PacketTag.round tag) delays
  · obtain ⟨a, tag, sock, measured⟩ := h.slow_measuredBy onTime
    rw [← sock]
    exact measured.rtt_of_delays (congrArg PacketTag.round tag) delays

/-- A framed round with constant delays, and its record. -/
structure SteadyRecord (cfg : Config) (s : Sys) (r : Nat) (fast : Socket)
    (forward reverse : Socket → Int) (stats : RoundStats) (i : Nat)
    (slowSent lastSent firstSent : Int) : Prop where
  framedBy : s.FramedBy cfg r i slowSent lastSent firstSent
  /-- A probe and the slow packet reach the server after their forward delays. -/
  low : lastSent + forward fast ≤ slowSent + forward fast.other
  high : slowSent + forward fast.other ≤ firstSent + forward fast
  order : slowSent ≤ lastSent
  gap : firstSent - lastSent = cfg.gap
  rtt : ∀ sock, stats.rtt sock = forward sock + reverse sock
  estimate : stats.EstimatedForwardDeltaOWD = lastSent - slowSent
  reverseDelta : stats.EstimatedReverseDeltaOWD =
    |(slowSent + forward fast.other + reverse fast.other) -
      (firstSent + forward fast + reverse fast)|
  later : firstSent + forward fast + reverse fast <
      slowSent + forward fast.other + reverse fast.other →
    stats.ReverseFastSubflow = (fast : Nat) ∧ stats.HalvesFast fast
  notLater : slowSent + forward fast.other + reverse fast.other ≤
      firstSent + forward fast + reverse fast →
    stats.ReverseFastSubflow = (fast.other : Nat) ∧ stats.HalvesSlow fast

/-- The packet of an echo was sent at the time that the echo carries. -/
theorem OnTime.sent_of_received (h : s.OnTime) (mem : a ∈ s.receivedIn r) :
    ⟨a.tag, a.seqTs.receiverTs⟩ ∈ s.sentLog := by
  obtain ⟨sentAt, logged⟩ := h.arrivals a (List.mem_of_mem_filter mem)
  rwa [sentAt] at logged

/-- The packets around the slow one in a round with constant delays. -/
theorem RoundOver.framedBy (h : RoundOver cfg ⟨r, .estimation fast E, begin⟩ c s stats)
    (onTime : s.OnTime)
    (round : SteadyRound cfg r fast E begin c s.servedLog (s.receivedIn r) forward reverse)
    (lt : i + 1 < cfg.probes) (before : s.ServedBefore (probeTag r i) (slowTag r))
    (after : ¬ s.ServedBefore (probeTag r (i + 1)) (slowTag r)) :
    s.FramedBy cfg r i begin (begin + cfg.probeOffset E i) (begin + cfg.probeOffset E (i + 1)) := by
  have sent : ∀ j < cfg.probes, ⟨probeTag r j, begin + cfg.probeOffset E j⟩ ∈ s.sentLog := by
    intro j ltJ
    obtain ⟨a, mem, probe⟩ := h.echoes.exists_probe ltJ
    have logged := onTime.sent_of_received mem
    rwa [probe.tag, probe.receiverTs] at logged
  exact {
    next := lt
    before_iff := fun j ltJ => round.before_iff_le lt before after ltJ
    slow := by
      obtain ⟨a, mem, slow⟩ := h.echoes.exists_slow
      have logged := onTime.sent_of_received mem
      rwa [slow.tag, slow.receiverTs] at logged
    last := sent i (Nat.lt_of_succ_lt lt)
    first := sent (i + 1) lt }

/-- **What a framed round with constant delays records.** -/
theorem RoundOver.steadyRecord (h : RoundOver cfg ⟨r, .estimation fast E, begin⟩ c s stats)
    (adm : cfg.Admissible) (start : Start cfg s₀) (reach : Reach (next cfg) Simulated s₀ s)
    (delays : ConstantDelays (s.receivedIn r) forward reverse) (framed : s.Framed cfg r) :
    ∃ i slowSent lastSent firstSent,
      SteadyRecord cfg s r fast forward reverse stats i slowSent lastSent firstSent := by
  have timely : Reach (next cfg) Timely s₀ s := reach.mono fun _ _ guard => guard.1
  have onTime := start.onTime adm timely
  have round := h.steadyRound adm start reach delays
  have estimation : EstimationStarted cfg fast E begin c := h.kind
  obtain ⟨i, lt, before, after⟩ := round.exists_framing_of_some framed.1 framed.2
  have between := (h.framed_iff adm.probes_pos round.positive).mpr framed
  have record : stats = framedStats cfg fast (replay (.estimation fast E) (s.receivedIn r) c)
      (collectedStats fast (replay (.estimation fast E) (s.receivedIn r) c)) :=
    h.record.trans (finishedStats_framed between)
  have chosen : (collectedStats fast (replay (.estimation fast E) (s.receivedIn r)
      c)).ForwardFastSubflow = (fast : Nat) :=
    replay_m_forwardFastSubflow.trans estimation.chosen
  have delta := round.reverseDelta_eq lt before after
  have low := round.offset_le_of_before (Nat.lt_of_succ_lt lt) before
  have high := round.le_offset_of_not_before lt after
  have nonneg : 0 ≤ cfg.probeOffset E i := Config.probeOffset_nonneg i
  have gap : cfg.probeOffset E (i + 1) = cfg.probeOffset E i + cfg.gap := Config.probeOffset_succ i
  refine ⟨i, begin, begin + cfg.probeOffset E i, begin + cfg.probeOffset E (i + 1), ?_⟩
  exact {
    framedBy := h.framedBy onTime round lt before after
    low := by omega
    high := by omega
    order := by omega
    gap := by omega
    rtt := h.rtt_eq adm.probes_pos onTime (start.clocked adm timely) delays
    estimate := by
      have estimate := round.framedEstimate_eq_probeOffset lt before after
      rw [record, add_sub_cancel_left, ← estimate]
      exact estimateDelays_estimate ..
    reverseDelta := by
      rw [record]
      refine (estimateDelays_reverse ..).trans ?_
      dsimp only
      rw [delta, Time.abs, Int.natCast_natAbs]
      congr 1
      ring
    later := fun later => by
      rw [record]
      exact framedStats_of_later chosen (by omega)
    notLater := fun notLater => by
      rw [record]
      exact framedStats_of_notLater chosen (by omega) }

/-! ## The reverse difference -/

/-- The client sees the reverse difference from a place inside the framing gap. -/
theorem SteadyRecord.reverse_error {lastSent firstSent slowSent : Int}
    (h : SteadyRecord cfg s r fast forward reverse stats i slowSent lastSent firstSent) :
    |stats.EstimatedReverseDeltaOWD - (|reverse fast.other - reverse fast|)| ≤
      firstSent - lastSent := by
  have low := h.low
  have high := h.high
  rw [h.reverseDelta]
  calc |(|slowSent + forward fast.other + reverse fast.other -
          (firstSent + forward fast + reverse fast)|) - (|reverse fast.other - reverse fast|)|
      ≤ |slowSent + forward fast.other + reverse fast.other -
          (firstSent + forward fast + reverse fast) - (reverse fast.other - reverse fast)| :=
        abs_abs_sub_abs_le_abs_sub ..
    _ ≤ firstSent - lastSent := by
        rw [abs_le]
        constructor <;> omega

/-- **Accuracy of the reverse estimate.**  In a framed round with constant delays the
estimate of the reverse difference is off by at most the gap between the departures
of the two framing probes, and the reverse fast path is the path with the smaller
reverse delay whenever that is the slow one, or the fast one by more than the gap. -/
theorem reverse_estimate_accurate (adm : cfg.Admissible) (start : Start cfg s₀)
    (reach : Reach (next cfg) Simulated s₀ s) (le : s₀.client.m_owdRoundStats.length ≤ k)
    (record : s.client.m_owdRoundStats[k]? = some stats)
    (delays : ConstantDelays (s.receivedIn (s.client.m_rttRoundStats.length + k)) forward reverse)
    (framed : s.Framed cfg (s.client.m_rttRoundStats.length + k)) :
    ∃ (fast : Socket) (i : Nat) (slowSent lastSent firstSent : Int),
      stats.ForwardFastSubflow = (fast : Nat) ∧
      s.FramedBy cfg (s.client.m_rttRoundStats.length + k) i slowSent lastSent firstSent ∧
      |stats.EstimatedReverseDeltaOWD - (|reverse fast.other - reverse fast|)| ≤
        firstSent - lastSent ∧
      (reverse fast.other - reverse fast < 0 →
        stats.ReverseFastSubflow = (fast.other : Nat)) ∧
      (firstSent - lastSent < reverse fast.other - reverse fast →
        stats.ReverseFastSubflow = (fast : Nat)) := by
  obtain ⟨fast, E, begin, c, -, -, ended⟩ :=
    (start.reach adm reach).history.estimated k stats le record
  obtain ⟨i, slowSent, lastSent, firstSent, steady⟩ :=
    ended.steadyRecord adm start reach delays framed
  have low := steady.low
  have high := steady.high
  refine ⟨fast, i, slowSent, lastSent, firstSent, ended.estimated_fast, steady.framedBy,
    steady.reverse_error, ?_, ?_⟩
  · intro shorter
    exact (steady.notLater (by omega)).1
  · intro longer
    exact (steady.later (by omega)).1

theorem reverse_estimate_accurate_framed : ∃ s stats,
    Reach (next .nanoseconds) Simulated (boot 0) s ∧
    s.client.m_owdRoundStats[0]? = some stats ∧ ∃ lastSent firstSent : Int,
      |stats.EstimatedReverseDeltaOWD - 15| ≤ firstSent - lastSent ∧
      stats.ReverseFastSubflow = (((0 : Socket) : Nat) : Int) := by
  obtain ⟨stats, record, chosen⟩ := framedRounds_record 0 (by decide)
  obtain ⟨fast, i, slowSent, lastSent, firstSent, recorded, -, error, shorter, -⟩ :=
    reverse_estimate_accurate Config.nanoseconds_admissible (.boot 0) framedRounds_reach
      (Nat.zero_le 0) record (framedRounds_delays 0 (by decide)) framedRounds_framed
  obtain rfl : (1 : Socket) = fast := Fin.ext (Int.ofNat_inj.mp (chosen.symm.trans recorded))
  exact ⟨_, stats, framedRounds_reach, record, lastSent, firstSent, error, shorter (by decide)⟩

/-! ## The signs of the four estimates -/

section Signs

variable {slowSent lastSent firstSent : Int}

/-- When the echo on the slow path is the later one, no estimate is negative. -/
theorem SteadyRecord.nonneg_of_later
    (h : SteadyRecord cfg s r fast forward reverse stats i slowSent lastSent firstSent)
    (forwardNonneg : ∀ sock, 0 ≤ forward sock) (reverseNonneg : ∀ sock, 0 ≤ reverse sock)
    (later : firstSent + forward fast + reverse fast <
      slowSent + forward fast.other + reverse fast.other) :
    stats.Nonneg := by
  have order := h.order
  have gap := h.gap
  have positive := cfg.gap_pos
  have forwardFast := forwardNonneg fast
  have reverseFast := reverseNonneg fast
  have halves := (h.later later).2
  have half : Time.half (stats.rtt fast) = (forward fast + reverse fast) / 2 := by
    rw [h.rtt, Time.half_of_nonneg (by omega)]
  intro sock
  rcases sock.eq_or_eq_other fast with rfl | rfl
  · rw [halves.forward, halves.reverse, half, h.rtt]
    omega
  · rw [halves.forwardSlow, halves.reverseSlow, half, h.estimate, h.rtt]
    omega

/-- Else only that of the fast reverse delay can be, when half of what the forward
difference leaves of the slow round-trip time exceeds the fast one. -/
theorem SteadyRecord.nonneg_iff_of_notLater
    (h : SteadyRecord cfg s r fast forward reverse stats i slowSent lastSent firstSent)
    (forwardNonneg : ∀ sock, 0 ≤ forward sock) (reverseNonneg : ∀ sock, 0 ≤ reverse sock)
    (notLater : slowSent + forward fast.other + reverse fast.other ≤
      firstSent + forward fast + reverse fast) :
    stats.Nonneg ↔ slowSent + forward fast.other + reverse fast.other ≤
      lastSent + 2 * (forward fast + reverse fast) + 1 := by
  have low := h.low
  have order := h.order
  have forwardFast := forwardNonneg fast
  have reverseSlow := reverseNonneg fast.other
  have halves := (h.notLater notLater).2
  -- what is halved is no less than the fast forward delay, by the framing
  have half : Time.half (stats.rtt fast.other - stats.EstimatedForwardDeltaOWD) =
      (forward fast.other + reverse fast.other - (lastSent - slowSent)) / 2 := by
    rw [h.rtt, h.estimate, Time.half_of_nonneg (by omega)]
  constructor
  · intro nonneg
    have reverseFast := (nonneg fast).2
    rw [halves.reverse, half, h.rtt] at reverseFast
    omega
  · intro short sock
    rcases sock.eq_or_eq_other fast with rfl | rfl
    · rw [halves.forward, halves.reverse, half, h.rtt]
      omega
    · rw [halves.forwardSlow, halves.reverseSlow, half, h.rtt]
      omega

end Signs

/-- **When no negative one-way delay is reported.**  In a framed round with constant
delays that are not negative, none of the four estimates is negative exactly when
the echo of the slow packet reaches the client after that of the first probe that
followed it, or by one tick after twice the fast round-trip time from the departure
of the last probe before it. -/
theorem estimates_nonneg_iff (adm : cfg.Admissible) (start : Start cfg s₀)
    (reach : Reach (next cfg) Simulated s₀ s) (le : s₀.client.m_owdRoundStats.length ≤ k)
    (record : s.client.m_owdRoundStats[k]? = some stats)
    (chosen : stats.ForwardFastSubflow = (fast : Nat))
    (delays : ConstantDelays (s.receivedIn (s.client.m_rttRoundStats.length + k)) forward reverse)
    (forwardNonneg : ∀ sock, 0 ≤ forward sock) (reverseNonneg : ∀ sock, 0 ≤ reverse sock)
    (framed : s.Framed cfg (s.client.m_rttRoundStats.length + k)) :
    ∃ (i : Nat) (slowSent lastSent firstSent : Int),
      s.FramedBy cfg (s.client.m_rttRoundStats.length + k) i slowSent lastSent firstSent ∧
      (stats.Nonneg ↔
        firstSent + (forward fast + reverse fast) <
            slowSent + (forward fast.other + reverse fast.other) ∨
          slowSent + (forward fast.other + reverse fast.other) ≤
            lastSent + 2 * (forward fast + reverse fast) + 1) := by
  obtain ⟨fast', E, begin, c, -, -, ended⟩ :=
    (start.reach adm reach).history.estimated k stats le record
  obtain rfl : fast' = fast := Fin.ext (Int.ofNat_inj.mp (ended.estimated_fast.symm.trans chosen))
  obtain ⟨i, slowSent, lastSent, firstSent, steady⟩ :=
    ended.steadyRecord adm start reach delays framed
  refine ⟨i, slowSent, lastSent, firstSent, steady.framedBy, ?_⟩
  rw [← add_assoc, ← add_assoc]
  rcases lt_or_ge (firstSent + forward fast' + reverse fast')
    (slowSent + forward fast'.other + reverse fast'.other) with later | notLater
  · exact iff_of_true (steady.nonneg_of_later forwardNonneg reverseNonneg later) (.inl later)
  · rw [or_iff_right notLater.not_gt]
    exact steady.nonneg_iff_of_notLater forwardNonneg reverseNonneg notLater

theorem estimates_nonneg_iff_framed : ∃ s stats i slowSent lastSent firstSent,
    Reach (next .nanoseconds) Simulated (boot 0) s ∧
    s.client.m_owdRoundStats[0]? = some stats ∧
    s.FramedBy .nanoseconds (s.client.m_rttRoundStats.length + 0) i slowSent lastSent firstSent ∧
    (stats.Nonneg ↔
      firstSent + (10 + 20) < slowSent + (3000010 + 5) ∨
        slowSent + (3000010 + 5) ≤ lastSent + 2 * (10 + 20) + 1) := by
  obtain ⟨stats, record, chosen⟩ := framedRounds_record 0 (by decide)
  obtain ⟨i, slowSent, lastSent, firstSent, framedBy, nonneg⟩ :=
    estimates_nonneg_iff Config.nanoseconds_admissible (.boot 0) framedRounds_reach
      (Nat.zero_le 0) record chosen (framedRounds_delays 0 (by decide)) (by decide) (by decide)
      framedRounds_framed
  exact ⟨_, stats, i, slowSent, lastSent, firstSent, framedRounds_reach, record, framedBy, nonneg⟩

/-- With a fast round-trip time of 30 ns and a slow forward path of 3 ms, the fast
reverse delay comes out as almost -0.5 ms. -/
theorem estimates_negative : ∃ s stats,
    Reach (next .nanoseconds) Simulated (boot 0) s ∧
    s.client.m_owdRoundStats[0]? = some stats ∧
    stats.ForwardFastSubflow = (((1 : Socket) : Nat) : Int) ∧
    (∃ forward reverse : Socket → Int,
      ConstantDelays (s.receivedIn (s.client.m_rttRoundStats.length + 0)) forward reverse ∧
      (∀ sock, 0 ≤ forward sock) ∧ (∀ sock, 0 ≤ reverse sock) ∧ forward 1 ≤ forward 0) ∧
    s.Framed .nanoseconds (s.client.m_rttRoundStats.length + 0) ∧
    stats.EstimatedReverseDelay 1 = -499977 := by
  have negative : (final (next .nanoseconds) framedRounds
      (boot 0)).client.m_owdRoundStats[0]?.map (fun stats => stats.EstimatedReverseDelay 1) =
        some (-499977) := by decide +kernel
  obtain ⟨stats, record, chosen⟩ := framedRounds_record 0 (by decide)
  rw [record] at negative
  exact ⟨_, stats, framedRounds_reach, record, chosen,
    ⟨_, _, framedRounds_delays 0 (by decide), by decide, by decide, by decide⟩,
    framedRounds_framed, Option.some_inj.mp negative⟩

end Sys

end OwdPacing
