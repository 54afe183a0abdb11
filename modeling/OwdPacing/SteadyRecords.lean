import OwdPacing.SteadyEstimates

/-!
# The records of rounds with constant delays

When the delays of an estimation round are constant its whole record is a function of
the delays and of the estimates before and after the round, and what the four
one-way estimates are worth can be read off: they are all off by the same amount, half
of what the reverse delay on the reverse fast path exceeds the forward one on the forward
fast path, up to the framing gap.
-/

namespace OwdPacing

open Container OWdClientBasic Round Runs

attribute [ext] RoundStats

/-- The record of a round with constant delays that takes the estimate `E'` and nothing more. -/
def measuredStats (fast : Socket) (forward reverse : Socket → Int) (E' : Int) : RoundStats :=
  { RoundStats.new with
    RealForwardDelay := forward
    RealReverseDelay := reverse
    rtt := fun sock => forward sock + reverse sock
    ForwardFastSubflow := (fast : Nat)
    EstimatedForwardDeltaOWD := E' }

/-- The record of a round with constant delays: `E` is the estimate before it and `E'`
the one after it.  It estimates more than that when the slow packet, which takes `D`
longer than the probes, arrives between the first and the last of them. -/
def steadyStats (cfg : Config) (fast : Socket) (forward reverse : Socket → Int) (E E' : Int) :
    RoundStats :=
  let stats := measuredStats fast forward reverse E'
  let D := forward fast.other - forward fast
  if cfg.probeOffset E 0 < D ∧ D < cfg.probeOffset E (cfg.probes - 1) then
    let reverseDeltaOWD := stats.rtt fast.other - (E' + cfg.gap + stats.rtt fast)
    estimateDelays fast fast.other
      { stats with
        ReverseFastSubflow := if reverseDeltaOWD ≤ 0 then (fast.other : Nat) else (fast : Nat)
        EstimatedReverseDeltaOWD := |reverseDeltaOWD| }
  else
    stats

namespace Sys

variable {cfg : Config} {s s₀ : Sys} {c : OWdClientBasic} {r k i : Nat} {fast : Socket}
  {E begin : Int} {stats : RoundStats} {forward reverse : Socket → Int} {a : Arrival}

/-! ## The whole record -/

/-- What a round with constant delays measures. -/
structure MeasuresDelays (stats : RoundStats) (forward reverse : Socket → Int) : Prop where
  realForward : stats.RealForwardDelay = forward
  realReverse : stats.RealReverseDelay = reverse
  rtt : stats.rtt = fun sock => forward sock + reverse sock

theorem MeasuredBy.delays (h : s.MeasuredBy stats a) (round : a.tag.round = r)
    (delays : ConstantDelays (s.receivedIn r) forward reverse) :
    stats.RealForwardDelay a.sock = forward a.sock ∧
      stats.RealReverseDelay a.sock = reverse a.sock ∧
      stats.rtt a.sock = forward a.sock + reverse a.sock := by
  have mem : a ∈ s.receivedIn r := List.mem_filter.mpr ⟨h.received, decide_eq_true round⟩
  have forwardEq := delays.forward a mem
  have reverseEq := delays.reverse a mem
  rw [h.forward, h.reverse, h.rtt]
  omega

theorem measuresDelays_of_forall (each : ∀ sock, stats.RealForwardDelay sock = forward sock ∧
    stats.RealReverseDelay sock = reverse sock ∧ stats.rtt sock = forward sock + reverse sock) :
    MeasuresDelays stats forward reverse :=
  ⟨funext fun sock => (each sock).1, funext fun sock => (each sock).2.1,
    funext fun sock => (each sock).2.2⟩

theorem RoundOver.sampled_measuresDelays (h : RoundOver cfg ⟨r, .sampling, begin⟩ c s stats)
    (onTime : s.OnTime) (delays : ConstantDelays (s.receivedIn r) forward reverse) :
    MeasuresDelays stats forward reverse := by
  refine measuresDelays_of_forall fun sock => ?_
  obtain ⟨a, tag, rfl, measured⟩ := h.sampled_measuredBy onTime sock
  exact measured.delays (congrArg PacketTag.round tag) delays

theorem RoundOver.estimated_measuresDelays
    (h : RoundOver cfg ⟨r, .estimation fast E, begin⟩ c s stats) (nonempty : 1 ≤ cfg.probes)
    (onTime : s.OnTime) (clocked : s.Clocked)
    (delays : ConstantDelays (s.receivedIn r) forward reverse) :
    MeasuresDelays stats forward reverse := by
  refine measuresDelays_of_forall fun sock => ?_
  rcases sock.eq_or_eq_other fast with rfl | rfl
  · obtain ⟨i, a, -, tag, rfl, -, measured⟩ := h.fast_measuredBy nonempty onTime clocked
    exact measured.delays (congrArg PacketTag.round tag) delays
  · obtain ⟨a, tag, sock, measured⟩ := h.slow_measuredBy onTime
    rw [← sock]
    exact measured.delays (congrArg PacketTag.round tag) delays

/-- The record collected so far, with an estimate. -/
theorem MeasuresDelays.with_estimate (h : MeasuresDelays stats forward reverse)
    (fresh : stats.estimates = RoundStats.new.estimates)
    (chosen : stats.ForwardFastSubflow = (fast : Nat)) (E' : Int) :
    { stats with EstimatedForwardDeltaOWD := E' } = measuredStats fast forward reverse E' := by
  simp only [RoundStats.estimates, Prod.mk.injEq] at fresh
  obtain ⟨reverseFast, reverseDelta, forwardDelay, reverseDelay⟩ := fresh
  unfold measuredStats
  ext1
  · rfl
  · exact reverseDelta
  · exact h.realForward
  · exact h.realReverse
  · exact h.rtt
  · exact forwardDelay
  · exact reverseDelay
  · exact chosen
  · exact reverseFast

section Whole

variable (h : RoundOver cfg ⟨r, .estimation fast E, begin⟩ c s stats)
  (round : SteadyRound cfg r fast E begin c s.servedLog (s.receivedIn r) forward reverse)
  (nonempty : 1 ≤ cfg.probes) (onTime : s.OnTime) (clocked : s.Clocked)

include h round nonempty onTime clocked

theorem RoundOver.collected_eq (E' : Int) :
    { collectedStats fast (replay (.estimation fast E) (s.receivedIn r) c) with
      EstimatedForwardDeltaOWD := E' } = measuredStats fast forward reverse E' := by
  have estimation : EstimationStarted cfg fast E begin c := h.kind
  have record : stats = finishedStats cfg fast (replay (.estimation fast E) (s.receivedIn r) c) :=
    h.record
  obtain ⟨realForward, realReverse, rtt⟩ := finishedStats_measurements cfg fast
    (replay (.estimation fast E) (s.receivedIn r) c)
  have measured := h.estimated_measuresDelays nonempty onTime clocked round.delays
  rw [record] at measured
  have collected : MeasuresDelays (collectedStats fast
      (replay (.estimation fast E) (s.receivedIn r) c)) forward reverse :=
    ⟨realForward ▸ measured.realForward, realReverse ▸ measured.realReverse,
      rtt ▸ measured.rtt⟩
  refine collected.with_estimate ?_ ?_ E'
  · rw [collectedStats_estimates, replay_estimates, estimation.fresh]
  · exact replay_m_forwardFastSubflow.trans estimation.chosen

/-- A round whose slow packet did not come between the probes. -/
theorem RoundOver.eq_measuredStats
    (outside : (replay (.estimation fast E) (s.receivedIn r) c).slowPacketPosition ≠
      .betweenProbes) :
    stats = measuredStats fast forward reverse stats.EstimatedForwardDeltaOWD := by
  have collected := h.collected_eq round nonempty onTime clocked stats.EstimatedForwardDeltaOWD
  have record : stats = finishedStats cfg fast (replay (.estimation fast E) (s.receivedIn r) c) :=
    h.record
  rw [← collected, record]
  unfold finishedStats
  cases position : (replay (.estimation fast E) (s.receivedIn r) c).slowPacketPosition with
  | afterProbes => rfl
  | beforeProbes => rfl
  | betweenProbes => exact absurd position outside

/-- A round whose slow packet came between the probes `i` and `i + 1`. -/
theorem RoundOver.eq_framedStats (lt : i + 1 < cfg.probes)
    (before : Before s.served (probeTag r i) (slowTag r))
    (after : ¬ Before s.served (probeTag r (i + 1)) (slowTag r))
    (between : (replay (.estimation fast E) (s.receivedIn r) c).slowPacketPosition =
      .betweenProbes) :
    let reverseDeltaOWD := (forward fast.other + reverse fast.other) -
      (cfg.probeOffset E i + cfg.gap + (forward fast + reverse fast))
    stats.EstimatedForwardDeltaOWD = cfg.probeOffset E i ∧
      stats = estimateDelays fast fast.other
        { measuredStats fast forward reverse (cfg.probeOffset E i) with
          ReverseFastSubflow := if reverseDeltaOWD ≤ 0 then (fast.other : Nat) else (fast : Nat)
          EstimatedReverseDeltaOWD := |reverseDeltaOWD| } := by
  intro reverseDeltaOWD
  have estimate := round.framedEstimate_eq_probeOffset lt before after
  have delta : _ = reverseDeltaOWD := (round.reverseDelta_eq lt before after).trans <| by
    rw [Config.probeOffset_succ, add_assoc (cfg.probeOffset E i + cfg.gap)]
  have collected := h.collected_eq round nonempty onTime clocked (cfg.probeOffset E i)
  have record : stats = framedStats cfg fast (replay (.estimation fast E) (s.receivedIn r) c)
      (collectedStats fast (replay (.estimation fast E) (s.receivedIn r) c)) :=
    h.record.trans (finishedStats_framed between)
  have whole : stats = estimateDelays fast fast.other
      { measuredStats fast forward reverse (cfg.probeOffset E i) with
        ReverseFastSubflow := if reverseDeltaOWD ≤ 0 then (fast.other : Nat) else (fast : Nat)
        EstimatedReverseDeltaOWD := |reverseDeltaOWD| } := by
    rw [record, ← collected]
    unfold framedStats
    dsimp only
    rw [delta, estimate, Time.abs, Int.natCast_natAbs]
  refine ⟨?_, whole⟩
  rw [whole, estimateDelays_estimate]
  rfl

/-- **The whole record.**  A round with constant delays whose slow packet ties neither
with the first nor with the last probe records what `steadyStats` says. -/
theorem RoundOver.eq_steadyStats
    (first : cfg.probeOffset E 0 ≠ forward fast.other - forward fast)
    (last : cfg.probeOffset E (cfg.probes - 1) ≠ forward fast.other - forward fast) :
    stats = steadyStats cfg fast forward reverse E stats.EstimatedForwardDeltaOWD := by
  have position := slowPacketPosition_eq h.started h.kind h.echoes round.positive
  by_cases between : (replay (.estimation fast E) (s.receivedIn r) c).slowPacketPosition =
      .betweenProbes
  · have framed := (h.framed_iff nonempty round.positive).mp between
    obtain ⟨i, lt, before, after⟩ := round.exists_framing_of_some framed.1 framed.2
    obtain ⟨estimate, whole⟩ :=
      h.eq_framedStats round nonempty onTime clocked lt before after between
    have low := round.offset_le_of_before (Nat.lt_of_succ_lt lt) before
    have high := round.le_offset_of_not_before lt after
    have lowest : cfg.probeOffset E 0 ≤ cfg.probeOffset E i :=
      Config.probeOffset_le (Nat.zero_le i)
    have highest : cfg.probeOffset E (i + 1) ≤ cfg.probeOffset E (cfg.probes - 1) :=
      Config.probeOffset_le (by omega)
    unfold steadyStats
    rw [if_pos ⟨lt_of_le_of_ne (lowest.trans low) first,
      lt_of_le_of_ne (high.trans highest) last.symm⟩, estimate]
    exact whole
  · have whole := h.eq_measuredStats round nonempty onTime clocked between
    unfold steadyStats
    rw [if_neg]
    · exact whole
    · rintro ⟨low, high⟩
      apply between
      rw [position, servedPosition, if_neg, if_neg]
      · intro all
        exact absurd (round.le_offset_of_not_before nonempty (all 0 nonempty)) (not_le.mpr low)
      · intro all
        exact absurd (round.offset_le_of_before (by omega) (all _ (by omega))) (not_le.mpr high)

end Whole

/-! ## What the four estimates are worth -/

/-- In a framed round the four estimates are off by half of what the reverse delay of
the reverse fast path exceeds the forward one of the forward fast path. -/
theorem SteadyRecord.bias {slowSent lastSent firstSent : Int}
    (h : SteadyRecord cfg s r fast forward reverse stats i slowSent lastSent firstSent) :
    ∃ reverseFast : Socket, stats.ReverseFastSubflow = (reverseFast : Nat) ∧
      ∀ sock,
        |2 * (stats.EstimatedForwardDelay sock - forward sock) -
            (reverse reverseFast - forward fast)| ≤ 2 * cfg.gap + 1 ∧
          |2 * (stats.EstimatedReverseDelay sock - reverse sock) +
            (reverse reverseFast - forward fast)| ≤ 2 * cfg.gap + 1 := by
  have low := h.low
  have high := h.high
  have gap := h.gap
  have positive := cfg.gap_pos
  rcases lt_or_ge (firstSent + forward fast + reverse fast)
    (slowSent + forward fast.other + reverse fast.other) with later | notLater
  · obtain ⟨chosen, halves⟩ := h.later later
    have near := abs_le.mp (Time.half_near (stats.rtt fast))
    refine ⟨fast, chosen, fun sock => ?_⟩
    rw [h.rtt] at near
    rcases sock.eq_or_eq_other fast with rfl | rfl
    · rw [halves.forward, halves.reverse, h.rtt, abs_le, abs_le]
      omega
    · rw [halves.forwardSlow, halves.reverseSlow, h.rtt, h.rtt, h.estimate, abs_le, abs_le]
      omega
  · obtain ⟨chosen, halves⟩ := h.notLater notLater
    have near := abs_le.mp
      (Time.half_near (stats.rtt fast.other - stats.EstimatedForwardDeltaOWD))
    refine ⟨fast.other, chosen, fun sock => ?_⟩
    rw [h.rtt, h.estimate] at near
    rcases sock.eq_or_eq_other fast with rfl | rfl
    · rw [halves.forward, halves.reverse, h.rtt, h.rtt, h.estimate, abs_le, abs_le]
      omega
    · rw [halves.forwardSlow, halves.reverseSlow, h.rtt, h.estimate, abs_le, abs_le]
      omega

/-- **What the four one-way estimates are worth.**  In a framed round with constant
delays all four estimates are off by one amount, the forward ones too long and the
reverse ones too short: half of what the reverse delay of the reverse fast path exceeds
the forward delay of the forward fast path, up to the 2 ms between two probes.  So none is
off by more than 2 ms when these two are equal, however far the two directions of either
path differ. -/
theorem estimates_bias (adm : cfg.Admissible) (start : Start cfg s₀)
    (reach : Reach (next cfg) Simulated s₀ s) (le : s₀.client.m_owdRoundStats.length ≤ k)
    (record : s.client.m_owdRoundStats[k]? = some stats)
    (delays : ConstantDelays (s.receivedIn (s.client.m_rttRoundStats.length + k)) forward reverse)
    (framed : s.Framed cfg (s.client.m_rttRoundStats.length + k)) :
    ∃ fast reverseFast : Socket, stats.ForwardFastSubflow = (fast : Nat) ∧
      stats.ReverseFastSubflow = (reverseFast : Nat) ∧
      (∀ sock,
        |2 * (stats.EstimatedForwardDelay sock - forward sock) -
            (reverse reverseFast - forward fast)| ≤ 2 * cfg.milliSeconds 2 + 1 ∧
          |2 * (stats.EstimatedReverseDelay sock - reverse sock) +
            (reverse reverseFast - forward fast)| ≤ 2 * cfg.milliSeconds 2 + 1) ∧
      (reverse reverseFast = forward fast → ∀ sock,
        |stats.EstimatedForwardDelay sock - forward sock| ≤ cfg.milliSeconds 2 ∧
          |stats.EstimatedReverseDelay sock - reverse sock| ≤ cfg.milliSeconds 2) := by
  obtain ⟨fast, E, begin, c, -, -, ended⟩ :=
    (start.reach adm reach).history.estimated k stats le record
  obtain ⟨i, slowSent, lastSent, firstSent, steady⟩ :=
    ended.steadyRecord adm start reach delays framed
  obtain ⟨reverseFast, chosen, bias⟩ := steady.bias
  refine ⟨fast, reverseFast, ended.estimated_fast, chosen, bias, fun equal sock => ?_⟩
  obtain ⟨forwardBias, reverseBias⟩ := bias sock
  rw [equal, sub_self, sub_zero, abs_le] at forwardBias
  rw [equal, sub_self, add_zero, abs_le] at reverseBias
  have two : cfg.milliSeconds 2 = cfg.gap := rfl
  rw [abs_le, abs_le, two]
  omega

theorem estimates_bias_framed : ∃ (s : Sys) (stats : RoundStats) (reverseFast : Socket),
    Reach (next .nanoseconds) Simulated (boot 0) s ∧
    s.client.m_owdRoundStats[0]? = some stats ∧
    stats.ReverseFastSubflow = ((reverseFast : Nat) : Int) ∧
    |2 * (stats.EstimatedForwardDelay 1 - 10) - ((if reverseFast = 1 then 20 else 5) - 10)| ≤
      2 * 2000000 + 1 := by
  obtain ⟨stats, record, chosen⟩ := framedRounds_record 0 (by decide)
  obtain ⟨fast, reverseFast, recorded, reverseChosen, bias, -⟩ :=
    estimates_bias Config.nanoseconds_admissible (.boot 0) framedRounds_reach (Nat.zero_le 0)
      record (framedRounds_delays 0 (by decide)) framedRounds_framed
  obtain rfl : (1 : Socket) = fast := Fin.ext (Int.ofNat_inj.mp (chosen.symm.trans recorded))
  exact ⟨_, stats, reverseFast, framedRounds_reach, record, reverseChosen, (bias 1).1⟩

end Sys

end OwdPacing
