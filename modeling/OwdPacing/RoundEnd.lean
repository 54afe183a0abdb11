import OwdPacing.ClientSpec

/-!
# The end of a round

`FinishRound` as one function of the state it runs on, `finishedStats`, and the
state in which the two receive handlers leave the client when they close a
round.
-/

namespace OwdPacing

open Container StateError

/-- The fields that only the framing branch writes. -/
def RoundStats.estimates (stats : RoundStats) : Int × Int × PerSocket Int × PerSocket Int :=
  (stats.ReverseFastSubflow, stats.EstimatedReverseDeltaOWD, stats.EstimatedForwardDelay,
    stats.EstimatedReverseDelay)

namespace OWdClientBasic

variable {cfg : Config} {c : OWdClientBasic} {now : Int} {fast : Socket}

/-! ## The record of an estimation round -/

/-- The loop over the probes leaves the delays of the last one. -/
theorem recordProbes_eq (probes : List (Int × PacketStats)) (stats : RoundStats) :
    recordProbes fast probes stats =
      match probes.getLast? with
      | none => stats
      | some probe =>
          { stats with
            RealForwardDelay :=
              Function.update stats.RealForwardDelay fast probe.2.RealForwardDelay
            RealReverseDelay :=
              Function.update stats.RealReverseDelay fast probe.2.RealReverseDelay } := by
  induction probes using List.reverseRecOn with
  | nil => rfl
  | append_singleton probes probe ih =>
      have last : recordProbes fast (probes ++ [probe]) stats =
          recordProbes fast [probe] (recordProbes fast probes stats) := List.foldl_append
      rw [last, ih, List.getLast?_concat]
      cases probes.getLast? with
      | none => rfl
      | some old =>
          simp only [recordProbes, List.foldl_cons, List.foldl_nil, Function.update_idem]

/-- The record after the loop over the probes, with the round-trip time of the fast subflow. -/
def collectedStats (fast : Socket) (c : OWdClientBasic) : RoundStats :=
  let stats := recordProbes fast c.m_probes.entries c.m_currentRoundStats
  { stats with
    ForwardFastSubflow := c.forwardFastSubflowId
    rtt := Function.update stats.rtt fast
      (stats.RealForwardDelay fast + stats.RealReverseDelay fast) }

/-- The departure time of the probe that arrived at `time`. -/
def departureAt (c : OWdClientBasic) (time : Int) : Int :=
  ((c.m_probes.find? time).getD .new).DepartureTime

/-- The estimate of a framed round: the departure of the last probe before the
slow packet, and three tenths of the way to the next one. -/
def framedEstimate (cfg : Config) (c : OWdClientBasic) : Int :=
  let before := c.departureAt c.m_arrivalTimeLastProbeBeforeSlowPath
  let after := c.departureAt c.m_arrivalTimeFirstProbeAfterSlowPath
  (before - c.m_slowPacket.2) +
    cfg.milliSeconds (threeTenths (cfg.getMilliSeconds (after - before)))

/-- The record of a framed round, from the record `stats` collected so far. -/
def framedStats (cfg : Config) (fast : Socket) (c : OWdClientBasic) (stats : RoundStats) :
    RoundStats :=
  let reverseDeltaOWD := c.m_slowPacket.1 - c.m_arrivalTimeFirstProbeAfterSlowPath
  estimateDelays fast fast.other
    { stats with
      ReverseFastSubflow :=
        if Time.IsNegative reverseDeltaOWD then (fast.other : Nat) else (fast : Nat)
      EstimatedReverseDeltaOWD := Time.abs reverseDeltaOWD
      EstimatedForwardDeltaOWD := framedEstimate cfg c }

/-- The record `FinishRound` returns. -/
def finishedStats (cfg : Config) (fast : Socket) (c : OWdClientBasic) : RoundStats :=
  match c.slowPacketPosition with
  | .afterProbes =>
      { collectedStats fast c with
        EstimatedForwardDeltaOWD := cfg.probeOffset c.previousEstimate (cfg.probes - 1) }
  | .beforeProbes =>
      { collectedStats fast c with
        EstimatedForwardDeltaOWD := cfg.probeOffset c.previousEstimate 0 }
  | .betweenProbes => framedStats cfg fast c (collectedStats fast c)

/-- Both framing probes are in the map. -/
def FramesFound (c : OWdClientBasic) : Prop :=
  (c.m_probes.find? c.m_arrivalTimeFirstProbeAfterSlowPath).isSome ∧
    (c.m_probes.find? c.m_arrivalTimeLastProbeBeforeSlowPath).isSome

theorem run_probeAt_bind {β : Type} {time : Int} (found : (c.m_probes.find? time).isSome)
    (f : PacketStats → ClientM β) :
    (probeAt time >>= f).run c = (f ((c.m_probes.find? time).getD .new)).run c := by
  obtain ⟨stats, eq⟩ := Option.isSome_iff_exists.mp found
  refine run_bind_ok ?_
  rw [probeAt, run_get_bind, SortedMap.getOrInsert_of_find? _ eq, eq]
  rfl

theorem run_modifyStats_bind {β : Type} (f : RoundStats → RoundStats) (g : PUnit → ClientM β) :
    (modifyStats f >>= g).run c =
      (g ⟨⟩).run { c with m_currentRoundStats := f c.m_currentRoundStats } := rfl

theorem run_finishFramedRound (cfg : Config) (chosen : c.m_forwardFastSubflow = (fast : Nat))
    (found : c.FramesFound) :
    (finishFramedRound cfg).run c =
      .ok () { c with m_currentRoundStats := framedStats cfg fast c c.m_currentRoundStats } := by
  rw [finishFramedRound, run_get_bind, run_probeAt_bind found.1, run_probeAt_bind found.2,
    run_bind_ok (run_forwardSlowSubflowId chosen)]
  dsimp only [forwardFastSubflowId]
  rw [run_modifyStats_bind, chosen, Socket.ofId_coe, Socket.ofId_coe]
  rfl

/-- The state in which `FinishRound` distinguishes the three cases. -/
def collected (fast : Socket) (c : OWdClientBasic) : OWdClientBasic :=
  { c with
    m_lowestRoundSeq := c.m_lowestRoundSeq + 2
    m_currentRoundStats := collectedStats fast c }

/-- The state `FinishRound` leaves. -/
def finished (cfg : Config) (fast : Socket) (c : OWdClientBasic) : OWdClientBasic :=
  { c with
    m_lowestRoundSeq := c.m_lowestRoundSeq + 2
    m_currentRoundStats := finishedStats cfg fast c }

/-- `GetProbeDelay` of the last probe, whose index fits `uint8_t`. -/
theorem run_getProbeDelay_last (h : c.Estimating) (adm : cfg.Admissible) :
    (getProbeDelay cfg (cfg.probesInARound - 1).toUInt8).run c =
      .ok (cfg.probeOffset c.previousEstimate (cfg.probes - 1)) c := by
  have nonempty : 1 ≤ cfg.probes := adm.probes_pos
  have few : cfg.probes ≤ 255 := adm.probes_le
  have last : (cfg.probesInARound - 1).toUInt8.toNat = cfg.probes - 1 := by
    have sub : (cfg.probesInARound - 1).toNat = cfg.probes - 1 :=
      UInt32.toNat_sub_of_le _ _ (by simpa [UInt32.le_iff_toNat_le] using nonempty)
    rw [UInt32.toNat_toUInt8, sub]
    omega
  have delay := run_getProbeDelay cfg h (i := (cfg.probesInARound - 1).toUInt8) (by omega)
  rwa [last] at delay

/-- And of the first. -/
theorem run_getProbeDelay_first (h : c.Estimating) (adm : cfg.Admissible) :
    (getProbeDelay cfg 0).run c = .ok (cfg.probeOffset c.previousEstimate 0) c :=
  run_getProbeDelay cfg h (i := 0) adm.probes_pos

theorem run_finishRound (h : c.Estimating) (idle : c.m_inflight = 0) (adm : cfg.Admissible)
    (chosen : c.m_forwardFastSubflow = (fast : Nat))
    (found : c.slowPacketPosition = .betweenProbes → c.FramesFound) :
    (finishRound cfg).run c = .ok (finishedStats cfg fast c) (finished cfg fast c) := by
  have later : (collected fast c).Estimating := ⟨h.mode, h.sampled, h.estimate⟩
  have slot : Socket.ofId c.m_forwardFastSubflow = fast := by rw [chosen, Socket.ofId_coe]
  have same : ∀ seq, { c with m_lowestRoundSeq := seq }.slowPacketPosition =
      c.slowPacketPosition := fun _ => rfl
  rw [finishRound, run_get_bind, run_nsAssert_bind idle, run_modify_bind, run_get_bind]
  dsimp only [forwardFastSubflowId]
  rw [run_modifyStats_bind, run_modifyStats_bind, same, slot, finished, finishedStats]
  cases position : c.slowPacketPosition with
  | afterProbes => exact run_bind_ok (run_getProbeDelay_last later adm)
  | beforeProbes => exact run_bind_ok (run_getProbeDelay_first later adm)
  | betweenProbes =>
      have framed := run_finishFramedRound cfg (c := collected fast c) chosen
        (found position)
      exact run_bind_ok framed

/-! ## Closing a round -/

/-- The client when `EstimateOWDRecv` has stored the record of the round. -/
def owdClosed (cfg : Config) (fast : Socket) (c : OWdClientBasic) : OWdClientBasic :=
  { finished cfg fast c with m_owdRoundStats := c.m_owdRoundStats ++ [finishedStats cfg fast c] }

/-- The client when `SamplingRTTRecv` has stored the record of the round. -/
def rttClosed (c : OWdClientBasic) : OWdClientBasic :=
  { c with
    m_lowestRoundSeq := c.m_lowestRoundSeq + 2
    m_rttRoundStats := c.m_rttRoundStats ++ [c.m_currentRoundStats] }

/-- The client when `ChangeMode` has switched to estimation. -/
def rttSwitched (c : OWdClientBasic) : OWdClientBasic :=
  { rttClosed c with m_currentMode := .OWDEstimation }

theorem estimateDelays_estimate (fast slow : Socket) (stats : RoundStats) :
    (estimateDelays fast slow stats).EstimatedForwardDeltaOWD = stats.EstimatedForwardDeltaOWD := by
  rw [estimateDelays]; split_ifs <;> rfl

theorem estimateDelays_forwardFastSubflow (fast slow : Socket) (stats : RoundStats) :
    (estimateDelays fast slow stats).ForwardFastSubflow = stats.ForwardFastSubflow := by
  rw [estimateDelays]; split_ifs <;> rfl

theorem estimateDelays_reverseFastSubflow (fast slow : Socket) (stats : RoundStats) :
    (estimateDelays fast slow stats).ReverseFastSubflow = stats.ReverseFastSubflow := by
  rw [estimateDelays]; split_ifs <;> rfl

/-- The forward estimate of the record of a round. -/
def nextEstimate (cfg : Config) (c : OWdClientBasic) : Int :=
  match c.slowPacketPosition with
  | .afterProbes => cfg.probeOffset c.previousEstimate (cfg.probes - 1)
  | .beforeProbes => cfg.probeOffset c.previousEstimate 0
  | .betweenProbes => framedEstimate cfg c

theorem finishedStats_estimate (cfg : Config) (fast : Socket) (c : OWdClientBasic) :
    (finishedStats cfg fast c).EstimatedForwardDeltaOWD = nextEstimate cfg c := by
  rw [finishedStats, nextEstimate]
  cases c.slowPacketPosition with
  | afterProbes => rfl
  | beforeProbes => rfl
  | betweenProbes => exact estimateDelays_estimate _ _ _

theorem estimateDelays_reverse (fast slow : Socket) (stats : RoundStats) :
    (estimateDelays fast slow stats).EstimatedReverseDeltaOWD = stats.EstimatedReverseDeltaOWD := by
  rw [estimateDelays]; split_ifs <;> rfl

theorem collectedStats_estimates :
    (collectedStats fast c).estimates = c.m_currentRoundStats.estimates := by
  dsimp only [collectedStats, RoundStats.estimates]
  rw [recordProbes_eq]
  cases c.m_probes.entries.getLast? <;> rfl

theorem collectedStats_reverse :
    (collectedStats fast c).EstimatedReverseDeltaOWD =
      c.m_currentRoundStats.EstimatedReverseDeltaOWD :=
  congrArg (fun estimates => estimates.2.1) collectedStats_estimates

/-- A round that is not framed leaves them. -/
theorem finishedStats_estimates (outside : c.slowPacketPosition ≠ .betweenProbes) :
    (finishedStats cfg fast c).estimates = c.m_currentRoundStats.estimates := by
  unfold finishedStats
  cases position : c.slowPacketPosition with
  | afterProbes => exact collectedStats_estimates
  | beforeProbes => exact collectedStats_estimates
  | betweenProbes => exact absurd position outside

/-- And so the reverse fast subflow of a fresh record stays unknown. -/
theorem finishedStats_reverse_unknown
    (fresh : c.m_currentRoundStats.estimates = RoundStats.new.estimates)
    (outside : c.slowPacketPosition ≠ .betweenProbes) :
    (finishedStats cfg fast c).ReverseFastSubflow = -1 :=
  congrArg Prod.fst ((finishedStats_estimates outside).trans fresh)

theorem finishedStats_framed (between : c.slowPacketPosition = .betweenProbes) :
    finishedStats cfg fast c = framedStats cfg fast c (collectedStats fast c) := by
  rw [finishedStats, between]

/-- The sign test of the framing branch. -/
theorem framedStats_reverseFastSubflow (stats : RoundStats) :
    (framedStats cfg fast c stats).ReverseFastSubflow =
      if c.m_slowPacket.1 - c.m_arrivalTimeFirstProbeAfterSlowPath ≤ 0 then
        ((fast.other : Nat) : Int) else ((fast : Nat) : Int) :=
  estimateDelays_reverseFastSubflow ..

/-- What `FinishRound` records when it finds all probes before the slow packet. -/
theorem finishedStats_afterProbes (h : c.Estimating) (adm : cfg.Admissible)
    (fresh : c.m_currentRoundStats.estimates = RoundStats.new.estimates)
    (after : c.slowPacketPosition = .afterProbes) :
    (getProbeDelay cfg (cfg.probesInARound - 1).toUInt8).run c =
        .ok (finishedStats cfg fast c).EstimatedForwardDeltaOWD c ∧
      (finishedStats cfg fast c).ReverseFastSubflow = -1 := by
  constructor
  · rw [run_getProbeDelay_last h adm, finishedStats_estimate, nextEstimate, after]
  · apply finishedStats_reverse_unknown fresh
    rw [after]
    exact nofun

/-- When it finds all of them after it. -/
theorem finishedStats_beforeProbes (h : c.Estimating) (adm : cfg.Admissible)
    (fresh : c.m_currentRoundStats.estimates = RoundStats.new.estimates)
    (before : c.slowPacketPosition = .beforeProbes) :
    (getProbeDelay cfg 0).run c = .ok (finishedStats cfg fast c).EstimatedForwardDeltaOWD c ∧
      (finishedStats cfg fast c).ReverseFastSubflow = -1 := by
  constructor
  · rw [run_getProbeDelay_first h adm, finishedStats_estimate, nextEstimate, before]
  · apply finishedStats_reverse_unknown fresh
    rw [before]
    exact nofun

/-- And when it finds the slow packet between two of them. -/
theorem finishedStats_betweenProbes (between : c.slowPacketPosition = .betweenProbes) :
    (finishedStats cfg fast c).EstimatedForwardDeltaOWD = framedEstimate cfg c ∧
      0 ≤ (finishedStats cfg fast c).ReverseFastSubflow := by
  constructor
  · rw [finishedStats_estimate, nextEstimate, between]
  · rw [finishedStats_framed between, framedStats_reverseFastSubflow]
    split_ifs
    · exact Int.natCast_nonneg _
    · exact Int.natCast_nonneg _

theorem estimateDelays_measurements (fast slow : Socket) (stats : RoundStats) :
    (estimateDelays fast slow stats).RealForwardDelay = stats.RealForwardDelay ∧
      (estimateDelays fast slow stats).RealReverseDelay = stats.RealReverseDelay ∧
      (estimateDelays fast slow stats).rtt = stats.rtt := by
  unfold estimateDelays
  split_ifs <;> exact ⟨rfl, rfl, rfl⟩

/-- What follows the loop over the probes leaves the measurements alone. -/
theorem finishedStats_measurements (cfg : Config) (fast : Socket) (c : OWdClientBasic) :
    (finishedStats cfg fast c).RealForwardDelay = (collectedStats fast c).RealForwardDelay ∧
      (finishedStats cfg fast c).RealReverseDelay = (collectedStats fast c).RealReverseDelay ∧
      (finishedStats cfg fast c).rtt = (collectedStats fast c).rtt := by
  unfold finishedStats
  cases c.slowPacketPosition with
  | afterProbes => exact ⟨rfl, rfl, rfl⟩
  | beforeProbes => exact ⟨rfl, rfl, rfl⟩
  | betweenProbes => exact estimateDelays_measurements _ _ _

/-- The measurements of the slow subflow are those of the slow packet. -/
theorem finishedStats_slow (cfg : Config) (fast : Socket) (c : OWdClientBasic) :
    (finishedStats cfg fast c).RealForwardDelay fast.other =
        c.m_currentRoundStats.RealForwardDelay fast.other ∧
      (finishedStats cfg fast c).RealReverseDelay fast.other =
        c.m_currentRoundStats.RealReverseDelay fast.other ∧
      (finishedStats cfg fast c).rtt fast.other = c.m_currentRoundStats.rtt fast.other := by
  obtain ⟨forward, reverse, rtt⟩ := finishedStats_measurements cfg fast c
  rw [forward, reverse, rtt]
  dsimp only [collectedStats]
  rw [recordProbes_eq, Function.update_of_ne fast.other_ne]
  cases c.m_probes.entries.getLast? with
  | none => exact ⟨rfl, rfl, rfl⟩
  | some probe =>
      exact ⟨Function.update_of_ne fast.other_ne .., Function.update_of_ne fast.other_ne .., rfl⟩

/-- The measurements of the fast subflow are those of the last probe in the map. -/
theorem finishedStats_fast (cfg : Config) (fast : Socket) {probe : Int × PacketStats}
    (last : c.m_probes.entries.getLast? = some probe) :
    (finishedStats cfg fast c).RealForwardDelay fast = probe.2.RealForwardDelay ∧
      (finishedStats cfg fast c).RealReverseDelay fast = probe.2.RealReverseDelay ∧
      (finishedStats cfg fast c).rtt fast =
        probe.2.RealForwardDelay + probe.2.RealReverseDelay := by
  obtain ⟨forward, reverse, rtt⟩ := finishedStats_measurements cfg fast c
  rw [forward, reverse, rtt]
  dsimp only [collectedStats]
  rw [recordProbes_eq, last, Function.update_self]
  dsimp only
  rw [Function.update_self, Function.update_self]
  exact ⟨rfl, rfl, rfl⟩

/-- The reverse estimate of a record is an absolute value, or the one of the fresh record. -/
theorem finishedStats_reverse_nonneg
    (fresh : c.m_currentRoundStats.EstimatedReverseDeltaOWD = 0) :
    0 ≤ (finishedStats cfg fast c).EstimatedReverseDeltaOWD := by
  unfold finishedStats
  cases c.slowPacketPosition with
  | afterProbes => exact (collectedStats_reverse.trans fresh).ge
  | beforeProbes => exact (collectedStats_reverse.trans fresh).ge
  | betweenProbes =>
      dsimp only [framedStats]
      rw [estimateDelays_reverse]
      exact Int.natCast_nonneg _

theorem finishedStats_forwardFastSubflow (cfg : Config) (fast : Socket) (c : OWdClientBasic) :
    (finishedStats cfg fast c).ForwardFastSubflow = c.m_forwardFastSubflow := by
  unfold finishedStats
  cases c.slowPacketPosition with
  | afterProbes => rfl
  | beforeProbes => rfl
  | betweenProbes => exact estimateDelays_forwardFastSubflow _ _ _

theorem back_append (records : List RoundStats) (stats : RoundStats) :
    back (records ++ [stats]) = stats := by
  rw [back, List.getLast?_concat, Option.getD_some]

theorem owdClosed_previousEstimate :
    (owdClosed cfg fast c).previousEstimate = nextEstimate cfg c := by
  rw [previousEstimate, if_neg (by simp [owdClosed]), ← finishedStats_estimate cfg fast]
  exact congrArg _ (back_append _ _)

theorem owdClosed_chosenFastSubflow :
    (owdClosed cfg fast c).chosenFastSubflow = c.m_forwardFastSubflow := by
  rw [chosenFastSubflow, if_neg (by simp [owdClosed]),
    ← finishedStats_forwardFastSubflow cfg fast]
  exact congrArg _ (back_append _ _)

/-- The end of an estimation round: the dump after the last one, else the next round. -/
theorem run_closeOwdRound (h : c.Estimating) (idle : c.m_inflight = 0) (adm : cfg.Admissible)
    (chosen : c.m_forwardFastSubflow = (fast : Nat))
    (found : c.slowPacketPosition = .betweenProbes → c.FramesFound)
    (estimate : 0 ≤ nextEstimate cfg c) :
    (closeOwdRound cfg now).run c =
      if cfg.owdMaxRounds.toNat ≤ c.m_owdRoundStats.length + 1 then
        .ok () ((owdClosed cfg fast c).ask [.dumpOwdSamples (owdClosed cfg fast c).m_owdRoundStats])
      else .ok () (estimationStarted cfg fast now (owdClosed cfg fast c)) := by
  have rounds := adm.rounds_le
  have bound : asInt cfg.owdMaxRounds = cfg.owdMaxRounds.toNat := asInt_of_lt (by omega)
  have done : (owdClosed cfg fast c).reachedConvergence cfg ↔
      cfg.owdMaxRounds.toNat ≤ c.m_owdRoundStats.length + 1 := by
    have mode : (owdClosed cfg fast c).m_currentMode = .OWDEstimation := h.mode
    have count : (owdClosed cfg fast c).m_owdRoundStats.length = c.m_owdRoundStats.length + 1 := by
      rw [owdClosed, List.length_append, List.length_singleton]
    rw [reachedConvergence, bound, getRoundNo, mode]
    dsimp only
    rw [count, ge_iff_le, Int.ofNat_le]
  have later : (owdClosed cfg fast c).Estimating :=
    ⟨h.mode, h.sampled, owdClosed_previousEstimate ▸ estimate⟩
  have start := run_startNewOwdEstimationRound now fast later idle adm.probes_le
    (owdClosed_chosenFastSubflow.trans chosen)
  rw [closeOwdRound, run_bind_ok (run_finishRound h idle adm chosen found), run_modify_bind,
    run_get_bind]
  change EStateM.run (if (owdClosed cfg fast c).reachedConvergence cfg then _ else _)
    (owdClosed cfg fast c) = _
  simp only [done]
  split_ifs
  · rfl
  · exact start

/-- The end of an RTT round: the next one, or the switch to estimation, which
needs a fast subflow. -/
theorem run_closeRttRound (mode : c.m_currentMode = .RTTSampling) (idle : c.m_inflight = 0)
    (adm : cfg.Admissible) :
    (closeRttRound cfg now).run c =
      if cfg.sampleRTTmaxRounds.toNat ≤ c.m_rttRoundStats.length + 1 then
        (startNewOwdEstimationRound cfg now).run (rttSwitched c)
      else .ok () (samplingStarted now (rttClosed c)) := by
  have rounds := adm.rounds_le
  have bound : asInt cfg.sampleRTTmaxRounds = cfg.sampleRTTmaxRounds.toNat :=
    asInt_of_lt (by omega)
  have count : (rttClosed c).getRoundNo = (c.m_rttRoundStats.length + 1 : Nat) := by
    have mode : (rttClosed c).m_currentMode = .RTTSampling := mode
    rw [getRoundNo, mode]
    simp [rttClosed]
  rw [closeRttRound, finishRttRound]
  simp only [bind_assoc, pure_bind]
  rw [run_modify_bind, run_get_bind, run_modify_bind, run_get_bind]
  change EStateM.run (if (rttClosed c).getRoundNo ≥ _ then _ else _) (rttClosed c) = _
  simp only [count, bound, ge_iff_le, Int.ofNat_le]
  split_ifs
  · have still : (rttClosed c).m_inflight = 0 := idle
    unfold changeMode
    simp only [bind_assoc]
    rw [run_get_bind, run_nsAssert_bind still, run_modify_bind]
    rfl
  · exact run_sampleRTTStart mode idle

end OWdClientBasic

end OwdPacing
