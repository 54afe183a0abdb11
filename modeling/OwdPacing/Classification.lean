import OwdPacing.Clock

/-!
# Probes before and after the slow packet

The sequence number of a probe's echo tells whether the server processed the
probe before the slow packet of its round, and `FinishRound` distinguishes its
three cases by the order in which the server processed the packets.
-/

namespace OwdPacing

open Container OWdClientBasic Round Runs StateError

namespace Sys

variable {cfg : Config} {earlier : Nat} {ρ : Round} {s s₀ : Sys} {c c₀ c₁ : OWdClientBasic}
  {e : Event} {p : Packet} {i r : Nat} {fast : Socket} {E start sentAt servedAt : Int}
  {seqTs : SeqTsHeader}

/-! ## An estimation round in progress -/

/-- In estimation mode the round in progress is an estimation round. -/
theorem Running.estimation (run : s.Running cfg earlier ρ c)
    (mode : s.client.m_currentMode = .OWDEstimation) :
    ∃ fast E start, ρ = ⟨s.client.roundsDone, .estimation fast E, start⟩ ∧
      EstimationStarted cfg fast E start c ∧ s.client.m_forwardFastSubflow = (fast : Nat) := by
  have number := run.roundsDone
  have kind := run.kind
  rcases ρ with ⟨r, _ | ⟨fast, E⟩, start⟩
  · have sampling : SamplingStarted cfg c := kind
    rw [run.sameRound.mode, sampling.mode] at mode
    cases mode
  · obtain rfl : s.client.roundsDone = r := number
    have estimation : EstimationStarted cfg fast E start c := kind
    refine ⟨fast, E, start, rfl, estimation, ?_⟩
    rw [run.client, replay_m_forwardFastSubflow]
    exact estimation.chosen

/-! ## The end of an estimation round -/

/-- The event hands the client the last echo of an estimation round: `FinishRound`
runs on `c`. -/
def Finishes (s : Sys) (e : Event) (c : OWdClientBasic) : Prop :=
  s.halted = none ∧ s.client.m_currentMode = .OWDEstimation ∧
    ∃ p seqTs sentAt servedAt, s.packets[e.packet]? = some p ∧
      p.stage = .toClient seqTs sentAt servedAt ∧
      (recordOwdEcho e.time p.sock seqTs).run s.client.decrement = .ok () c ∧ c.m_inflight = 0

/-- The round in progress is then an estimation round, and the client has all its echoes. -/
theorem Invariant.finishes (h : s.Invariant cfg c₀) (adm : cfg.Admissible)
    (finishes : s.Finishes e c₁) :
    ∃ fast E start c p seqTs sentAt servedAt,
      s.packets[e.packet]? = some p ∧ p.stage = .toClient seqTs sentAt servedAt ∧
      s.Running cfg (volume cfg c₀) ⟨s.client.roundsDone, .estimation fast E, start⟩ c ∧
      TakenIn cfg (volume cfg c₀) ⟨s.client.roundsDone, .estimation fast E, start⟩ c
        (s.deliver e.time e.packet p seqTs sentAt servedAt) c₁ ∧
      Closes cfg (volume cfg c₀) ⟨s.client.roundsDone, .estimation fast E, start⟩ c e.time
        (s.deliver e.time e.packet p seqTs sentAt servedAt)
        (s.recv cfg e.time e.packet p seqTs sentAt servedAt) := by
  obtain ⟨-, mode, p, seqTs, sentAt, servedAt, get, stage, recorded, idle⟩ := finishes
  obtain ⟨ρ, c, run⟩ :=
    h.running (List.mem_of_getElem? get) (Carries.outstanding_of_toClient stage)
  obtain ⟨fast, E, start, rfl, -, chosen⟩ := run.estimation mode
  have taken : c₁ = replay (.estimation fast E)
      ((s.deliver e.time e.packet p seqTs sentAt servedAt).receivedIn s.client.roundsDone) c := by
    rw [run_recordOwdEcho (c := s.client.decrement) chosen] at recorded
    cases recorded
    rw [(run.carries.deliver e.time get stage).2.1, replay_concat, ← run.client]
    rfl
  have one : s.outstanding = 1 := by
    rw [← run.inflight_sub_one_eq_zero, ← idle, taken,
      (run.carries.deliver e.time get stage).2.1, replay_concat, echoed_m_inflight, ← run.client]
  have last := run.takenIn e.time adm.probes_pos get stage one
  exact ⟨fast, E, start, c, p, seqTs, sentAt, servedAt, get, stage, run, taken ▸ last,
    run.close e.time adm get stage one⟩

/-- The step of the last echo stores the record that `FinishRound` returns. -/
theorem Invariant.stores_of_finishes (h : s.Invariant cfg c₀) (adm : cfg.Admissible)
    (finishes : s.Finishes e c₁) :
    ∃ fast s', s.next cfg e = some s' ∧
      (finishRound cfg).run c₁ = .ok (finishedStats cfg fast c₁) (finished cfg fast c₁) ∧
      s'.client.m_owdRoundStats = s.client.m_owdRoundStats ++ [finishedStats cfg fast c₁] ∧
      c₁.Estimating ∧ c₁.m_currentRoundStats.estimates = RoundStats.new.estimates := by
  obtain ⟨fast, E, start, c, p, seqTs, sentAt, servedAt, get, stage, run, taken, closes⟩ :=
    h.finishes adm finishes
  have estimation : EstimationStarted cfg fast E start c := taken.kind
  obtain ⟨estimating, chosen, found⟩ := taken.readyToFinish
  obtain ⟨-, owd⟩ := closes.stores
  rw [taken.replayed_of_closes closes] at owd
  refine ⟨fast, _, next_of_toClient finishes.1 get stage,
    run_finishRound estimating taken.idle adm chosen found, ?_, estimating, ?_⟩
  · exact owd.trans (congrArg (· ++ _) run.sameRound.owd.symm)
  · rw [← taken.replayed, replay_estimates, estimation.fresh]

/-! ## The order of service -/

/-- The echo of a packet on its way back, in an estimation round. -/
theorem Running.echo_of_probe (h : s.Running cfg earlier ⟨r, .estimation fast E, start⟩ c)
    (mem : p ∈ s.packets) (tag : p.tag = probeTag r i)
    (stage : p.stage = .toClient seqTs sentAt servedAt) :
    p.sock = fast ∧ seqTs.seq =
      if s.ServedBefore (probeTag r i) (slowTag r) then lowSeq r else lowSeq r + 1 := by
  have planned := h.carries.planned mem (Carries.outstanding_of_toClient stage)
  have echo := (h.carries.toClient p mem seqTs sentAt servedAt stage).seq
  rcases mem_plan_estimation.mp planned with call | ⟨j, -, call⟩
  · have slow : p.tag = slowTag r := congrArg SendCall.tag call
    rw [slow] at tag
    exact absurd tag.symm (probeTag_ne_slowTag r i)
  · refine ⟨congrArg SendCall.sock call, ?_⟩
    rw [echo, tag, echoSeq, if_neg (by simp [probeTag, high, Round.tag])]
    rfl

/-- In an estimation round the echo of a probe on its way back says whether the
server processed the probe before the slow packet. -/
theorem Invariant.echo_of_probe (h : s.Invariant cfg c₀)
    (mode : s.client.m_currentMode = .OWDEstimation) (mem : p ∈ s.packets)
    (tag : p.tag = probeTag s.client.roundsDone i)
    (stage : p.stage = .toClient seqTs sentAt servedAt) :
    ((p.sock : Nat) : Int) = s.client.forwardFastSubflowId ∧
      (seqTs.seq = s.client.m_lowestRoundSeq ↔
        s.ServedBefore p.tag (slowTag s.client.roundsDone)) ∧
      (¬ s.ServedBefore p.tag (slowTag s.client.roundsDone) →
        seqTs.seq = s.client.m_lowestRoundSeq + 1) := by
  obtain ⟨ρ, c, run⟩ := h.running mem (Carries.outstanding_of_toClient stage)
  have low := run.sameRound.low.trans run.started.low
  obtain ⟨fast, E, begin, rfl, -, chosen⟩ := run.estimation mode
  obtain ⟨sock, seq⟩ := run.echo_of_probe mem tag stage
  rw [sock, forwardFastSubflowId, chosen, low, tag, seq]
  refine ⟨rfl, ?_, fun after => if_neg after⟩
  split_ifs with before
  · exact iff_of_true rfl before
  · exact iff_of_false (lowSeq_add_one_ne _) before

/-- At the end of an estimation round `FinishRound` finds the slow packet where the
server processed it. -/
theorem slowPacketPosition_of_finishes (adm : cfg.Admissible) (start : Start cfg s₀)
    (reach : Reach (next cfg) ArrivalsPositive s₀ s) (positive : s.ArrivalsPositive e)
    (finishes : s.Finishes e c) :
    c.slowPacketPosition = servedPosition cfg s.served s.client.roundsDone ∧
      ∀ i < cfg.probes, s.ServedBefore (slowTag s.client.roundsDone)
          (probeTag s.client.roundsDone i) ↔
        ¬ s.ServedBefore (probeTag s.client.roundsDone i) (slowTag s.client.roundsDone) := by
  obtain ⟨fast, E, begin, c₁, p, seqTs, sentAt, servedAt, get, stage, -, taken, -⟩ :=
    (start.reach adm reach).finishes adm finishes
  have late : 0 < e.time := positive (by rw [get, Option.any_some, stage]; rfl)
  have arrivals : ∀ a ∈ (s.deliver e.time e.packet p seqTs sentAt servedAt).receivedIn
      s.client.roundsDone, 0 < a.time := by
    intro a mem
    rcases List.mem_append.mp (List.mem_of_mem_filter mem) with old | new
    · exact start.arrivals_positive adm reach a old
    · rw [List.mem_singleton.mp new]
      exact late
  have position := slowPacketPosition_eq taken.started taken.kind taken.echoes arrivals
  rw [← taken.replayed, position]
  exact ⟨rfl, fun i lt => taken.echoes.slow_before_iff lt⟩

/-- **Probes before and after the slow packet.**  The echo of a probe on its way
back carries the lowest number of the round exactly when the server processed the
probe before the slow packet, and the next number otherwise; and at the end of
the round `FinishRound` finds all probes before, all after, or the slow packet
between two, exactly when the server processed them so.  The step then adds the
record it returns: the delay of the last probe, the delay of the first one, and the
estimate between the framing probes with a reverse fast subflow. -/
theorem probe_classification (adm : cfg.Admissible) (start : Start cfg s₀)
    (reach : Reach (next cfg) ArrivalsPositive s₀ s) :
    (∀ p ∈ s.packets, ∀ i seqTs sentAt servedAt, s.client.m_currentMode = .OWDEstimation →
      p.tag = probeTag s.client.roundsDone i → p.stage = .toClient seqTs sentAt servedAt →
      ((p.sock : Nat) : Int) = s.client.forwardFastSubflowId ∧
      (seqTs.seq = s.client.m_lowestRoundSeq ↔
        s.ServedBefore p.tag (slowTag s.client.roundsDone)) ∧
      (¬ s.ServedBefore p.tag (slowTag s.client.roundsDone) →
        seqTs.seq = s.client.m_lowestRoundSeq + 1)) ∧
    ∀ e c, s.ArrivalsPositive e → s.Finishes e c →
      (c.slowPacketPosition = .afterProbes ↔ ∀ i < cfg.probes,
        s.ServedBefore (probeTag s.client.roundsDone i) (slowTag s.client.roundsDone)) ∧
      (c.slowPacketPosition = .beforeProbes ↔ ∀ i < cfg.probes,
        s.ServedBefore (slowTag s.client.roundsDone) (probeTag s.client.roundsDone i)) ∧
      (c.slowPacketPosition = .betweenProbes ↔
        (∃ i < cfg.probes,
          s.ServedBefore (probeTag s.client.roundsDone i) (slowTag s.client.roundsDone)) ∧
        ∃ i < cfg.probes,
          s.ServedBefore (slowTag s.client.roundsDone) (probeTag s.client.roundsDone i)) ∧
      ∃ s' c' stats, s.next cfg e = some s' ∧ (finishRound cfg).run c = .ok stats c' ∧
        s'.client.m_owdRoundStats = s.client.m_owdRoundStats ++ [stats] ∧
        ((∀ i < cfg.probes,
            s.ServedBefore (probeTag s.client.roundsDone i) (slowTag s.client.roundsDone)) →
          (getProbeDelay cfg (cfg.probesInARound - 1).toUInt8).run c =
            .ok stats.EstimatedForwardDeltaOWD c ∧ stats.ReverseFastSubflow = -1) ∧
        ((∀ i < cfg.probes,
            s.ServedBefore (slowTag s.client.roundsDone) (probeTag s.client.roundsDone i)) →
          (getProbeDelay cfg 0).run c = .ok stats.EstimatedForwardDeltaOWD c ∧
            stats.ReverseFastSubflow = -1) ∧
        ((∃ i < cfg.probes,
            s.ServedBefore (probeTag s.client.roundsDone i) (slowTag s.client.roundsDone)) ∧
          (∃ i < cfg.probes,
            s.ServedBefore (slowTag s.client.roundsDone) (probeTag s.client.roundsDone i)) →
          stats.EstimatedForwardDeltaOWD = framedEstimate cfg c ∧
            0 ≤ stats.ReverseFastSubflow) := by
  have inv := start.reach adm reach
  constructor
  · intro p mem i seqTs sentAt servedAt mode tag stage
    exact inv.echo_of_probe mode mem tag stage
  · intro e c positive finishes
    obtain ⟨position, order⟩ :=
      slowPacketPosition_of_finishes adm start reach positive finishes
    obtain ⟨fast, s', step, run, stored, estimating, fresh⟩ :=
      inv.stores_of_finishes adm finishes
    have cases := servedPosition_iff adm.probes_pos order
    rw [← position] at cases
    obtain ⟨allBefore, allAfter, between⟩ := cases
    refine ⟨allBefore, allAfter, between, s', _, _, step, run, stored, ?_, ?_, ?_⟩
    · intro all
      exact finishedStats_afterProbes estimating adm fresh (allBefore.mpr all)
    · intro all
      exact finishedStats_beforeProbes estimating adm fresh (allAfter.mpr all)
    · intro both
      exact finishedStats_betweenProbes (between.mpr both)

/-- A run up to the last echo of the first estimation round.  The slow packet takes
3 ms longer than the probes and comes between the second and the third. -/
def framedRound : List Event :=
  socketOneFirst ++ [⟨40, 3⟩, ⟨50, 3⟩, ⟨70, 3⟩, ⟨2000040, 4⟩, ⟨2000050, 4⟩, ⟨2000070, 4⟩,
    ⟨3000050, 2⟩, ⟨3000055, 2⟩, ⟨4000040, 5⟩, ⟨4000050, 5⟩]

/-- The receipt of that echo. -/
def framedRoundEnd : Event := ⟨4000070, 5⟩

/-- The packet of that echo, and its header. -/
def framedRoundLast : Packet :=
  ⟨⟨probeTag 1 2, 1, 3, 4000040⟩, .toClient ⟨4, 4000050, 4000040⟩ 4000040 4000050⟩

theorem framedRound_finishes :
    (final (next .nanoseconds) framedRound (boot 0)).Finishes framedRoundEnd
      (owdEchoed 1 4000070 1 ⟨4, 4000050, 4000040⟩
        (final (next .nanoseconds) framedRound (boot 0)).client.decrement) := by
  have fastIsOne : (final (next .nanoseconds) framedRound
      (boot 0)).client.decrement.m_forwardFastSubflow = ((1 : Socket) : Nat) := by decide +kernel
  refine ⟨by decide +kernel, by decide +kernel, framedRoundLast, _, _, _, by decide +kernel, rfl,
    run_recordOwdEcho fastIsOne _ _, by decide +kernel⟩

/-- The round is framed: the step records a forward difference of 2 ms. -/
theorem probe_classification_framed : ∃ s e c s' stats,
    Reach (next .nanoseconds) ArrivalsPositive (boot 0) s ∧ s.Finishes e c ∧
      c.slowPacketPosition = .betweenProbes ∧
      (∃ i < Config.nanoseconds.probes, s.ServedBefore (slowTag 1) (probeTag 1 i)) ∧
      s.next .nanoseconds e = some s' ∧ s'.client.m_owdRoundStats = [stats] ∧
      stats.EstimatedForwardDeltaOWD = 2000000 ∧ 0 ≤ stats.ReverseFastSubflow := by
  have reach : Reach (next .nanoseconds) ArrivalsPositive (boot 0)
      (final (next .nanoseconds) framedRound (boot 0)) :=
    .final (by decide +kernel) (by decide +kernel)
  obtain ⟨-, -, between, s', c', stats, step, -, stored, -, -, framed⟩ :=
    (probe_classification Config.nanoseconds_admissible (.boot 0) reach).2 framedRoundEnd _
      (by decide +kernel) framedRound_finishes
  have both := between.mp (by decide +kernel)
  have round : (final (next .nanoseconds) framedRound (boot 0)).client.roundsDone = 1 := by
    decide +kernel
  have first : (final (next .nanoseconds) framedRound (boot 0)).client.m_owdRoundStats = [] := by
    decide +kernel
  obtain ⟨estimate, known⟩ := framed both
  rw [round] at both
  rw [first] at stored
  refine ⟨_, _, _, s', stats, reach, framedRound_finishes, by decide +kernel, both.2, step,
    stored, ?_, known⟩
  rw [estimate]
  decide +kernel

end Sys

end OwdPacing
