import OwdPacing.Classification

/-!
# The window of the probes

`FinishRound` evaluates `GetProbeDelay` at the end of a round to the delays at
which the probes of that round were sent, and the estimate it records lies
between the delays of the first and the last of them.
-/

namespace OwdPacing

open Container OWdClientBasic Round Runs StateError

/-- The estimate after the first `k` records: zero when there is none. -/
def estimateAfter (records : List RoundStats) : Nat → Int
  | 0 => 0
  | k + 1 => (records[k]?.getD .new).EstimatedForwardDeltaOWD

/-- It is the estimate `GetProbeDelay` starts from in the next round. -/
theorem previousEstimate_of_take {c : OWdClientBasic} {records : List RoundStats} {k : Nat}
    (taken : c.m_owdRoundStats = records.take k) (le : k ≤ records.length) :
    c.previousEstimate = estimateAfter records k := by
  rw [previousEstimate, taken]
  cases k with
  | zero => rfl
  | succ k =>
      have get : records[k]? = some records[k] := List.getElem?_eq_getElem (by omega)
      have some : records.take (k + 1) ≠ [] := by
        rw [List.take_succ_eq_append_getElem (by omega)]
        exact List.append_ne_nil_of_right_ne_nil _ (List.cons_ne_nil _ _)
      rw [if_neg some, List.take_succ_eq_append_getElem (by omega), back_append, estimateAfter, get,
        Option.getD_some]

namespace Sys

variable {cfg : Config} {earlier : Nat} {s s' s₀ s₁ : Sys} {c c₀ c₁ : OWdClientBasic}
  {e : Event} {r k : Nat} {fast : Socket} {E start : Int} {stats : RoundStats}

/-! ## When the probes were sent -/

/-- In a network that has delivered a round, the probes of the round were sent when planned. -/
theorem TakenIn.sentLog_iff {begin : Int} {i : Nat}
    (h : TakenIn cfg earlier ⟨r, .estimation fast E, begin⟩ c s₁ c₁)
    (carries : s₁.Carries cfg ⟨r, .estimation fast E, begin⟩) (onTime : s₁.OnTime)
    (lt : i < cfg.probes) (t : Int) :
    ⟨probeTag r i, t⟩ ∈ s₁.sentLog ↔ t = begin + cfg.probeOffset E i := by
  constructor
  · intro logged
    obtain ⟨call, mem, tag, ts⟩ := onTime.sent _ logged
    obtain ⟨p, memP, rfl⟩ := List.mem_map.mp mem
    have round : p.tag.round = r := congrArg PacketTag.round tag
    rcases carries.call_mem memP with old | planned
    · exact absurd round (Nat.ne_of_lt old)
    · rcases mem_plan_estimation.mp planned with call | ⟨j, -, call⟩
      · rw [call] at tag
        exact absurd tag.symm (probeTag_ne_slowTag r i)
      · rw [call] at tag ts
        obtain rfl : j = i := eq_of_probeTag_eq tag
        exact ts.symm
  · rintro rfl
    obtain ⟨p, mem, call⟩ :=
      carries.exists_packet (mem_plan_estimation.mpr (.inr ⟨i, lt, rfl⟩))
    have notDue : p.stage.due? = none := by
      rw [(h.settled.delivered p mem).1]
      rfl
    have logged := onTime.logged p mem notDue
    have tag : p.tag = probeTag r i := congrArg SendCall.tag call
    have ts : p.ts = begin + cfg.probeOffset E i := congrArg SendCall.ts call
    rwa [tag, ts] at logged

/-- Until the record is stored `GetProbeDelay` computes the plan of the round. -/
theorem TakenIn.getProbeDelay {begin : Int} {c' : OWdClientBasic}
    (h : TakenIn cfg earlier ⟨r, .estimation fast E, begin⟩ c s₁ c₁)
    (mode : c'.m_currentMode = c₁.m_currentMode) (rtt : c'.m_rttRoundStats = c₁.m_rttRoundStats)
    (owd : c'.m_owdRoundStats = c₁.m_owdRoundStats) {i : UInt8} (lt : i.toNat < cfg.probes) :
    (getProbeDelay cfg i).run c' = .ok (cfg.probeOffset E i.toNat) c' := by
  have estimation : EstimationStarted cfg fast E begin c := h.kind
  have estimating := h.sameRound.estimating estimation.estimating
  have same : c'.previousEstimate = c₁.previousEstimate := by
    rw [previousEstimate, owd]
    rfl
  have previous := same.trans (h.sameRound.previousEstimate.trans estimation.previous)
  have later : c'.Estimating :=
    ⟨mode.trans estimating.mode, rtt ▸ estimating.sampled, same ▸ estimating.estimate⟩
  rw [run_getProbeDelay cfg later lt, previous]

/-! ## The record -/

/-- The record of an estimation round stays in the window of its probes. -/
theorem RoundOver.window {begin : Int} (adm : cfg.Admissible)
    (h : RoundOver cfg ⟨r, .estimation fast E, begin⟩ c s stats) :
    cfg.probeOffset E 0 ≤ stats.EstimatedForwardDeltaOWD ∧
      stats.EstimatedForwardDeltaOWD ≤ cfg.probeOffset E (cfg.probes - 1) ∧
      0 ≤ stats.EstimatedReverseDeltaOWD := by
  have estimation : EstimationStarted cfg fast E begin c := h.kind
  have window := nextEstimate_window adm.probes_pos estimation h.echoes
  have fresh : (replay (.estimation fast E) (s.receivedIn r) c).m_currentRoundStats.estimates =
      RoundStats.new.estimates := by
    rw [replay_estimates, estimation.fresh]
  have record : stats = finishedStats cfg fast (replay (.estimation fast E) (s.receivedIn r) c) :=
    h.record
  rw [record, finishedStats_estimate]
  refine ⟨window.1, window.2, finishedStats_reverse_nonneg ?_⟩
  exact congrArg (fun estimates => estimates.2.1) fresh

/-- The round of a record started from the estimate before it. -/
theorem History.estimatedFrom (h : s.History cfg c₀) (le : c₀.m_owdRoundStats.length ≤ k)
    (record : s.client.m_owdRoundStats[k]? = some stats) :
    ∃ fast start c, 0 ≤ estimateAfter s.client.m_owdRoundStats k ∧
      RoundOver cfg ⟨s.client.m_rttRoundStats.length + k,
        .estimation fast (estimateAfter s.client.m_owdRoundStats k), start⟩ c s stats := by
  obtain ⟨fast, E, begin, c, -, taken, ended⟩ := h.estimated k stats le record
  have estimation : EstimationStarted cfg fast E begin c := ended.kind
  have lt := (List.getElem?_eq_some_iff.mp record).1
  have previous := previousEstimate_of_take taken lt.le
  rw [estimation.previous] at previous
  have nonneg := estimation.estimating.estimate
  rw [estimation.previous] at nonneg
  rw [← previous]
  exact ⟨fast, begin, c, nonneg, ended⟩

/-- The record of a round that is over stays near the estimate before it. -/
theorem RoundOver.near {begin : Int} (adm : cfg.Admissible) (three : cfg.probes = 3)
    (nonneg : 0 ≤ E) (h : RoundOver cfg ⟨r, .estimation fast E, begin⟩ c s stats) :
    0 ≤ stats.EstimatedForwardDeltaOWD ∧
      E - cfg.milliSeconds 2 ≤ stats.EstimatedForwardDeltaOWD ∧
      stats.EstimatedForwardDeltaOWD ≤ E + cfg.milliSeconds 4 ∧
      0 ≤ stats.EstimatedReverseDeltaOWD := by
  obtain ⟨low, high, reverse⟩ := h.window adm
  have lowest : E - cfg.gap * ((cfg.probes : Int) / 2) ≤ cfg.probeOffset E 0 :=
    Config.le_probeOffset_zero
  have highest : cfg.probeOffset E 2 ≤ E + cfg.gap * 2 := Config.probeOffset_le_add nonneg 2
  have positive : 0 ≤ cfg.probeOffset E 0 := Config.probeOffset_nonneg 0
  have half : ((cfg.probes : Int)) / 2 = 1 := by rw [three]; rfl
  have last : cfg.probes - 1 = 2 := by omega
  have two : cfg.milliSeconds 2 = cfg.gap := rfl
  have four : cfg.milliSeconds 4 = cfg.gap * 2 := by
    rw [Config.milliSeconds, Config.gap_eq]
    ring
  rw [half, mul_one] at lowest
  rw [last] at high
  rw [two, four]
  exact ⟨positive.trans low, lowest.trans low, high.trans highest, reverse⟩

/-- What the receipt of the last echo of an estimation round does. -/
theorem finishes_window {p : Packet} {seqTs : SeqTsHeader} {sentAt servedAt begin : Int}
    (adm : cfg.Admissible) (start : Start cfg s₀) (reach : Reach (next cfg) Timely s₀ s)
    (get : s.packets[e.packet]? = some p) (stage : p.stage = .toClient seqTs sentAt servedAt)
    (run : s.Running cfg earlier ⟨r, .estimation fast E, begin⟩ c)
    (taken : TakenIn cfg earlier ⟨r, .estimation fast E, begin⟩ c
      (s.deliver e.time e.packet p seqTs sentAt servedAt) c₁)
    (closes : Closes cfg earlier ⟨r, .estimation fast E, begin⟩ c e.time
      (s.deliver e.time e.packet p seqTs sentAt servedAt)
      (s.recv cfg e.time e.packet p seqTs sentAt servedAt)) :
    ∃ stats, (s.recv cfg e.time e.packet p seqTs sentAt servedAt).client.m_owdRoundStats =
        s.client.m_owdRoundStats ++ [stats] ∧
      RoundOver cfg ⟨r, .estimation fast E, begin⟩ c
        (s.recv cfg e.time e.packet p seqTs sentAt servedAt) stats ∧
      ∀ i < cfg.probes, ∀ t, ⟨probeTag r i, t⟩ ∈ s.sentLog ↔
        t = c₁.m_timeOfFirstSentPacket + cfg.probeOffset E i := by
  have estimation : EstimationStarted cfg fast E begin c := taken.kind
  have mem : p ∈ s.packets := List.mem_of_getElem? get
  have onTime := (start.onTime adm reach).deliver e.time get stage
    (run.carries.toClient p mem seqTs sentAt servedAt stage).receiverTs
  have carries := (run.carries.deliver e.time get stage).1
  have first : c₁.m_timeOfFirstSentPacket = begin :=
    taken.sameRound.start.trans estimation.start
  obtain ⟨-, owd⟩ := closes.stores
  refine ⟨_, owd.trans (congrArg (· ++ _) run.sameRound.owd.symm),
    ⟨taken.started, taken.kind, closes.echoes, rfl⟩, fun i lt t => ?_⟩
  rw [first]
  exact taken.sentLog_iff carries onTime lt t

/-- **The window of the probes.**  When an estimation round is over `GetProbeDelay`
evaluates to the delays at which the probes of that round were sent; the estimate
recorded lies between those of the first and the last probe, so that it is not
negative and at most 2 ms below and 4 ms above the one before; the reverse
estimate is not negative; and no assertion about the delays ever fires. -/
theorem estimate_window (adm : cfg.Admissible) (three : cfg.probes = 3) (start : Start cfg s₀)
    (reach : Reach (next cfg) Timely s₀ s) :
    (∀ e c s', s.Finishes e c → s.next cfg e = some s' →
      ∃ stats, s'.client.m_owdRoundStats = s.client.m_owdRoundStats ++ [stats] ∧
      ∃ delay : Nat → Int,
        (∀ c', c'.m_currentMode = c.m_currentMode → c'.m_rttRoundStats = c.m_rttRoundStats →
          c'.m_owdRoundStats = c.m_owdRoundStats → ∀ i : UInt8, i.toNat < 3 →
          (getProbeDelay cfg i).run c' = .ok (delay i.toNat) c') ∧
        (∀ i < 3, ∀ t, ⟨probeTag s.client.roundsDone i, t⟩ ∈ s.sentLog ↔
          t = c.m_timeOfFirstSentPacket + delay i) ∧
        delay 0 ≤ stats.EstimatedForwardDeltaOWD ∧ stats.EstimatedForwardDeltaOWD ≤ delay 2) ∧
    (∀ k stats, s₀.client.m_owdRoundStats.length ≤ k →
      s.client.m_owdRoundStats[k]? = some stats →
      0 ≤ stats.EstimatedForwardDeltaOWD ∧
      estimateAfter s.client.m_owdRoundStats k - cfg.milliSeconds 2 ≤
        stats.EstimatedForwardDeltaOWD ∧
      stats.EstimatedForwardDeltaOWD ≤
        estimateAfter s.client.m_owdRoundStats k + cfg.milliSeconds 4 ∧
      0 ≤ stats.EstimatedReverseDeltaOWD) ∧
    s.halted ≠ some .getProbeDelay_isPositive ∧
    s.halted ≠ some .startNewOwdEstimationRound_probeDelay := by
  have inv := start.reach adm reach
  have last : cfg.probes - 1 = 2 := by omega
  refine ⟨?_, ?_, ?_, ?_⟩
  · intro e c₁ s' finishes step
    obtain ⟨fast, E, begin, c, p, seqTs, sentAt, servedAt, get, stage, run, taken, closes⟩ :=
      inv.finishes adm finishes
    obtain rfl : s' = s.recv cfg e.time e.packet p seqTs sentAt servedAt :=
      next_toClient get stage step
    obtain ⟨stats, stored, ended, sent⟩ :=
      finishes_window adm start reach get stage run taken closes
    have window := ended.window adm
    rw [last] at window
    refine ⟨stats, stored, cfg.probeOffset E, ?_, ?_, window.1, window.2.1⟩
    · intro c' mode rtt owd i lt
      exact taken.getProbeDelay mode rtt owd (by omega)
    · intro i lt t
      exact sent i (by omega) t
  · intro k stats le record
    obtain ⟨fast, begin, c, nonneg, ended⟩ := inv.history.estimatedFrom le record
    exact ended.near adm three nonneg
  · cases inv.halted with
    | inl running => rw [running]; exact nofun
    | inr aborted => rw [aborted]; simp
  · cases inv.halted with
    | inl running => rw [running]; exact nofun
    | inr aborted => rw [aborted]; simp

theorem estimate_window_framed : ∃ s s', Reach (next .nanoseconds) Timely (boot 0) s ∧
    s.next .nanoseconds framedRoundEnd = some s' ∧
    ∃ stats, s'.client.m_owdRoundStats = s.client.m_owdRoundStats ++ [stats] := by
  have reach : Reach (next .nanoseconds) Timely (boot 0)
      (final (next .nanoseconds) framedRound (boot 0)) :=
    .final (by decide +kernel) (by decide +kernel)
  obtain ⟨s', step⟩ : ∃ s', (final (next .nanoseconds) framedRound (boot 0)).next .nanoseconds
      framedRoundEnd = some s' := Option.isSome_iff_exists.mp (by decide +kernel)
  obtain ⟨stats, stored, -⟩ := (estimate_window Config.nanoseconds_admissible rfl (.boot 0) reach).1
    framedRoundEnd _ s' framedRound_finishes step
  exact ⟨_, s', reach, step, stats, stored⟩

end Sys

end OwdPacing
