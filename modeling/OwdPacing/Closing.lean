import OwdPacing.Running

/-!
# The end of a round, in a run

The last echo of a round closes it: the client stores the record and starts the
next round, or the run is over.
-/

namespace OwdPacing

open Container OWdClientBasic Round OwdSequencer StateError

namespace Sys

variable {cfg : Config} {earlier : Nat} {ρ : Round} {s s' : Sys} {c : OWdClientBasic} {now : Int}
  {i : Nat} {p : Packet} {sentAt servedAt : Int} {seqTs : SeqTsHeader}

/-- The record of the round is added to the records of its mode. -/
def Stores (ρ : Round) (stats : RoundStats) (c c' : OWdClientBasic) : Prop :=
  match ρ.kind with
  | .sampling =>
      c'.m_rttRoundStats = c.m_rttRoundStats ++ [stats] ∧ c'.m_owdRoundStats = c.m_owdRoundStats
  | .estimation _ _ =>
      c'.m_rttRoundStats = c.m_rttRoundStats ∧ c'.m_owdRoundStats = c.m_owdRoundStats ++ [stats]

/-- What follows the last round that is over: the next one starts, or nothing. -/
inductive Follows (cfg : Config) (earlier : Nat) (r : Nat) (now : Int) (s s' : Sys) : Prop
  | round (ρ : Round) (c : OWdClientBasic) (run : s'.Running cfg earlier ρ c)
      (number : ρ.number = r) (start : ρ.start = now) (launched : Launched cfg ρ s s')
  | nothing (quiet : s'.Quiet cfg earlier) (packets : s'.packets = s.packets)
      (sentLog : s'.sentLog = s.sentLog)

/-- When the last echo is delivered, in `s₁`, the handler closes the round `ρ`,
which started with `c`, and leaves `s'`. -/
structure Closes (cfg : Config) (earlier : Nat) (ρ : Round) (c : OWdClientBasic) (now : Int)
    (s₁ s' : Sys) : Prop where
  servedLog : s'.servedLog = s₁.servedLog
  receivedLog : s'.receivedLog = s₁.receivedLog
  echoes : ρ.AllEchoes cfg s'.servedLog (s'.receivedIn ρ.number)
  stores : Stores ρ (ρ.record cfg (replay ρ.kind (s'.receivedIn ρ.number) c)) c s'.client
  follows : Follows cfg earlier (ρ.number + 1) now s₁ s'

/-- The last echo of the round is delivered, in `s₁`, and the client has taken it
in, as `c₁`; it has yet to close the round. -/
structure TakenIn (cfg : Config) (earlier : Nat) (ρ : Round) (c : OWdClientBasic) (s₁ : Sys)
    (c₁ : OWdClientBasic) : Prop where
  started : Started cfg ρ c
  kind : StartedAs cfg ρ c
  settled : s₁.Settled (ρ.number + 1)
  echoes : ρ.AllEchoes cfg s₁.servedLog (s₁.receivedIn ρ.number)
  replayed : replay ρ.kind (s₁.receivedIn ρ.number) c = c₁
  idle : c₁.m_inflight = 0
  running : s₁.halted = none
  packets : s₁.packets.length + earlier = volume cfg c + (ρ.plan cfg).length
  dumps : s₁.dumps = 0

theorem Running.takenIn (h : s.Running cfg earlier ρ c) (now : Int) (nonempty : 1 ≤ cfg.probes)
    (get : s.packets[i]? = some p) (stage : p.stage = .toClient seqTs sentAt servedAt)
    (last : s.outstanding = 1) :
    TakenIn cfg earlier ρ c (s.deliver now i p seqTs sentAt servedAt)
      (replay ρ.kind ((s.deliver now i p seqTs sentAt servedAt).receivedIn ρ.number) c) := by
  obtain ⟨carries, received, fewer⟩ := h.carries.deliver now get stage
  have none : (s.deliver now i p seqTs sentAt servedAt).outstanding = 0 := by omega
  have count := carries.count
  exact {
    started := h.started
    kind := h.kind
    settled := carries.settled nonempty h.server none
    echoes := carries.allEchoes none
    replayed := rfl
    idle := by
      rw [← UInt32.toNat_inj, replay_m_inflight (by rw [h.started.inflight]; omega),
        h.started.inflight, UInt32.toNat_zero]
      omega
    running := h.running
    packets := by
      rw [Sys.deliver, List.length_set]
      exact h.packets
    dumps := h.dumps }

namespace TakenIn

variable {s₁ s₂ : Sys} {c₁ : OWdClientBasic}

theorem sameRound (h : TakenIn cfg earlier ρ c s₁ c₁) : SameRound c c₁ :=
  h.replayed ▸ replay_sameRound

/-- The handler that closes the round receives nothing more. -/
theorem replayed_of_closes (h : TakenIn cfg earlier ρ c s₁ c₁)
    (closes : Closes cfg earlier ρ c now s₁ s₂) :
    replay ρ.kind (s₂.receivedIn ρ.number) c = c₁ := by
  rw [receivedIn, closes.receivedLog]
  exact h.replayed

theorem closes (h : TakenIn cfg earlier ρ c s₁ c₁) (served : s₂.servedLog = s₁.servedLog)
    (received : s₂.receivedLog = s₁.receivedLog) (stores : Stores ρ (ρ.record cfg c₁) c s₂.client)
    (follows : Follows cfg earlier (ρ.number + 1) now s₁ s₂) :
    Closes cfg earlier ρ c now s₁ s₂ := by
  have arrivals : s₂.receivedIn ρ.number = s₁.receivedIn ρ.number := by
    rw [receivedIn, received]
    rfl
  refine ⟨served, received, ?_, ?_, follows⟩
  · rw [served, arrivals]
    exact h.echoes
  · rw [arrivals, h.replayed]
    exact stores

/-! ## RTT rounds -/

section Sampling

variable {r : Nat} {start : Int}

theorem rttClosed_length (h : TakenIn cfg earlier ⟨r, .sampling, start⟩ c s₁ c₁) :
    (rttClosed c₁).m_rttRoundStats.length = c.m_rttRoundStats.length + 1 := by
  rw [rttClosed, h.sameRound.rtt, List.length_append, List.length_singleton]

/-- What the client knows when it has stored the record of an RTT round. -/
theorem rttClosed_spec (h : TakenIn cfg earlier ⟨r, .sampling, start⟩ c s₁ c₁) :
    (rttClosed c₁).m_rttRoundStats = c.m_rttRoundStats ++ [c₁.m_currentRoundStats] ∧
      (rttClosed c₁).m_owdRoundStats = [] ∧ (rttClosed c₁).m_lowestRoundSeq = lowSeq (r + 1) ∧
      (rttClosed c₁).roundsDone = r + 1 ∧
      s₁.packets.length + earlier = volume cfg (rttClosed c₁) := by
  have sampling : SamplingStarted cfg c := h.kind
  have same := h.sameRound
  have first : (rttClosed c₁).m_owdRoundStats = [] := same.owd.trans sampling.first
  have number : c.m_rttRoundStats.length = r := by
    have := h.started.number
    rwa [roundsDone, sampling.first] at this
  refine ⟨?_, first, ?_, ?_, ?_⟩
  · rw [rttClosed, same.rtt]
  · rw [lowSeq_succ, rttClosed, same.low, h.started.low]
  · rw [roundsDone, h.rttClosed_length, first, number]
    rfl
  · rw [h.packets, volume, volume, h.rttClosed_length, first, sampling.first, plan_length,
      List.length_nil, Nat.mul_zero, Nat.add_zero, Nat.add_zero]
    rfl

/-- The fast subflow of the record is socket 1 or unknown, and is carried on. -/
theorem rttClosed_forwardFastSubflow (h : TakenIn cfg earlier ⟨r, .sampling, start⟩ c s₁ c₁) :
    (back (rttClosed c₁).m_rttRoundStats).ForwardFastSubflow =
        c₁.m_currentRoundStats.ForwardFastSubflow ∧
      (c₁.m_currentRoundStats.ForwardFastSubflow = -1 ∨
        c₁.m_currentRoundStats.ForwardFastSubflow = 1) := by
  have sampling : SamplingStarted cfg c := h.kind
  constructor
  · rw [rttClosed, back_append]
  · have echoes := h.echoes
    rw [← h.replayed, sampled_forwardFastSubflow h.started sampling echoes]
    split_ifs
    · exact .inr rfl
    · exact sampling.known

/-- The client that switches to estimation takes the fast subflow of the record. -/
theorem rttSwitched_spec (h : TakenIn cfg earlier ⟨r, .sampling, start⟩ c s₁ c₁) :
    (rttSwitched c₁).m_owdRoundStats = [] ∧ (rttSwitched c₁).Estimating ∧
      (rttSwitched c₁).chosenFastSubflow = c₁.m_currentRoundStats.ForwardFastSubflow := by
  obtain ⟨stored, first, -⟩ := h.rttClosed_spec
  have none : (rttSwitched c₁).m_owdRoundStats = [] := first
  refine ⟨none, ⟨rfl, ?_, ?_⟩, ?_⟩
  · change (rttClosed c₁).m_rttRoundStats ≠ []
    rw [stored]
    simp
  · rw [previousEstimate, if_pos none]
  · rw [chosenFastSubflow, if_pos none]
    exact h.rttClosed_forwardFastSubflow.1

/-- The end of an RTT round: another one, the first estimation round, or the
end of the run for want of a fast subflow. -/
theorem close_sampling (h : TakenIn cfg earlier ⟨r, .sampling, start⟩ c s₁ c₁)
    (adm : cfg.Admissible) :
    Closes cfg earlier ⟨r, .sampling, start⟩ c now s₁
      (s₁.afterHandler now ((closeRttRound cfg now).run c₁)) := by
  have sampling : SamplingStarted cfg c := h.kind
  have more := sampling.more
  have same := h.sameRound
  have rounds := adm.rounds_le
  have mode : c₁.m_currentMode = .RTTSampling := same.mode.trans sampling.mode
  have length := h.rttClosed_length
  have effects : (rttClosed c₁).effects = [] := same.effects.trans h.started.effects
  obtain ⟨stored, first, low, done, packets⟩ := h.rttClosed_spec
  obtain ⟨carried, known⟩ := h.rttClosed_forwardFastSubflow
  rw [run_closeRttRound mode h.idle adm, same.rtt]
  split_ifs with all
  · have sampled : (rttClosed c₁).m_rttRoundStats.length = cfg.sampleRTTmaxRounds.toNat := by
      omega
    obtain ⟨none, estimating, chosen⟩ := h.rttSwitched_spec
    rcases known with unknown | found
    · -- no fast subflow: the assertion stops the run
      rw [run_startNewOwdEstimationRound_of_neg estimating h.idle (by rw [chosen, unknown]; decide)]
      refine h.closes rfl rfl ⟨stored, same.owd⟩ (.nothing ?_ rfl rfl)
      exact {
        settled := by
          change Settled _ (rttClosed c₁).roundsDone
          rw [done]
          exact { h.settled with }
        low := by
          change (rttClosed c₁).m_lowestRoundSeq.toNat = 2 * (rttClosed c₁).roundsDone + 1
          have := done
          rw [roundsDone, length, first] at this
          rw [done, low, toNat_lowSeq (by simp at this; omega)]
        inflight := h.idle
        packets := packets
        outcome := .aborted rfl first sampled (carried.trans unknown) h.dumps }
    · rw [run_startNewOwdEstimationRound now 1 estimating h.idle adm.probes_le
        (chosen.trans found)]
      have allSampled : (rttSwitched c₁).m_rttRoundStats.length = cfg.sampleRTTmaxRounds.toNat :=
        sampled
      have foundLast : 0 ≤ (back (rttSwitched c₁).m_rttRoundStats).ForwardFastSubflow := by
        change 0 ≤ (back (rttClosed c₁).m_rttRoundStats).ForwardFastSubflow
        rw [carried, found]
        decide
      obtain ⟨run, launched⟩ := h.settled.running_estimation (c := rttSwitched c₁) now 1 adm
        h.running done low effects estimating (by rw [none]; exact adm.owdRounds_pos) allSampled
        foundLast packets h.dumps
      exact h.closes rfl rfl ⟨stored, same.owd⟩ (.round _ _ run rfl rfl launched)
  · have bound : 2 * (r + 1) + 2 < 2 ^ 32 := by
      have := done
      rw [roundsDone, length, first, List.length_nil] at this
      omega
    obtain ⟨run, launched⟩ := h.settled.running_sampling now adm.probes_pos
      h.running done low bound effects
      ⟨mode, first, by omega, carried.symm, carried.symm ▸ known⟩ packets h.dumps
    exact h.closes rfl rfl ⟨stored, same.owd⟩ (.round _ _ run rfl rfl launched)

end Sampling

/-! ## Estimation rounds -/

section Estimation

variable {r : Nat} {fast : Socket} {E start : Int}

/-- What the client knows when it has stored the record of an estimation round. -/
theorem owdClosed_spec (h : TakenIn cfg earlier ⟨r, .estimation fast E, start⟩ c s₁ c₁) :
    (owdClosed cfg fast c₁).m_rttRoundStats = c.m_rttRoundStats ∧
      (owdClosed cfg fast c₁).m_owdRoundStats = c.m_owdRoundStats ++ [finishedStats cfg fast c₁] ∧
      (owdClosed cfg fast c₁).m_lowestRoundSeq = lowSeq (r + 1) ∧
      (owdClosed cfg fast c₁).roundsDone = r + 1 ∧
      s₁.packets.length + earlier = volume cfg (owdClosed cfg fast c₁) := by
  have same := h.sameRound
  have rtt : (owdClosed cfg fast c₁).m_rttRoundStats = c.m_rttRoundStats := same.rtt
  have owd : (owdClosed cfg fast c₁).m_owdRoundStats =
      c.m_owdRoundStats ++ [finishedStats cfg fast c₁] := by
    rw [owdClosed, same.owd]
  have number : c.m_rttRoundStats.length + c.m_owdRoundStats.length = r := h.started.number
  refine ⟨rtt, owd, ?_, ?_, ?_⟩
  · rw [lowSeq_succ, owdClosed, finished]
    exact congrArg (· + 2) (same.low.trans h.started.low)
  · rw [roundsDone, rtt, owd, List.length_append, List.length_singleton]
    omega
  · rw [h.packets, volume, volume, rtt, owd, plan_length, List.length_append,
      List.length_singleton, Nat.mul_succ, Nat.add_assoc]

/-- What `FinishRound` asks of the client that has all echoes of an estimation round. -/
theorem readyToFinish (h : TakenIn cfg earlier ⟨r, .estimation fast E, start⟩ c s₁ c₁) :
    c₁.Estimating ∧ c₁.m_forwardFastSubflow = (fast : Nat) ∧
      (c₁.slowPacketPosition = .betweenProbes → c₁.FramesFound) := by
  have estimation : EstimationStarted cfg fast E start c := h.kind
  refine ⟨h.sameRound.estimating estimation.estimating, ?_, ?_⟩
  · rw [← h.replayed, replay_m_forwardFastSubflow]
    exact estimation.chosen
  · rw [← h.replayed]
    exact framesFound estimation

/-- What the client does at the end of an estimation round. -/
theorem closeOwdRound_eq (h : TakenIn cfg earlier ⟨r, .estimation fast E, start⟩ c s₁ c₁)
    (adm : cfg.Admissible) (now : Int) :
    c₁.m_forwardFastSubflow = (fast : Nat) ∧ 0 ≤ nextEstimate cfg c₁ ∧
      (closeOwdRound cfg now).run c₁ =
        if cfg.owdMaxRounds.toNat ≤ c.m_owdRoundStats.length + 1 then
          .ok () ((owdClosed cfg fast c₁).ask
            [.dumpOwdSamples (owdClosed cfg fast c₁).m_owdRoundStats])
        else .ok () (estimationStarted cfg fast now (owdClosed cfg fast c₁)) := by
  obtain ⟨estimating, chosen, found⟩ := h.readyToFinish
  have estimate : 0 ≤ nextEstimate cfg c₁ := by
    rw [← h.replayed]
    exact nextEstimate_nonneg adm.probes_pos h.kind h.echoes
  have run : (closeOwdRound cfg now).run c₁ = _ :=
    run_closeOwdRound estimating h.idle adm chosen found estimate
  rw [h.sameRound.owd] at run
  exact ⟨chosen, estimate, run⟩

/-- The end of an estimation round: another one, or the dump. -/
theorem close_estimation (h : TakenIn cfg earlier ⟨r, .estimation fast E, start⟩ c s₁ c₁)
    (adm : cfg.Admissible) :
    Closes cfg earlier ⟨r, .estimation fast E, start⟩ c now s₁
      (s₁.afterHandler now ((closeOwdRound cfg now).run c₁)) := by
  have estimation : EstimationStarted cfg fast E start c := h.kind
  have more := estimation.more
  have rounds := adm.rounds_le
  have sampled := estimation.allSampled
  have same := h.sameRound
  have allSampled : (owdClosed cfg fast c₁).m_rttRoundStats.length =
      cfg.sampleRTTmaxRounds.toNat :=
    (congrArg List.length same.rtt).trans sampled
  obtain ⟨estimating, -, -⟩ := h.readyToFinish
  obtain ⟨-, estimate, closed⟩ := h.closeOwdRound_eq adm now
  have effects : (owdClosed cfg fast c₁).effects = [] := same.effects.trans h.started.effects
  obtain ⟨rtt, owd, low, done, packets⟩ := h.owdClosed_spec
  have known : 0 ≤ (back (owdClosed cfg fast c₁).m_rttRoundStats).ForwardFastSubflow := by
    rw [rtt]
    exact estimation.found
  have count := done
  rw [roundsDone, rtt, owd, List.length_append, List.length_singleton] at count
  rw [closed]
  split_ifs with all
  · -- the last record: the samples are dumped, and the run is over
    rw [afterHandler, absorb_dump effects]
    refine h.closes rfl rfl ⟨rtt, owd⟩ (.nothing ?_ rfl rfl)
    exact {
      settled := by
        change Settled _ (owdClosed cfg fast c₁).roundsDone
        rw [done]
        exact { h.settled with }
      low := by
        change (owdClosed cfg fast c₁).m_lowestRoundSeq.toNat =
          2 * (owdClosed cfg fast c₁).roundsDone + 1
        rw [done, low, toNat_lowSeq (by omega)]
      inflight := h.idle
      packets := packets
      outcome := by
        refine .finished h.running estimating.mode allSampled ?_ known (congrArg (· + 1) h.dumps)
        change (owdClosed cfg fast c₁).m_owdRoundStats.length = _
        rw [owd, List.length_append, List.length_singleton]
        omega }
  · have later : (owdClosed cfg fast c₁).Estimating :=
      ⟨estimating.mode, estimating.sampled, owdClosed_previousEstimate ▸ estimate⟩
    have next : (owdClosed cfg fast c₁).m_owdRoundStats.length < cfg.owdMaxRounds.toNat := by
      rw [owd, List.length_append, List.length_singleton]
      omega
    obtain ⟨run, launched⟩ := h.settled.running_estimation now fast
      adm h.running done low effects later next allSampled known packets h.dumps
    exact h.closes rfl rfl ⟨rtt, owd⟩ (.round _ _ run rfl rfl launched)

end Estimation

end TakenIn

/-- **The last echo of a round closes it**, whatever its kind. -/
theorem Running.close (h : s.Running cfg earlier ρ c) (now : Int) (adm : cfg.Admissible)
    (get : s.packets[i]? = some p) (stage : p.stage = .toClient seqTs sentAt servedAt)
    (one : s.outstanding = 1) :
    Closes cfg earlier ρ c now (s.deliver now i p seqTs sentAt servedAt)
      (s.recv cfg now i p seqTs sentAt servedAt) := by
  have taken := h.takenIn now adm.probes_pos get stage one
  have handler := h.run_handleRecv now get stage
  rw [if_pos one] at handler
  rw [Sys.recv, handler]
  rcases ρ with ⟨r, _ | ⟨fast, E⟩, start⟩
  · exact taken.close_sampling adm
  · exact taken.close_estimation adm

end Sys

end OwdPacing
