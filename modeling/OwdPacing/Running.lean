import OwdPacing.NetworkInvariant

/-!
# Runs of the system

The invariant of a run: either a round is in progress, and everything about the
system follows from the round, the client it started with and what has been
served and received since, or the run is over.
-/

namespace OwdPacing

open Container OWdClientBasic Round OwdSequencer StateError

/-- What holds at the start of a round of its kind. -/
def StartedAs (cfg : Config) (ρ : Round) (c : OWdClientBasic) : Prop :=
  match ρ.kind with
  | .sampling => SamplingStarted cfg c
  | .estimation fast E => EstimationStarted cfg fast E ρ.start c

/-- The record of a round, from the client that has all its echoes. -/
def Round.record (cfg : Config) (ρ : Round) (c : OWdClientBasic) : RoundStats :=
  match ρ.kind with
  | .sampling => c.m_currentRoundStats
  | .estimation fast _ => finishedStats cfg fast c

/-- Number of packets sent for the rounds the client has finished. -/
def volume (cfg : Config) (c : OWdClientBasic) : Nat :=
  2 * c.m_rttRoundStats.length + (cfg.probes + 1) * c.m_owdRoundStats.length

namespace Sys

/-- The round `ρ` is in progress; the client started it as `c`.  `earlier` counts
the packets of rounds before the run. -/
structure Running (cfg : Config) (earlier : Nat) (ρ : Round) (c : OWdClientBasic) (s : Sys) :
    Prop where
  running : s.halted = none
  started : Started cfg ρ c
  kind : StartedAs cfg ρ c
  carries : s.Carries cfg ρ
  client : s.client = replay ρ.kind (s.receivedIn ρ.number) c
  server : Tracks s.server (ρ.numbersAt s.served)
  busy : 0 < s.outstanding
  packets : s.packets.length + earlier = volume cfg c + (ρ.plan cfg).length
  dumps : s.dumps = 0

/-- How a run ends: with all rounds and the dump, or aborted because RTT
sampling found no fast subflow. -/
inductive Outcome (cfg : Config) (s : Sys) : Prop
  | finished (running : s.halted = none) (mode : s.client.m_currentMode = .OWDEstimation)
      (sampled : s.client.m_rttRoundStats.length = cfg.sampleRTTmaxRounds.toNat)
      (all : s.client.m_owdRoundStats.length = cfg.owdMaxRounds.toNat)
      (found : 0 ≤ (back s.client.m_rttRoundStats).ForwardFastSubflow) (dumps : s.dumps = 1)
  | aborted (halted : s.halted = some .startNewOwdEstimationRound_forwardFastSubflow)
      (none : s.client.m_owdRoundStats = [])
      (all : s.client.m_rttRoundStats.length = cfg.sampleRTTmaxRounds.toNat)
      (unknown : (back s.client.m_rttRoundStats).ForwardFastSubflow = -1) (dumps : s.dumps = 0)

/-- The run is over. -/
structure Quiet (cfg : Config) (earlier : Nat) (s : Sys) : Prop where
  settled : s.Settled s.client.roundsDone
  low : s.client.m_lowestRoundSeq.toNat = 2 * s.client.roundsDone + 1
  inflight : s.client.m_inflight = 0
  packets : s.packets.length + earlier = volume cfg s.client
  outcome : s.Outcome cfg

variable {cfg : Config} {earlier : Nat} {ρ : Round} {s : Sys} {c : OWdClientBasic} {now : Int}
  {i : Nat} {p : Packet}

/-! ## The start of a round -/

/-- The packets of the round enter the network. -/
structure Launched (cfg : Config) (ρ : Round) (s s' : Sys) : Prop where
  packets : s'.packets = s.packets ++ (ρ.plan cfg).map fun call => ⟨call, ρ.firstStage call⟩
  sentLog : s'.sentLog = s.sentLog ++
    ((ρ.plan cfg).map fun call => (⟨call, ρ.firstStage call⟩ : Packet)).filterMap Packet.sent?

/-- A round starts: its packets enter a settled network. -/
theorem Settled.running (h : s.Settled ρ.number) (nonempty : 1 ≤ cfg.probes)
    (halted : s.halted = none) (started : Started cfg ρ { c with effects := [] })
    (kind : StartedAs cfg ρ { c with effects := [] })
    (sent : c.effects.zipIdx.filterMap (Effect.packet ρ.start ρ.number) =
      (ρ.plan cfg).map fun call => ⟨call, ρ.firstStage call⟩)
    (quiet : c.effects.countP Effect.isDump = 0)
    (packets : s.packets.length + earlier = volume cfg c) (dumps : s.dumps = 0) :
    (s.absorb ρ.start c).Running cfg earlier ρ { c with effects := [] } ∧
      Launched cfg ρ s (s.absorb ρ.start c) := by
  have number : c.roundsDone = ρ.number := started.number
  have new : (s.absorb ρ.start c).packets =
      s.packets ++ (ρ.plan cfg).map fun call => ⟨call, ρ.firstStage call⟩ := by
    rw [← sent, ← number]
    rfl
  obtain ⟨carries, outstanding, received, numbers⟩ := h.carries new rfl rfl
  refine ⟨?_, new, by rw [← sent, ← number]; rfl⟩
  exact {
    running := halted
    started := started
    kind := kind
    carries := carries
    client := by rw [received]; rfl
    server := by
      rw [numbers]
      exact h.server
    busy := by
      obtain ⟨call, planned, -⟩ := low_mem_plan nonempty ρ
      rw [outstanding]
      exact List.length_pos_of_mem planned
    packets := by
      rw [new, List.length_append, List.length_map]
      change _ = volume cfg c + _
      omega
    dumps := by
      change s.dumps + _ = 0
      rw [dumps, quiet] }

/-- A sampling round starts on a client whose echoes are all in. -/
theorem Settled.running_sampling {r : Nat} (h : s.Settled r) (now : Int) (nonempty : 1 ≤ cfg.probes)
    (halted : s.halted = none) (number : c.roundsDone = r) (low : c.m_lowestRoundSeq = lowSeq r)
    (bound : 2 * r + 2 < 2 ^ 32) (effects : c.effects = []) (sampling : SamplingStarted cfg c)
    (packets : s.packets.length + earlier = volume cfg c) (dumps : s.dumps = 0) :
    (s.absorb now (samplingStarted now c)).Running cfg earlier ⟨r, .sampling, now⟩
        { samplingStarted now c with effects := [] } ∧
      Launched cfg ⟨r, .sampling, now⟩ s (s.absorb now (samplingStarted now c)) := by
  refine h.running (ρ := ⟨r, .sampling, now⟩) nonempty halted
    ⟨number, low, rfl, rfl, bound⟩
    ⟨sampling.mode, sampling.first, sampling.more, sampling.carried, sampling.known⟩ ?_ ?_
    packets dumps
  · rw [samplingStarted, effects, low]
    exact packets_sampling
  · rw [samplingStarted, effects]
    rfl

/-- An estimation round starts on a client whose echoes are all in. -/
theorem Settled.running_estimation {r : Nat} (h : s.Settled r) (now : Int) (fast : Socket)
    (adm : cfg.Admissible) (halted : s.halted = none) (number : c.roundsDone = r)
    (low : c.m_lowestRoundSeq = lowSeq r) (effects : c.effects = []) (estimating : c.Estimating)
    (more : c.m_owdRoundStats.length < cfg.owdMaxRounds.toNat)
    (allSampled : c.m_rttRoundStats.length = cfg.sampleRTTmaxRounds.toNat)
    (found : 0 ≤ (back c.m_rttRoundStats).ForwardFastSubflow)
    (packets : s.packets.length + earlier = volume cfg c) (dumps : s.dumps = 0) :
    (s.absorb now (estimationStarted cfg fast now c)).Running cfg earlier
        ⟨r, .estimation fast c.previousEstimate, now⟩
        { estimationStarted cfg fast now c with effects := [] } ∧
      Launched cfg ⟨r, .estimation fast c.previousEstimate, now⟩ s
        (s.absorb now (estimationStarted cfg fast now c)) := by
  have rounds := adm.rounds_le
  have bound : 2 * r + 2 < 2 ^ 32 := by
    rw [← number, roundsDone]
    omega
  have few := adm.probes_le
  have size : (cfg.probesInARound + 1).toNat = cfg.probes + 1 :=
    toNat_add_one (by omega)
  refine h.running (ρ := ⟨r, .estimation fast c.previousEstimate, now⟩) adm.probes_pos halted
    ⟨number, low, ?_, rfl, bound⟩
    ⟨⟨estimating.mode, estimating.sampled, estimating.estimate⟩, more, allSampled, rfl, found,
      rfl, rfl, rfl, rfl, rfl, rfl⟩ ?_ ?_ packets dumps
  · rw [plan_length]
    exact size
  · rw [estimationStarted, effects, low, List.nil_append]
    exact packets_estimation
  · rw [estimationStarted, effects, List.nil_append, roundEffects, List.countP_eq_zero]
    intro effect mem
    rcases List.mem_cons.mp mem with rfl | mem
    · exact Bool.false_ne_true
    · obtain ⟨j, -, rfl⟩ := List.mem_map.mp mem
      exact Bool.false_ne_true

/-! ## Inside a round -/

section

variable {due sentAt servedAt : Int} {seqTs : SeqTsHeader} {e : Event} {s' : Sys}

/-- What one step of the system can be. -/
theorem next_cases (step : s.next cfg e = some s') :
    s.halted = none ∧ ∃ p, s.packets[e.packet]? = some p ∧
      ((∃ due, p.stage = .scheduled due ∧ s' = s.fire e.time e.packet p) ∨
        (∃ seqTs sentAt, p.stage = .toServer seqTs sentAt ∧
          s' = s.serve e.time e.packet p seqTs sentAt) ∨
        ∃ seqTs sentAt servedAt, p.stage = .toClient seqTs sentAt servedAt ∧
          s' = s.recv cfg e.time e.packet p seqTs sentAt servedAt) := by
  rw [next] at step
  split at step
  · cases step
  · rename_i running
    refine ⟨by simpa using running, ?_⟩
    split at step
    · cases step
    · rename_i p get
      refine ⟨p, get, ?_⟩
      split at step <;> rename_i stage
      · exact .inl ⟨_, stage, (Option.some.inj step).symm⟩
      · exact .inr (.inl ⟨_, _, stage, (Option.some.inj step).symm⟩)
      · exact .inr (.inr ⟨_, _, _, stage, (Option.some.inj step).symm⟩)
      · cases step

/-- The event of a packet on its way to the client is its receipt. -/
theorem next_of_toClient (running : s.halted = none)
    (get : s.packets[e.packet]? = some p) (stage : p.stage = .toClient seqTs sentAt servedAt) :
    s.next cfg e = some (s.recv cfg e.time e.packet p seqTs sentAt servedAt) := by
  rw [next, running, get]
  dsimp only [Option.isSome]
  rw [if_neg Bool.false_ne_true, stage]

/-- The step of a packet on its way to the client is its receipt. -/
theorem next_toClient (get : s.packets[e.packet]? = some p)
    (stage : p.stage = .toClient seqTs sentAt servedAt)
    (step : s.next cfg e = some s') : s' = s.recv cfg e.time e.packet p seqTs sentAt servedAt := by
  obtain ⟨-, q, get', cases⟩ := next_cases step
  obtain rfl : p = q := Option.some.inj (get.symm.trans get')
  rcases cases with ⟨_, other, -⟩ | ⟨_, _, other, -⟩ | ⟨_, _, _, same, eq⟩
  · cases stage.symm.trans other
  · cases stage.symm.trans other
  · cases stage.symm.trans same
    exact eq

theorem withoutEffects_eq (effects : c.effects = []) : { c with effects := [] } = c := by
  cases c
  cases effects
  rfl

theorem absorb_of_effects_nil (effects : c.effects = []) :
    s.absorb now c = { s with now := now, client := c } := by
  rw [absorb, effects, withoutEffects_eq effects]
  simp

/-- The dump of the samples sends nothing. -/
theorem absorb_dump {samples : List RoundStats} (effects : c.effects = []) :
    s.absorb now (c.ask [.dumpOwdSamples samples]) =
      { s with now := now, client := c, dumps := s.dumps + 1 } := by
  have none : ([.dumpOwdSamples samples] : List Effect).zipIdx.filterMap
      (Effect.packet now (c.ask [.dumpOwdSamples samples]).roundsDone) = [] := rfl
  have asked : (c.ask [.dumpOwdSamples samples]).effects = [.dumpOwdSamples samples] := by
    rw [ask, effects, List.nil_append]
  have kept : { c.ask [.dumpOwdSamples samples] with effects := [] } = c :=
    withoutEffects_eq effects
  rw [absorb, asked, none, kept, List.filterMap_nil, List.append_nil, List.append_nil]
  rfl

namespace Running

/-- The counter of the client counts the outstanding packets. -/
theorem inflight (h : s.Running cfg earlier ρ c) : s.client.m_inflight.toNat = s.outstanding := by
  have count := h.carries.count
  rw [h.client, replay_m_inflight (by rw [h.started.inflight]; omega), h.started.inflight]
  omega

theorem inflight_sub_one_eq_zero (h : s.Running cfg earlier ρ c) :
    s.client.m_inflight - 1 = 0 ↔ s.outstanding = 1 := by
  rw [← h.inflight, UInt32.sub_eq_iff_eq_add, UInt32.zero_add, ← UInt32.toNat_inj]
  rfl

theorem sameRound (h : s.Running cfg earlier ρ c) : SameRound c s.client := by
  rw [h.client]
  exact replay_sameRound

theorem fire (h : s.Running cfg earlier ρ c) (get : s.packets[i]? = some p)
    (stage : p.stage = .scheduled due) : (s.fire now i p).Running cfg earlier ρ c where
  running := h.running
  started := h.started
  kind := h.kind
  carries := h.carries.fire get stage
  client := h.client
  server := h.server
  busy := by
    have same : (s.fire now i p).outstanding = s.outstanding :=
      Nat.add_right_cancel
        (Carries.outstanding_set get (Carries.outstanding_of_scheduled stage))
    rw [same]
    exact h.busy
  packets := by
    rw [Sys.fire, List.length_set]
    exact h.packets
  dumps := h.dumps

theorem serve (h : s.Running cfg earlier ρ c) (now : Int) (get : s.packets[i]? = some p)
    (stage : p.stage = .toServer seqTs sentAt) :
    (s.serve now i p seqTs sentAt).Running cfg earlier ρ c ∧
      (s.serve now i p seqTs sentAt).client = s.client ∧
      (s.serve now i p seqTs sentAt).servedLog = s.servedLog ++ [⟨p.tag, now⟩] ∧
      (s.serve now i p seqTs sentAt).receivedLog = s.receivedLog := by
  obtain ⟨echo, server', after, carries, track⟩ :=
    h.carries.serve now h.started.bound h.server get stage
  have same : (s.serve now i p seqTs sentAt).outstanding = s.outstanding := by
    rw [after]
    exact Nat.add_right_cancel
      (Carries.outstanding_set get (Carries.outstanding_of_toServer stage))
  rw [after] at carries track same ⊢
  refine ⟨?_, rfl, rfl, rfl⟩
  exact {
    running := h.running
    started := h.started
    kind := h.kind
    carries := carries
    client := h.client
    server := track
    busy := by rw [same]; exact h.busy
    packets := by
      rw [List.length_set]
      exact h.packets
    dumps := h.dumps }

/-- What `HandleRecv` does with an echo: it closes the round if this is the last one. -/
theorem run_handleRecv (h : s.Running cfg earlier ρ c) (now : Int) (get : s.packets[i]? = some p)
    (stage : p.stage = .toClient seqTs sentAt servedAt) :
    (handleRecv cfg now p.sock [seqTs]).run s.client =
      if s.outstanding = 1 then
        (match ρ.kind with
          | .sampling => closeRttRound cfg now
          | .estimation _ _ => closeOwdRound cfg now).run
            (replay ρ.kind ((s.deliver now i p seqTs sentAt servedAt).receivedIn ρ.number) c)
      else .ok () (replay ρ.kind
        ((s.deliver now i p seqTs sentAt servedAt).receivedIn ρ.number) c) := by
  have kind := h.kind
  rw [(h.carries.deliver now get stage).2.1, replay_concat, ← h.client]
  rw [StartedAs] at kind
  cases kindEq : ρ.kind with
  | sampling =>
      rw [kindEq] at kind
      rw [run_handleRecv_sampling (h.sameRound.mode.trans kind.mode)]
      simp only [h.inflight_sub_one_eq_zero]
      rfl
  | estimation fast E =>
      rw [kindEq] at kind
      have chosen : s.client.m_forwardFastSubflow = (fast : Nat) := by
        rw [h.client, kindEq, replay_m_forwardFastSubflow]
        exact kind.chosen
      rw [run_handleRecv_estimation (h.sameRound.mode.trans kind.estimating.mode) chosen]
      simp only [h.inflight_sub_one_eq_zero]
      rfl

/-- After an echo that is not the last of the round only the client's state has changed. -/
theorem recv_eq (h : s.Running cfg earlier ρ c) (now : Int) (get : s.packets[i]? = some p)
    (stage : p.stage = .toClient seqTs sentAt servedAt) (more : s.outstanding ≠ 1) :
    s.recv cfg now i p seqTs sentAt servedAt =
      { s.deliver now i p seqTs sentAt servedAt with
        now := now
        client := replay ρ.kind
          ((s.deliver now i p seqTs sentAt servedAt).receivedIn ρ.number) c } := by
  have effects : (replay ρ.kind
      ((s.deliver now i p seqTs sentAt servedAt).receivedIn ρ.number) c).effects = [] :=
    replay_sameRound.effects.trans h.started.effects
  have after := h.run_handleRecv now get stage
  rw [if_neg more] at after
  rw [Sys.recv, after, afterHandler, absorb_of_effects_nil effects]

/-- An echo that is not the last of the round. -/
theorem recv (h : s.Running cfg earlier ρ c) (now : Int) (get : s.packets[i]? = some p)
    (stage : p.stage = .toClient seqTs sentAt servedAt) (more : s.outstanding ≠ 1) :
    (s.recv cfg now i p seqTs sentAt servedAt).Running cfg earlier ρ c ∧
      SameRound s.client (s.recv cfg now i p seqTs sentAt servedAt).client ∧
      (s.recv cfg now i p seqTs sentAt servedAt).servedLog = s.servedLog ∧
      (s.recv cfg now i p seqTs sentAt servedAt).receivedLog =
        s.receivedLog ++ [⟨p.tag, p.sock, seqTs, sentAt, servedAt, now⟩] := by
  obtain ⟨carries, received, fewer⟩ := h.carries.deliver now get stage
  have busy := h.busy
  rw [h.recv_eq now get stage more]
  refine ⟨?_, ?_, rfl, rfl⟩
  · exact {
      running := h.running
      started := h.started
      kind := h.kind
      carries := { carries with }
      client := rfl
      server := h.server
      busy := by
        change 0 < (s.deliver now i p seqTs sentAt servedAt).outstanding
        omega
      packets := by
        rw [Sys.deliver, List.length_set]
        exact h.packets
      dumps := h.dumps }
  · have same : SameRound c (replay ρ.kind
        ((s.deliver now i p seqTs sentAt servedAt).receivedIn ρ.number) c) := replay_sameRound
    have before := h.sameRound
    exact ⟨same.mode.trans before.mode.symm, same.low.trans before.low.symm,
      same.owd.trans before.owd.symm, same.rtt.trans before.rtt.symm,
      same.start.trans before.start.symm, same.effects.trans before.effects.symm⟩

end Running

end

end Sys

end OwdPacing
