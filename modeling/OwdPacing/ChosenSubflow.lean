import OwdPacing.Classification
import OwdPacing.FastPath

/-!
# The chosen fast subflow

The first estimation round takes the fast subflow from the last RTT record, every
later one from the estimation record before it, which `FinishRound` wrote from the
subflow of its own round.  So the value goes through all of these and stays what
RTT sampling found.
-/

namespace OwdPacing

open Container OWdClientBasic Round Runs

namespace OWdClientBasic

/-- Every estimation record names the fast subflow of the last RTT record. -/
def RecordsAgree (c : OWdClientBasic) : Prop :=
  ∀ stats ∈ c.m_owdRoundStats,
    stats.ForwardFastSubflow = (back c.m_rttRoundStats).ForwardFastSubflow

/-- In estimation mode the records and the client agree on the fast subflow; in
sampling mode there is no estimation record yet. -/
structure Chosen (c : OWdClientBasic) : Prop where
  records : c.RecordsAgree
  sampling : c.m_currentMode = .RTTSampling → c.m_owdRoundStats = []
  current : c.m_currentMode = .OWDEstimation →
    c.m_forwardFastSubflow = (back c.m_rttRoundStats).ForwardFastSubflow

variable {cfg : Config} {c c' : OWdClientBasic} {now : Int} {fast : Socket}

theorem recordsAgree_nil (none : c.m_owdRoundStats = []) : c.RecordsAgree := by
  intro stats mem
  rw [none] at mem
  exact absurd mem List.not_mem_nil

/-- The next round takes the subflow of the last RTT record, directly or not. -/
theorem RecordsAgree.chosenFastSubflow (h : c.RecordsAgree) :
    c.chosenFastSubflow = (back c.m_rttRoundStats).ForwardFastSubflow := by
  unfold OWdClientBasic.chosenFastSubflow
  split_ifs with none
  · rfl
  · obtain ⟨stats, last⟩ : ∃ stats, c.m_owdRoundStats.getLast? = some stats :=
      Option.isSome_iff_exists.mp (by simpa using none)
    rw [back, last, Option.getD_some]
    exact h stats (List.mem_of_getLast? last)

/-- The start of an estimation round. -/
theorem RecordsAgree.estimationStarted (h : c.RecordsAgree)
    (mode : c.m_currentMode = .OWDEstimation)
    (chosen : c.chosenFastSubflow = (fast : Nat)) : (estimationStarted cfg fast now c).Chosen where
  records := h
  sampling still := Mode.noConfusion (mode.symm.trans still)
  current _ := chosen.symm.trans h.chosenFastSubflow

/-- The record that the end of an estimation round adds. -/
theorem Chosen.owdClosed (h : c.Chosen) (mode : c.m_currentMode = .OWDEstimation) :
    (owdClosed cfg fast c).RecordsAgree := by
  intro stats mem
  rcases List.mem_append.mp mem with old | new
  · exact h.records stats old
  · rw [List.mem_singleton.mp new, finishedStats_forwardFastSubflow]
    exact h.current mode

/-- An echo that does not end the round changes nothing of this. -/
theorem Chosen.sameRound (h : c.Chosen) (same : SameRound c c')
    (chosen : c.m_currentMode = .OWDEstimation →
      c'.m_forwardFastSubflow = c.m_forwardFastSubflow) : c'.Chosen where
  records := by
    rw [RecordsAgree, same.owd, same.rtt]
    exact h.records
  sampling mode := same.owd.trans (h.sampling (same.mode.symm.trans mode))
  current mode := by
    have estimation : c.m_currentMode = .OWDEstimation := same.mode.symm.trans mode
    rw [chosen estimation, same.rtt]
    exact h.current estimation

/-! ## The dispatch of an echo -/

/-- `EstimateOWDRecv` hands an echo on `sock` to `handler`, whenever the echo arrives
and whatever the client has noted but its fast subflow. -/
def DispatchesTo (c : OWdClientBasic) (sock : Socket) (seqTs : SeqTsHeader)
    (handler : Int → SeqTsHeader → ClientM Unit) : Prop :=
  ∀ now c', c'.m_forwardFastSubflow = c.m_forwardFastSubflow →
    (recordOwdEcho now sock seqTs).run c' = (handler now seqTs).run c'

variable {sock slow : Socket} {seqTs : SeqTsHeader}

/-- Only the slow path notes the time of arrival in `m_arrivalTimeOnSlowPath`. -/
theorem slowEchoed_ne_fastEchoed (elsewhere : c.m_arrivalTimeOnSlowPath ≠ now) :
    slowEchoed slow now seqTs c ≠ fastEchoed now seqTs c := by
  intro same
  exact elsewhere (congrArg m_arrivalTimeOnSlowPath same).symm

theorem dispatchesTo_fast_iff (chosen : c.m_forwardFastSubflow = (fast : Nat)) :
    c.DispatchesTo sock seqTs newPacketFromFastPath ↔ sock = fast := by
  constructor
  · intro dispatched
    by_contra other
    have same := dispatched (c.m_arrivalTimeOnSlowPath + 1) c rfl
    rw [run_recordOwdEcho chosen, owdEchoed, if_neg other, run_newPacketFromFastPath] at same
    exact slowEchoed_ne_fastEchoed (by omega) (EStateM.Result.ok.inj same).2
  · intro isFast now c' same
    rw [run_recordOwdEcho (same.trans chosen), owdEchoed, if_pos isFast,
      run_newPacketFromFastPath]

theorem dispatchesTo_slow_iff (chosen : c.m_forwardFastSubflow = (fast : Nat)) :
    c.DispatchesTo sock seqTs newPacketFromSlowPath ↔ sock ≠ fast := by
  constructor
  · intro dispatched isFast
    have same := dispatched (c.m_arrivalTimeOnSlowPath + 1) c rfl
    rw [run_recordOwdEcho chosen, owdEchoed, if_pos isFast, run_newPacketFromSlowPath chosen]
      at same
    exact slowEchoed_ne_fastEchoed (by omega) (EStateM.Result.ok.inj same).2.symm
  · intro other now c' same
    have chosen' := same.trans chosen
    rw [run_recordOwdEcho chosen', owdEchoed, if_neg other, run_newPacketFromSlowPath chosen']

end OWdClientBasic

namespace Sys

variable {cfg : Config} {earlier : Nat} {ρ : Round} {s s' s₁ : Sys} {c c₁ : OWdClientBasic}
  {now : Int} {i r : Nat} {p : Packet} {e : Event} {fast : Socket} {E start sentAt servedAt : Int}
  {seqTs : SeqTsHeader}

/-! ## One step -/

/-- The network takes nothing from the client but its requests. -/
theorem chosen_absorb (h : c.Chosen) : (s.absorb now c).client.Chosen where
  records := h.records
  sampling := h.sampling
  current := h.current

/-- The end of an RTT round. -/
theorem TakenIn.chosen_sampling (h : TakenIn cfg earlier ⟨r, .sampling, start⟩ c s₁ c₁)
    (adm : cfg.Admissible) :
    (s₁.afterHandler now ((closeRttRound cfg now).run c₁)).client.Chosen := by
  have sampling : SamplingStarted cfg c := h.kind
  have mode : c₁.m_currentMode = .RTTSampling := h.sameRound.mode.trans sampling.mode
  obtain ⟨none, estimating, chosen⟩ := h.rttSwitched_spec
  have agree := recordsAgree_nil none
  rw [run_closeRttRound mode h.idle adm]
  split_ifs
  · rcases h.rttClosed_forwardFastSubflow.2 with unknown | found
    · rw [run_startNewOwdEstimationRound_of_neg estimating h.idle (by rw [chosen, unknown]; decide)]
      exact {
        records := agree
        sampling := fun _ => none
        current := fun _ => agree.chosenFastSubflow }
    · rw [run_startNewOwdEstimationRound now 1 estimating h.idle adm.probes_le
        (chosen.trans found)]
      exact chosen_absorb (agree.estimationStarted estimating.mode (chosen.trans found))
  · exact chosen_absorb {
      records := recordsAgree_nil none
      sampling := fun _ => none
      current := fun estimation => Mode.noConfusion (mode.symm.trans estimation) }

/-- The end of an estimation round. -/
theorem TakenIn.chosen_estimation
    (h : TakenIn cfg earlier ⟨r, .estimation fast E, start⟩ c s₁ c₁) (adm : cfg.Admissible)
    (taken : c₁.Chosen) :
    (s₁.afterHandler now ((closeOwdRound cfg now).run c₁)).client.Chosen := by
  have estimation : EstimationStarted cfg fast E start c := h.kind
  have mode : c₁.m_currentMode = .OWDEstimation :=
    h.sameRound.mode.trans estimation.estimating.mode
  have agree : (owdClosed cfg fast c₁).RecordsAgree := taken.owdClosed mode
  obtain ⟨chosen, -, closed⟩ := h.closeOwdRound_eq adm now
  rw [closed]
  split_ifs
  · exact chosen_absorb {
      records := agree
      sampling := fun sampling => Mode.noConfusion (mode.symm.trans sampling)
      current := fun _ => taken.current mode }
  · exact chosen_absorb (agree.estimationStarted mode (owdClosed_chosenFastSubflow.trans chosen))

/-- The receipt of an echo, whether it ends the round or not. -/
theorem Running.chosen_recv (h : s.Running cfg earlier ρ c) (adm : cfg.Admissible) (now : Int)
    (get : s.packets[i]? = some p) (stage : p.stage = .toClient seqTs sentAt servedAt)
    (chosen : s.client.Chosen) : (s.recv cfg now i p seqTs sentAt servedAt).client.Chosen := by
  have taken : (replay ρ.kind
      ((s.deliver now i p seqTs sentAt servedAt).receivedIn ρ.number) c).Chosen := by
    rw [(h.carries.deliver now get stage).2.1, replay_concat, ← h.client]
    refine chosen.sameRound echoed_sameRound fun mode => ?_
    obtain ⟨fast, E, start, same, -⟩ := h.estimation mode
    rw [same]
    exact echoed_m_forwardFastSubflow (E := E)
  by_cases one : s.outstanding = 1
  · have last := h.takenIn now adm.probes_pos get stage one
    have handler := h.run_handleRecv now get stage
    rw [if_pos one] at handler
    rw [Sys.recv, handler]
    rcases ρ with ⟨r, _ | ⟨fast, E⟩, start⟩
    · exact last.chosen_sampling adm
    · exact last.chosen_estimation adm taken
  · rw [h.recv_eq now get stage one]
    exact taken

/-- **One step keeps the agreement.** -/
theorem Invariant.chosen_step (h : s.Invariant cfg c₀) (adm : cfg.Admissible)
    (chosen : s.client.Chosen) (step : s.next cfg e = some s') : s'.client.Chosen := by
  obtain ⟨-, p, get, cases⟩ := next_cases step
  have mem : p ∈ s.packets := List.mem_of_getElem? get
  rcases cases with ⟨due, -, rfl⟩ | ⟨seqTs, sentAt, stage, rfl⟩ |
    ⟨seqTs, sentAt, servedAt, stage, rfl⟩
  · exact chosen
  · obtain ⟨ρ, c, run⟩ := h.running mem (Carries.outstanding_of_toServer stage)
    rw [(run.serve e.time get stage).2.1]
    exact chosen
  · obtain ⟨ρ, c, run⟩ := h.running mem (Carries.outstanding_of_toClient stage)
    exact run.chosen_recv adm e.time get stage chosen

/-! ## Runs -/

theorem boot_chosen (now : Int) : (boot now).client.Chosen where
  records := recordsAgree_nil rfl
  sampling _ := rfl
  current mode := Mode.noConfusion mode

/-- The agreement holds in every reachable state. -/
theorem chosen_of_reach (adm : cfg.Admissible) (reach : Reach (next cfg) anyEvent (boot now) s) :
    s.client.Chosen :=
  reach.invariant (I := fun s => s.client.Chosen) (boot_chosen now) fun before chosen _ step =>
    ((Start.boot now).reach adm before).chosen_step adm chosen step

/-- Each RTT record is that of a round that is over. -/
theorem History.sampledRound (h : s.History cfg c₀) (fresh : c₀.m_rttRoundStats = []) {k : Nat}
    (lt : k < s.client.m_rttRoundStats.length) :
    ∃ start c, RoundOver cfg ⟨k, .sampling, start⟩ c s s.client.m_rttRoundStats[k] := by
  obtain ⟨start, c, -, ended⟩ := h.sampled k _ (by rw [fresh]; exact Nat.zero_le k)
    (List.getElem?_eq_getElem lt)
  exact ⟨start, c, ended⟩

/-- The only fast subflow that an RTT record can know is socket 1. -/
theorem RoundOver.forwardFastSubflow_of_nonneg {stats : RoundStats}
    (ended : RoundOver cfg ⟨r, .sampling, start⟩ c s stats)
    (found : 0 ≤ stats.ForwardFastSubflow) :
    stats.ForwardFastSubflow = ((1 : Socket) : Nat) := by
  have sampling : SamplingStarted cfg c := ended.kind
  have known := ended.forwardFastSubflow
  split_ifs at known
  · exact known
  · rcases sampling.known with unknown | one
    · rw [known, unknown] at found
      exact absurd found (by decide)
    · exact known.trans one

theorem History.found_one (h : s.History cfg c₀) (fresh : c₀.m_rttRoundStats = [])
    (found : 0 ≤ (back s.client.m_rttRoundStats).ForwardFastSubflow) :
    (back s.client.m_rttRoundStats).ForwardFastSubflow = ((1 : Socket) : Nat) := by
  rcases Nat.eq_zero_or_pos s.client.m_rttRoundStats.length with none | some
  · rw [List.length_eq_zero_iff.mp none] at found
    exact absurd found (by decide)
  · have lt := Nat.sub_one_lt_of_lt some
    obtain ⟨start, c, ended⟩ := h.sampledRound fresh lt
    rw [back, List.getLast?_eq_getElem?, List.getElem?_eq_getElem lt, Option.getD_some] at found ⊢
    exact ended.forwardFastSubflow_of_nonneg found

/-- And then in some round the server processed its packet first. -/
theorem History.exists_firstServed_one (h : s.History cfg c₀) (fresh : c₀.m_rttRoundStats = [])
    (found : 0 ≤ (back s.client.m_rttRoundStats).ForwardFastSubflow) :
    ∃ k < s.client.m_rttRoundStats.length, FirstServed s.served k 1 := by
  have unknown := h.unknown_iff fresh (Nat.le_refl _)
  rw [List.take_length] at unknown
  by_contra none
  push Not at none
  have all : ∀ k < s.client.m_rttRoundStats.length, FirstServed s.served k 0 := by
    intro k lt
    obtain ⟨start, c, ended⟩ := h.sampledRound fresh lt
    exact ended.firstServed.resolve_right (none k lt)
  rw [unknown.mpr all] at found
  exact absurd found (by decide)

/-- Once an estimation round has been started sampling is over and knows the fast subflow. -/
theorem Invariant.sampledAll (h : s.Invariant cfg c₀)
    (mode : s.client.m_currentMode = .OWDEstimation) (running : s.halted = none) :
    s.client.m_rttRoundStats.length = cfg.sampleRTTmaxRounds.toNat ∧
      0 ≤ (back s.client.m_rttRoundStats).ForwardFastSubflow := by
  rcases h.phase with ⟨ρ, c, run⟩ | quiet
  · obtain ⟨fast, E, start, -, estimation, -⟩ := run.estimation mode
    rw [run.sameRound.rtt]
    exact ⟨estimation.allSampled, estimation.found⟩
  · cases quiet.outcome with
    | finished _ _ sampled _ found => exact ⟨sampled, found⟩
    | aborted halted => exact absurd (running.symm.trans halted) nofun

/-- The echoes of the probes are those on the fast subflow, and that of the slow
packet is the one on the other. -/
theorem Running.sock_iff (h : s.Running cfg earlier ⟨r, .estimation fast E, start⟩ c)
    (mem : p ∈ s.packets) (stage : p.stage = .toClient seqTs sentAt servedAt) :
    (p.sock = fast ↔ ∃ i < cfg.probes, p.tag = probeTag r i) ∧
      (p.sock ≠ fast ↔ p.tag = slowTag r) := by
  have planned := h.carries.planned mem (Carries.outstanding_of_toClient stage)
  rcases mem_plan_estimation.mp planned with call | ⟨i, lt, call⟩
  · have tag : p.tag = slowTag r := congrArg SendCall.tag call
    have sock : p.sock = fast.other := congrArg SendCall.sock call
    have slow : ¬ p.sock = fast := sock ▸ fast.other_ne
    refine ⟨iff_of_false slow ?_, iff_of_true slow tag⟩
    rintro ⟨i, -, probe⟩
    exact absurd (probe.symm.trans tag) (probeTag_ne_slowTag _ i)
  · have tag : p.tag = probeTag r i := congrArg SendCall.tag call
    have sock : p.sock = fast := congrArg SendCall.sock call
    refine ⟨iff_of_true sock ⟨i, lt, tag⟩, iff_of_false (not_not_intro sock) ?_⟩
    intro slow
    exact absurd (tag.symm.trans slow) (probeTag_ne_slowTag _ i)

/-- `EstimateOWDRecv` gives the echoes of the probes to `NewPacketFromFastPath`, and
that of the slow packet to `NewPacketFromSlowPath`. -/
theorem Running.dispatch (h : s.Running cfg earlier ρ c)
    (mode : s.client.m_currentMode = .OWDEstimation) (mem : p ∈ s.packets)
    (stage : p.stage = .toClient seqTs sentAt servedAt) :
    (((p.sock : Nat) : Int) = s.client.forwardFastSubflowId ↔
        ∃ i < cfg.probes, p.tag = probeTag s.client.roundsDone i) ∧
      (((p.sock : Nat) : Int) ≠ s.client.forwardFastSubflowId ↔
        p.tag = slowTag s.client.roundsDone) ∧
      (s.client.DispatchesTo p.sock seqTs newPacketFromFastPath ↔
        ∃ i < cfg.probes, p.tag = probeTag s.client.roundsDone i) ∧
      (s.client.DispatchesTo p.sock seqTs newPacketFromSlowPath ↔
        p.tag = slowTag s.client.roundsDone) := by
  obtain ⟨fast, E, start, rfl, -, chosen⟩ := h.estimation mode
  have isFast : ((p.sock : Nat) : Int) = s.client.forwardFastSubflowId ↔ p.sock = fast := by
    rw [forwardFastSubflowId, chosen, Int.natCast_inj, Fin.val_inj]
  obtain ⟨onFast, onSlow⟩ := h.sock_iff mem stage
  rw [Ne, isFast, dispatchesTo_fast_iff chosen, dispatchesTo_slow_iff chosen]
  exact ⟨onFast, onSlow, onFast, onSlow⟩

/-- The fast subflow of a run of the application is the one of its last RTT record. -/
theorem fastSubflow_eq (adm : cfg.Admissible) (reach : Reach (next cfg) anyEvent (boot now) s)
    (mode : s.client.m_currentMode = .OWDEstimation) (running : s.halted = none) :
    s.client.m_forwardFastSubflow = ((1 : Socket) : Nat) ∧
      (back s.client.m_rttRoundStats).ForwardFastSubflow = ((1 : Socket) : Nat) ∧
      ∃ k < cfg.sampleRTTmaxRounds.toNat, FirstServed s.served k 1 := by
  have inv := (Start.boot now).reach adm reach
  obtain ⟨all, known⟩ := inv.sampledAll mode running
  have one := inv.history.found_one rfl known
  have first := inv.history.exists_firstServed_one rfl known
  rw [all] at first
  exact ⟨((chosen_of_reach adm reach).current mode).trans one, one, first⟩

/-- **The chosen fast subflow is sound and never changes.**  Once an estimation round
has been started the fast subflow is a socket whose packet the server processed
first in RTT sampling, the last RTT record and all estimation records name it, the
slow subflow is the other socket, and `EstimateOWDRecv` hands exactly the echoes of
the round's probes to `NewPacketFromFastPath` and exactly that of its slow packet to
`NewPacketFromSlowPath`; and the fast subflow is the same in all later states. -/
theorem fastSubflow_sound (adm : cfg.Admissible) (reach : Reach (next cfg) anyEvent (boot now) s)
    (mode : s.client.m_currentMode = .OWDEstimation) (running : s.halted = none) :
    ∃ fast : Socket, s.client.m_forwardFastSubflow = (fast : Nat) ∧
      (∃ k < cfg.sampleRTTmaxRounds.toNat, FirstServed s.served k fast) ∧
      (cfg.sampleRTTmaxRounds = 1 → FirstServed s.served 0 fast) ∧
      (back s.client.m_rttRoundStats).ForwardFastSubflow = (fast : Nat) ∧
      (∀ stats ∈ s.client.m_owdRoundStats, stats.ForwardFastSubflow = (fast : Nat)) ∧
      forwardSlowSubflowId.run s.client = .ok ((fast.other : Nat) : Int) s.client ∧
      (∀ p ∈ s.packets, ∀ seqTs sentAt servedAt, p.stage = .toClient seqTs sentAt servedAt →
        (((p.sock : Nat) : Int) = s.client.forwardFastSubflowId ↔
          ∃ i < cfg.probes, p.tag = probeTag s.client.roundsDone i) ∧
        (((p.sock : Nat) : Int) ≠ s.client.forwardFastSubflowId ↔
          p.tag = slowTag s.client.roundsDone) ∧
        (s.client.DispatchesTo p.sock seqTs newPacketFromFastPath ↔
          ∃ i < cfg.probes, p.tag = probeTag s.client.roundsDone i) ∧
        (s.client.DispatchesTo p.sock seqTs newPacketFromSlowPath ↔
          p.tag = slowTag s.client.roundsDone)) ∧
      ∀ s', Reach (next cfg) anyEvent s s' → s'.client.m_currentMode = .OWDEstimation →
        s'.halted = none → s'.client.m_forwardFastSubflow = (fast : Nat) := by
  obtain ⟨current, sampled, k, lt, first⟩ := fastSubflow_eq adm reach mode running
  refine ⟨1, current, ⟨k, lt, first⟩, ?_, sampled, ?_, run_forwardSlowSubflowId current, ?_, ?_⟩
  · intro single
    rw [single] at lt
    obtain rfl : k = 0 := Nat.lt_one_iff.mp lt
    exact first
  · intro stats mem
    exact ((chosen_of_reach adm reach).records stats mem).trans sampled
  · intro p mem seqTs sentAt servedAt stage
    obtain ⟨ρ, c, run⟩ := ((Start.boot now).reach adm reach).running mem
      (Carries.outstanding_of_toClient stage)
    exact run.dispatch mode mem stage
  · intro s' later mode' running'
    exact (fastSubflow_eq adm (reach.trans later) mode' running').1

/-- The slow packet of the second estimation round, on its way back. -/
def slowPacketBack : Packet :=
  ⟨⟨slowTag 2, 0, 6, 4000070⟩, .toClient ⟨4, 4000080, 4000070⟩ 4000070 4000080⟩

theorem fastSubflow_sound_framed : ∃ s, Reach (next .nanoseconds) anyEvent (boot 0) s ∧
    s.client.m_owdRoundStats.length = 1 ∧ slowPacketBack ∈ s.packets ∧
    s.client.DispatchesTo 0 ⟨4, 4000080, 4000070⟩ newPacketFromSlowPath ∧ ∃ fast : Socket,
      s.client.m_forwardFastSubflow = (fast : Nat) ∧ FirstServed s.served 0 fast := by
  have reach : Reach (next .nanoseconds) anyEvent (boot 0)
      (final (next .nanoseconds) (framedRound ++ [framedRoundEnd, ⟨4000080, 6⟩]) (boot 0)) :=
    .final (by decide +kernel) .any
  have back : (final (next .nanoseconds) (framedRound ++ [framedRoundEnd, ⟨4000080, 6⟩])
      (boot 0)).packets[6]? = some slowPacketBack := by decide +kernel
  have round : (final (next .nanoseconds) (framedRound ++ [framedRoundEnd, ⟨4000080, 6⟩])
      (boot 0)).client.roundsDone = 2 := by decide +kernel
  obtain ⟨fast, current, -, first, -, -, -, dispatch, -⟩ :=
    fastSubflow_sound Config.nanoseconds_admissible reach (by decide +kernel) (by decide +kernel)
  have mem := List.mem_of_getElem? back
  obtain ⟨-, -, -, slow⟩ := dispatch _ mem _ _ _ rfl
  rw [round] at slow
  exact ⟨_, reach, by decide +kernel, mem, slow.mpr rfl, fast, current, first (by decide)⟩

end Sys

end OwdPacing
