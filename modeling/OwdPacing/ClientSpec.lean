import OwdPacing.ProbeSchedule

/-!
# What the client's handlers do

One equation a member function, for the states in which no assertion of it
fails: the state a round starts in, the state an echo leaves, and the state and
record the end of a round leaves.  The modules above use these and unfold no
handler.
-/

namespace OwdPacing

open Container StateError

namespace OWdClientBasic

variable {cfg : Config} {c : OWdClientBasic} {now : Int}

/-! ## Starting a round -/

/-- The state `SampleRTTStart` leaves. -/
def samplingStarted (now : Int) (c : OWdClientBasic) : OWdClientBasic :=
  { c with
    m_inflight := 2
    effects := c.effects ++
      [.send 0 (sendHeader c.m_lowestRoundSeq now),
      .send 1 (sendHeader (c.m_lowestRoundSeq + 1) now)] }

theorem run_sampleRTTStart (mode : c.m_currentMode = .RTTSampling) (idle : c.m_inflight = 0) :
    (sampleRTTStart now).run c = .ok () (samplingStarted now c) := by
  rw [sampleRTTStart, run_get_bind, run_nsAssert_bind mode, run_get_bind, run_nsAssert_bind idle]
  have count : c.m_inflight + 1 + 1 = 2 := by rw [idle]; rfl
  simp only [sockets, List.forM_cons, List.forM_nil, send, emit, bind_assoc]
  rw [run_get_bind, run_modify_bind, run_modify_bind, run_get_bind, run_modify_bind,
    run_modify_bind, EStateM.run_pure, samplingStarted]
  simp only [ask, Fin.val_zero, Fin.val_one]
  rw [count, List.append_assoc]
  have first : c.m_lowestRoundSeq + UInt32.ofNat 0 = c.m_lowestRoundSeq := UInt32.add_zero _
  rw [first]
  rfl

/-- What `StartNewOwdEstimationRound` asks of the simulator: the slow packet now,
and the probes later. -/
def roundEffects (cfg : Config) (fast : Socket) (E : Int) (low : UInt32) (now : Int) :
    List Effect :=
  .send fast.other (sendHeader (low + 1) now) ::
    (List.range cfg.probes).map fun i =>
      .schedule (cfg.probeOffset E i) fast low (now + cfg.probeOffset E i)

/-- The state `StartNewOwdEstimationRound` leaves. -/
def estimationStarted (cfg : Config) (fast : Socket) (now : Int) (c : OWdClientBasic) :
    OWdClientBasic :=
  { resetRound c with
    m_forwardFastSubflow := (fast : Nat)
    m_timeOfFirstSentPacket := now
    m_inflight := cfg.probesInARound + 1
    effects := c.effects ++ roundEffects cfg fast c.previousEstimate c.m_lowestRoundSeq now }

/-- The fast subflow that `StartNewOwdEstimationRound` takes from the records. -/
def chosenFastSubflow (c : OWdClientBasic) : Int :=
  if c.m_owdRoundStats = [] then (back c.m_rttRoundStats).ForwardFastSubflow
  else (back c.m_owdRoundStats).ForwardFastSubflow

theorem run_chooseFastSubflow (h : c.Estimating) :
    chooseFastSubflow.run c = .ok () { c with m_forwardFastSubflow := c.chosenFastSubflow } := by
  rw [chooseFastSubflow, run_get_bind, chosenFastSubflow]
  simp only [getRoundNo_eq_zero_iff h.mode]
  split_ifs with first
  · rw [run_nsAssert_bind h.sampled]; rfl
  · rfl

theorem run_forwardSlowSubflowId {fast : Socket} (chosen : c.m_forwardFastSubflow = (fast : Nat)) :
    forwardSlowSubflowId.run c = .ok ((fast.other : Nat) : Int) c := by
  have nonneg : c.m_forwardFastSubflow ≥ 0 := by rw [chosen]; exact Int.natCast_nonneg _
  have slowId : ∀ f : Socket, (((f : Nat) : Int) + 1).tmod 2 = (f.other : Nat) := by decide
  rw [forwardSlowSubflowId, run_get_bind, run_nsAssert_bind nonneg, EStateM.run_pure, chosen,
    slowId]

theorem ask_ask (es es' : List Effect) : (c.ask es).ask es' = c.ask (es ++ es') := by
  simp only [ask, List.append_assoc]

/-- The request that schedules probe `i`. -/
def probeEffect (cfg : Config) (fast : Socket) (c : OWdClientBasic) (i : Nat) : Effect :=
  .schedule (cfg.probeOffset c.previousEstimate i) fast c.m_lowestRoundSeq
    (c.m_timeOfFirstSentPacket + cfg.probeOffset c.previousEstimate i)

theorem run_scheduleProbe (h : c.Estimating) (fast : Socket) {i : Nat} (lt : i < cfg.probes)
    (small : cfg.probes ≤ 255) :
    (scheduleProbe cfg fast i).run c = .ok () (c.ask [probeEffect cfg fast c i]) := by
  have delay := run_getProbeDelay_ofNat cfg h.mode (fun _ => h.sampled) h.estimate small lt
  rw [scheduleProbe, run_bind_ok delay, run_nsAssert_bind (Config.probeOffset_nonneg i)]
  rfl

theorem run_scheduleProbes (h : c.Estimating) (fast : Socket) (small : cfg.probes ≤ 255)
    {l : List Nat} (lt : ∀ i ∈ l, i < cfg.probes) :
    (forM l (scheduleProbe cfg fast)).run c = .ok () (c.ask (l.map (probeEffect cfg fast c))) := by
  induction l generalizing c with
  | nil => simp only [List.forM_nil, List.map_nil, ask, List.append_nil]; rfl
  | cons i l ih =>
      have later : (c.ask [probeEffect cfg fast c i]).Estimating := ⟨h.mode, h.sampled, h.estimate⟩
      rw [List.forM_cons, run_bind_ok (run_scheduleProbe h fast (lt i List.mem_cons_self) small),
        ih later fun j hj => lt j (List.mem_cons_of_mem _ hj), ask_ask]
      rfl

/-- The state in which `StartNewOwdEstimationRound` schedules the probes. -/
def slowSent (fast : Socket) (now : Int) (c : OWdClientBasic) : OWdClientBasic :=
  OWdClientBasic.ask
    { resetRound c with m_forwardFastSubflow := (fast : Nat), m_timeOfFirstSentPacket := now }
    [.send fast.other (sendHeader (c.m_lowestRoundSeq + 1) now)]

theorem run_startNewOwdEstimationRound (now : Int) (fast : Socket) (h : c.Estimating)
    (idle : c.m_inflight = 0) (small : cfg.probes ≤ 255)
    (chosen : c.chosenFastSubflow = (fast : Nat)) :
    (startNewOwdEstimationRound cfg now).run c = .ok () (estimationStarted cfg fast now c) := by
  have reset : (resetRound c).Estimating := ⟨h.mode, h.sampled, h.estimate⟩
  have same : (resetRound c).chosenFastSubflow = (fast : Nat) := chosen
  have range : ∀ f : Socket, ((f : Nat) : Int) ≥ 0 ∧ ((f : Nat) : Int) < NUM_INTERFACES := by decide
  have valid : (resetRound c).chosenFastSubflow ≥ 0 ∧
      (resetRound c).chosenFastSubflow < NUM_INTERFACES := by rw [same]; exact range fast
  rw [startNewOwdEstimationRound, run_get_bind, run_nsAssert_bind h.mode, run_get_bind,
    run_nsAssert_bind idle, run_modify_bind, run_bind_ok (run_chooseFastSubflow reset),
    run_get_bind]
  dsimp only [forwardFastSubflowId]
  rw [run_nsAssert_bind valid, run_bind_ok (run_forwardSlowSubflowId same), run_modify_bind,
    run_get_bind, same, Socket.ofId_coe, Socket.ofId_coe, send, emit, run_modify_bind]
  have probes := run_scheduleProbes (c := slowSent fast now c) ⟨h.mode, h.sampled, h.estimate⟩
    fast small fun i => List.mem_range.mp
  refine (run_bind_ok probes).trans ?_
  rw [slowSent, ask_ask]
  rfl

/-- Without a fast subflow the assertion of `StartNewOwdEstimationRound` stops the run. -/
theorem run_startNewOwdEstimationRound_of_neg (h : c.Estimating) (idle : c.m_inflight = 0)
    (none : c.chosenFastSubflow < 0) :
    (startNewOwdEstimationRound cfg now).run c =
      .error .startNewOwdEstimationRound_forwardFastSubflow
        { resetRound c with m_forwardFastSubflow := c.chosenFastSubflow } := by
  have reset : (resetRound c).Estimating := ⟨h.mode, h.sampled, h.estimate⟩
  have same : (resetRound c).chosenFastSubflow = c.chosenFastSubflow := rfl
  rw [startNewOwdEstimationRound, run_get_bind, run_nsAssert_bind h.mode, run_get_bind,
    run_nsAssert_bind idle, run_modify_bind, run_bind_ok (run_chooseFastSubflow reset),
    run_get_bind]
  dsimp only [forwardFastSubflowId]
  rw [run_nsAssert_bind_of_not (by omega), same]

/-! ## An echo -/

/-- The measurements of an echo for the subflow `sock`. -/
def measured (now : Int) (sock : Socket) (seqTs : SeqTsHeader) (stats : RoundStats) : RoundStats :=
  { stats with
    rtt := Function.update stats.rtt sock (now - seqTs.receiverTs)
    RealForwardDelay :=
      Function.update stats.RealForwardDelay sock (seqTs.senderTs - seqTs.receiverTs)
    RealReverseDelay := Function.update stats.RealReverseDelay sock (now - seqTs.senderTs) }

/-- The state `SamplingRTTRecv` leaves when it does not close the round. -/
def rttEchoed (now : Int) (sock : Socket) (seqTs : SeqTsHeader) (c : OWdClientBasic) :
    OWdClientBasic :=
  let stats := measured now sock seqTs c.m_currentRoundStats
  if seqTs.seq + 1 = c.m_lowestRoundSeq ∧ stats.ForwardFastSubflow < 0 then
    { c with
      m_currentRoundStats := { stats with ForwardFastSubflow := (sock : Nat) }
      m_forwardFastSubflow := (sock : Nat) }
  else
    { c with m_currentRoundStats := stats }

theorem run_recordRttEcho (sock : Socket) (seqTs : SeqTsHeader) :
    (recordRttEcho now sock seqTs).run c = .ok () (rttEchoed now sock seqTs c) := by
  rw [recordRttEcho, modifyStats, run_modify_bind, run_get_bind, rttEchoed]
  dsimp only
  split_ifs with fresh stale
  · rfl
  · exact absurd fresh stale
  · exact absurd ‹_› fresh
  · rfl

/-- The per-probe record `NewPacketFromFastPath` keeps. -/
def probeStats (now : Int) (seqTs : SeqTsHeader) : PacketStats where
  DepartureTime := seqTs.receiverTs
  RealForwardDelay := seqTs.senderTs - seqTs.receiverTs
  RealReverseDelay := now - seqTs.senderTs

/-- The state `NewPacketFromFastPath` leaves. -/
def fastEchoed (now : Int) (seqTs : SeqTsHeader) (c : OWdClientBasic) : OWdClientBasic :=
  { c with
    m_probes := c.m_probes.set now (probeStats now seqTs)
    m_arrivalTimeLastProbeBeforeSlowPath :=
      if seqTs.seq = c.m_lowestRoundSeq then now else c.m_arrivalTimeLastProbeBeforeSlowPath
    m_arrivalTimeFirstProbeAfterSlowPath :=
      if seqTs.seq ≠ c.m_lowestRoundSeq ∧ Time.IsZero c.m_arrivalTimeFirstProbeAfterSlowPath then
        now
      else c.m_arrivalTimeFirstProbeAfterSlowPath }

theorem run_newPacketFromFastPath (seqTs : SeqTsHeader) :
    (newPacketFromFastPath now seqTs).run c = .ok () (fastEchoed now seqTs c) := by
  rw [newPacketFromFastPath, run_modify_bind, run_get_bind, fastEchoed]
  dsimp only
  by_cases before : seqTs.seq = c.m_lowestRoundSeq
  · rw [if_pos before, if_pos before, if_neg (fun h => h.1 before)]; rfl
  · by_cases first : Time.IsZero c.m_arrivalTimeFirstProbeAfterSlowPath
    · rw [if_neg before, if_pos first, if_neg before, if_pos ⟨before, first⟩]; rfl
    · rw [if_neg before, if_neg first, if_neg before, if_neg (fun h => first h.2)]; rfl

/-- The state `NewPacketFromSlowPath` leaves. -/
def slowEchoed (slow : Socket) (now : Int) (seqTs : SeqTsHeader) (c : OWdClientBasic) :
    OWdClientBasic :=
  { c with
    m_arrivalTimeOnSlowPath := now
    m_slowPacket := (now, seqTs.receiverTs)
    m_currentRoundStats := measured now slow seqTs c.m_currentRoundStats }

theorem run_newPacketFromSlowPath {fast : Socket} (chosen : c.m_forwardFastSubflow = (fast : Nat))
    (seqTs : SeqTsHeader) :
    (newPacketFromSlowPath now seqTs).run c = .ok () (slowEchoed fast.other now seqTs c) := by
  have slow : forwardSlowSubflowId.run { c with m_arrivalTimeOnSlowPath := now } =
      .ok ((fast.other : Nat) : Int) { c with m_arrivalTimeOnSlowPath := now } :=
    run_forwardSlowSubflowId chosen
  rw [newPacketFromSlowPath, run_modify_bind, run_bind_ok slow, run_modify_bind, Socket.ofId_coe]
  rfl

/-- The state the dispatch of `EstimateOWDRecv` leaves. -/
def owdEchoed (fast : Socket) (now : Int) (sock : Socket) (seqTs : SeqTsHeader)
    (c : OWdClientBasic) : OWdClientBasic :=
  if sock = fast then fastEchoed now seqTs c else slowEchoed fast.other now seqTs c

theorem run_recordOwdEcho {fast : Socket} (chosen : c.m_forwardFastSubflow = (fast : Nat))
    (sock : Socket) (seqTs : SeqTsHeader) :
    (recordOwdEcho now sock seqTs).run c = .ok () (owdEchoed fast now sock seqTs c) := by
  have dispatch : ((sock : Nat) : Int) = c.m_forwardFastSubflow ↔ sock = fast := by
    rw [chosen, Int.natCast_inj, Fin.val_inj]
  rw [recordOwdEcho, run_get_bind, owdEchoed]
  simp only [forwardFastSubflowId, dispatch]
  split_ifs
  · exact run_newPacketFromFastPath seqTs
  · exact run_newPacketFromSlowPath chosen seqTs

/-- One packet less in flight. -/
def decrement (c : OWdClientBasic) : OWdClientBasic := { c with m_inflight := c.m_inflight - 1 }

/-- One echo: one packet less in flight, then the handler of the mode. -/
theorem run_handleRecv (sock : Socket) (seqTs : SeqTsHeader) :
    (handleRecv cfg now sock [seqTs]).run c =
      if c.m_currentMode = .RTTSampling then (samplingRTTRecv cfg now sock seqTs).run c.decrement
      else (estimateOWDRecv cfg now sock seqTs).run c.decrement := by
  rw [handleRecv, List.forM_cons, List.forM_nil, bind_pure_unit, handleRecvPacket,
    run_modify_bind, run_get_bind]
  dsimp only
  split_ifs <;> rfl

/-- An echo in RTT sampling. -/
theorem run_handleRecv_sampling (mode : c.m_currentMode = .RTTSampling) (sock : Socket)
    (seqTs : SeqTsHeader) :
    (handleRecv cfg now sock [seqTs]).run c =
      if c.m_inflight - 1 = 0 then
        (closeRttRound cfg now).run (rttEchoed now sock seqTs c.decrement)
      else .ok () (rttEchoed now sock seqTs c.decrement) := by
  have inflight : (rttEchoed now sock seqTs c.decrement).m_inflight = c.m_inflight - 1 := by
    rw [rttEchoed]
    split_ifs <;> rfl
  rw [run_handleRecv, if_pos mode, samplingRTTRecv, run_bind_ok (run_recordRttEcho sock seqTs),
    run_get_bind]
  simp only [inflight, UInt32.le_zero_iff]
  split_ifs <;> rfl

/-- An echo in OWD estimation. -/
theorem run_handleRecv_estimation (mode : c.m_currentMode = .OWDEstimation) {fast : Socket}
    (chosen : c.m_forwardFastSubflow = (fast : Nat)) (sock : Socket) (seqTs : SeqTsHeader) :
    (handleRecv cfg now sock [seqTs]).run c =
      if c.m_inflight - 1 = 0 then
        (closeOwdRound cfg now).run (owdEchoed fast now sock seqTs c.decrement)
      else .ok () (owdEchoed fast now sock seqTs c.decrement) := by
  have other : ¬ c.m_currentMode = .RTTSampling := by rw [mode]; decide
  have later : c.decrement.m_currentMode = .OWDEstimation := mode
  have inflight : (owdEchoed fast now sock seqTs c.decrement).m_inflight = c.m_inflight - 1 := by
    unfold owdEchoed
    split_ifs <;> rfl
  rw [run_handleRecv, if_neg other, estimateOWDRecv, run_get_bind, run_nsAssert_bind later,
    run_bind_ok (run_recordOwdEcho (c := c.decrement) chosen sock seqTs), run_get_bind]
  simp only [inflight, UInt32.le_zero_iff]
  split_ifs <;> rfl

end OWdClientBasic

end OwdPacing
