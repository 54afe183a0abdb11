import OwdPacing.Network
import OwdPacing.RoundEnd
import Mathlib.Algebra.Group.Pi.Lemmas

/-!
# Independence of the server's clock

The client's programs commute with forgetting the server's clock: a state in
which every forward delay is replaced by the sum of both delays, which does not
depend on that clock.  So two runs on the same echoes, but for the timestamps of
the server, agree on all that the sums determine, which is everything except the
delays themselves.
-/

namespace OwdPacing

open Container StateError

/-! ## Forgetting the server's clock -/

/-- The two delays become their sum and nothing. -/
def PacketStats.blind (stats : PacketStats) : PacketStats :=
  { stats with
    RealForwardDelay := stats.RealForwardDelay + stats.RealReverseDelay
    RealReverseDelay := 0 }

@[inherit_doc PacketStats.blind]
def RoundStats.blind (stats : RoundStats) : RoundStats :=
  { stats with
    RealForwardDelay := stats.RealForwardDelay + stats.RealReverseDelay
    RealReverseDelay := 0 }

/-- The records of a dump without the server's clock. -/
def Effect.blind : Effect → Effect
  | .dumpOwdSamples samples => .dumpOwdSamples (samples.map RoundStats.blind)
  | effect => effect

/-- The header with the client's clock for the server's. -/
def SeqTsHeader.blind (now : Int) (seqTs : SeqTsHeader) : SeqTsHeader :=
  { seqTs with senderTs := now }

/-- The two delays of an echo add up to a time of the client's clock alone. -/
theorem SeqTsHeader.sum_delays (seqTs : SeqTsHeader) (now : Int) :
    seqTs.senderTs - seqTs.receiverTs + (now - seqTs.senderTs) = now - seqTs.receiverTs := by
  omega

namespace OWdClientBasic

/-- The state without the server's clock. -/
def blind (c : OWdClientBasic) : OWdClientBasic :=
  { c with
    m_owdRoundStats := c.m_owdRoundStats.map RoundStats.blind
    m_rttRoundStats := c.m_rttRoundStats.map RoundStats.blind
    m_currentRoundStats := c.m_currentRoundStats.blind
    m_probes := c.m_probes.map PacketStats.blind
    effects := c.effects.map Effect.blind }

end OWdClientBasic

theorem back_blind (records : List RoundStats) :
    back (records.map RoundStats.blind) = (back records).blind := by
  rw [back, back, List.getLast?_map]
  cases records.getLast? <;> rfl

theorem estimate_blind (records : List RoundStats) :
    (back (records.map RoundStats.blind)).EstimatedForwardDeltaOWD =
      (back records).EstimatedForwardDeltaOWD := by
  rw [back_blind]
  rfl

theorem forwardFastSubflow_blind (records : List RoundStats) :
    (back (records.map RoundStats.blind)).ForwardFastSubflow =
      (back records).ForwardFastSubflow := by
  rw [back_blind]
  rfl

/-- New delays for a subflow, with the server's clock forgotten. -/
theorem RoundStats.blind_update (stats : RoundStats) (sock : Socket) (forward reverse : Int) :
    RoundStats.blind { stats with
      RealForwardDelay := Function.update stats.RealForwardDelay sock forward
      RealReverseDelay := Function.update stats.RealReverseDelay sock reverse } =
    { stats.blind with
      RealForwardDelay := Function.update stats.blind.RealForwardDelay sock (forward + reverse)
      RealReverseDelay := Function.update stats.blind.RealReverseDelay sock 0 } := by
  have none : Function.update stats.blind.RealReverseDelay sock 0 = 0 := Function.update_zero sock
  rw [none]
  dsimp only [RoundStats.blind]
  rw [Function.update_add]

theorem nsAssert_hom {σ τ : Type} {h : σ → τ} {p p' : Prop} [Decidable p] [Decidable p']
    (failure : Failure) (same : p' ↔ p) :
    Hom h id (nsAssert p failure) (nsAssert p' failure) :=
  Hom.ite same (Hom.ret rfl) (Hom.fail failure)

namespace OWdClientBasic

variable {cfg : Config} {now : Int}

/-! ## The members, one by one -/

theorem modifyStats_hom {f f' : RoundStats → RoundStats}
    (eq : ∀ stats, f' stats.blind = (f stats).blind) :
    Hom blind id (modifyStats f) (modifyStats f') :=
  Hom.update fun c => by rw [blind, blind, eq]

theorem emit_hom (effect : Effect) : Hom blind id (emit effect) (emit effect.blind) :=
  Hom.update fun c => by rw [ask, ask, blind, blind, List.map_append]; rfl

theorem getRoundNo_blind (c : OWdClientBasic) : c.blind.getRoundNo = c.getRoundNo := by
  unfold getRoundNo
  unfold blind
  cases c.m_currentMode <;> simp only [List.length_map]

theorem changeMode_hom (mode : Mode) : Hom blind id (changeMode mode) (changeMode mode) := by
  refine .bind .read fun c => .bind (nsAssert_hom _ Iff.rfl) fun _ => ?_
  exact .update fun _ => rfl

theorem send_hom (sock : Socket) (seqNb : UInt32) (ts : Int) :
    Hom blind id (send sock seqNb ts) (send sock seqNb ts) := emit_hom _

theorem sampleRTTStart_hom : Hom blind id (sampleRTTStart now) (sampleRTTStart now) := by
  refine .bind .read fun c => .bind (nsAssert_hom _ Iff.rfl) fun _ => ?_
  refine .bind .read fun c => .bind (nsAssert_hom _ Iff.rfl) fun _ => ?_
  refine .loop fun i => .bind .read fun c => .bind (send_hom _ _ _) fun _ => ?_
  exact .update fun _ => rfl

theorem finishRttRound_hom : Hom blind RoundStats.blind finishRttRound finishRttRound := by
  refine .bind (.update fun _ => rfl) fun _ => .bind .read fun c => ?_
  exact .ret rfl

theorem forwardSlowSubflowId_hom : Hom blind id forwardSlowSubflowId forwardSlowSubflowId := by
  refine .bind .read fun c => .bind (nsAssert_hom _ Iff.rfl) fun _ => ?_
  exact .ret rfl

theorem records_blind_ne_nil (records : List RoundStats) :
    records.map RoundStats.blind ≠ [] ↔ records ≠ [] := by
  rw [Ne, List.map_eq_nil_iff]

theorem estimatedForwardDeltaOwd_hom :
    Hom blind id estimatedForwardDeltaOwd estimatedForwardDeltaOwd := by
  refine .bind .read fun c => .ite (by rw [getRoundNo_blind]) ?_ ?_
  · refine .bind (nsAssert_hom _ (records_blind_ne_nil _)) fun _ => ?_
    exact .ret rfl
  · refine .bind (nsAssert_hom _ (records_blind_ne_nil _)) fun _ => ?_
    exact .ret (estimate_blind _)

theorem getProbeDelay_hom (i : UInt8) :
    Hom blind id (getProbeDelay cfg i) (getProbeDelay cfg i) := by
  refine .bind (nsAssert_hom _ Iff.rfl) fun _ => .bind .read fun c => ?_
  refine .bind (nsAssert_hom _ Iff.rfl) fun _ => .bind estimatedForwardDeltaOwd_hom fun E => ?_
  refine .bind (nsAssert_hom _ Iff.rfl) fun _ => ?_
  dsimp only [id]
  split
  · exact .ret rfl
  · exact .fail _

theorem scheduleProbe_hom (fast : Socket) (i : Nat) :
    Hom blind id (scheduleProbe cfg fast i) (scheduleProbe cfg fast i) := by
  refine .bind (getProbeDelay_hom _) fun delay => .bind (nsAssert_hom _ Iff.rfl) fun _ => ?_
  exact .bind .read fun c => emit_hom _

theorem chooseFastSubflow_hom : Hom blind id chooseFastSubflow chooseFastSubflow := by
  have chosen : ∀ (c : OWdClientBasic) (records : List RoundStats),
      { c.blind with
        m_forwardFastSubflow := (back (records.map RoundStats.blind)).ForwardFastSubflow } =
      blind { c with m_forwardFastSubflow := (back records).ForwardFastSubflow } := by
    intro c records
    rw [forwardFastSubflow_blind]
    rfl
  refine .bind .read fun c => .ite (by rw [getRoundNo_blind]) ?_ ?_
  · refine .bind (nsAssert_hom _ (records_blind_ne_nil _)) fun _ => ?_
    exact .update fun c => chosen c c.m_rttRoundStats
  · exact .update fun c => chosen c c.m_owdRoundStats

theorem startNewOwdEstimationRound_hom :
    Hom blind id (startNewOwdEstimationRound cfg now) (startNewOwdEstimationRound cfg now) := by
  refine .bind .read fun c => .bind (nsAssert_hom _ Iff.rfl) fun _ => ?_
  refine .bind .read fun c => .bind (nsAssert_hom _ Iff.rfl) fun _ => ?_
  refine .bind (.update fun _ => rfl) fun _ => .bind chooseFastSubflow_hom fun _ => ?_
  refine .bind .read fun c => .bind (nsAssert_hom _ Iff.rfl) fun _ => ?_
  refine .bind forwardSlowSubflowId_hom fun slow => .bind (.update fun _ => rfl) fun _ => ?_
  refine .bind .read fun c => .bind (send_hom _ _ _) fun _ => ?_
  refine .bind (.loop fun i => scheduleProbe_hom _ i) fun _ => ?_
  exact .update fun _ => rfl

/-! ## Echoes -/

variable {seqTs : SeqTsHeader}

/-- The measurements of an echo, without the server's clock. -/
theorem measured_blind (sock : Socket) (stats : RoundStats) :
    measured now sock (seqTs.blind now) stats.blind = (measured now sock seqTs stats).blind := by
  have sum := seqTs.sum_delays now
  have none : now - now = 0 := Int.sub_self now
  have image := RoundStats.blind_update
    { stats with rtt := Function.update stats.rtt sock (now - seqTs.receiverTs) } sock
    (seqTs.senderTs - seqTs.receiverTs) (now - seqTs.senderTs)
  rw [sum, ← none] at image
  exact image.symm

theorem probeStats_blind : probeStats now (seqTs.blind now) = (probeStats now seqTs).blind := by
  have sum := seqTs.sum_delays now
  have none : now - now = 0 := Int.sub_self now
  unfold probeStats
  rw [PacketStats.blind, SeqTsHeader.blind]
  dsimp only
  rw [sum, none]

theorem newPacketFromSlowPath_hom :
    Hom blind id (newPacketFromSlowPath now seqTs)
      (newPacketFromSlowPath now (seqTs.blind now)) := by
  refine .bind (.update fun _ => rfl) fun _ => .bind forwardSlowSubflowId_hom fun slow => ?_
  refine .bind (.update fun _ => rfl) fun _ => ?_
  exact modifyStats_hom fun stats => measured_blind _ stats

theorem newPacketFromFastPath_hom :
    Hom blind id (newPacketFromFastPath now seqTs)
      (newPacketFromFastPath now (seqTs.blind now)) := by
  have stored : ∀ c : OWdClientBasic,
      { c.blind with m_probes := c.blind.m_probes.set now (probeStats now (seqTs.blind now)) } =
        blind { c with m_probes := c.m_probes.set now (probeStats now seqTs) } := by
    intro c
    rw [probeStats_blind, blind, blind]
    dsimp only
    rw [SortedMap.map_set]
  refine .bind (.update stored) fun _ => .bind .read fun c => ?_
  refine .ite Iff.rfl (.update fun _ => rfl) ?_
  exact .ite Iff.rfl (.update fun _ => rfl) (.ret rfl)

theorem recordOwdEcho_hom (sock : Socket) :
    Hom blind id (recordOwdEcho now sock seqTs) (recordOwdEcho now sock (seqTs.blind now)) :=
  .bind .read fun _ => .ite Iff.rfl newPacketFromFastPath_hom newPacketFromSlowPath_hom

theorem recordRttEcho_hom (sock : Socket) :
    Hom blind id (recordRttEcho now sock seqTs) (recordRttEcho now sock (seqTs.blind now)) := by
  refine .bind (modifyStats_hom fun stats => measured_blind _ stats) fun _ => ?_
  refine .bind .read fun c => .ite Iff.rfl ?_ (.ret rfl)
  exact .bind (modifyStats_hom fun _ => rfl) fun _ => .update fun _ => rfl

/-! ## The end of a round -/

theorem recordProbes_blind (id : Socket) (probes : List (Int × PacketStats)) (stats : RoundStats) :
    recordProbes id (probes.map fun probe => (probe.1, probe.2.blind)) stats.blind =
      (recordProbes id probes stats).blind := by
  induction probes generalizing stats with
  | nil => rfl
  | cons probe probes ih =>
      rw [recordProbes, recordProbes, List.map_cons, List.foldl_cons, List.foldl_cons,
        ← recordProbes, ← recordProbes, ← ih, RoundStats.blind_update]
      rfl

theorem estimateDelays_blind (fast slow : Socket) (stats : RoundStats) :
    estimateDelays fast slow stats.blind = (estimateDelays fast slow stats).blind := by
  unfold estimateDelays
  have iff : stats.blind.ReverseFastSubflow = stats.blind.ForwardFastSubflow ↔
      stats.ReverseFastSubflow = stats.ForwardFastSubflow := Iff.rfl
  by_cases same : stats.ReverseFastSubflow = stats.ForwardFastSubflow
  · rw [if_pos same, if_pos (iff.mpr same)]
    rfl
  · rw [if_neg same, if_neg (mt iff.mp same)]
    rfl

theorem probeAt_hom (time : Int) : Hom blind PacketStats.blind (probeAt time) (probeAt time) := by
  refine .bind .read fun c => ?_
  have image := SortedMap.getOrInsert_map PacketStats.blind c.m_probes time .new
  have same : c.blind.m_probes.getOrInsert time .new = _ := image
  rw [same]
  exact .bind (.update fun _ => rfl) fun _ => .ret rfl

theorem finishFramedRound_hom : Hom blind id (finishFramedRound cfg) (finishFramedRound cfg) := by
  refine .bind .read fun c => ?_
  refine .bind (probeAt_hom _) fun after => .bind (probeAt_hom _) fun before => ?_
  refine .bind forwardSlowSubflowId_hom fun slow => .bind (modifyStats_hom fun _ => rfl) fun _ => ?_
  exact modifyStats_hom (estimateDelays_blind _ _)

theorem finishRound_hom : Hom blind RoundStats.blind (finishRound cfg) (finishRound cfg) := by
  -- the round-trip time of the fast subflow is the sum of the two delays
  have sum : ∀ (id : Socket) (fast : Int) (stats : RoundStats),
      { stats.blind with
        ForwardFastSubflow := fast
        rtt := Function.update stats.blind.rtt id
          (stats.blind.RealForwardDelay id + stats.blind.RealReverseDelay id) } =
      RoundStats.blind { stats with
        ForwardFastSubflow := fast
        rtt := Function.update stats.rtt id
          (stats.RealForwardDelay id + stats.RealReverseDelay id) } := by
    intro id fast stats
    have rtt : stats.blind.RealForwardDelay id + stats.blind.RealReverseDelay id =
        stats.RealForwardDelay id + stats.RealReverseDelay id := Int.add_zero _
    rw [rtt]
    rfl
  refine .bind .read fun c => .bind (nsAssert_hom _ Iff.rfl) fun _ => ?_
  refine .bind (.update fun _ => rfl) fun _ => .bind .read fun c => ?_
  refine .bind (modifyStats_hom fun stats => recordProbes_blind _ _ stats) fun _ => ?_
  refine .bind (modifyStats_hom fun stats => sum _ _ stats) fun _ => ?_
  have position : c.blind.slowPacketPosition = c.slowPacketPosition := rfl
  rw [position]
  have done : Hom blind RoundStats.blind
      (do return (← get).m_currentRoundStats : ClientM RoundStats)
      (do return (← get).m_currentRoundStats) := .bind .read fun c => .ret rfl
  cases c.slowPacketPosition with
  | afterProbes =>
      refine .bind (getProbeDelay_hom _) fun delay => ?_
      exact .bind (modifyStats_hom fun _ => rfl) fun _ => done
  | beforeProbes =>
      refine .bind (getProbeDelay_hom _) fun delay => ?_
      exact .bind (modifyStats_hom fun _ => rfl) fun _ => done
  | betweenProbes => exact .bind finishFramedRound_hom fun _ => done

theorem closeRttRound_hom : Hom blind id (closeRttRound cfg now) (closeRttRound cfg now) := by
  refine .bind finishRttRound_hom fun stats => .bind (.update fun c => ?_) fun _ => ?_
  · unfold blind
    rw [List.map_append]
    rfl
  · refine .bind .read fun c => .ite (by rw [getRoundNo_blind]) ?_ sampleRTTStart_hom
    exact .bind (changeMode_hom _) fun _ => startNewOwdEstimationRound_hom

theorem closeOwdRound_hom : Hom blind id (closeOwdRound cfg now) (closeOwdRound cfg now) := by
  refine .bind finishRound_hom fun stats => .bind (.update fun c => ?_) fun _ => ?_
  · unfold blind
    rw [List.map_append]
    rfl
  · refine .bind .read fun c => .ite ?_ (emit_hom _) startNewOwdEstimationRound_hom
    unfold reachedConvergence
    rw [getRoundNo_blind]

theorem samplingRTTRecv_hom (sock : Socket) :
    Hom blind id (samplingRTTRecv cfg now sock seqTs)
      (samplingRTTRecv cfg now sock (seqTs.blind now)) := by
  refine .bind (recordRttEcho_hom sock) fun _ => .bind .read fun c => ?_
  exact .ite Iff.rfl closeRttRound_hom (.ret rfl)

theorem estimateOWDRecv_hom (sock : Socket) :
    Hom blind id (estimateOWDRecv cfg now sock seqTs)
      (estimateOWDRecv cfg now sock (seqTs.blind now)) := by
  refine .bind .read fun c => .bind (nsAssert_hom _ Iff.rfl) fun _ => ?_
  refine .bind (recordOwdEcho_hom sock) fun _ => .bind .read fun c => ?_
  exact .ite Iff.rfl closeOwdRound_hom (.ret rfl)

theorem handleRecvPacket_hom (sock : Socket) :
    Hom blind id (handleRecvPacket cfg now sock seqTs)
      (handleRecvPacket cfg now sock (seqTs.blind now)) := by
  refine .bind (.update fun _ => rfl) fun _ => .bind .read fun c => ?_
  exact .ite Iff.rfl (samplingRTTRecv_hom sock) (estimateOWDRecv_hom sock)

theorem handleRecv_hom (sock : Socket) (queue : List SeqTsHeader) :
    Hom blind id (handleRecv cfg now sock queue)
      (handleRecv cfg now sock (queue.map (SeqTsHeader.blind now))) :=
  .loop_map fun _ => handleRecvPacket_hom sock

/-! ## Two runs -/

end OWdClientBasic

/-- A receive callback: a time, a socket, and the packets that wait at it. -/
structure RecvCall where
  time : Int
  sock : Socket
  queue : List SeqTsHeader

/-- The call without the server's clock. -/
def RecvCall.blind (call : RecvCall) : RecvCall :=
  { call with queue := call.queue.map (SeqTsHeader.blind call.time) }

/-- Two calls with the same echoes, but for the timestamps of the server. -/
structure RecvCall.SameEchoes (call call' : RecvCall) : Prop where
  time : call'.time = call.time
  sock : call'.sock = call.sock
  queue : List.Forall₂ (fun seqTs seqTs' : SeqTsHeader =>
    seqTs'.seq = seqTs.seq ∧ seqTs'.receiverTs = seqTs.receiverTs) call.queue call'.queue

theorem RecvCall.SameEchoes.blind {call call' : RecvCall} (same : call.SameEchoes call') :
    call'.blind = call.blind := by
  have headers : ∀ (now : Int) {queue queue' : List SeqTsHeader},
      List.Forall₂ (fun seqTs seqTs' : SeqTsHeader =>
        seqTs'.seq = seqTs.seq ∧ seqTs'.receiverTs = seqTs.receiverTs) queue queue' →
      queue'.map (SeqTsHeader.blind now) = queue.map (SeqTsHeader.blind now) := by
    intro now queue queue' echoes
    induction echoes with
    | nil => rfl
    | cons head _ ih =>
        rw [List.map_cons, List.map_cons, ih, SeqTsHeader.blind, SeqTsHeader.blind, head.1, head.2]
  rw [RecvCall.blind, RecvCall.blind, same.time, same.sock, headers call.time same.queue]

/-- The record with the two delays left out. -/
def RoundStats.erase (stats : RoundStats) : RoundStats :=
  { stats with RealForwardDelay := 0, RealReverseDelay := 0 }

@[inherit_doc RoundStats.erase]
def PacketStats.erase (stats : PacketStats) : PacketStats :=
  { stats with RealForwardDelay := 0, RealReverseDelay := 0 }

/-- The request with the delays of a dump left out. -/
def Effect.erase : Effect → Effect
  | .dumpOwdSamples samples => .dumpOwdSamples (samples.map RoundStats.erase)
  | effect => effect

namespace OWdClientBasic

variable {cfg : Config} {now : Int}

/-- Everything of the client except the real delays. -/
def erase (c : OWdClientBasic) : OWdClientBasic :=
  { c with
    m_owdRoundStats := c.m_owdRoundStats.map RoundStats.erase
    m_rttRoundStats := c.m_rttRoundStats.map RoundStats.erase
    m_currentRoundStats := c.m_currentRoundStats.erase
    m_probes := c.m_probes.map PacketStats.erase
    effects := c.effects.map Effect.erase }

theorem blind_erase (c : OWdClientBasic) : c.blind.erase = c.erase := by
  have records : ∀ l : List RoundStats, (l.map RoundStats.blind).map RoundStats.erase =
      l.map RoundStats.erase := fun l => List.map_map
  have probes : (c.m_probes.map PacketStats.blind).map PacketStats.erase =
      c.m_probes.map PacketStats.erase := SortedMap.ext List.map_map
  have effects : (c.effects.map Effect.blind).map Effect.erase = c.effects.map Effect.erase := by
    rw [List.map_map]
    refine List.map_congr_left fun effect _ => ?_
    cases effect with
    | dumpOwdSamples samples => exact congrArg Effect.dumpOwdSamples (records samples)
    | _ => rfl
  unfold erase
  unfold blind
  dsimp only
  rw [records, records, probes, effects]
  rfl

/-- The packets among the requests of a client. -/
def sentPackets (c : OWdClientBasic) : List Effect := c.effects.filter fun effect => !effect.isDump

/-- The client from its start, through a list of receive callbacks. -/
def clientRun (cfg : Config) (now : Int) (calls : List RecvCall) : ClientM Unit := do
  startApplication
  sampleRTTStart now
  forM calls fun call => handleRecv cfg call.time call.sock call.queue

theorem clientRun_hom (cfg : Config) (now : Int) (calls : List RecvCall) :
    Hom blind id (clientRun cfg now calls) (clientRun cfg now (calls.map RecvCall.blind)) := by
  refine .bind (changeMode_hom _) fun _ => .bind sampleRTTStart_hom fun _ => ?_
  exact .loop_map fun call => handleRecv_hom call.sock call.queue

/-- Clients that agree on everything else have sent the same packets. -/
theorem sentPackets_of_erase_eq {c c' : OWdClientBasic} (same : c'.erase = c.erase) :
    c'.sentPackets = c.sentPackets := by
  have erased : ∀ effects : List Effect, (effects.map Effect.erase).filter (fun e => !e.isDump) =
      effects.filter fun e => !e.isDump := by
    intro effects
    induction effects with
    | nil => rfl
    | cons effect effects ih =>
        rw [List.map_cons, List.filter_cons, List.filter_cons, ih]
        cases effect <;> rfl
  have effects : c'.effects.map Effect.erase = c.effects.map Effect.erase :=
    congrArg OWdClientBasic.effects same
  unfold sentPackets
  rw [← erased, effects, erased]

/-- **Independence of the server's clock.**  Two runs of the client on the same
echoes, with any timestamps of the server, agree after every prefix of the calls
on everything except the real delays, stop at the same assertions, and have sent
the same packets. -/
theorem clock_independence {calls calls' : List RecvCall}
    (same : List.Forall₂ RecvCall.SameEchoes calls calls') (n : Nat) :
    mapResult erase id ((clientRun cfg now (calls'.take n)).run .new) =
        mapResult erase id ((clientRun cfg now (calls.take n)).run .new) ∧
      (stateOf ((clientRun cfg now (calls'.take n)).run .new)).sentPackets =
        (stateOf ((clientRun cfg now (calls.take n)).run .new)).sentPackets := by
  have blinded : calls'.map RecvCall.blind = calls.map RecvCall.blind := by
    induction same with
    | nil => rfl
    | cons head _ ih => rw [List.map_cons, List.map_cons, ih, head.blind]
  have prefixes : (calls'.take n).map RecvCall.blind = (calls.take n).map RecvCall.blind := by
    rw [List.map_take, List.map_take, blinded]
  -- both runs have the image of the run on the blinded echoes
  have image : ∀ calls : List RecvCall, mapResult erase id ((clientRun cfg now calls).run .new) =
      mapResult erase id ((clientRun cfg now (calls.map RecvCall.blind)).run .new) := by
    intro calls
    have fresh : blind .new = .new := rfl
    have run := clientRun_hom cfg now calls .new
    rw [fresh] at run
    rw [run, mapResult_mapResult]
    exact congrArg (fun h => mapResult h id _) (funext fun c => (blind_erase c).symm)
  have results := (image (calls'.take n)).trans (prefixes ▸ (image (calls.take n)).symm)
  refine ⟨results, sentPackets_of_erase_eq ?_⟩
  have states := congrArg stateOf results
  rwa [stateOf_mapResult, stateOf_mapResult] at states

/-- The echoes of an RTT round and of a framed estimation round, from a server that
shows `clock t` at time `t`. -/
def framedEchoes (clock : Int → Int) : List RecvCall :=
  [⟨30, 0, [⟨2, clock 20, 0⟩]⟩, ⟨40, 1, [⟨0, clock 10, 0⟩]⟩, ⟨70, 1, [⟨3, clock 50, 40⟩]⟩,
    ⟨2000070, 1, [⟨3, clock 2000050, 2000040⟩]⟩, ⟨3000055, 0, [⟨4, clock 3000050, 40⟩]⟩,
    ⟨4000070, 1, [⟨4, clock 4000050, 4000040⟩]⟩]

/-- The client after these echoes. -/
def framedClient (clock : Int → Int) : OWdClientBasic :=
  stateOf ((clientRun .nanoseconds 0 (framedEchoes clock)).run .new)

/-- With a server clock that runs backwards `FinishRound` records another real delay,
and takes the framed estimate of 2 ms from it all the same. -/
theorem clock_independence_framedEchoes :
    (framedClient fun t => 1000 - t).m_owdRoundStats.map (fun stats => stats.RealForwardDelay 1) ≠
        (framedClient id).m_owdRoundStats.map (fun stats => stats.RealForwardDelay 1) ∧
      (framedClient id).m_owdRoundStats.map RoundStats.EstimatedForwardDeltaOWD = [2000000] ∧
      mapResult erase id
          ((clientRun .nanoseconds 0 ((framedEchoes fun t => 1000 - t).take 6)).run .new) =
        mapResult erase id ((clientRun .nanoseconds 0 ((framedEchoes id).take 6)).run .new) := by
  have same : List.Forall₂ RecvCall.SameEchoes (framedEchoes id)
      (framedEchoes fun t => 1000 - t) := by
    have one : ∀ time sock seq senderTs senderTs' receiverTs, RecvCall.SameEchoes
        ⟨time, sock, [⟨seq, senderTs, receiverTs⟩]⟩ ⟨time, sock, [⟨seq, senderTs', receiverTs⟩]⟩ :=
      fun _ _ _ _ _ _ => ⟨rfl, rfl, .cons ⟨rfl, rfl⟩ .nil⟩
    exact .cons (one ..) (.cons (one ..) (.cons (one ..) (.cons (one ..) (.cons (one ..)
      (.cons (one ..) .nil)))))
  exact ⟨by decide +kernel, by decide +kernel, (clock_independence same 6).1⟩

end OWdClientBasic

end OwdPacing
