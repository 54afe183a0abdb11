import OwdPacing.Config
import OwdPacing.Container.Sorted
import Mathlib.Logic.Function.Basic

/-!
# The client

`OWDHost` and `OWdClientBasic` (`owd-client.cc`, `owd-client-basic.cc`) as one
state and its member functions, translated one by one.  `Simulator::Now ()` is
the argument `now` of a handler.  What a handler asks of the simulator (a packet
sent, a send scheduled, the dump written) is collected in `effects`, in order.
Logging is left out.
-/

namespace OwdPacing

open Container

/-! ## Data -/

/-- `class PacketStats`. -/
structure PacketStats where
  DepartureTime : Int
  RealForwardDelay : Int
  RealReverseDelay : Int
  deriving DecidableEq, Repr

/-- `PacketStats ()`: the members are default constructed. -/
def PacketStats.new : PacketStats := ⟨0, 0, 0⟩

/-- `class RoundStats`. -/
structure RoundStats where
  EstimatedForwardDeltaOWD : Int
  EstimatedReverseDeltaOWD : Int
  RealForwardDelay : PerSocket Int
  RealReverseDelay : PerSocket Int
  rtt : PerSocket Int
  EstimatedForwardDelay : PerSocket Int
  EstimatedReverseDelay : PerSocket Int
  ForwardFastSubflow : Int
  ReverseFastSubflow : Int
  deriving DecidableEq

/-- `RoundStats::RoundStats`. -/
def RoundStats.new : RoundStats where
  EstimatedForwardDeltaOWD := 0
  EstimatedReverseDeltaOWD := 0
  RealForwardDelay := fun _ => 0
  RealReverseDelay := fun _ => 0
  rtt := fun _ => 0
  EstimatedForwardDelay := fun _ => 0
  EstimatedReverseDelay := fun _ => 0
  ForwardFastSubflow := -1
  ReverseFastSubflow := -1

/-- What a handler asks of the simulator. -/
inductive Effect
  /-- `sock->Send (packet)`. -/
  | send (sock : Socket) (seqTs : SeqTsHeader)
  /-- `Simulator::Schedule (delay, &Send, this, sock, seqNb, ts)`. -/
  | schedule (delay : Int) (sock : Socket) (seqNb : UInt32) (ts : Int)
  /-- `DumpOwdSamples` of the records to `test.csv`. -/
  | dumpOwdSamples (samples : List RoundStats)
  deriving DecidableEq

/-- The members of `OWDHost` and `OWdClientBasic` that change. -/
structure OWdClientBasic where
  m_currentMode : Mode
  m_lowestRoundSeq : UInt32
  m_inflight : UInt32
  m_owdRoundStats : List RoundStats
  m_rttRoundStats : List RoundStats
  m_currentRoundStats : RoundStats
  m_forwardFastSubflow : Int
  m_timeOfFirstSentPacket : Int
  m_probes : SortedMap Int PacketStats
  m_slowPacket : Int × Int
  m_arrivalTimeLastProbeBeforeSlowPath : Int
  m_arrivalTimeFirstProbeAfterSlowPath : Int
  m_arrivalTimeOnSlowPath : Int
  effects : List Effect
  deriving DecidableEq

/-- The two constructors.  `m_currentMode` is first set by `StartApplication`. -/
def OWdClientBasic.new : OWdClientBasic where
  m_currentMode := .RTTSampling
  m_lowestRoundSeq := 1
  m_inflight := 0
  m_owdRoundStats := []
  m_rttRoundStats := []
  m_currentRoundStats := .new
  m_forwardFastSubflow := -1
  m_timeOfFirstSentPacket := 0
  m_probes := .empty
  m_slowPacket := (0, 0)
  m_arrivalTimeLastProbeBeforeSlowPath := 0
  m_arrivalTimeFirstProbeAfterSlowPath := 0
  m_arrivalTimeOnSlowPath := 0
  effects := []

/-- A member function of the client. -/
abbrev ClientM := EStateM Failure OWdClientBasic

/-- `vector::back`, asserted by the callers not to be empty. -/
def back (records : List RoundStats) : RoundStats := records.getLast?.getD .new

namespace OWdClientBasic

/-- A change of `m_currentRoundStats`. -/
def modifyStats (f : RoundStats → RoundStats) : ClientM Unit :=
  modify fun c => { c with m_currentRoundStats := f c.m_currentRoundStats }

/-- The client with further requests to the simulator. -/
def ask (c : OWdClientBasic) (effects : List Effect) : OWdClientBasic :=
  { c with effects := c.effects ++ effects }

def emit (effect : Effect) : ClientM Unit := modify fun c => c.ask [effect]

/-! ## `owd-client.cc` -/

/-- `OWDHost::GetRoundNo`. -/
def getRoundNo (c : OWdClientBasic) : Int :=
  match c.m_currentMode with
  | .RTTSampling => c.m_rttRoundStats.length
  | .OWDEstimation => c.m_owdRoundStats.length

/-- `OWDHost::ForwardFastSubflowId`. -/
def forwardFastSubflowId (c : OWdClientBasic) : Int := c.m_forwardFastSubflow

/-- `OWDHost::ForwardSlowSubflowId`. -/
def forwardSlowSubflowId : ClientM Int := do
  let c ← get
  nsAssert (c.m_forwardFastSubflow ≥ 0) .forwardSlowSubflowId
  return (c.m_forwardFastSubflow + 1).tmod 2

/-- The header `Send` builds.  The server sets the receiver timestamp before anything reads it. -/
def sendHeader (seqNb : UInt32) (ts : Int) : SeqTsHeader := ⟨seqNb, ts, 0⟩

/-- `OWDHost::Send`. -/
def send (sock : Socket) (seqNb : UInt32) (ts : Int) : ClientM Unit :=
  emit (.send sock (sendHeader seqNb ts))

/-- `OWDHost::ChangeMode`. -/
def changeMode (mode : Mode) : ClientM Unit := do
  nsAssert ((← get).m_inflight = 0) .changeMode_inflight
  modify fun c => { c with m_currentMode := mode }

/-- `OWDHost::StartApplication`, which then schedules `SampleRTTStart` at once. -/
def startApplication : ClientM Unit := changeMode .RTTSampling

/-- `OWDHost::SampleRTTStart`. -/
def sampleRTTStart (now : Int) : ClientM Unit := do
  nsAssert ((← get).m_currentMode = .RTTSampling) .sampleRTTStart_mode
  nsAssert ((← get).m_inflight = 0) .sampleRTTStart_inflight
  forM sockets fun i => do
    send i ((← get).m_lowestRoundSeq + UInt32.ofNat i) now
    modify fun c => { c with m_inflight := c.m_inflight + 1 }

/-- `OWDHost::FinishRttRound`. -/
def finishRttRound : ClientM RoundStats := do
  modify fun c => { c with m_lowestRoundSeq := c.m_lowestRoundSeq + 2 }
  return (← get).m_currentRoundStats

/-! ## `owd-client-basic.cc` -/

variable (cfg : Config)

/-- The `while` loop of `GetProbeDelay`, at most `fuel` times: the start index at
which the running delay is no longer negative, `none` when it still is. -/
def shiftStart (delayBetweenProbes : Int) : Nat → Int → Int → Option Int
  | 0, startIdx, probeDelay =>
      if Time.IsStrictlyNegative probeDelay then none else some startIdx
  | fuel + 1, startIdx, probeDelay =>
      if Time.IsStrictlyNegative probeDelay then
        shiftStart delayBetweenProbes fuel (startIdx + 1) (probeDelay + delayBetweenProbes)
      else
        some startIdx

/-- The estimate `GetProbeDelay` starts from: none in the first round. -/
def estimatedForwardDeltaOwd : ClientM Int := do
  let c ← get
  if c.getRoundNo = 0 then
    nsAssert (c.m_rttRoundStats ≠ []) .getProbeDelay_rttRoundStats
    return 0
  else
    nsAssert (c.m_owdRoundStats ≠ []) .getProbeDelay_owdRoundStats
    return (back c.m_owdRoundStats).EstimatedForwardDeltaOWD

/-- `OWdClientBasic::GetProbeDelay`.  The loop starts at most half the probes below
the estimate, so one round of fuel a probe is enough. -/
def getProbeDelay (i : UInt8) : ClientM Int := do
  nsAssert (i.toNat < cfg.probesInARound.toNat) .getProbeDelay_index
  nsAssert ((← get).m_currentMode = .OWDEstimation) .getProbeDelay_mode
  let delayBetweenProbes := cfg.milliSeconds 2
  let estimate ← estimatedForwardDeltaOwd
  nsAssert (Time.IsPositive estimate) .getProbeDelay_isPositive
  let startIdx := -((cfg.probesInARound.toNat : Int) / 2)
  let probeDelay := estimate + cfg.milliSeconds (cfg.getMilliSeconds delayBetweenProbes * startIdx)
  match shiftStart delayBetweenProbes cfg.probesInARound.toNat startIdx probeDelay with
  | some startIdx =>
      return estimate +
        cfg.milliSeconds (cfg.getMilliSeconds delayBetweenProbes * (startIdx + i.toNat))
  | none => throw .getProbeDelay_loop

/-- The body of the loop of `StartNewOwdEstimationRound` that schedules the probes. -/
def scheduleProbe (fastSocket : Socket) (i : Nat) : ClientM Unit := do
  let probeDelay ← getProbeDelay cfg (UInt8.ofNat i)
  nsAssert (probeDelay ≥ 0) .startNewOwdEstimationRound_probeDelay
  let c ← get
  emit (.schedule probeDelay fastSocket c.m_lowestRoundSeq (c.m_timeOfFirstSentPacket + probeDelay))

/-- The reset at the start of `StartNewOwdEstimationRound`. -/
def resetRound (c : OWdClientBasic) : OWdClientBasic :=
  { c with
    m_arrivalTimeLastProbeBeforeSlowPath := 0
    m_arrivalTimeFirstProbeAfterSlowPath := 0
    m_arrivalTimeOnSlowPath := 0
    m_timeOfFirstSentPacket := 0
    m_currentRoundStats := .new
    m_probes := .empty
    m_slowPacket := (0, 0) }

/-- The choice of the fast subflow in `StartNewOwdEstimationRound`: from the RTT
samples in the first round, from the round before in a later one. -/
def chooseFastSubflow : ClientM Unit := do
  let c ← get
  if c.getRoundNo = 0 then
    nsAssert (c.m_rttRoundStats ≠ []) .startNewOwdEstimationRound_rttRoundStats
    modify fun c =>
      { c with m_forwardFastSubflow := (back c.m_rttRoundStats).ForwardFastSubflow }
  else
    modify fun c =>
      { c with m_forwardFastSubflow := (back c.m_owdRoundStats).ForwardFastSubflow }

/-- `OWdClientBasic::StartNewOwdEstimationRound`. -/
def startNewOwdEstimationRound (now : Int) : ClientM Unit := do
  nsAssert ((← get).m_currentMode = .OWDEstimation) .startNewOwdEstimationRound_mode
  nsAssert ((← get).m_inflight = 0) .startNewOwdEstimationRound_inflight
  modify resetRound
  chooseFastSubflow
  let fast := (← get).forwardFastSubflowId
  nsAssert (fast ≥ 0 ∧ fast < NUM_INTERFACES) .startNewOwdEstimationRound_forwardFastSubflow
  let slowSocket := Socket.ofId (← forwardSlowSubflowId)
  let fastSocket := Socket.ofId fast
  modify fun c => { c with m_timeOfFirstSentPacket := now }
  send slowSocket ((← get).m_lowestRoundSeq + 1) now
  forM (List.range cfg.probesInARound.toNat) (scheduleProbe cfg fastSocket)
  modify fun c => { c with m_inflight := cfg.probesInARound + 1 }

/-- `OWdClientBasic::NewPacketFromSlowPath`. -/
def newPacketFromSlowPath (now : Int) (seqTs : SeqTsHeader) : ClientM Unit := do
  modify fun c => { c with m_arrivalTimeOnSlowPath := now }
  let sockId := Socket.ofId (← forwardSlowSubflowId)
  modify fun c => { c with m_slowPacket := (now, seqTs.receiverTs) }
  modifyStats fun stats =>
    { stats with
      rtt := Function.update stats.rtt sockId (now - seqTs.receiverTs)
      RealForwardDelay :=
        Function.update stats.RealForwardDelay sockId (seqTs.senderTs - seqTs.receiverTs)
      RealReverseDelay := Function.update stats.RealReverseDelay sockId (now - seqTs.senderTs) }

/-- `OWdClientBasic::NewPacketFromFastPath`. -/
def newPacketFromFastPath (now : Int) (seqTs : SeqTsHeader) : ClientM Unit := do
  let stats : PacketStats :=
    { DepartureTime := seqTs.receiverTs
      RealForwardDelay := seqTs.senderTs - seqTs.receiverTs
      RealReverseDelay := now - seqTs.senderTs }
  modify fun c => { c with m_probes := c.m_probes.set now stats }
  let c ← get
  if seqTs.seq = c.m_lowestRoundSeq then
    modify fun c => { c with m_arrivalTimeLastProbeBeforeSlowPath := now }
  else if Time.IsZero c.m_arrivalTimeFirstProbeAfterSlowPath then
    modify fun c => { c with m_arrivalTimeFirstProbeAfterSlowPath := now }

/-- The loop of `FinishRound` over `m_probes`: every entry overwrites the delays of the last. -/
def recordProbes (id : Socket) (probes : List (Int × PacketStats)) (stats : RoundStats) :
    RoundStats :=
  probes.foldl (fun stats probe =>
    { stats with
      RealForwardDelay := Function.update stats.RealForwardDelay id probe.2.RealForwardDelay
      RealReverseDelay := Function.update stats.RealReverseDelay id probe.2.RealReverseDelay })
    stats

/-- `m_probes[time]`. -/
def probeAt (time : Int) : ClientM PacketStats := do
  let (stats, probes) := (← get).m_probes.getOrInsert time .new
  modify fun c => { c with m_probes := probes }
  return stats

/-- `0.3 * ms`, with its fraction dropped by the conversion to an integer. -/
def threeTenths (ms : Int) : Int := (3 * ms).tdiv 10

/-- The estimates of one-way delays in the framing branch of `FinishRound`. -/
def estimateDelays (fast slow : Socket) (stats : RoundStats) : RoundStats :=
  if stats.ReverseFastSubflow = stats.ForwardFastSubflow then
    let halfSmallestRtt := Time.half (stats.rtt fast)
    let forward := Function.update (Function.update stats.EstimatedForwardDelay
      fast halfSmallestRtt) slow (stats.EstimatedForwardDeltaOWD + halfSmallestRtt)
    let reverse := Function.update (Function.update stats.EstimatedReverseDelay
      fast (stats.rtt fast - forward fast)) slow (stats.rtt slow - forward slow)
    { stats with EstimatedForwardDelay := forward, EstimatedReverseDelay := reverse }
  else
    let halfSmallestRtt := Time.half (stats.rtt slow - stats.EstimatedForwardDeltaOWD)
    let forward := Function.update stats.EstimatedForwardDelay fast halfSmallestRtt
    let reverse := Function.update stats.EstimatedReverseDelay slow halfSmallestRtt
    let reverse := Function.update reverse fast (stats.rtt fast - forward fast)
    let forward := Function.update forward slow (stats.rtt slow - reverse slow)
    { stats with EstimatedForwardDelay := forward, EstimatedReverseDelay := reverse }

/-- The branch of `FinishRound` for a slow packet between two probes. -/
def finishFramedRound : ClientM Unit := do
  let c ← get
  let firstAfter := c.m_arrivalTimeFirstProbeAfterSlowPath
  let lastBefore := c.m_arrivalTimeLastProbeBeforeSlowPath
  let departureAfter := (← probeAt firstAfter).DepartureTime
  let departureBefore := (← probeAt lastBefore).DepartureTime
  let departureDelayBetweenFramingProbes := departureAfter - departureBefore
  let reverseDeltaOWD : Int := c.m_slowPacket.1 - firstAfter
  let slow ← forwardSlowSubflowId
  let fast := c.forwardFastSubflowId
  modifyStats fun stats =>
    { stats with
      ReverseFastSubflow := if Time.IsNegative reverseDeltaOWD then slow else fast
      EstimatedReverseDeltaOWD := Time.abs reverseDeltaOWD
      EstimatedForwardDeltaOWD := (departureBefore - c.m_slowPacket.2) +
        cfg.milliSeconds (threeTenths (cfg.getMilliSeconds departureDelayBetweenFramingProbes)) }
  modifyStats (estimateDelays (Socket.ofId fast) (Socket.ofId slow))

/-- Where the server processed the slow packet, as `FinishRound` concludes. -/
inductive SlowPacketPosition
  | afterProbes
  | beforeProbes
  | betweenProbes
  deriving DecidableEq, Repr

/-- The tests of the `if`, `else if`, `else` of `FinishRound`. -/
def slowPacketPosition (c : OWdClientBasic) : SlowPacketPosition :=
  if Time.IsZero c.m_arrivalTimeFirstProbeAfterSlowPath then .afterProbes
  else if Time.IsZero c.m_arrivalTimeLastProbeBeforeSlowPath then .beforeProbes
  else .betweenProbes

/-- `OWdClientBasic::FinishRound`. -/
def finishRound : ClientM RoundStats := do
  nsAssert ((← get).m_inflight = 0) .finishRound_inflight
  modify fun c => { c with m_lowestRoundSeq := c.m_lowestRoundSeq + 2 }
  let c ← get
  let id := Socket.ofId c.forwardFastSubflowId
  modifyStats (recordProbes id c.m_probes.entries)
  modifyStats fun stats =>
    { stats with
      ForwardFastSubflow := c.forwardFastSubflowId
      rtt := Function.update stats.rtt id (stats.RealForwardDelay id + stats.RealReverseDelay id) }
  match c.slowPacketPosition with
  | .afterProbes =>
      let delay ← getProbeDelay cfg (cfg.probesInARound - 1).toUInt8
      modifyStats fun stats => { stats with EstimatedForwardDeltaOWD := delay }
  | .beforeProbes =>
      let delay ← getProbeDelay cfg 0
      modifyStats fun stats => { stats with EstimatedForwardDeltaOWD := delay }
  | .betweenProbes => finishFramedRound cfg
  return (← get).m_currentRoundStats

/-- `OWdClientBasic::ReachedConvergence`. -/
def reachedConvergence (c : OWdClientBasic) : Prop := c.getRoundNo ≥ asInt cfg.owdMaxRounds

instance (c : OWdClientBasic) : Decidable (c.reachedConvergence cfg) :=
  inferInstanceAs (Decidable (_ ≥ _))

/-! ## `owd-client.cc`: the receive handlers -/

/-- The measurements of `SamplingRTTRecv`. -/
def recordRttEcho (now : Int) (sockId : Socket) (seqTs : SeqTsHeader) : ClientM Unit := do
  modifyStats fun stats =>
    { stats with
      rtt := Function.update stats.rtt sockId (now - seqTs.receiverTs)
      RealForwardDelay :=
        Function.update stats.RealForwardDelay sockId (seqTs.senderTs - seqTs.receiverTs)
      RealReverseDelay := Function.update stats.RealReverseDelay sockId (now - seqTs.senderTs) }
  let c ← get
  if seqTs.seq + 1 = c.m_lowestRoundSeq ∧ c.m_currentRoundStats.ForwardFastSubflow < 0 then
    modifyStats fun stats => { stats with ForwardFastSubflow := (sockId : Nat) }
    modify fun c => { c with m_forwardFastSubflow := c.m_currentRoundStats.ForwardFastSubflow }

/-- The end of `SamplingRTTRecv`, when every subflow has answered. -/
def closeRttRound (now : Int) : ClientM Unit := do
  let stats ← finishRttRound
  modify fun c => { c with m_rttRoundStats := c.m_rttRoundStats ++ [stats] }
  if (← get).getRoundNo ≥ asInt cfg.sampleRTTmaxRounds then
    changeMode .OWDEstimation
    startNewOwdEstimationRound cfg now
  else
    sampleRTTStart now

/-- `OWDHost::SamplingRTTRecv`. -/
def samplingRTTRecv (now : Int) (sockId : Socket) (seqTs : SeqTsHeader) : ClientM Unit := do
  recordRttEcho now sockId seqTs
  if (← get).m_inflight ≤ 0 then
    closeRttRound cfg now

/-- The dispatch of `EstimateOWDRecv`. -/
def recordOwdEcho (now : Int) (sockId : Socket) (seqTs : SeqTsHeader) : ClientM Unit := do
  if ((sockId : Nat) : Int) = (← get).forwardFastSubflowId then
    newPacketFromFastPath now seqTs
  else
    newPacketFromSlowPath now seqTs

/-- The end of `EstimateOWDRecv`, when every packet of the round is back. -/
def closeOwdRound (now : Int) : ClientM Unit := do
  let stats ← finishRound cfg
  modify fun c => { c with m_owdRoundStats := c.m_owdRoundStats ++ [stats] }
  let c ← get
  if c.reachedConvergence cfg then
    emit (.dumpOwdSamples c.m_owdRoundStats)
  else
    startNewOwdEstimationRound cfg now

/-- `OWDHost::EstimateOWDRecv`. -/
def estimateOWDRecv (now : Int) (sockId : Socket) (seqTs : SeqTsHeader) : ClientM Unit := do
  nsAssert ((← get).m_currentMode = .OWDEstimation) .estimateOWDRecv_mode
  recordOwdEcho now sockId seqTs
  if (← get).m_inflight ≤ 0 then
    closeOwdRound cfg now

/-- The body of the loop of `OWDHost::HandleRecv`. -/
def handleRecvPacket (now : Int) (sockId : Socket) (seqTs : SeqTsHeader) : ClientM Unit := do
  modify fun c => { c with m_inflight := c.m_inflight - 1 }
  if (← get).m_currentMode = .RTTSampling then
    samplingRTTRecv cfg now sockId seqTs
  else
    estimateOWDRecv cfg now sockId seqTs

/-- `OWDHost::HandleRecv` on a socket at which the packets of `queue` wait. -/
def handleRecv (now : Int) (sockId : Socket) (queue : List SeqTsHeader) : ClientM Unit :=
  forM queue (handleRecvPacket cfg now sockId)

end OWdClientBasic

end OwdPacing
