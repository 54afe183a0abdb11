import OwdPacing.Client
import OwdPacing.Container.Log
import OwdPacing.Server
import OwdPacing.Semantics.GuardedRun

/-!
# Client, server and network

The two-socket system: the client, the server's sequencer and the packets
between them.  A packet is scheduled, on its way to the server, on its way back,
or delivered; it is neither lost nor duplicated, and any packet may take its next
step at any time.  Handlers are atomic.  Scheduling assumptions (the order of
delivery on a path, the clock) are guards on the events of a run.

The packets carry ghost tags, and the system keeps ghost logs of what was sent,
served and received; no handler reads them.
-/

namespace OwdPacing

open Container OWdClientBasic Runs

/-! ## Packets -/

/-- Ghost identity of a packet: the round it was sent for, counting the rounds
of both modes, and its place among the packets of the round. -/
structure PacketTag where
  round : Nat
  index : Nat
  deriving DecidableEq, Repr

/-- How far a packet has got. -/
inductive Stage
  /-- Its `Send` is scheduled. -/
  | scheduled (due : Int)
  /-- A request on its way to the server. -/
  | toServer (seqTs : SeqTsHeader) (sentAt : Int)
  /-- An echo on its way back to the client. -/
  | toClient (seqTs : SeqTsHeader) (sentAt servedAt : Int)
  /-- Processed by the client. -/
  | delivered
  deriving DecidableEq, Repr

/-- When a scheduled `Send` is due. -/
def Stage.due? : Stage → Option Int
  | .scheduled due => some due
  | _ => none

/-- The packet is an echo on its way to the client. -/
def Stage.isEcho : Stage → Bool
  | .toClient _ _ _ => true
  | _ => false

/-- A call of `Send`: its arguments and the ghost tag of its packet. -/
structure SendCall where
  tag : PacketTag
  sock : Socket
  seqNb : UInt32
  ts : Int
  deriving DecidableEq, Repr

/-- The packet of a call of `Send`. -/
structure Packet extends SendCall where
  stage : Stage
  deriving DecidableEq, Repr

/-- The client has not yet processed the packet. -/
def Packet.Outstanding (p : Packet) : Prop := p.stage ≠ .delivered

instance (p : Packet) : Decidable p.Outstanding := inferInstanceAs (Decidable (_ ≠ _))

/-- The server has processed the packet. -/
def Packet.Served (p : Packet) : Prop :=
  match p.stage with
  | .scheduled _ | .toServer _ _ => False
  | .toClient _ _ _ | .delivered => True

/-- A packet that an effect puts into the network, `index` in its round. -/
def Effect.packet (now : Int) (round : Nat) : Effect × Nat → Option Packet
  | (.send sock seqTs, index) =>
      some ⟨⟨⟨round, index⟩, sock, seqTs.seq, seqTs.senderTs⟩, .toServer seqTs now⟩
  | (.schedule delay sock seqNb ts, index) =>
      some ⟨⟨⟨round, index⟩, sock, seqNb, ts⟩, .scheduled (now + delay)⟩
  | (.dumpOwdSamples _, _) => none

/-- The effect is the dump of the samples. -/
def Effect.isDump : Effect → Bool
  | .dumpOwdSamples _ => true
  | _ => false

/-! ## Ghost logs -/

/-- A packet passed a stage at a time. -/
structure Logged where
  tag : PacketTag
  time : Int
  deriving DecidableEq, Repr

/-- An echo as the client received it. -/
structure Arrival where
  tag : PacketTag
  sock : Socket
  seqTs : SeqTsHeader
  sentAt : Int
  servedAt : Int
  time : Int
  deriving DecidableEq, Repr

/-- The log entry of a packet that has just been sent. -/
def Packet.sent? (p : Packet) : Option Logged :=
  match p.stage with
  | .toServer _ sentAt => some ⟨p.tag, sentAt⟩
  | _ => none

/-! ## The system -/

structure Sys where
  client : OWdClientBasic
  server : OwdSequencer
  packets : List Packet
  /-- The assertion that stopped the simulation. -/
  halted : Option Failure
  /-- Ghost: the time of the last event. -/
  now : Int
  /-- Ghost: what the client sent, the server and the client processed, in order. -/
  sentLog : List Logged
  servedLog : List Logged
  receivedLog : List Arrival
  /-- Ghost: number of calls of `DumpOwdSamples`. -/
  dumps : Nat
  deriving DecidableEq

/-- Number of rounds the client has finished, in both modes. -/
def OWdClientBasic.roundsDone (c : OWdClientBasic) : Nat :=
  c.m_rttRoundStats.length + c.m_owdRoundStats.length

namespace Sys

variable (cfg : Config)

/-- The network takes over what a handler asked for. -/
def absorb (s : Sys) (now : Int) (c : OWdClientBasic) : Sys :=
  let added := c.effects.zipIdx.filterMap (Effect.packet now c.roundsDone)
  { s with
    now := now
    client := { c with effects := [] }
    packets := s.packets ++ added
    sentLog := s.sentLog ++ added.filterMap Packet.sent?
    dumps := s.dumps + c.effects.countP Effect.isDump }

/-- The end of a client handler: a failed assertion stops the simulation. -/
def afterHandler (s : Sys) (now : Int) : EStateM.Result Failure OWdClientBasic Unit → Sys
  | .ok _ c => s.absorb now c
  | .error failure c => { s with now := now, client := c, halted := some failure }

/-- The scheduled `Send` of a packet. -/
def fire (s : Sys) (now : Int) (i : Nat) (p : Packet) : Sys :=
  { s with
    now := now
    packets := s.packets.set i { p with stage := .toServer (sendHeader p.seqNb p.ts) now }
    sentLog := s.sentLog ++ [⟨p.tag, now⟩] }

/-- `OwdServer::HandleRead` for a request. -/
def serve (s : Sys) (now : Int) (i : Nat) (p : Packet) (seqTs : SeqTsHeader) (sentAt : Int) :
    Sys :=
  match (handleReadPacket now seqTs).run s.server with
  | .ok echo server =>
      { s with
        now := now
        server := server
        packets := s.packets.set i { p with stage := .toClient echo sentAt now }
        servedLog := s.servedLog ++ [⟨p.tag, now⟩] }
  | .error failure server => { s with now := now, server := server, halted := some failure }

/-- The network hands an echo to the client. -/
def deliver (s : Sys) (now : Int) (i : Nat) (p : Packet) (seqTs : SeqTsHeader)
    (sentAt servedAt : Int) : Sys :=
  { s with
    packets := s.packets.set i { p with stage := .delivered }
    receivedLog := s.receivedLog ++ [⟨p.tag, p.sock, seqTs, sentAt, servedAt, now⟩] }

/-- `OWDHost::HandleRecv` for an echo. -/
def recv (s : Sys) (now : Int) (i : Nat) (p : Packet) (seqTs : SeqTsHeader)
    (sentAt servedAt : Int) : Sys :=
  (s.deliver now i p seqTs sentAt servedAt).afterHandler now
    ((handleRecv cfg now p.sock [seqTs]).run s.client)

/-- An event: packet number `packet` takes its next step at `time`. -/
structure Event where
  time : Int
  packet : Nat
  deriving DecidableEq, Repr

/-- One step of the system. -/
def next (s : Sys) (e : Event) : Option Sys :=
  if s.halted.isSome then none else
    match s.packets[e.packet]? with
    | none => none
    | some p =>
      match p.stage with
      | .scheduled _ => some (s.fire e.time e.packet p)
      | .toServer seqTs sentAt => some (s.serve e.time e.packet p seqTs sentAt)
      | .toClient seqTs sentAt servedAt => some (s.recv cfg e.time e.packet p seqTs sentAt servedAt)
      | .delivered => none

/-- Nothing sent yet. -/
def idle (c : OWdClientBasic) (server : OwdSequencer) (now : Int) : Sys where
  client := c
  server := server
  packets := []
  halted := none
  now := now
  sentLog := []
  servedLog := []
  receivedLog := []
  dumps := 0

/-- The system after `StartApplication` and the `SampleRTTStart` it schedules at once. -/
def boot (now : Int) : Sys :=
  (idle .new .new now).afterHandler now
    ((do startApplication; sampleRTTStart now : ClientM Unit).run .new)

/-- The system after `StartNewOwdEstimationRound` on the client `c`. -/
def resume (c : OWdClientBasic) (server : OwdSequencer) (now : Int) : Sys :=
  (idle c server now).afterHandler now ((startNewOwdEstimationRound cfg now).run c)

/-! ## Scheduling assumptions -/

/-- The simulator's clock: it does not go back, and a scheduled send runs when it is due. -/
def Timely (s : Sys) (e : Event) : Prop :=
  s.now ≤ e.time ∧ ∀ due ∈ s.packets[e.packet]?.bind (·.stage.due?), e.time = due

/-- The client receives nothing at time 0, which its code reads as "not arrived". -/
def ArrivalsPositive (s : Sys) (e : Event) : Prop :=
  s.packets[e.packet]?.any (·.stage.isEcho) → 0 < e.time

instance (s : Sys) (e : Event) : Decidable (s.Timely e) := inferInstanceAs (Decidable (_ ∧ _))

instance (s : Sys) (e : Event) : Decidable (s.ArrivalsPositive e) :=
  inferInstanceAs (Decidable (_ → _))

/-- The clock of a simulation in which nothing arrives at time 0. -/
def Simulated (s : Sys) (e : Event) : Prop := s.Timely e ∧ s.ArrivalsPositive e

instance (s : Sys) (e : Event) : Decidable (s.Simulated e) := inferInstanceAs (Decidable (_ ∧ _))

/-- The packets the server has processed, in order. -/
def served (s : Sys) : List PacketTag := s.servedLog.map Logged.tag

/-- The server processed the packet `a` before the packet `b`. -/
def ServedBefore (s : Sys) (a b : PacketTag) : Prop := Before s.served a b

instance (s : Sys) (a b : PacketTag) : Decidable (s.ServedBefore a b) :=
  inferInstanceAs (Decidable (Before _ _ _))

/-- Number of packets the client has not yet processed. -/
def outstanding (s : Sys) : Nat := s.packets.countP fun p => p.Outstanding

/-- What the client received of a round, in order. -/
def receivedIn (s : Sys) (round : Nat) : List Arrival :=
  s.receivedLog.filter fun a => a.tag.round = round

end Sys

end OwdPacing
