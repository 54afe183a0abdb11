import OwdPacing.Semantics.StateError
import Mathlib.Algebra.Ring.Nat
import Mathlib.Data.Fintype.Pi
import Mathlib.Data.Int.Order.Basic
import Mathlib.Tactic.Common

/-!
# Simulator time, sockets and constants

What the rest of the model shares: the simulator's clock, the two sockets, the
packet header, the constant members of the two client classes, and the
assertions of the sources.
-/

namespace OwdPacing

/-! ## Simulator time

An ns-3 `Time` is a whole, signed number of ticks: an `Int` here. -/

namespace Time

/-- `Time::IsZero`. -/
abbrev IsZero (t : Int) : Prop := t = 0

/-- `Time::IsPositive`, which zero is. -/
abbrev IsPositive (t : Int) : Prop := 0 ≤ t

/-- `Time::IsNegative`, which zero is too. -/
abbrev IsNegative (t : Int) : Prop := t ≤ 0

/-- `Time::IsStrictlyNegative`. -/
abbrev IsStrictlyNegative (t : Int) : Prop := t < 0

/-- `Abs`. -/
def abs (t : Int) : Int := t.natAbs

/-- `Time / 2`: integer division of the ticks, toward zero. -/
def half (t : Int) : Int := t.tdiv 2

end Time

/-! ## Sockets -/

/-- `NUM_INTERFACES` of `config.h`. -/
abbrev NUM_INTERFACES : Nat := 2

instance instNeZeroInterfaces : NeZero NUM_INTERFACES := ⟨by decide⟩

/-- An index into `m_sockets`: the client has one socket an interface. -/
abbrev Socket := Fin NUM_INTERFACES

/-- The sockets in the order of `m_sockets`. -/
def sockets : List Socket := [0, 1]

/-- The array slot that an `int` subflow id selects. -/
def Socket.ofId (id : Int) : Socket := Fin.ofNat NUM_INTERFACES id.toNat

@[simp] theorem Socket.ofId_coe (sock : Socket) : Socket.ofId (sock.val : Int) = sock := by
  revert sock; decide

/-- The other socket of the two. -/
def Socket.other (sock : Socket) : Socket := sock + 1

@[simp] theorem Socket.other_ne (sock : Socket) : sock.other ≠ sock := by
  revert sock; decide

@[simp] theorem Socket.ne_other (sock : Socket) : sock ≠ sock.other := (other_ne sock).symm

theorem Socket.eq_or_eq_other (sock fast : Socket) : sock = fast ∨ sock = fast.other := by
  revert sock fast; decide

/-- The `Time x[10]` members, of which a two-socket client uses one entry a socket. -/
abbrev PerSocket (α : Type) := Socket → α

/-! ## Packet headers -/

/-- `SeqTsHeader` as the sources use it: a sequence number and two timestamps. -/
structure SeqTsHeader where
  seq : UInt32
  senderTs : Int
  receiverTs : Int
  deriving DecidableEq, Repr

/-! ## Modes and constants -/

/-- `enum Mode`. -/
inductive Mode
  | RTTSampling
  | OWDEstimation
  deriving DecidableEq, Repr

/-- The constant members of `OWDHost` and `OWdClientBasic`, and the resolution of
the simulator's clock. -/
structure Config where
  sampleRTTmaxRounds : UInt32
  probesInARound : UInt32
  owdMaxRounds : UInt32
  /-- A whole, positive number of ticks makes a millisecond. -/
  ticksPerMs : Nat
  ticksPerMs_pos : 0 < ticksPerMs

/-- The values the two constructors give the constants. -/
def Config.constructed (ticksPerMs : Nat) (pos : 0 < ticksPerMs) : Config where
  sampleRTTmaxRounds := 1
  probesInARound := 3
  owdMaxRounds := 20
  ticksPerMs := ticksPerMs
  ticksPerMs_pos := pos

namespace Config

variable (cfg : Config)

/-- `MilliSeconds (ms)`. -/
def milliSeconds (ms : Int) : Int := ms * cfg.ticksPerMs

/-- `Time::GetMilliSeconds`, which drops the fraction of a millisecond. -/
def getMilliSeconds (t : Int) : Int := t.tdiv cfg.ticksPerMs

/-- Number of probes of a round. -/
abbrev probes : Nat := cfg.probesInARound.toNat

/-- The bounds under which the counters of the code hold what they count: the
`uint8_t` probe index covers the probes, and the last sequence number, one plus
twice the number of rounds, fits `uint32_t`. -/
structure Admissible : Prop where
  probes_pos : 1 ≤ cfg.probesInARound.toNat
  probes_le : cfg.probesInARound.toNat ≤ 255
  sampleRounds_pos : 1 ≤ cfg.sampleRTTmaxRounds.toNat
  owdRounds_pos : 1 ≤ cfg.owdMaxRounds.toNat
  rounds_le : cfg.sampleRTTmaxRounds.toNat + cfg.owdMaxRounds.toNat ≤ 2 ^ 31 - 1

theorem constructed_admissible (ticksPerMs : Nat) (pos : 0 < ticksPerMs) :
    (constructed ticksPerMs pos).Admissible := by
  constructor <;> simp [constructed]

/-- The constants of the constructors, with a clock of nanoseconds. -/
def nanoseconds : Config := constructed 1000000 (by decide)

theorem nanoseconds_admissible : nanoseconds.Admissible := constructed_admissible _ _

theorem getMilliSeconds_milliSeconds (ms : Int) :
    cfg.getMilliSeconds (cfg.milliSeconds ms) = ms := by
  have pos := cfg.ticksPerMs_pos
  exact Int.mul_tdiv_cancel ms (by omega)

end Config

/-- `(int) x` of an unsigned 32-bit value. -/
def asInt (x : UInt32) : Int := x.toBitVec.toInt

theorem asInt_of_lt {x : UInt32} (h : x.toNat < 2 ^ 31) : asInt x = x.toNat := by
  rw [asInt, BitVec.toInt_eq_toNat_of_lt]
  · rfl
  · simp only [UInt32.toNat_toBitVec]; omega

/-! ## Assertions -/

/-- Where an `NS_ASSERT` of the sources can stop the simulation, by function. -/
inductive Failure
  | changeMode_inflight
  | sampleRTTStart_mode
  | sampleRTTStart_inflight
  | estimateOWDRecv_mode
  | startNewOwdEstimationRound_mode
  | startNewOwdEstimationRound_inflight
  | startNewOwdEstimationRound_rttRoundStats
  | startNewOwdEstimationRound_forwardFastSubflow
  | startNewOwdEstimationRound_probeDelay
  | getProbeDelay_index
  | getProbeDelay_mode
  | getProbeDelay_rttRoundStats
  | getProbeDelay_owdRoundStats
  | getProbeDelay_isPositive
  /-- Not an assertion: the `while` loop has not ended within its bound. -/
  | getProbeDelay_loop
  | finishRound_inflight
  | forwardSlowSubflowId
  | ackSeqNb_inserted
  deriving DecidableEq, Repr

/-- `NS_ASSERT (p)`. -/
def nsAssert {σ : Type} (p : Prop) [Decidable p] (failure : Failure) : EStateM Failure σ Unit :=
  if p then pure () else throw failure

section

variable {σ β : Type} {p : Prop} [Decidable p] {failure : Failure} {s : σ}
  {f : PUnit → EStateM Failure σ β}

theorem run_nsAssert_bind (holds : p) : (nsAssert p failure >>= f).run s = (f ⟨⟩).run s := by
  rw [nsAssert, if_pos holds]; rfl

theorem run_nsAssert_bind_of_not (fails : ¬ p) :
    (nsAssert p failure >>= f).run s = .error failure s := by
  rw [nsAssert, if_neg fails]; rfl

end

end OwdPacing
