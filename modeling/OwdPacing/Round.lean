import OwdPacing.Network
import OwdPacing.RoundEnd

/-!
# Rounds

What one round of measurements is: the packets it consists of, what the server
answers to each of them in each order of arrival, and what the client makes of
the echoes.  Nothing here depends on how a run reaches the round.
-/

namespace OwdPacing

open Container OWdClientBasic OwdSequencer StateError

/-! ## Sequence numbers of a round -/

/-- The lower sequence number of round number `r`. -/
def lowSeq (r : Nat) : UInt32 := UInt32.ofNat (2 * r + 1)

theorem toNat_lowSeq {r : Nat} (lt : 2 * r + 1 < 2 ^ 32) : (lowSeq r).toNat = 2 * r + 1 := by
  rw [lowSeq, UInt32.toNat_ofNat', Nat.mod_eq_of_lt lt]

theorem toNat_lowSeq_add_one {r : Nat} (lt : 2 * r + 2 < 2 ^ 32) :
    (lowSeq r + 1).toNat = 2 * r + 2 := by
  rw [OwdSequencer.toNat_add_one (by rw [toNat_lowSeq (by omega)]; omega), toNat_lowSeq (by omega)]

theorem lowSeq_succ (r : Nat) : lowSeq (r + 1) = lowSeq r + 2 := by
  have : 2 * (r + 1) + 1 = 2 * r + 1 + 2 := by omega
  rw [lowSeq, this, UInt32.ofNat_add]
  rfl

theorem lowSeq_add_one_ne (r : Nat) : lowSeq r + 1 ≠ lowSeq r := by
  simp

/-! ## The packets of a round -/

/-- A round samples the round-trip times, or measures the one-way delays with a
given fast subflow and a given estimate of the round before. -/
inductive RoundKind
  | sampling
  | estimation (fast : Socket) (estimate : Int)
  deriving DecidableEq

/-- A round: its number, counting the rounds of both modes, its kind, and when it started. -/
structure Round where
  number : Nat
  kind : RoundKind
  start : Int
  deriving DecidableEq

namespace Round

/-- The tag of packet `index` of the round. -/
def tag (ρ : Round) (index : Nat) : PacketTag := ⟨ρ.number, index⟩

/-- The one packet of the round that carries the higher sequence number: the one
on the second socket, or the one on the slow path. -/
def high (ρ : Round) : PacketTag :=
  match ρ.kind with
  | .sampling => ρ.tag 1
  | .estimation _ _ => ρ.tag 0

/-- The tag of probe `i`. -/
def probe (ρ : Round) (i : Nat) : PacketTag := ρ.tag (i + 1)

/-- The calls of `Send` of the round. -/
def plan (cfg : Config) (ρ : Round) : List SendCall :=
  match ρ.kind with
  | .sampling =>
      [⟨ρ.tag 0, 0, lowSeq ρ.number, ρ.start⟩, ⟨ρ.tag 1, 1, lowSeq ρ.number + 1, ρ.start⟩]
  | .estimation fast estimate =>
      ⟨ρ.tag 0, fast.other, lowSeq ρ.number + 1, ρ.start⟩ ::
        (List.range cfg.probes).map fun i =>
          ⟨ρ.probe i, fast, lowSeq ρ.number, ρ.start + cfg.probeOffset estimate i⟩

variable {cfg : Config} {ρ : Round} {call : SendCall}

theorem high_round (ρ : Round) : ρ.high.round = ρ.number := by
  rcases ρ with ⟨r, _ | ⟨fast, estimate⟩, start⟩ <;> rfl

theorem mem_plan_sampling {r : Nat} {start : Int} :
    call ∈ plan cfg ⟨r, .sampling, start⟩ ↔
      call = ⟨⟨r, 0⟩, 0, lowSeq r, start⟩ ∨ call = ⟨⟨r, 1⟩, 1, lowSeq r + 1, start⟩ := by
  simp [plan, tag]

theorem mem_plan_estimation {r : Nat} {fast : Socket} {estimate start : Int} :
    call ∈ plan cfg ⟨r, .estimation fast estimate, start⟩ ↔
      call = ⟨⟨r, 0⟩, fast.other, lowSeq r + 1, start⟩ ∨
      ∃ i < cfg.probes,
        call = ⟨⟨r, i + 1⟩, fast, lowSeq r, start + cfg.probeOffset estimate i⟩ := by
  simp [plan, tag, probe, eq_comm]

theorem plan_round (mem : call ∈ ρ.plan cfg) : call.tag.round = ρ.number := by
  rcases ρ with ⟨r, _ | ⟨fast, estimate⟩, start⟩
  · rcases mem_plan_sampling.mp mem with rfl | rfl <;> rfl
  · rcases mem_plan_estimation.mp mem with rfl | ⟨i, _, rfl⟩ <;> rfl

theorem plan_seqNb (mem : call ∈ ρ.plan cfg) :
    call.seqNb = if call.tag = ρ.high then lowSeq ρ.number + 1 else lowSeq ρ.number := by
  rcases ρ with ⟨r, _ | ⟨fast, estimate⟩, start⟩
  · rcases mem_plan_sampling.mp mem with rfl | rfl <;> simp [high, tag]
  · rcases mem_plan_estimation.mp mem with rfl | ⟨i, _, rfl⟩ <;> simp [high, tag]

theorem plan_tags_nodup (cfg : Config) (ρ : Round) : ((ρ.plan cfg).map (·.tag)).Nodup := by
  rcases ρ with ⟨r, _ | ⟨fast, estimate⟩, start⟩
  · simp [plan, tag]
  · rw [plan, List.map_cons, List.map_map, List.nodup_cons]
    constructor
    · simp [tag, probe]
    · refine (List.nodup_map_iff_inj_on List.nodup_range).mpr fun i _ j _ eq => ?_
      simpa [probe, tag] using eq

theorem high_mem_plan (cfg : Config) (ρ : Round) : ∃ call ∈ ρ.plan cfg, call.tag = ρ.high := by
  rcases ρ with ⟨r, _ | ⟨fast, estimate⟩, start⟩
  · exact ⟨_, mem_plan_sampling.mpr (.inr rfl), rfl⟩
  · exact ⟨_, mem_plan_estimation.mpr (.inl rfl), rfl⟩

/-- Some packet of the round carries the lower sequence number. -/
theorem low_mem_plan (nonempty : 1 ≤ cfg.probes) (ρ : Round) :
    ∃ call ∈ ρ.plan cfg, call.tag ≠ ρ.high := by
  rcases ρ with ⟨r, _ | ⟨fast, estimate⟩, start⟩
  · exact ⟨_, mem_plan_sampling.mpr (.inl rfl), by simp [high, tag]⟩
  · exact ⟨_, mem_plan_estimation.mpr (.inr ⟨0, nonempty, rfl⟩), by simp [high, tag]⟩

theorem plan_length (cfg : Config) (ρ : Round) :
    (ρ.plan cfg).length = match ρ.kind with
      | .sampling => 2
      | .estimation _ _ => cfg.probes + 1 := by
  rcases ρ with ⟨r, _ | ⟨fast, estimate⟩, start⟩ <;> simp [plan]

/-! ## What the server answers -/

/-- The server has processed a packet of the round with the lower number. -/
def LowServed (ρ : Round) (served : List PacketTag) : Prop :=
  ∃ tag ∈ served, tag.round = ρ.number ∧ tag ≠ ρ.high

instance (ρ : Round) (served : List PacketTag) : Decidable (ρ.LowServed served) :=
  inferInstanceAs (Decidable (∃ tag ∈ served, _))

/-- The numbers the server has received while it works on the round, when it has
processed the packets of `served`. -/
def numbersAt (ρ : Round) (served : List PacketTag) : Set Nat :=
  {n | n ≤ 2 * ρ.number ∨ n = 2 * ρ.number + 1 ∧ ρ.LowServed served ∨
    n = 2 * ρ.number + 2 ∧ ρ.high ∈ served}

/-- The highest of these received in order. -/
def markAt (ρ : Round) (served : List PacketTag) : Nat :=
  if ρ.LowServed served then
    if ρ.high ∈ served then 2 * ρ.number + 2 else 2 * ρ.number + 1
  else 2 * ρ.number

/-- The sequence number of the echo of a packet, for an order of service.  The
packet with the higher number is buffered until one with the lower has come. -/
def echoSeq (ρ : Round) (served : List PacketTag) (tag : PacketTag) : UInt32 :=
  if tag = ρ.high then
    if ∃ earlier ∈ served, earlier.round = ρ.number ∧ Before served earlier ρ.high then
      lowSeq ρ.number + 1
    else lowSeq ρ.number - 1
  else if Before served tag ρ.high then lowSeq ρ.number
  else lowSeq ρ.number + 1

variable {served later : List PacketTag}

/-- The echo of a packet with the lower number never carries the number before it. -/
theorem echoSeq_add_one_ne {tag : PacketTag} (low : tag ≠ ρ.high) :
    ρ.echoSeq served tag + 1 ≠ lowSeq ρ.number := by
  have next : lowSeq ρ.number + 1 + 1 ≠ lowSeq ρ.number := by
    rw [UInt32.add_assoc, Ne, UInt32.add_eq_left]
    decide
  rw [echoSeq, if_neg low]
  split_ifs
  · exact lowSeq_add_one_ne ρ.number
  · exact next

theorem isMark_markAt : IsMark (ρ.numbersAt served) (ρ.markAt served) := by
  rw [isMark_iff, markAt]
  split_ifs with low high
  · refine ⟨fun i _ le => ?_, ?_⟩
    · rcases Nat.lt_or_ge (2 * ρ.number) i with above | below
      · rcases Nat.lt_or_ge (2 * ρ.number + 1) i with last | first
        · exact .inr (.inr ⟨by omega, high⟩)
        · exact .inr (.inl ⟨by omega, low⟩)
      · exact .inl below
    · rintro (le | ⟨eq, -⟩ | ⟨eq, -⟩) <;> omega
  · refine ⟨fun i _ le => ?_, ?_⟩
    · rcases Nat.lt_or_ge (2 * ρ.number) i with above | below
      · exact .inr (.inl ⟨by omega, low⟩)
      · exact .inl below
    · rintro (le | ⟨eq, -⟩ | ⟨-, mem⟩)
      · omega
      · omega
      · exact high mem
  · refine ⟨fun i _ le => .inl le, ?_⟩
    rintro (le | ⟨-, served⟩ | ⟨eq, -⟩)
    · omega
    · exact low served
    · omega

/-- A packet of the round that the server processes adds its number. -/
theorem numbersAt_concat (bound : 2 * ρ.number + 2 < 2 ^ 32) (mem : call ∈ ρ.plan cfg) :
    ρ.numbersAt (served ++ [call.tag]) = ρ.numbersAt served ∪ {call.seqNb.toNat} := by
  have round := plan_round mem
  rw [plan_seqNb mem]
  ext n
  simp only [numbersAt, LowServed, Set.mem_ofPred_eq, Set.mem_union, Set.mem_singleton_iff,
    List.mem_append, List.mem_singleton]
  split_ifs with high
  · rw [toNat_lowSeq_add_one bound, ← high]
    constructor
    · rintro (le | ⟨eq, tag, mem | rfl, other⟩ | ⟨eq, _⟩)
      · exact .inl (.inl le)
      · exact .inl (.inr (.inl ⟨eq, tag, mem, other⟩))
      · exact absurd rfl other.2
      · exact .inr eq
    · rintro ((le | ⟨eq, tag, mem, other⟩ | ⟨eq, mem⟩) | eq)
      · exact .inl le
      · exact .inr (.inl ⟨eq, tag, .inl mem, other⟩)
      · exact .inr (.inr ⟨eq, .inl mem⟩)
      · exact .inr (.inr ⟨eq, .inr rfl⟩)
  · rw [toNat_lowSeq (by omega)]
    constructor
    · rintro (le | ⟨eq, _⟩ | ⟨eq, mem | same⟩)
      · exact .inl (.inl le)
      · exact .inr eq
      · exact .inl (.inr (.inr ⟨eq, mem⟩))
      · exact absurd same.symm high
    · rintro ((le | ⟨eq, tag, mem, other⟩ | ⟨eq, mem⟩) | eq)
      · exact .inl le
      · exact .inr (.inl ⟨eq, tag, .inl mem, other⟩)
      · exact .inr (.inr ⟨eq, .inl mem⟩)
      · exact .inr (.inl ⟨eq, call.tag, .inr rfl, round, high⟩)

/-- When all packets of the round have been processed its two numbers have come. -/
theorem numbersAt_of_served (nonempty : 1 ≤ cfg.probes)
    (all : ∀ call ∈ ρ.plan cfg, call.tag ∈ served) :
    ρ.numbersAt served = {n | n ≤ 2 * (ρ.number + 1)} := by
  obtain ⟨high, highPlanned, highTag⟩ := high_mem_plan cfg ρ
  obtain ⟨low, lowPlanned, lowTag⟩ := low_mem_plan nonempty ρ
  have highServed : ρ.high ∈ served := highTag ▸ all high highPlanned
  have lowServed : ρ.LowServed served :=
    ⟨low.tag, all low lowPlanned, plan_round lowPlanned, lowTag⟩
  ext n
  rw [numbersAt, Set.mem_ofPred_eq, Set.mem_ofPred_eq]
  constructor
  · rintro (le | ⟨eq, -⟩ | ⟨eq, -⟩) <;> omega
  · intro le
    rcases Nat.lt_or_ge (2 * ρ.number) n with above | below
    · rcases Nat.lt_or_ge (2 * ρ.number + 1) n with last | first
      · exact .inr (.inr ⟨by omega, highServed⟩)
      · exact .inr (.inl ⟨by omega, lowServed⟩)
    · exact .inl below

/-- The echo of the packet just processed carries the new mark. -/
theorem toNat_echoSeq_concat (bound : 2 * ρ.number + 2 < 2 ^ 32) (mem : call ∈ ρ.plan cfg)
    (fresh : call.tag ∉ served) :
    (ρ.echoSeq (served ++ [call.tag]) call.tag).toNat = ρ.markAt (served ++ [call.tag]) := by
  have round := plan_round mem
  have before : (lowSeq ρ.number - 1).toNat = 2 * ρ.number := by
    rw [UInt32.toNat_sub_of_le, toNat_lowSeq (by omega)]
    · rfl
    · rw [UInt32.le_iff_toNat_le, toNat_lowSeq (by omega)]
      exact Nat.le_add_left 1 _
  rw [echoSeq, markAt]
  by_cases high : call.tag = ρ.high
  · have newest : ρ.high ∈ served ++ [call.tag] := by rw [high]; simp
    have same : (∃ earlier ∈ served ++ [call.tag], earlier.round = ρ.number ∧
        Before (served ++ [call.tag]) earlier ρ.high) ↔ ρ.LowServed (served ++ [call.tag]) := by
      refine exists_congr fun tag => and_congr_right fun _ => and_congr_right fun _ => ?_
      rw [← high, before_concat_iff_mem fresh]
      constructor
      · rintro old rfl
        exact fresh old
      · intro ne
        rcases List.mem_append.mp ‹_› with old | new
        · exact old
        · exact absurd (List.mem_singleton.mp new) ne
    rw [if_pos high, if_pos newest]
    simp only [same]
    split_ifs
    · exact toNat_lowSeq_add_one bound
    · exact before
  · have low : ρ.LowServed (served ++ [call.tag]) := ⟨_, by simp, round, high⟩
    have same : Before (served ++ [call.tag]) call.tag ρ.high ↔
        ρ.high ∉ served ++ [call.tag] := by
      rw [before_concat_self fresh, List.mem_append, List.mem_singleton, not_or]
    rw [if_neg high, if_pos low]
    simp only [same]
    split_ifs
    · exact toNat_lowSeq_add_one bound
    · exact toNat_lowSeq (by omega)

/-- The number of a packet that the server has not processed is not buffered: the
lower one never is, and the higher one is that of a single packet. -/
theorem notMem_outOfOrder {server : OwdSequencer}
    (bound : 2 * ρ.number + 2 < 2 ^ 32) (track : Tracks server (ρ.numbersAt served))
    (planned : call ∈ ρ.plan cfg) (notServed : call.tag ∉ served) :
    call.seqNb ∉ server.m_outOfOrder := by
  have seqNat := congrArg UInt32.toNat (plan_seqNb planned)
  rw [track.mem_outOfOrder_iff]
  rintro ⟨received, above⟩
  rw [UInt32.lt_iff_toNat_lt, track.isMark.unique isMark_markAt, markAt] at above
  split_ifs at seqNat with high
  · rw [toNat_lowSeq_add_one bound] at seqNat
    rcases received with le | ⟨eq, -⟩ | ⟨-, logged⟩
    · omega
    · omega
    · exact notServed (high ▸ logged)
  · rw [toNat_lowSeq (by omega)] at seqNat
    rcases received with le | ⟨-, low⟩ | ⟨eq, -⟩
    · omega
    · rw [if_pos low] at above
      split_ifs at above <;> omega
    · omega

/-- The server's answer to a packet of the round. -/
theorem run_handleReadPacket {server : OwdSequencer}
    (bound : 2 * ρ.number + 2 < 2 ^ 32) (track : Tracks server (ρ.numbersAt served))
    (planned : call ∈ ρ.plan cfg) (notServed : call.tag ∉ served) (now : Int)
    (number : seqTs.seq = call.seqNb) :
    ∃ server', (handleReadPacket now seqTs).run server =
        .ok (echoHeader now seqTs (ρ.echoSeq (served ++ [call.tag]) call.tag)) server' ∧
      Tracks server' (ρ.numbersAt (served ++ [call.tag])) := by
  have fresh := notMem_outOfOrder bound track planned notServed
  obtain ⟨server', run, track'⟩ := ackSeqNb_tracks track fresh
  rw [← numbersAt_concat bound planned] at track'
  have mark : server'.m_highestInOrderReceivedSeqNumber =
      ρ.echoSeq (served ++ [call.tag]) call.tag :=
    UInt32.toNat_inj.mp (by
      rw [toNat_echoSeq_concat bound planned notServed, track'.isMark.unique isMark_markAt])
  refine ⟨server', ?_, track'⟩
  rw [handleReadPacket, number, run_bind_ok run, ← mark]
  rfl

/-- What the server answered does not change when it processes further packets. -/
theorem echoSeq_append {tag : PacketTag} (mem : tag ∈ served) :
    ρ.echoSeq (served ++ later) tag = ρ.echoSeq served tag := by
  unfold echoSeq
  by_cases high : tag = ρ.high
  · have same : (∃ earlier ∈ served ++ later, earlier.round = ρ.number ∧
        Before (served ++ later) earlier ρ.high) ↔
        ∃ earlier ∈ served, earlier.round = ρ.number ∧ Before served earlier ρ.high := by
      rw [← high]
      constructor
      · rintro ⟨earlier, -, round, before⟩
        rw [before_append_of_mem_right mem] at before
        exact ⟨earlier, before.mem, round, before⟩
      · rintro ⟨earlier, old, round, before⟩
        exact ⟨earlier, List.mem_append_left _ old, round,
          (before_append_of_mem_right mem).mpr before⟩
    rw [if_pos high, if_pos high]
    simp only [same]
  · rw [if_neg high, if_neg high]
    simp only [before_append mem]

/-! ## The echoes of a round -/

/-- The header is the server's answer to the packet of `call`, which it processed
at `servedAt`, by the order in its log. -/
structure IsEcho (ρ : Round) (log : List Logged) (call : SendCall) (seqTs : SeqTsHeader)
    (servedAt : Int) : Prop where
  receiverTs : seqTs.receiverTs = call.ts
  senderTs : seqTs.senderTs = servedAt
  logged : ⟨call.tag, servedAt⟩ ∈ log
  seq : seqTs.seq = ρ.echoSeq (log.map Logged.tag) call.tag

/-- The client received the answer to a packet of the round. -/
def FromPlan (cfg : Config) (ρ : Round) (log : List Logged) (a : Arrival) : Prop :=
  ∃ call ∈ ρ.plan cfg, a.tag = call.tag ∧ a.sock = call.sock ∧
    ρ.IsEcho log call a.seqTs a.servedAt

/-- The client received answers to packets of the round, at most one to each. -/
structure Echoes (cfg : Config) (ρ : Round) (log : List Logged) (arrivals : List Arrival) :
    Prop where
  fromPlan : ∀ a ∈ arrivals, ρ.FromPlan cfg log a
  nodup : (arrivals.map Arrival.tag).Nodup

/-- And it received them all; the server processed nothing else for the round. -/
structure AllEchoes (cfg : Config) (ρ : Round) (log : List Logged) (arrivals : List Arrival) : Prop
    extends Echoes cfg ρ log arrivals where
  complete : ∀ call ∈ ρ.plan cfg, ∃ a ∈ arrivals, a.tag = call.tag
  planned : ∀ x ∈ log, x.tag.round = ρ.number → ∃ call ∈ ρ.plan cfg, call.tag = x.tag

variable {log log' : List Logged} {arrivals : List Arrival} {a : Arrival} {seqTs : SeqTsHeader}
  {servedAt : Int}

theorem IsEcho.append (h : ρ.IsEcho log call seqTs servedAt) :
    ρ.IsEcho (log ++ log') call seqTs servedAt where
  receiverTs := h.receiverTs
  senderTs := h.senderTs
  logged := List.mem_append_left _ h.logged
  seq := by
    have mem : call.tag ∈ log.map Logged.tag := List.mem_map.mpr ⟨_, h.logged, rfl⟩
    rw [h.seq, List.map_append, echoSeq_append mem]

theorem Echoes.append (h : Echoes cfg ρ log arrivals) : Echoes cfg ρ (log ++ log') arrivals where
  fromPlan a mem := by
    obtain ⟨call, planned, tag, sock, echo⟩ := h.fromPlan a mem
    exact ⟨call, planned, tag, sock, echo.append⟩
  nodup := h.nodup

/-- What the server processes for other rounds does not matter. -/
theorem AllEchoes.append (h : AllEchoes cfg ρ log arrivals)
    (others : ∀ x ∈ log', x.tag.round ≠ ρ.number) : AllEchoes cfg ρ (log ++ log') arrivals where
  toEchoes := h.toEchoes.append
  complete := h.complete
  planned x mem round := by
    rcases List.mem_append.mp mem with old | new
    · exact h.planned x old round
    · exact absurd round (others x new)

theorem Echoes.round (h : Echoes cfg ρ log arrivals) (mem : a ∈ arrivals) :
    a.tag.round = ρ.number := by
  obtain ⟨call, planned, tag, -⟩ := h.fromPlan a mem
  rw [tag, plan_round planned]

theorem Echoes.mem_served (h : Echoes cfg ρ log arrivals) (mem : a ∈ arrivals) :
    a.tag ∈ log.map Logged.tag := by
  obtain ⟨call, -, tag, -, echo⟩ := h.fromPlan a mem
  rw [tag]
  exact List.mem_map.mpr ⟨_, echo.logged, rfl⟩

theorem Echoes.eq_of_tag {x : Arrival} (h : Echoes cfg ρ log arrivals) (memA : a ∈ arrivals)
    (memX : x ∈ arrivals) (same : x.tag = a.tag) : x = a :=
  eq_of_key_eq h.nodup memX memA same

end Round

end OwdPacing
