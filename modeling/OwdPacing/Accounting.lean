import OwdPacing.Reachable

/-!
# Numbering and packets in flight

The client's numbering and the server's sequencer stay in step over whole runs,
and the client's counter counts exactly the packets of the round in progress
that it has not yet processed.
-/

namespace OwdPacing

open Container OWdClientBasic Round OwdSequencer Runs

namespace Sys

variable {cfg : Config} {earlier : Nat} {ρ : Round} {s s' s₀ : Sys} {c c₀ : OWdClientBasic}
  {e : Event}

/-! ## Numbering -/

/-- The server has received exactly the numbers below the round's lowest. -/
def AtBoundary (s : Sys) : Prop :=
  s.server.m_highestInOrderReceivedSeqNumber.toNat + 1 = s.client.m_lowestRoundSeq.toNat ∧
    s.server.m_outOfOrder = .empty

/-- The server has received, of the numbers from the round's lowest on, at most the next two. -/
def InRound (s : Sys) : Prop :=
  (s.server.m_highestInOrderReceivedSeqNumber.toNat + 1 = s.client.m_lowestRoundSeq.toNat ∨
      s.server.m_highestInOrderReceivedSeqNumber.toNat = s.client.m_lowestRoundSeq.toNat ∨
      s.server.m_highestInOrderReceivedSeqNumber.toNat = s.client.m_lowestRoundSeq.toNat + 1) ∧
    ∀ x ∈ s.server.m_outOfOrder, x.toNat = s.client.m_lowestRoundSeq.toNat + 1

theorem Running.toNat_low (h : s.Running cfg earlier ρ c) :
    s.client.m_lowestRoundSeq.toNat = 2 * ρ.number + 1 := by
  have bound := h.started.bound
  rw [h.sameRound.low, h.started.low, toNat_lowSeq (by omega)]

/-- A sequencer that has received all numbers up to an even one is at a boundary. -/
theorem atBoundary_of_tracks {r : Nat} (track : Tracks s.server {n | n ≤ 2 * r})
    (low : s.client.m_lowestRoundSeq.toNat = 2 * r + 1) : s.AtBoundary := by
  have mark : IsMark {n | n ≤ 2 * r} (2 * r) := by
    rw [isMark_iff]
    exact ⟨fun i _ le => le, fun le => absurd le (Nat.not_succ_le_self _)⟩
  have eq := track.isMark.unique mark
  refine ⟨by omega, SortedSet.eq_empty_iff.mpr fun x mem => ?_⟩
  obtain ⟨le, above⟩ := (track.mem_outOfOrder_iff x).mp mem
  rw [UInt32.lt_iff_toNat_lt] at above
  have le : x.toNat ≤ 2 * r := le
  omega

/-- Until the server processes a packet of the round it is at the boundary. -/
theorem Running.atBoundary (h : s.Running cfg earlier ρ c)
    (none : ∀ tag ∈ s.served, tag.round ≠ ρ.number) : s.AtBoundary := by
  refine atBoundary_of_tracks (h.server.congr fun n _ => ⟨?_, Or.inl⟩) h.toNat_low
  rintro (le | ⟨-, tag, mem, round, -⟩ | ⟨-, mem⟩)
  · exact le
  · exact absurd round (none tag mem)
  · exact absurd (high_round ρ) (none _ mem)

theorem Running.inRound (h : s.Running cfg earlier ρ c) : s.InRound := by
  have low := h.toNat_low
  have mark := h.server.isMark.unique isMark_markAt
  rw [markAt] at mark
  constructor
  · split_ifs at mark <;> omega
  · intro x mem
    obtain ⟨number, above⟩ := (h.server.mem_outOfOrder_iff x).mp mem
    rw [UInt32.lt_iff_toNat_lt] at above
    rcases number with le | ⟨eq, served⟩ | ⟨eq, -⟩
    · split_ifs at mark <;> omega
    · rw [if_pos served] at mark
      split_ifs at mark <;> omega
    · omega

theorem Quiet.atBoundary (h : s.Quiet cfg earlier) : s.AtBoundary :=
  atBoundary_of_tracks h.settled.server h.low

theorem AtBoundary.inRound (h : s.AtBoundary) : s.InRound :=
  ⟨.inl h.1, fun x mem => absurd mem (h.2 ▸ SortedSet.not_mem_empty x)⟩

theorem Running.served_round_le (h : s.Running cfg earlier ρ c) {tag : PacketTag}
    (mem : tag ∈ s.served) : tag.round ≤ ρ.number := by
  obtain ⟨p, memP, rfl⟩ := h.carries.servedTags tag mem
  exact h.carries.round_le memP

/-! ## What a step does to the round -/

/-- A step is about a packet of the round in progress.  It ends the round when
it is the receipt of the last outstanding echo, and then the server is at the
boundary; otherwise the mode stays. -/
structure StepInRound (cfg : Config) (s : Sys) (e : Event) (s' : Sys) : Prop where
  packet : ∃ p, s.packets[e.packet]? = some p ∧ p.Outstanding ∧ p.tag.round = s.client.roundsDone
  roundsDone : s'.client.roundsDone = s.client.roundsDone +
    if s.packets[e.packet]?.any (·.stage.isEcho) ∧ s.outstanding = 1 then 1 else 0
  mode : s'.client.roundsDone = s.client.roundsDone →
    s'.client.m_currentMode = s.client.m_currentMode
  boundary : s'.client.roundsDone ≠ s.client.roundsDone → s'.AtBoundary

theorem Stores.roundsDone {stats : RoundStats} {c c' : OWdClientBasic} (h : Stores ρ stats c c') :
    c'.roundsDone = c.roundsDone + 1 := by
  rcases ρ with ⟨r, _ | ⟨fast, E⟩, start⟩ <;> obtain ⟨rtt, owd⟩ := h <;>
    rw [OWdClientBasic.roundsDone, OWdClientBasic.roundsDone, rtt, owd, List.length_append,
      List.length_singleton] <;> omega

theorem Invariant.stepInRound (h : s.Invariant cfg c₀) (adm : cfg.Admissible)
    (step : s.next cfg e = some s') : StepInRound cfg s e s' := by
  rcases h.phase with ⟨ρ, c, run⟩ | quiet
  · obtain ⟨-, p, get, cases⟩ := next_cases step
    have mem : p ∈ s.packets := List.mem_of_getElem? get
    have packet : p.Outstanding → ∃ p, s.packets[e.packet]? = some p ∧ p.Outstanding ∧
        p.tag.round = s.client.roundsDone := fun out =>
      ⟨p, get, out, (plan_round (run.carries.planned mem out)).trans run.roundsDone.symm⟩
    -- a step that leaves the client in its round
    have stay : ∀ s₂ : Sys, p.Outstanding → SameRound s.client s₂.client →
        ¬ (p.stage.isEcho ∧ s.outstanding = 1) → StepInRound cfg s e s₂ := by
      intro s₂ out same other
      refine ⟨packet out, ?_, fun _ => same.mode, fun ne => absurd same.roundsDone ne⟩
      rw [same.roundsDone, get, Option.any_some, if_neg other]
      rfl
    rcases cases with ⟨due, stage, rfl⟩ | ⟨seqTs, sentAt, stage, rfl⟩ |
      ⟨seqTs, sentAt, servedAt, stage, rfl⟩
    · refine stay _ (Carries.outstanding_of_scheduled stage) .refl ?_
      rw [stage]
      exact fun both => Bool.false_ne_true both.1
    · obtain ⟨-, client, -⟩ := run.serve e.time get stage
      refine stay _ (Carries.outstanding_of_toServer stage) (client ▸ .refl) ?_
      rw [stage]
      exact fun both => Bool.false_ne_true both.1
    · have out := Carries.outstanding_of_toClient stage
      by_cases one : s.outstanding = 1
      · have closes := run.close e.time adm get stage one
        have done := closes.stores.roundsDone
        rw [run.started.number, ← run.roundsDone] at done
        refine ⟨packet out, ?_, fun same => absurd (same.symm.trans done) (by omega), fun _ => ?_⟩
        · rw [done, get, if_pos]
          refine ⟨?_, one⟩
          rw [Option.any_some, stage]
          rfl
        · cases closes.follows with
          | round ρ' c' run' number =>
              refine run'.atBoundary fun tag mem => ?_
              have mem : tag ∈ s.served := by rwa [Sys.served, closes.servedLog] at mem
              have := run.served_round_le mem
              omega
          | nothing quiet => exact quiet.atBoundary
      · obtain ⟨-, same, -⟩ := run.recv e.time get stage one
        exact stay _ out same fun both => one both.2
  · rw [quiet.next_eq_none] at step
    cases step

theorem Invariant.halted (h : s.Invariant cfg c₀) :
    s.halted = none ∨ s.halted = some .startNewOwdEstimationRound_forwardFastSubflow := by
  rcases h.phase with ⟨ρ, c, run⟩ | quiet
  · exact .inl run.running
  · cases quiet.outcome with
    | finished running => exact .inl running
    | aborted halted => exact .inr halted

/-- **Numbering in step.**  In every reachable state the client's lowest number
follows the rounds done; the server is at the boundary when nothing is
outstanding and when a round starts, and within the round's two numbers all
along; and the sequencer's assertion never fires. -/
theorem numbering_inStep (adm : cfg.Admissible) (start : Start cfg s₀)
    (reach : Reach (next cfg) anyEvent s₀ s) :
    s.client.m_lowestRoundSeq.toNat =
        1 + 2 * (s.client.m_rttRoundStats.length + s.client.m_owdRoundStats.length) ∧
      (s.client.m_inflight = 0 → s.outstanding = 0 → s.AtBoundary) ∧
      ((∀ tag ∈ s.served, tag.round ≠ s.client.roundsDone) → s.AtBoundary) ∧
      (∀ e s', s.next cfg e = some s' → s'.client.roundsDone ≠ s.client.roundsDone →
        s'.AtBoundary) ∧
      s.InRound ∧ s.halted ≠ some .ackSeqNb_inserted := by
  have inv := start.reach adm reach
  refine ⟨?_, ?_, ?_, fun e s' step => (inv.stepInRound adm step).boundary, ?_, ?_⟩
  · rcases inv.phase with ⟨ρ, c, run⟩ | quiet
    · have number : s.client.m_rttRoundStats.length + s.client.m_owdRoundStats.length = ρ.number :=
        run.roundsDone
      rw [run.toNat_low, number]
      omega
    · rw [quiet.low, roundsDone]
      omega
  · intro _ none
    rcases inv.phase with ⟨ρ, c, run⟩ | quiet
    · exact absurd none (Nat.ne_of_gt run.busy)
    · exact quiet.atBoundary
  · intro none
    rcases inv.phase with ⟨ρ, c, run⟩ | quiet
    · exact run.atBoundary (run.roundsDone ▸ none)
    · exact quiet.atBoundary
  · rcases inv.phase with ⟨ρ, c, run⟩ | quiet
    · exact run.inRound
    · exact quiet.atBoundary.inRound
  · rcases inv.halted with halted | halted <;> rw [halted] <;> simp

theorem numbering_inStep_socketOneFirst :
    ∃ s, Reach (next .nanoseconds) anyEvent (boot 0) s ∧ s.client.m_rttRoundStats.length = 1 ∧
      s.client.m_lowestRoundSeq.toNat =
        1 + 2 * (s.client.m_rttRoundStats.length + s.client.m_owdRoundStats.length) := by
  have reach : Reach (next .nanoseconds) anyEvent (boot 0)
      (final (next .nanoseconds) socketOneFirst (boot 0)) := .final (by decide +kernel) .any
  exact ⟨_, reach, by decide +kernel,
    (numbering_inStep Config.nanoseconds_admissible (.boot 0) reach).1⟩

/-! ## Packets in flight -/

/-- Number of packets of the round in progress that the client has not processed. -/
def outstandingInRound (s : Sys) : Nat :=
  s.packets.countP fun p => p.tag.round = s.client.roundsDone ∧ p.Outstanding

theorem Invariant.outstanding_round (h : s.Invariant cfg c₀) {p : Packet} (mem : p ∈ s.packets)
    (out : p.Outstanding) : p.tag.round = s.client.roundsDone := by
  obtain ⟨ρ, c, run⟩ := h.running mem out
  exact (plan_round (run.carries.planned mem out)).trans run.roundsDone.symm

theorem Quiet.outstanding (h : s.Quiet cfg earlier) : s.outstanding = 0 :=
  List.countP_eq_zero.mpr fun p mem out =>
    of_decide_eq_true out (h.settled.delivered p mem).1

theorem Invariant.inflight (h : s.Invariant cfg c₀) :
    s.client.m_inflight.toNat = s.outstanding := by
  rcases h.phase with ⟨ρ, c, run⟩ | quiet
  · exact run.inflight
  · rw [quiet.inflight, quiet.outstanding]
    rfl

/-- **Packets in flight.**  In every reachable state the counter is the number of
packets of the round in progress that the client has not processed, and there
are no others; an echo finds the counter positive; a step closes the round
exactly when it is the receipt of the last outstanding echo, and no other step
changes the mode; and no assertion about the counter or the mode fires. -/
theorem inflight_accounting (adm : cfg.Admissible) (start : Start cfg s₀)
    (reach : Reach (next cfg) anyEvent s₀ s) :
    s.client.m_inflight.toNat = s.outstandingInRound ∧
      (∀ p ∈ s.packets, p.Outstanding → p.tag.round = s.client.roundsDone) ∧
      (∀ p ∈ s.packets, p.stage.isEcho → 1 ≤ s.client.m_inflight) ∧
      (∀ e s', s.next cfg e = some s' → StepInRound cfg s e s') ∧
      ∀ failure ∈ [Failure.changeMode_inflight, .sampleRTTStart_inflight,
          .startNewOwdEstimationRound_inflight, .finishRound_inflight, .sampleRTTStart_mode,
          .estimateOWDRecv_mode, .startNewOwdEstimationRound_mode, .getProbeDelay_mode],
        s.halted ≠ some failure := by
  have inv := start.reach adm reach
  have rounds := fun p mem out => inv.outstanding_round (p := p) mem out
  refine ⟨?_, rounds, ?_, fun e s' step => inv.stepInRound adm step, ?_⟩
  · rw [inv.inflight, outstanding, outstandingInRound]
    refine List.countP_congr fun p mem => ?_
    simp only [decide_eq_true_eq]
    exact ⟨fun out => ⟨rounds p mem out, out⟩, fun both => both.2⟩
  · intro p mem echo
    have out : p.Outstanding := fun delivered => by
      rw [delivered] at echo
      exact Bool.false_ne_true echo
    rw [UInt32.le_iff_toNat_le, inv.inflight]
    exact List.countP_pos_iff.mpr ⟨p, mem, decide_eq_true out⟩
  · intro failure mem
    rcases inv.halted with halted | halted <;> rw [halted]
    · simp
    · rintro eq
      obtain rfl := Option.some.inj eq
      revert mem
      decide

theorem inflight_accounting_socketOneFirst :
    ∃ s, Reach (next .nanoseconds) anyEvent (boot 0) s ∧ s.client.m_inflight = 4 ∧
      s.client.m_inflight.toNat = s.outstandingInRound := by
  have reach : Reach (next .nanoseconds) anyEvent (boot 0)
      (final (next .nanoseconds) socketOneFirst (boot 0)) := .final (by decide +kernel) .any
  exact ⟨_, reach, by decide +kernel,
    (inflight_accounting Config.nanoseconds_admissible (.boot 0) reach).1⟩

end Sys

end OwdPacing
