import OwdPacing.Round

/-!
# Replaying the echoes of a round

Between the start of a round and its end the client's state is a function of the
state it started in and the echoes it has received, in order.  This module says
what each part of that state remembers of the echoes.
-/

namespace OwdPacing

open Container OWdClientBasic

/-- The client after an echo, before it looks whether the round is over. -/
def echoed (kind : RoundKind) (c : OWdClientBasic) (a : Arrival) : OWdClientBasic :=
  match kind with
  | .sampling => rttEchoed a.time a.sock a.seqTs c.decrement
  | .estimation fast _ => owdEchoed fast a.time a.sock a.seqTs c.decrement

/-- The client after the echoes `arrivals`. -/
def replay (kind : RoundKind) (arrivals : List Arrival) (c : OWdClientBasic) : OWdClientBasic :=
  arrivals.foldl (echoed kind) c

section

variable {kind : RoundKind} {arrivals : List Arrival} {a : Arrival} {c c' c'' : OWdClientBasic}

@[simp] theorem replay_concat :
    replay kind (arrivals ++ [a]) c = echoed kind (replay kind arrivals c) a := by
  rw [replay, List.foldl_append]
  rfl

theorem replay_eq_of_same {α : Type*} {f : OWdClientBasic → α}
    (same : ∀ c a, f (echoed kind c a) = f c) : f (replay kind arrivals c) = f c := by
  induction arrivals using List.reverseRecOn with
  | nil => rfl
  | append_singleton arrivals a ih => rw [replay_concat, same, ih]

/-! ## What no echo changes -/

/-- The two clients are in the same round: their mode, records and numbering agree. -/
structure SameRound (c c' : OWdClientBasic) : Prop where
  mode : c'.m_currentMode = c.m_currentMode
  low : c'.m_lowestRoundSeq = c.m_lowestRoundSeq
  owd : c'.m_owdRoundStats = c.m_owdRoundStats
  rtt : c'.m_rttRoundStats = c.m_rttRoundStats
  start : c'.m_timeOfFirstSentPacket = c.m_timeOfFirstSentPacket
  effects : c'.effects = c.effects

theorem SameRound.refl : SameRound c c := ⟨rfl, rfl, rfl, rfl, rfl, rfl⟩

theorem SameRound.trans (first : SameRound c c') (second : SameRound c' c'') :
    SameRound c c'' where
  mode := second.mode.trans first.mode
  low := second.low.trans first.low
  owd := second.owd.trans first.owd
  rtt := second.rtt.trans first.rtt
  start := second.start.trans first.start
  effects := second.effects.trans first.effects

theorem SameRound.roundsDone (same : SameRound c c') : c'.roundsDone = c.roundsDone := by
  rw [OWdClientBasic.roundsDone, same.rtt, same.owd]
  rfl

theorem SameRound.previousEstimate (same : SameRound c c') :
    c'.previousEstimate = c.previousEstimate := by
  rw [OWdClientBasic.previousEstimate, same.owd]
  rfl

theorem SameRound.estimating (same : SameRound c c') (h : c.Estimating) : c'.Estimating where
  mode := same.mode.trans h.mode
  sampled := by rw [same.rtt]; exact h.sampled
  estimate := by rw [same.previousEstimate]; exact h.estimate

theorem echoed_sameRound : SameRound c (echoed kind c a) := by
  cases kind with
  | sampling =>
      rw [echoed, rttEchoed]
      split_ifs <;> exact ⟨rfl, rfl, rfl, rfl, rfl, rfl⟩
  | estimation fast estimate =>
      rw [echoed, owdEchoed]
      split_ifs <;> exact ⟨rfl, rfl, rfl, rfl, rfl, rfl⟩

theorem replay_sameRound : SameRound c (replay kind arrivals c) := by
  induction arrivals using List.reverseRecOn with
  | nil => exact .refl
  | append_singleton arrivals a ih =>
      rw [replay_concat]
      exact ih.trans echoed_sameRound

theorem echoed_m_inflight : (echoed kind c a).m_inflight = c.m_inflight - 1 := by
  cases kind with
  | sampling =>
      rw [echoed, rttEchoed]
      split_ifs <;> rfl
  | estimation fast estimate =>
      rw [echoed, owdEchoed]
      split_ifs <;> rfl

/-- The counter goes down by one an echo, and does not wrap. -/
theorem replay_m_inflight (le : arrivals.length ≤ c.m_inflight.toNat) :
    (replay kind arrivals c).m_inflight.toNat = c.m_inflight.toNat - arrivals.length := by
  induction arrivals using List.reverseRecOn with
  | nil => rfl
  | append_singleton arrivals a ih =>
      rw [List.length_append, List.length_singleton] at le ⊢
      have before := ih (by omega)
      have one : (1 : UInt32) ≤ (replay kind arrivals c).m_inflight := by
        rw [UInt32.le_iff_toNat_le, before]
        exact Nat.le_sub_of_add_le (by rw [Nat.add_comm]; exact le)
      rw [replay_concat, echoed_m_inflight, UInt32.toNat_sub_of_le _ _ one, before,
        Nat.sub_sub]
      rfl

/-! ## Measurements -/

/-- The record holds the measurements of the echo for the subflow. -/
structure Measures (stats : RoundStats) (sock : Socket) (a : Arrival) : Prop where
  forward : stats.RealForwardDelay sock = a.seqTs.senderTs - a.seqTs.receiverTs
  reverse : stats.RealReverseDelay sock = a.time - a.seqTs.senderTs
  rtt : stats.rtt sock = a.time - a.seqTs.receiverTs

theorem measured_measures {sock : Socket} {stats : RoundStats} :
    Measures (measured a.time sock a.seqTs stats) sock a :=
  ⟨Function.update_self .., Function.update_self .., Function.update_self ..⟩

theorem Measures.measured_of_ne {sock sock' : Socket} {stats : RoundStats} {x : Arrival}
    (h : Measures stats sock a) (ne : sock ≠ sock') :
    Measures (measured x.time sock' x.seqTs stats) sock a where
  forward := (Function.update_of_ne ne ..).trans h.forward
  reverse := (Function.update_of_ne ne ..).trans h.reverse
  rtt := (Function.update_of_ne ne ..).trans h.rtt

/-- No other echo of the list is for the socket of `a`. -/
def OnlyOn (arrivals : List Arrival) (a : Arrival) : Prop :=
  ∀ x ∈ arrivals, x.sock = a.sock → x = a

theorem OnlyOn.left {x : Arrival} (only : OnlyOn (arrivals ++ [x]) a) : OnlyOn arrivals a :=
  fun y hy => only y (List.mem_append_left _ hy)

/-- The measurements of an RTT round are those of the socket's one echo. -/
theorem replay_sampling_measures (mem : a ∈ arrivals) (only : OnlyOn arrivals a) :
    Measures (replay .sampling arrivals c).m_currentRoundStats a.sock a := by
  have stats : ∀ (c : OWdClientBasic) (x : Arrival) (sock : Socket),
      Measures (measured x.time x.sock x.seqTs c.m_currentRoundStats) sock a →
      Measures (echoed .sampling c x).m_currentRoundStats sock a := by
    intro c x sock h
    rw [echoed, rttEchoed]
    split_ifs <;> exact ⟨h.forward, h.reverse, h.rtt⟩
  induction arrivals using List.reverseRecOn with
  | nil => exact absurd mem List.not_mem_nil
  | append_singleton arrivals x ih =>
      rw [replay_concat]
      refine stats _ _ _ ?_
      by_cases same : x.sock = a.sock
      · obtain rfl := only x (by simp) same
        exact measured_measures
      · have old : a ∈ arrivals := by
          rcases List.mem_append.mp mem with old | new
          · exact old
          · exact absurd (List.mem_singleton.mp new ▸ rfl) same
        exact (ih old only.left).measured_of_ne (Ne.symm same)

/-- The fast subflow an RTT round finds: the socket of the first echo with the
number before the round's lowest, unless one is already known. -/
theorem replay_sampling_forwardFastSubflow (sock : Socket)
    (fresh : ∀ x ∈ arrivals, x.seqTs.seq + 1 = c.m_lowestRoundSeq → x.sock = sock)
    (known : c.m_currentRoundStats.ForwardFastSubflow = -1 ∨
      c.m_currentRoundStats.ForwardFastSubflow = (sock : Nat)) :
    (replay .sampling arrivals c).m_currentRoundStats.ForwardFastSubflow =
      if ∃ x ∈ arrivals, x.seqTs.seq + 1 = c.m_lowestRoundSeq then ((sock : Nat) : Int)
      else c.m_currentRoundStats.ForwardFastSubflow := by
  induction arrivals using List.reverseRecOn with
  | nil =>
      rw [if_neg (by simp)]
      rfl
  | append_singleton arrivals a ih =>
      have old := ih fun x hx => fresh x (List.mem_append_left _ hx)
      have same : SameRound c (replay .sampling arrivals c) := replay_sameRound
      have low : (replay .sampling arrivals c).decrement.m_lowestRoundSeq = c.m_lowestRoundSeq :=
        same.low
      have split : (∃ x ∈ arrivals ++ [a], x.seqTs.seq + 1 = c.m_lowestRoundSeq) ↔
          (∃ x ∈ arrivals, x.seqTs.seq + 1 = c.m_lowestRoundSeq) ∨
          a.seqTs.seq + 1 = c.m_lowestRoundSeq := by
        simp [or_and_right, exists_or]
      have new : (measured a.time a.sock a.seqTs
          (replay .sampling arrivals c).decrement.m_currentRoundStats).ForwardFastSubflow =
          (replay .sampling arrivals c).m_currentRoundStats.ForwardFastSubflow := rfl
      have nonneg : ¬ ((sock : Nat) : Int) < 0 := by omega
      rw [replay_concat, echoed, rttEchoed]
      simp only [low, split, new, old]
      by_cases hit : a.seqTs.seq + 1 = c.m_lowestRoundSeq
      · have isSock : a.sock = sock := fresh a (by simp) hit
        rw [if_pos (Or.inr hit)]
        split_ifs with found unknown unknown
        · exact congrArg (fun s : Socket => ((s : Nat) : Int)) isSock
        · rw [new, old, if_pos found]
        · exact congrArg (fun s : Socket => ((s : Nat) : Int)) isSock
        · rw [new, old, if_neg found]
          rcases known with none | some
          · rw [none] at unknown
            exact absurd ⟨hit, by decide⟩ unknown
          · exact some
      · rw [if_neg (fun h => hit h.1)]
        simp only [hit, or_false]
        rw [new, old]

/-! ## Estimation rounds -/

section Estimation

variable {fast : Socket} {E : Int} {low : UInt32}

/-- An echo of a probe, in a round whose fast subflow is `fast`, that the client
takes for one processed before the slow packet. -/
def Arrival.IsBefore (fast : Socket) (low : UInt32) (a : Arrival) : Prop :=
  a.sock = fast ∧ a.seqTs.seq = low

/-- One that the client takes for processed after the slow packet. -/
def Arrival.IsAfter (fast : Socket) (low : UInt32) (a : Arrival) : Prop :=
  a.sock = fast ∧ a.seqTs.seq ≠ low

instance : DecidablePred (Arrival.IsBefore fast low) := fun _ => inferInstanceAs (Decidable (_ ∧ _))

instance : DecidablePred (Arrival.IsAfter fast low) := fun _ => inferInstanceAs (Decidable (_ ∧ _))

theorem echoed_m_forwardFastSubflow :
    (echoed (.estimation fast E) c a).m_forwardFastSubflow = c.m_forwardFastSubflow := by
  rw [echoed, owdEchoed]
  split_ifs <;> rfl

theorem replay_m_forwardFastSubflow :
    (replay (.estimation fast E) arrivals c).m_forwardFastSubflow = c.m_forwardFastSubflow :=
  replay_eq_of_same (f := OWdClientBasic.m_forwardFastSubflow) fun _ _ =>
    echoed_m_forwardFastSubflow

theorem echoed_lastBefore :
    (echoed (.estimation fast E) c a).m_arrivalTimeLastProbeBeforeSlowPath =
      if a.IsBefore fast c.m_lowestRoundSeq then a.time
      else c.m_arrivalTimeLastProbeBeforeSlowPath := by
  rw [echoed, owdEchoed]
  by_cases probe : a.sock = fast
  · rw [if_pos probe, fastEchoed]
    exact if_congr ⟨fun before => ⟨probe, before⟩, fun before => before.2⟩ rfl rfl
  · rw [if_neg probe, if_neg fun before => probe before.1]
    rfl

theorem echoed_firstAfter :
    (echoed (.estimation fast E) c a).m_arrivalTimeFirstProbeAfterSlowPath =
      if a.IsAfter fast c.m_lowestRoundSeq ∧ c.m_arrivalTimeFirstProbeAfterSlowPath = 0 then a.time
      else c.m_arrivalTimeFirstProbeAfterSlowPath := by
  rw [echoed, owdEchoed]
  by_cases probe : a.sock = fast
  · rw [if_pos probe, fastEchoed]
    exact if_congr ⟨fun h => ⟨⟨probe, h.1⟩, h.2⟩, fun h => ⟨h.1.2, h.2⟩⟩ rfl rfl
  · rw [if_neg probe, if_neg fun h => probe h.1.1]
    rfl

/-- The probes before the slow packet leave the time of the last of them. -/
theorem replay_lastBefore :
    (replay (.estimation fast E) arrivals c).m_arrivalTimeLastProbeBeforeSlowPath =
      (((arrivals.filter fun a => a.IsBefore fast c.m_lowestRoundSeq).getLast?).map
        Arrival.time).getD c.m_arrivalTimeLastProbeBeforeSlowPath := by
  induction arrivals using List.reverseRecOn with
  | nil => rfl
  | append_singleton arrivals a ih =>
      rw [replay_concat, echoed_lastBefore, replay_sameRound.low, List.filter_append]
      by_cases before : a.IsBefore fast c.m_lowestRoundSeq
      · rw [if_pos before, List.filter_cons_of_pos (by simpa using before), List.filter_nil,
          List.getLast?_concat]
        rfl
      · rw [if_neg before, List.filter_cons_of_neg (by simpa using before), List.filter_nil,
          List.append_nil, ih]

/-- The probes after the slow packet leave the time of the first of them, the
first that is not 0. -/
theorem replay_firstAfter (none : c.m_arrivalTimeFirstProbeAfterSlowPath = 0) :
    (replay (.estimation fast E) arrivals c).m_arrivalTimeFirstProbeAfterSlowPath =
      (((arrivals.filter fun a => a.IsAfter fast c.m_lowestRoundSeq).map Arrival.time).find?
        (· ≠ 0)).getD 0 := by
  induction arrivals using List.reverseRecOn with
  | nil => exact none
  | append_singleton arrivals a ih =>
      rw [replay_concat, echoed_firstAfter, replay_sameRound.low, ih, List.filter_append,
        List.map_append, List.find?_append]
      cases found : ((arrivals.filter fun a => a.IsAfter fast c.m_lowestRoundSeq).map
          Arrival.time).find? (· ≠ 0) with
      | some time =>
          have nonzero : time ≠ 0 := by simpa using List.find?_some found
          rw [if_neg (fun h => nonzero h.2)]
          rfl
      | none =>
          by_cases after : a.IsAfter fast c.m_lowestRoundSeq
          · rw [if_pos ⟨after, rfl⟩, List.filter_cons_of_pos (by simpa using after)]
            by_cases zero : a.time = 0 <;> simp [zero]
          · rw [if_neg (fun h => after h.1), List.filter_cons_of_neg (by simpa using after)]
            rfl

/-- The probe map holds what the echoes of the probes wrote, in order. -/
theorem replay_m_probes :
    (replay (.estimation fast E) arrivals c).m_probes =
      (arrivals.filter fun a => a.sock = fast).foldl
        (fun probes a => probes.set a.time (probeStats a.time a.seqTs)) c.m_probes := by
  induction arrivals using List.reverseRecOn with
  | nil => rfl
  | append_singleton arrivals a ih =>
      rw [replay_concat, echoed, owdEchoed, List.filter_append, List.foldl_append, ← ih]
      by_cases probe : a.sock = fast
      · rw [if_pos probe, List.filter_cons_of_pos (by simpa using probe)]
        rfl
      · rw [if_neg probe, List.filter_cons_of_neg (by simpa using probe)]
        rfl

/-- An entry of the probe map comes from the echo of a probe. -/
theorem mem_replay_m_probes {e : Int × PacketStats} (none : c.m_probes = .empty)
    (mem : e ∈ (replay (.estimation fast E) arrivals c).m_probes.entries) :
    ∃ a ∈ arrivals, a.sock = fast ∧ e = (a.time, probeStats a.time a.seqTs) := by
  rw [replay_m_probes, none] at mem
  rcases SortedMap.mem_foldl_set mem with old | ⟨a, probe, eq⟩
  · exact absurd old List.not_mem_nil
  · obtain ⟨memA, sock⟩ := List.mem_filter.mp probe
    exact ⟨a, memA, of_decide_eq_true sock, eq⟩

/-- The arrival time of a probe is a key of the map. -/
theorem find?_replay_m_probes (mem : a ∈ arrivals) (probe : a.sock = fast) :
    ((replay (.estimation fast E) arrivals c).m_probes.find? a.time).isSome := by
  rw [replay_m_probes]
  exact SortedMap.find?_foldl_set_isSome Arrival.time _
    (List.mem_filter.mpr ⟨mem, decide_eq_true probe⟩)

/-- The last entry of the map is that of the last probe. -/
theorem getLast?_replay_m_probes (fast : Socket) (E : Int) (none : c.m_probes = .empty)
    (sorted : arrivals.Pairwise fun a b => a.time ≤ b.time) :
    (replay (.estimation fast E) arrivals c).m_probes.entries.getLast? =
      (arrivals.filter fun a => a.sock = fast).getLast?.map fun a =>
        (a.time, probeStats a.time a.seqTs) := by
  rw [replay_m_probes, none]
  exact SortedMap.getLast?_foldl_set (sorted.sublist List.filter_sublist)

/-- A time that is not 0 is that of a probe before the slow packet. -/
theorem exists_lastBefore (none : c.m_arrivalTimeLastProbeBeforeSlowPath = 0)
    (ne : (replay (.estimation fast E) arrivals c).m_arrivalTimeLastProbeBeforeSlowPath ≠ 0) :
    ∃ a ∈ arrivals, a.IsBefore fast c.m_lowestRoundSeq ∧ a.time =
      (replay (.estimation fast E) arrivals c).m_arrivalTimeLastProbeBeforeSlowPath := by
  rw [replay_lastBefore, none] at ne ⊢
  cases last : (arrivals.filter fun a => a.IsBefore fast c.m_lowestRoundSeq).getLast? with
  | none => rw [last] at ne; exact absurd rfl ne
  | some a =>
      obtain ⟨mem, before⟩ := List.mem_filter.mp (List.mem_of_getLast? last)
      exact ⟨a, mem, of_decide_eq_true before, rfl⟩

/-- A time that is not 0 is that of a probe after the slow packet. -/
theorem exists_firstAfter (none : c.m_arrivalTimeFirstProbeAfterSlowPath = 0)
    (ne : (replay (.estimation fast E) arrivals c).m_arrivalTimeFirstProbeAfterSlowPath ≠ 0) :
    ∃ a ∈ arrivals, a.IsAfter fast c.m_lowestRoundSeq ∧ a.time =
      (replay (.estimation fast E) arrivals c).m_arrivalTimeFirstProbeAfterSlowPath := by
  rw [replay_firstAfter none] at ne ⊢
  cases first : ((arrivals.filter fun a => a.IsAfter fast c.m_lowestRoundSeq).map
      Arrival.time).find? (· ≠ 0) with
  | none => rw [first] at ne; exact absurd rfl ne
  | some time =>
      obtain ⟨a, found, rfl⟩ := List.mem_map.mp (List.mem_of_find?_eq_some first)
      obtain ⟨mem, after⟩ := List.mem_filter.mp found
      exact ⟨a, mem, of_decide_eq_true after, rfl⟩

/-- With arrivals at positive times, 0 says that there was no probe before. -/
theorem lastBefore_eq_zero_iff (fast : Socket) (E : Int)
    (none : c.m_arrivalTimeLastProbeBeforeSlowPath = 0)
    (positive : ∀ a ∈ arrivals, 0 < a.time) :
    (replay (.estimation fast E) arrivals c).m_arrivalTimeLastProbeBeforeSlowPath = 0 ↔
      ∀ a ∈ arrivals, ¬ a.IsBefore fast c.m_lowestRoundSeq := by
  rw [replay_lastBefore, none]
  cases last : (arrivals.filter fun a => a.IsBefore fast c.m_lowestRoundSeq).getLast? with
  | none =>
      rw [List.getLast?_eq_none_iff, List.filter_eq_nil_iff] at last
      exact iff_of_true rfl (by simpa using last)
  | some a =>
      obtain ⟨mem, before⟩ := List.mem_filter.mp (List.mem_of_getLast? last)
      have pos := positive a mem
      refine iff_of_false ?_ fun all => all a mem (of_decide_eq_true before)
      rw [Option.map_some, Option.getD_some]
      omega

/-- With arrivals at positive times, 0 says that there was no probe after. -/
theorem firstAfter_eq_zero_iff (fast : Socket) (E : Int)
    (none : c.m_arrivalTimeFirstProbeAfterSlowPath = 0)
    (positive : ∀ a ∈ arrivals, 0 < a.time) :
    (replay (.estimation fast E) arrivals c).m_arrivalTimeFirstProbeAfterSlowPath = 0 ↔
      ∀ a ∈ arrivals, ¬ a.IsAfter fast c.m_lowestRoundSeq := by
  rw [replay_firstAfter none]
  cases first : ((arrivals.filter fun a => a.IsAfter fast c.m_lowestRoundSeq).map
      Arrival.time).find? (· ≠ 0) with
  | none =>
      refine iff_of_true rfl fun a mem after => ?_
      rw [List.find?_eq_none] at first
      have zero := first a.time
        (List.mem_map_of_mem (List.mem_filter.mpr ⟨mem, by simpa using after⟩))
      have pos := positive a mem
      simp only [ne_eq, decide_not, Bool.not_eq_eq_eq_not, Bool.not_true, decide_eq_false_iff_not,
        not_not] at zero
      omega
  | some time =>
      obtain ⟨a, found, rfl⟩ := List.mem_map.mp (List.mem_of_find?_eq_some first)
      obtain ⟨mem, after⟩ := List.mem_filter.mp found
      have pos := positive a mem
      refine iff_of_false ?_ fun all => all a mem (of_decide_eq_true after)
      rw [Option.getD_some]
      omega

/-- The one echo on the slow path leaves its times and its measurements. -/
theorem replay_slow (mem : a ∈ arrivals) (slow : a.sock = fast.other) (only : OnlyOn arrivals a) :
    (replay (.estimation fast E) arrivals c).m_slowPacket = (a.time, a.seqTs.receiverTs) ∧
      Measures (replay (.estimation fast E) arrivals c).m_currentRoundStats fast.other a := by
  induction arrivals using List.reverseRecOn with
  | nil => exact absurd mem List.not_mem_nil
  | append_singleton arrivals x ih =>
      rw [replay_concat, echoed, owdEchoed]
      by_cases probe : x.sock = fast
      · have old : a ∈ arrivals := by
          rcases List.mem_append.mp mem with old | new
          · exact old
          · rw [List.mem_singleton.mp new, probe] at slow
            exact absurd slow fast.ne_other
        rw [if_pos probe]
        exact ih old only.left
      · have same : x.sock = a.sock := by
          rw [slow]
          exact (x.sock.eq_or_eq_other fast).resolve_left probe
        obtain rfl := only x (by simp) same
        rw [if_neg probe]
        exact ⟨rfl, measured_measures⟩

end Estimation

end

end OwdPacing
