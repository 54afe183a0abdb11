import OwdPacing.ProbeWindow

/-!
# The probes around the slow packet

The client knows the two probes between which the server processed the slow packet
by the times at which their echoes arrived, and looks up when they were sent in a
map keyed by these times.  When the paths keep the order of their packets it finds
the right two, unless two echoes arrived in the same tick.
-/

namespace OwdPacing

open Container OWdClientBasic Round Runs

/-! ## What the client keeps of the probes -/

section Kept

variable {fast : Socket} {E : Int} {arrivals : List Arrival} {a : Arrival} {c : OWdClientBasic}

/-- The time kept for the probes before the slow packet is that of the latest. -/
theorem lastBefore_latest (E : Int) (sorted : arrivals.Pairwise fun a b => a.time ≤ b.time)
    (mem : a ∈ arrivals) (before : a.IsBefore fast c.m_lowestRoundSeq) :
    ∃ x ∈ arrivals, x.IsBefore fast c.m_lowestRoundSeq ∧ a.time ≤ x.time ∧
      (replay (.estimation fast E) arrivals c).m_arrivalTimeLastProbeBeforeSlowPath = x.time := by
  have found : a ∈ arrivals.filter fun a => a.IsBefore fast c.m_lowestRoundSeq :=
    List.mem_filter.mpr ⟨mem, decide_eq_true before⟩
  rw [replay_lastBefore]
  cases last : (arrivals.filter fun a => a.IsBefore fast c.m_lowestRoundSeq).getLast? with
  | none =>
      rw [List.getLast?_eq_none_iff.mp last] at found
      cases found
  | some x =>
      obtain ⟨memX, beforeX⟩ := List.mem_filter.mp (List.mem_of_getLast? last)
      refine ⟨x, memX, of_decide_eq_true beforeX, ?_, rfl⟩
      exact le_of_getLast? (sorted.sublist List.filter_sublist) last found

/-- The time kept for the probes after the slow packet is that of the earliest. -/
theorem firstAfter_earliest (E : Int) (none : c.m_arrivalTimeFirstProbeAfterSlowPath = 0)
    (sorted : arrivals.Pairwise fun a b => a.time ≤ b.time) (positive : ∀ a ∈ arrivals, 0 < a.time)
    (mem : a ∈ arrivals) (after : a.IsAfter fast c.m_lowestRoundSeq) :
    ∃ x ∈ arrivals, x.IsAfter fast c.m_lowestRoundSeq ∧ x.time ≤ a.time ∧
      (replay (.estimation fast E) arrivals c).m_arrivalTimeFirstProbeAfterSlowPath = x.time := by
  have found : a ∈ arrivals.filter fun a => a.IsAfter fast c.m_lowestRoundSeq :=
    List.mem_filter.mpr ⟨mem, decide_eq_true after⟩
  rw [replay_firstAfter none]
  cases kept : arrivals.filter fun a => a.IsAfter fast c.m_lowestRoundSeq with
  | nil =>
      rw [kept] at found
      cases found
  | cons x later =>
      have head : x ∈ x :: later := List.mem_cons_self
      rw [← kept] at head
      obtain ⟨memX, afterX⟩ := List.mem_filter.mp head
      have nonzero : x.time ≠ 0 := (positive x memX).ne'
      refine ⟨x, memX, of_decide_eq_true afterX, ?_, ?_⟩
      · have rest := sorted.sublist (List.filter_sublist (p := fun a =>
          a.IsAfter fast c.m_lowestRoundSeq))
        rw [kept] at rest found
        cases List.mem_cons.mp found with
        | inl same => rw [same]
        | inr later => exact (List.pairwise_cons.mp rest).1 a later
      · rw [List.map_cons, List.find?_cons_of_pos (by simpa using nonzero)]
        rfl

end Kept

/-! ## A round whose probes come back in order -/

/-- An estimation round that is over, in which no echo of a probe was earlier than
that of a probe before it. -/
structure OrderedRound (cfg : Config) (r : Nat) (fast : Socket) (E start : Int)
    (c : OWdClientBasic) (log : List Logged) (arrivals : List Arrival) : Prop where
  started : Started cfg ⟨r, .estimation fast E, start⟩ c
  estimation : EstimationStarted cfg fast E start c
  echoes : AllEchoes cfg ⟨r, .estimation fast E, start⟩ log arrivals
  received : arrivals.Pairwise fun a b => a.time ≤ b.time
  positive : ∀ a ∈ arrivals, 0 < a.time
  ordered : ∀ a ∈ arrivals, ∀ b ∈ arrivals, ∀ i j, i ≤ j →
    ProbeEcho cfg r fast E start (log.map Logged.tag) i a →
    ProbeEcho cfg r fast E start (log.map Logged.tag) j b → a.time ≤ b.time

namespace OrderedRound

variable {cfg : Config} {r i : Nat} {fast : Socket} {E start : Int} {log : List Logged}
  {arrivals : List Arrival} {a : Arrival} {c : OWdClientBasic}

/-- When the server processed the probes up to `i` before the slow packet, the time
kept of the probes before it is that of probe `i`. -/
theorem lastBefore_eq (h : OrderedRound cfg r fast E start c log arrivals) (lt : i < cfg.probes)
    (upTo : ∀ j < cfg.probes, Before (log.map Logged.tag) (probeTag r j) (slowTag r) ↔ j ≤ i) :
    ∃ a ∈ arrivals, ProbeEcho cfg r fast E start (log.map Logged.tag) i a ∧
      (replay (.estimation fast E) arrivals c).m_arrivalTimeLastProbeBeforeSlowPath = a.time := by
  have low : c.m_lowestRoundSeq = lowSeq r := h.started.low
  obtain ⟨a, mem, probe⟩ := h.echoes.exists_probe lt
  have before := probe.isBefore_iff.mpr ((upTo i lt).mpr le_rfl)
  obtain ⟨x, memX, beforeX, le, eq⟩ := lastBefore_latest (c := c) E h.received mem (low ▸ before)
  obtain ⟨j, probeX⟩ := h.echoes.probe memX beforeX.1
  -- it cannot be a later one, and an earlier one did not arrive later
  have earlier : j ≤ i := (upTo j probeX.index).mp (probeX.isBefore_iff.mp (low ▸ beforeX))
  have order := h.ordered x memX a mem j i earlier probeX probe
  exact ⟨a, mem, probe, by omega⟩

/-- And when it processed the others after it, that of the probes after it is the
time of probe `i + 1`. -/
theorem firstAfter_eq (h : OrderedRound cfg r fast E start c log arrivals)
    (lt : i + 1 < cfg.probes)
    (upTo : ∀ j < cfg.probes, Before (log.map Logged.tag) (probeTag r j) (slowTag r) ↔ j ≤ i) :
    ∃ a ∈ arrivals, ProbeEcho cfg r fast E start (log.map Logged.tag) (i + 1) a ∧
      (replay (.estimation fast E) arrivals c).m_arrivalTimeFirstProbeAfterSlowPath = a.time := by
  have low : c.m_lowestRoundSeq = lowSeq r := h.started.low
  obtain ⟨a, mem, probe⟩ := h.echoes.exists_probe lt
  have notBefore : ¬ Before (log.map Logged.tag) (probeTag r (i + 1)) (slowTag r) := by
    rw [upTo (i + 1) lt]
    exact Nat.not_succ_le_self i
  obtain ⟨x, memX, afterX, le, eq⟩ := firstAfter_earliest (c := c) E h.estimation.noneAfter
    h.received h.positive mem (low ▸ probe.isAfter_iff.mpr notBefore)
  obtain ⟨j, probeX⟩ := h.echoes.probe memX afterX.1
  have later : i + 1 ≤ j := by
    have notBeforeX := probeX.isAfter_iff.mp (low ▸ afterX)
    rw [upTo j probeX.index] at notBeforeX
    omega
  have order := h.ordered a mem x memX (i + 1) j later probe probeX
  exact ⟨a, mem, probe, by omega⟩

/-- The round is framed. -/
theorem slowPacketPosition_eq (h : OrderedRound cfg r fast E start c log arrivals)
    (lt : i + 1 < cfg.probes)
    (upTo : ∀ j < cfg.probes, Before (log.map Logged.tag) (probeTag r j) (slowTag r) ↔ j ≤ i) :
    (replay (.estimation fast E) arrivals c).slowPacketPosition = .betweenProbes := by
  have notBefore : ¬ AllBefore cfg (log.map Logged.tag) r := fun all =>
    Nat.not_succ_le_self i ((upTo (i + 1) lt).mp (all (i + 1) lt))
  have notAfter : ¬ AllAfter cfg (log.map Logged.tag) r := fun all =>
    all i (Nat.lt_of_succ_lt lt) ((upTo i (Nat.lt_of_succ_lt lt)).mpr le_rfl)
  rw [OwdPacing.slowPacketPosition_eq h.started h.estimation h.echoes h.positive, servedPosition,
    if_neg notBefore, if_neg notAfter]

end OrderedRound

/-! ## The map of the probes -/

section Probes

variable {cfg : Config} {r i : Nat} {fast : Socket} {E start : Int} {log : List Logged}
  {arrivals : List Arrival} {a : Arrival} {c : OWdClientBasic}

/-- The echoes on the fast path are those of the probes. -/
theorem Round.Echoes.sock_eq_fast_iff
    (h : Echoes cfg ⟨r, .estimation fast E, start⟩ log arrivals) (mem : a ∈ arrivals) :
    a.sock = fast ↔ a.tag ≠ slowTag r := by
  rcases h.slow_or_probe mem with slow | ⟨i, probe⟩
  · exact iff_of_false (slow.sock ▸ fast.other_ne) (not_not_intro slow.tag)
  · refine iff_of_true probe.sock fun slow => ?_
    exact absurd (probe.tag.symm.trans slow) (probeTag_ne_slowTag r i)

/-- There is one echo for each probe. -/
theorem Round.AllEchoes.probes_length
    (h : AllEchoes cfg ⟨r, .estimation fast E, start⟩ log arrivals) :
    (arrivals.filter fun a => a.sock = fast).length = cfg.probes := by
  have nodup : ((arrivals.filter fun a => a.sock = fast).map Arrival.tag).Nodup :=
    h.nodup.sublist (List.filter_sublist.map _)
  have planned : ((List.range cfg.probes).map (probeTag r)).Nodup := by
    exact List.nodup_range.map fun i j same => eq_of_probeTag_eq same
  have same : ((arrivals.filter fun a => a.sock = fast).map Arrival.tag).Perm
      ((List.range cfg.probes).map (probeTag r)) := by
    refine (List.perm_ext_iff_of_nodup nodup planned).mpr fun tag => ?_
    rw [List.mem_map, List.mem_map]
    constructor
    · rintro ⟨a, found, rfl⟩
      obtain ⟨mem, sock⟩ := List.mem_filter.mp found
      obtain ⟨i, probe⟩ := h.probe mem (of_decide_eq_true sock)
      exact ⟨i, List.mem_range.mpr probe.index, probe.tag.symm⟩
    · rintro ⟨i, lt, rfl⟩
      obtain ⟨a, mem, probe⟩ := h.exists_probe (List.mem_range.mp lt)
      exact ⟨a, List.mem_filter.mpr ⟨mem, decide_eq_true probe.sock⟩, probe.tag⟩
  have size := same.length_eq
  rwa [List.length_map, List.length_map, List.length_range] at size

/-- No two echoes of probes arrived in the same tick. -/
def Apart (fast : Socket) (arrivals : List Arrival) : Prop :=
  ((arrivals.filter fun a => a.sock = fast).map Arrival.time).Nodup

/-- The map has an entry for each probe exactly when the echoes arrived in different ticks. -/
theorem Round.AllEchoes.entries_length_iff
    (h : AllEchoes cfg ⟨r, .estimation fast E, start⟩ log arrivals)
    (estimation : EstimationStarted cfg fast E start c) :
    (replay (.estimation fast E) arrivals c).m_probes.entries.length = cfg.probes ↔
      Apart fast arrivals := by
  rw [replay_m_probes, estimation.noProbes, ← h.probes_length]
  exact SortedMap.length_foldl_set_iff Arrival.time _ _

/-- Then a look-up finds the probe that arrived at the time. -/
theorem Apart.find?_eq (h : Apart fast arrivals)
    (estimation : EstimationStarted cfg fast E start c) (mem : a ∈ arrivals)
    (probe : a.sock = fast) :
    (replay (.estimation fast E) arrivals c).m_probes.find? a.time =
      some (probeStats a.time a.seqTs) := by
  rw [replay_m_probes, estimation.noProbes]
  exact SortedMap.find?_foldl_set _ h (List.mem_filter.mpr ⟨mem, decide_eq_true probe⟩)

theorem Apart.departureAt_eq (h : Apart fast arrivals)
    (estimation : EstimationStarted cfg fast E start c) (mem : a ∈ arrivals)
    (probe : ProbeEcho cfg r fast E start (log.map Logged.tag) i a) :
    (replay (.estimation fast E) arrivals c).departureAt a.time =
      start + cfg.probeOffset E i := by
  rw [departureAt, h.find?_eq estimation mem probe.sock, Option.getD_some]
  exact probe.receiverTs

end Probes

namespace OrderedRound

variable {cfg : Config} {r i : Nat} {fast : Socket} {E start : Int} {log : List Logged}
  {arrivals : List Arrival} {a : Arrival} {c : OWdClientBasic}

/-- The times `FinishRound` looks up are those of probes `i` and `i + 1`, and the
estimate lies between their delays. -/
theorem framing_of_apart (h : OrderedRound cfg r fast E start c log arrivals)
    (apart : Apart fast arrivals) (lt : i + 1 < cfg.probes)
    (upTo : ∀ j < cfg.probes, Before (log.map Logged.tag) (probeTag r j) (slowTag r) ↔ j ≤ i) :
    (replay (.estimation fast E) arrivals c).departureAt
        (replay (.estimation fast E) arrivals c).m_arrivalTimeLastProbeBeforeSlowPath =
          start + cfg.probeOffset E i ∧
      (replay (.estimation fast E) arrivals c).departureAt
        (replay (.estimation fast E) arrivals c).m_arrivalTimeFirstProbeAfterSlowPath =
          start + cfg.probeOffset E (i + 1) ∧
      cfg.probeOffset E i ≤ nextEstimate cfg (replay (.estimation fast E) arrivals c) ∧
      nextEstimate cfg (replay (.estimation fast E) arrivals c) ≤
        cfg.probeOffset E (i + 1) := by
  obtain ⟨a, memA, probeA, last⟩ := h.lastBefore_eq (Nat.lt_of_succ_lt lt) upTo
  obtain ⟨b, memB, probeB, first⟩ := h.firstAfter_eq lt upTo
  have departA := apart.departureAt_eq h.estimation memA probeA
  have departB := apart.departureAt_eq h.estimation memB probeB
  rw [← last] at departA
  rw [← first] at departB
  have between := framing_between cfg E i (i + 1)
  have order : cfg.probeOffset E i ≤ cfg.probeOffset E (i + 1) :=
    Config.probeOffset_le (Nat.le_succ i)
  rw [min_eq_left order, max_eq_right order, ← framedEstimate_eq h.echoes departA departB]
    at between
  rw [nextEstimate, h.slowPacketPosition_eq lt upTo]
  exact ⟨departA, departB, between⟩

end OrderedRound

/-! ## Runs -/

namespace Sys

variable {cfg : Config} {s s' s₀ : Sys} {c : OWdClientBasic} {e : Event} {r j : Nat}
  {fast : Socket} {E begin : Int} {stats : RoundStats}

/-- No packet of round `r` overtook another one on its path, in either direction. -/
def InOrder (s : Sys) (r : Nat) : Prop :=
  ∀ a ∈ s.receivedIn r, ∀ b ∈ s.receivedIn r, a.sock = b.sock →
    (a.sentAt < b.sentAt → s.ServedBefore a.tag b.tag) ∧
    (s.ServedBefore a.tag b.tag → Before (s.receivedLog.map Arrival.tag) a.tag b.tag)

instance (s : Sys) (r : Nat) : Decidable (s.InOrder r) :=
  inferInstanceAs (Decidable (∀ a ∈ s.receivedIn r, _))

/-- No two echoes of probes of round `r` reached the client in the same tick. -/
def ProbesApart (s : Sys) (r : Nat) : Prop :=
  ∀ a ∈ s.receivedIn r, ∀ b ∈ s.receivedIn r, a.tag ≠ slowTag r → b.tag ≠ slowTag r →
    a.time = b.time → a.tag = b.tag

instance (s : Sys) (r : Nat) : Decidable (s.ProbesApart r) :=
  inferInstanceAs (Decidable (∀ a ∈ s.receivedIn r, _))

theorem RoundOver.probesApart_iff (h : RoundOver cfg ⟨r, .estimation fast E, begin⟩ c s stats) :
    s.ProbesApart r ↔ Apart fast (s.receivedIn r) := by
  have nodup : ((s.receivedIn r).filter fun a => a.sock = fast).Nodup :=
    h.echoes.nodup.of_map.sublist List.filter_sublist
  have echoes := h.echoes.toEchoes
  rw [Apart, List.nodup_map_iff_inj_on nodup]
  constructor
  · intro apart a foundA b foundB same
    obtain ⟨memA, sockA⟩ := List.mem_filter.mp foundA
    obtain ⟨memB, sockB⟩ := List.mem_filter.mp foundB
    have probeA := (echoes.sock_eq_fast_iff memA).mp (of_decide_eq_true sockA)
    have probeB := (echoes.sock_eq_fast_iff memB).mp (of_decide_eq_true sockB)
    exact echoes.eq_of_tag memB memA (apart a memA b memB probeA probeB same)
  · intro inj a memA b memB probeA probeB same
    have sockA := (echoes.sock_eq_fast_iff memA).mpr probeA
    have sockB := (echoes.sock_eq_fast_iff memB).mpr probeB
    exact congrArg Arrival.tag (inj a (List.mem_filter.mpr ⟨memA, decide_eq_true sockA⟩) b
      (List.mem_filter.mpr ⟨memB, decide_eq_true sockB⟩) same)

/-- A round that is over and whose packets were not overtaken is an ordered one. -/
theorem RoundOver.orderedRound (ended : RoundOver cfg ⟨r, .estimation fast E, begin⟩ c s stats)
    (adm : cfg.Admissible) (start : Start cfg s₀) (reach : Reach (next cfg) Simulated s₀ s)
    (inOrder : s.InOrder r) :
    OrderedRound cfg r fast E begin c s.servedLog (s.receivedIn r) := by
  have timely : Reach (next cfg) Timely s₀ s := reach.mono fun _ _ guard => guard.1
  have positive : Reach (next cfg) ArrivalsPositive s₀ s := reach.mono fun _ _ guard => guard.2
  have onTime := start.onTime adm timely
  have received := (start.clocked adm timely).received.sorted
  exact {
    started := ended.started
    estimation := ended.kind
    echoes := ended.echoes
    received := received.sublist List.filter_sublist
    positive := fun a mem =>
      start.arrivals_positive adm positive a (List.mem_of_mem_filter mem)
    ordered := by
      intro a memA b memB i j le probeA probeB
      rcases Nat.lt_or_eq_of_le le with earlier | rfl
      · have sentA := (onTime.arrivals a (List.mem_of_mem_filter memA)).1
        have sentB := (onTime.arrivals b (List.mem_of_mem_filter memB)).1
        rw [probeA.receiverTs] at sentA
        rw [probeB.receiverTs] at sentB
        have offset : cfg.probeOffset E i < cfg.probeOffset E j := Config.probeOffset_lt earlier
        obtain ⟨forward, reverse⟩ :=
          inOrder a memA b memB (probeA.sock.trans probeB.sock.symm)
        exact time_le_of_before received (start.reach adm reach).receivedNodup
          (List.mem_of_mem_filter memA) (List.mem_of_mem_filter memB)
          (reverse (forward (by omega)))
      · have same := probeB.tag.trans probeA.tag.symm
        exact (congrArg Arrival.time (ended.echoes.eq_of_tag memA memB same)).ge }

/-- `FinishRound`, which runs on `c` and leads from `s` to `s'`, finds every probe of
round `r` in the map, takes the departure times of probes `j` and `j + 1` for those of
the probes around the slow packet, and records an estimate between their delays. -/
structure FramesTruly (cfg : Config) (s s' : Sys) (c : OWdClientBasic) (r j : Nat) : Prop where
  entries : c.m_probes.entries.length = cfg.probes
  probes : ∀ i < cfg.probes, ∃ time stats, c.m_probes.find? time = some stats ∧
    ⟨probeTag r i, stats.DepartureTime⟩ ∈ s.sentLog
  before : ⟨probeTag r j, c.departureAt c.m_arrivalTimeLastProbeBeforeSlowPath⟩ ∈ s.sentLog
  after : ⟨probeTag r (j + 1), c.departureAt c.m_arrivalTimeFirstProbeAfterSlowPath⟩ ∈ s.sentLog
  estimate : ∃ stats low high, s'.client.m_owdRoundStats = s.client.m_owdRoundStats ++ [stats] ∧
    (getProbeDelay cfg (UInt8.ofNat j)).run c = .ok low c ∧
    (getProbeDelay cfg (UInt8.ofNat (j + 1))).run c = .ok high c ∧
    low ≤ stats.EstimatedForwardDeltaOWD ∧ stats.EstimatedForwardDeltaOWD ≤ high

/-- **When framing uses the probes that framed the slow packet.**  On paths that keep
the order of their packets, when the server processed exactly the probes `0` to `j`
before the slow packet, `FinishRound` finds every probe in the map and uses probes `j`
and `j + 1`, with an estimate between their delays, exactly when the echoes of the
probes reached the client in different ticks. -/
theorem framing_iff (adm : cfg.Admissible) (start : Start cfg s₀)
    (reach : Reach (next cfg) Simulated s₀ s) (simulated : s.Simulated e)
    (finishes : s.Finishes e c) (step : s.next cfg e = some s')
    (inOrder : s'.InOrder s.client.roundsDone) (lt : j + 1 < cfg.probes)
    (upTo : ∀ i < cfg.probes, s'.ServedBefore (probeTag s.client.roundsDone i)
      (slowTag s.client.roundsDone) ↔ i ≤ j) :
    FramesTruly cfg s s' c s.client.roundsDone j ↔ s'.ProbesApart s.client.roundsDone := by
  obtain ⟨fast, E, begin, c₀, p, seqTs, sentAt, servedAt, get, stage, run, taken, closes⟩ :=
    (start.reach adm reach).finishes adm finishes
  obtain rfl := next_toClient get stage step
  have timely : Reach (next cfg) Timely s₀ s := reach.mono fun _ _ guard => guard.1
  obtain ⟨stats, stored, ended, sent⟩ :=
    finishes_window adm start timely get stage run taken closes
  have round := ended.orderedRound adm start (reach.step simulated step) inOrder
  have replayed : replay (.estimation fast E)
      ((s.recv cfg e.time e.packet p seqTs sentAt servedAt).receivedIn s.client.roundsDone) c₀ =
        c := taken.replayed_of_closes closes
  rw [ended.probesApart_iff]
  constructor
  · intro truly
    rw [← ended.echoes.entries_length_iff round.estimation, replayed]
    exact truly.entries
  · intro apart
    have entries := (ended.echoes.entries_length_iff round.estimation).mpr apart
    obtain ⟨before, after, low, high⟩ := round.framing_of_apart apart lt upTo
    rw [replayed] at entries before after low high
    have first : c.m_timeOfFirstSentPacket = begin :=
      taken.sameRound.start.trans round.estimation.start
    have estimating := taken.sameRound.estimating round.estimation.estimating
    have previous : c.previousEstimate = E :=
      taken.sameRound.previousEstimate.trans round.estimation.previous
    have delay : ∀ i < cfg.probes,
        (getProbeDelay cfg (UInt8.ofNat i)).run c = .ok (cfg.probeOffset E i) c := by
      intro i lt
      rw [run_getProbeDelay_ofNat cfg estimating.mode (fun _ => estimating.sampled)
        estimating.estimate adm.probes_le lt, previous]
    have record : stats.EstimatedForwardDeltaOWD = nextEstimate cfg c := by
      rw [ended.record, ← finishedStats_estimate cfg fast, ← replayed]
      rfl
    exact {
      entries := entries
      probes := by
        intro i ltI
        obtain ⟨a, mem, probe⟩ := round.echoes.exists_probe ltI
        have found := apart.find?_eq round.estimation mem probe.sock
        rw [replayed] at found
        exact ⟨a.time, _, found, (sent i ltI _).mpr (first.symm ▸ probe.receiverTs)⟩
      before := (sent j (Nat.lt_of_succ_lt lt) _).mpr (first.symm ▸ before)
      after := (sent (j + 1) lt _).mpr (first.symm ▸ after)
      estimate := ⟨stats, _, _, stored, delay j (Nat.lt_of_succ_lt lt), delay (j + 1) lt,
        record ▸ low, record ▸ high⟩ }

/-- In the framed round the probes come back in different ticks. -/
theorem framing_iff_framed : ∃ s s' e c, Reach (next .nanoseconds) Simulated (boot 0) s ∧
    s.Finishes e c ∧ s.next .nanoseconds e = some s' ∧
    FramesTruly .nanoseconds s s' c s.client.roundsDone 1 := by
  have reach : Reach (next .nanoseconds) Simulated (boot 0)
      (final (next .nanoseconds) framedRound (boot 0)) :=
    .final (by decide +kernel) (by decide +kernel)
  have step := next_eq_final (next .nanoseconds)
    (final (next .nanoseconds) framedRound (boot 0)) framedRoundEnd (by decide +kernel)
  have truly := (framing_iff (j := 1) Config.nanoseconds_admissible (.boot 0) reach
    (by decide +kernel) framedRound_finishes step (by decide +kernel) (by decide)
    (by decide +kernel)).mpr (by decide +kernel)
  exact ⟨_, _, _, _, reach, framedRound_finishes, step, truly⟩

/-- A run up to the last echo of the first estimation round, in which the echoes of
the three probes reach the client in the same tick. -/
def bunchedRound : List Event :=
  socketOneFirst ++ [⟨40, 3⟩, ⟨50, 3⟩, ⟨60, 2⟩, ⟨70, 2⟩, ⟨2000040, 4⟩, ⟨2000050, 4⟩,
    ⟨4000040, 5⟩, ⟨4000050, 5⟩, ⟨5000000, 3⟩, ⟨5000000, 4⟩]

theorem bunchedRound_finishes :
    (final (next .nanoseconds) bunchedRound (boot 0)).Finishes ⟨5000000, 5⟩
      (owdEchoed 1 5000000 1 ⟨4, 4000050, 4000040⟩
        (final (next .nanoseconds) bunchedRound (boot 0)).client.decrement) := by
  have fastIsOne : (final (next .nanoseconds) bunchedRound
      (boot 0)).client.decrement.m_forwardFastSubflow = ((1 : Socket) : Nat) := by decide +kernel
  refine ⟨by decide +kernel, by decide +kernel, framedRoundLast, _, _, _, by decide +kernel, rfl,
    run_recordOwdEcho fastIsOne _ _, by decide +kernel⟩

/-- The slow packet came after probe 0 and before probe 1, which left at 0 ms and
2 ms, and the estimate is 4 ms. -/
theorem framing_bunched : ∃ s s' e c, Reach (next .nanoseconds) Simulated (boot 0) s ∧
    s.Simulated e ∧ s.Finishes e c ∧ s.next .nanoseconds e = some s' ∧
    s'.InOrder s.client.roundsDone ∧
    (∀ i < Config.nanoseconds.probes, s'.ServedBefore (probeTag s.client.roundsDone i)
      (slowTag s.client.roundsDone) ↔ i ≤ 0) ∧
    c.m_probes.entries.length = 1 ∧
    s'.client.m_owdRoundStats.map RoundStats.EstimatedForwardDeltaOWD = [4000000] ∧
    ¬ FramesTruly .nanoseconds s s' c s.client.roundsDone 0 := by
  have reach : Reach (next .nanoseconds) Simulated (boot 0)
      (final (next .nanoseconds) bunchedRound (boot 0)) :=
    .final (by decide +kernel) (by decide +kernel)
  have step := next_eq_final (next .nanoseconds)
    (final (next .nanoseconds) bunchedRound (boot 0)) ⟨5000000, 5⟩ (by decide +kernel)
  have one : (owdEchoed 1 5000000 1 ⟨4, 4000050, 4000040⟩
      (final (next .nanoseconds) bunchedRound (boot 0)).client.decrement).m_probes.entries.length =
        1 := by decide +kernel
  refine ⟨_, _, _, _, reach, by decide +kernel, bunchedRound_finishes, step, by decide +kernel,
    by decide +kernel, one, by decide +kernel, fun truly => ?_⟩
  exact absurd (one.symm.trans truly.entries) (by decide)

end Sys

end OwdPacing
