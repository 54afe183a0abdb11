import OwdPacing.Sampling

/-!
# OWD estimation rounds

What the client has learnt when the echoes of an estimation round are in: which
probes the server processed before the slow packet, and an estimate that lies
between the delays of the first and the last probe.
-/

namespace OwdPacing

open Container OWdClientBasic Round

/-- What holds at the start of an estimation round. -/
structure EstimationStarted (cfg : Config) (fast : Socket) (E start : Int) (c : OWdClientBasic) :
    Prop where
  estimating : c.Estimating
  more : c.m_owdRoundStats.length < cfg.owdMaxRounds.toNat
  allSampled : c.m_rttRoundStats.length = cfg.sampleRTTmaxRounds.toNat
  chosen : c.m_forwardFastSubflow = (fast : Nat)
  /-- RTT sampling has found a fast subflow. -/
  found : 0 ≤ (back c.m_rttRoundStats).ForwardFastSubflow
  previous : c.previousEstimate = E
  start : c.m_timeOfFirstSentPacket = start
  noProbes : c.m_probes = .empty
  noneBefore : c.m_arrivalTimeLastProbeBeforeSlowPath = 0
  noneAfter : c.m_arrivalTimeFirstProbeAfterSlowPath = 0
  fresh : c.m_currentRoundStats = .new

/-- The slow packet of a round, and its probe `i`. -/
def slowTag (r : Nat) : PacketTag := ⟨r, 0⟩

def probeTag (r i : Nat) : PacketTag := ⟨r, i + 1⟩

theorem probeTag_ne_slowTag (r i : Nat) : probeTag r i ≠ slowTag r := by
  intro same
  cases congrArg PacketTag.index same

theorem eq_of_probeTag_eq {r i j : Nat} (same : probeTag r i = probeTag r j) : i = j :=
  Nat.succ.inj (congrArg PacketTag.index same)

variable {cfg : Config} {r : Nat} {fast : Socket} {E start : Int} {log : List Logged}
  {arrivals : List Arrival} {c : OWdClientBasic} {a : Arrival}

/-! ## The echoes of the slow packet and the probes -/

/-- The echo of the slow packet. -/
structure SlowEcho (r : Nat) (fast : Socket) (start : Int) (a : Arrival) : Prop where
  tag : a.tag = slowTag r
  sock : a.sock = fast.other
  receiverTs : a.seqTs.receiverTs = start
  senderTs : a.seqTs.senderTs = a.servedAt

/-- The echo of probe `i`. -/
structure ProbeEcho (cfg : Config) (r : Nat) (fast : Socket) (E start : Int)
    (served : List PacketTag) (i : Nat) (a : Arrival) : Prop where
  index : i < cfg.probes
  tag : a.tag = probeTag r i
  sock : a.sock = fast
  receiverTs : a.seqTs.receiverTs = start + cfg.probeOffset E i
  senderTs : a.seqTs.senderTs = a.servedAt
  seq : a.seqTs.seq =
    if Before served (probeTag r i) (slowTag r) then lowSeq r else lowSeq r + 1

theorem Round.Echoes.slow_or_probe (h : Echoes cfg ⟨r, .estimation fast E, start⟩ log arrivals)
    (mem : a ∈ arrivals) :
    SlowEcho r fast start a ∨
      ∃ i, ProbeEcho cfg r fast E start (log.map Logged.tag) i a := by
  obtain ⟨call, planned, tag, sock, echo⟩ := h.fromPlan a mem
  rcases mem_plan_estimation.mp planned with rfl | ⟨i, lt, rfl⟩
  · exact .inl ⟨tag, sock, echo.receiverTs, echo.senderTs⟩
  · refine .inr ⟨i, lt, tag, sock, echo.receiverTs, echo.senderTs, ?_⟩
    rw [echo.seq, echoSeq, if_neg (by simp [high, Round.tag])]
    rfl

/-- Every echo on the fast path is that of a probe. -/
theorem Round.Echoes.probe (h : Echoes cfg ⟨r, .estimation fast E, start⟩ log arrivals)
    (mem : a ∈ arrivals) (probe : a.sock = fast) :
    ∃ i, ProbeEcho cfg r fast E start (log.map Logged.tag) i a := by
  rcases h.slow_or_probe mem with slow | probe
  · exact absurd (probe.symm.trans slow.sock) fast.ne_other
  · exact probe

theorem Round.AllEchoes.exists_slow
    (h : AllEchoes cfg ⟨r, .estimation fast E, start⟩ log arrivals) :
    ∃ a ∈ arrivals, SlowEcho r fast start a := by
  obtain ⟨a, mem, tag⟩ := h.complete _ (mem_plan_estimation.mpr (.inl rfl))
  refine ⟨a, mem, ?_⟩
  rcases h.slow_or_probe mem with slow | ⟨i, probe⟩
  · exact slow
  · rw [probe.tag] at tag
    exact absurd tag (probeTag_ne_slowTag r i)

theorem Round.AllEchoes.exists_probe
    (h : AllEchoes cfg ⟨r, .estimation fast E, start⟩ log arrivals) {i : Nat}
    (lt : i < cfg.probes) :
    ∃ a ∈ arrivals, ProbeEcho cfg r fast E start (log.map Logged.tag) i a := by
  obtain ⟨a, mem, tag⟩ := h.complete _ (mem_plan_estimation.mpr (.inr ⟨i, lt, rfl⟩))
  refine ⟨a, mem, ?_⟩
  rcases h.slow_or_probe mem with slow | ⟨j, probe⟩
  · rw [slow.tag] at tag
    exact absurd tag.symm (probeTag_ne_slowTag r i)
  · obtain rfl : j = i := eq_of_probeTag_eq (probe.tag.symm.trans tag)
    exact probe

theorem Round.Echoes.slow_onlyOn (h : Echoes cfg ⟨r, .estimation fast E, start⟩ log arrivals)
    (mem : a ∈ arrivals) (slow : SlowEcho r fast start a) : OnlyOn arrivals a := by
  intro x memX same
  refine h.eq_of_tag mem memX ?_
  rcases h.slow_or_probe memX with slowX | ⟨i, probe⟩
  · rw [slowX.tag, slow.tag]
  · rw [probe.sock, slow.sock] at same
    exact absurd same fast.ne_other

/-! ## Before or after the slow packet -/

theorem ProbeEcho.isBefore_iff {served : List PacketTag} {i : Nat}
    (probe : ProbeEcho cfg r fast E start served i a) :
    a.IsBefore fast (lowSeq r) ↔ Before served (probeTag r i) (slowTag r) := by
  rw [Arrival.IsBefore, probe.seq]
  split_ifs with before
  · exact iff_of_true ⟨probe.sock, rfl⟩ before
  · exact iff_of_false (fun h => lowSeq_add_one_ne r h.2) before

theorem ProbeEcho.isAfter_iff {served : List PacketTag} {i : Nat}
    (probe : ProbeEcho cfg r fast E start served i a) :
    a.IsAfter fast (lowSeq r) ↔ ¬ Before served (probeTag r i) (slowTag r) := by
  rw [← probe.isBefore_iff, Arrival.IsAfter, Arrival.IsBefore]
  simp only [probe.sock, true_and, ne_eq]

/-- The two lists of probes, by the order in which the server processed them. -/
def AllBefore (cfg : Config) (served : List PacketTag) (r : Nat) : Prop :=
  ∀ i < cfg.probes, Before served (probeTag r i) (slowTag r)

def AllAfter (cfg : Config) (served : List PacketTag) (r : Nat) : Prop :=
  ∀ i < cfg.probes, ¬ Before served (probeTag r i) (slowTag r)

instance (served : List PacketTag) : Decidable (AllBefore cfg served r) :=
  inferInstanceAs (Decidable (∀ i < cfg.probes, _))

instance (served : List PacketTag) : Decidable (AllAfter cfg served r) :=
  inferInstanceAs (Decidable (∀ i < cfg.probes, _))

theorem Round.AllEchoes.none_isAfter_iff
    (h : AllEchoes cfg ⟨r, .estimation fast E, start⟩ log arrivals) :
    (∀ a ∈ arrivals, ¬ a.IsAfter fast (lowSeq r)) ↔ AllBefore cfg (log.map Logged.tag) r := by
  constructor
  · intro none i lt
    obtain ⟨a, mem, probe⟩ := h.exists_probe lt
    by_contra after
    exact none a mem (probe.isAfter_iff.mpr after)
  · intro all a mem after
    obtain ⟨i, probe⟩ := h.probe mem after.1
    exact probe.isAfter_iff.mp after (all i probe.index)

theorem Round.AllEchoes.none_isBefore_iff
    (h : AllEchoes cfg ⟨r, .estimation fast E, start⟩ log arrivals) :
    (∀ a ∈ arrivals, ¬ a.IsBefore fast (lowSeq r)) ↔ AllAfter cfg (log.map Logged.tag) r := by
  constructor
  · intro none i lt before
    obtain ⟨a, mem, probe⟩ := h.exists_probe lt
    exact none a mem (probe.isBefore_iff.mpr before)
  · intro all a mem before
    obtain ⟨i, probe⟩ := h.probe mem before.1
    exact all i probe.index (probe.isBefore_iff.mp before)

theorem AllBefore.not_allAfter {served : List PacketTag} (nonempty : 1 ≤ cfg.probes)
    (before : AllBefore cfg served r) : ¬ AllAfter cfg served r :=
  fun after => after 0 nonempty (before 0 nonempty)

/-- Where the slow packet came among the probes, by the order of service. -/
def servedPosition (cfg : Config) (served : List PacketTag) (r : Nat) : SlowPacketPosition :=
  if AllBefore cfg served r then .afterProbes
  else if AllAfter cfg served r then .beforeProbes
  else .betweenProbes

/-- What the three cases say about the order of service. -/
theorem servedPosition_iff {served : List PacketTag} (nonempty : 1 ≤ cfg.probes)
    (order : ∀ i < cfg.probes, Before served (slowTag r) (probeTag r i) ↔
      ¬ Before served (probeTag r i) (slowTag r)) :
    (servedPosition cfg served r = .afterProbes ↔
        ∀ i < cfg.probes, Before served (probeTag r i) (slowTag r)) ∧
      (servedPosition cfg served r = .beforeProbes ↔
        ∀ i < cfg.probes, Before served (slowTag r) (probeTag r i)) ∧
      (servedPosition cfg served r = .betweenProbes ↔
        (∃ i < cfg.probes, Before served (probeTag r i) (slowTag r)) ∧
          ∃ i < cfg.probes, Before served (slowTag r) (probeTag r i)) := by
  have after : (∀ i < cfg.probes, Before served (slowTag r) (probeTag r i)) ↔
      AllAfter cfg served r := forall₂_congr order
  have someAfter : (∃ i < cfg.probes, Before served (slowTag r) (probeTag r i)) ↔
      ¬ AllBefore cfg served r := by
    unfold AllBefore
    push Not
    exact exists_congr fun i => and_congr_right (order i)
  have someBefore : (∃ i < cfg.probes, Before served (probeTag r i) (slowTag r)) ↔
      ¬ AllAfter cfg served r := by
    unfold AllAfter
    push Not
    rfl
  have apart : AllBefore cfg served r → ¬ AllAfter cfg served r :=
    AllBefore.not_allAfter nonempty
  rw [after, someAfter, someBefore, servedPosition]
  change (_ ↔ AllBefore cfg served r) ∧ _
  split_ifs with before later
  · simp [before, apart before]
  · simp [before, later]
  · simp [before, later]

/-- Once all echoes are in, each probe was processed before or after the slow packet. -/
theorem Round.AllEchoes.slow_before_iff
    (h : AllEchoes cfg ⟨r, .estimation fast E, start⟩ log arrivals) {i : Nat}
    (lt : i < cfg.probes) :
    Before (log.map Logged.tag) (slowTag r) (probeTag r i) ↔
      ¬ Before (log.map Logged.tag) (probeTag r i) (slowTag r) := by
  obtain ⟨a, mem, probe⟩ := h.exists_probe lt
  have served := h.mem_served mem
  rw [probe.tag] at served
  exact ⟨Before.asymm, (before_or_before served (by simp [probeTag, slowTag])).resolve_left⟩

/-- `FinishRound` distinguishes the cases by the order of service. -/
theorem slowPacketPosition_eq (started : Started cfg ⟨r, .estimation fast E, start⟩ c)
    (estimation : EstimationStarted cfg fast E start c)
    (h : AllEchoes cfg ⟨r, .estimation fast E, start⟩ log arrivals)
    (positive : ∀ a ∈ arrivals, 0 < a.time) :
    (replay (.estimation fast E) arrivals c).slowPacketPosition =
      servedPosition cfg (log.map Logged.tag) r := by
  have after := firstAfter_eq_zero_iff fast E estimation.noneAfter positive
  have before := lastBefore_eq_zero_iff fast E estimation.noneBefore positive
  rw [started.low, h.none_isAfter_iff] at after
  rw [started.low, h.none_isBefore_iff] at before
  rw [slowPacketPosition, servedPosition]
  exact if_congr after rfl (if_congr before rfl rfl)

/-! ## The estimate stays in the window -/

/-- Three tenths of a whole number of milliseconds lie between zero and all of it. -/
theorem threeTenths_between (d : Int) :
    (0 ≤ d → 0 ≤ threeTenths d ∧ threeTenths d ≤ d) ∧
      (d ≤ 0 → d ≤ threeTenths d ∧ threeTenths d ≤ 0) := by
  unfold threeTenths
  constructor
  · intro nonneg
    rw [Int.tdiv_eq_ediv_of_nonneg (by omega)]
    omega
  · intro nonpos
    have : (3 * d).tdiv 10 = -((3 * -d) / 10) := by
      rw [← Int.tdiv_eq_ediv_of_nonneg (by omega), ← Int.neg_tdiv]
      congr 1
      omega
    omega

/-- The framing term moves from one probe's delay toward the other's, and not beyond. -/
theorem framing_between (cfg : Config) (E : Int) (i j : Nat) :
    min (cfg.probeOffset E i) (cfg.probeOffset E j) ≤ cfg.probeOffset E i +
      cfg.milliSeconds (threeTenths (cfg.getMilliSeconds
        (cfg.probeOffset E j - cfg.probeOffset E i))) ∧
    cfg.probeOffset E i + cfg.milliSeconds (threeTenths (cfg.getMilliSeconds
        (cfg.probeOffset E j - cfg.probeOffset E i))) ≤
      max (cfg.probeOffset E i) (cfg.probeOffset E j) := by
  have ticks := cfg.ticksPerMs_pos
  have difference : cfg.probeOffset E j - cfg.probeOffset E i =
      cfg.milliSeconds (2 * ((j : Int) - i)) := by
    unfold Config.probeOffset
    rw [Config.gap_eq, Config.milliSeconds]
    ring
  have scale : ∀ x y : Int, x ≤ y → cfg.milliSeconds x ≤ cfg.milliSeconds y := fun x y le =>
    Int.mul_le_mul_of_nonneg_right le (Int.natCast_nonneg _)
  have zero : cfg.milliSeconds 0 = 0 := Int.zero_mul _
  rw [difference, cfg.getMilliSeconds_milliSeconds]
  obtain ⟨up, down⟩ := threeTenths_between (2 * ((j : Int) - i))
  rcases le_total 0 (2 * ((j : Int) - i)) with nonneg | nonpos
  · have low := scale _ _ (up nonneg).1
    have high := scale _ _ (up nonneg).2
    omega
  · have low := scale _ _ (down nonpos).1
    have high := scale _ _ (down nonpos).2
    omega

/-- A probe that arrived at a time in the map left when the plan says. -/
theorem departureAt_eq (estimation : EstimationStarted cfg fast E start c)
    (h : Echoes cfg ⟨r, .estimation fast E, start⟩ log arrivals) {time : Int}
    (found : ((replay (.estimation fast E) arrivals c).m_probes.find? time).isSome) :
    ∃ a ∈ arrivals, ∃ i, ProbeEcho cfg r fast E start (log.map Logged.tag) i a ∧ a.time = time ∧
      (replay (.estimation fast E) arrivals c).departureAt time =
        start + cfg.probeOffset E i := by
  obtain ⟨stats, eq⟩ := Option.isSome_iff_exists.mp found
  obtain ⟨a, mem, probe, same⟩ :=
    mem_replay_m_probes estimation.noProbes (SortedMap.mem_of_find? eq)
  obtain ⟨i, echo⟩ := h.probe mem probe
  refine ⟨a, mem, i, echo, (congrArg Prod.fst same).symm, ?_⟩
  have : stats = probeStats a.time a.seqTs := congrArg Prod.snd same
  rw [departureAt, eq, Option.getD_some, this]
  exact echo.receiverTs

/-- In the framing case both framing probes are in the map. -/
theorem framesFound (estimation : EstimationStarted cfg fast E start c)
    (between : (replay (.estimation fast E) arrivals c).slowPacketPosition = .betweenProbes) :
    (replay (.estimation fast E) arrivals c).FramesFound := by
  rw [slowPacketPosition] at between
  split_ifs at between with noneAfter noneBefore
  constructor
  · obtain ⟨a, mem, after, eq⟩ := exists_firstAfter estimation.noneAfter noneAfter
    rw [← eq]
    exact find?_replay_m_probes mem after.1
  · obtain ⟨a, mem, before, eq⟩ := exists_lastBefore estimation.noneBefore noneBefore
    rw [← eq]
    exact find?_replay_m_probes mem before.1

/-- The framing term, when the framing probes are probes `i` and `j`. -/
theorem framedEstimate_eq (h : AllEchoes cfg ⟨r, .estimation fast E, start⟩ log arrivals)
    {i j : Nat}
    (before : (replay (.estimation fast E) arrivals c).departureAt
      (replay (.estimation fast E) arrivals c).m_arrivalTimeLastProbeBeforeSlowPath =
        start + cfg.probeOffset E i)
    (after : (replay (.estimation fast E) arrivals c).departureAt
      (replay (.estimation fast E) arrivals c).m_arrivalTimeFirstProbeAfterSlowPath =
        start + cfg.probeOffset E j) :
    framedEstimate cfg (replay (.estimation fast E) arrivals c) =
      cfg.probeOffset E i + cfg.milliSeconds (threeTenths (cfg.getMilliSeconds
        (cfg.probeOffset E j - cfg.probeOffset E i))) := by
  obtain ⟨x, mem, slow⟩ := h.exists_slow
  have slowPacket := (replay_slow (E := E) (c := c) mem slow.sock (h.slow_onlyOn mem slow)).1
  have shift : start + cfg.probeOffset E j - (start + cfg.probeOffset E i) =
      cfg.probeOffset E j - cfg.probeOffset E i := by ring
  rw [framedEstimate, before, after, slowPacket, slow.receiverTs, shift]
  ring

/-- **The estimate stays in the window of the round's probes.** -/
theorem nextEstimate_window (nonempty : 1 ≤ cfg.probes)
    (estimation : EstimationStarted cfg fast E start c)
    (h : AllEchoes cfg ⟨r, .estimation fast E, start⟩ log arrivals) :
    cfg.probeOffset E 0 ≤ nextEstimate cfg (replay (.estimation fast E) arrivals c) ∧
      nextEstimate cfg (replay (.estimation fast E) arrivals c) ≤
        cfg.probeOffset E (cfg.probes - 1) := by
  have previous : (replay (.estimation fast E) arrivals c).previousEstimate = E :=
    replay_sameRound.previousEstimate.trans estimation.previous
  have inside : ∀ i < cfg.probes, cfg.probeOffset E 0 ≤ cfg.probeOffset E i ∧
      cfg.probeOffset E i ≤ cfg.probeOffset E (cfg.probes - 1) := fun i lt =>
    ⟨Config.probeOffset_le (Nat.zero_le i), Config.probeOffset_le (by omega)⟩
  rw [nextEstimate, previous]
  cases position : (replay (.estimation fast E) arrivals c).slowPacketPosition with
  | afterProbes => exact ⟨(inside _ (by omega)).1, le_rfl⟩
  | beforeProbes => exact ⟨le_rfl, (inside 0 (by omega)).2⟩
  | betweenProbes =>
      obtain ⟨foundAfter, foundBefore⟩ := framesFound estimation position
      obtain ⟨_, -, i, probeI, -, before⟩ := departureAt_eq estimation h.toEchoes foundBefore
      obtain ⟨_, -, j, probeJ, -, after⟩ := departureAt_eq estimation h.toEchoes foundAfter
      have between := framing_between cfg E i j
      have first := inside i probeI.index
      have second := inside j probeJ.index
      dsimp only
      rw [framedEstimate_eq h before after]
      omega

/-- No echo writes the fields that the framing branch writes. -/
theorem replay_estimates :
    (replay (.estimation fast E) arrivals c).m_currentRoundStats.estimates =
      c.m_currentRoundStats.estimates := by
  refine replay_eq_of_same (f := fun c => c.m_currentRoundStats.estimates) fun c a => ?_
  rw [echoed, owdEchoed]
  split_ifs <;> rfl

/-- The estimate of the next round is never negative. -/
theorem nextEstimate_nonneg (nonempty : 1 ≤ cfg.probes)
    (estimation : EstimationStarted cfg fast E start c)
    (h : AllEchoes cfg ⟨r, .estimation fast E, start⟩ log arrivals) :
    0 ≤ nextEstimate cfg (replay (.estimation fast E) arrivals c) :=
  (Config.probeOffset_nonneg 0).trans (nextEstimate_window nonempty estimation h).1

end OwdPacing
