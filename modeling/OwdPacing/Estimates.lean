import OwdPacing.Convergence

/-!
# The one-way estimates of a record

`FinishRound` estimates the four one-way delays of a framed round from the two
round-trip times and the forward difference, in one of two ways, and leaves the
fields of a round that is not framed as the record was constructed.
-/

namespace OwdPacing

open Container OWdClientBasic Round Runs

/-! ## Halving -/

theorem Time.half_near (t : Int) : |t - 2 * Time.half t| ≤ 1 := by
  rw [Time.half, abs_le]
  rcases le_total 0 t with nonneg | nonpos
  · rw [Int.tdiv_eq_ediv_of_nonneg nonneg]
    omega
  · have negated : t.tdiv 2 = -(-t / 2) := by
      rw [← Int.tdiv_eq_ediv_of_nonneg (by omega), Int.neg_tdiv, neg_neg]
    omega

theorem Time.half_of_nonneg {t : Int} (nonneg : 0 ≤ t) : Time.half t = t / 2 :=
  Int.tdiv_eq_ediv_of_nonneg nonneg

/-! ## The two ways to estimate -/

namespace RoundStats

/-- The estimates of a record whose reverse fast path is the forward one. -/
structure HalvesFast (fast : Socket) (stats : RoundStats) : Prop where
  forward : stats.EstimatedForwardDelay fast = Time.half (stats.rtt fast)
  forwardSlow : stats.EstimatedForwardDelay fast.other =
    stats.EstimatedForwardDeltaOWD + Time.half (stats.rtt fast)
  reverse : stats.EstimatedReverseDelay fast = stats.rtt fast - Time.half (stats.rtt fast)
  reverseSlow : stats.EstimatedReverseDelay fast.other =
    stats.rtt fast.other - (stats.EstimatedForwardDeltaOWD + Time.half (stats.rtt fast))

/-- And of one whose reverse fast path is the forward slow one. -/
structure HalvesSlow (fast : Socket) (stats : RoundStats) : Prop where
  forward : stats.EstimatedForwardDelay fast =
    Time.half (stats.rtt fast.other - stats.EstimatedForwardDeltaOWD)
  forwardSlow : stats.EstimatedForwardDelay fast.other =
    stats.rtt fast.other - Time.half (stats.rtt fast.other - stats.EstimatedForwardDeltaOWD)
  reverse : stats.EstimatedReverseDelay fast =
    stats.rtt fast - Time.half (stats.rtt fast.other - stats.EstimatedForwardDeltaOWD)
  reverseSlow : stats.EstimatedReverseDelay fast.other =
    Time.half (stats.rtt fast.other - stats.EstimatedForwardDeltaOWD)

end RoundStats

section Delays

variable {fast : Socket} {stats : RoundStats}

/-- When the reverse fast path is the forward one, half the fast round-trip time is
the fast forward delay. -/
theorem estimateDelays_same (same : stats.ReverseFastSubflow = stats.ForwardFastSubflow) :
    (estimateDelays fast fast.other stats).HalvesFast fast := by
  rw [estimateDelays, if_pos same]
  constructor <;> simp

/-- Else half of what the slow round-trip time leaves is the fast forward delay and
the slow reverse delay. -/
theorem estimateDelays_differ (differ : stats.ReverseFastSubflow ≠ stats.ForwardFastSubflow) :
    (estimateDelays fast fast.other stats).HalvesSlow fast := by
  rw [estimateDelays, if_neg differ]
  constructor <;> simp

end Delays

/-! ## The two shapes of a record -/

namespace RoundStats

/-- Nothing is estimated about the reverse paths and the four delays. -/
structure Unframed (stats : RoundStats) : Prop where
  reverseFast : stats.ReverseFastSubflow = -1
  reverseDelta : stats.EstimatedReverseDeltaOWD = 0
  forward : ∀ sock, stats.EstimatedForwardDelay sock = 0
  reverse : ∀ sock, stats.EstimatedReverseDelay sock = 0

/-- On each path the two estimates make up the round-trip time, and the forward
estimates differ by the forward difference. -/
structure Estimated (fast : Socket) (stats : RoundStats) : Prop where
  reverseFast : stats.ReverseFastSubflow = 0 ∨ stats.ReverseFastSubflow = 1
  sum : ∀ sock,
    stats.EstimatedForwardDelay sock + stats.EstimatedReverseDelay sock = stats.rtt sock
  same : stats.ReverseFastSubflow = stats.ForwardFastSubflow →
    stats.EstimatedForwardDelay fast.other - stats.EstimatedForwardDelay fast =
      stats.EstimatedForwardDeltaOWD
  differ : stats.ReverseFastSubflow ≠ stats.ForwardFastSubflow →
    |stats.EstimatedForwardDelay fast.other - stats.EstimatedForwardDelay fast -
      stats.EstimatedForwardDeltaOWD| ≤ 1

theorem HalvesFast.sum {fast : Socket} {stats : RoundStats} (h : stats.HalvesFast fast)
    (sock : Socket) :
    stats.EstimatedForwardDelay sock + stats.EstimatedReverseDelay sock = stats.rtt sock := by
  rcases sock.eq_or_eq_other fast with rfl | rfl
  · rw [h.forward, h.reverse]
    ring
  · rw [h.forwardSlow, h.reverseSlow]
    ring

theorem HalvesSlow.sum {fast : Socket} {stats : RoundStats} (h : stats.HalvesSlow fast)
    (sock : Socket) :
    stats.EstimatedForwardDelay sock + stats.EstimatedReverseDelay sock = stats.rtt sock := by
  rcases sock.eq_or_eq_other fast with rfl | rfl
  · rw [h.forward, h.reverse]
    ring
  · rw [h.forwardSlow, h.reverseSlow]
    ring

theorem Unframed.not_estimated {fast : Socket} {stats : RoundStats} (h : stats.Unframed) :
    ¬ stats.Estimated fast := by
  intro estimated
  have unknown := h.reverseFast
  rcases estimated.reverseFast with zero | one <;> omega

theorem unframed_of_estimates {stats : RoundStats} (fresh : stats.estimates = new.estimates) :
    stats.Unframed := by
  simp only [estimates, Prod.mk.injEq] at fresh
  obtain ⟨reverseFast, reverseDelta, forward, reverse⟩ := fresh
  exact ⟨reverseFast, reverseDelta, fun sock => congrFun forward sock,
    fun sock => congrFun reverse sock⟩

end RoundStats

section Shapes

variable {cfg : Config} {fast : Socket} {c : OWdClientBasic}

theorem estimateDelays_estimated {stats : RoundStats}
    (valid : stats.ReverseFastSubflow = 0 ∨ stats.ReverseFastSubflow = 1) :
    (estimateDelays fast fast.other stats).Estimated fast := by
  have reverseFast := estimateDelays_reverseFastSubflow fast fast.other stats
  have forwardFast := estimateDelays_forwardFastSubflow fast fast.other stats
  by_cases same : stats.ReverseFastSubflow = stats.ForwardFastSubflow
  · have halves := @estimateDelays_same fast _ same
    refine ⟨reverseFast ▸ valid, halves.sum, fun _ => ?_, fun differ => ?_⟩
    · rw [halves.forward, halves.forwardSlow]
      ring
    · rw [reverseFast, forwardFast] at differ
      exact absurd same differ
  · have halves := @estimateDelays_differ fast _ same
    refine ⟨reverseFast ▸ valid, halves.sum, fun still => ?_, fun _ => ?_⟩
    · rw [reverseFast, forwardFast] at still
      exact absurd still same
    · have near := Time.half_near ((estimateDelays fast fast.other stats).rtt fast.other -
        (estimateDelays fast fast.other stats).EstimatedForwardDeltaOWD)
      rw [halves.forward, halves.forwardSlow]
      convert near using 2
      ring

/-- An echo on the slow path later than that of the first probe after it makes the
fast path the reverse fast one. -/
theorem framedStats_of_later {stats : RoundStats}
    (chosen : stats.ForwardFastSubflow = (fast : Nat))
    (later : 0 < c.m_slowPacket.1 - c.m_arrivalTimeFirstProbeAfterSlowPath) :
    (framedStats cfg fast c stats).ReverseFastSubflow = (fast : Nat) ∧
      (framedStats cfg fast c stats).HalvesFast fast := by
  constructor
  · rw [framedStats_reverseFastSubflow, if_neg (not_le.mpr later)]
  · apply estimateDelays_same
    dsimp only
    rw [if_neg (not_le.mpr later), chosen]

/-- Any other makes it the slow one. -/
theorem framedStats_of_notLater {stats : RoundStats}
    (chosen : stats.ForwardFastSubflow = (fast : Nat))
    (notLater : c.m_slowPacket.1 - c.m_arrivalTimeFirstProbeAfterSlowPath ≤ 0) :
    (framedStats cfg fast c stats).ReverseFastSubflow = (fast.other : Nat) ∧
      (framedStats cfg fast c stats).HalvesSlow fast := by
  constructor
  · rw [framedStats_reverseFastSubflow, if_pos notLater]
  · apply estimateDelays_differ
    dsimp only
    rw [if_pos notLater, chosen, Ne, Int.natCast_inj, Fin.val_inj]
    exact fast.other_ne

theorem framedStats_estimated (stats : RoundStats) :
    (framedStats cfg fast c stats).Estimated fast := by
  have valid : ∀ sock : Socket, ((sock : Nat) : Int) = 0 ∨ ((sock : Nat) : Int) = 1 := by decide
  apply estimateDelays_estimated
  dsimp only
  split_ifs <;> exact valid _

end Shapes

namespace Sys

variable {cfg : Config} {s s₀ : Sys} {c : OWdClientBasic} {r k : Nat} {fast : Socket}
  {E begin : Int} {stats : RoundStats}

/-- The client takes a round for framed exactly when the server processed the slow
packet between two probes. -/
theorem RoundOver.framed_iff (h : RoundOver cfg ⟨r, .estimation fast E, begin⟩ c s stats)
    (nonempty : 1 ≤ cfg.probes) (positive : ∀ a ∈ s.receivedIn r, 0 < a.time) :
    (replay (.estimation fast E) (s.receivedIn r) c).slowPacketPosition = .betweenProbes ↔
      s.Framed cfg r := by
  rw [slowPacketPosition_eq h.started h.kind h.echoes positive]
  exact (servedPosition_iff nonempty fun i lt => h.echoes.slow_before_iff lt).2.2

/-- The shape of the record of a round that is over. -/
theorem RoundOver.shape (h : RoundOver cfg ⟨r, .estimation fast E, begin⟩ c s stats)
    (nonempty : 1 ≤ cfg.probes) (positive : ∀ a ∈ s.receivedIn r, 0 < a.time) :
    (¬ s.Framed cfg r ∧ stats.Unframed) ∨ (s.Framed cfg r ∧ stats.Estimated fast) := by
  have estimation : EstimationStarted cfg fast E begin c := h.kind
  have record : stats = finishedStats cfg fast (replay (.estimation fast E) (s.receivedIn r) c) :=
    h.record
  have position := h.framed_iff nonempty positive
  by_cases framed : s.Framed cfg r
  · refine .inr ⟨framed, ?_⟩
    rw [record, finishedStats_framed (position.mpr framed)]
    exact framedStats_estimated _
  · refine .inl ⟨framed, RoundStats.unframed_of_estimates ?_⟩
    rw [record, finishedStats_estimates (mt position.mp framed), replay_estimates,
      estimation.fresh]

/-- **The four one-way estimates are consistent.**  In the `k`-th record of the
estimation rounds either the round was not framed, and nothing is estimated about
the reverse paths and the four delays, or it was, and on each path the two
estimates make up the round-trip time, while the forward ones differ by the forward
difference: exactly, when one path is the fast one in both directions, else to
within one tick. -/
theorem estimates_consistent (adm : cfg.Admissible) (start : Start cfg s₀)
    (reach : Reach (next cfg) ArrivalsPositive s₀ s) (le : s₀.client.m_owdRoundStats.length ≤ k)
    (record : s.client.m_owdRoundStats[k]? = some stats) :
    ∃ fast : Socket, stats.ForwardFastSubflow = (fast : Nat) ∧
      ((¬ s.Framed cfg (s.client.m_rttRoundStats.length + k) ∧ stats.Unframed) ∨
        (s.Framed cfg (s.client.m_rttRoundStats.length + k) ∧ stats.Estimated fast)) ∧
      ¬ (stats.Unframed ∧ stats.Estimated fast) := by
  obtain ⟨fast, E, begin, c, -, -, ended⟩ :=
    (start.reach adm reach).history.estimated k stats le record
  have positive : ∀ a ∈ s.receivedIn (s.client.m_rttRoundStats.length + k), 0 < a.time :=
    fun a mem => start.arrivals_positive adm reach a (List.mem_of_mem_filter mem)
  exact ⟨fast, ended.estimated_fast, ended.shape adm.probes_pos positive,
    fun both => both.1.not_estimated both.2⟩

theorem estimates_consistent_framed : ∃ s stats,
    Reach (next .nanoseconds) ArrivalsPositive (boot 0) s ∧
    s.client.m_owdRoundStats[0]? = some stats ∧ ∃ fast, stats.Estimated fast := by
  have reach := framedRounds_reach.mono fun _ _ guard => guard.2
  obtain ⟨stats, get⟩ : ∃ stats, (final (next .nanoseconds) framedRounds
      (boot 0)).client.m_owdRoundStats[0]? = some stats :=
    Option.isSome_iff_exists.mp (by decide +kernel)
  obtain ⟨fast, -, ⟨unframed, -⟩ | ⟨-, estimated⟩, -⟩ :=
    estimates_consistent Config.nanoseconds_admissible (.boot 0) reach (Nat.zero_le 0) get
  · exact absurd framedRounds_framed unframed
  · exact ⟨_, stats, reach, get, fast, estimated⟩

end Sys

end OwdPacing
