import OwdPacing.Accounting

/-!
# The fast subflow that RTT sampling finds

`SamplingRTTRecv` looks for the echo with the number before the round's lowest,
which only the packet on socket 1 can bring back.  So a round finds the faster
subflow when it is socket 1; when it is socket 0 the record keeps what an earlier
round has found, and a sampling phase in which socket 0 is always faster ends in
the assertion of `StartNewOwdEstimationRound`.
-/

namespace OwdPacing

open Container OWdClientBasic Round Runs

namespace Sys

variable {cfg : Config} {now : Int} {s s₀ : Sys} {k : Nat} {stats : RoundStats}

/-- The records of RTT rounds, from the first to the last. -/
theorem RoundOver.firstServed {r : Nat} {start : Int} {c : OWdClientBasic}
    (h : RoundOver cfg ⟨r, .sampling, start⟩ c s stats) :
    FirstServed s.served r 0 ∨ FirstServed s.served r 1 := by
  obtain ⟨a, mem, zero⟩ := h.echoes.sampling_exists 0
  have served := h.echoes.mem_served mem
  rw [(h.echoes.sampling mem).1, zero] at served
  exact before_or_before served (by simp [onSocket, Socket.other])

theorem firstServed_zero_iff {served : List PacketTag} {r : Nat}
    (some : FirstServed served r 0 ∨ FirstServed served r 1) :
    FirstServed served r 0 ↔ ¬ FirstServed served r 1 :=
  ⟨fun zero one => Before.asymm zero one, some.resolve_right⟩

/-- The fast subflow of a record, from the order of service of its round and the
record before. -/
theorem RoundOver.forwardFastSubflow {r : Nat} {start : Int} {c : OWdClientBasic}
    (h : RoundOver cfg ⟨r, .sampling, start⟩ c s stats) :
    stats.ForwardFastSubflow =
      if FirstServed s.served r 1 then 1 else (back c.m_rttRoundStats).ForwardFastSubflow := by
  rw [h.record]
  exact sampled_forwardFastSubflow h.started h.kind h.echoes

theorem RoundOver.carried_ne_zero {r : Nat} {start : Int} {c : OWdClientBasic}
    (h : RoundOver cfg ⟨r, .sampling, start⟩ c s stats) :
    (back c.m_rttRoundStats).ForwardFastSubflow ≠ 0 := by
  have sampling : SamplingStarted cfg c := h.kind
  rcases sampling.known with unknown | one
  · rw [unknown]; decide
  · rw [one]; decide

/-- The last of the first `k` records knows no fast subflow exactly when the
server processed the packet on socket 0 first in each of the `k` rounds. -/
theorem History.unknown_iff (h : s.History cfg c₀) (fresh : c₀.m_rttRoundStats = [])
    (le : k ≤ s.client.m_rttRoundStats.length) :
    (back (s.client.m_rttRoundStats.take k)).ForwardFastSubflow = -1 ↔
      ∀ j < k, FirstServed s.served j 0 := by
  induction k with
  | zero => exact iff_of_true rfl fun j lt => absurd lt (Nat.not_lt_zero j)
  | succ k ih =>
      have get : s.client.m_rttRoundStats[k]? = some s.client.m_rttRoundStats[k] :=
        List.getElem?_eq_getElem (by omega)
      obtain ⟨start, c, before, ended⟩ :=
        h.sampled k _ (by rw [fresh]; exact Nat.zero_le k) get
      have last : back (s.client.m_rttRoundStats.take (k + 1)) = s.client.m_rttRoundStats[k] := by
        rw [List.take_succ_eq_append_getElem (by omega), back_append]
      have zero := firstServed_zero_iff ended.firstServed
      rw [last, ended.forwardFastSubflow, before]
      split_ifs with one
      · refine iff_of_false (by decide) fun all => zero.mp (all k (Nat.lt_succ_self k)) one
      · rw [ih (by omega)]
        constructor
        · intro all j lt
          rcases Nat.lt_succ_iff_lt_or_eq.mp lt with old | rfl
          · exact all j old
          · exact zero.mpr one
        · exact fun all j lt => all j (Nat.lt_succ_of_lt lt)

/-- **When RTT sampling finds the fast subflow.**  In every run of the
application the record of an RTT round names the socket whose packet the server
processed first exactly when that is socket 1; and the run is stopped by the
assertion on the fast subflow exactly when sampling is over and the server
processed the packet on socket 0 first in every round of it. -/
theorem sampledFastSubflow_iff (adm : cfg.Admissible)
    (reach : Reach (next cfg) anyEvent (boot now) s) :
    (∀ k stats, s.client.m_rttRoundStats[k]? = some stats →
      ∃ first : Socket, FirstServed s.served k first ∧
        (stats.ForwardFastSubflow = ((first : Nat) : Int) ↔ first = 1)) ∧
    (s.halted = some .startNewOwdEstimationRound_forwardFastSubflow ↔
      s.client.m_rttRoundStats.length = cfg.sampleRTTmaxRounds.toNat ∧
        ∀ k < cfg.sampleRTTmaxRounds.toNat, FirstServed s.served k 0) := by
  have inv := (Start.boot now).reach adm reach
  have fresh : (boot now).client.m_rttRoundStats = [] := rfl
  constructor
  · intro k stats get
    obtain ⟨start, c, -, ended⟩ := inv.history.sampled k stats (Nat.zero_le k) get
    rcases ended.firstServed with zero | one
    · refine ⟨0, zero, iff_of_false ?_ (by decide)⟩
      rw [ended.forwardFastSubflow, if_neg ((firstServed_zero_iff (.inl zero)).mp zero)]
      exact ended.carried_ne_zero
    · refine ⟨1, one, iff_of_true ?_ rfl⟩
      rw [ended.forwardFastSubflow, if_pos one]
      rfl
  · have unknown := inv.history.unknown_iff fresh (Nat.le_refl _)
    rw [List.take_length] at unknown
    have found : 0 ≤ (back s.client.m_rttRoundStats).ForwardFastSubflow →
        ¬ ∀ k < s.client.m_rttRoundStats.length, FirstServed s.served k 0 := by
      intro nonneg all
      rw [unknown.mpr all] at nonneg
      exact absurd nonneg (by decide)
    have running : s.halted = none →
        s.halted ≠ some .startNewOwdEstimationRound_forwardFastSubflow := by
      intro none
      rw [none]
      exact nofun
    rcases inv.phase with ⟨⟨r, _ | ⟨fast, E⟩, start⟩, c, run⟩ | quiet
    · have sampling : SamplingStarted cfg c := run.kind
      refine iff_of_false (running run.running) fun both => ?_
      have more := sampling.more
      rw [← run.sameRound.rtt, both.1] at more
      exact Nat.lt_irrefl _ more
    · have estimation : EstimationStarted cfg fast E start c := run.kind
      refine iff_of_false (running run.running) fun both => found ?_ (both.1 ▸ both.2)
      rw [run.sameRound.rtt]
      exact estimation.found
    · cases quiet.outcome with
      | finished alive _ _ _ known =>
          exact iff_of_false (running alive) fun both => found known (both.1 ▸ both.2)
      | aborted halted _ all unknownLast =>
          exact iff_of_true halted ⟨all, all ▸ unknown.mp unknownLast⟩

/-- When the server processes the packet on socket 0 first, the record knows no
fast subflow, and the assertion stops the run. -/
theorem sampledFastSubflow_unknown : ∃ s, Reach (next .nanoseconds) anyEvent (boot 0) s ∧
    FirstServed s.served 0 0 ∧
    s.client.m_rttRoundStats.map RoundStats.ForwardFastSubflow = [-1] ∧
    s.halted = some .startNewOwdEstimationRound_forwardFastSubflow := by
  exact ⟨final (next .nanoseconds) socketZeroFirst (boot 0), .final (by decide +kernel) .any,
    by decide +kernel, by decide +kernel, by decide +kernel⟩

/-- When it processes the packet on socket 1 first, the record names it. -/
theorem sampledFastSubflow_found : ∃ s, Reach (next .nanoseconds) anyEvent (boot 0) s ∧
    FirstServed s.served 0 1 ∧
    ¬ s.halted = some .startNewOwdEstimationRound_forwardFastSubflow := by
  have reach : Reach (next .nanoseconds) anyEvent (boot 0)
      (final (next .nanoseconds) socketOneFirst (boot 0)) := .final (by decide +kernel) .any
  have notZero : ¬ FirstServed (final (next .nanoseconds) socketOneFirst (boot 0)).served 0 0 := by
    decide +kernel
  refine ⟨_, reach, by decide +kernel, fun halted => notZero ?_⟩
  exact ((sampledFastSubflow_iff Config.nanoseconds_admissible reach).2.mp halted).2 0 (by decide)

end Sys

end OwdPacing
