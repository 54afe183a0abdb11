import OwdPacing.Classification

/-!
# What the records measure

The delays and round-trip times of a record are those of the packets of its own
round: on the slow socket, and in RTT sampling, of the one packet on the socket,
and on the fast socket of the probe that the client processed last.
-/

namespace OwdPacing

open Container OWdClientBasic Round Runs

namespace Sys

variable {cfg : Config} {s s₀ : Sys} {c c₀ : OWdClientBasic} {r k : Nat} {fast : Socket}
  {E begin : Int} {stats : RoundStats} {a : Arrival} {ρ : Round}

/-- The record has, for the socket of the echo, the delays and the round-trip time
of its packet: from when the client sent it, the server processed it and the
client received the echo. -/
structure MeasuredBy (s : Sys) (stats : RoundStats) (a : Arrival) : Prop where
  received : a ∈ s.receivedLog
  sent : ⟨a.tag, a.sentAt⟩ ∈ s.sentLog
  served : ⟨a.tag, a.servedAt⟩ ∈ s.servedLog
  forward : stats.RealForwardDelay a.sock = a.servedAt - a.sentAt
  reverse : stats.RealReverseDelay a.sock = a.time - a.servedAt
  rtt : stats.rtt a.sock = a.time - a.sentAt

theorem MeasuredBy.rtt_eq (h : s.MeasuredBy stats a) :
    stats.rtt a.sock = stats.RealForwardDelay a.sock + stats.RealReverseDelay a.sock := by
  rw [h.rtt, h.forward, h.reverse]
  omega

/-- The header of an echo has the times of its packet. -/
theorem OnTime.measuredBy (onTime : s.OnTime)
    (h : Echoes cfg ρ s.servedLog (s.receivedIn ρ.number)) (mem : a ∈ s.receivedIn ρ.number)
    (measures : Measures stats a.sock a) : s.MeasuredBy stats a := by
  obtain ⟨call, -, tag, -, echo⟩ := h.fromPlan a mem
  have received := List.mem_of_mem_filter mem
  obtain ⟨sentAt, logged⟩ := onTime.arrivals a received
  exact {
    received := received
    sent := logged
    served := by
      rw [tag]
      exact echo.logged
    forward := by rw [measures.forward, sentAt, echo.senderTs]
    reverse := by rw [measures.reverse, echo.senderTs]
    rtt := by rw [measures.rtt, sentAt] }

/-- The record of an RTT round measures the packet of the round on each socket. -/
theorem RoundOver.sampled_measuredBy (h : RoundOver cfg ⟨r, .sampling, begin⟩ c s stats)
    (onTime : s.OnTime) (sock : Socket) :
    ∃ a, a.tag = onSocket r sock ∧ a.sock = sock ∧ s.MeasuredBy stats a := by
  have record : stats = (replay .sampling (s.receivedIn r) c).m_currentRoundStats := h.record
  obtain ⟨a, mem, tag, rfl, -, -, measures⟩ := sampled_measures (c := c) h.echoes sock
  rw [← record] at measures
  exact ⟨a, tag, rfl, onTime.measuredBy h.echoes.toEchoes mem measures⟩

/-- The record of an estimation round measures the slow packet of the round. -/
theorem RoundOver.slow_measuredBy
    (h : RoundOver cfg ⟨r, .estimation fast E, begin⟩ c s stats) (onTime : s.OnTime) :
    ∃ a, a.tag = slowTag r ∧ a.sock = fast.other ∧ s.MeasuredBy stats a := by
  have record : stats = finishedStats cfg fast (replay (.estimation fast E) (s.receivedIn r) c) :=
    h.record
  obtain ⟨a, mem, slow⟩ := h.echoes.exists_slow
  obtain ⟨-, measures⟩ :=
    replay_slow (E := E) (c := c) mem slow.sock (h.echoes.slow_onlyOn mem slow)
  obtain ⟨forward, reverse, rtt⟩ := finishedStats_slow cfg fast
    (replay (.estimation fast E) (s.receivedIn r) c)
  have onSlow : Measures stats a.sock a := by
    rw [slow.sock, record]
    exact ⟨forward.trans measures.forward, reverse.trans measures.reverse, rtt.trans measures.rtt⟩
  exact ⟨a, slow.tag, slow.sock, onTime.measuredBy h.echoes.toEchoes mem onSlow⟩

/-- And the probe that the client processed last. -/
theorem RoundOver.fast_measuredBy (nonempty : 1 ≤ cfg.probes)
    (h : RoundOver cfg ⟨r, .estimation fast E, begin⟩ c s stats) (onTime : s.OnTime)
    (clocked : s.Clocked) :
    ∃ i a, i < cfg.probes ∧ a.tag = probeTag r i ∧ a.sock = fast ∧
      ((s.receivedIn r).filter fun a => a.sock = fast).getLast? = some a ∧
      s.MeasuredBy stats a := by
  have record : stats = finishedStats cfg fast (replay (.estimation fast E) (s.receivedIn r) c) :=
    h.record
  have estimation : EstimationStarted cfg fast E begin c := h.kind
  have sorted : (s.receivedIn r).Pairwise fun a b => a.time ≤ b.time :=
    clocked.received.sorted.sublist List.filter_sublist
  have last := getLast?_replay_m_probes fast E estimation.noProbes sorted
  cases newest : ((s.receivedIn r).filter fun a => a.sock = fast).getLast? with
  | none =>
      obtain ⟨a, mem, probe⟩ := h.echoes.exists_probe nonempty
      rw [List.getLast?_eq_none_iff, List.filter_eq_nil_iff] at newest
      exact absurd (decide_eq_true probe.sock) (newest a mem)
  | some a =>
      obtain ⟨mem, sock⟩ := List.mem_filter.mp (List.mem_of_getLast? newest)
      have sock : a.sock = fast := of_decide_eq_true sock
      obtain ⟨i, probe⟩ := h.echoes.probe mem sock
      rw [newest] at last
      obtain ⟨forward, reverse, rtt⟩ := finishedStats_fast cfg fast last
      have onFast : Measures stats a.sock a := by
        rw [sock, record]
        refine ⟨forward, reverse, rtt.trans ?_⟩
        dsimp only [probeStats]
        omega
      exact ⟨i, a, probe.index, probe.tag, sock, rfl,
        onTime.measuredBy h.echoes.toEchoes mem onFast⟩

/-- The fast subflow of the record is that of the round. -/
theorem RoundOver.estimated_fast (h : RoundOver cfg ⟨r, .estimation fast E, begin⟩ c s stats) :
    stats.ForwardFastSubflow = (fast : Nat) := by
  have estimation : EstimationStarted cfg fast E begin c := h.kind
  have record : stats = finishedStats cfg fast (replay (.estimation fast E) (s.receivedIn r) c) :=
    h.record
  rw [record, finishedStats_forwardFastSubflow, replay_m_forwardFastSubflow, estimation.chosen]

/-- **What the records measure.**  A record of RTT round `k` has on each socket the
delays and round-trip time of the packet of that round; the `k`-th record of the
estimation rounds, which follow, has those of the round's slow packet on the slow
socket, and on the fast socket those of the round's probe that the client
processed last; and in each record every round-trip time is the sum of the two
delays. -/
theorem measurements (adm : cfg.Admissible) (start : Start cfg s₀)
    (reach : Reach (next cfg) Timely s₀ s) :
    (∀ k stats, s₀.client.m_rttRoundStats.length ≤ k →
      s.client.m_rttRoundStats[k]? = some stats →
      (∀ sock : Socket, ∃ a, a.tag = onSocket k sock ∧ a.sock = sock ∧ s.MeasuredBy stats a) ∧
      ∀ sock, stats.rtt sock = stats.RealForwardDelay sock + stats.RealReverseDelay sock) ∧
    ∀ k stats, s₀.client.m_owdRoundStats.length ≤ k →
      s.client.m_owdRoundStats[k]? = some stats →
      ∃ fast : Socket, stats.ForwardFastSubflow = (fast : Nat) ∧
        (∃ a, a.tag = slowTag (s.client.m_rttRoundStats.length + k) ∧ a.sock = fast.other ∧
          s.MeasuredBy stats a) ∧
        (∃ i a, i < cfg.probes ∧ a.tag = probeTag (s.client.m_rttRoundStats.length + k) i ∧
          a.sock = fast ∧
          ((s.receivedIn (s.client.m_rttRoundStats.length + k)).filter
            fun a => a.sock = fast).getLast? = some a ∧
          s.MeasuredBy stats a) ∧
        ∀ sock, stats.rtt sock = stats.RealForwardDelay sock + stats.RealReverseDelay sock := by
  have inv := start.reach adm reach
  have onTime := start.onTime adm reach
  constructor
  · intro k stats le record
    obtain ⟨begin, c, -, ended⟩ := inv.history.sampled k stats le record
    have each := fun sock => ended.sampled_measuredBy onTime sock
    refine ⟨each, fun sock => ?_⟩
    obtain ⟨a, -, rfl, measured⟩ := each sock
    exact measured.rtt_eq
  · intro k stats le record
    obtain ⟨fast, E, begin, c, -, -, ended⟩ := inv.history.estimated k stats le record
    have slow := ended.slow_measuredBy onTime
    have probe := ended.fast_measuredBy adm.probes_pos onTime (start.clocked adm reach)
    refine ⟨fast, ended.estimated_fast, slow, probe, fun sock => ?_⟩
    rcases sock.eq_or_eq_other fast with rfl | rfl
    · obtain ⟨i, a, -, -, rfl, -, measured⟩ := probe
      exact measured.rtt_eq
    · obtain ⟨a, -, sock, measured⟩ := slow
      rw [← sock]
      exact measured.rtt_eq

theorem measurements_framed : ∃ s stats a, Reach (next .nanoseconds) Timely (boot 0) s ∧
    s.client.m_owdRoundStats[0]? = some stats ∧ a.tag = slowTag 1 ∧ s.MeasuredBy stats a := by
  have reach : Reach (next .nanoseconds) Timely (boot 0)
      (final (next .nanoseconds) (framedRound ++ [framedRoundEnd]) (boot 0)) :=
    .final (by decide +kernel) (by decide +kernel)
  obtain ⟨stats, get⟩ : ∃ stats, (final (next .nanoseconds) (framedRound ++ [framedRoundEnd])
      (boot 0)).client.m_owdRoundStats[0]? = some stats :=
    Option.isSome_iff_exists.mp (by decide +kernel)
  have sampled : (final (next .nanoseconds) (framedRound ++ [framedRoundEnd])
      (boot 0)).client.m_rttRoundStats.length = 1 := by decide +kernel
  obtain ⟨-, -, ⟨a, tag, -, measured⟩, -⟩ :=
    (measurements Config.nanoseconds_admissible (.boot 0) reach).2 0 stats (Nat.zero_le 0) get
  rw [sampled] at tag
  exact ⟨_, stats, a, reach, get, tag, measured⟩

end Sys

end OwdPacing
