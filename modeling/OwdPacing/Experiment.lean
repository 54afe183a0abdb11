import OwdPacing.ChosenSubflow
import OwdPacing.Paced
import OwdPacing.SteadyRecords

/-!
# The experiment

The whole run of the application over paths with fixed delays: which of the two ways
it ends, what every record says, and how long it takes.  The forward estimates climb
from zero in steps of two milliseconds as far as the windows of the probes reach, until
the difference of the two forward delays lies within one step.
-/

namespace OwdPacing

open Container Numeric OWdClientBasic Round Runs

namespace Config

variable {cfg : Config}

/-- The probes after an estimate on the grid of two milliseconds are on it, too. -/
theorem probeOffset_grid (m : Nat) :
    cfg.probeOffset (m * cfg.gap) = gridPoint cfg.gap (cfg.probes / 2) m := by
  funext i
  have above : ((m - cfg.probes / 2 : Nat) : Int) = m - min ((cfg.probes : Int) / 2) m := by omega
  unfold probeOffset shift gridPoint
  rw [Int.mul_ediv_cancel _ cfg.gap_pos.ne']
  push_cast
  rw [above]
  ring

/-- The constants of the constructors, with the clock of milliseconds that `main` sets. -/
def ofMain : Config := constructed 1 Nat.one_pos

theorem ofMain_admissible : ofMain.Admissible := constructed_admissible _ _

/-- How many steps of two milliseconds the estimates of `k` rounds can climb. -/
def climb (cfg : Config) (k : Nat) : Nat := Numeric.climb (cfg.probes / 2) (cfg.probes - 1) k

end Config

namespace Paths

variable (cfg : Config) (paths : Paths)

/-- Forward, socket 0's path takes this much longer than that of socket 1. -/
def forwardDelta : Int := paths.forward 0 - paths.forward 1

/-- The forward estimate after `k` rounds. -/
def estimate (k : Nat) : Int :=
  (min (paths.forwardDelta / cfg.gap).toNat (cfg.climb k) : Nat) * cfg.gap

/-- The first `n` records of the experiment. -/
def records (n : Nat) : List RoundStats :=
  (List.range n).map fun k =>
    steadyStats cfg 1 paths.forward paths.reverse (paths.estimate cfg k)
      (paths.estimate cfg (k + 1))

end Paths

namespace Sys

variable {cfg : Config} {paths : Paths} {s s₀ : Sys} {c c₀ : OWdClientBasic} {r k : Nat}
  {begin t₀ D : Int} {stats : RoundStats} {forward reverse : Socket → Int} {sock : Socket}

/-! ## Estimates from zero -/

/-- While the delays are constant the estimates climb the grid from zero. -/
theorem estimate_climbs (adm : cfg.Admissible) (start : Start cfg s₀)
    (reach : Reach (next cfg) Simulated s₀ s) (fresh : s₀.client.m_owdRoundStats = [])
    (nonneg : 0 ≤ D) (steady : ∀ i < k, s.Steady i D) :
    ∃ m : Nat, estimateAfter s.client.m_owdRoundStats k = m * cfg.gap ∧ m * cfg.gap ≤ D ∧
      m ≤ cfg.climb k ∧ (m = cfg.climb k ∨ D ≤ (m + 1 : Nat) * cfg.gap) := by
  have half : cfg.probes / 2 ≤ cfg.probes - 1 := by
    have nonempty : 1 ≤ cfg.probes := adm.probes_pos
    omega
  refine climb_of_search cfg.gap_pos nonneg half rfl fun i lt m onGrid => ?_
  obtain ⟨E, fast, begin, c, forward, reverse, previous, -, rfl, round, next⟩ :=
    (steady i lt).round adm start reach (by rw [fresh]; exact Nat.zero_le i)
  have search := round.search adm.probes_pos
  rwa [← next, previous, onGrid, Config.probeOffset_grid] at search

/-! ## Sampling over paths with fixed delays -/

theorem ConstantDelays.receivedIn (h : ConstantDelays s.receivedLog forward reverse) (r : Nat) :
    ConstantDelays (s.receivedIn r) forward reverse where
  forward a mem := h.forward a (List.mem_of_mem_filter mem)
  reverse a mem := h.reverse a (List.mem_of_mem_filter mem)

/-- The server processes first the packet on a path that is not slower. -/
theorem RoundOver.le_of_firstServed (h : RoundOver cfg ⟨r, .sampling, begin⟩ c s stats)
    (onTime : s.OnTime) (clocked : s.Clocked) (nodup : s.served.Nodup)
    (delays : ConstantDelays (s.receivedIn r) forward reverse)
    (first : FirstServed s.served r sock) : forward sock ≤ forward sock.other := by
  have logged : ∀ sock, ⟨onSocket r sock, begin + forward sock⟩ ∈ s.servedLog := by
    intro sock
    obtain ⟨a, mem, rfl⟩ := h.echoes.sampling_exists sock
    obtain ⟨tag, sent, -, -⟩ := h.echoes.sampling mem
    obtain ⟨call, -, same, -, echo⟩ := h.echoes.fromPlan a mem
    have entry := echo.logged
    rwa [← same, tag, delays.forward a mem,
      (onTime.arrivals a (List.mem_of_mem_filter mem)).1, sent] at entry
  have order :=
    time_le_of_before clocked.served.sorted nodup (logged sock) (logged sock.other) first
  exact le_of_add_le_add_left order

theorem boot_now (now : Int) : (boot now).now = now := afterHandler_now _

section Fixed

variable (adm : cfg.Admissible) (nonneg : 0 ≤ t₀)
  (reach : Reach (next cfg) (Paced paths) (boot t₀) s)

include adm nonneg reach

theorem paced_simulated : Reach (next cfg) Simulated (boot t₀) s ∧
    ConstantDelays s.receivedLog paths.forward paths.reverse :=
  (Start.boot t₀).paced_simulated adm ((boot_now t₀).symm ▸ nonneg) reach

/-- The clock and the delays of the echoes in such a run. -/
theorem paced_clocks : s.OnTime ∧ s.Clocked ∧
    ∀ r, ConstantDelays (s.receivedIn r) paths.forward paths.reverse := by
  obtain ⟨simulated, delays⟩ := paced_simulated adm nonneg reach
  have timely := simulated.mono fun _ _ guard => guard.1
  exact ⟨(Start.boot t₀).onTime adm timely, (Start.boot t₀).clocked adm timely,
    ConstantDelays.receivedIn delays⟩

/-- An RTT record has measured the delays of the paths. -/
theorem paced_measured (record : s.client.m_rttRoundStats[k]? = Option.some stats) :
    MeasuresDelays stats paths.forward paths.reverse := by
  obtain ⟨onTime, -, delays⟩ := paced_clocks adm nonneg reach
  obtain ⟨begin, c, -, ended⟩ :=
    ((Start.boot t₀).reach adm reach).history.sampled k stats (Nat.zero_le k) record
  exact ended.sampled_measuresDelays onTime (delays k)

/-- In each round the server processes first the packet on a path that is not slower. -/
theorem paced_firstServed (lt : k < s.client.m_rttRoundStats.length)
    (first : FirstServed s.served k sock) : paths.forward sock ≤ paths.forward sock.other := by
  obtain ⟨onTime, clocked, delays⟩ := paced_clocks adm nonneg reach
  have inv := (Start.boot t₀).reach adm reach
  obtain ⟨begin, c, ended⟩ := inv.history.sampledRound rfl lt
  exact ended.le_of_firstServed onTime clocked inv.servedNodup (delays k) first

/-- A fast subflow that sampling has found is socket 1, whose path is not slower. -/
theorem paced_found (found : 0 ≤ (back s.client.m_rttRoundStats).ForwardFastSubflow) :
    (back s.client.m_rttRoundStats).ForwardFastSubflow = ((1 : Socket) : Nat) ∧
      0 ≤ paths.forwardDelta := by
  have history := ((Start.boot t₀).reach adm reach).history
  obtain ⟨k, lt, first⟩ := history.exists_firstServed_one rfl found
  have le := paced_firstServed adm nonneg reach lt first
  exact ⟨history.found_one rfl found, Int.sub_nonneg.mpr le⟩

/-- And when sampling has found none, that of socket 0 is not slower. -/
theorem paced_notFound (some : s.client.m_rttRoundStats ≠ [])
    (unknown : (back s.client.m_rttRoundStats).ForwardFastSubflow = -1) :
    paths.forwardDelta ≤ 0 := by
  have all := ((Start.boot t₀).reach adm reach).history.unknown_iff rfl (Nat.le_refl _)
  rw [List.take_length] at all
  have lt := List.length_pos_iff.mpr some
  exact Int.sub_nonpos_of_le (paced_firstServed adm nonneg reach lt (all.mp unknown 0 lt))

/-- The estimation rounds of the experiment. -/
theorem paced_estimated (record : s.client.m_owdRoundStats[k]? = Option.some stats) :
    s.Steady k paths.forwardDelta ∧ stats.ForwardFastSubflow = ((1 : Socket) : Nat) ∧
      0 ≤ paths.forwardDelta := by
  obtain ⟨-, -, delays⟩ := paced_clocks adm nonneg reach
  obtain ⟨fast, E, begin, c, rtt, -, ended⟩ :=
    ((Start.boot t₀).reach adm reach).history.estimated k stats (Nat.zero_le k) record
  have estimation : EstimationStarted cfg fast E begin c := ended.kind
  obtain ⟨one, order⟩ := paced_found adm nonneg reach (rtt ▸ estimation.found)
  have chosen := ((chosen_of_reach adm reach.any).records stats
    (List.mem_of_getElem? record)).trans one
  exact ⟨⟨stats, 1, paths.forward, paths.reverse, record, chosen, delays _, rfl⟩, chosen, order⟩

/-- The estimates of the experiment. -/
theorem paced_climbs (le : k ≤ s.client.m_owdRoundStats.length) (order : 0 ≤ paths.forwardDelta) :
    ∃ m : Nat, estimateAfter s.client.m_owdRoundStats k = m * cfg.gap ∧
      m * cfg.gap ≤ paths.forwardDelta ∧ m ≤ cfg.climb k ∧
      (m = cfg.climb k ∨ paths.forwardDelta ≤ (m + 1 : Nat) * cfg.gap) := by
  refine estimate_climbs adm (.boot t₀) (paced_simulated adm nonneg reach).1 rfl order ?_
  intro i lt
  have get := List.getElem?_eq_getElem (Nat.lt_of_lt_of_le lt le)
  exact (paced_estimated adm nonneg reach get).1

/-- Off the grid of two milliseconds they are determined. -/
theorem paced_estimate (off : ¬ cfg.gap ∣ paths.forwardDelta)
    (le : k ≤ s.client.m_owdRoundStats.length) (order : 0 ≤ paths.forwardDelta) :
    estimateAfter s.client.m_owdRoundStats k = paths.estimate cfg k := by
  obtain ⟨m, eq, below, bound, reached⟩ := paced_climbs adm nonneg reach le order
  have pos := cfg.gap_pos
  have steps : ((paths.forwardDelta / cfg.gap).toNat : Int) = paths.forwardDelta / cfg.gap :=
    Int.toNat_of_nonneg (Int.ediv_nonneg order pos.le)
  have rest := Int.emod_add_mul_ediv paths.forwardDelta cfg.gap
  have some := Int.emod_pos_of_not_dvd off
  have less := Int.emod_lt_of_pos paths.forwardDelta pos
  rw [eq, eq_of_climb pos (n := (paths.forwardDelta / cfg.gap).toNat) ?_ ?_ below bound reached]
  · rfl
  · rw [steps, mul_comm]
    omega
  · push_cast
    rw [steps, add_mul, mul_comm]
    omega

/-- Off the grid the whole record is. -/
theorem paced_record (off : ¬ cfg.gap ∣ paths.forwardDelta)
    (record : s.client.m_owdRoundStats[k]? = Option.some stats) :
    stats = steadyStats cfg 1 paths.forward paths.reverse (paths.estimate cfg k)
      (paths.estimate cfg (k + 1)) := by
  obtain ⟨onTime, clocked, delays⟩ := paced_clocks adm nonneg reach
  have simulated := (paced_simulated adm nonneg reach).1
  have start : Start cfg (boot t₀) := .boot t₀
  have lt := (List.getElem?_eq_some_iff.mp record).1
  obtain ⟨-, chosen, order⟩ := paced_estimated adm nonneg reach record
  obtain ⟨fast, begin, c, -, ended⟩ :=
    (start.reach adm reach).history.estimatedFrom (Nat.zero_le k) record
  obtain rfl : fast = 1 := Fin.ext (Int.ofNat_inj.mp (ended.estimated_fast.symm.trans chosen))
  have before := paced_estimate adm nonneg reach off lt.le order
  have after := paced_estimate adm nonneg reach off lt order
  rw [estimateAfter, record, Option.getD_some] at after
  rw [before] at ended
  have round := ended.steadyRound adm start simulated (delays _)
  -- all probes are sent on the grid, so none ties with the slow packet
  have apart : ∀ i, cfg.probeOffset (paths.estimate cfg k) i ≠ paths.forwardDelta := by
    intro i tie
    apply off
    rw [← tie, Paths.estimate, Config.probeOffset_grid]
    exact dvd_mul_left _ _
  rw [← after]
  exact ended.eq_steadyStats round adm.probes_pos onTime clocked (apart 0) (apart _)

/-- So the records of every run are those that the delays alone determine, whatever the
order of simultaneous events. -/
theorem paced_records (off : ¬ cfg.gap ∣ paths.forwardDelta) :
    s.client.m_owdRoundStats = paths.records cfg s.client.m_owdRoundStats.length := by
  apply List.ext_getElem?
  intro k
  unfold Paths.records
  rcases Nat.lt_or_ge k s.client.m_owdRoundStats.length with lt | ge
  · have get := List.getElem?_eq_getElem lt
    rw [get, List.getElem?_map, List.getElem?_range lt, Option.map_some]
    exact congrArg Option.some (paced_record adm nonneg reach off get)
  · rw [List.getElem?_eq_none ge, List.getElem?_eq_none]
    rwa [List.length_map, List.length_range]

/-- How a run ends on whose agenda nothing is left. -/
theorem paced_outcome (done : s.agenda paths = []) :
    s.client.m_rttRoundStats.length = cfg.sampleRTTmaxRounds.toNat ∧
      (paths.forward 1 < paths.forward 0 →
        s.halted = none ∧ s.client.m_owdRoundStats.length = cfg.owdMaxRounds.toNat ∧
          s.dumps = 1) ∧
      (paths.forward 0 < paths.forward 1 →
        s.halted = some .startNewOwdEstimationRound_forwardFastSubflow ∧
          s.client.m_owdRoundStats = [] ∧ s.dumps = 0) := by
  rcases ((Start.boot t₀).reach adm reach).phase with ⟨ρ, c, run⟩ | quiet
  · exact absurd (agenda_eq_nil_iff.mp done) (Nat.ne_of_gt run.busy)
  · cases quiet.outcome with
    | finished running mode sampled all found dumps =>
        have order := (paced_found adm nonneg reach found).2
        refine ⟨sampled, fun _ => ⟨running, all, dumps⟩, fun slower => ?_⟩
        exact absurd (sub_nonneg.mp order) (not_le.mpr slower)
    | aborted halted none all unknown dumps =>
        have rounds := adm.sampleRounds_pos
        have some : s.client.m_rttRoundStats ≠ [] := by
          rw [← List.length_pos_iff, all]
          exact rounds
        have order := paced_notFound adm nonneg reach some unknown
        refine ⟨all, fun faster => ?_, fun _ => ⟨halted, none, dumps⟩⟩
        exact absurd (sub_nonpos.mp order) (not_le.mpr faster)

end Fixed

/-- The delays of `main` when the command line gives none, in milliseconds, but for the
one of the first forward path. -/
def mainDelays (forward0 : Nat) : Paths where
  forward sock := if sock = 0 then forward0 else 10
  reverse sock := if sock = 0 then 50 else 70
  forward_nonneg sock := by split_ifs <;> omega
  reverse_nonneg := by decide
  rtt_pos sock := by split_ifs <;> omega

/-- The run of `main`, but for the delay of the first forward path, to its end. -/
theorem mainDelays_done (forward0 : Nat) :
    ∃ s, Reach (next .ofMain) (Paced (mainDelays forward0)) (boot 0) s ∧
      s.agenda (mainDelays forward0) = [] :=
  ⟨_, reach_simulate (4 * totalPackets .ofMain),
    (Start.boot 0).agenda_simulate Config.ofMain_admissible (Nat.le_refl _)⟩

theorem mainDelays_finished (forward0 : Nat) (slower : 10 < forward0) :
    ∃ s, Reach (next .ofMain) (Paced (mainDelays forward0)) (boot 0) s ∧ s.halted = none ∧
      s.client.m_owdRoundStats.length = 20 ∧ s.dumps = 1 := by
  obtain ⟨s, reach, done⟩ := mainDelays_done forward0
  have outcome := paced_outcome Config.ofMain_admissible (Int.le_refl 0) reach done
  exact ⟨s, reach, outcome.2.1 (Int.ofNat_lt.mpr slower)⟩

/-- **What the experiment records.**  In every state of a run over paths with fixed
delays every record has measured exactly these delays; the estimation records name socket 1
as the forward fast path, which it is; and the forward estimate of the `k`-th of them
is a whole number of steps of 2 ms below the difference of the forward delays, namely as
many as `k + 1` rounds can climb, or so many that no further step fits strictly. -/
theorem experiment_records (adm : cfg.Admissible) (nonneg : 0 ≤ t₀)
    (reach : Reach (next cfg) (Paced paths) (boot t₀) s) :
    (∀ stats ∈ s.client.m_rttRoundStats ++ s.client.m_owdRoundStats,
      MeasuresDelays stats paths.forward paths.reverse) ∧
    ∀ k stats, s.client.m_owdRoundStats[k]? = some stats →
      stats.ForwardFastSubflow = (((1 : Socket) : Nat) : Int) ∧
      paths.forward 1 ≤ paths.forward 0 ∧
      ∃ m : Nat, stats.EstimatedForwardDeltaOWD = m * cfg.milliSeconds 2 ∧
        m * cfg.milliSeconds 2 ≤ paths.forward 0 - paths.forward 1 ∧ m ≤ cfg.climb (k + 1) ∧
        (m = cfg.climb (k + 1) ∨
          paths.forward 0 - paths.forward 1 ≤ (m + 1 : Nat) * cfg.milliSeconds 2) := by
  obtain ⟨onTime, clocked, delays⟩ := paced_clocks adm nonneg reach
  have history := ((Start.boot t₀).reach adm reach).history
  constructor
  · intro stats mem
    rcases List.mem_append.mp mem with sampled | estimated
    · obtain ⟨k, get⟩ := List.getElem?_of_mem sampled
      exact paced_measured adm nonneg reach get
    · obtain ⟨k, get⟩ := List.getElem?_of_mem estimated
      obtain ⟨fast, E, begin, c, -, -, ended⟩ := history.estimated k stats (Nat.zero_le k) get
      exact ended.estimated_measuresDelays adm.probes_pos onTime clocked (delays _)
  · intro k stats record
    obtain ⟨-, chosen, order⟩ := paced_estimated adm nonneg reach record
    have lt := (List.getElem?_eq_some_iff.mp record).1
    have climbs := paced_climbs adm nonneg reach (k := k + 1) lt order
    rw [estimateAfter, record, Option.getD_some] at climbs
    exact ⟨chosen, Int.sub_nonneg.mp order, climbs⟩

theorem experiment_records_main : ∃ s stats,
    Reach (next .ofMain) (Paced (mainDelays 30)) (boot 0) s ∧
    s.client.m_owdRoundStats[19]? = some stats ∧
    18 ≤ stats.EstimatedForwardDeltaOWD ∧ stats.EstimatedForwardDeltaOWD ≤ 20 := by
  obtain ⟨s, reach, -, all, -⟩ := mainDelays_finished 30 (by decide)
  have get := List.getElem?_eq_getElem (l := s.client.m_owdRoundStats) (i := 19) (by omega)
  obtain ⟨-, -, m, estimate, low, -, reached⟩ :=
    (experiment_records Config.ofMain_admissible (Int.le_refl 0) reach).2 19 _ get
  have step : Config.ofMain.milliSeconds 2 = 2 := by decide
  have climb : Config.ofMain.climb 20 = 21 := by decide
  have difference : (mainDelays 30).forward 0 - (mainDelays 30).forward 1 = 20 := by decide
  rw [step, difference] at low reached
  rw [climb] at reached
  rw [step] at estimate
  refine ⟨s, _, reach, get, ?_⟩
  omega

/-- **How the experiment ends.**  The event loop never stalls, and with four events for
each packet of all rounds to spend it ends.  Whatever the order of simultaneous events,
it ends with all records and the dump when socket 1 has the forward path that is faster,
and in the assertion on the fast subflow when socket 0 has. -/
theorem experiment_ends (adm : cfg.Admissible) (nonneg : 0 ≤ t₀) :
    (∀ s e, Reach (next cfg) (Paced paths) (boot t₀) s → e ∈ s.agenda paths →
      (s.next cfg e).isSome) ∧
    (∀ fuel, 4 * totalPackets cfg ≤ fuel →
      (simulate cfg paths fuel (boot t₀)).agenda paths = []) ∧
    ∀ s, Reach (next cfg) (Paced paths) (boot t₀) s → s.agenda paths = [] →
      s.client.m_rttRoundStats.length = cfg.sampleRTTmaxRounds.toNat ∧
      (paths.forward 1 < paths.forward 0 →
        s.halted = none ∧ s.client.m_owdRoundStats.length = cfg.owdMaxRounds.toNat ∧
          s.dumps = 1) ∧
      (paths.forward 0 < paths.forward 1 →
        s.halted = some .startNewOwdEstimationRound_forwardFastSubflow ∧
          s.client.m_owdRoundStats = [] ∧ s.dumps = 0) := by
  have start : Start cfg (boot t₀) := .boot t₀
  exact ⟨fun s e reach mem => (start.reach adm reach).next_isSome mem,
    fun fuel enough => start.agenda_simulate adm enough,
    fun s reach done => paced_outcome adm nonneg reach done⟩

theorem experiment_ends_main : ∃ s, Reach (next .ofMain) (Paced (mainDelays 30)) (boot 0) s ∧
    s.halted = none ∧ s.client.m_owdRoundStats.length = 20 ∧ s.dumps = 1 := by
  obtain ⟨-, ends, outcome⟩ := @experiment_ends _ (mainDelays 30) _ Config.ofMain_admissible
    (Int.le_refl 0)
  exact ⟨_, reach_simulate _,
    (outcome _ (reach_simulate _) (ends _ (Nat.le_refl _))).2.1 (by decide)⟩

end Sys

end OwdPacing
