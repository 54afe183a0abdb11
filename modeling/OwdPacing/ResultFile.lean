import OwdPacing.Dump
import OwdPacing.Experiment

/-!
# The result file

`test.csv` over a run of the experiment.  `EstimateOWDRecv` truncates and writes it when
the last estimation round is over, and nothing else does: an experiment that is aborted
leaves the samples of an older one.  Over paths with fixed delays the delays alone
determine what it says.
-/

namespace OwdPacing

open Container OWdClientBasic Round Runs StateError

/-- The records that an effect dumps. -/
def Effect.dumped? : Effect → Option (List RoundStats)
  | .dumpOwdSamples samples => some samples
  | .send _ _ | .schedule _ _ _ _ => none

/-- What a handler has dumped, whether it has ended or stopped. -/
def dumped (result : EStateM.Result Failure OWdClientBasic Unit) : List (List RoundStats) :=
  (stateOf result).effects.filterMap Effect.dumped?

namespace Sys

/-- What an event dumps. -/
def dumpedBy (cfg : Config) (s : Sys) (e : Event) : List (List RoundStats) :=
  match s.packets[e.packet]? with
  | none => []
  | some p =>
    match p.stage with
    | .toClient seqTs _ _ => dumped ((handleRecv cfg e.time p.sock [seqTs]).run s.client)
    | .scheduled _ | .toServer _ _ | .delivered => []

/-- What an event leaves in `test.csv`, which every dump truncates. -/
def writeFile (cfg : Config) (int time : Int → Text) (s : Sys) (e : Event) (file : Option Text) :
    Option Text :=
  (s.dumpedBy cfg e).foldl (fun _ samples => some (dumpOwdSamples cfg int time samples)) file

variable {cfg : Config} {earlier : Nat} {ρ : Round} {s s' s₁ s₀ : Sys} {c c₁ c₀ : OWdClientBasic}
  {now : Int} {i r : Nat} {p : Packet} {e : Event} {fast : Socket} {E start sentAt servedAt : Int}
  {seqTs : SeqTsHeader}

/-! ## The dump of a step -/

/-- A round that starts dumps nothing. -/
theorem dumped_samplingStarted (effects : c.effects = []) :
    dumped (.ok () (samplingStarted now c)) = [] := by
  unfold dumped samplingStarted stateOf
  rw [effects]
  rfl

theorem dumped_estimationStarted (effects : c.effects = []) :
    dumped (.ok () (estimationStarted cfg fast now c)) = [] := by
  unfold dumped estimationStarted stateOf roundEffects
  dsimp only
  rw [effects, List.nil_append, List.filterMap_cons_none rfl, List.filterMap_map,
    List.filterMap_eq_nil_iff]
  exact fun i _ => rfl

/-- The end of an RTT round dumps nothing. -/
theorem TakenIn.dumped_sampling (h : TakenIn cfg earlier ⟨r, .sampling, start⟩ c s₁ c₁)
    (adm : cfg.Admissible) : dumped ((closeRttRound cfg now).run c₁) = [] := by
  have sampling : SamplingStarted cfg c := h.kind
  have mode : c₁.m_currentMode = .RTTSampling := h.sameRound.mode.trans sampling.mode
  have effects : c₁.effects = [] := h.sameRound.effects.trans h.started.effects
  obtain ⟨none, estimating, chosen⟩ := h.rttSwitched_spec
  rw [run_closeRttRound mode h.idle adm]
  split_ifs
  · rcases h.rttClosed_forwardFastSubflow.2 with unknown | found
    · rw [run_startNewOwdEstimationRound_of_neg estimating h.idle (by rw [chosen, unknown]; decide)]
      unfold dumped stateOf
      change c₁.effects.filterMap Effect.dumped? = []
      rw [effects, List.filterMap_nil]
    · rw [run_startNewOwdEstimationRound now 1 estimating h.idle adm.probes_le
        (chosen.trans found)]
      exact dumped_estimationStarted effects
  · exact dumped_samplingStarted effects

/-- The end of an estimation round dumps all records if it is the last one. -/
theorem TakenIn.dumped_estimation
    (h : TakenIn cfg earlier ⟨r, .estimation fast E, start⟩ c s₁ c₁) (adm : cfg.Admissible) :
    dumped ((closeOwdRound cfg now).run c₁) =
      if cfg.owdMaxRounds.toNat ≤ c.m_owdRoundStats.length + 1 then
        [(owdClosed cfg fast c₁).m_owdRoundStats]
      else [] := by
  have effects : (owdClosed cfg fast c₁).effects = [] :=
    h.sameRound.effects.trans h.started.effects
  obtain ⟨-, -, closed⟩ := h.closeOwdRound_eq adm now
  rw [closed]
  split_ifs
  · unfold dumped stateOf ask
    dsimp only
    rw [effects]
    rfl
  · exact dumped_estimationStarted effects

/-- What the client dumps when it has taken in the last echo of a round. -/
theorem Running.dumped_close (h : s.Running cfg earlier ρ c) (adm : cfg.Admissible)
    (get : s.packets[i]? = some p) (stage : p.stage = .toClient seqTs sentAt servedAt)
    (one : s.outstanding = 1) :
    dumped ((handleRecv cfg now p.sock [seqTs]).run s.client) =
      if (s.recv cfg now i p seqTs sentAt servedAt).client.m_owdRoundStats.length =
          cfg.owdMaxRounds.toNat then
        [(s.recv cfg now i p seqTs sentAt servedAt).client.m_owdRoundStats]
      else [] := by
  have taken := h.takenIn now adm.probes_pos get stage one
  have closes := h.close now adm get stage one
  have stores := closes.stores
  have handler := h.run_handleRecv now get stage
  rw [if_pos one] at handler
  rw [handler]
  rcases ρ with ⟨r, _ | ⟨fast, E⟩, start⟩
  · have sampling : SamplingStarted cfg c := h.kind
    have none : (s.recv cfg now i p seqTs sentAt servedAt).client.m_owdRoundStats = [] :=
      stores.2.trans sampling.first
    rw [if_neg (by rw [none]; exact Nat.ne_of_lt adm.owdRounds_pos)]
    exact taken.dumped_sampling adm
  · have estimation : EstimationStarted cfg fast E start c := h.kind
    have more := estimation.more
    have records := stores.2
    have same : (s.recv cfg now i p seqTs sentAt servedAt).receivedIn r =
        (s.deliver now i p seqTs sentAt servedAt).receivedIn r := by
      rw [receivedIn, closes.receivedLog]
      rfl
    have all : cfg.owdMaxRounds.toNat ≤ c.m_owdRoundStats.length + 1 ↔
        c.m_owdRoundStats.length + 1 = cfg.owdMaxRounds.toNat := by omega
    dsimp only at records
    rw [same] at records
    rw [records, List.length_append, List.length_singleton]
    have dumped : dumped ((closeOwdRound cfg now).run _) = _ := taken.dumped_estimation adm
    rw [taken.owdClosed_spec.2.1, if_congr all rfl rfl] at dumped
    exact dumped

/-- The records that an event dumps: all of them when it completes them, else none. -/
theorem Invariant.dumpedBy (h : s.Invariant cfg c₀) (adm : cfg.Admissible)
    (step : s.next cfg e = some s') :
    s.dumpedBy cfg e =
      if s'.client.m_owdRoundStats.length = cfg.owdMaxRounds.toNat then
        [s'.client.m_owdRoundStats]
      else [] := by
  obtain ⟨-, p, get, cases⟩ := next_cases step
  have mem : p ∈ s.packets := List.mem_of_getElem? get
  unfold Sys.dumpedBy
  rw [get]
  dsimp only
  rcases cases with ⟨due, stage, rfl⟩ | ⟨seqTs, sentAt, stage, rfl⟩ |
    ⟨seqTs, sentAt, servedAt, stage, rfl⟩
  · obtain ⟨ρ, c, run⟩ := h.running mem (Carries.outstanding_of_scheduled stage)
    rw [stage, if_neg ((run.fire get stage).rounds_ne adm)]
  · obtain ⟨ρ, c, run⟩ := h.running mem (Carries.outstanding_of_toServer stage)
    rw [stage, if_neg ((run.serve e.time get stage).1.rounds_ne adm)]
  · obtain ⟨ρ, c, run⟩ := h.running mem (Carries.outstanding_of_toClient stage)
    rw [stage]
    dsimp only
    by_cases one : s.outstanding = 1
    · exact run.dumped_close adm get stage one
    · have handler := run.run_handleRecv e.time get stage
      rw [if_neg one] at handler
      rw [handler, if_neg ((run.recv e.time get stage one).1.rounds_ne adm)]
      unfold dumped stateOf
      dsimp only
      rw [replay_sameRound.effects, run.started.effects, List.filterMap_nil]

/-! ## The file over a run -/

variable {int time : Int → Text} {old : Option Text} {x : Sys × Option Text} {paths : Paths}
  {t₀ : Int}

/-- A state in which something can happen misses an estimation round. -/
theorem Invariant.rounds_ne (h : s.Invariant cfg c₀) (adm : cfg.Admissible)
    (step : s.next cfg e = some s') :
    s.client.m_owdRoundStats.length ≠ cfg.owdMaxRounds.toNat := by
  rcases h.phase with ⟨ρ, c, run⟩ | quiet
  · exact run.rounds_ne adm
  · rw [quiet.next_eq_none] at step
    cases step

/-- The file in every state of a run. -/
theorem file_of_reach (start : Start cfg s₀) (adm : cfg.Admissible)
    (reach : Reach (observed (next cfg) (writeFile cfg int time)) anyEvent (s₀, old) x) :
    x.2 = if x.1.client.m_owdRoundStats.length = cfg.owdMaxRounds.toNat then
      some (dumpOwdSamples cfg int time x.1.client.m_owdRoundStats) else old := by
  refine reach.invariant (I := fun x => x.2 = if x.1.client.m_owdRoundStats.length =
    cfg.owdMaxRounds.toNat then some (dumpOwdSamples cfg int time x.1.client.m_owdRoundStats)
    else old) ?_ fun {x x' e} before file _ step => ?_
  · obtain ⟨ρ, c, -, run, -⟩ := start.launched adm
    exact (if_neg (run.rounds_ne adm)).symm
  · have inv : x.1.Invariant cfg s₀.client :=
      start.reach adm (Reach.of_observed (G := anyEvent) before)
    obtain ⟨s', taken, rfl⟩ := Option.map_eq_some_iff.mp step
    rw [if_neg (inv.rounds_ne adm taken)] at file
    dsimp only
    rw [writeFile, inv.dumpedBy adm taken, file]
    split_ifs <;> rfl

/-- **`test.csv` holds the samples of a run exactly when it is complete.**  In every state of
a run, in whatever order the packets take their steps, the file says what it said at the
start, until the last estimation round is over; then it is the dump of all records of
the run, and nothing happens any more. -/
theorem result_file (start : Start cfg s₀) (adm : cfg.Admissible)
    (reach : Reach (observed (next cfg) (writeFile cfg int time)) anyEvent (s₀, old) x) :
    (x.1.client.m_owdRoundStats.length ≠ cfg.owdMaxRounds.toNat → x.2 = old) ∧
    (x.1.client.m_owdRoundStats.length = cfg.owdMaxRounds.toNat →
      x.2 = some (dumpOwdSamples cfg int time x.1.client.m_owdRoundStats) ∧
      ∀ e, x.1.next cfg e = none) := by
  have file := file_of_reach start adm reach
  have inv : x.1.Invariant cfg s₀.client :=
    start.reach adm (Reach.of_observed (G := anyEvent) reach)
  refine ⟨fun missing => file.trans (if_neg missing), fun all => ⟨file.trans (if_pos all), ?_⟩⟩
  intro e
  by_contra some
  obtain ⟨s', step⟩ := Option.ne_none_iff_exists'.mp some
  exact inv.rounds_ne adm step all

/-- The run of `main`, but for the delay of the first forward path, with its result file. -/
theorem mainDelays_observed (forward0 : Nat) (slower : 10 < forward0) :
    ∃ s file, Reach (observed (next .ofMain) (writeFile .ofMain integers.text milliseconds.text))
        (fun x e => x.1.Paced (mainDelays forward0) e) (boot 0, none) (s, file) ∧
      s.client.m_owdRoundStats.length = 20 ∧ s.agenda (mainDelays forward0) = [] := by
  obtain ⟨s, reach, done⟩ := mainDelays_done forward0
  have outcome := paced_outcome Config.ofMain_admissible (Int.le_refl 0) reach done
  obtain ⟨file, observed⟩ := reach.exists_observed
    (writeFile .ofMain integers.text milliseconds.text) none
  exact ⟨s, file, observed, (outcome.2.1 (Int.ofNat_lt.mpr slower)).2.1, done⟩

theorem result_file_main : ∃ s samples,
    Reach (observed (next .ofMain) (writeFile .ofMain integers.text milliseconds.text)) anyEvent
      (boot 0, none) (s, some (dumpOwdSamples .ofMain integers.text milliseconds.text samples)) ∧
    samples.length = 20 := by
  obtain ⟨s, file, reach, all, -⟩ := mainDelays_observed 30 (by decide)
  have written := ((result_file (.boot 0) Config.ofMain_admissible reach.any).2 all).1
  dsimp only at written
  rw [written] at reach
  exact ⟨s, s.client.m_owdRoundStats, reach.any, all⟩

/-- **The experiment is reproducible.**  When the difference of the forward delays is not a
whole number of steps of 2 ms, the delays alone determine the estimation records of every
run, whatever the order of simultaneous events.  When nothing is left to do, `test.csv`
is the dump of the records so determined if socket 1 has the forward path that is faster,
and what it was before if socket 0 has. -/
theorem experiment_determined (adm : cfg.Admissible) (nonneg : 0 ≤ t₀)
    (off : ¬ cfg.milliSeconds 2 ∣ paths.forward 0 - paths.forward 1)
    (reach : Reach (observed (next cfg) (writeFile cfg int time)) (fun x e => x.1.Paced paths e)
      (boot t₀, old) x) :
    x.1.client.m_owdRoundStats = paths.records cfg x.1.client.m_owdRoundStats.length ∧
    (x.1.agenda paths = [] →
      x.2 = if paths.forward 1 < paths.forward 0 then
          some (dumpOwdSamples cfg int time (paths.records cfg cfg.owdMaxRounds.toNat))
        else old) := by
  have run : Reach (next cfg) (Paced paths) (boot t₀) x.1 := reach.of_observed
  have records := paced_records adm nonneg run off
  refine ⟨records, fun done => ?_⟩
  obtain ⟨-, finished, aborted⟩ := paced_outcome adm nonneg run done
  have file := file_of_reach (.boot t₀) adm reach.any
  by_cases faster : paths.forward 1 < paths.forward 0
  · obtain ⟨-, all, -⟩ := finished faster
    rw [all] at records
    rw [file, if_pos all, if_pos faster, records]
  · have differ : paths.forward 0 ≠ paths.forward 1 := by
      intro same
      apply off
      rw [same, sub_self]
      exact dvd_zero _
    obtain ⟨-, none, -⟩ := aborted (lt_of_le_of_ne (not_lt.mp faster) differ)
    have some := adm.owdRounds_pos
    rw [file, if_neg faster, if_neg (by rw [none]; exact Nat.ne_of_lt some)]

theorem experiment_determined_main : ∃ s,
    Reach (observed (next .ofMain) (writeFile .ofMain integers.text milliseconds.text))
      (fun x e => x.1.Paced (mainDelays 31) e) (boot 0, none)
      (s, some (dumpOwdSamples .ofMain integers.text milliseconds.text
        ((mainDelays 31).records .ofMain 20))) := by
  obtain ⟨s, file, reach, -, done⟩ := mainDelays_observed 31 (by decide)
  obtain ⟨-, ends⟩ :=
    experiment_determined Config.ofMain_admissible (Int.le_refl 0) (by decide) reach
  have written := ends done
  rw [if_pos (by decide)] at written
  dsimp only at written
  rw [written] at reach
  exact ⟨s, reach⟩

end Sys

end OwdPacing
