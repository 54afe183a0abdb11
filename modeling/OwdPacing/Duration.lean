import OwdPacing.Experiment

/-!
# How long the experiment takes

Over paths with fixed delays a packet of a round is back a round-trip time after it
was sent, and the last probe is sent at most the estimate and the span of the probes
after the start of the round.  So the rounds follow each other at bounded distances, and
the experiment is over long before the applications are stopped.
-/

namespace OwdPacing

open Container Numeric OWdClientBasic Round Runs

namespace Paths

variable (cfg : Config) (paths : Paths)

/-- The longer round-trip time. -/
def longestRtt : Int :=
  max (paths.forward 0 + paths.reverse 0) (paths.forward 1 + paths.reverse 1)

/-- How long a round takes at most. -/
def roundTime : RoundKind → Int
  | .sampling => paths.longestRtt
  | .estimation _ _ => paths.longestRtt + |paths.forwardDelta| + cfg.gap * (cfg.probes - 1)

/-- How long the rounds take that are over. -/
def elapsed (c : OWdClientBasic) : Int :=
  c.m_rttRoundStats.length * paths.roundTime cfg .sampling +
    c.m_owdRoundStats.length * paths.roundTime cfg (.estimation 1 0)

variable {cfg paths}

theorem rtt_le_longestRtt (sock : Socket) :
    paths.forward sock + paths.reverse sock ≤ paths.longestRtt := by
  revert sock
  rw [Fin.forall_fin_two]
  exact ⟨le_max_left _ _, le_max_right _ _⟩

theorem roundTime_estimation (fast : Socket) (E : Int) :
    paths.roundTime cfg (.estimation fast E) = paths.roundTime cfg (.estimation 1 0) := rfl

theorem roundTime_nonneg (nonempty : 1 ≤ cfg.probes) (kind : RoundKind) :
    0 ≤ paths.roundTime cfg kind := by
  have rtt : 0 ≤ paths.longestRtt := (paths.rtt_pos 0).le.trans (rtt_le_longestRtt 0)
  cases kind with
  | sampling => exact rtt
  | estimation fast E =>
      have span : 0 ≤ cfg.gap * ((cfg.probes : Int) - 1) :=
        Int.mul_nonneg cfg.gap_pos.le (by omega)
      exact add_nonneg (add_nonneg rtt (abs_nonneg _)) span

end Paths

namespace Sys

variable {cfg : Config} {earlier : Nat} {paths : Paths} {s s' : Sys} {ρ : Round}
  {c : OWdClientBasic} {e : Event} {t₀ : Int}

/-- One step inside a round, or to its end. -/
theorem Running.step (h : s.Running cfg earlier ρ c) (adm : cfg.Admissible)
    (step : s.next cfg e = some s') :
    s'.Running cfg earlier ρ c ∨ ∃ s₁, Closes cfg earlier ρ c e.time s₁ s' := by
  obtain ⟨-, p, get, cases⟩ := next_cases step
  rcases cases with ⟨due, stage, rfl⟩ | ⟨seqTs, sentAt, stage, rfl⟩ |
    ⟨seqTs, sentAt, servedAt, stage, rfl⟩
  · exact .inl (h.fire get stage)
  · exact .inl (h.serve e.time get stage).1
  · by_cases one : s.outstanding = 1
    · exact .inr ⟨_, h.close e.time adm get stage one⟩
    · exact .inl (h.recv e.time get stage one).1

/-- A packet of a round in progress is due a round-trip time after its send at most. -/
theorem Running.due_le (h : s.Running cfg earlier ρ c) (onTime : s.OnTime)
    (onPaths : s.OnPaths paths t₀) (mem : e ∈ s.agenda paths) :
    ∃ call ∈ ρ.plan cfg, e.time ≤ call.ts + paths.longestRtt := by
  obtain ⟨p, get, due⟩ := mem_agenda.mp mem
  have member := List.mem_of_getElem? get
  have planned := h.carries.planned member (outstanding_of_dueAt due)
  have forward := paths.forward_nonneg p.sock
  have reverse := paths.reverse_nonneg p.sock
  have rtt := paths.rtt_le_longestRtt p.sock
  have keeps := onPaths.packets p member
  have stamped := onTime.stamped p member
  refine ⟨p.toSendCall, planned, ?_⟩
  unfold Keeps at keeps
  unfold Paths.dueAt at due
  cases stage : p.stage with
  | scheduled time =>
      obtain rfl := h.carries.scheduled p member time stage
      rw [stage] at due
      have eq := Option.some.inj due
      omega
  | toServer seqTs sentAt =>
      have sent := stamped sentAt (by rw [stage]; rfl)
      rw [stage] at due
      have eq := Option.some.inj due
      omega
  | toClient seqTs sentAt servedAt =>
      have sent := stamped sentAt (by rw [stage]; rfl)
      rw [stage] at due keeps
      have eq := Option.some.inj due
      have served := keeps.2
      omega
  | delivered =>
      rw [stage] at due
      cases due

/-- The packets of a round are sent within the span of its probes. -/
theorem ts_le_of_planned {call : SendCall} (nonempty : 1 ≤ cfg.probes)
    (planned : call ∈ ρ.plan cfg)
    (estimate : ∀ fast E, ρ.kind = .estimation fast E → 0 ≤ E ∧ E ≤ |paths.forwardDelta|) :
    call.ts + paths.longestRtt ≤ ρ.start + paths.roundTime cfg ρ.kind := by
  rcases ρ with ⟨r, _ | ⟨fast, E⟩, start⟩
  · rcases mem_plan_sampling.mp planned with rfl | rfl <;> exact Int.le_refl _
  · obtain ⟨nonneg, le⟩ := estimate fast E rfl
    unfold Paths.roundTime
    dsimp only
    rcases mem_plan_estimation.mp planned with rfl | ⟨i, lt, rfl⟩
    · have span : 0 ≤ cfg.gap * ((cfg.probes : Int) - 1) :=
        Int.mul_nonneg cfg.gap_pos.le (by omega)
      have some := abs_nonneg paths.forwardDelta
      dsimp only
      omega
    · have offset : cfg.probeOffset E i ≤ E + cfg.gap * i := Config.probeOffset_le_add nonneg i
      have span : cfg.gap * (i : Int) ≤ cfg.gap * ((cfg.probes : Int) - 1) :=
        Int.mul_le_mul_of_nonneg_left (by omega) cfg.gap_pos.le
      dsimp only
      omega

/-- And none before it starts. -/
theorem start_le_ts_of_planned {call : SendCall} (planned : call ∈ ρ.plan cfg) :
    ρ.start ≤ call.ts := by
  rcases ρ with ⟨r, _ | ⟨fast, E⟩, start⟩
  · rcases mem_plan_sampling.mp planned with rfl | rfl <;> exact Int.le_refl _
  · rcases mem_plan_estimation.mp planned with rfl | ⟨i, -, rfl⟩
    · exact Int.le_refl _
    · exact le_add_of_nonneg_right (Config.probeOffset_nonneg i)

/-- So what the log has of the round in progress was sent after its start. -/
theorem Running.start_le_sent {x : Logged} (h : s.Running cfg earlier ρ c) (onTime : s.OnTime)
    (logged : x ∈ s.sentLog) (round : x.tag.round = ρ.number) : ρ.start ≤ x.time := by
  obtain ⟨call, mem, tag, ts⟩ := onTime.sent x logged
  obtain ⟨p, memP, rfl⟩ := List.mem_map.mp mem
  have current : p.tag.round = ρ.number := (congrArg PacketTag.round tag).trans round
  rcases h.carries.call_mem memP with old | planned
  · exact absurd current (Nat.ne_of_lt old)
  · exact ts ▸ start_le_ts_of_planned planned

/-- The mode of the client is that of the round in progress. -/
theorem Running.roundTime_eq (h : s.Running cfg earlier ρ c) :
    paths.roundTime cfg ρ.kind =
      if s.client.m_currentMode = .RTTSampling then paths.roundTime cfg .sampling
      else paths.roundTime cfg (.estimation 1 0) := by
  have kind := h.kind
  have mode := h.sameRound.mode
  rcases ρ with ⟨r, _ | ⟨fast, E⟩, start⟩
  · have sampling : SamplingStarted cfg c := kind
    rw [if_pos (mode.trans sampling.mode)]
  · have estimation : EstimationStarted cfg fast E start c := kind
    rw [mode, estimation.estimating.mode, if_neg (by decide)]
    exact Paths.roundTime_estimation fast E

/-- Neither the round in progress nor the end comes later than the rounds before allow. -/
inductive InTime (cfg : Config) (earlier : Nat) (paths : Paths) (t₀ : Int) (s : Sys) : Prop
  | running (ρ : Round) (c : OWdClientBasic) (run : s.Running cfg earlier ρ c)
      (start : ρ.start ≤ t₀ + paths.elapsed cfg c)
      (now : s.now ≤ t₀ + paths.elapsed cfg c + paths.roundTime cfg ρ.kind)
  | ended (quiet : s.Quiet cfg earlier) (now : s.now ≤ t₀ + paths.elapsed cfg s.client)

/-- The record of a round takes its time into account. -/
theorem Stores.elapsed {stats : RoundStats} {c' : OWdClientBasic} (h : Stores ρ stats c c') :
    paths.elapsed cfg c' = paths.elapsed cfg c + paths.roundTime cfg ρ.kind := by
  unfold Paths.elapsed
  rcases ρ with ⟨r, _ | ⟨fast, E⟩, start⟩
  · obtain ⟨rtt, owd⟩ := h
    rw [rtt, owd, List.length_append, List.length_singleton]
    push_cast
    ring
  · obtain ⟨rtt, owd⟩ := h
    rw [rtt, owd, List.length_append, List.length_singleton]
    dsimp only
    rw [Paths.roundTime_estimation fast E]
    push_cast
    ring

theorem SameRound.elapsed {c' : OWdClientBasic} (same : SameRound c c') :
    paths.elapsed cfg c' = paths.elapsed cfg c := by
  unfold Paths.elapsed
  rw [same.rtt, same.owd]

/-- A step that comes in time keeps it. -/
theorem Running.inTime_step (h : s.Running cfg earlier ρ c) (adm : cfg.Admissible)
    (start : ρ.start ≤ t₀ + paths.elapsed cfg c)
    (time : e.time ≤ t₀ + paths.elapsed cfg c + paths.roundTime cfg ρ.kind)
    (step : s.next cfg e = some s') : s'.InTime cfg earlier paths t₀ := by
  have now := next_now step
  rcases h.step adm step with run | ⟨s₁, closes⟩
  · exact .running ρ c run start (now ▸ time)
  · have elapsed : paths.elapsed cfg s'.client = _ := Stores.elapsed closes.stores
    cases closes.follows with
    | round ρ' c' run' number begin launched =>
        have same : paths.elapsed cfg s'.client = paths.elapsed cfg c' :=
          SameRound.elapsed run'.sameRound
        have positive : 0 ≤ paths.roundTime cfg ρ'.kind :=
          Paths.roundTime_nonneg adm.probes_pos _
        refine .running ρ' c' run' ?_ ?_ <;> omega
    | nothing quiet => exact .ended quiet (by omega)

/-- The estimate from which a round starts does not exceed the difference. -/
theorem paced_previous (adm : cfg.Admissible) (nonneg : 0 ≤ t₀)
    (reach : Reach (next cfg) (Paced paths) (boot t₀) s) (run : s.Running cfg earlier ρ c)
    {fast : Socket} {E : Int} (kind : ρ.kind = .estimation fast E) :
    0 ≤ E ∧ E ≤ |paths.forwardDelta| := by
  have started := run.kind
  rw [StartedAs, kind] at started
  have estimation : EstimationStarted cfg fast E ρ.start c := started
  have same := run.sameRound
  have order := (paced_found adm nonneg reach (same.rtt ▸ estimation.found)).2
  obtain ⟨m, climbed, below, -⟩ := paced_climbs adm nonneg reach (Nat.le_refl _) order
  have previous : c.previousEstimate = estimateAfter s.client.m_owdRoundStats
      s.client.m_owdRoundStats.length :=
    previousEstimate_of_take (by rw [List.take_length, same.owd]) (Nat.le_refl _)
  have eq : E = m * cfg.gap := estimation.previous.symm.trans (previous.trans climbed)
  have step := cfg.gap_pos
  refine ⟨?_, ?_⟩
  · rw [eq]
    positivity
  · rw [eq]
    exact below.trans (le_abs_self _)

/-- What is due in the round in progress is due within its time. -/
theorem Running.due_le_roundTime (adm : cfg.Admissible) (nonneg : 0 ≤ t₀)
    (reach : Reach (next cfg) (Paced paths) (boot t₀) s) (run : s.Running cfg earlier ρ c)
    (mem : e ∈ s.agenda paths) : e.time ≤ ρ.start + paths.roundTime cfg ρ.kind := by
  obtain ⟨onTime, -, -⟩ := paced_clocks adm nonneg reach
  have onPaths := (Start.boot t₀).paced_onPaths adm reach
  obtain ⟨call, planned, due⟩ := run.due_le onTime onPaths mem
  have sent := ts_le_of_planned adm.probes_pos planned fun fast E kind =>
    paced_previous adm nonneg reach run kind
  exact due.trans sent

theorem paced_inTime (adm : cfg.Admissible) (nonneg : 0 ≤ t₀)
    (reach : Reach (next cfg) (Paced paths) (boot t₀) s) : s.InTime cfg 0 paths t₀ := by
  have init : (boot t₀).InTime cfg 0 paths t₀ := by
    obtain ⟨c, run, -, rtt, owd⟩ := boot_running t₀ adm
    have none : paths.elapsed cfg c = 0 := by
      rw [Paths.elapsed, rtt, owd]
      simp
    have positive : 0 ≤ paths.roundTime cfg .sampling :=
      Paths.roundTime_nonneg adm.probes_pos _
    refine .running _ c run ?_ ?_
    · rw [none, add_zero]
    · rw [boot_now, none, add_zero]
      exact le_add_of_nonneg_right positive
  refine reach.invariant init fun {s s' e} reach inTime paced step => ?_
  cases inTime with
  | running ρ c run begin now =>
      have due := Running.due_le_roundTime adm nonneg reach run paced.1
      exact run.inTime_step adm begin (by omega) step
  | ended quiet now =>
      rw [quiet.next_eq_none] at step
      cases step

section

variable (paths) (adm : cfg.Admissible)

include adm

/-- Rounds that are no more than the intended ones take no longer. -/
theorem rounds_time_le {r k : Nat} (sampled : r ≤ cfg.sampleRTTmaxRounds.toNat)
    (estimated : k ≤ cfg.owdMaxRounds.toNat) :
    r * paths.roundTime cfg .sampling + k * paths.roundTime cfg (.estimation 1 0) ≤
      cfg.sampleRTTmaxRounds.toNat * paths.roundTime cfg .sampling +
        cfg.owdMaxRounds.toNat * paths.roundTime cfg (.estimation 1 0) := by
  have sampling : 0 ≤ paths.roundTime cfg .sampling := Paths.roundTime_nonneg adm.probes_pos _
  have estimation : 0 ≤ paths.roundTime cfg (.estimation 1 0) :=
    Paths.roundTime_nonneg adm.probes_pos _
  exact add_le_add (Int.mul_le_mul_of_nonneg_right (Int.ofNat_le.mpr sampled) sampling)
    (Int.mul_le_mul_of_nonneg_right (Int.ofNat_le.mpr estimated) estimation)

/-- Nor does the one in progress. -/
theorem Running.rounds_time_le (h : s.Running cfg earlier ρ c) :
    paths.elapsed cfg c + paths.roundTime cfg ρ.kind ≤
      cfg.sampleRTTmaxRounds.toNat * paths.roundTime cfg .sampling +
        cfg.owdMaxRounds.toNat * paths.roundTime cfg (.estimation 1 0) := by
  have kind := h.kind
  unfold Paths.elapsed
  rcases ρ with ⟨r, _ | ⟨fast, E⟩, begin⟩
  · have sampling : SamplingStarted cfg c := kind
    have bound := Sys.rounds_time_le paths adm sampling.more (Nat.zero_le _)
    rw [sampling.first, List.length_nil]
    push_cast at bound ⊢
    linarith
  · have estimation : EstimationStarted cfg fast E begin c := kind
    have bound := Sys.rounds_time_le paths adm estimation.allSampled.le estimation.more
    dsimp only
    rw [Paths.roundTime_estimation fast E]
    push_cast at bound ⊢
    linarith

end

/-- From any send of the round in progress to whatever is due in it. -/
theorem paced_round_le (adm : cfg.Admissible) (nonneg : 0 ≤ t₀)
    (reach : Reach (next cfg) (Paced paths) (boot t₀) s) (mem : e ∈ s.agenda paths) {x : Logged}
    (logged : x ∈ s.sentLog) (round : x.tag.round = s.client.roundsDone) :
    e.time ≤ x.time + if s.client.m_currentMode = .RTTSampling then paths.roundTime cfg .sampling
      else paths.roundTime cfg (.estimation 1 0) := by
  obtain ⟨p, get, dueAt⟩ := mem_agenda.mp mem
  obtain ⟨ρ, c, run⟩ := ((Start.boot t₀).reach adm reach).running (List.mem_of_getElem? get)
    (outstanding_of_dueAt dueAt)
  obtain ⟨onTime, -, -⟩ := paced_clocks adm nonneg reach
  have begun := run.start_le_sent onTime logged (round.trans run.roundsDone)
  have due := Running.due_le_roundTime adm nonneg reach run mem
  rw [← run.roundTime_eq]
  omega

/-- **How long the experiment takes.**  Whatever is due in an RTT round, its last echo
included, is due within the longer round-trip time of any send of that round; in an
estimation round within that, the difference of the forward delays and the span of the
probes; and the clock never passes the sum of these over the intended rounds. -/
theorem experiment_duration (adm : cfg.Admissible) (nonneg : 0 ≤ t₀)
    (reach : Reach (next cfg) (Paced paths) (boot t₀) s) :
    (∀ e ∈ s.agenda paths, ∀ x ∈ s.sentLog, x.tag.round = s.client.roundsDone →
      e.time ≤ x.time + if s.client.m_currentMode = .RTTSampling then paths.longestRtt
        else paths.longestRtt + |paths.forward 0 - paths.forward 1| +
          cfg.milliSeconds 2 * (cfg.probes - 1)) ∧
    s.now ≤ t₀ + cfg.sampleRTTmaxRounds.toNat * paths.longestRtt +
      cfg.owdMaxRounds.toNat * (paths.longestRtt + |paths.forward 0 - paths.forward 1| +
        cfg.milliSeconds 2 * (cfg.probes - 1)) := by
  constructor
  · intro e mem x logged round
    exact paced_round_le adm nonneg reach mem logged round
  · rw [add_assoc]
    cases paced_inTime adm nonneg reach with
    | running ρ c run start now =>
        rw [add_assoc] at now
        exact now.trans (Int.add_le_add_left (run.rounds_time_le paths adm) t₀)
    | ended quiet now =>
        refine now.trans (Int.add_le_add_left ?_ t₀)
        cases quiet.outcome with
        | finished _ _ sampled all => exact rounds_time_le paths adm sampled.le all.le
        | aborted _ none all =>
            exact rounds_time_le paths adm all.le (by rw [none]; exact Nat.zero_le _)

/-- With the delays of `main` it takes less than 2.2 of the 4000 seconds after which the
applications are stopped. -/
theorem experiment_duration_main : ∃ s, Reach (next .ofMain) (Paced (mainDelays 30)) (boot 0) s ∧
    s.client.m_owdRoundStats.length = 20 ∧ s.now ≤ 2160 := by
  obtain ⟨s, reach, -, all, -⟩ := mainDelays_finished 30 (by decide)
  have bound := (experiment_duration Config.ofMain_admissible (Int.le_refl 0) reach).2
  exact ⟨s, reach, all, bound.trans (by decide)⟩

end Sys

end OwdPacing
