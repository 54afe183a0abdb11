import OwdPacing.Closing

/-!
# Reachable states

The invariant of a run from its start: the round in progress, or the end, and
for every round that is over the echoes its record was made from.
-/

namespace OwdPacing

open Container OWdClientBasic Round OwdSequencer StateError Runs

namespace Sys

variable {cfg : Config} {earlier : Nat} {ρ : Round} {s s' : Sys} {c c₀ : OWdClientBasic} {now : Int}
  {i : Nat} {p : Packet} {e : Event} {stats : RoundStats}

/-! ## Rounds that are over -/

/-- The round `ρ` started with the client `c`, is over, and left the record `stats`. -/
structure RoundOver (cfg : Config) (ρ : Round) (c : OWdClientBasic) (s : Sys)
    (stats : RoundStats) : Prop where
  started : Started cfg ρ c
  kind : StartedAs cfg ρ c
  echoes : ρ.AllEchoes cfg s.servedLog (s.receivedIn ρ.number)
  record : stats = ρ.record cfg (replay ρ.kind (s.receivedIn ρ.number) c)

/-- Every record made since the client was `c₀` is that of a round that is over. -/
structure History (cfg : Config) (c₀ : OWdClientBasic) (s : Sys) : Prop where
  sampled : ∀ k stats, c₀.m_rttRoundStats.length ≤ k → s.client.m_rttRoundStats[k]? = some stats →
    ∃ start c, c.m_rttRoundStats = s.client.m_rttRoundStats.take k ∧
      RoundOver cfg ⟨k, .sampling, start⟩ c s stats
  estimated : ∀ k stats, c₀.m_owdRoundStats.length ≤ k →
    s.client.m_owdRoundStats[k]? = some stats →
    ∃ fast E start c, c.m_rttRoundStats = s.client.m_rttRoundStats ∧
      c.m_owdRoundStats = s.client.m_owdRoundStats.take k ∧
      RoundOver cfg ⟨s.client.m_rttRoundStats.length + k, .estimation fast E, start⟩ c s stats

/-- The logs grow by entries of round `r`. -/
structure Grows (r : Nat) (s s' : Sys) : Prop where
  served : ∃ l, s'.servedLog = s.servedLog ++ l ∧ ∀ x ∈ l, x.tag.round = r
  received : ∃ l, s'.receivedLog = s.receivedLog ++ l ∧ ∀ a ∈ l, a.tag.round = r

theorem Grows.of_eq {r : Nat} (served : s'.servedLog = s.servedLog)
    (received : s'.receivedLog = s.receivedLog) : Grows r s s' where
  served := ⟨[], by rw [served, List.append_nil], by simp⟩
  received := ⟨[], by rw [received, List.append_nil], by simp⟩

/-- A round that is over stays as it is when later rounds go on. -/
theorem RoundOver.grow {r : Nat} (h : RoundOver cfg ρ c s stats) (grows : Grows r s s')
    (older : ρ.number < r) : RoundOver cfg ρ c s' stats := by
  obtain ⟨served, servedEq, servedNew⟩ := grows.served
  obtain ⟨received, receivedEq, receivedNew⟩ := grows.received
  have same : s'.receivedIn ρ.number = s.receivedIn ρ.number := by
    have none : received.filter (fun a => a.tag.round = ρ.number) = [] := by
      rw [List.filter_eq_nil_iff]
      intro a mem
      simpa [receivedNew a mem] using Nat.ne_of_gt older
    rw [receivedIn, receivedEq, List.filter_append, none, List.append_nil]
    rfl
  refine ⟨h.started, h.kind, ?_, ?_⟩
  · rw [same, servedEq]
    exact h.echoes.append fun x mem => by
      rw [servedNew x mem]
      exact Nat.ne_of_gt older
  · rw [same]
    exact h.record

theorem History.grow (h : s.History cfg c₀) (grows : Grows s.client.roundsDone s s')
    (rtt : s'.client.m_rttRoundStats = s.client.m_rttRoundStats)
    (owd : s'.client.m_owdRoundStats = s.client.m_owdRoundStats) : s'.History cfg c₀ where
  sampled k stats le get := by
    rw [rtt] at get ⊢
    obtain ⟨start, c, prefixed, ended⟩ := h.sampled k stats le get
    have lt := (List.getElem?_eq_some_iff.mp get).1
    exact ⟨start, c, prefixed, ended.grow grows (Nat.lt_add_right _ lt)⟩
  estimated k stats le get := by
    rw [owd] at get ⊢
    rw [rtt]
    obtain ⟨fast, E, start, c, rttEq, owdEq, ended⟩ := h.estimated k stats le get
    have lt := (List.getElem?_eq_some_iff.mp get).1
    exact ⟨fast, E, start, c, rttEq, owdEq, ended.grow grows (Nat.add_lt_add_left lt _)⟩

/-! ## The invariant -/

/-- The invariant of a run that began with the client `c₀`. -/
structure Invariant (cfg : Config) (c₀ : OWdClientBasic) (s : Sys) : Prop where
  phase : (∃ ρ c, s.Running cfg (volume cfg c₀) ρ c) ∨ s.Quiet cfg (volume cfg c₀)
  history : s.History cfg c₀

/-- A round is in progress while a packet is outstanding. -/
theorem Invariant.running (h : s.Invariant cfg c₀) (mem : p ∈ s.packets) (out : p.Outstanding) :
    ∃ ρ c, s.Running cfg (volume cfg c₀) ρ c := by
  rcases h.phase with running | quiet
  · exact running
  · exact absurd (quiet.settled.delivered p mem).1 out

/-- No packet is served or received twice. -/
theorem Invariant.servedNodup (h : s.Invariant cfg c₀) : s.served.Nodup := by
  cases h.phase with
  | inl running =>
      obtain ⟨ρ, c, run⟩ := running
      exact run.carries.servedNodup
  | inr quiet => exact quiet.settled.servedNodup

theorem Invariant.receivedNodup (h : s.Invariant cfg c₀) :
    (s.receivedLog.map Arrival.tag).Nodup := by
  cases h.phase with
  | inl running =>
      obtain ⟨ρ, c, run⟩ := running
      exact run.carries.receivedNodup
  | inr quiet => exact quiet.settled.receivedNodup

/-- The round that is in progress has the number of rounds done. -/
theorem Running.roundsDone (h : s.Running cfg earlier ρ c) : s.client.roundsDone = ρ.number := by
  rw [h.sameRound.roundsDone]
  exact h.started.number

theorem Quiet.next_eq_none (h : s.Quiet cfg earlier) : s.next cfg e = none := by
  unfold next
  split
  · rfl
  · split
    · rfl
    · rename_i p get
      rw [(h.settled.delivered p (List.mem_of_getElem? get)).1]

/-- The history after the end of a round. -/
theorem History.close (h : s.History cfg c₀) (run : s.Running cfg earlier ρ c)
    {s₁ : Sys} (closes : Closes cfg earlier ρ c now s₁ s')
    (grows : Grows s.client.roundsDone s s') :
    s'.History cfg c₀ := by
  have same := run.sameRound
  have number := run.started.number
  have ended : RoundOver cfg ρ c s' (ρ.record cfg (replay ρ.kind (s'.receivedIn ρ.number) c)) :=
    ⟨run.started, run.kind, closes.echoes, rfl⟩
  have stores := closes.stores
  have kind := run.kind
  generalize ρ.record cfg (replay ρ.kind (s'.receivedIn ρ.number) c) = new at ended stores
  rcases ρ with ⟨r, _ | ⟨fast, E⟩, start⟩
  · obtain ⟨rtt, owd⟩ := stores
    have none : c.m_owdRoundStats = [] := SamplingStarted.first kind
    have length : c.m_rttRoundStats.length = r := by
      rwa [OWdClientBasic.roundsDone, none] at number
    constructor
    · intro k stats le get
      rw [rtt] at get ⊢
      rcases getElem?_concat_cases get with ⟨lt, old⟩ | ⟨rfl, rfl⟩
      · rw [← same.rtt] at old
        obtain ⟨start, c', prefixed, old⟩ := h.sampled k stats le old
        rw [List.take_append_of_le_length (Nat.le_of_lt lt), ← same.rtt]
        refine ⟨start, c', prefixed, old.grow grows ?_⟩
        rw [OWdClientBasic.roundsDone, same.rtt]
        exact Nat.lt_add_right _ lt
      · refine ⟨start, c, by rw [List.take_left], ?_⟩
        rw [length]
        exact ended
    · intro k stats le get
      rw [owd, none] at get
      exact absurd get (by simp)
  · obtain ⟨rtt, owd⟩ := stores
    constructor
    · intro k stats le get
      rw [rtt, ← same.rtt] at get ⊢
      obtain ⟨start, c', prefixed, old⟩ := h.sampled k stats le get
      have lt := (List.getElem?_eq_some_iff.mp get).1
      exact ⟨start, c', prefixed, old.grow grows (Nat.lt_add_right _ lt)⟩
    · intro k stats le get
      rw [owd] at get ⊢
      rw [rtt]
      rcases getElem?_concat_cases get with ⟨lt, old⟩ | ⟨rfl, rfl⟩
      · rw [← same.owd] at old
        obtain ⟨fast', E', start', c', rttEq, owdEq, old⟩ := h.estimated k stats le old
        rw [List.take_append_of_le_length (Nat.le_of_lt lt), ← same.owd, ← same.rtt]
        refine ⟨fast', E', start', c', rttEq, owdEq, old.grow grows ?_⟩
        rw [OWdClientBasic.roundsDone, same.owd]
        exact Nat.add_lt_add_left lt _
      · refine ⟨fast, E, start, c, rfl, by rw [List.take_left], ?_⟩
        have done : c.m_rttRoundStats.length + c.m_owdRoundStats.length = r := number
        rw [done]
        exact ended

/-- **One step keeps the invariant.** -/
theorem Invariant.step (h : s.Invariant cfg c₀) (adm : cfg.Admissible)
    (step : s.next cfg e = some s') : s'.Invariant cfg c₀ := by
  rcases h.phase with ⟨ρ, c, run⟩ | quiet
  · obtain ⟨-, p, get, cases⟩ := next_cases step
    have mem : p ∈ s.packets := List.mem_of_getElem? get
    have round : p.Outstanding → p.tag.round = s.client.roundsDone := fun out =>
      (plan_round (run.carries.planned mem out)).trans run.roundsDone.symm
    rcases cases with ⟨due, stage, rfl⟩ | ⟨seqTs, sentAt, stage, rfl⟩ |
      ⟨seqTs, sentAt, servedAt, stage, rfl⟩
    · exact ⟨.inl ⟨ρ, c, run.fire get stage⟩, h.history.grow (.of_eq rfl rfl) rfl rfl⟩
    · have out := Carries.outstanding_of_toServer stage
      obtain ⟨run', client, served, received⟩ := run.serve e.time get stage
      have grows : Grows s.client.roundsDone s (s.serve e.time e.packet p seqTs sentAt) :=
        ⟨⟨_, served, fun x memX => by rw [List.mem_singleton.mp memX]; exact round out⟩,
          ⟨[], by rw [received, List.append_nil], by simp⟩⟩
      exact ⟨.inl ⟨ρ, c, run'⟩, h.history.grow grows (by rw [client]) (by rw [client])⟩
    · have out := Carries.outstanding_of_toClient stage
      have grows : ∀ s₂ : Sys, s₂.servedLog = s.servedLog → s₂.receivedLog =
          s.receivedLog ++ [⟨p.tag, p.sock, seqTs, sentAt, servedAt, e.time⟩] →
          Grows s.client.roundsDone s s₂ := fun s₂ served received =>
        ⟨⟨[], by rw [served, List.append_nil], by simp⟩,
          ⟨_, received, fun a memA => by rw [List.mem_singleton.mp memA]; exact round out⟩⟩
      by_cases one : s.outstanding = 1
      · have closes := run.close e.time adm get stage one
        refine ⟨?_, h.history.close run closes (grows _ closes.servedLog closes.receivedLog)⟩
        cases closes.follows with
        | round ρ' c' run' => exact .inl ⟨ρ', c', run'⟩
        | nothing quiet => exact .inr quiet
      · obtain ⟨run', same, served, received⟩ := run.recv e.time get stage one
        exact ⟨.inl ⟨ρ, c, run'⟩,
          h.history.grow (grows _ served received) same.rtt same.owd⟩
  · rw [quiet.next_eq_none] at step
    cases step

/-! ## Starts of runs -/

theorem idle_settled {server : OwdSequencer} {r : Nat} (track : Tracks server {n | n ≤ 2 * r}) :
    (idle c server now).Settled r := by
  constructor <;> simp [idle, served]
  exact track

/-- The run of the application from its start. -/
theorem boot_running (now : Int) (adm : cfg.Admissible) :
    ∃ c, (boot now).Running cfg 0 ⟨0, .sampling, now⟩ c ∧
      Launched cfg ⟨0, .sampling, now⟩ (idle .new .new now) (boot now) ∧
      c.m_rttRoundStats = [] ∧ c.m_owdRoundStats = [] := by
  have start : (do startApplication; sampleRTTStart now : ClientM Unit).run .new =
      .ok () (samplingStarted now .new) := by
    have first : startApplication.run .new = .ok () .new := rfl
    rw [run_bind_ok first, run_sampleRTTStart rfl rfl]
  have track : Tracks .new {n | n ≤ 2 * 0} := new_tracks.congr fun n pos =>
    iff_of_false (Set.notMem_empty n) (by rw [Set.mem_ofPred_eq]; omega)
  have settled : (idle .new .new now).Settled 0 := idle_settled track
  have first := settled.running_sampling (c := .new) now adm.probes_pos rfl rfl rfl (by decide) rfl
    ⟨rfl, rfl, adm.sampleRounds_pos, rfl, .inl rfl⟩ (Nat.zero_add 0) rfl
  rw [boot, start]
  exact ⟨_, first.1, first.2, rfl, rfl⟩

/-- A client and a server between two estimation rounds. -/
structure Resumable (cfg : Config) (fast : Socket) (c : OWdClientBasic) (server : OwdSequencer) :
    Prop where
  estimating : c.Estimating
  chosen : c.chosenFastSubflow = (fast : Nat)
  more : c.m_owdRoundStats.length < cfg.owdMaxRounds.toNat
  allSampled : c.m_rttRoundStats.length = cfg.sampleRTTmaxRounds.toNat
  found : 0 ≤ (back c.m_rttRoundStats).ForwardFastSubflow
  low : c.m_lowestRoundSeq = lowSeq c.roundsDone
  idle : c.m_inflight = 0
  effects : c.effects = []
  server : Tracks server {n | n ≤ 2 * c.roundsDone}

/-- A run that goes on from between two estimation rounds. -/
theorem resume_running {fast : Socket} {server : OwdSequencer} (h : Resumable cfg fast c server)
    (now : Int) (adm : cfg.Admissible) :
    (resume cfg c server now).Running cfg (volume cfg c)
        ⟨c.roundsDone, .estimation fast c.previousEstimate, now⟩
        { estimationStarted cfg fast now c with effects := [] } ∧
      Launched cfg ⟨c.roundsDone, .estimation fast c.previousEstimate, now⟩ (idle c server now)
        (resume cfg c server now) := by
  have start := run_startNewOwdEstimationRound now fast h.estimating h.idle adm.probes_le
    h.chosen
  rw [resume, start]
  exact (idle_settled h.server).running_estimation now fast adm rfl rfl h.low h.effects
    h.estimating h.more h.allSampled h.found (Nat.zero_add _) rfl

/-- How a run starts: with the application, or between two estimation rounds. -/
inductive Start (cfg : Config) : Sys → Prop
  | boot (now : Int) : Start cfg (Sys.boot now)
  | resume {fast : Socket} {c : OWdClientBasic} {server : OwdSequencer}
      (h : Resumable cfg fast c server) (now : Int) : Start cfg (Sys.resume cfg c server now)

/-- The first events of a run on which socket 0 is faster: its packet is served
first, and both echoes come back. -/
def socketZeroFirst : List Event := [⟨10, 0⟩, ⟨20, 1⟩, ⟨30, 0⟩, ⟨40, 1⟩]

/-- The same on which socket 1 is faster. -/
def socketOneFirst : List Event := [⟨10, 1⟩, ⟨20, 0⟩, ⟨30, 0⟩, ⟨40, 1⟩]

/-- A run starts with a round whose packets enter an empty network. -/
theorem Start.launched (h : Start cfg s) (adm : cfg.Admissible) :
    ∃ ρ c idle, s.Running cfg (volume cfg s.client) ρ c ∧ Launched cfg ρ idle s ∧
      idle.packets = [] ∧ idle.sentLog = [] ∧ s.servedLog = [] ∧ s.receivedLog = [] ∧
      ρ.start = s.now := by
  cases h with
  | boot now =>
      obtain ⟨c, run, launched, rtt, owd⟩ := boot_running now adm
      have none : volume cfg (Sys.boot now).client = 0 := by
        rw [volume, run.sameRound.rtt, run.sameRound.owd, rtt, owd]
        rfl
      exact ⟨_, c, _, none ▸ run, launched, rfl, rfl, rfl, rfl, rfl⟩
  | @resume fast c server resumable now =>
      obtain ⟨run, launched⟩ := resume_running resumable now adm
      have same : volume cfg (Sys.resume cfg c server now).client = volume cfg c := by
        rw [volume, run.sameRound.rtt, run.sameRound.owd]
        rfl
      have logs : (Sys.resume cfg c server now).servedLog = [] ∧
          (Sys.resume cfg c server now).receivedLog = [] ∧
          now = (Sys.resume cfg c server now).now := by
        unfold Sys.resume
        cases (startNewOwdEstimationRound cfg now).run c <;> exact ⟨rfl, rfl, rfl⟩
      exact ⟨_, _, _, same ▸ run, launched, rfl, rfl, logs.1, logs.2.1, logs.2.2⟩

theorem Start.invariant (h : Start cfg s) (adm : cfg.Admissible) : s.Invariant cfg s.client := by
  obtain ⟨ρ, c, -, run, -⟩ := h.launched adm
  refine ⟨.inl ⟨ρ, c, run⟩, ?_, ?_⟩
  · intro k stats le get
    exact absurd (List.getElem?_eq_some_iff.mp get).1 (Nat.not_lt.mpr le)
  · intro k stats le get
    exact absurd (List.getElem?_eq_some_iff.mp get).1 (Nat.not_lt.mpr le)

/-- **The invariant holds in every reachable state.** -/
theorem Start.reach {G : Sys → Event → Prop} {s₀ : Sys} (start : Start cfg s₀)
    (adm : cfg.Admissible) (reach : Reach (next cfg) G s₀ s) : s.Invariant cfg s₀.client :=
  reach.invariant (start.invariant adm) fun _ h _ step => h.step adm step

end Sys

end OwdPacing
