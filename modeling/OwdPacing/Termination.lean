import OwdPacing.Classification

/-!
# Every run ends

Each step brings one packet a stage further, and the packets of a run are
bounded by those of all its rounds.  So no run is infinite; and a state without
a next step is the end of the last round, or the abort of a run that has found
no fast subflow.
-/

namespace OwdPacing

open Container OWdClientBasic Round Runs

/-- Number of steps a packet has before it. -/
def Stage.work : Stage → Nat
  | .scheduled _ => 3
  | .toServer _ _ => 2
  | .toClient _ _ _ => 1
  | .delivered => 0

/-- The packet has been sent, as a number. -/
def Stage.sends : Stage → Nat
  | .scheduled _ => 0
  | _ => 1

/-- The client has processed the packet's echo, as a number. -/
def Stage.receipts : Stage → Nat
  | .delivered => 1
  | _ => 0

/-- Number of packets of all rounds of a run. -/
def totalPackets (cfg : Config) : Nat :=
  2 * cfg.sampleRTTmaxRounds.toNat + (cfg.probes + 1) * cfg.owdMaxRounds.toNat

namespace Sys

variable {cfg : Config} {earlier : Nat} {ρ : Round} {s s' s₀ : Sys} {c c₀ : OWdClientBasic}
  {e : Event} {now : Int}

/-! ## The measure -/

/-- Number of steps the run has before it, at most: those of the packets there
are, and four for each packet that is still to come. -/
def work (cfg : Config) (earlier : Nat) (s : Sys) : Nat :=
  (s.packets.map fun p => p.stage.work).sum +
    4 * (totalPackets cfg - (s.packets.length + earlier))

/-- There are no more packets than those of all rounds. -/
theorem Invariant.packets_le (h : s.Invariant cfg c₀) :
    s.packets.length + volume cfg c₀ ≤ totalPackets cfg := by
  have rounds : ∀ {k : Nat}, k ≤ cfg.owdMaxRounds.toNat →
      (cfg.probes + 1) * k ≤ (cfg.probes + 1) * cfg.owdMaxRounds.toNat :=
    fun le => Nat.mul_le_mul_left _ le
  rcases h.phase with ⟨⟨r, _ | ⟨fast, E⟩, start⟩, c, run⟩ | quiet
  · have sampling : SamplingStarted cfg c := run.kind
    have more := sampling.more
    have packets := run.packets
    have before : volume cfg c = 2 * c.m_rttRoundStats.length := by
      rw [volume, sampling.first, List.length_nil, Nat.mul_zero, Nat.add_zero]
    rw [plan_length, before] at packets
    rw [packets, totalPackets, ← Nat.mul_succ]
    exact Nat.le_add_right_of_le (Nat.mul_le_mul_left 2 more)
  · have estimation : EstimationStarted cfg fast E start c := run.kind
    have packets := run.packets
    have before : volume cfg c = 2 * cfg.sampleRTTmaxRounds.toNat +
        (cfg.probes + 1) * c.m_owdRoundStats.length := by
      rw [volume, estimation.allSampled]
    rw [plan_length, before] at packets
    rw [packets, totalPackets, Nat.add_assoc, ← Nat.mul_succ]
    exact Nat.add_le_add_left (rounds estimation.more) _
  · rw [quiet.packets, volume, totalPackets]
    cases quiet.outcome with
    | finished _ _ sampled all => rw [sampled, all]
    | aborted _ none sampled =>
        rw [sampled, none]
        exact Nat.add_le_add_left (rounds (Nat.zero_le _)) _

/-- New packets have at most three steps each before them. -/
theorem work_entered {added : List Packet} (entered : ∀ q ∈ added, q.Entered now) :
    (added.map fun p => p.stage.work).sum ≤ 3 * added.length := by
  induction added with
  | nil => exact Nat.le_refl 0
  | cons p added ih =>
      have rest := ih fun q mem => entered q (List.mem_cons_of_mem _ mem)
      have first : p.stage.work ≤ 3 := by
        rcases (entered p List.mem_cons_self).stage with stage | ⟨stage, -⟩ <;> rw [stage]
        · exact Nat.le_refl 3
        · exact Nat.le_succ 2
      rw [List.map_cons, List.sum_cons, List.length_cons]
      omega

/-- What a change of one packet's stage does to a sum over the stages. -/
theorem sum_stage_set (w : Stage → ℕ) (stage : Stage) {p : Packet}
    (get : s.packets[e.packet]? = some p) :
    ((s.packets.set e.packet { p with stage := stage }).map fun p => w p.stage).sum + w p.stage =
      (s.packets.map fun p => w p.stage).sum + w stage :=
  sum_map_set (fun p : Packet => w p.stage) _ get

/-- **Each step lowers the measure.** -/
theorem Invariant.work_lt (h : s.Invariant cfg c₀) (adm : cfg.Admissible)
    (step : s.next cfg e = some s') : work cfg (volume cfg c₀) s' < work cfg (volume cfg c₀) s := by
  have bound := (h.step adm step).packets_le
  unfold work
  cases h.moves adm step with
  | sent p get stage packets =>
      have sum : _ + 3 = _ + 2 := stage ▸ sum_stage_set Stage.work
        (.toServer (sendHeader p.seqNb p.ts) e.time) get
      rw [packets, List.length_set]
      omega
  | served p seqTs sentAt echo get stage packets =>
      have sum : _ + 2 = _ + 1 := stage ▸ sum_stage_set Stage.work
        (.toClient echo sentAt e.time) get
      rw [packets, List.length_set]
      omega
  | received p seqTs sentAt servedAt added get stage _ entered packets =>
      have sum : _ + 1 = _ + 0 := stage ▸ sum_stage_set Stage.work .delivered get
      have new := work_entered entered
      rw [packets, List.length_append, List.length_set] at bound
      rw [packets, List.map_append, List.sum_append, List.length_append, List.length_set]
      omega

/-! ## Counts of packets -/

/-- The logs have one entry for each packet sent, and for each processed. -/
structure Tallied (s : Sys) : Prop where
  sent : (s.packets.map fun p => p.stage.sends).sum = s.sentLog.length
  received : (s.packets.map fun p => p.stage.receipts).sum = s.receivedLog.length

theorem Tallied.enter {added : List Packet} (h : s.Tallied) (entered : ∀ q ∈ added, q.Entered now)
    (packets : s'.packets = s.packets ++ added)
    (sentLog : s'.sentLog = s.sentLog ++ added.filterMap Packet.sent?)
    (receivedLog : s'.receivedLog = s.receivedLog) : s'.Tallied := by
  have new : (added.map fun p => p.stage.sends).sum = (added.filterMap Packet.sent?).length ∧
      (added.map fun p => p.stage.receipts).sum = 0 := by
    clear packets sentLog
    induction added with
    | nil => exact ⟨rfl, rfl⟩
    | cons p added ih =>
        obtain ⟨sent, received⟩ := ih fun q mem => entered q (List.mem_cons_of_mem _ mem)
        rcases (entered p List.mem_cons_self).stage with stage | ⟨stage, -⟩
        · have none : p.sent? = none := by rw [Packet.sent?, stage]
          rw [List.map_cons, List.map_cons, List.sum_cons, List.sum_cons,
            List.filterMap_cons_none none, sent, received, stage]
          exact ⟨Nat.zero_add _, rfl⟩
        · have some : p.sent? = some ⟨p.tag, now⟩ := by rw [Packet.sent?, stage]
          rw [List.map_cons, List.map_cons, List.sum_cons, List.sum_cons,
            List.filterMap_cons_some some, List.length_cons, sent, received, stage]
          exact ⟨Nat.add_comm 1 _, rfl⟩
  constructor
  · rw [packets, sentLog, List.map_append, List.sum_append, List.length_append, h.sent, new.1]
  · rw [packets, receivedLog, List.map_append, List.sum_append, h.received, new.2, Nat.add_zero]

theorem Tallied.step (h : s.Tallied) (moves : Moves s e s') : s'.Tallied := by
  obtain ⟨sent, received⟩ := h
  cases moves with
  | sent p get stage packets sentLog servedLog receivedLog =>
      have sends : _ + 0 = _ + 1 := stage ▸ sum_stage_set Stage.sends
        (.toServer (sendHeader p.seqNb p.ts) e.time) get
      have receipts : _ + 0 = _ + 0 := stage ▸ sum_stage_set Stage.receipts
        (.toServer (sendHeader p.seqNb p.ts) e.time) get
      constructor
      · rw [packets, sentLog, List.length_append, List.length_singleton]
        omega
      · rw [packets, receivedLog]
        omega
  | served p seqTs sentAt echo get stage packets sentLog servedLog receivedLog =>
      have sends : _ + 1 = _ + 1 := stage ▸ sum_stage_set Stage.sends
        (.toClient echo sentAt e.time) get
      have receipts : _ + 0 = _ + 0 := stage ▸ sum_stage_set Stage.receipts
        (.toClient echo sentAt e.time) get
      constructor
      · rw [packets, sentLog]
        omega
      · rw [packets, receivedLog]
        omega
  | received p seqTs sentAt servedAt added get stage _ entered packets sentLog _ receivedLog =>
      have sends : _ + 1 = _ + 1 := stage ▸ sum_stage_set Stage.sends .delivered get
      have receipts : _ + 0 = _ + 1 := stage ▸ sum_stage_set Stage.receipts .delivered get
      have delivered : (s.deliver e.time e.packet p seqTs sentAt servedAt).Tallied := by
        constructor
        · change ((s.packets.set e.packet { p with stage := .delivered }).map
            fun p => p.stage.sends).sum = s.sentLog.length
          omega
        · change ((s.packets.set e.packet { p with stage := .delivered }).map
            fun p => p.stage.receipts).sum = (s.receivedLog ++ [_]).length
          rw [List.length_append, List.length_singleton]
          omega
      exact delivered.enter entered packets sentLog receivedLog

theorem Start.tallied (start : Start cfg s₀) (adm : cfg.Admissible) {G : Sys → Event → Prop}
    (reach : Reach (next cfg) G s₀ s) : s.Tallied := by
  have init : s₀.Tallied := by
    obtain ⟨ρ, c, idle, -, launched, packets, sentLog, -, received, -⟩ := start.launched adm
    obtain ⟨added, entered, packets', sentLog'⟩ := launched.entered
    refine Tallied.enter (s := { s₀ with packets := [], sentLog := [], receivedLog := [] })
      ⟨rfl, rfl⟩ entered ?_ ?_ received
    · rw [packets', packets]
    · rw [sentLog', sentLog]
  exact reach.invariant init fun reach h _ step => h.step ((start.reach adm reach).moves adm step)

/-- At the end of a run every packet has been sent and its echo processed. -/
theorem Tallied.quiet (h : s.Tallied) (quiet : s.Quiet cfg earlier) :
    s.sentLog.length = s.packets.length ∧ s.receivedLog.length = s.packets.length := by
  have each : ∀ {w : Stage → Nat}, w .delivered = 1 →
      (s.packets.map fun p => w p.stage).sum = s.packets.length := by
    intro w one
    have ones : (s.packets.map fun p => w p.stage) = s.packets.map fun _ => 1 :=
      List.map_congr_left fun p mem => by rw [(quiet.settled.delivered p mem).1, one]
    rw [ones, List.map_const', List.sum_replicate_nat, Nat.mul_one]
  exact ⟨h.sent.symm.trans (each rfl), h.received.symm.trans (each rfl)⟩

/-! ## The end of a run -/

/-- While a round is in progress some packet can take its next step. -/
theorem Running.exists_next (h : s.Running cfg earlier ρ c) : ∃ e, s.next cfg e ≠ none := by
  obtain ⟨p, mem, out⟩ := List.countP_pos_iff.mp h.busy
  obtain ⟨i, get⟩ := List.getElem?_of_mem mem
  have out : p.Outstanding := of_decide_eq_true out
  refine ⟨⟨0, i⟩, ?_⟩
  rw [next, h.running, get]
  dsimp only [Option.isSome_none]
  cases stage : p.stage with
  | scheduled due => exact Option.some_ne_none _
  | toServer seqTs sentAt => exact Option.some_ne_none _
  | toClient seqTs sentAt servedAt => exact Option.some_ne_none _
  | delivered => exact absurd stage out

/-- When nothing is outstanding there is no next step. -/
theorem Invariant.next_eq_none (h : s.Invariant cfg c₀) (none : s.outstanding = 0) :
    s.next cfg e = .none := by
  rcases h.phase with ⟨ρ, c, run⟩ | quiet
  · exact absurd none (Nat.ne_of_gt run.busy)
  · exact quiet.next_eq_none

/-- While a round is in progress an estimation round is missing. -/
theorem Running.rounds_ne (h : s.Running cfg earlier ρ c) (adm : cfg.Admissible) :
    s.client.m_owdRoundStats.length ≠ cfg.owdMaxRounds.toNat := by
  have kind := h.kind
  rw [h.sameRound.owd]
  rcases ρ with ⟨r, _ | ⟨fast, E⟩, start⟩
  · have sampling : SamplingStarted cfg c := kind
    rw [sampling.first]
    exact Nat.ne_of_lt adm.owdRounds_pos
  · have estimation : EstimationStarted cfg fast E start c := kind
    exact Nat.ne_of_lt estimation.more

/-- The dump has been made exactly when all estimation rounds are over. -/
theorem Invariant.dumps (h : s.Invariant cfg c₀) (adm : cfg.Admissible) :
    s.dumps = if s.client.m_owdRoundStats.length = cfg.owdMaxRounds.toNat then 1 else 0 := by
  have some := adm.owdRounds_pos
  rcases h.phase with ⟨⟨r, _ | ⟨fast, E⟩, start⟩, c, run⟩ | quiet
  · have sampling : SamplingStarted cfg c := run.kind
    rw [run.dumps, run.sameRound.owd, sampling.first, List.length_nil, if_neg (by omega)]
  · have estimation : EstimationStarted cfg fast E start c := run.kind
    rw [run.dumps, run.sameRound.owd, if_neg (Nat.ne_of_lt estimation.more)]
  · cases quiet.outcome with
    | finished _ _ _ all _ dumps => rw [dumps, if_pos all]
    | aborted _ none _ _ dumps => rw [dumps, none, List.length_nil, if_neg (by omega)]

/-- **Every run ends**, with exactly the intended rounds.  From the start of an
application that samples one RTT round there is no infinite run; the dump is made
when the last estimation round is over, and only then; and a state without a next
step is aborted before the first estimation round, for want of a fast subflow, or
has the records of all rounds and has sent and processed their packets. -/
theorem every_run_ends (adm : cfg.Admissible) (one : cfg.sampleRTTmaxRounds = 1) :
    (¬ ∃ run : ℕ → Sys, run 0 = boot now ∧
      ∀ n, ∃ e, (run n).next cfg e = some (run (n + 1))) ∧
    ∀ s, Reach (next cfg) anyEvent (boot now) s →
      s.dumps = (if s.client.m_owdRoundStats.length = cfg.owdMaxRounds.toNat then 1 else 0) ∧
      ((∀ e, s.next cfg e = none) →
        s.client.m_rttRoundStats.length = 1 ∧ s.client.m_inflight = 0 ∧
        (s.halted = some .startNewOwdEstimationRound_forwardFastSubflow ∧
            s.client.m_owdRoundStats = [] ∨
          s.halted = none ∧ s.client.m_owdRoundStats.length = cfg.owdMaxRounds.toNat ∧
            s.sentLog.length = 2 + cfg.owdMaxRounds.toNat * (cfg.probes + 1) ∧
            s.receivedLog.length = 2 + cfg.owdMaxRounds.toNat * (cfg.probes + 1) ∧
            s.dumps = 1)) := by
  have start : Start cfg (boot now) := .boot now
  have rounds : cfg.sampleRTTmaxRounds.toNat = 1 := by rw [one]; rfl
  constructor
  · rintro ⟨run, first, steps⟩
    have lower : ∀ {s s' e}, Reach (next cfg) anyEvent (boot now) s → anyEvent s e →
        s.next cfg e = some s' →
        work cfg (volume cfg (boot now).client) s' < work cfg (volume cfg (boot now).client) s :=
      fun reach _ step => (start.reach adm reach).work_lt adm step
    refine no_infinite_run _ lower ⟨run, first, fun n => ?_⟩
    obtain ⟨e, step⟩ := steps n
    exact ⟨e, trivial, step⟩
  · intro s reach
    have inv := start.reach adm reach
    refine ⟨inv.dumps adm, fun stuck => ?_⟩
    rcases inv.phase with ⟨ρ, c, run⟩ | quiet
    · obtain ⟨e, enabled⟩ := run.exists_next
      exact absurd (stuck e) enabled
    · obtain ⟨sent, received⟩ := (start.tallied adm reach).quiet quiet
      have packets := quiet.packets
      have none : volume cfg (boot now).client = 0 := rfl
      rw [none, Nat.add_zero, volume] at packets
      cases quiet.outcome with
      | aborted halted none sampled =>
          exact ⟨sampled.trans rounds, quiet.inflight, .inl ⟨halted, none⟩⟩
      | finished running _ sampled all _ dumps =>
          have total : s.packets.length = 2 + cfg.owdMaxRounds.toNat * (cfg.probes + 1) := by
            rw [packets, sampled, rounds, all, Nat.mul_comm (cfg.probes + 1)]
          exact ⟨sampled.trans rounds, quiet.inflight,
            .inr ⟨running, all, sent.trans total, received.trans total, dumps⟩⟩

/-- The constants of the constructors, but for a single estimation round. -/
def oneRound : Config := { Config.nanoseconds with owdMaxRounds := 1 }

theorem oneRound_admissible : oneRound.Admissible := by
  constructor <;> decide

theorem every_run_ends_oneRound : ∃ s, Reach (next oneRound) anyEvent (boot 0) s ∧
    (∀ e, s.next oneRound e = none) ∧ s.halted = none ∧ s.receivedLog.length = 6 ∧ s.dumps = 1 := by
  have reach : Reach (next oneRound) anyEvent (boot 0)
      (final (next oneRound) (framedRound ++ [framedRoundEnd]) (boot 0)) :=
    .final (by decide +kernel) .any
  have inv := (Start.boot 0).reach oneRound_admissible reach
  have stuck : ∀ e, (final (next oneRound) (framedRound ++ [framedRoundEnd])
      (boot 0)).next oneRound e = none := fun e => inv.next_eq_none (by decide +kernel)
  obtain ⟨-, -, ⟨halted, -⟩ | ⟨running, -, -, received, dumps⟩⟩ :=
    ((every_run_ends oneRound_admissible rfl).2 _ reach).2 stuck
  · exact absurd halted (by decide +kernel)
  · exact ⟨_, reach, stuck, running, received, dumps⟩

end Sys

end OwdPacing
