import OwdPacing.Convergence
import OwdPacing.Semantics.EventLoop
import OwdPacing.Termination

/-!
# The simulation over paths with fixed delays

`Simulator::Run` of the experiment, in which every packet takes the delay of its
path: an event is a packet that is due, and an earliest one is next.  This event
loop refines the system in which any packet may take its next step at any time:
its runs keep the simulator's clock, and everything the client receives has seen
the delays of the paths.
-/

namespace OwdPacing

open Container OWdClientBasic Round Runs

/-- The one-way delays of the two paths, which the experiment keeps fixed. -/
structure Paths where
  forward : Socket → Int
  reverse : Socket → Int
  forward_nonneg : ∀ sock, 0 ≤ forward sock
  reverse_nonneg : ∀ sock, 0 ≤ reverse sock
  rtt_pos : ∀ sock, 0 < forward sock + reverse sock

/-- When the simulator brings a packet to its next stage. -/
def Paths.dueAt (paths : Paths) (p : Packet) : Option Int :=
  match p.stage with
  | .scheduled due => some due
  | .toServer _ sentAt => some (sentAt + paths.forward p.sock)
  | .toClient _ _ servedAt => some (servedAt + paths.reverse p.sock)
  | .delivered => none

namespace Sys

/-- The events the simulator has before it, in the order of the packets. -/
def agenda (paths : Paths) (s : Sys) : List Event :=
  s.packets.zipIdx.filterMap fun (p, i) => (paths.dueAt p).map fun time => ⟨time, i⟩

/-- `Simulator::Run`: an earliest event is next. -/
def Paced (paths : Paths) : Sys → Event → Prop := Earliest (agenda paths) Event.time

instance (paths : Paths) (s : Sys) (e : Event) : Decidable (s.Paced paths e) :=
  inferInstanceAs (Decidable (Earliest _ _ _ _))

variable {cfg : Config} {paths : Paths} {s s' s₀ : Sys} {c₀ : OWdClientBasic} {e : Event}
  {p : Packet} {t : Int}

theorem mem_agenda :
    e ∈ s.agenda paths ↔ ∃ p, s.packets[e.packet]? = some p ∧ paths.dueAt p = some e.time := by
  unfold agenda
  rw [List.mem_filterMap]
  constructor
  · rintro ⟨⟨p, i⟩, mem, due⟩
    obtain ⟨time, dueAt, rfl⟩ := Option.map_eq_some_iff.mp due
    exact ⟨p, List.mem_zipIdx_iff_getElem?.mp mem, dueAt⟩
  · rintro ⟨p, get, dueAt⟩
    refine ⟨(p, e.packet), List.mem_zipIdx_iff_getElem?.mpr get, ?_⟩
    dsimp only
    rw [dueAt]
    rfl

theorem dueAt_isSome (out : p.Outstanding) : ∃ t, paths.dueAt p = some t := by
  unfold Paths.dueAt
  cases stage : p.stage with
  | scheduled due => exact ⟨_, rfl⟩
  | toServer seqTs sentAt => exact ⟨_, rfl⟩
  | toClient seqTs sentAt servedAt => exact ⟨_, rfl⟩
  | delivered => exact absurd stage out

theorem outstanding_of_dueAt (due : paths.dueAt p = some t) : p.Outstanding := by
  intro stage
  rw [Paths.dueAt, stage] at due
  cases due

/-- The agenda is empty when nothing is outstanding. -/
theorem agenda_eq_nil_iff : s.agenda paths = [] ↔ s.outstanding = 0 := by
  rw [List.eq_nil_iff_forall_not_mem, outstanding, List.countP_eq_zero]
  constructor
  · intro none p mem out
    obtain ⟨i, get⟩ := List.getElem?_of_mem mem
    obtain ⟨t, due⟩ : ∃ t, paths.dueAt p = some t := dueAt_isSome (of_decide_eq_true out)
    exact none ⟨t, i⟩ (mem_agenda.mpr ⟨p, get, due⟩)
  · intro none e mem
    obtain ⟨p, get, due⟩ := mem_agenda.mp mem
    exact none p (List.mem_of_getElem? get) (decide_eq_true (outstanding_of_dueAt due))

/-! ## Nothing is due in the past -/

/-- What enters the network is not due before it enters. -/
theorem le_dueAt_of_planned {ρ : Round} {call : SendCall} (planned : call ∈ ρ.plan cfg)
    (due : paths.dueAt ⟨call, ρ.firstStage call⟩ = some t) : ρ.start ≤ t := by
  have forward := paths.forward_nonneg call.sock
  rcases ρ with ⟨r, _ | ⟨fast, E⟩, start⟩
  · rcases mem_plan_sampling.mp planned with rfl | rfl
    all_goals
      obtain rfl : start + _ = t := Option.some.inj due
      exact le_add_of_nonneg_right forward
  · rcases mem_plan_estimation.mp planned with rfl | ⟨i, -, rfl⟩
    · obtain rfl : start + _ = t := Option.some.inj due
      exact le_add_of_nonneg_right forward
    · obtain rfl : start + cfg.probeOffset E i = t := Option.some.inj due
      exact le_add_of_nonneg_right (Config.probeOffset_nonneg i)

/-- A packet that a step adds is not due before the step. -/
theorem Invariant.le_dueAt_of_added (h : s.Invariant cfg c₀) (adm : cfg.Admissible)
    (step : s.next cfg e = some s') (mem : p ∈ s'.packets.drop s.packets.length)
    (due : paths.dueAt p = some t) : e.time ≤ t := by
  have kept : ∀ {packets : List Packet}, s'.packets = packets →
      packets.length = s.packets.length → e.time ≤ t := by
    intro packets eq length
    rw [eq, ← length, List.drop_length] at mem
    exact absurd mem List.not_mem_nil
  rcases h.phase with ⟨ρ, c, run⟩ | quiet
  · obtain ⟨-, q, get, cases⟩ := next_cases step
    rcases cases with ⟨due, stage, rfl⟩ | ⟨seqTs, sentAt, stage, rfl⟩ |
      ⟨seqTs, sentAt, servedAt, stage, rfl⟩
    · exact kept rfl (List.length_set ..)
    · obtain ⟨echo, server', after, -⟩ :=
        run.carries.serve e.time run.started.bound run.server get stage
      exact kept (congrArg packets after) (List.length_set ..)
    · by_cases one : s.outstanding = 1
      · cases (run.close e.time adm get stage one).follows with
        | round ρ' c' run' number start launched =>
            have length : (s.deliver e.time e.packet q seqTs sentAt servedAt).packets.length =
                s.packets.length := List.length_set ..
            rw [launched.packets, ← length, List.drop_left] at mem
            obtain ⟨call, planned, rfl⟩ := List.mem_map.mp mem
            exact start ▸ le_dueAt_of_planned planned due
        | nothing quiet packets sentLog => exact kept packets (List.length_set ..)
      · exact kept (congrArg packets (run.recv_eq e.time get stage one)) (List.length_set ..)
  · rw [quiet.next_eq_none] at step
    cases step

/-- A step asks for nothing in its past. -/
theorem Moves.fresh (moves : Moves s e s')
    (added : ∀ p ∈ s'.packets.drop s.packets.length, ∀ t ∈ paths.dueAt p, e.time ≤ t) :
    ∀ e' ∈ s'.agenda paths, e' ∈ s.agenda paths ∨ e.time ≤ e'.time := by
  intro e' mem'
  obtain ⟨q, get', due'⟩ := mem_agenda.mp mem'
  by_cases old : e'.packet < s.packets.length
  · by_cases same : e'.packet = e.packet
    · right
      have forward := paths.forward_nonneg q.sock
      have reverse := paths.reverse_nonneg q.sock
      cases moves with
      | sent p get stage packets =>
          rw [packets, same, List.getElem?_set_self (same ▸ old)] at get'
          obtain rfl := Option.some.inj get'
          obtain eq : e.time + paths.forward p.sock = e'.time := Option.some.inj due'
          exact eq ▸ le_add_of_nonneg_right forward
      | served p seqTs sentAt echo get stage packets =>
          rw [packets, same, List.getElem?_set_self (same ▸ old)] at get'
          obtain rfl := Option.some.inj get'
          obtain eq : e.time + paths.reverse p.sock = e'.time := Option.some.inj due'
          exact eq ▸ le_add_of_nonneg_right reverse
      | received p seqTs sentAt servedAt added' get stage stamp entered packets =>
          rw [packets, List.getElem?_append_left (by rwa [List.length_set]), same,
            List.getElem?_set_self (same ▸ old)] at get'
          obtain rfl := Option.some.inj get'
          cases due'
    · left
      refine mem_agenda.mpr ⟨q, ?_, due'⟩
      cases moves with
      | sent p get stage packets =>
          rwa [packets, List.getElem?_set_ne (Ne.symm same)] at get'
      | served p seqTs sentAt echo get stage packets =>
          rwa [packets, List.getElem?_set_ne (Ne.symm same)] at get'
      | received p seqTs sentAt servedAt added' get stage stamp entered packets =>
          rwa [packets, List.getElem?_append_left (by rwa [List.length_set]),
            List.getElem?_set_ne (Ne.symm same)] at get'
  · right
    refine added q ?_ e'.time due'
    rw [List.mem_iff_getElem?]
    refine ⟨e'.packet - s.packets.length, ?_⟩
    rw [List.getElem?_drop, Nat.add_sub_cancel' (Nat.le_of_not_lt old)]
    exact get'

/-- At the start nothing is due in the past. -/
theorem Start.ahead (start : Start cfg s₀) (adm : cfg.Admissible) :
    Ahead (agenda paths) Event.time now s₀ := by
  obtain ⟨ρ, c, idle, -, launched, packets, -, -, -, begin⟩ := start.launched adm
  intro e mem
  obtain ⟨p, get, due⟩ := mem_agenda.mp mem
  have member := List.mem_of_getElem? get
  rw [launched.packets, packets, List.nil_append] at member
  obtain ⟨call, planned, rfl⟩ := List.mem_map.mp member
  exact begin ▸ le_dueAt_of_planned planned due

/-- **Nothing is ever due in the past.** -/
theorem Start.paced_ahead (start : Start cfg s₀) (adm : cfg.Admissible)
    (reach : Reach (next cfg) (Paced paths) s₀ s) : Ahead (agenda paths) Event.time now s := by
  refine reach.invariant (start.ahead adm) fun reach _ paced step => ?_
  have inv := start.reach adm reach
  exact Earliest.ahead paced (next_now step) ((inv.moves adm step).fresh
    fun p mem t due => inv.le_dueAt_of_added adm step mem due)

/-- So the simulator keeps its clock. -/
theorem Paced.timely (paced : s.Paced paths e) (ahead : Ahead (agenda paths) Event.time now s) :
    s.Timely e := by
  refine ⟨ahead e paced.1, fun due scheduled => ?_⟩
  obtain ⟨p, get, dueAt⟩ := mem_agenda.mp paced.1
  rw [get, Option.bind_some, Option.mem_def] at scheduled
  unfold Paths.dueAt at dueAt
  cases stage : p.stage with
  | scheduled time =>
      rw [stage] at dueAt scheduled
      exact (Option.some.inj dueAt).symm.trans (Option.some.inj scheduled)
  | toServer seqTs sentAt =>
      rw [stage] at scheduled
      cases scheduled
  | toClient seqTs sentAt servedAt =>
      rw [stage] at scheduled
      cases scheduled
  | delivered =>
      rw [stage] at scheduled
      cases scheduled

/-! ## Every packet takes the delays of its path -/

/-- The packet entered the network at `t₀` or later, and has taken the delay of its
path if the server has processed it. -/
def Keeps (paths : Paths) (t₀ : Int) (p : Packet) : Prop :=
  match p.stage with
  | .scheduled due => t₀ ≤ due
  | .toServer _ sentAt => t₀ ≤ sentAt
  | .toClient _ sentAt servedAt => t₀ ≤ sentAt ∧ servedAt = sentAt + paths.forward p.sock
  | .delivered => True

/-- All packets of a run that began at `t₀` have taken the delays of their paths. -/
structure OnPaths (paths : Paths) (t₀ : Int) (s : Sys) : Prop where
  packets : ∀ p ∈ s.packets, Keeps paths t₀ p
  received : ConstantDelays s.receivedLog paths.forward paths.reverse

variable {t₀ : Int}

/-- What is on a path is due after `t₀`, and an echo more than that. -/
theorem Keeps.le_dueAt (h : Keeps paths t₀ p) (due : paths.dueAt p = some t) : t₀ ≤ t := by
  have forward := paths.forward_nonneg p.sock
  have reverse := paths.reverse_nonneg p.sock
  unfold Keeps at h
  unfold Paths.dueAt at due
  cases stage : p.stage with
  | scheduled time =>
      rw [stage] at h due
      exact Option.some.inj due ▸ h
  | toServer seqTs sentAt =>
      rw [stage] at h due
      obtain rfl : sentAt + paths.forward p.sock = t := Option.some.inj due
      exact le_add_of_le_of_nonneg h forward
  | toClient seqTs sentAt servedAt =>
      rw [stage] at h due
      obtain rfl : servedAt + paths.reverse p.sock = t := Option.some.inj due
      obtain ⟨sent, rfl⟩ := h
      omega
  | delivered =>
      rw [stage] at due
      cases due

theorem Keeps.lt_dueAt {seqTs : SeqTsHeader} {sentAt servedAt : Int} (h : Keeps paths t₀ p)
    (stage : p.stage = .toClient seqTs sentAt servedAt) (due : paths.dueAt p = some t) :
    t₀ < t := by
  have rtt := paths.rtt_pos p.sock
  rw [Keeps, stage] at h
  rw [Paths.dueAt, stage] at due
  obtain rfl : servedAt + paths.reverse p.sock = t := Option.some.inj due
  obtain ⟨sent, rfl⟩ := h
  omega

/-- What enters the network later than `t₀` keeps it. -/
theorem Keeps.of_entered {now : Int} (h : p.Entered now) (le : t₀ ≤ now)
    (notPast : ∀ t ∈ paths.dueAt p, now ≤ t) : Keeps paths t₀ p := by
  unfold Keeps
  rcases h.stage with stage | ⟨stage, -⟩
  · have due : paths.dueAt p = some p.ts := by rw [Paths.dueAt, stage]
    rw [stage]
    exact le.trans (notPast p.ts due)
  · rw [stage]
    exact le

theorem OnPaths.step (h : s.OnPaths paths t₀) (moves : Moves s e s') (mem : e ∈ s.agenda paths)
    (added : ∀ p ∈ s'.packets.drop s.packets.length, ∀ t ∈ paths.dueAt p, e.time ≤ t) :
    s'.OnPaths paths t₀ := by
  obtain ⟨q, get', due⟩ := mem_agenda.mp mem
  have keeps := h.packets q (List.mem_of_getElem? get')
  have le := keeps.le_dueAt due
  cases moves with
  | sent p get stage packets sentLog servedLog receivedLog =>
      constructor
      · rw [packets]
        exact Carries.forall_set h.packets le
      · rw [receivedLog]
        exact h.received
  | served p seqTs sentAt echo get stage packets sentLog servedLog receivedLog =>
      obtain rfl : p = q := Option.some.inj (get.symm.trans get')
      rw [Keeps, stage] at keeps
      rw [Paths.dueAt, stage] at due
      constructor
      · rw [packets]
        exact Carries.forall_set h.packets ⟨keeps, (Option.some.inj due).symm⟩
      · rw [receivedLog]
        exact h.received
  | received p seqTs sentAt servedAt new get stage stamp entered packets _ _ receivedLog =>
      obtain rfl : p = q := Option.some.inj (get.symm.trans get')
      rw [Keeps, stage] at keeps
      rw [Paths.dueAt, stage] at due
      constructor
      · rw [packets]
        intro x memX
        rcases List.mem_append.mp memX with old | memNew
        · have delivered : Keeps paths t₀ { p with stage := .delivered } := trivial
          exact Carries.forall_set h.packets delivered x old
        · refine .of_entered (entered x memNew) le (added x ?_)
          have length : (s.packets.set e.packet { p with stage := .delivered }).length =
              s.packets.length := List.length_set ..
          rwa [packets, ← length, List.drop_left]
      · rw [receivedLog]
        constructor
        · intro a received
          rcases List.mem_append.mp received with old | last
          · exact h.received.forward a old
          · rw [List.mem_singleton.mp last]
            exact keeps.2
        · intro a received
          rcases List.mem_append.mp received with old | last
          · exact h.received.reverse a old
          · rw [List.mem_singleton.mp last]
            exact (Option.some.inj due).symm

/-- No echo arrives at time 0. -/
theorem OnPaths.arrivalsPositive (h : s.OnPaths paths t₀) (nonneg : 0 ≤ t₀)
    (paced : s.Paced paths e) : s.ArrivalsPositive e := by
  obtain ⟨p, get, due⟩ := mem_agenda.mp paced.1
  intro echo
  rw [get, Option.any_some] at echo
  cases stage : p.stage with
  | toClient seqTs sentAt servedAt =>
      have later := (h.packets p (List.mem_of_getElem? get)).lt_dueAt stage due
      omega
  | scheduled due =>
      rw [stage] at echo
      cases echo
  | toServer seqTs sentAt =>
      rw [stage] at echo
      cases echo
  | delivered =>
      rw [stage] at echo
      cases echo

theorem Start.paced_onPaths (start : Start cfg s₀) (adm : cfg.Admissible)
    (reach : Reach (next cfg) (Paced paths) s₀ s) : s.OnPaths paths s₀.now := by
  have init : s₀.OnPaths paths s₀.now := by
    obtain ⟨ρ, c, idle, -, launched, packets, -, -, received, begin⟩ := start.launched adm
    constructor
    · intro p mem
      rw [launched.packets, packets, List.nil_append] at mem
      obtain ⟨call, planned, rfl⟩ := List.mem_map.mp mem
      exact .of_entered (entered_firstStage planned) begin.ge fun t due =>
        le_dueAt_of_planned planned due
    · rw [received]
      exact ⟨by simp, by simp⟩
  refine reach.invariant init fun reach h paced step => ?_
  have inv := start.reach adm reach
  exact h.step (inv.moves adm step) paced.1 fun p mem t due =>
    inv.le_dueAt_of_added adm step mem due

/-- **The event loop refines the system.**  A run over paths with fixed delays is a
run under the simulator's clock in which nothing arrives at time 0, and everything
the client receives in it has taken the delays of the paths. -/
theorem Start.paced_simulated (start : Start cfg s₀) (adm : cfg.Admissible) (nonneg : 0 ≤ s₀.now)
    (reach : Reach (next cfg) (Paced paths) s₀ s) :
    Reach (next cfg) Simulated s₀ s ∧
      ConstantDelays s.receivedLog paths.forward paths.reverse := by
  refine ⟨reach.strengthen fun reach paced _ => ?_, (start.paced_onPaths adm reach).received⟩
  exact ⟨paced.timely (start.paced_ahead adm reach),
    (start.paced_onPaths adm reach).arrivalsPositive nonneg paced⟩

/-! ## The loop does not stall -/

/-- What is on the agenda can be run. -/
theorem Invariant.next_isSome (h : s.Invariant cfg c₀) (mem : e ∈ s.agenda paths) :
    (s.next cfg e).isSome := by
  obtain ⟨p, get, due⟩ := mem_agenda.mp mem
  have out := outstanding_of_dueAt due
  obtain ⟨ρ, c, run⟩ := h.running (List.mem_of_getElem? get) out
  unfold next
  rw [run.running, get]
  dsimp only [Option.isSome_none]
  cases stage : p.stage with
  | scheduled due => rfl
  | toServer seqTs sentAt => rfl
  | toClient seqTs sentAt servedAt => rfl
  | delivered => exact absurd stage out

/-- The simulation: at most `fuel` events, of simultaneous ones that of the first packet. -/
def simulate (cfg : Config) (paths : Paths) (fuel : Nat) (s : Sys) : Sys :=
  eventLoop (next cfg) (agenda paths) Event.time fuel s

theorem reach_simulate (fuel : Nat) :
    Reach (next cfg) (Paced paths) s (simulate cfg paths fuel s) :=
  reach_eventLoop fuel

/-- No packet has more than three steps before it, none that is to come more than four. -/
theorem Invariant.work_le (h : s.Invariant cfg c₀) :
    work cfg (volume cfg c₀) s ≤ 4 * totalPackets cfg := by
  have packets := h.packets_le
  have each : ∀ l : List Packet, (l.map fun p => p.stage.work).sum ≤ 3 * l.length := by
    intro l
    induction l with
    | nil => exact Nat.le_refl 0
    | cons p l ih =>
        have first : p.stage.work ≤ 3 := by cases p.stage <;> simp [Stage.work]
        rw [List.map_cons, List.sum_cons, List.length_cons]
        omega
  have sum := each s.packets
  unfold work
  omega

/-- **The simulation ends**: with four events for each packet of all rounds to spend,
nothing is left on the agenda. -/
theorem Start.agenda_simulate (start : Start cfg s₀) (adm : cfg.Admissible) {fuel : Nat}
    (enough : 4 * totalPackets cfg ≤ fuel) : (simulate cfg paths fuel s₀).agenda paths = [] := by
  refine agenda_eventLoop (work cfg (volume cfg s₀.client)) ?_ ?_ .refl ?_
  · intro s e reach mem
    exact (start.reach adm reach).next_isSome mem
  · intro s s' e reach step
    exact (start.reach adm reach).work_lt adm step
  · exact (start.invariant adm).work_le.trans enough

end Sys

end OwdPacing
