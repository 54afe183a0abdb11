import OwdPacing.Accounting

/-!
# Logs and the clock

What one step adds to the logs, and what follows under the simulator's clock:
the logs are in the order of time, and every packet is sent when its timestamp
says.
-/

namespace OwdPacing

open Container OWdClientBasic Round Runs

/-- The packet enters the network at `now`: sent, or scheduled for the time of its timestamp. -/
structure Packet.Entered (now : Int) (p : Packet) : Prop where
  stage : p.stage = .scheduled p.ts ∨ p.stage = .toServer (sendHeader p.seqNb p.ts) now ∧ p.ts = now

/-- When the packet was sent, while it is under way. -/
def Stage.sentAt? : Stage → Option Int
  | .scheduled _ => none
  | .toServer _ sentAt => some sentAt
  | .toClient _ sentAt _ => some sentAt
  | .delivered => none

namespace Sys

variable {cfg : Config} {earlier : Nat} {ρ : Round} {s s' s₀ : Sys} {c c₀ : OWdClientBasic}
  {e : Event} {now : Int}

/-! ## What a step adds -/

/-- One step: a packet is sent, served, or received.  A receipt may put the
packets of a new round into the network. -/
inductive Moves (s : Sys) (e : Event) (s' : Sys) : Prop
  | sent (p : Packet) (get : s.packets[e.packet]? = some p) (stage : p.stage = .scheduled p.ts)
      (packets : s'.packets = s.packets.set e.packet
        { p with stage := .toServer (sendHeader p.seqNb p.ts) e.time })
      (sentLog : s'.sentLog = s.sentLog ++ [⟨p.tag, e.time⟩])
      (servedLog : s'.servedLog = s.servedLog) (receivedLog : s'.receivedLog = s.receivedLog)
  | served (p : Packet) (seqTs : SeqTsHeader) (sentAt : Int) (echo : SeqTsHeader)
      (get : s.packets[e.packet]? = some p) (stage : p.stage = .toServer seqTs sentAt)
      (packets : s'.packets = s.packets.set e.packet
        { p with stage := .toClient echo sentAt e.time })
      (sentLog : s'.sentLog = s.sentLog)
      (servedLog : s'.servedLog = s.servedLog ++ [⟨p.tag, e.time⟩])
      (receivedLog : s'.receivedLog = s.receivedLog)
  | received (p : Packet) (seqTs : SeqTsHeader) (sentAt servedAt : Int) (added : List Packet)
      (get : s.packets[e.packet]? = some p) (stage : p.stage = .toClient seqTs sentAt servedAt)
      (stamp : seqTs.receiverTs = p.ts) (entered : ∀ q ∈ added, q.Entered e.time)
      (packets : s'.packets = s.packets.set e.packet { p with stage := .delivered } ++ added)
      (sentLog : s'.sentLog = s.sentLog ++ added.filterMap Packet.sent?)
      (servedLog : s'.servedLog = s.servedLog)
      (receivedLog : s'.receivedLog =
        s.receivedLog ++ [⟨p.tag, p.sock, seqTs, sentAt, servedAt, e.time⟩])

theorem entered_firstStage {call : SendCall} (planned : call ∈ ρ.plan cfg) :
    Packet.Entered ρ.start ⟨call, ρ.firstStage call⟩ := by
  constructor
  rcases ρ with ⟨r, _ | ⟨fast, E⟩, start⟩
  · rcases mem_plan_sampling.mp planned with rfl | rfl <;> exact .inr ⟨rfl, rfl⟩
  · rcases mem_plan_estimation.mp planned with rfl | ⟨i, -, rfl⟩
    · exact .inr ⟨rfl, rfl⟩
    · exact .inl rfl

/-- The packets that the start of a round puts into the network. -/
theorem Launched.entered (h : Launched cfg ρ s s') :
    ∃ added : List Packet, (∀ q ∈ added, q.Entered ρ.start) ∧ s'.packets = s.packets ++ added ∧
      s'.sentLog = s.sentLog ++ added.filterMap Packet.sent? := by
  refine ⟨_, ?_, h.packets, h.sentLog⟩
  intro q mem
  obtain ⟨call, planned, rfl⟩ := List.mem_map.mp mem
  exact entered_firstStage planned

/-- What a handler leaves the clock at. -/
theorem afterHandler_now (result : EStateM.Result Failure OWdClientBasic Unit) :
    (s.afterHandler now result).now = now := by
  cases result <;> rfl

theorem next_now (step : s.next cfg e = some s') : s'.now = e.time := by
  obtain ⟨-, p, -, ⟨_, _, rfl⟩ | ⟨seqTs, sentAt, _, rfl⟩ | ⟨_, _, _, _, rfl⟩⟩ := next_cases step
  · rfl
  · unfold serve
    cases (handleReadPacket e.time seqTs).run s.server <;> rfl
  · exact afterHandler_now _

/-- **What a step is**, from a state of a run. -/
theorem Invariant.moves (h : s.Invariant cfg c₀) (adm : cfg.Admissible)
    (step : s.next cfg e = some s') : Moves s e s' := by
  rcases h.phase with ⟨ρ, c, run⟩ | quiet
  · obtain ⟨-, p, get, cases⟩ := next_cases step
    have mem : p ∈ s.packets := List.mem_of_getElem? get
    rcases cases with ⟨due, stage, rfl⟩ | ⟨seqTs, sentAt, stage, rfl⟩ |
      ⟨seqTs, sentAt, servedAt, stage, rfl⟩
    · obtain rfl := run.carries.scheduled p mem due stage
      exact .sent p get stage rfl rfl rfl rfl
    · obtain ⟨echo, server', after, -⟩ :=
        run.carries.serve e.time run.started.bound run.server get stage
      rw [after]
      exact .served p seqTs sentAt echo get stage rfl rfl rfl rfl
    · have stamp := (run.carries.toClient p mem seqTs sentAt servedAt stage).receiverTs
      by_cases one : s.outstanding = 1
      · have closes := run.close e.time adm get stage one
        cases closes.follows with
        | round ρ' c' run' number start launched =>
            obtain ⟨added, entered, packets, sentLog⟩ := launched.entered
            exact .received p seqTs sentAt servedAt added get stage stamp (start ▸ entered) packets
              sentLog closes.servedLog closes.receivedLog
        | nothing quiet packets sentLog =>
            exact .received p seqTs sentAt servedAt [] get stage stamp (by simp)
              (packets.trans (List.append_nil _).symm) (sentLog.trans (List.append_nil _).symm)
              closes.servedLog closes.receivedLog
      · obtain ⟨-, -, servedLog, receivedLog⟩ := run.recv e.time get stage one
        have handled := run.recv_eq e.time get stage one
        rw [handled] at servedLog receivedLog ⊢
        exact .received p seqTs sentAt servedAt [] get stage stamp (by simp)
          (List.append_nil _).symm (List.append_nil _).symm servedLog receivedLog
  · rw [quiet.next_eq_none] at step
    cases step

/-! ## Packets are sent when their timestamps say -/

/-- Every packet that has been sent was sent at its timestamp. -/
structure OnTime (s : Sys) : Prop where
  stamped : ∀ p ∈ s.packets, ∀ t ∈ p.stage.sentAt?, t = p.ts
  logged : ∀ p ∈ s.packets, p.stage.due? = none → ⟨p.tag, p.ts⟩ ∈ s.sentLog
  sent : ∀ x ∈ s.sentLog, ∃ call ∈ s.packets.map Packet.toSendCall,
    call.tag = x.tag ∧ call.ts = x.time
  arrivals : ∀ a ∈ s.receivedLog, a.sentAt = a.seqTs.receiverTs ∧ ⟨a.tag, a.sentAt⟩ ∈ s.sentLog

/-- New packets keep it. -/
theorem OnTime.enter {added : List Packet} (h : s.OnTime)
    (entered : ∀ q ∈ added, q.Entered now) (packets : s'.packets = s.packets ++ added)
    (sentLog : s'.sentLog = s.sentLog ++ added.filterMap Packet.sent?)
    (receivedLog : s'.receivedLog = s.receivedLog) : s'.OnTime where
  stamped p mem t sent := by
    rw [packets] at mem
    rcases List.mem_append.mp mem with old | new
    · exact h.stamped p old t sent
    · rcases (entered p new).stage with stage | ⟨stage, now⟩ <;> rw [stage] at sent
      · cases sent
      · cases sent
        exact now.symm
  logged p mem notDue := by
    rw [packets] at mem
    rw [sentLog]
    rcases List.mem_append.mp mem with old | new
    · exact List.mem_append_left _ (h.logged p old notDue)
    · refine List.mem_append_right _ (List.mem_filterMap.mpr ⟨p, new, ?_⟩)
      rcases (entered p new).stage with stage | ⟨stage, now⟩ <;> rw [stage] at notDue
      · cases notDue
      · rw [Packet.sent?, stage, now]
  sent x mem := by
    rw [sentLog] at mem
    rw [packets, List.map_append]
    rcases List.mem_append.mp mem with old | new
    · obtain ⟨call, memCall, same⟩ := h.sent x old
      exact ⟨call, List.mem_append_left _ memCall, same⟩
    · obtain ⟨q, memQ, log⟩ := List.mem_filterMap.mp new
      refine ⟨q.toSendCall, List.mem_append_right _ (List.mem_map_of_mem memQ), ?_⟩
      rcases (entered q memQ).stage with stage | ⟨stage, now⟩ <;>
        rw [Packet.sent?, stage] at log <;> cases log
      exact ⟨rfl, now⟩
  arrivals a mem := by
    rw [receivedLog] at mem
    rw [sentLog]
    exact ⟨(h.arrivals a mem).1, List.mem_append_left _ (h.arrivals a mem).2⟩

/-- The receipt of an echo keeps it. -/
theorem OnTime.deliver {i : Nat} {p : Packet} {seqTs : SeqTsHeader} {sentAt servedAt : Int}
    (h : s.OnTime) (now : Int) (get : s.packets[i]? = some p)
    (stage : p.stage = .toClient seqTs sentAt servedAt) (stamp : seqTs.receiverTs = p.ts) :
    (s.deliver now i p seqTs sentAt servedAt).OnTime := by
  have mem : p ∈ s.packets := List.mem_of_getElem? get
  have calls := Carries.map_call_set .delivered get
  constructor
  · exact Carries.forall_set h.stamped fun t sent => by cases sent
  · exact Carries.forall_set h.logged fun _ => h.logged p mem (by rw [stage]; rfl)
  · rw [Sys.deliver, calls]
    exact h.sent
  · intro a received
    rcases List.mem_append.mp received with old | new
    · exact h.arrivals a old
    · have sent := h.stamped p mem sentAt (by rw [stage]; rfl)
      rw [List.mem_singleton.mp new]
      exact ⟨sent.trans stamp.symm, sent ▸ h.logged p mem (by rw [stage]; rfl)⟩

/-- **A timely step keeps it.** -/
theorem OnTime.step (h : s.OnTime) (timely : s.Timely e) (moves : Moves s e s') : s'.OnTime := by
  cases moves with
  | sent p get stage packets sentLog servedLog receivedLog =>
      have due : e.time = p.ts := timely.2 p.ts (by rw [get, Option.bind_some, stage]; rfl)
      have mem : p ∈ s.packets := List.mem_of_getElem? get
      have calls := Carries.map_call_set (.toServer (sendHeader p.seqNb p.ts) e.time) get
      constructor
      · rw [packets]
        refine Carries.forall_set h.stamped fun t sent => ?_
        cases sent
        exact due
      · rw [packets, sentLog]
        refine Carries.forall_set
          (fun q memQ notDue => List.mem_append_left _ (h.logged q memQ notDue)) fun _ => ?_
        rw [← due]
        exact List.mem_append_right _ (List.mem_singleton.mpr rfl)
      · rw [packets, calls, sentLog]
        intro x memX
        rcases List.mem_append.mp memX with old | new
        · exact h.sent x old
        · rw [List.mem_singleton.mp new]
          exact ⟨_, List.mem_map_of_mem mem, rfl, due.symm⟩
      · rw [receivedLog, sentLog]
        exact fun a received =>
          ⟨(h.arrivals a received).1, List.mem_append_left _ (h.arrivals a received).2⟩
  | served p seqTs sentAt echo get stage packets sentLog servedLog receivedLog =>
      have mem : p ∈ s.packets := List.mem_of_getElem? get
      have calls := Carries.map_call_set (.toClient echo sentAt e.time) get
      constructor
      · rw [packets]
        refine Carries.forall_set h.stamped fun t sent => ?_
        cases sent
        exact h.stamped p mem sentAt (by rw [stage]; rfl)
      · rw [packets, sentLog]
        exact Carries.forall_set h.logged fun _ => h.logged p mem (by rw [stage]; rfl)
      · rw [packets, calls, sentLog]
        exact h.sent
      · rw [receivedLog, sentLog]
        exact h.arrivals
  | received p seqTs sentAt servedAt added get stage stamp entered packets sentLog _ receivedLog =>
      exact (h.deliver e.time get stage stamp).enter entered packets sentLog receivedLog

/-- Every packet of a run is sent at its timestamp. -/
theorem Start.onTime (start : Start cfg s₀) (adm : cfg.Admissible)
    (reach : Reach (next cfg) Timely s₀ s) : s.OnTime := by
  have init : s₀.OnTime := by
    obtain ⟨ρ, c, idle, -, launched, packets, sentLog, -, received, -⟩ := start.launched adm
    obtain ⟨added, entered, packets', sentLog'⟩ := launched.entered
    refine OnTime.enter (s := { s₀ with packets := [], sentLog := [], receivedLog := [] })
      ⟨by simp, by simp, by simp, by simp⟩ entered ?_ ?_ received
    · rw [packets', packets]
    · rw [sentLog', sentLog]
  exact reach.invariant init fun reach h timely step =>
    h.step timely ((start.reach adm reach).moves adm step)

/-! ## The logs are in the order of time -/

/-- The server's and the client's log are in the order of time. -/
structure Clocked (s : Sys) : Prop where
  served : Ascending Logged.time s.servedLog s.now
  received : Ascending Arrival.time s.receivedLog s.now

theorem Clocked.step (h : s.Clocked) (timely : s.Timely e) (now : s'.now = e.time)
    (moves : Moves s e s') : s'.Clocked := by
  have le := timely.1
  cases moves with
  | sent p get stage packets sentLog servedLog receivedLog =>
      constructor
      · rw [servedLog, now]
        exact h.served.later le
      · rw [receivedLog, now]
        exact h.received.later le
  | served p seqTs sentAt echo get stage packets sentLog servedLog receivedLog =>
      constructor
      · rw [servedLog, now]
        exact h.served.concat le rfl
      · rw [receivedLog, now]
        exact h.received.later le
  | received p seqTs sentAt servedAt added get stage stamp entered packets sentLog servedLog
      receivedLog =>
      constructor
      · rw [servedLog, now]
        exact h.served.later le
      · rw [receivedLog, now]
        exact h.received.concat le rfl

theorem Start.clocked (start : Start cfg s₀) (adm : cfg.Admissible)
    (reach : Reach (next cfg) Timely s₀ s) : s.Clocked := by
  have init : s₀.Clocked := by
    obtain ⟨-, -, -, -, -, -, -, served, received, -⟩ := start.launched adm
    exact ⟨by rw [served]; exact .nil, by rw [received]; exact .nil⟩
  exact reach.invariant init fun reach h timely step =>
    h.step timely (next_now step) ((start.reach adm reach).moves adm step)

/-- Under the assumption on the client's clock nothing was received at time 0. -/
theorem Start.arrivals_positive (start : Start cfg s₀) (adm : cfg.Admissible)
    (reach : Reach (next cfg) ArrivalsPositive s₀ s) : ∀ a ∈ s.receivedLog, 0 < a.time := by
  have init : ∀ a ∈ s₀.receivedLog, 0 < a.time := by
    obtain ⟨-, -, -, -, -, -, -, -, received, -⟩ := start.launched adm
    rw [received]
    exact fun a mem => absurd mem List.not_mem_nil
  refine reach.invariant (I := fun s => ∀ a ∈ s.receivedLog, 0 < a.time) init
    fun {s s' e} reach h positive step => ?_
  cases (start.reach adm reach).moves adm step with
  | sent _ _ _ _ _ _ receivedLog => exact receivedLog ▸ h
  | served _ _ _ _ _ _ _ _ _ receivedLog => exact receivedLog ▸ h
  | received p seqTs sentAt servedAt added get stage _ _ _ _ _ receivedLog =>
      have new : 0 < e.time := positive (by rw [get, Option.any_some, stage]; rfl)
      rw [receivedLog]
      intro a mem
      rcases List.mem_append.mp mem with old | last
      · exact h a old
      · rw [List.mem_singleton.mp last]
        exact new

end Sys

end OwdPacing
