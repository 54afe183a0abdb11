import OwdPacing.Termination

/-!
# A network that loses packets

UDP may lose a request or an echo, and once `OwdServer::StopApplication` has closed its
sockets the server processes no request any more; the client has no timer that would
notice.  A run with losses is a run of the system without them as far as the client,
the server and the logs go, and from the first loss on the round in progress never ends.
-/

namespace OwdPacing

open Container OWdClientBasic Round Runs

/-- The packet is a request on its way to the server. -/
def Stage.isRequest : Stage → Bool
  | .toServer _ _ => true
  | _ => false

/-- The packet is in the network, where it can be lost. -/
def Stage.inFlight (stage : Stage) : Bool := stage.isRequest || stage.isEcho

/-- What happens in a network that loses packets. -/
inductive LossyEvent
  /-- A packet takes its next step. -/
  | step (e : Sys.Event)
  /-- A packet is lost. -/
  | lose (packet : Nat)
  /-- `OwdServer::StopApplication`. -/
  | stopApplication
  deriving DecidableEq, Repr

/-- The system in such a network. -/
structure Lossy where
  sys : Sys
  /-- The server has closed its sockets. -/
  closed : Bool
  /-- Ghost: the packets lost. -/
  lost : List Packet

namespace Lossy

variable (cfg : Config)

/-- Nothing lost yet. -/
def start (s : Sys) : Lossy := ⟨s, false, []⟩

/-- The loss of packet number `i`. -/
def lose (x : Lossy) (i : Nat) : Option Lossy :=
  if x.sys.halted.isSome then none else
    match x.sys.packets[i]? with
    | none => none
    | some p =>
      if p.stage.inFlight then
        some { x with
          sys := { x.sys with packets := x.sys.packets.eraseIdx i }
          lost := p :: x.lost }
      else none

/-- One step; a request that reaches a closed socket is lost. -/
def next (x : Lossy) : LossyEvent → Option Lossy
  | .step e =>
      if x.closed && x.sys.packets[e.packet]?.any (·.stage.isRequest) then x.lose e.packet
      else (x.sys.next cfg e).map fun s => { x with sys := s }
  | .lose i => x.lose i
  | .stopApplication =>
      if x.sys.halted.isSome || x.closed then none else some { x with closed := true }

/-- The steps of the packets meet a guard. -/
def Meets (G : Sys → Sys.Event → Prop) (x : Lossy) : LossyEvent → Prop
  | .step e => G x.sys e
  | .lose _ | .stopApplication => True

instance (G : Sys → Sys.Event → Prop) [∀ s e, Decidable (G s e)] (x : Lossy) :
    (ev : LossyEvent) → Decidable (x.Meets G ev)
  | .step e => inferInstanceAs (Decidable (G x.sys e))
  | .lose _ | .stopApplication => inferInstanceAs (Decidable True)

end Lossy

namespace Sys

variable {cfg : Config} {s s' t t' s₀ : Sys} {c c₀ : OWdClientBasic} {e : Event} {p : Packet}
  {G : Sys → Event → Prop}

/-! ## A step looks at one packet -/

/-- The guard looks at the packet and the clock, but not at the other packets. -/
def Local (G : Sys → Event → Prop) : Prop :=
  ∀ {s : Sys} {l : List Packet} {e : Event} {j : Nat},
    s.packets[e.packet]? = l[j]? → G s e → G { s with packets := l } ⟨e.time, j⟩

theorem local_anyEvent : Local anyEvent := fun _ _ => trivial

/-- With other packets around it, a packet takes the same step. -/
theorem next_withPackets {l : List Packet} {j : Nat} (get : s.packets[e.packet]? = some p)
    (get' : l[j]? = some p) (step : s.next cfg e = some s') :
    ∃ q added, s'.packets = s.packets.set e.packet q ++ added ∧
      Sys.next cfg { s with packets := l } ⟨e.time, j⟩ =
        some { s' with packets := l.set j q ++ added } := by
  obtain ⟨running, q, got, cases⟩ := next_cases step
  obtain rfl : p = q := Option.some.inj (get.symm.trans got)
  have going : ¬ s.halted.isSome = true := by simp [running]
  unfold next
  dsimp only
  rw [if_neg going, get']
  dsimp only
  rcases cases with ⟨due, stage, rfl⟩ | ⟨seqTs, sentAt, stage, rfl⟩ |
    ⟨seqTs, sentAt, servedAt, stage, rfl⟩
  · rw [stage]
    refine ⟨_, [], (List.append_nil _).symm, ?_⟩
    rw [List.append_nil]
    rfl
  · rw [stage]
    unfold serve
    dsimp only
    cases (handleReadPacket e.time seqTs).run s.server with
    | ok echo server =>
        refine ⟨_, [], (List.append_nil _).symm, ?_⟩
        rw [List.append_nil]
    | error failure server =>
        have same : ∀ {packets : List Packet} {i : Nat}, packets[i]? = some p →
            packets.set i p = packets := by
          intro packets i got
          obtain ⟨lt, rfl⟩ := List.getElem?_eq_some_iff.mp got
          exact List.set_getElem_self lt
        refine ⟨p, [], ?_, ?_⟩
        · rw [same get, List.append_nil]
        · rw [same get', List.append_nil]
  · rw [stage]
    unfold recv afterHandler deliver
    dsimp only
    cases (handleRecv cfg e.time p.sock [seqTs]).run s.client with
    | ok _ c => exact ⟨_, _, rfl, rfl⟩
    | error failure c =>
        refine ⟨_, [], (List.append_nil _).symm, ?_⟩
        rw [List.append_nil]

end Sys

namespace Lossy

open Sys

variable {cfg : Config} {x x' : Lossy} {s₀ t t' : Sys} {ev : LossyEvent} {p : Packet} {i : Nat}
  {G : Sys → Event → Prop}

/-! ## What the losses hide -/

/-- `t` is the system with the lost packets put back. -/
structure Restores (x : Lossy) (t : Sys) : Prop where
  same : t = { x.sys with packets := t.packets }
  packets : t.packets.Perm (x.sys.packets ++ x.lost)
  lost : ∀ p ∈ x.lost, p.stage.inFlight

/-- What one step of the network does to the system without losses. -/
inductive Moved (cfg : Config) (x : Lossy) (t : Sys) (x' : Lossy) : LossyEvent → Sys → Prop
  | taken (e : Event) (j : Nat) (same : x.sys.packets[e.packet]? = t.packets[j]?) (t' : Sys)
      (step : t.next cfg ⟨e.time, j⟩ = some t') (closed : x'.closed = x.closed)
      (lost : x'.lost = x.lost) : Moved cfg x t x' (.step e) t'
  | lost (ev : LossyEvent) (p : Packet) (inFlight : p.stage.inFlight)
      (closed : x'.closed = x.closed) (lost : x'.lost = p :: x.lost) : Moved cfg x t x' ev t
  | stopped (closed : x.closed = false) (after : x' = { x with closed := true }) :
      Moved cfg x t x' .stopApplication t

theorem lose_cases (step : x.lose i = some x') :
    ∃ p, x.sys.packets[i]? = some p ∧ p.stage.inFlight ∧
      x' = { x with
        sys := { x.sys with packets := x.sys.packets.eraseIdx i }
        lost := p :: x.lost } := by
  unfold lose at step
  split at step
  · cases step
  · split at step
    · cases step
    · rename_i p get
      split at step
      · rename_i inFlight
        exact ⟨p, get, inFlight, (Option.some.inj step).symm⟩
      · cases step

/-- What one step can do: a packet is lost, or it takes its step, which is not that of a
request to a closed socket, or the server is stopped. -/
theorem next_cases (step : x.next cfg ev = some x') :
    (∃ i, x.lose i = some x') ∨
    (∃ e s', ev = .step e ∧
      (x.closed = true → ¬ x.sys.packets[e.packet]?.any (·.stage.isRequest)) ∧
      x.sys.next cfg e = some s' ∧ x' = { x with sys := s' }) ∨
    (ev = .stopApplication ∧ x.closed = false ∧ x' = { x with closed := true }) := by
  cases ev with
  | lose i => exact .inl ⟨i, step⟩
  | step e =>
      unfold next at step
      dsimp only at step
      split at step
      · exact .inl ⟨e.packet, step⟩
      · rename_i passes
        obtain ⟨s', taken, rfl⟩ := Option.map_eq_some_iff.mp step
        refine .inr (.inl ⟨e, s', rfl, fun closed request => ?_, taken, rfl⟩)
        exact passes (Bool.and_eq_true_iff.mpr ⟨closed, request⟩)
  | stopApplication =>
      unfold next at step
      dsimp only at step
      split at step
      · cases step
      · rename_i still
        have first : x.sys.halted = none ∧ x.closed = false := by simpa using still
        exact .inr (.inr ⟨rfl, first.2, (Option.some.inj step).symm⟩)

theorem Restores.lose (h : x.Restores t) (step : x.lose i = some x') :
    x'.Restores t ∧ Moved cfg x t x' ev t := by
  obtain ⟨p, get, inFlight, rfl⟩ := lose_cases step
  refine ⟨⟨h.same, perm_eraseIdx_append_cons h.packets get, ?_⟩, .lost ev p inFlight rfl rfl⟩
  intro q mem
  rcases List.mem_cons.mp mem with rfl | old
  · exact inFlight
  · exact h.lost q old

/-- **What a network with losses does, the one without them can follow.** -/
theorem Restores.step (h : x.Restores t) (step : x.next cfg ev = some x') :
    ∃ t', x'.Restores t' ∧ Moved cfg x t x' ev t' := by
  rcases next_cases step with ⟨i, lost⟩ | ⟨e, s', rfl, -, taken, rfl⟩ | ⟨rfl, closed, rfl⟩
  · exact ⟨t, h.lose lost⟩
  · obtain ⟨-, p, get, -⟩ := Sys.next_cases taken
    obtain ⟨j, got, set⟩ := exists_perm_set h.packets get
    obtain ⟨q, added, packets, follow⟩ := next_withPackets get got taken
    rw [← h.same] at follow
    refine ⟨_, ⟨rfl, ?_, h.lost⟩, .taken e j (get.trans got.symm) _ follow rfl rfl⟩
    have whole := (set q).append_right added
    have order : (x.lost ++ added).Perm (added ++ x.lost) := List.perm_append_comm
    rw [List.append_assoc] at whole
    dsimp only
    rw [packets, List.append_assoc]
    exact whole.trans (order.append_left _)
  · exact ⟨t, ⟨h.same, h.packets, h.lost⟩, .stopped closed rfl⟩

/-- A run with losses is, but for the packets lost, a run without. -/
theorem restored (localG : Local G) (reach : Reach (next cfg) (Meets G) (start s₀) x) :
    ∃ t, Reach (Sys.next cfg) G s₀ t ∧ x.Restores t := by
  have init : (start s₀).Restores s₀ := ⟨rfl, by simp [start], by simp [start]⟩
  refine reach.simulated init fun {x x' ev t} restores guard step => ?_
  obtain ⟨t', restores', moved⟩ := restores.step step
  refine ⟨t', ?_, restores'⟩
  cases moved with
  | taken e j same t' taken =>
      have guard : G { x.sys with packets := t.packets } ⟨e.time, j⟩ := localG same guard
      rw [← restores.same] at guard
      exact .step .refl guard taken
  | lost => exact .refl
  | stopped => exact .refl

theorem restored_any (reach : Reach (next cfg) anyEvent (start s₀) x) :
    ∃ t, Reach (Sys.next cfg) anyEvent s₀ t ∧ x.Restores t :=
  restored local_anyEvent (reach.mono fun _ ev _ => by cases ev <;> trivial)

/-- The first request is lost, the second one is served and its echo processed. -/
def firstLost : List LossyEvent := [.lose 0, .step ⟨10, 0⟩, .step ⟨80, 0⟩]

variable {c₀ : OWdClientBasic}

theorem outstanding_of_inFlight (inFlight : p.stage.inFlight) : p.Outstanding := by
  intro stage
  rw [stage] at inFlight
  cases inFlight

theorem Restores.client (h : x.Restores t) : t.client = x.sys.client := by rw [h.same]

theorem Restores.halted (h : x.Restores t) : t.halted = x.sys.halted := by rw [h.same]

theorem Restores.dumps (h : x.Restores t) : t.dumps = x.sys.dumps := by rw [h.same]

/-- What is lost stays outstanding. -/
theorem Restores.outstanding (h : x.Restores t) :
    t.outstanding = x.sys.outstanding + x.lost.length := by
  have all : x.lost.countP (fun p => p.Outstanding) = x.lost.length :=
    List.countP_eq_length.mpr fun p mem =>
      decide_eq_true (outstanding_of_inFlight (h.lost p mem))
  rw [Sys.outstanding, h.packets.countP_eq, List.countP_append, all]
  rfl

theorem Restores.running (h : x.Restores t) (inv : t.Invariant cfg c₀) (missing : x.lost ≠ []) :
    ∃ ρ c, t.Running cfg (volume cfg c₀) ρ c := by
  obtain ⟨p, mem⟩ := List.exists_mem_of_ne_nil _ missing
  have back : p ∈ t.packets := h.packets.mem_iff.mpr (List.mem_append_right _ mem)
  exact inv.running back (outstanding_of_inFlight (h.lost p mem))

/-- While packets are missing the client waits for them in a round. -/
theorem Restores.waiting (h : x.Restores t) (inv : t.Invariant cfg c₀) (adm : cfg.Admissible)
    (missing : x.lost ≠ []) :
    x.sys.halted = none ∧ x.sys.dumps = 0 ∧
      x.sys.client.m_inflight.toNat = x.sys.outstanding + x.lost.length ∧
      x.sys.client.m_owdRoundStats.length ≠ cfg.owdMaxRounds.toNat := by
  obtain ⟨ρ, c, run⟩ := h.running inv missing
  refine ⟨h.halted ▸ run.running, h.dumps ▸ run.dumps, ?_, h.client ▸ run.rounds_ne adm⟩
  rw [← h.client, ← h.outstanding]
  exact run.inflight

/-- With none missing and none outstanding the run has ended. -/
theorem Restores.outcome (h : x.Restores t) (inv : t.Invariant cfg c₀) (nil : x.lost = [])
    (none : x.sys.outstanding = 0) :
    x.sys.client.m_inflight.toNat = 0 ∧ x.sys.Outcome cfg := by
  have settled := h.outstanding
  rw [none, nil, List.length_nil] at settled
  rcases inv.phase with ⟨ρ, c, run⟩ | quiet
  · exact absurd settled (Nat.ne_of_gt run.busy)
  · have inflight := quiet.inflight
    have outcome := quiet.outcome
    rw [h.client] at inflight
    rw [h.same] at outcome
    refine ⟨by rw [inflight]; rfl, ?_⟩
    cases outcome with
    | finished running mode sampled all found dumps =>
        exact .finished running mode sampled all found dumps
    | aborted halted none all unknown dumps =>
        exact .aborted halted none all unknown dumps

/-- Without all its packets a round does not close. -/
theorem Restores.sameRound (h : x.Restores t) (inv : t.Invariant cfg c₀) (missing : x.lost ≠ [])
    (step : x.next cfg ev = some x') : SameRound x.sys.client x'.sys.client := by
  obtain ⟨t', restores', moved⟩ := h.step step
  rw [← h.client, ← restores'.client]
  cases moved with
  | lost => exact .refl
  | stopped => exact .refl
  | taken e j same t' taken =>
      obtain ⟨ρ, c, run⟩ := h.running inv missing
      obtain ⟨-, p, get, cases⟩ := Sys.next_cases taken
      rcases cases with ⟨due, stage, rfl⟩ | ⟨seqTs, sentAt, stage, rfl⟩ |
        ⟨seqTs, sentAt, servedAt, stage, rfl⟩
      · exact .refl
      · rw [(run.serve e.time get stage).2.1]
        exact .refl
      · have here : p ∈ x.sys.packets := List.mem_of_getElem? (same.trans get)
        have out : 0 < x.sys.outstanding := List.countP_pos_iff.mpr
          ⟨p, here, decide_eq_true (Carries.outstanding_of_toClient stage)⟩
        have positive : 0 < x.lost.length := List.length_pos_iff.mpr missing
        have more : t.outstanding ≠ 1 := by
          rw [h.outstanding]
          omega
        exact (run.recv e.time get stage more).2.1

/-- What is lost stays lost. -/
theorem lost_ne_nil (h : x.Restores t) (missing : x.lost ≠ []) (step : x.next cfg ev = some x') :
    x'.lost ≠ [] := by
  obtain ⟨t', -, moved⟩ := h.step step
  cases moved with
  | taken e j same t' taken closed lost =>
      rw [lost]
      exact missing
  | lost ev p inFlight closed lost =>
      rw [lost]
      exact List.cons_ne_nil _ _
  | stopped closed after =>
      rw [after]
      exact missing

/-- **A lost packet ends the experiment.**  From the first loss on, whatever happens, the
client stays in the round it is in and waits: the mode and all records stay as they are,
the counter of packets in flight does not return to zero, no assertion fails and no
samples are dumped. -/
theorem loss_stalls (start : Start cfg s₀) (adm : cfg.Admissible)
    (reach : Reach (next cfg) anyEvent (.start s₀) x) (missing : x.lost ≠ [])
    (later : Reach (next cfg) anyEvent x x') :
    x'.sys.halted = none ∧ x'.sys.dumps = 0 ∧ x'.sys.client.m_inflight ≠ 0 ∧
      x'.sys.client.m_currentMode = x.sys.client.m_currentMode ∧
      x'.sys.client.m_rttRoundStats = x.sys.client.m_rttRoundStats ∧
      x'.sys.client.m_owdRoundStats = x.sys.client.m_owdRoundStats := by
  have stays : x'.lost ≠ [] ∧ SameRound x.sys.client x'.sys.client := by
    refine later.invariant (I := fun y => y.lost ≠ [] ∧ SameRound x.sys.client y.sys.client)
      ⟨missing, .refl⟩ fun further before _ step => ?_
    obtain ⟨t, without, restores⟩ := restored_any (reach.trans further)
    have inv := start.reach adm without
    exact ⟨lost_ne_nil restores before.1 step,
      before.2.trans (restores.sameRound inv before.1 step)⟩
  obtain ⟨t, without, restores⟩ := restored_any (reach.trans later)
  obtain ⟨halted, dumps, inflight, -⟩ :=
    restores.waiting (start.reach adm without) adm stays.1
  refine ⟨halted, dumps, ?_, stays.2.mode, stays.2.rtt, stays.2.owd⟩
  intro none
  have positive := List.length_pos_iff.mpr stays.1
  rw [none] at inflight
  exact absurd inflight (Nat.ne_of_lt (Nat.add_pos_right _ positive))

theorem loss_stalls_firstLost : ∃ x,
    Reach (next .nanoseconds) anyEvent (.start (boot 0)) x ∧ x.sys.outstanding = 0 ∧
    x.sys.halted = none ∧ x.sys.dumps = 0 ∧ x.sys.client.m_rttRoundStats = [] := by
  have reach : Reach (next .nanoseconds) anyEvent (.start (boot 0))
      (final (next .nanoseconds) [.lose 0] (.start (boot 0))) := .final (by decide +kernel) .any
  have later : Reach (next .nanoseconds) anyEvent
      (final (next .nanoseconds) [.lose 0] (.start (boot 0)))
      (final (next .nanoseconds) [.step ⟨10, 0⟩, .step ⟨80, 0⟩]
        (final (next .nanoseconds) [.lose 0] (.start (boot 0)))) := .final (by decide +kernel) .any
  obtain ⟨halted, dumps, -, -, records, -⟩ :=
    loss_stalls (.boot 0) Config.nanoseconds_admissible reach (by decide +kernel) later
  exact ⟨_, reach.trans later, by decide +kernel, halted, dumps, records.trans (by decide +kernel)⟩

/-! ## Runs with losses end, too -/

/-- Number of steps the network has before it, at most. -/
def work (cfg : Config) (earlier : Nat) (x : Lossy) : Nat :=
  (x.sys.packets.map fun p => p.stage.work).sum +
    4 * (totalPackets cfg - (x.sys.packets.length + x.lost.length + earlier)) +
    (if x.closed then 0 else 1)

variable (cfg) in
/-- The steps of the lost packets are not taken. -/
theorem Restores.work (h : x.Restores t) (earlier : Nat) :
    Sys.work cfg earlier t + (if x.closed then 0 else 1) =
      x.work cfg earlier + (x.lost.map fun p => p.stage.work).sum := by
  have sum : (t.packets.map fun p => p.stage.work).sum = _ := (h.packets.map _).sum_eq
  have length := h.packets.length_eq
  rw [List.map_append, List.sum_append] at sum
  rw [List.length_append] at length
  unfold Sys.work Lossy.work
  omega

theorem Restores.work_lt (h : x.Restores t) (inv : t.Invariant cfg c₀) (adm : cfg.Admissible)
    (step : x.next cfg ev = some x') :
    x'.work cfg (volume cfg c₀) < x.work cfg (volume cfg c₀) := by
  obtain ⟨t', restores', moved⟩ := h.step step
  have before := h.work cfg (volume cfg c₀)
  have after := restores'.work cfg (volume cfg c₀)
  cases moved with
  | taken e j same t' taken closed lost =>
      have lower := inv.work_lt adm taken
      rw [closed, lost] at after
      omega
  | lost ev p inFlight closed lost =>
      have positive : 0 < p.stage.work := by
        cases stage : p.stage with
        | scheduled due => exact Nat.succ_pos _
        | toServer seqTs sentAt => exact Nat.succ_pos _
        | toClient seqTs sentAt servedAt => exact Nat.succ_pos _
        | delivered =>
            rw [stage] at inFlight
            cases inFlight
      rw [closed, lost, List.map_cons, List.sum_cons] at after
      omega
  | stopped closed stop =>
      rw [stop] at after ⊢
      rw [closed] at before
      simp only [Bool.false_eq_true, if_false, if_true] at before after
      omega

/-- When no packet can take a step, only lost ones are outstanding. -/
theorem Restores.outstanding_of_stuck (h : x.Restores t) (inv : t.Invariant cfg c₀)
    (stuck : ∀ e, x.next cfg (.step e) = none) : x.sys.outstanding = 0 := by
  by_contra busy
  obtain ⟨p, mem, out⟩ := List.countP_pos_iff.mp (Nat.pos_of_ne_zero busy)
  have out : p.Outstanding := of_decide_eq_true out
  obtain ⟨i, get⟩ := List.getElem?_of_mem mem
  have back : p ∈ t.packets := h.packets.mem_iff.mpr (List.mem_append_left _ mem)
  obtain ⟨ρ, c, run⟩ := inv.running back out
  have going : ¬ x.sys.halted.isSome = true := by
    rw [← h.halted, run.running]
    exact Bool.false_ne_true
  have step := stuck ⟨0, i⟩
  unfold next at step
  dsimp only at step
  split at step
  · rename_i request
    have inFlight : p.stage.inFlight := by
      rw [get, Option.any_some, Bool.and_eq_true] at request
      exact Bool.or_eq_true_iff.mpr (.inl request.2)
    rw [Lossy.lose, if_neg going, get] at step
    dsimp only at step
    rw [if_pos inFlight] at step
    cases step
  · rw [Option.map_eq_none_iff, Sys.next, if_neg going, get] at step
    dsimp only at step
    cases stage : p.stage with
    | delivered => exact out stage
    | scheduled due =>
        rw [stage] at step
        cases step
    | toServer seqTs sentAt =>
        rw [stage] at step
        cases step
    | toClient seqTs sentAt servedAt =>
        rw [stage] at step
        cases step

/-- **How a run with losses ends.**  No run is infinite.  When no packet can take a step
any more, the counter of packets in flight is the number of lost ones.  If there are
none, the run has ended like one without losses; otherwise no assertion has failed, an
estimation round is missing and nothing has been dumped. -/
theorem lossy_ends (start : Start cfg s₀) (adm : cfg.Admissible) :
    (¬ ∃ run : ℕ → Lossy, run 0 = .start s₀ ∧
      ∀ n, ∃ ev, (run n).next cfg ev = some (run (n + 1))) ∧
    ∀ x, Reach (next cfg) anyEvent (.start s₀) x → (∀ e, x.next cfg (.step e) = none) →
      x.sys.client.m_inflight.toNat = x.lost.length ∧
      (x.lost = [] → x.sys.Outcome cfg) ∧
      (x.lost ≠ [] → x.sys.halted = none ∧ x.sys.dumps = 0 ∧
        x.sys.client.m_owdRoundStats.length ≠ cfg.owdMaxRounds.toNat) := by
  constructor
  · rintro ⟨run, first, steps⟩
    have lower : ∀ {x x' ev}, Reach (next cfg) anyEvent (.start s₀) x → anyEvent x ev →
        x.next cfg ev = some x' →
        x'.work cfg (volume cfg s₀.client) < x.work cfg (volume cfg s₀.client) := by
      intro x x' ev reach _ step
      obtain ⟨t, without, restores⟩ := restored_any reach
      exact restores.work_lt (start.reach adm without) adm step
    refine no_infinite_run _ lower ⟨run, first, fun n => ?_⟩
    obtain ⟨ev, step⟩ := steps n
    exact ⟨ev, trivial, step⟩
  · intro x reach stuck
    obtain ⟨t, without, restores⟩ := restored_any reach
    have inv := start.reach adm without
    have none := restores.outstanding_of_stuck inv stuck
    by_cases nil : x.lost = []
    · obtain ⟨inflight, outcome⟩ := restores.outcome inv nil none
      exact ⟨by rw [inflight, nil, List.length_nil], fun _ => outcome,
        fun missing => absurd nil missing⟩
    · obtain ⟨halted, dumps, inflight, owd⟩ := restores.waiting inv adm nil
      rw [none, Nat.zero_add] at inflight
      exact ⟨inflight, fun nil' => absurd nil' nil, fun _ => ⟨halted, dumps, owd⟩⟩

theorem stuck_of_outstanding (none : x.sys.outstanding = 0) (closed : x.closed = false)
    (e : Event) : x.next cfg (.step e) = Option.none := by
  unfold next
  dsimp only
  rw [closed, Bool.false_and, if_neg Bool.false_ne_true, Option.map_eq_none_iff]
  by_contra some
  obtain ⟨s', step⟩ := Option.ne_none_iff_exists'.mp some
  obtain ⟨-, p, get, cases⟩ := Sys.next_cases step
  have settled : ¬ p.Outstanding := fun out => List.countP_eq_zero.mp none p
    (List.mem_of_getElem? get) (decide_eq_true out)
  rcases cases with ⟨due, stage, -⟩ | ⟨seqTs, sentAt, stage, -⟩ |
    ⟨seqTs, sentAt, servedAt, stage, -⟩
  · exact settled (Carries.outstanding_of_scheduled stage)
  · exact settled (Carries.outstanding_of_toServer stage)
  · exact settled (Carries.outstanding_of_toClient stage)

theorem lossy_ends_firstLost :
    (final (next .nanoseconds) firstLost (.start (boot 0))).sys.client.m_inflight.toNat = 1 := by
  have reach : Reach (next .nanoseconds) anyEvent (.start (boot 0))
      (final (next .nanoseconds) firstLost (.start (boot 0))) := .final (by decide +kernel) .any
  have stuck : ∀ e, (final (next .nanoseconds) firstLost (.start (boot 0))).next .nanoseconds
      (.step e) = none := stuck_of_outstanding (by decide +kernel) (by decide +kernel)
  have count := ((lossy_ends (.boot 0) Config.nanoseconds_admissible).2 _ reach stuck).1
  exact count.trans (by decide +kernel)

/-! ## A server that is stopped -/

/-- With its sockets closed the server processes nothing. -/
theorem servedLog_of_closed (closed : x.closed = true) (step : x.next cfg ev = some x') :
    x'.closed = true ∧ x'.sys.servedLog = x.sys.servedLog := by
  rcases next_cases step with ⟨i, lost⟩ | ⟨e, s', rfl, noRequest, taken, rfl⟩ | ⟨-, opened, -⟩
  · obtain ⟨p, -, -, rfl⟩ := lose_cases lost
    exact ⟨closed, rfl⟩
  · obtain ⟨-, p, get, cases⟩ := Sys.next_cases taken
    refine ⟨closed, ?_⟩
    rcases cases with ⟨due, stage, rfl⟩ | ⟨seqTs, sentAt, stage, rfl⟩ |
      ⟨seqTs, sentAt, servedAt, stage, rfl⟩
    · rfl
    · -- a request does not get past a closed socket
      have request := noRequest closed
      rw [get, Option.any_some, stage] at request
      exact absurd rfl request
    · dsimp only
      unfold recv afterHandler
      cases (handleRecv cfg e.time p.sock [seqTs]).run x.sys.client <;> rfl
  · rw [closed] at opened
    cases opened

/-- **The server must not be stopped early.**  If it is stopped before it has processed
the requests of all rounds, the samples are never dumped. -/
theorem stopped_early (start : Start cfg s₀) (adm : cfg.Admissible)
    (reach : Reach (next cfg) anyEvent (.start s₀) x) (closed : x.closed = true)
    (early : x.sys.servedLog.length + volume cfg s₀.client < totalPackets cfg)
    (later : Reach (next cfg) anyEvent x x') : x'.sys.dumps = 0 := by
  have frozen : x'.closed = true ∧ x'.sys.servedLog = x.sys.servedLog := by
    refine later.invariant
      (I := fun y => y.closed = true ∧ y.sys.servedLog = x.sys.servedLog) ⟨closed, rfl⟩ ?_
    intro x₁ x₂ ev _ before _ step
    obtain ⟨closed, same⟩ := servedLog_of_closed before.1 step
    exact ⟨closed, same.trans before.2⟩
  obtain ⟨t, without, restores⟩ := restored_any (reach.trans later)
  rw [← restores.dumps]
  rcases (start.reach adm without).phase with ⟨ρ, c, run⟩ | quiet
  · exact run.dumps
  · cases quiet.outcome with
    | aborted halted none all unknown dumps => exact dumps
    | finished running mode sampled all found dumps =>
        have tags : t.packets.map (fun p => p.tag) ⊆ t.served := by
          intro tag mem
          obtain ⟨p, member, rfl⟩ := List.mem_map.mp mem
          exact quiet.settled.served p member
        have enough := (quiet.settled.nodup.subperm tags).length_le
        have log : t.servedLog = x.sys.servedLog := by rw [restores.same, ← frozen.2]
        have packets := quiet.packets
        rw [served, List.length_map, List.length_map, log] at enough
        have total : volume cfg t.client = totalPackets cfg := by
          rw [volume, sampled, all, totalPackets]
        omega

theorem stopped_early_atOnce : ∃ x, Reach (next .nanoseconds) anyEvent (.start (boot 0)) x ∧
    x.lost.length = 2 ∧ x.sys.dumps = 0 := by
  have reach : Reach (next .nanoseconds) anyEvent (.start (boot 0))
      (final (next .nanoseconds) [.stopApplication] (.start (boot 0))) :=
    .final (by decide +kernel) .any
  have later : Reach (next .nanoseconds) anyEvent
      (final (next .nanoseconds) [.stopApplication] (.start (boot 0)))
      (final (next .nanoseconds) [.step ⟨10, 0⟩, .step ⟨30, 0⟩]
        (final (next .nanoseconds) [.stopApplication] (.start (boot 0)))) :=
    .final (by decide +kernel) .any
  exact ⟨_, reach.trans later, by decide +kernel, stopped_early (.boot 0)
    Config.nanoseconds_admissible reach (by decide +kernel) (by decide +kernel) later⟩

end Lossy

end OwdPacing
