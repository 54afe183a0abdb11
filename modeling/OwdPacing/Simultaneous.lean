import OwdPacing.Reachable

/-!
# Echoes that arrive together

Two echoes on different sockets that reach the client at the same time: each
writes fields of its own socket, or of its own path, and the second of them closes
the round in either order.  So the order in which the simulator runs the two
events does not matter.
-/

namespace OwdPacing

open Container OWdClientBasic Round Runs

/-! ## Two echoes before the end of the round -/

namespace OWdClientBasic

variable {c : OWdClientBasic} {now now' : Int} {sock sock' fast : Socket}
  {seqTs seqTs' : SeqTsHeader}

theorem measured_comm (ne : sock ≠ sock') (stats : RoundStats) :
    measured now sock seqTs (measured now' sock' seqTs' stats) =
      measured now' sock' seqTs' (measured now sock seqTs stats) := by
  unfold measured
  dsimp only
  rw [Function.update_comm ne, Function.update_comm ne, Function.update_comm ne]

/-- The counter of packets in flight is nothing to the measurements. -/
theorem rttEchoed_decrement :
    rttEchoed now sock seqTs c.decrement = (rttEchoed now sock seqTs c).decrement := by
  unfold rttEchoed
  rw [apply_ite decrement]
  rfl

theorem owdEchoed_decrement :
    owdEchoed fast now sock seqTs c.decrement = (owdEchoed fast now sock seqTs c).decrement := by
  unfold owdEchoed
  split_ifs <;> rfl

/-- An echo that cannot name the fast subflow only measures. -/
theorem rttEchoed_of_stale (stale : seqTs.seq + 1 ≠ c.m_lowestRoundSeq) :
    rttEchoed now sock seqTs c =
      { c with m_currentRoundStats := measured now sock seqTs c.m_currentRoundStats } := by
  rw [rttEchoed, if_neg fun fresh => stale fresh.1]

theorem rttEchoed_comm (ne : sock ≠ sock') (stale : seqTs.seq + 1 ≠ c.m_lowestRoundSeq) :
    rttEchoed now sock seqTs (rttEchoed now' sock' seqTs' c) =
      rttEchoed now' sock' seqTs' (rttEchoed now sock seqTs c) := by
  have low : (rttEchoed now' sock' seqTs' c).m_lowestRoundSeq = c.m_lowestRoundSeq := by
    rw [rttEchoed]
    split_ifs <;> rfl
  rw [rttEchoed_of_stale stale, rttEchoed_of_stale (low ▸ stale), rttEchoed, rttEchoed]
  dsimp only
  rw [measured_comm ne.symm]
  have known : (measured now sock seqTs (measured now' sock' seqTs'
      c.m_currentRoundStats)).ForwardFastSubflow =
        (measured now' sock' seqTs' c.m_currentRoundStats).ForwardFastSubflow := rfl
  rw [known]
  split_ifs <;> rfl

/-- The echo of a probe and that of the slow packet write different fields. -/
theorem owdEchoed_comm (ne : sock ≠ sock') :
    owdEchoed fast now sock seqTs (owdEchoed fast now' sock' seqTs' c) =
      owdEchoed fast now' sock' seqTs' (owdEchoed fast now sock seqTs c) := by
  unfold owdEchoed
  by_cases probe : sock = fast
  · have slow : sock' ≠ fast := fun same => ne (probe.trans same.symm)
    rw [if_pos probe, if_neg slow, if_neg slow, if_pos probe]
    rfl
  · have probe' : sock' = fast := by
      rcases sock'.eq_or_eq_other fast with same | other
      · exact same
      · exact absurd ((sock.eq_or_eq_other fast).resolve_left probe) (other ▸ ne)
    rw [if_neg probe, if_pos probe', if_pos probe', if_neg probe]
    rfl

end OWdClientBasic

section Echoed

variable {c : OWdClientBasic} {kind : RoundKind} {a b : Arrival}

/-- Two echoes on different sockets commute, when one of them cannot name the fast
subflow. -/
theorem echoed_comm (ne : a.sock ≠ b.sock)
    (stale : kind = .sampling →
      a.seqTs.seq + 1 ≠ c.m_lowestRoundSeq ∨ b.seqTs.seq + 1 ≠ c.m_lowestRoundSeq) :
    echoed kind (echoed kind c a) b = echoed kind (echoed kind c b) a := by
  cases kind with
  | sampling =>
      dsimp only [echoed]
      simp only [rttEchoed_decrement]
      rcases stale rfl with staleA | staleB
      · rw [rttEchoed_comm ne staleA]
      · rw [rttEchoed_comm ne.symm staleB]
  | estimation fast E =>
      dsimp only [echoed]
      simp only [owdEchoed_decrement]
      rw [owdEchoed_comm ne]

end Echoed

namespace Sys

variable {cfg : Config} {earlier : Nat} {ρ : Round} {s s₀ : Sys} {c : OWdClientBasic} {now : Int}
  {i j : Nat} {p q : Packet} {seqTs seqTs' : SeqTsHeader} {sentAt servedAt sentAt' servedAt' : Int}

/-- The end of a round of a kind. -/
def closeRound (cfg : Config) (now : Int) : RoundKind → ClientM Unit
  | .sampling => closeRttRound cfg now
  | .estimation _ _ => closeOwdRound cfg now

/-- What the handler makes of the client that has taken in an echo, with `left`
packets still outstanding. -/
def settle (cfg : Config) (now : Int) (kind : RoundKind) (left : Nat) (c : OWdClientBasic) :
    EStateM.Result Failure OWdClientBasic Unit :=
  if left = 0 then (closeRound cfg now kind).run c else .ok () c

/-- The system with other packets in the network. -/
def withPackets (s : Sys) (packets : List Packet) : Sys := { s with packets := packets }

/-- A handler overwrites the clock and the client, and leaves the log of receipts. -/
theorem afterHandler_congr (client : OWdClientBasic) (log : List Arrival) (t : Int)
    (result : EStateM.Result Failure OWdClientBasic Unit) :
    { s with now := t, client := client, receivedLog := log }.afterHandler now result =
      { s.afterHandler now result with receivedLog := log } := by
  cases result <;> rfl

namespace Running

/-- The receipt of an echo, from the state before it. -/
theorem recv_settle (h : s.Running cfg earlier ρ c) (now : Int) (get : s.packets[i]? = some p)
    (stage : p.stage = .toClient seqTs sentAt servedAt) :
    s.recv cfg now i p seqTs sentAt servedAt =
      (s.deliver now i p seqTs sentAt servedAt).afterHandler now
        (settle cfg now ρ.kind (s.deliver now i p seqTs sentAt servedAt).outstanding
          (echoed ρ.kind s.client ⟨p.tag, p.sock, seqTs, sentAt, servedAt, now⟩)) := by
  obtain ⟨-, received, fewer⟩ := h.carries.deliver now get stage
  have last : s.outstanding = 1 ↔ (s.deliver now i p seqTs sentAt servedAt).outstanding = 0 := by
    omega
  rw [Sys.recv, h.run_handleRecv now get stage, received, replay_concat, ← h.client, settle]
  simp only [last]
  cases ρ.kind <;> rfl

/-- Packets on different sockets are different packets. -/
theorem index_ne (getP : s.packets[i]? = some p) (getQ : s.packets[j]? = some q)
    (ne : p.sock ≠ q.sock) : i ≠ j := by
  rintro rfl
  exact ne (congrArg (fun p => p.sock) (Option.some.inj (getP.symm.trans getQ)))

/-- After the first of two echoes the round goes on. -/
theorem recv_first (h : s.Running cfg earlier ρ c) (now : Int) (getP : s.packets[i]? = some p)
    (stageP : p.stage = .toClient seqTs sentAt servedAt) (getQ : s.packets[j]? = some q)
    (stageQ : q.stage = .toClient seqTs' sentAt' servedAt') (ne : p.sock ≠ q.sock) :
    (s.recv cfg now i p seqTs sentAt servedAt).Running cfg earlier ρ c ∧
      s.recv cfg now i p seqTs sentAt servedAt =
        { s.deliver now i p seqTs sentAt servedAt with
          now := now
          client := echoed ρ.kind s.client ⟨p.tag, p.sock, seqTs, sentAt, servedAt, now⟩ } := by
  obtain ⟨-, received, fewer⟩ := h.carries.deliver now getP stageP
  have still : (s.deliver now i p seqTs sentAt servedAt).packets[j]? = some q :=
    (List.getElem?_set_ne (index_ne getP getQ ne)).trans getQ
  have left : 0 < (s.deliver now i p seqTs sentAt servedAt).outstanding :=
    List.countP_pos_iff.mpr ⟨q, List.mem_of_getElem? still,
      decide_eq_true (Carries.outstanding_of_toClient stageQ)⟩
  have more : s.outstanding ≠ 1 := by omega
  refine ⟨(h.recv now getP stageP more).1, ?_⟩
  rw [h.recv_eq now getP stageP more, received, replay_concat, ← h.client]

/-- What two echoes, one after the other, leave. -/
theorem recv_recv (h : s.Running cfg earlier ρ c) (now : Int) (getP : s.packets[i]? = some p)
    (stageP : p.stage = .toClient seqTs sentAt servedAt) (getQ : s.packets[j]? = some q)
    (stageQ : q.stage = .toClient seqTs' sentAt' servedAt') (ne : p.sock ≠ q.sock) :
    (s.recv cfg now i p seqTs sentAt servedAt).recv cfg now j q seqTs' sentAt' servedAt' =
      { (s.withPackets ((s.packets.set i { p with stage := .delivered }).set j
            { q with stage := .delivered })).afterHandler now
          (settle cfg now ρ.kind (((s.packets.set i { p with stage := .delivered }).set j
              { q with stage := .delivered }).countP fun p => p.Outstanding)
            (echoed ρ.kind (echoed ρ.kind s.client
              ⟨p.tag, p.sock, seqTs, sentAt, servedAt, now⟩)
              ⟨q.tag, q.sock, seqTs', sentAt', servedAt', now⟩)) with
        receivedLog := s.receivedLog ++ [⟨p.tag, p.sock, seqTs, sentAt, servedAt, now⟩] ++
          [⟨q.tag, q.sock, seqTs', sentAt', servedAt', now⟩] } := by
  obtain ⟨run, first⟩ := h.recv_first now getP stageP getQ stageQ ne
  have getQ' : (s.recv cfg now i p seqTs sentAt servedAt).packets[j]? = some q := by
    rw [first]
    exact (List.getElem?_set_ne (index_ne getP getQ ne)).trans getQ
  rw [run.recv_settle now getQ' stageQ, first]
  exact afterHandler_congr (s := s.withPackets _) ..

/-- One of two echoes on different sockets cannot name the fast subflow. -/
theorem stale_or_stale (h : s.Running cfg earlier ρ c) (getP : s.packets[i]? = some p)
    (stageP : p.stage = .toClient seqTs sentAt servedAt) (getQ : s.packets[j]? = some q)
    (stageQ : q.stage = .toClient seqTs' sentAt' servedAt') (ne : p.sock ≠ q.sock)
    (sampling : ρ.kind = .sampling) :
    seqTs.seq + 1 ≠ s.client.m_lowestRoundSeq ∨ seqTs'.seq + 1 ≠ s.client.m_lowestRoundSeq := by
  have memP : p ∈ s.packets := List.mem_of_getElem? getP
  have memQ : q ∈ s.packets := List.mem_of_getElem? getQ
  have callP := h.carries.planned memP (Carries.outstanding_of_toClient stageP)
  have callQ := h.carries.planned memQ (Carries.outstanding_of_toClient stageQ)
  have stale : ∀ r ∈ s.packets, r.toSendCall ∈ ρ.plan cfg → r.sock = 0 → r.tag ≠ ρ.high := by
    rcases ρ with ⟨n, _ | ⟨fast, E⟩, start⟩
    · intro r _ planned zero
      rcases mem_plan_sampling.mp planned with call | call
      · have tag : r.tag = ⟨n, 0⟩ := congrArg SendCall.tag call
        rw [tag]
        simp [high, Round.tag]
      · exact absurd ((congrArg SendCall.sock call).symm.trans zero) (by simp)
    · cases sampling
  rw [h.sameRound.low, h.started.low]
  rcases p.sock.eq_or_eq_other 0 with zero | one
  · left
    rw [(h.carries.toClient p memP _ _ _ stageP).seq]
    exact echoSeq_add_one_ne (stale p memP callP zero)
  · right
    have zero : q.sock = 0 := by
      rcases q.sock.eq_or_eq_other 0 with zero | same
      · exact zero
      · exact absurd (one.trans same.symm) ne
    rw [(h.carries.toClient q memQ _ _ _ stageQ).seq]
    exact echoSeq_add_one_ne (stale q memQ callQ zero)

end Running

/-- **Echoes that arrive together commute.**  In every reachable state two echoes on
different sockets that the client receives at the same time may be processed in
either order; the two orders leave the same system, the client, the packets in
flight and the dump included, but for the ghost log of what was received. -/
theorem simultaneous_echoes_commute (adm : cfg.Admissible) (start : Start cfg s₀)
    (reach : Reach (next cfg) anyEvent s₀ s) {e e' : Event} (together : e.time = e'.time)
    (getP : s.packets[e.packet]? = some p) (stageP : p.stage = .toClient seqTs sentAt servedAt)
    (getQ : s.packets[e'.packet]? = some q)
    (stageQ : q.stage = .toClient seqTs' sentAt' servedAt') (ne : p.sock ≠ q.sock) :
    ∃ s₁ s₂ s₁₂ s₂₁, s.next cfg e = some s₁ ∧ s₁.next cfg e' = some s₁₂ ∧
      s.next cfg e' = some s₂ ∧ s₂.next cfg e = some s₂₁ ∧
      s₁₂.client = s₂₁.client ∧ s₁₂.packets = s₂₁.packets ∧ s₁₂.dumps = s₂₁.dumps ∧
      s₂₁ = { s₁₂ with receivedLog := s₂₁.receivedLog } := by
  obtain ⟨time, i⟩ := e
  obtain ⟨time', j⟩ := e'
  obtain rfl : time = time' := together
  obtain ⟨ρ, c, run⟩ := (start.reach adm reach).running (List.mem_of_getElem? getP)
    (Carries.outstanding_of_toClient stageP)
  have apart := Running.index_ne getP getQ ne
  obtain ⟨runP, firstP⟩ := run.recv_first time getP stageP getQ stageQ ne
  obtain ⟨runQ, firstQ⟩ := run.recv_first time getQ stageQ getP stageP ne.symm
  have afterP := run.recv_recv time getP stageP getQ stageQ ne
  have afterQ := run.recv_recv time getQ stageQ getP stageP ne.symm
  -- the first of the two leaves the other packet where it is
  have getQ' : (s.recv cfg time i p seqTs sentAt servedAt).packets[j]? = some q := by
    rw [firstP]
    exact (List.getElem?_set_ne apart).trans getQ
  have getP' : (s.recv cfg time j q seqTs' sentAt' servedAt').packets[i]? = some p := by
    rw [firstQ]
    exact (List.getElem?_set_ne apart.symm).trans getP
  have comm := echoed_comm (a := ⟨p.tag, p.sock, seqTs, sentAt, servedAt, time⟩)
    (b := ⟨q.tag, q.sock, seqTs', sentAt', servedAt', time⟩) ne
    (run.stale_or_stale getP stageP getQ stageQ ne)
  rw [← comm, List.set_comm _ _ apart.symm] at afterQ
  refine ⟨_, _, _, _, next_of_toClient run.running getP stageP,
    next_of_toClient runP.running getQ' stageQ, next_of_toClient run.running getQ stageQ,
    next_of_toClient runQ.running getP' stageP, ?_⟩
  dsimp only
  rw [afterP, afterQ]
  exact ⟨rfl, rfl, rfl, rfl⟩

/-- The packets of the first round are on their way back. -/
def echoesTogether : List Event := [⟨10, 1⟩, ⟨20, 0⟩]

/-- The two echoes of the first round arrive together: either order closes the round,
switches the mode and starts the first estimation round. -/
theorem simultaneous_echoes_commute_socketOneFirst : ∃ s, Reach (next .nanoseconds) anyEvent
    (boot 0) s ∧ ∃ s₁ s₂ s₁₂ s₂₁, s.next .nanoseconds ⟨30, 0⟩ = some s₁ ∧
      s₁.next .nanoseconds ⟨30, 1⟩ = some s₁₂ ∧ s.next .nanoseconds ⟨30, 1⟩ = some s₂ ∧
      s₂.next .nanoseconds ⟨30, 0⟩ = some s₂₁ ∧ s₁₂.client = s₂₁.client ∧
      s₁₂.packets = s₂₁.packets := by
  have reach : Reach (next .nanoseconds) anyEvent (boot 0)
      (final (next .nanoseconds) echoesTogether (boot 0)) := .final (by decide +kernel) .any
  have together : (⟨30, 0⟩ : Event).time = (⟨30, 1⟩ : Event).time := rfl
  obtain ⟨s₁, s₂, s₁₂, s₂₁, one, two, three, four, client, packets, -⟩ :=
    simultaneous_echoes_commute Config.nanoseconds_admissible (.boot 0) reach together
      rfl rfl rfl rfl (by decide +kernel)
  exact ⟨_, reach, s₁, s₂, s₁₂, s₂₁, one, two, three, four, client, packets⟩

end Sys

end OwdPacing
