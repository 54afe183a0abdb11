import OwdPacing.Estimation

/-!
# What the network carries

Inside a round the packets in the network are those of the round, each at a
stage that the logs agree with, next to packets of earlier rounds that have all
been delivered.  Sending, serving and delivering one packet keep this.
-/

namespace OwdPacing

open Container OWdClientBasic Round OwdSequencer StateError

variable {cfg : Config} {ρ : Round} {s : Sys} {now : Int} {i : Nat} {p : Packet}

namespace Sys

/-- The network carries the packets of the round. -/
structure Carries (cfg : Config) (ρ : Round) (s : Sys) : Prop where
  /-- Every round's packets are the ones its plan asks for. -/
  calls : ∃ past : List SendCall, s.packets.map Packet.toSendCall = past ++ ρ.plan cfg ∧
    ∀ call ∈ past, call.tag.round < ρ.number
  nodup : (s.packets.map fun p => p.tag).Nodup
  past : ∀ p ∈ s.packets, p.tag.round < ρ.number → p.stage = .delivered
  /-- A packet carries what its `Send` was asked to send. -/
  scheduled : ∀ p ∈ s.packets, ∀ due, p.stage = .scheduled due → due = p.ts
  toServer : ∀ p ∈ s.packets, ∀ seqTs sentAt, p.stage = .toServer seqTs sentAt →
    seqTs.seq = p.seqNb ∧ seqTs.senderTs = p.ts
  toClient : ∀ p ∈ s.packets, ∀ seqTs sentAt servedAt, p.stage = .toClient seqTs sentAt servedAt →
    ρ.IsEcho s.servedLog p.toSendCall seqTs servedAt
  /-- The server's log is about these packets. -/
  served_iff : ∀ p ∈ s.packets, p.tag ∈ s.served ↔ p.Served
  servedTags : ∀ tag ∈ s.served, ∃ p ∈ s.packets, p.tag = tag
  servedNodup : s.served.Nodup
  /-- The client's log is about these packets. -/
  received_iff : ∀ p ∈ s.packets, p.tag ∈ s.receivedLog.map Arrival.tag ↔ p.stage = .delivered
  receivedTags : ∀ a ∈ s.receivedLog, ∃ p ∈ s.packets, p.tag = a.tag
  receivedNodup : (s.receivedLog.map Arrival.tag).Nodup
  fromPlan : ∀ a ∈ s.receivedIn ρ.number, ρ.FromPlan cfg s.servedLog a
  count : s.outstanding + (s.receivedIn ρ.number).length = (ρ.plan cfg).length

namespace Carries

/-! ## Packets of the round and of earlier ones -/

theorem call_mem (h : s.Carries cfg ρ) (mem : p ∈ s.packets) :
    p.tag.round < ρ.number ∨ p.toSendCall ∈ ρ.plan cfg := by
  obtain ⟨past, eq, rounds⟩ := h.calls
  have call : p.toSendCall ∈ past ++ ρ.plan cfg := eq ▸ List.mem_map_of_mem mem
  rcases List.mem_append.mp call with old | new
  · exact .inl (rounds _ old)
  · exact .inr new

theorem round_le (h : s.Carries cfg ρ) (mem : p ∈ s.packets) : p.tag.round ≤ ρ.number := by
  rcases h.call_mem mem with old | new
  · exact old.le
  · exact (plan_round new).le

/-- An outstanding packet is one of the round. -/
theorem planned (h : s.Carries cfg ρ) (mem : p ∈ s.packets) (out : p.Outstanding) :
    p.toSendCall ∈ ρ.plan cfg := by
  rcases h.call_mem mem with old | new
  · exact absurd (h.past p mem old) out
  · exact new

theorem exists_packet (h : s.Carries cfg ρ) {call : SendCall} (mem : call ∈ ρ.plan cfg) :
    ∃ p ∈ s.packets, p.toSendCall = call := by
  obtain ⟨past, eq, -⟩ := h.calls
  have : call ∈ s.packets.map Packet.toSendCall := eq ▸ List.mem_append_right _ mem
  obtain ⟨p, memP, rfl⟩ := List.mem_map.mp this
  exact ⟨p, memP, rfl⟩

/-- What the server has processed for the round is planned. -/
theorem served_planned (h : s.Carries cfg ρ) {x : Logged} (mem : x ∈ s.servedLog)
    (round : x.tag.round = ρ.number) : ∃ call ∈ ρ.plan cfg, call.tag = x.tag := by
  obtain ⟨p, memP, same⟩ := h.servedTags x.tag (List.mem_map_of_mem mem)
  rcases h.call_mem memP with old | new
  · rw [same, round] at old
    exact absurd old (Nat.lt_irrefl _)
  · exact ⟨_, new, same⟩

theorem echoes (h : s.Carries cfg ρ) : ρ.Echoes cfg s.servedLog (s.receivedIn ρ.number) where
  fromPlan := h.fromPlan
  nodup := h.receivedNodup.sublist (List.Sublist.map _ List.filter_sublist)

/-- When nothing is outstanding every packet has been delivered. -/
theorem delivered_of_none (none : s.outstanding = 0) (mem : p ∈ s.packets) :
    p.stage = .delivered := by
  by_contra out
  exact List.countP_eq_zero.mp none p mem (decide_eq_true out)

/-- And the client has all echoes of the round. -/
theorem allEchoes (h : s.Carries cfg ρ) (none : s.outstanding = 0) :
    ρ.AllEchoes cfg s.servedLog (s.receivedIn ρ.number) where
  toEchoes := h.echoes
  planned _ mem round := h.served_planned mem round
  complete call mem := by
    obtain ⟨p, memP, rfl⟩ := h.exists_packet mem
    have received := (h.received_iff p memP).mpr (delivered_of_none none memP)
    obtain ⟨a, memA, tag⟩ := List.mem_map.mp received
    refine ⟨a, List.mem_filter.mpr ⟨memA, ?_⟩, tag⟩
    rw [tag, plan_round mem]
    exact decide_eq_true rfl

/-! ## One packet changes its stage -/

section Step

variable {stage : Stage}

theorem map_call_set (stage : Stage) (get : s.packets[i]? = some p) :
    (s.packets.set i { p with stage := stage }).map Packet.toSendCall =
      s.packets.map Packet.toSendCall :=
  map_set_of_eq get rfl

theorem map_tag_set (get : s.packets[i]? = some p) :
    (s.packets.set i { p with stage := stage }).map (fun p => p.tag) =
      s.packets.map fun p => p.tag :=
  map_set_of_eq get rfl

theorem exists_tag_set (get : s.packets[i]? = some p) {tag : PacketTag}
    (h : ∃ q ∈ s.packets, q.tag = tag) :
    ∃ q ∈ s.packets.set i { p with stage := stage }, q.tag = tag := by
  rw [← List.mem_map (f := fun p : Packet => p.tag), map_tag_set get, List.mem_map]
  exact h

theorem mem_set (h : s.Carries cfg ρ) (get : s.packets[i]? = some p) {q : Packet} :
    q ∈ s.packets.set i { p with stage := stage } ↔
      q = { p with stage := stage } ∨ q ∈ s.packets ∧ q.tag ≠ p.tag :=
  mem_set_of_keys_nodup h.nodup get

theorem calls_set (h : s.Carries cfg ρ) (get : s.packets[i]? = some p) :
    ∃ past : List SendCall, (s.packets.set i { p with stage := stage }).map Packet.toSendCall =
      past ++ ρ.plan cfg ∧ ∀ call ∈ past, call.tag.round < ρ.number := by
  rw [map_call_set stage get]
  exact h.calls

theorem nodup_set (h : s.Carries cfg ρ) (get : s.packets[i]? = some p) :
    ((s.packets.set i { p with stage := stage }).map fun p => p.tag).Nodup := by
  rw [map_tag_set get]
  exact h.nodup

/-- A property of every packet that the new one has too. -/
theorem forall_set {P : Packet → Prop} (all : ∀ q ∈ s.packets, P q)
    (new : P { p with stage := stage }) : ∀ q ∈ s.packets.set i { p with stage := stage }, P q := by
  intro q mem
  rcases List.mem_or_eq_of_mem_set mem with old | rfl
  · exact all q old
  · exact new

/-- The count of outstanding packets after the change of one that is outstanding. -/
theorem outstanding_set (get : s.packets[i]? = some p) (out : p.Outstanding) :
    ((s.packets.set i { p with stage := stage }).countP fun p => p.Outstanding) + 1 =
      s.outstanding + if stage = .delivered then 0 else 1 := by
  obtain ⟨lt, rfl⟩ := List.getElem?_eq_some_iff.mp get
  have pos : 0 < s.outstanding :=
    List.countP_pos_iff.mpr ⟨_, List.getElem_mem lt, decide_eq_true out⟩
  have new : Packet.Outstanding { s.packets[i] with stage := stage } ↔ ¬ stage = .delivered :=
    Iff.rfl
  rw [List.countP_set lt, if_pos (decide_eq_true out)]
  simp only [decide_eq_true_eq, new]
  rw [outstanding] at pos ⊢
  split_ifs <;> omega

end Step

variable {due sentAt servedAt : Int} {seqTs echo : SeqTsHeader}

theorem outstanding_of_scheduled (stage : p.stage = .scheduled due) : p.Outstanding := by
  intro delivered
  cases stage.symm.trans delivered

theorem outstanding_of_toServer (stage : p.stage = .toServer seqTs sentAt) : p.Outstanding := by
  intro delivered
  cases stage.symm.trans delivered

theorem outstanding_of_toClient (stage : p.stage = .toClient seqTs sentAt servedAt) :
    p.Outstanding := by
  intro delivered
  cases stage.symm.trans delivered

/-- The scheduled `Send` of a packet. -/
theorem fire (h : s.Carries cfg ρ) (get : s.packets[i]? = some p)
    (stage : p.stage = .scheduled due) : (s.fire now i p).Carries cfg ρ := by
  have mem : p ∈ s.packets := List.mem_of_getElem? get
  have out : p.Outstanding := outstanding_of_scheduled stage
  have round := plan_round (h.planned mem out)
  have notServed : ¬ p.Served := by rw [Packet.Served, stage]; exact id
  have same : (s.fire now i p).outstanding = s.outstanding :=
    Nat.add_right_cancel (outstanding_set get out)
  exact {
    calls := h.calls_set get
    nodup := h.nodup_set get
    past := forall_set h.past fun old => absurd round (Nat.ne_of_lt old)
    scheduled := forall_set h.scheduled fun _ eq => Stage.noConfusion eq
    toServer := forall_set h.toServer fun seqTs sentAt eq => by
      injection eq with header
      exact ⟨header ▸ rfl, header ▸ rfl⟩
    toClient := forall_set h.toClient fun _ _ _ eq => Stage.noConfusion eq
    served_iff := forall_set h.served_iff
      (iff_of_false (fun served => notServed ((h.served_iff p mem).mp served)) id)
    servedTags := fun tag served => exists_tag_set get (h.servedTags tag served)
    servedNodup := h.servedNodup
    received_iff := forall_set h.received_iff
      (iff_of_false (fun received => out ((h.received_iff p mem).mp received)) (by simp))
    receivedTags := fun a received => exists_tag_set get (h.receivedTags a received)
    receivedNodup := h.receivedNodup
    fromPlan := h.fromPlan
    count := (congrArg (· + _) same).trans h.count }

/-- The server processes a request. -/
theorem serve (h : s.Carries cfg ρ) (now : Int) (bound : 2 * ρ.number + 2 < 2 ^ 32)
    (server : Tracks s.server (ρ.numbersAt s.served)) (get : s.packets[i]? = some p)
    (stage : p.stage = .toServer seqTs sentAt) :
    ∃ echo server', s.serve now i p seqTs sentAt =
        { s with
          now := now
          server := server'
          packets := s.packets.set i { p with stage := .toClient echo sentAt now }
          servedLog := s.servedLog ++ [⟨p.tag, now⟩] } ∧
      (s.serve now i p seqTs sentAt).Carries cfg ρ ∧
      Tracks server' (ρ.numbersAt (s.serve now i p seqTs sentAt).served) := by
  have mem : p ∈ s.packets := List.mem_of_getElem? get
  have out : p.Outstanding := outstanding_of_toServer stage
  have call := h.planned mem out
  have round := plan_round call
  have notServed : p.tag ∉ s.served := by
    rw [h.served_iff p mem, Packet.Served, stage]
    exact id
  obtain ⟨number, sender⟩ := h.toServer p mem seqTs sentAt stage
  obtain ⟨server', handled, track⟩ := run_handleReadPacket bound server call notServed now number
  let echo := echoHeader now seqTs (ρ.echoSeq (s.served ++ [p.tag]) p.tag)
  have after : s.serve now i p seqTs sentAt =
      { s with
        now := now
        server := server'
        packets := s.packets.set i { p with stage := .toClient echo sentAt now }
        servedLog := s.servedLog ++ [⟨p.tag, now⟩] } := by
    rw [Sys.serve, handled]
  have log : (s.serve now i p seqTs sentAt).served = s.served ++ [p.tag] := by
    rw [after, served, served, List.map_append]
    rfl
  have same : (s.serve now i p seqTs sentAt).outstanding = s.outstanding := by
    rw [after]
    exact Nat.add_right_cancel (outstanding_set get out)
  have isEcho : ρ.IsEcho (s.servedLog ++ [⟨p.tag, now⟩]) p.toSendCall echo now := {
    receiverTs := sender
    senderTs := rfl
    logged := List.mem_append_right _ (List.mem_singleton.mpr rfl)
    seq := by
      rw [List.map_append]
      rfl }
  refine ⟨echo, server', after, ?_, by rw [log]; exact track⟩
  have count := (congrArg (· + _) same).trans h.count
  rw [after] at count ⊢
  exact {
    calls := h.calls_set get
    nodup := h.nodup_set get
    past := forall_set h.past fun old => absurd round (Nat.ne_of_lt old)
    scheduled := forall_set h.scheduled fun _ eq => Stage.noConfusion eq
    toServer := forall_set h.toServer fun _ _ eq => Stage.noConfusion eq
    toClient := forall_set (fun q memQ _ _ _ eq => (h.toClient q memQ _ _ _ eq).append)
      fun _ _ _ eq => by
        injection eq with header _ time
        rw [← header, ← time]
        exact isEcho
    served_iff := by
      intro q memQ
      rw [served, List.map_append]
      rcases (h.mem_set get).mp memQ with rfl | ⟨old, ne⟩
      · exact iff_of_true (List.mem_append_right _ (List.mem_singleton.mpr rfl)) trivial
      · rw [← h.served_iff q old]
        simp [served, ne]
    servedTags := by
      intro tag logged
      rw [served, List.map_append] at logged
      refine exists_tag_set get ?_
      rcases List.mem_append.mp logged with old | new
      · exact h.servedTags tag old
      · exact ⟨p, mem, (List.mem_singleton.mp new).symm⟩
    servedNodup := by
      rw [served, List.map_append]
      simpa [served] using h.servedNodup.concat notServed
    received_iff := forall_set h.received_iff
      (iff_of_false (fun received => out ((h.received_iff p mem).mp received)) (by simp))
    receivedTags := fun a received => exists_tag_set get (h.receivedTags a received)
    receivedNodup := h.receivedNodup
    fromPlan := h.echoes.append.fromPlan
    count := count }

/-- The network hands an echo to the client. -/
theorem deliver (h : s.Carries cfg ρ) (now : Int) (get : s.packets[i]? = some p)
    (stage : p.stage = .toClient seqTs sentAt servedAt) :
    (s.deliver now i p seqTs sentAt servedAt).Carries cfg ρ ∧
      (s.deliver now i p seqTs sentAt servedAt).receivedIn ρ.number =
        s.receivedIn ρ.number ++ [⟨p.tag, p.sock, seqTs, sentAt, servedAt, now⟩] ∧
      (s.deliver now i p seqTs sentAt servedAt).outstanding + 1 = s.outstanding := by
  have mem : p ∈ s.packets := List.mem_of_getElem? get
  have out : p.Outstanding := outstanding_of_toClient stage
  have call := h.planned mem out
  have round := plan_round call
  have isServed : p.Served := by rw [Packet.Served, stage]; trivial
  have notReceived : p.tag ∉ s.receivedLog.map Arrival.tag := fun received =>
    out ((h.received_iff p mem).mp received)
  have received : (s.deliver now i p seqTs sentAt servedAt).receivedIn ρ.number =
      s.receivedIn ρ.number ++ [⟨p.tag, p.sock, seqTs, sentAt, servedAt, now⟩] := by
    rw [receivedIn, Sys.deliver, List.filter_append,
      List.filter_cons_of_pos (by simpa using round)]
    rfl
  have fewer : (s.deliver now i p seqTs sentAt servedAt).outstanding + 1 = s.outstanding :=
    outstanding_set get out
  refine ⟨?_, received, fewer⟩
  exact {
    calls := h.calls_set get
    nodup := h.nodup_set get
    past := forall_set h.past fun _ => rfl
    scheduled := forall_set h.scheduled fun _ eq => Stage.noConfusion eq
    toServer := forall_set h.toServer fun _ _ eq => Stage.noConfusion eq
    toClient := forall_set h.toClient fun _ _ _ eq => Stage.noConfusion eq
    served_iff := forall_set h.served_iff
      (iff_of_true ((h.served_iff p mem).mpr isServed) trivial)
    servedTags := fun tag logged => exists_tag_set get (h.servedTags tag logged)
    servedNodup := h.servedNodup
    received_iff := by
      intro q memQ
      rw [Sys.deliver, List.map_append]
      rcases (h.mem_set get).mp memQ with rfl | ⟨old, ne⟩
      · exact iff_of_true (List.mem_append_right _ (List.mem_singleton.mpr rfl)) rfl
      · rw [← h.received_iff q old]
        simp [ne]
    receivedTags := by
      intro a logged
      refine exists_tag_set get ?_
      rcases List.mem_append.mp logged with old | new
      · exact h.receivedTags a old
      · exact ⟨p, mem, by rw [List.mem_singleton.mp new]⟩
    receivedNodup := by
      rw [Sys.deliver, List.map_append]
      simpa using h.receivedNodup.concat notReceived
    fromPlan := by
      intro a logged
      rw [received] at logged
      rcases List.mem_append.mp logged with old | new
      · exact h.fromPlan a old
      · rw [List.mem_singleton.mp new]
        exact ⟨p.toSendCall, call, rfl, rfl, h.toClient p mem _ _ _ stage⟩
    count := by
      have before := h.count
      rw [received, List.length_append, List.length_singleton]
      omega }

end Carries

/-! ## Between two rounds -/

/-- Every packet there is has been delivered, and `r` rounds are over. -/
structure Settled (s : Sys) (r : Nat) : Prop where
  nodup : (s.packets.map fun p => p.tag).Nodup
  delivered : ∀ p ∈ s.packets, p.stage = .delivered ∧ p.tag.round < r
  served : ∀ p ∈ s.packets, p.tag ∈ s.served
  servedTags : ∀ tag ∈ s.served, ∃ p ∈ s.packets, p.tag = tag
  servedNodup : s.served.Nodup
  received : ∀ p ∈ s.packets, p.tag ∈ s.receivedLog.map Arrival.tag
  receivedTags : ∀ a ∈ s.receivedLog, ∃ p ∈ s.packets, p.tag = a.tag
  receivedNodup : (s.receivedLog.map Arrival.tag).Nodup
  server : Tracks s.server {n | n ≤ 2 * r}

/-- The end of a round: nothing is outstanding, and the server has all its numbers. -/
theorem Carries.settled (h : s.Carries cfg ρ) (nonempty : 1 ≤ cfg.probes)
    (server : Tracks s.server (ρ.numbersAt s.served)) (none : s.outstanding = 0) :
    s.Settled (ρ.number + 1) where
  nodup := h.nodup
  delivered p mem := ⟨delivered_of_none none mem, Nat.lt_succ_of_le (h.round_le mem)⟩
  served p mem := by
    rw [h.served_iff p mem, Packet.Served, delivered_of_none none mem]
    trivial
  servedTags := h.servedTags
  servedNodup := h.servedNodup
  received p mem := (h.received_iff p mem).mpr (delivered_of_none none mem)
  receivedTags := h.receivedTags
  receivedNodup := h.receivedNodup
  server := by
    have all := h.allEchoes none
    have served : ∀ call ∈ ρ.plan cfg, call.tag ∈ s.served := by
      intro call planned
      obtain ⟨a, mem, same⟩ := all.complete call planned
      rw [← same]
      exact all.mem_served mem
    exact numbersAt_of_served nonempty served ▸ server

/-! ## The packets of a new round -/

end Sys

/-- The stage in which a call of `Send` leaves its packet at the start of the round. -/
def Round.firstStage (ρ : Round) (call : SendCall) : Stage :=
  match ρ.kind, call.tag.index with
  | .estimation _ _, _ + 1 => .scheduled call.ts
  | _, _ => .toServer (sendHeader call.seqNb call.ts) ρ.start

/-- What the start of a round asks of the simulator are the packets of its plan. -/
theorem packets_sampling {r : Nat} :
    ([.send 0 (sendHeader (lowSeq r) now), .send 1 (sendHeader (lowSeq r + 1) now)] :
      List Effect).zipIdx.filterMap (Effect.packet now r) =
      (plan cfg ⟨r, .sampling, now⟩).map fun call =>
        ⟨call, firstStage ⟨r, .sampling, now⟩ call⟩ := rfl

theorem packets_estimation {r : Nat} {fast : Socket} {E : Int} :
    (roundEffects cfg fast E (lowSeq r) now).zipIdx.filterMap (Effect.packet now r) =
      (plan cfg ⟨r, .estimation fast E, now⟩).map fun call =>
        ⟨call, firstStage ⟨r, .estimation fast E, now⟩ call⟩ := by
  have index : ∀ n, (List.range n).zipIdx 1 = (List.range n).map fun i => (i, i + 1) := by
    intro n
    refine List.ext_getElem (by simp) fun i _ _ => ?_
    simp [Nat.add_comm]
  rw [roundEffects, plan, List.zipIdx_cons, List.zipIdx_map, index, List.map_cons, List.map_map,
    List.map_map]
  refine congrArg₂ List.cons rfl ?_
  rw [List.filterMap_map, ← List.filterMap_eq_map]
  rfl

/-- A packet at the start of a round. -/
theorem firstStage_eq (ρ : Round) (call : SendCall) :
    ρ.firstStage call = .scheduled call.ts ∨
      ρ.firstStage call = .toServer (sendHeader call.seqNb call.ts) ρ.start := by
  unfold firstStage
  split
  · exact .inl rfl
  · exact .inr rfl

/-- It is neither processed by the client nor by the server. -/
theorem firstStage_outstanding (ρ : Round) (call : SendCall) :
    Packet.Outstanding ⟨call, ρ.firstStage call⟩ := by
  unfold Packet.Outstanding
  cases firstStage_eq ρ call with
  | inl scheduled => exact scheduled ▸ nofun
  | inr sent => exact sent ▸ nofun

theorem firstStage_not_served (ρ : Round) (call : SendCall) :
    ¬ Packet.Served ⟨call, ρ.firstStage call⟩ := by
  unfold Packet.Served
  dsimp only
  cases firstStage_eq ρ call with
  | inl scheduled => exact scheduled ▸ id
  | inr sent => exact sent ▸ id

namespace Sys

namespace Settled

variable {s' : Sys} {call : SendCall}

/-! Nothing that was there belongs to the new round. -/

theorem tag_ne (h : s.Settled ρ.number) (planned : call ∈ ρ.plan cfg) (mem : p ∈ s.packets) :
    p.tag ≠ call.tag := by
  intro same
  have old := (h.delivered p mem).2
  rw [same, plan_round planned] at old
  exact absurd old (Nat.lt_irrefl _)

theorem notMem_served (h : s.Settled ρ.number) (planned : call ∈ ρ.plan cfg) :
    call.tag ∉ s.served := by
  intro logged
  obtain ⟨p, mem, same⟩ := h.servedTags _ logged
  exact h.tag_ne planned mem same

theorem notMem_received (h : s.Settled ρ.number) (planned : call ∈ ρ.plan cfg) :
    call.tag ∉ s.receivedLog.map Arrival.tag := by
  intro logged
  obtain ⟨a, memA, tag⟩ := List.mem_map.mp logged
  obtain ⟨p, mem, same⟩ := h.receivedTags a memA
  exact h.tag_ne planned mem (same.trans tag)

theorem receivedIn_eq_nil (h : s.Settled ρ.number) : s.receivedIn ρ.number = [] := by
  rw [receivedIn, List.filter_eq_nil_iff]
  intro a mem
  obtain ⟨p, memP, same⟩ := h.receivedTags a mem
  have old := (h.delivered p memP).2
  rw [same] at old
  simpa using Nat.ne_of_lt old

theorem numbersAt_eq (h : s.Settled ρ.number) :
    ρ.numbersAt s.served = {n | n ≤ 2 * ρ.number} := by
  have older : ∀ tag ∈ s.served, tag.round ≠ ρ.number := by
    intro tag logged
    obtain ⟨p, mem, rfl⟩ := h.servedTags tag logged
    exact Nat.ne_of_lt (h.delivered p mem).2
  refine Set.ext fun n => ⟨?_, Or.inl⟩
  rintro (le | ⟨-, tag, logged, round, -⟩ | ⟨-, logged⟩)
  · exact le
  · exact absurd round (older tag logged)
  · exact absurd (high_round ρ) (older _ logged)

/-- The packets of the new round are outstanding, and no others. -/
theorem outstanding_eq (h : s.Settled ρ.number)
    (packets : s'.packets = s.packets ++ (ρ.plan cfg).map fun call => ⟨call, ρ.firstStage call⟩) :
    s'.outstanding = (ρ.plan cfg).length := by
  have old : s.packets.countP (fun p => p.Outstanding) = 0 :=
    List.countP_eq_zero.mpr fun p mem out => of_decide_eq_true out (h.delivered p mem).1
  rw [outstanding, packets, List.countP_append, old, Nat.zero_add, List.countP_map]
  exact List.countP_eq_length.mpr fun call _ => decide_eq_true (firstStage_outstanding ρ call)

end Settled

/-- The network takes over the packets of a new round. -/
theorem Settled.carries {s' : Sys} (h : s.Settled ρ.number)
    (packets : s'.packets = s.packets ++ (ρ.plan cfg).map fun call => ⟨call, ρ.firstStage call⟩)
    (servedLog : s'.servedLog = s.servedLog) (receivedLog : s'.receivedLog = s.receivedLog) :
    s'.Carries cfg ρ ∧ s'.outstanding = (ρ.plan cfg).length ∧ s'.receivedIn ρ.number = [] ∧
      ρ.numbersAt s'.served = {n | n ≤ 2 * ρ.number} := by
  have served : s'.served = s.served := congrArg (List.map Logged.tag) servedLog
  -- what holds of the old packets and of the new ones
  have new : ∀ {P : Packet → Prop}, (∀ p ∈ s.packets, P p) →
      (∀ call ∈ ρ.plan cfg, P ⟨call, ρ.firstStage call⟩) → ∀ p ∈ s'.packets, P p := by
    intro P old new p mem
    rw [packets] at mem
    rcases List.mem_append.mp mem with memOld | memNew
    · exact old p memOld
    · obtain ⟨call, planned, rfl⟩ := List.mem_map.mp memNew
      exact new call planned
  have keep : ∀ {tag : PacketTag}, (∃ p ∈ s.packets, p.tag = tag) →
      ∃ p ∈ s'.packets, p.tag = tag := by
    rintro tag ⟨p, mem, same⟩
    exact ⟨p, packets ▸ List.mem_append_left _ mem, same⟩
  have received : s'.receivedIn ρ.number = [] := by
    rw [receivedIn, receivedLog]
    exact h.receivedIn_eq_nil
  have outstanding := h.outstanding_eq packets
  refine ⟨?_, outstanding, received, served ▸ h.numbersAt_eq⟩
  exact {
    calls := by
      refine ⟨s.packets.map Packet.toSendCall, ?_, ?_⟩
      · rw [packets, List.map_append, List.map_map]
        exact congrArg _ (List.map_id _)
      · intro call mem
        obtain ⟨p, memP, rfl⟩ := List.mem_map.mp mem
        exact (h.delivered p memP).2
    nodup := by
      rw [packets, List.map_append, List.map_map]
      refine List.nodup_append.mpr ⟨h.nodup, plan_tags_nodup cfg ρ, ?_⟩
      rintro x memX y memY rfl
      obtain ⟨p, memP, rfl⟩ := List.mem_map.mp memX
      obtain ⟨call, planned, same⟩ := List.mem_map.mp memY
      exact h.tag_ne planned memP same.symm
    past := new (fun p mem _ => (h.delivered p mem).1) fun call planned old =>
      absurd (plan_round planned) (Nat.ne_of_lt old)
    scheduled := new
      (fun p mem due eq => Stage.noConfusion ((h.delivered p mem).1.symm.trans eq))
      fun call _ due eq => by
        rcases firstStage_eq ρ call with stage | stage
        · exact (Stage.scheduled.inj (stage.symm.trans eq)).symm
        · exact Stage.noConfusion (stage.symm.trans eq)
    toServer := new
      (fun p mem _ _ eq => Stage.noConfusion ((h.delivered p mem).1.symm.trans eq))
      fun call _ seqTs sentAt eq => by
        rcases firstStage_eq ρ call with stage | stage
        · exact Stage.noConfusion (stage.symm.trans eq)
        · obtain ⟨header, -⟩ := Stage.toServer.inj (stage.symm.trans eq)
          exact ⟨header ▸ rfl, header ▸ rfl⟩
    toClient := new
      (fun p mem _ _ _ eq => Stage.noConfusion ((h.delivered p mem).1.symm.trans eq))
      fun call _ _ _ _ eq => by
        rcases firstStage_eq ρ call with stage | stage <;>
          exact Stage.noConfusion (stage.symm.trans eq)
    served_iff := by
      rw [served]
      refine new (fun p mem => ?_) fun call planned => ?_
      · refine iff_of_true (h.served p mem) ?_
        rw [Packet.Served, (h.delivered p mem).1]
        trivial
      · exact iff_of_false (h.notMem_served planned) (firstStage_not_served ρ call)
    servedTags := fun tag logged => keep (h.servedTags tag (served ▸ logged))
    servedNodup := served ▸ h.servedNodup
    received_iff := by
      rw [receivedLog]
      exact new (fun p mem => iff_of_true (h.received p mem) (h.delivered p mem).1)
        fun call planned => iff_of_false (h.notMem_received planned) (firstStage_outstanding ρ call)
    receivedTags := fun a logged => keep (h.receivedTags a (receivedLog ▸ logged))
    receivedNodup := receivedLog ▸ h.receivedNodup
    fromPlan := by
      rw [received]
      exact fun a mem => absurd mem List.not_mem_nil
    count := by
      rw [received, outstanding]
      rfl }

end Sys

end OwdPacing
