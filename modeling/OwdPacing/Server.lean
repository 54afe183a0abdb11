import OwdPacing.SequencerSpec

/-!
# The server

`handleRead` is the receive callback of `owd-server.cc`: every packet waiting on
the socket is acknowledged to the sequencer and sent back with its timestamps
exchanged and the sequence number replaced by the highest one received in order.
-/

namespace OwdPacing

open OwdSequencer StateError

/-- The header that goes back: the client's departure time becomes the receiver
timestamp, the server's clock the sender timestamp. -/
def echoHeader (now : Int) (seqTs : SeqTsHeader) (highest : UInt32) : SeqTsHeader where
  seq := highest
  senderTs := now
  receiverTs := seqTs.senderTs

/-- The body of the loop of `OwdServer::HandleRead`. -/
def handleReadPacket (now : Int) (seqTs : SeqTsHeader) : SequencerM SeqTsHeader := do
  ackSeqNb seqTs.seq
  return echoHeader now seqTs (← get).getHighestRcvdInOrderSeqNb

/-- `OwdServer::HandleRead` on a socket at which the packets of `queue` wait: the
packets sent back, in order. -/
def handleRead (now : Int) : List SeqTsHeader → SequencerM (List SeqTsHeader)
  | [] => pure []
  | seqTs :: queue => do
      let echo ← handleReadPacket now seqTs
      let echoes ← handleRead now queue
      return echo :: echoes

/-- One call of `HandleRead`: when, on which socket, and what waits there. -/
structure ReadCall where
  now : Int
  socket : Socket
  queue : List SeqTsHeader

/-- A sequence of calls: the echoes of all of them, in order. -/
def readCalls : List ReadCall → SequencerM (List SeqTsHeader)
  | [] => pure []
  | call :: calls => do
      let echoes ← handleRead call.now call.queue
      let later ← readCalls calls
      return echoes ++ later

/-- The numbers of a list of sequence numbers. -/
def received (seqs : List UInt32) : Set Nat := {n | ∃ x ∈ seqs, x.toNat = n}

@[simp] theorem received_nil : received [] = ∅ := by
  ext n; simp [received]

@[simp] theorem received_cons (seq : UInt32) (seqs : List UInt32) :
    received (seq :: seqs) = {seq.toNat} ∪ received seqs := by
  ext n; simp [received, eq_comm]

theorem received_append (seqs seqs' : List UInt32) :
    received (seqs ++ seqs') = received seqs ∪ received seqs' := by
  ext n; simp [received, or_and_right, exists_or]

/-- No number arrives again while it is buffered: the condition `AckSeqNb` asserts. -/
def NoneRebuffered : OwdSequencer → List UInt32 → Prop
  | _, [] => True
  | s, seq :: seqs =>
      seq ∉ s.m_outOfOrder ∧
        match (ackSeqNb seq).run s with
        | .ok _ s' => NoneRebuffered s' seqs
        | .error _ _ => True

instance NoneRebuffered.decidable :
    (s : OwdSequencer) → (seqs : List UInt32) → Decidable (NoneRebuffered s seqs)
  | _, [] => isTrue trivial
  | s, seq :: seqs =>
      have : Decidable (match (ackSeqNb seq).run s with
          | .ok _ s' => NoneRebuffered s' seqs
          | .error _ _ => True) :=
        match (ackSeqNb seq).run s with
        | .ok _ s' => NoneRebuffered.decidable s' seqs
        | .error _ _ => isTrue trivial
      inferInstanceAs (Decidable (_ ∧ _))

variable {s : OwdSequencer} {S : Set Nat}

/-! ## Runs of the sequencer -/

/-- One call keeps track and leaves the condition for the calls after it. -/
theorem NoneRebuffered.step {seq : UInt32} {seqs : List UInt32} (track : Tracks s S)
    (ok : NoneRebuffered s (seq :: seqs)) :
    ∃ s', (ackSeqNb seq).run s = .ok () s' ∧ Tracks s' (S ∪ {seq.toNat}) ∧
      NoneRebuffered s' seqs := by
  obtain ⟨fresh, later⟩ := ok
  obtain ⟨s', run, track'⟩ := ackSeqNb_tracks track fresh
  rw [run] at later
  exact ⟨s', run, track', later⟩

theorem ackAll_tracks {seqs : List UInt32} (track : Tracks s S) (ok : NoneRebuffered s seqs) :
    ∃ s', (forM seqs ackSeqNb).run s = .ok () s' ∧ Tracks s' (S ∪ received seqs) := by
  induction seqs generalizing s S with
  | nil => exact ⟨s, rfl, by simpa using track⟩
  | cons seq seqs ih =>
      obtain ⟨s₁, run, track₁, later⟩ := ok.step track
      obtain ⟨s', run', track'⟩ := ih track₁ later
      refine ⟨s', ?_, ?_⟩
      · rw [List.forM_cons, run_bind_ok run]
        exact run'
      · rwa [received_cons, ← Set.union_assoc]

theorem NoneRebuffered.of_prefix {seqs seqs' : List UInt32} (h : seqs' <+: seqs)
    (ok : NoneRebuffered s seqs) : NoneRebuffered s seqs' := by
  induction seqs' generalizing s seqs with
  | nil => trivial
  | cons seq seqs' ih =>
      obtain ⟨rest, rfl⟩ := h
      obtain ⟨fresh, later⟩ := ok
      refine ⟨fresh, ?_⟩
      cases run : (ackSeqNb seq).run s with
      | ok _ s₁ =>
          rw [run] at later
          exact ih (List.prefix_append seqs' rest) later
      | error _ _ => trivial

/-! ## Echoes -/

/-- Echo number `j` of `seqs` carries the mark of what was received up to it. -/
def EchoesMarks (S : Set Nat) (seqs : List UInt32) (echoes : List SeqTsHeader) : Prop :=
  echoes.length = seqs.length ∧
    ∀ j (h : j < echoes.length), IsMark (S ∪ received (seqs.take (j + 1))) echoes[j].seq.toNat

theorem EchoesMarks.nil : EchoesMarks S [] [] :=
  ⟨rfl, fun _ h => absurd h (Nat.not_lt_zero _)⟩

theorem EchoesMarks.append {seqs seqs' : List UInt32} {echoes echoes' : List SeqTsHeader}
    (first : EchoesMarks S seqs echoes) (later : EchoesMarks (S ∪ received seqs) seqs' echoes') :
    EchoesMarks S (seqs ++ seqs') (echoes ++ echoes') := by
  obtain ⟨length, marks⟩ := first
  obtain ⟨length', marks'⟩ := later
  refine ⟨by rw [List.length_append, List.length_append, length, length'], fun j h => ?_⟩
  rw [List.take_append, received_append, ← Set.union_assoc]
  by_cases lt : j < echoes.length
  · have none : j + 1 - seqs.length = 0 := by omega
    rw [List.getElem_append_left lt, none, List.take_zero, received_nil, Set.union_empty]
    exact marks j lt
  · have all : seqs.take (j + 1) = seqs := List.take_of_length_le (by omega)
    have index : j + 1 - seqs.length = j - echoes.length + 1 := by omega
    rw [List.getElem_append_right (by omega), all, index]
    exact marks' _ _

theorem handleRead_spec {now : Int} {queue : List SeqTsHeader} {seqs : List UInt32}
    (track : Tracks s S) (ok : NoneRebuffered s (queue.map SeqTsHeader.seq ++ seqs)) :
    ∃ echoes s', (handleRead now queue).run s = .ok echoes s' ∧
      Tracks s' (S ∪ received (queue.map SeqTsHeader.seq)) ∧ NoneRebuffered s' seqs ∧
      EchoesMarks S (queue.map SeqTsHeader.seq) echoes := by
  induction queue generalizing s S with
  | nil => exact ⟨[], s, rfl, by simpa using track, ok, .nil⟩
  | cons seqTs queue ih =>
      obtain ⟨s₁, run, track₁, later⟩ := NoneRebuffered.step track ok
      obtain ⟨echoes, s', run', track', ok', marks⟩ := ih track₁ later
      let echo := echoHeader now seqTs s₁.m_highestInOrderReceivedSeqNumber
      have runHead : (handleReadPacket now seqTs).run s = .ok echo s₁ := by
        rw [handleReadPacket, run_bind_ok run]
        rfl
      refine ⟨echo :: echoes, s', ?_, ?_, ok', ?_⟩
      · rw [handleRead, run_bind_ok runHead, run_bind_ok run']
        rfl
      · rwa [List.map_cons, received_cons, ← Set.union_assoc]
      · have head : EchoesMarks S [seqTs.seq] [echo] := by
          refine ⟨rfl, fun j h => ?_⟩
          obtain rfl : j = 0 := Nat.lt_one_iff.mp h
          simpa [echo, echoHeader] using track₁.isMark
        have rest : EchoesMarks (S ∪ received [seqTs.seq]) (queue.map SeqTsHeader.seq) echoes := by
          simpa using marks
        exact head.append rest

theorem readCalls_spec {calls : List ReadCall} (track : Tracks s S)
    (ok : NoneRebuffered s (calls.flatMap fun call => call.queue.map SeqTsHeader.seq)) :
    ∃ echoes s', (readCalls calls).run s = .ok echoes s' ∧
      EchoesMarks S (calls.flatMap fun call => call.queue.map SeqTsHeader.seq) echoes := by
  induction calls generalizing s S with
  | nil => exact ⟨[], s, rfl, .nil⟩
  | cons call calls ih =>
      rw [List.flatMap_cons] at ok
      obtain ⟨echoes, s₁, run, track₁, ok₁, marks⟩ := handleRead_spec track ok
      obtain ⟨later, s', run', marks'⟩ := ih track₁ ok₁
      refine ⟨echoes ++ later, s', ?_, marks.append marks'⟩
      rw [readCalls, run_bind_ok run, run_bind_ok run']
      rfl

/-- **The sequencer's specification.**  From a fresh sequencer, as long as no
number arrives again while it is buffered, after every prefix: the mark is the
largest `k` such that all of `1..k` have arrived, the buffer is the set of the
numbers that have arrived above it, the next number is not in it, and no 32-bit
addition has wrapped.  So, whatever calls of `HandleRead` the numbers come in,
the `j`-th packet sent back carries the mark of the first `j` packets. -/
theorem ackSeqNb_spec (seqs : List UInt32) (ok : NoneRebuffered .new seqs) :
    (∀ before, before <+: seqs → ∃ s, (forM before ackSeqNb).run .new = .ok () s ∧
      IsMark (received before) s.m_highestInOrderReceivedSeqNumber.toNat ∧
      (∀ x, x ∈ s.m_outOfOrder ↔ x ∈ before ∧ s.m_highestInOrderReceivedSeqNumber < x) ∧
      (∀ x ∈ s.m_outOfOrder, x.toNat ≠ s.m_highestInOrderReceivedSeqNumber.toNat + 1) ∧
      s.wrapped = false) ∧
    ∀ calls : List ReadCall,
      (calls.flatMap fun call => call.queue.map SeqTsHeader.seq) = seqs →
      ∃ echoes s, (readCalls calls).run .new = .ok echoes s ∧ echoes.length = seqs.length ∧
        ∀ j (h : j < echoes.length),
          IsMark (received (seqs.take (j + 1))) echoes[j].seq.toNat := by
  constructor
  · intro before isPrefix
    obtain ⟨s, run, track⟩ := ackAll_tracks new_tracks (ok.of_prefix isPrefix)
    rw [Set.empty_union] at track
    refine ⟨s, run, track.isMark, fun x => ?_, fun x hx => ?_, track.noWrap⟩
    · rw [track.mem_outOfOrder_iff]
      refine and_congr_left fun _ => ⟨fun ⟨y, hy, eq⟩ => ?_, fun hx => ⟨x, hx, rfl⟩⟩
      rwa [← UInt32.toNat_inj.mp eq]
    · have := track.gap x hx
      omega
  · rintro calls rfl
    obtain ⟨echoes, s, run, length, marks⟩ := readCalls_spec new_tracks ok
    refine ⟨echoes, s, run, length, fun j h => ?_⟩
    simpa using marks j h

/-- A gap that closes late, with a repeat below the mark. -/
theorem ackSeqNb_spec_gap : ∃ s, (forM [3, 1, 1, 2, 5] ackSeqNb).run .new = .ok () s ∧
    IsMark (received [3, 1, 1, 2, 5]) s.m_highestInOrderReceivedSeqNumber.toNat := by
  obtain ⟨s, run, mark, -⟩ :=
    (ackSeqNb_spec [3, 1, 1, 2, 5] (by decide +kernel)).1 _ (List.prefix_refl _)
  exact ⟨s, run, mark⟩

/-! ## Numbers that arrive again -/

/-- Calls that all return have recorded their numbers. -/
theorem tracks_of_ackAll {seqs : List UInt32} {s' : OwdSequencer} (track : Tracks s S)
    (run : (forM seqs ackSeqNb).run s = .ok () s') : Tracks s' (S ∪ received seqs) := by
  induction seqs generalizing s S with
  | nil =>
      cases run
      rwa [received_nil, Set.union_empty]
  | cons seq seqs ih =>
      rw [List.forM_cons] at run
      obtain ⟨⟨⟩, s₁, first, rest⟩ := run_bind_eq_ok run
      have fresh : seq ∉ s.m_outOfOrder := fun mem => by
        rw [run_ackSeqNb_of_mem track.toWf mem] at first
        cases first
      obtain ⟨s₂, run₂, track₂⟩ := ackSeqNb_tracks track fresh
      obtain rfl : s₁ = s₂ := by
        rw [run₂] at first
        cases first
        rfl
      rw [received_cons, ← Set.union_assoc]
      exact ih track₂ rest

/-- **When a number that arrives again is ignored.**  In every state that calls of
`AckSeqNb` reach from a fresh sequencer, a call with a number of an earlier call
returns and changes nothing exactly when the number is at or below the mark; so
`HandleRead` gets past a repeated datagram exactly then. -/
theorem ackSeqNb_repeat_iff {seqs : List UInt32} {s : OwdSequencer}
    (run : (forM seqs ackSeqNb).run .new = .ok () s) {seq : UInt32} (mem : seq ∈ seqs) :
    ((∃ s', (ackSeqNb seq).run s = .ok () s' ∧
        s'.m_highestInOrderReceivedSeqNumber = s.m_highestInOrderReceivedSeqNumber ∧
        s'.m_outOfOrder = s.m_outOfOrder) ↔ seq ≤ s.m_highestInOrderReceivedSeqNumber) ∧
    ∀ now seqTs, seqTs.seq = seq →
      ((∃ echo s', (handleReadPacket now seqTs).run s = .ok echo s') ↔
        seq ≤ s.m_highestInOrderReceivedSeqNumber) := by
  have track := tracks_of_ackAll new_tracks run
  have arrived : seq.toNat ∈ ∅ ∪ received seqs := .inr ⟨seq, mem, rfl⟩
  rcases track.le_or_buffered arrived with le | buffered
  · have ignored := run_ackSeqNb_of_le le
    refine ⟨iff_of_true ⟨s, ignored, rfl, rfl⟩ le, fun now seqTs same => iff_of_true ?_ le⟩
    rw [handleReadPacket, same, run_bind_ok ignored]
    exact ⟨_, s, rfl⟩
  · have above : ¬ seq ≤ s.m_highestInOrderReceivedSeqNumber :=
      not_le.mpr ((track.mem_outOfOrder_iff seq).mp buffered).2
    have stopped := run_ackSeqNb_of_mem track.toWf buffered
    constructor
    · refine iff_of_false ?_ above
      rintro ⟨s', returned, -⟩
      rw [stopped] at returned
      cases returned
    · intro now seqTs same
      refine iff_of_false ?_ above
      rintro ⟨echo, s', returned⟩
      rw [handleReadPacket, same, run_bind_error stopped] at returned
      cases returned

/-- Number 2 arrives before number 1, and again: the assertion stops the server. -/
theorem ackSeqNb_repeat_stops : ∃ s, (forM [2] ackSeqNb).run .new = .ok () s ∧
    (ackSeqNb 2).run s = .error .ackSeqNb_inserted s ∧
    (handleReadPacket 0 ⟨2, 0, 0⟩).run s = .error .ackSeqNb_inserted s := by
  exact ⟨⟨(Container.SortedSet.empty.insert 2).1, 0, false⟩, rfl, rfl, rfl⟩

/-- When number 1 has closed the gap both are ignored. -/
theorem ackSeqNb_repeat_ignored : ∃ s, (forM [2, 1] ackSeqNb).run .new = .ok () s ∧
    ∃ s', (ackSeqNb 2).run s = .ok () s' ∧ s'.m_outOfOrder = s.m_outOfOrder := by
  have run : (forM [2, 1] ackSeqNb).run .new = .ok () ⟨.empty, 2, false⟩ := rfl
  have repeated : (2 : UInt32) ∈ [2, 1] := by decide
  obtain ⟨s', returned, -, buffer⟩ := (ackSeqNb_repeat_iff run repeated).1.mpr (by decide)
  exact ⟨_, run, s', returned, buffer⟩

/-! ## Numbers in any order -/

/-- Numbers that arrive once are all recorded. -/
theorem ackAll_of_nodup {seqs : List UInt32} (track : Tracks s S) (nodup : seqs.Nodup)
    (fresh : ∀ x ∈ seqs, x.toNat ∉ S) : ∃ s', (forM seqs ackSeqNb).run s = .ok () s' := by
  induction seqs generalizing s S with
  | nil => exact ⟨s, rfl⟩
  | cons seq seqs ih =>
      have ⟨once, later⟩ := List.nodup_cons.mp nodup
      have ⟨new, rest⟩ := List.forall_mem_cons.mp fresh
      obtain ⟨s₁, run, track₁⟩ := ackSeqNb_tracks track fun mem =>
        new ((track.mem_outOfOrder_iff seq).mp mem).1
      have still : ∀ x ∈ seqs, x.toNat ∉ S ∪ {seq.toNat} := by
        rintro x mem (old | same)
        · exact rest x mem old
        · exact once (UInt32.toNat_inj.mp same ▸ mem)
      obtain ⟨s', run'⟩ := ih track₁ later still
      refine ⟨s', ?_⟩
      rw [List.forM_cons, run_bind_ok run]
      exact run'

theorem received_congr {seqs seqs' : List UInt32} (same : ∀ x, x ∈ seqs ↔ x ∈ seqs') :
    received seqs = received seqs' := by
  ext n
  simp only [received, same]

/-- **The order of arrival does not matter.**  Numbers that arrive once fail no assertion,
in whatever order they come; and after any two sequences of calls with the same numbers,
repeated ones or not, the sequencer is in the same state, provided that no assertion has
failed. -/
theorem ackSeqNb_anyOrder :
    (∀ seqs : List UInt32, seqs.Nodup → ∃ s, (forM seqs ackSeqNb).run .new = .ok () s) ∧
    ∀ (seqs seqs' : List UInt32) (s s' : OwdSequencer), (∀ x, x ∈ seqs ↔ x ∈ seqs') →
      (forM seqs ackSeqNb).run .new = .ok () s → (forM seqs' ackSeqNb).run .new = .ok () s' →
      s = s' := by
  constructor
  · intro seqs nodup
    exact ackAll_of_nodup new_tracks nodup fun x _ => Set.notMem_empty _
  · intro seqs seqs' s s' same run run'
    have track := tracks_of_ackAll new_tracks run
    have track' := tracks_of_ackAll new_tracks run'
    rw [← received_congr same] at track'
    exact track.state_unique track'

theorem ackSeqNb_anyOrder_four : ∃ s, (forM [1, 2, 3, 5] ackSeqNb).run .new = .ok () s ∧
    (forM [5, 3, 1, 2] ackSeqNb).run .new = .ok () s := by
  obtain ⟨s, run⟩ := ackSeqNb_anyOrder.1 [1, 2, 3, 5] (by decide)
  obtain ⟨s', run'⟩ := ackSeqNb_anyOrder.1 [5, 3, 1, 2] (by decide)
  have perm : ([1, 2, 3, 5] : List UInt32).Perm [5, 3, 1, 2] := by decide
  obtain rfl := ackSeqNb_anyOrder.2 _ _ s s' (fun _ => perm.mem_iff) run run'
  exact ⟨s, run, run'⟩

end OwdPacing
