import OwdPacing.Sequencer
import Mathlib.Order.Bounds.Basic

/-!
# What the sequencer computes

A cumulative acknowledgement in general terms first: for the set `S` of the
numbers received so far, `IsMark S k` says that `k` is the largest number such
that all of `1..k` are in `S`.  `OwdSequencer.Tracks s S` is the representation
invariant of the sequencer for that set: the mark is the mark of `S`, the buffer
holds the received numbers above it, and no 32-bit addition has wrapped.
`ackSeqNb_tracks` shows that a call adds its argument to `S`.
-/

namespace OwdPacing

open Container StateError

/-! ## Cumulative acknowledgement of a set of numbers -/

/-- `k` is the largest number such that all of `1..k` are in `S`. -/
def IsMark (S : Set Nat) (k : Nat) : Prop :=
  IsGreatest {k | ∀ i, 1 ≤ i → i ≤ k → i ∈ S} k

theorem isMark_iff {S : Set Nat} {k : Nat} :
    IsMark S k ↔ (∀ i, 1 ≤ i → i ≤ k → i ∈ S) ∧ k + 1 ∉ S := by
  constructor
  · rintro ⟨below, greatest⟩
    refine ⟨below, fun next => ?_⟩
    have larger : k + 1 ≤ k := greatest fun i pos le => by
      rcases Nat.lt_or_eq_of_le le with lt | rfl
      · exact below i pos (by omega)
      · exact next
    omega
  · rintro ⟨below, next⟩
    refine ⟨below, fun j all => ?_⟩
    by_contra larger
    exact next (all (k + 1) (by omega) (by omega))

theorem IsMark.unique {S : Set Nat} {k k' : Nat} (h : IsMark S k) (h' : IsMark S k') : k = k' :=
  IsGreatest.unique h h'

namespace OwdSequencer

/-- A number the sequencer has recorded: at or below the mark, or buffered. -/
def Covers (s : OwdSequencer) (n : Nat) : Prop :=
  (1 ≤ n ∧ n ≤ s.m_highestInOrderReceivedSeqNumber.toNat) ∨ ∃ x ∈ s.m_outOfOrder, x.toNat = n

/-- The representation invariant: every buffered number leaves a gap above the
mark, and no addition has wrapped. -/
structure Wf (s : OwdSequencer) : Prop where
  gap : ∀ x ∈ s.m_outOfOrder, s.m_highestInOrderReceivedSeqNumber.toNat + 1 < x.toNat
  noWrap : s.wrapped = false

/-- The sequencer has received exactly the numbers of `S` (the number 0 aside). -/
structure Tracks (s : OwdSequencer) (S : Set Nat) : Prop extends Wf s where
  covers : ∀ n, s.Covers n ↔ 1 ≤ n ∧ n ∈ S

theorem new_tracks : Tracks new ∅ where
  gap x hx := absurd hx (SortedSet.not_mem_empty x)
  noWrap := rfl
  covers n := by
    simp only [Covers, new, SortedSet.not_mem_empty, false_and, exists_false, or_false,
      UInt32.toNat_zero, Set.mem_empty_iff_false, and_false, iff_false]
    omega

section Tracking

variable {s : OwdSequencer} {S : Set Nat}

theorem Tracks.isMark (h : Tracks s S) : IsMark S s.m_highestInOrderReceivedSeqNumber.toNat := by
  rw [isMark_iff]
  constructor
  · intro i pos le
    exact ((h.covers i).mp (Or.inl ⟨pos, le⟩)).2
  · intro next
    rcases (h.covers _).mpr ⟨Nat.le_add_left 1 _, next⟩ with ⟨-, le⟩ | ⟨x, hx, eq⟩
    · omega
    · have := h.gap x hx
      omega

theorem Tracks.mem_outOfOrder_iff (h : Tracks s S) (x : UInt32) :
    x ∈ s.m_outOfOrder ↔ x.toNat ∈ S ∧ s.m_highestInOrderReceivedSeqNumber < x := by
  rw [UInt32.lt_iff_toNat_lt]
  constructor
  · intro hx
    have gap := h.gap x hx
    exact ⟨((h.covers _).mp (Or.inr ⟨x, hx, rfl⟩)).2, by omega⟩
  · rintro ⟨received, above⟩
    rcases (h.covers _).mpr ⟨by omega, received⟩ with ⟨-, le⟩ | ⟨y, hy, eq⟩
    · omega
    · rwa [← UInt32.toNat_inj.mp eq]

/-- A number that has arrived is at or below the mark, or still buffered. -/
theorem Tracks.le_or_buffered {seq : UInt32} (track : Tracks s S) (received : seq.toNat ∈ S) :
    seq ≤ s.m_highestInOrderReceivedSeqNumber ∨ seq ∈ s.m_outOfOrder := by
  rcases le_or_gt seq s.m_highestInOrderReceivedSeqNumber with le | above
  · exact .inl le
  · exact .inr ((track.mem_outOfOrder_iff seq).mpr ⟨received, above⟩)

theorem Tracks.congr {S' : Set Nat} (h : Tracks s S) (same : ∀ n, 1 ≤ n → (n ∈ S ↔ n ∈ S')) :
    Tracks s S' where
  toWf := h.toWf
  covers n := by
    rw [h.covers]
    exact and_congr_right (same n)

/-- The sequencer's state is determined by what it has received. -/
theorem Tracks.state_unique {s' : OwdSequencer} (h : Tracks s S) (h' : Tracks s' S) : s = s' := by
  have mark : s.m_highestInOrderReceivedSeqNumber = s'.m_highestInOrderReceivedSeqNumber :=
    UInt32.toNat_inj.mp (h.isMark.unique h'.isMark)
  have buffer : s.m_outOfOrder = s'.m_outOfOrder := SortedSet.ext_mem fun x => by
    rw [h.mem_outOfOrder_iff, h'.mem_outOfOrder_iff, mark]
  have flag : s.wrapped = s'.wrapped := h.noWrap.trans h'.noWrap.symm
  cases s; cases s'
  cases mark; cases buffer; cases flag
  rfl

end Tracking

/-! ## What a call does to the recorded numbers -/

theorem toNat_add_one {x : UInt32} (h : x.toNat + 1 < 2 ^ 32) : (x + 1).toNat = x.toNat + 1 := by
  rw [UInt32.toNat_add, UInt32.toNat_one]
  exact Nat.mod_eq_of_lt h

section Coverage

variable {s : OwdSequencer}

/-- Moving the mark records the number after it. -/
theorem covers_advance (room : s.m_highestInOrderReceivedSeqNumber.toNat + 1 < 2 ^ 32) (n : Nat) :
    Covers { s with
      m_highestInOrderReceivedSeqNumber := s.m_highestInOrderReceivedSeqNumber + 1 } n ↔
      s.Covers n ∨ n = s.m_highestInOrderReceivedSeqNumber.toNat + 1 := by
  simp only [Covers, toNat_add_one room]
  constructor
  · rintro (⟨pos, le⟩ | buffered)
    · rcases Nat.lt_or_eq_of_le le with lt | eq
      · exact Or.inl (Or.inl ⟨pos, Nat.le_of_lt_succ lt⟩)
      · exact Or.inr eq
    · exact Or.inl (Or.inr buffered)
  · rintro ((⟨pos, le⟩ | buffered) | rfl)
    · exact Or.inl ⟨pos, Nat.le_succ_of_le le⟩
    · exact Or.inr buffered
    · exact Or.inl ⟨Nat.le_add_left 1 _, Nat.le_refl _⟩

/-- One more number in the buffer is one more recorded number. -/
theorem covers_setBuffer {buffer : SortedSet UInt32} {seq : UInt32}
    (mem : ∀ x, x ∈ buffer ↔ x = seq ∨ x ∈ s.m_outOfOrder) (n : Nat) :
    Covers { s with m_outOfOrder := buffer } n ↔ s.Covers n ∨ n = seq.toNat := by
  simp only [Covers, mem]
  constructor
  · rintro (below | ⟨x, rfl | mem, rfl⟩)
    · exact Or.inl (Or.inl below)
    · exact Or.inr rfl
    · exact Or.inl (Or.inr ⟨x, mem, rfl⟩)
  · rintro ((below | ⟨x, mem, rfl⟩) | rfl)
    · exact Or.inl below
    · exact Or.inr ⟨x, Or.inr mem, rfl⟩
    · exact Or.inr ⟨seq, Or.inl rfl, rfl⟩

theorem elems_erase_head {it : UInt32} {rest : List UInt32}
    (buffer : s.m_outOfOrder.elems = it :: rest) : (s.m_outOfOrder.erase it).elems = rest := by
  rw [SortedSet.elems_erase, buffer, List.erase_cons_head]

/-- What is recorded besides the first buffered number. -/
theorem covers_erase_head {it : UInt32} {rest : List UInt32}
    (buffer : s.m_outOfOrder.elems = it :: rest) (n : Nat) :
    s.Covers n ↔
      Covers { s with m_outOfOrder := s.m_outOfOrder.erase it } n ∨ n = it.toNat := by
  refine covers_setBuffer (s := { s with m_outOfOrder := s.m_outOfOrder.erase it }) (fun x => ?_) n
  rw [SortedSet.mem_def, SortedSet.mem_def, elems_erase_head buffer, buffer, List.mem_cons]

/-- One more recorded number is one more received number. -/
theorem Tracks.record {S : Set Nat} {s' : OwdSequencer} {m : Nat} (h : Tracks s S) (pos : 1 ≤ m)
    (wf : Wf s') (covers : ∀ n, s'.Covers n ↔ s.Covers n ∨ n = m) : Tracks s' (S ∪ {m}) where
  toWf := wf
  covers n := by
    rw [covers, h.covers, Set.mem_union, Set.mem_singleton_iff]
    constructor
    · rintro (⟨posN, received⟩ | rfl)
      · exact ⟨posN, Or.inl received⟩
      · exact ⟨pos, Or.inr rfl⟩
    · rintro ⟨posN, received | rfl⟩
      · exact Or.inl ⟨posN, received⟩
      · exact Or.inr rfl

end Coverage

/-! ## The drain loop -/

theorem run_nextExpected {s : OwdSequencer}
    (room : s.m_highestInOrderReceivedSeqNumber.toNat + 1 < 2 ^ 32) :
    nextExpected.run s = .ok (s.m_highestInOrderReceivedSeqNumber + 1) s := by
  have small : decide (2 ^ 32 ≤ s.m_highestInOrderReceivedSeqNumber.toNat + 1) = false :=
    decide_eq_false (by omega)
  rw [nextExpected, run_get_bind, run_modify_bind, getHighestRcvdInOrderSeqNb, small,
    Bool.or_false]
  rfl

theorem run_advance {s : OwdSequencer}
    (room : s.m_highestInOrderReceivedSeqNumber.toNat + 1 < 2 ^ 32) :
    advance.run s = .ok () { s with
      m_highestInOrderReceivedSeqNumber := s.m_highestInOrderReceivedSeqNumber + 1 } := by
  rw [advance, run_bind_ok (run_nextExpected room)]
  rfl

/-- The mark leaves room for one more number below any number above it. -/
theorem room_of_lt {s : OwdSequencer} {seq : UInt32}
    (lt : s.m_highestInOrderReceivedSeqNumber < seq) :
    s.m_highestInOrderReceivedSeqNumber.toNat + 1 < 2 ^ 32 := by
  have lt' := UInt32.lt_iff_toNat_lt.mp lt
  have := seq.toNat_lt
  omega

/-- The loop takes numbers off the buffer without losing one, and stops with a
gap above the mark. -/
theorem run_drain {l : List UInt32} {s : OwdSequencer} (buffer : s.m_outOfOrder.elems = l)
    (above : ∀ x ∈ l, s.m_highestInOrderReceivedSeqNumber < x) (noWrap : s.wrapped = false) :
    ∃ s', (drain l).run s = .ok () s' ∧ Wf s' ∧ ∀ n, s'.Covers n ↔ s.Covers n := by
  induction l generalizing s with
  | nil =>
      refine ⟨s, rfl, ⟨fun x hx => ?_, noWrap⟩, fun _ => Iff.rfl⟩
      rw [SortedSet.mem_def, buffer] at hx
      exact absurd hx List.not_mem_nil
  | cons it rest ih =>
      have sorted := s.m_outOfOrder.sorted
      rw [buffer] at sorted
      have next : ∀ x ∈ rest, it < x := fun x hx => List.rel_of_pairwise_cons sorted hx
      have room := room_of_lt (above it List.mem_cons_self)
      rw [drain, run_bind_ok (run_nextExpected room)]
      split_ifs with inOrder
      · -- `it` moves from the buffer to the mark
        obtain ⟨s', run, wf, same⟩ := ih
          (s := { s with m_outOfOrder := s.m_outOfOrder.erase it,
                         m_highestInOrderReceivedSeqNumber :=
                           s.m_highestInOrderReceivedSeqNumber + 1 })
          (elems_erase_head buffer) (fun x hx => inOrder ▸ next x hx) noWrap
        refine ⟨s', ?_, wf, fun n => (same n).trans ?_⟩
        · rw [run_modify_bind,
            run_bind_ok
              (run_advance (s := { s with m_outOfOrder := s.m_outOfOrder.erase it }) room)]
          exact run
        · have itNat : it.toNat = s.m_highestInOrderReceivedSeqNumber.toNat + 1 := by
            rw [inOrder, toNat_add_one room]
          rw [covers_erase_head buffer, itNat]
          exact covers_advance (s := { s with m_outOfOrder := s.m_outOfOrder.erase it }) room n
      · -- the first mismatch: everything left is beyond it
        refine ⟨s, rfl, ⟨fun x hx => ?_, noWrap⟩, fun _ => Iff.rfl⟩
        have itGap : s.m_highestInOrderReceivedSeqNumber.toNat + 1 < it.toNat := by
          have lt := UInt32.lt_iff_toNat_lt.mp (above it List.mem_cons_self)
          have ne : it.toNat ≠ s.m_highestInOrderReceivedSeqNumber.toNat + 1 := fun eq =>
            inOrder (UInt32.toNat_inj.mp (by rw [eq, toNat_add_one room]))
          omega
        rw [SortedSet.mem_def, buffer] at hx
        rcases List.mem_cons.mp hx with rfl | hx
        · exact itGap
        · have := UInt32.lt_iff_toNat_lt.mp (next x hx)
          omega

/-! ## One call -/

/-- A number at or below the mark changes nothing. -/
theorem run_ackSeqNb_of_le {s : OwdSequencer} {seq : UInt32}
    (le : seq ≤ s.m_highestInOrderReceivedSeqNumber) : (ackSeqNb seq).run s = .ok () s := by
  rw [ackSeqNb, run_get_bind, if_pos (show s.getHighestRcvdInOrderSeqNb ≥ seq from le)]
  rfl

/-- A number that is buffered fails the assertion on the insertion. -/
theorem run_ackSeqNb_of_mem {s : OwdSequencer} (wf : Wf s) {seq : UInt32}
    (mem : seq ∈ s.m_outOfOrder) : (ackSeqNb seq).run s = .error .ackSeqNb_inserted s := by
  have gap := wf.gap seq mem
  have lt : s.m_highestInOrderReceivedSeqNumber < seq :=
    UInt32.lt_iff_toNat_lt.mpr (Nat.lt_of_succ_lt gap)
  have room := room_of_lt lt
  have outOfOrder : s.m_highestInOrderReceivedSeqNumber + 1 ≠ seq := fun eq => by
    rw [← eq, toNat_add_one room] at gap
    exact Nat.lt_irrefl _ gap
  have old : ¬ (s.m_outOfOrder.insert seq).2 = true := fun new =>
    SortedSet.insert_snd_iff.mp new mem
  rw [ackSeqNb, run_get_bind, if_neg (show ¬ s.getHighestRcvdInOrderSeqNb ≥ seq from not_le.mpr lt),
    run_bind_ok (run_nextExpected room), if_neg outOfOrder, run_get_bind, run_modify_bind,
    run_nsAssert_bind_of_not old, SortedSet.insert_of_mem mem]

/-- A call with a number that is not buffered records it. -/
theorem ackSeqNb_tracks {s : OwdSequencer} {S : Set Nat} (h : Tracks s S) {seq : UInt32}
    (fresh : seq ∉ s.m_outOfOrder) :
    ∃ s', (ackSeqNb seq).run s = .ok () s' ∧ Tracks s' (S ∪ {seq.toNat}) := by
  by_cases le : seq ≤ s.m_highestInOrderReceivedSeqNumber
  · refine ⟨s, run_ackSeqNb_of_le le, h.congr fun n pos => ?_⟩
    simp only [Set.mem_union, Set.mem_singleton_iff, iff_self_or]
    rintro rfl
    exact ((h.covers _).mp (Or.inl ⟨pos, UInt32.le_iff_toNat_le.mp le⟩)).2
  · have lt : s.m_highestInOrderReceivedSeqNumber < seq := lt_of_not_ge le
    have ltNat := UInt32.lt_iff_toNat_lt.mp lt
    have room := room_of_lt lt
    rw [ackSeqNb, run_get_bind, if_neg (show ¬ s.getHighestRcvdInOrderSeqNb ≥ seq from le),
      run_bind_ok (run_nextExpected room)]
    split_ifs with inOrder
    · rw [run_bind_ok (run_advance room)]
      have seqNat : seq.toNat = s.m_highestInOrderReceivedSeqNumber.toNat + 1 := by
        rw [← inOrder, toNat_add_one room]
      have above : ∀ x ∈ s.m_outOfOrder, s.m_highestInOrderReceivedSeqNumber + 1 < x :=
        fun x hx => by
          rw [UInt32.lt_iff_toNat_lt, toNat_add_one room]
          exact h.gap x hx
      obtain ⟨s', run, wf, same⟩ := run_drain
        (s := { s with
          m_highestInOrderReceivedSeqNumber := s.m_highestInOrderReceivedSeqNumber + 1 })
        rfl above h.noWrap
      refine ⟨s', run, h.record (by omega) wf fun n => ?_⟩
      rw [same, covers_advance room, seqNat]
    · rw [run_get_bind, run_modify_bind, run_nsAssert_bind (SortedSet.insert_snd_iff.mpr fresh)]
      have above : ∀ x ∈ (s.m_outOfOrder.insert seq).1, s.m_highestInOrderReceivedSeqNumber < x :=
        fun x hx => by
          rcases SortedSet.mem_insert.mp hx with rfl | hx
          · exact lt
          · exact UInt32.lt_iff_toNat_lt.mpr (Nat.lt_of_succ_lt (h.gap x hx))
      obtain ⟨s', run, wf, same⟩ := run_drain
        (s := { s with m_outOfOrder := (s.m_outOfOrder.insert seq).1 }) rfl above h.noWrap
      refine ⟨s', run, h.record (by omega) wf fun n => ?_⟩
      rw [same]
      exact covers_setBuffer (fun _ => SortedSet.mem_insert) n

end OwdSequencer

end OwdPacing
