import OwdPacing.Config
import OwdPacing.Container.Sorted

/-!
# The server's sequencer

`OwdSequencer` keeps the highest sequence number received in order and the set
of numbers received beyond a gap.  `ackSeqNb` is translated from
`sequencer.cc`, 32-bit additions included; the ghost flag `wrapped` remembers
whether one of them has ever wrapped.
-/

namespace OwdPacing

open Container

instance instLinearOrderUInt32 : LinearOrder UInt32 where
  le_refl := UInt32.le_refl
  le_trans _ _ _ := UInt32.le_trans
  le_antisymm _ _ := UInt32.le_antisymm
  le_total := UInt32.le_total
  lt_iff_le_not_ge a b := by
    rw [UInt32.lt_iff_toNat_lt, UInt32.le_iff_toNat_le, UInt32.le_iff_toNat_le]
    exact Nat.lt_iff_le_and_not_ge
  toDecidableLE := inferInstance
  toDecidableEq := inferInstance
  toDecidableLT := inferInstance

/-- `class OwdSequencer`. -/
structure OwdSequencer where
  m_outOfOrder : SortedSet UInt32
  m_highestInOrderReceivedSeqNumber : UInt32
  /-- Ghost: a 32-bit addition of `AckSeqNb` has wrapped. -/
  wrapped : Bool
  deriving DecidableEq, Repr

/-- `OwdSequencer::OwdSequencer`. -/
def OwdSequencer.new : OwdSequencer := ⟨.empty, 0, false⟩

/-- A member function of the sequencer. -/
abbrev SequencerM := EStateM Failure OwdSequencer

namespace OwdSequencer

/-- `GetHighestRcvdInOrderSeqNb`. -/
def getHighestRcvdInOrderSeqNb (s : OwdSequencer) : UInt32 := s.m_highestInOrderReceivedSeqNumber

/-- `1 + GetHighestRcvdInOrderSeqNb ()`, the sum of 32-bit values, watched for a wrap. -/
def nextExpected : SequencerM UInt32 := do
  let mark := (← get).getHighestRcvdInOrderSeqNb
  modify fun s => { s with wrapped := s.wrapped || decide (2 ^ 32 ≤ mark.toNat + 1) }
  pure (mark + 1)

/-- `++m_highestInOrderReceivedSeqNumber`. -/
def advance : SequencerM Unit := do
  let next ← nextExpected
  modify fun s => { s with m_highestInOrderReceivedSeqNumber := next }

/-- The `for` loop over `m_outOfOrder`, from the element `it` on: `it` is erased
while it is the next number, and the first mismatch breaks. -/
def drain : List UInt32 → SequencerM Unit
  | [] => pure ()
  | it :: rest => do
      if it = (← nextExpected) then
        modify fun s => { s with m_outOfOrder := s.m_outOfOrder.erase it }
        advance
        drain rest
      else
        pure ()

/-- `OwdSequencer::AckSeqNb`. -/
def ackSeqNb (seq : UInt32) : SequencerM Unit := do
  if (← get).getHighestRcvdInOrderSeqNb ≥ seq then
    return
  if (← nextExpected) = seq then
    advance
  else
    let res := (← get).m_outOfOrder.insert seq
    modify fun s => { s with m_outOfOrder := res.1 }
    nsAssert (res.2 = true) .ackSeqNb_inserted
  drain (← get).m_outOfOrder.elems

end OwdSequencer

end OwdPacing
