import Mathlib.Tactic

/-!
# The sequence tracker

`SequenceTracker` compares a sequence number with the one it expects, and keeps the
size and the class of the latest gap.
-/

namespace LuvFlicker

inductive SequenceResult where
  | kFirst
  | kNext
  | kDuplicate
  | kGap
  | kOutOfOrder
  deriving DecidableEq, Repr

inductive SequenceGapClass where
  | kNone
  | kRecoverable
  | kFatal
  deriving DecidableEq, Repr

structure SequenceTracker where
  initialized : Bool := false
  next : UInt64 := 0
  last : UInt64 := 0
  gaps : UInt64 := 0
  gapSize : UInt64 := 0
  gapClass : SequenceGapClass := .kNone
  gapPending : Bool := false
  invalid : Bool := false
  deriving DecidableEq, Repr

namespace SequenceTracker

def kMaxRecoverableGap : UInt64 := 100

def classOf (gap : UInt64) : SequenceGapClass := if gap ≤ kMaxRecoverableGap then .kRecoverable else .kFatal

variable (t : SequenceTracker)

def noteGap (sequence : UInt64) : SequenceTracker :=
  let gap := sequence - t.next
  { t with
    gaps := t.gaps + gap
    last := sequence
    gapSize := gap
    gapClass := classOf gap
    gapPending := classOf gap = .kRecoverable
    invalid := classOf gap = .kFatal
    next := sequence + 1 }

def observe (sequence : UInt64) : SequenceResult × SequenceTracker :=
  if !t.initialized then (.kFirst, { t with initialized := true, next := sequence + 1, last := sequence })
  else if sequence = t.next then (.kNext, { t with next := t.next + 1, last := sequence })
  else if sequence < t.next then (if sequence + 1 = t.next then .kDuplicate else .kOutOfOrder, t)
  else (.kGap, t.noteGap sequence)

def extent (first last : UInt64) : UInt64 := last - first + 1

def acknowledgeRetransmit (firstMissing lastMissing : UInt64) : Bool × SequenceTracker :=
  if !t.gapPending ∨ firstMissing > lastMissing ∨ extent firstMissing lastMissing ≠ t.gapSize then (false, t)
  else (true, { t with gapPending := false, gapClass := .kNone, gapSize := 0 })

def reset (t : SequenceTracker) : SequenceTracker :=
  { t with
    initialized := false, next := 0, last := 0, gaps := 0, gapSize := 0, gapClass := .kNone, gapPending := false,
    invalid := false }

end SequenceTracker

end LuvFlicker
