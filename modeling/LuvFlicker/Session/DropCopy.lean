import LuvFlicker.Lib.Run

/-!
# Drop copy

A session keeps the last published messages in a ring and replays a range of them.
-/

namespace LuvFlicker.DropCopy

open Run List Function UInt64

structure Execution where
  firmId : UInt32 := 0
  symbolIdx : UInt16 := 0
  execType : UInt8 := 0x30
  price : Int64 := 0
  qty : Int64 := 0
  orderId : UInt64 := 0
  execId : UInt64 := 0
  tsNs : UInt64 := 0

structure DropCopyMessage extends Execution where
  seqNum : UInt64 := 0
  msgType : UInt8 := 0x38

def kReplayBufferSize : UInt64 := 1024

structure DropCopySession where
  seqNum : UInt64 := 1
  count : UInt64 := 0
  buffer : Nat → DropCopyMessage := fun _ => {}

/-- `count & (kReplayBufferSize - 1)`. -/
def slot (count : UInt64) : Nat := (count &&& (kReplayBufferSize - 1)).toNat

def publishExecution (e : Execution) (s : DropCopySession) : DropCopyMessage × DropCopySession :=
  let outMsg : DropCopyMessage := { e with seqNum := s.seqNum }
  (outMsg, ⟨s.seqNum + 1, s.count + 1, update s.buffer (slot s.count) outMsg⟩)

def Requested (beginSeq endSeq : UInt64) (msg : DropCopyMessage) : Bool :=
  msg.seqNum ≥ beginSeq ∧ msg.seqNum ≤ endSeq

/-- `replay_range`; a step of the loop after the buffer is full changes nothing. -/
def replayRange (beginSeq endSeq : UInt64) (maxReplayCount : Nat) (s : DropCopySession) : List DropCopyMessage :=
  if maxReplayCount = 0 ∨ beginSeq > endSeq then []
  else
    let totalAvail := min s.count.toNat kReplayBufferSize.toNat
    (range totalAvail).foldl (fun out i =>
      let msg := s.buffer (slot (s.count - .ofNat totalAvail + .ofNat i))
      if out.length < maxReplayCount ∧ Requested beginSeq endSeq msg then out ++ [msg] else out) []

theorem slot_ofNat (k : Nat) : slot (.ofNat k) = k % 1024 := by
  have hMask : (kReplayBufferSize - 1).toNat = 2 ^ 10 - 1 := rfl
  rw [slot, UInt64.toNat_and, hMask, Nat.and_two_pow_sub_one_eq_mod, UInt64.toNat_ofNat']
  omega

/-- The session after the messages were published, for any number of them. -/
structure Published (s : DropCopySession) (sent : List DropCopyMessage) : Prop where
  seqNum : s.seqNum = .ofNat (sent.length + 1)
  count : s.count = .ofNat sent.length
  numbered : sent.map (·.seqNum) = (range' 1 sent.length).map .ofNat
  kept : ∀ j < sent.length, sent.length ≤ j + 1024 → sent[j]? = some (s.buffer (j % 1024))

variable {s : DropCopySession} {sent : List DropCopyMessage}

theorem Published.publish (h : Published s sent) (e : Execution) :
    Published (publishExecution e s).2 (sent ++ [(publishExecution e s).1]) := by
  simp only [publishExecution]
  constructor
  · rw [length_append, h.seqNum]
    exact (ofNat_add ..).symm
  · rw [length_append, h.count]
    exact (ofNat_add ..).symm
  · rw [map_append, h.numbered, length_append, length_singleton, range'_concat]
    simp [h.seqNum, add_comm]
  · intro j hj hKept
    rw [length_append, length_singleton] at hj hKept
    dsimp only
    rw [h.count, slot_ofNat]
    rcases Nat.lt_or_eq_of_le (Nat.le_of_lt_succ hj) with hOld | rfl
    · rw [getElem?_append_left hOld, update_of_ne (show j % 1024 ≠ sent.length % 1024 by omega)]
      exact h.kept j hOld (by omega)
    · rw [getElem?_concat_length, update_self]

theorem Published.run (h : Published s sent) (es : List Execution) :
    Published (run publishExecution es s).2 (sent ++ (run publishExecution es s).1) := by
  induction es generalizing s sent with
  | nil => rwa [Run.run, append_nil]
  | cons e es ih =>
    have hRest := ih (h.publish e)
    rwa [append_assoc] at hRest

theorem length_run (es : List Execution) (s : DropCopySession) : (run publishExecution es s).1.length = es.length := by
  induction es generalizing s with
  | nil => rfl
  | cons e es ih => exact congrArg _ (ih _)

theorem published (es : List Execution) : Published (run publishExecution es {}).2 (run publishExecution es {}).1 :=
  @Published.run {} [] ⟨rfl, rfl, rfl, nofun⟩ es

/-- The loop copies what is requested until the buffer is full. -/
theorem foldl_take {α β : Type} {read : α → β} {p : β → Bool} (m : Nat) (xs : List α) (out : List β) (hOut : out.length ≤ m) :
    xs.foldl (fun out i => if out.length < m ∧ p (read i) then out ++ [read i] else out) out =
      out ++ ((xs.map read).filter p).take (m - out.length) := by
  induction xs generalizing out with
  | nil => simp
  | cons x xs ih =>
    rw [foldl_cons, map_cons, filter_cons]
    split_ifs with hTake hRequested hRequested
    · rw [ih _ (by rw [length_append, length_singleton]; omega), append_assoc, length_append,
        show m - out.length = m - (out.length + 1) + 1 by omega]
      rfl
    · exact absurd hTake.2 hRequested
    · rw [ih out hOut, show m - out.length = 0 by grind]
      rfl
    · exact ih out hOut

/-- Fewer than `2 ^ 64` messages: the replay is the requested part of the last 1024. -/
theorem replay_exact {es : List Execution} (h : es.length < 2 ^ 64) (beginSeq endSeq : UInt64) {m : Nat} (hm : 0 < m) :
    replayRange beginSeq endSeq m (run publishExecution es {}).2 =
      (((run publishExecution es {}).1.drop (es.length - 1024)).filter (Requested beginSeq endSeq)).take m ∧
    (run publishExecution es {}).1.map (·.seqNum.toNat) = range' 1 es.length := by
  have hPublished := published es
  have hLength := length_run es {}
  generalize run publishExecution es {} = out at *
  obtain ⟨-, hCount, hNumbered, hKept⟩ := hPublished
  rw [hLength] at hCount hNumbered hKept
  constructor
  · unfold replayRange
    split_ifs with hNone
    · have hNothing (msg : DropCopyMessage) : ¬ Requested beginSeq endSeq msg := by
        grind [Requested]
      rw [filter_eq_nil_iff.mpr fun msg _ => hNothing msg, take_nil]
    · have hAvail : min out.2.count.toNat kReplayBufferSize.toNat = min es.length 1024 := by
        rw [hCount, toNat_ofNat', Nat.mod_eq_of_lt h]
        rfl
      have hMessages : ((range (min es.length 1024)).map fun i =>
          out.2.buffer (slot (out.2.count - .ofNat (min es.length 1024) + .ofNat i))) = out.1.drop (es.length - 1024) := by
        refine ext_getElem? fun i => ?_
        rw [hCount, getElem?_drop, getElem?_map, ← ofNat_sub (min_le_left ..)]
        rcases lt_or_ge i (min es.length 1024) with hi | hi
        · rw [getElem?_range hi, Option.map_some, ← ofNat_add, slot_ofNat,
            show es.length - 1024 + i = es.length - min es.length 1024 + i by omega, hKept _ (by omega) (by omega)]
        · rw [getElem?_eq_none (by rwa [length_range]), getElem?_eq_none (by omega)]
          rfl
      rw [hAvail, ← hMessages]
      exact foldl_take m _ [] hm.le
  · have hNumbers := congrArg (map UInt64.toNat) hNumbered
    rw [map_map, map_map] at hNumbers
    refine hNumbers.trans ((map_congr_left fun k hk => ?_).trans (map_id _))
    have hBound := (mem_range'_1.mp hk).2
    exact toNat_ofNat'.trans (Nat.mod_eq_of_lt (by omega))

theorem replay_exact_two : (replayRange 2 9 5 (run publishExecution [{}, { price := 7 }] {}).2).map (·.price) =
    [7] := by
  rw [(replay_exact (by decide) 2 9 (by decide)).1]
  rfl

/-- After `2 ^ 64` messages the count is zero again, and no message is found. -/
theorem full_count_forgets :
    (run publishExecution (replicate (2 ^ 64) {}) {}).1.length = 2 ^ 64 ∧
      replayRange 0 18446744073709551615 1 (run publishExecution (replicate (2 ^ 64) {}) {}).2 = [] := by
  have hLength := (length_run (replicate (2 ^ 64) {}) {}).trans length_replicate
  have hCount := (published (replicate (2 ^ 64) {})).count
  rw [hLength] at hCount
  refine ⟨hLength, ?_⟩
  rw [replayRange, hCount]
  rfl

end LuvFlicker.DropCopy
