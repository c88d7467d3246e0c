import LuvFlicker.Fix.RoundTrip
import LuvFlicker.Lib.Run

/-!
# The numbers of outbound messages

Every formatter takes the next sequence number before it prints. The formatter of
reports can still give up after that, and then the number is gone.
-/

namespace LuvFlicker.Fix

inductive FormatRequest where
  | executionReport (report : ExecutionReport)
  | logon (heartbeatSec : UInt32)
  | heartbeat (testReqId : List UInt8)

namespace FormatRequest

def msgType : FormatRequest → String
  | executionReport _ => "8"
  | logon _ => "A"
  | heartbeat _ => "0"

def capacity : FormatRequest → Nat
  | executionReport _ => 512
  | logon _ | heartbeat _ => 256

end FormatRequest

/-- A call of a formatter; a null buffer is `none`. -/
structure FormatCall where
  request : FormatRequest
  maxLen : UInt64
  buffers : Option Buffers

namespace FixSession

def format (session : FixSession) (request : FormatRequest) (maxLen : UInt64) (buffers : Buffers) :
    Formatted × FixSession :=
  match request with
  | .executionReport r => session.formatExecutionReport r maxLen buffers
  | .logon heartbeatSec => session.formatLogon heartbeatSec maxLen buffers
  | .heartbeat testReqId => session.formatHeartbeat testReqId maxLen buffers

def slots (session : FixSession) : FormatRequest → List Slot
  | .executionReport r => session.reportSlots r
  | .logon heartbeatSec => session.logonSlots heartbeatSec
  | .heartbeat testReqId => session.heartbeatSlots testReqId

def perform (call : FormatCall) (session : FixSession) : Formatted × FixSession :=
  match call.buffers with
  | none => ({ out := fun _ => 0 }, session)
  | some buffers => session.format call.request call.maxLen buffers

end FixSession

open FixSession Bytes Arg Text
open List hiding format

/-- The beginning of the field 34, behind the end of another field. -/
def seqNumMark : List UInt8 := soh :: ascii "34="

/-- The number in the first field 34 of a message. -/
def msgSeqNum (message : List UInt8) : Option Nat :=
  (Text.strstr seqNumMark message).bind fun i =>
    let digits := (message.drop (i + 4)).takeWhile (· ≠ soh)
    if digits.all Decimal.isDigit then some (Decimal.value 0 digits) else none

/-- The numbers of the messages that the calls so far have produced. -/
def noteNumber (_ : FormatCall) (_ : FixSession) (formatted : Formatted) (numbers : List (Option Nat)) :
    List (Option Nat) :=
  if formatted.ret = 0 then numbers else numbers ++ [msgSeqNum formatted.message]

/-- The messages of a run are numbered from 1 on, and a call that returns 0 uses up no number. -/
structure GapFree (calls : List FormatCall) (session : FixSession) : Prop where
  numbered : Run.history perform noteNumber calls session [] =
    (range' 1 (Run.history perform noteNumber calls session []).length).map some
  unspent : Run.Always perform
    (fun call s => (perform call s).1.ret = 0 → (perform call s).2.nextOutSeq = s.nextOutSeq) calls session

def FormatCall.usable (call : FormatCall) : Bool := call.buffers.isSome && 128 ≤ call.maxLen

/-- A report that gets past the first check fits the buffer, and its text an `int`. -/
def ReportFits (call : FormatCall) (session : FixSession) : Prop :=
  ∀ r, call.request = .executionReport r → call.usable = true → (printedBody (session.reportSlots r)).length < 2 ^ 31 ∧
      totalPayload (printedBody (session.reportSlots r)).length + 16 ≤ call.maxLen

/-- The names do not hold a field 34 of their own, the array has room for the body up to the number, and the length
of the message is an `int`. -/
structure Legible (call : FormatCall) (session : FixSession) : Prop where
  sender : ¬ seqNumMark <:+: printView session.senderCompId
  target : ¬ seqNumMark <:+: printView session.targetCompId
  stored : (printedBody ((session.slots call.request).take 4)).length < call.request.capacity
  length : (header (printedBody (session.slots call.request)).length).length +
    (printedBody (session.slots call.request)).length < 2 ^ 31

instance (call : FormatCall) (session : FixSession) : Decidable (Legible call session) :=
  decidable_of_iff (_ ∧ _ ∧ _ ∧ _) ⟨fun ⟨sender, target, stored, length⟩ => ⟨sender, target, stored, length⟩,
    fun h => ⟨h.sender, h.target, h.stored, h.length⟩⟩

variable {call : FormatCall} {session : FixSession}

theorem ofInt_add_seven_ne_zero {i : Int} (hLow : -2 ^ 32 ≤ i) (hHigh : i < 2 ^ 32) (h : i ≠ -7) :
    UInt64.ofInt i + 7 ≠ 0 := by
  have hLt : (i % 2 ^ 64).toNat < 2 ^ 64 := by omega
  rw [ne_eq, ← UInt64.toNat_inj, UInt64.toNat_add, UInt64.ofInt, UInt64.toNat_ofNat_of_lt' hLt]
  change ¬ (_ + 7) % 2 ^ 64 = 0
  omega

theorem ret_assemble_ne_zero {capacity : Nat} {text : List UInt8} {maxLen : UInt64} {buffers : Buffers} :
    (assemble capacity text maxLen buffers).ret ≠ 0 := by
  have hLow := BitVec.le_toInt (BitVec.ofInt 32 ((header (snprintfLength text)).length + snprintfLength text))
  have hHigh := BitVec.toInt_lt (x := BitVec.ofInt 32 ((header (snprintfLength text)).length + snprintfLength text))
  refine ofInt_add_seven_ne_zero (le_trans (by decide) hLow) (lt_trans hHigh (by decide)) ?_
  rw [toInt, BitVec.toInt_ofInt]
  by_cases hLength : text.length < 2 ^ 31
  · have hHeader := length_header_le hLength
    rw [snprintfLength_of_lt hLength, Int.bmod_def]
    omega
  · rw [snprintfLength, if_neg hLength]
    decide

/-- How a call ends: nothing is done, a message is produced, or only its number is used up. -/
inductive Performs (call : FormatCall) (session : FixSession) : Formatted × FixSession → Prop where
  | idle {formatted : Formatted} (hUsable : call.usable = false) (hRet : formatted.ret = 0) :
      Performs call session (formatted, session)
  | sent (buffers : Buffers) (hUsable : call.usable = true) (hFits : ReportFits call session) :
      Performs call session
        (assemble call.request.capacity (printedBody (session.slots call.request)) call.maxLen buffers, session.advance)
  | spent {formatted : Formatted} (hFits : ¬ ReportFits call session) (hRet : formatted.ret = 0) :
      Performs call session (formatted, session.advance)

open FormatCall

theorem reportFits_of_ne (h : ∀ r, call.request ≠ .executionReport r) : ReportFits call session :=
  fun r hr => absurd hr (h r)

theorem performs (call : FormatCall) (session : FixSession) : Performs call session (perform call session) := by
  obtain ⟨request, maxLen, _ | buffers⟩ := call
  · exact .idle rfl rfl
  rw [perform]
  dsimp only
  by_cases hShort : maxLen < 128
  · have hIdle : usable ⟨request, maxLen, some buffers⟩ = false := by simp [usable, hShort]
    cases request <;>
      simpa [format, formatExecutionReport, formatLogon, formatHeartbeat, hShort] using .idle hIdle rfl
  have hUsable : usable ⟨request, maxLen, some buffers⟩ = true := by simp [usable, UInt64.not_lt.mp hShort]
  cases request with
  | executionReport r =>
    have hFits : ReportFits ⟨.executionReport r, maxLen, some buffers⟩ session ↔
        (printedBody (session.reportSlots r)).length < 2 ^ 31 ∧
          totalPayload (printedBody (session.reportSlots r)).length + 16 ≤ maxLen := by
      constructor
      · exact fun h => h r rfl hUsable
      rintro h _ hr' -
      cases hr'
      exact h
    have hPos : 0 < (printedBody (session.reportSlots r)).length := by simp [printedBody, reportSlots, FixField.text]
    simp only [format, formatExecutionReport, if_neg hShort]
    by_cases hInt : (printedBody (session.reportSlots r)).length < 2 ^ 31
    · rw [snprintfLength_of_lt hInt, if_neg (by omega)]
      split_ifs with hRoom
      · exact .spent (fun h => UInt64.not_le.mpr hRoom (hFits.mp h).2) rfl
      · exact .sent buffers hUsable (hFits.mpr ⟨hInt, UInt64.not_lt.mp hRoom⟩)
    · rw [snprintfLength, if_neg hInt]
      exact .spent (fun h => hInt (hFits.mp h).1) rfl
  | logon heartbeatSec =>
    simp only [format, formatLogon, if_neg hShort]
    exact .sent buffers hUsable (reportFits_of_ne (by simp))
  | heartbeat testReqId =>
    simp only [format, formatHeartbeat, if_neg hShort]
    exact .sent buffers hUsable (reportFits_of_ne (by simp))

theorem unspent_iff : ((perform call session).1.ret = 0 → (perform call session).2.nextOutSeq = session.nextOutSeq) ↔
    ReportFits call session := by
  have hPerforms := performs call session
  generalize perform call session = result at hPerforms ⊢
  cases hPerforms with
  | idle hUsable => simp [ReportFits, hUsable]
  | sent _ _ hFits => exact iff_of_true (fun h => absurd h ret_assemble_ne_zero) hFits
  | spent hFits hRet =>
    refine iff_of_false (fun h => ?_) hFits
    have hSame : session.nextOutSeq + 1 = session.nextOutSeq := h hRet
    simp at hSame

/-! ## The number read from the bytes -/

theorem text_field (tag : UInt32) (mark : String) (h : Decimal.text tag.toNat ++ [equals] = ascii mark)
    (val : List UInt8) : (⟨tag, val⟩ : FixField).text = ascii mark ++ (val ++ [soh]) := by
  rw [← h, append_assoc, singleton_append]
  rfl

def unnumbered (bodyLen : Nat) (msgType : String) (session : FixSession) : List UInt8 :=
  ascii "8=FIX.4.4" ++ soh :: (ascii "9=" ++ Decimal.text bodyLen) ++ soh :: (ascii "35=" ++ ascii msgType) ++
    soh :: (ascii "49=" ++ printView session.senderCompId) ++ soh :: (ascii "56=" ++ printView session.targetCompId)

theorem header_append_take (request : FormatRequest) (n : Nat) :
    header n ++ printedBody ((session.slots request).take 4) = unnumbered n request.msgType session ++
      soh :: (ascii "34=" ++ (Decimal.text session.nextOutSeq.toNat ++ [soh])) := by
  have hTake : (session.slots request).take 4 = (session.opening request.msgType).take 4 := by
    cases request with
    | executionReport | logon => rfl
    | heartbeat testReqId =>
      rw [slots, heartbeatSlots]
      split <;> rfl
  have hBegin : ascii "8=FIX.4.4\x01" = ascii "8=FIX.4.4" ++ [soh] := by decide
  rw [hTake, header_append, hBegin, unnumbered]
  simp only [printedBody, opening, take_succ_cons, take_zero, map_cons, map_nil, flatMap_cons, flatMap_nil, Slot.printed,
    Arg.print, text_field 35 "35=" (by decide), text_field 49 "49=" (by decide), text_field 56 "56=" (by decide),
    text_field 34 "34=" (by decide), append_assoc, cons_append, nil_append, append_nil]

theorem notInfix_of_notMem {text : List UInt8} (h : soh ∉ text) : ¬ seqNumMark <:+: text :=
  fun hInfix => h (hInfix.subset mem_cons_self)

theorem notInfix_tag {tag view : List UInt8} (hTag : soh ∉ tag) (hView : ¬ seqNumMark <:+: view) :
    ¬ seqNumMark <:+: tag ++ view := by
  induction tag with
  | nil => exact hView
  | cons first tag ih =>
    rw [mem_cons, not_or] at hTag
    rw [cons_append, infix_cons_iff, seqNumMark, cons_prefix_cons]
    rintro (⟨hHere, -⟩ | hLater)
    · exact hTag.1 hHere
    · exact ih hTag.2 hLater

theorem notInfix_unnumbered (h : Legible call session) (n : Nat) :
    ¬ seqNumMark <:+: unnumbered n call.request.msgType session := by
  have hMark : soh ∉ ascii "34=" := by decide
  have hType : soh ∉ ascii "35=" ++ ascii call.request.msgType := by
    cases call.request <;>
    · rw [FormatRequest.msgType]
      decide
  have hLength : soh ∉ ascii "9=" ++ Decimal.text n := by
    rw [mem_append, not_or]
    exact ⟨by decide, Decimal.notMem_text rfl⟩
  refine notInfix_append_cons hMark (notInfix_append_cons hMark (notInfix_append_cons hMark
    (notInfix_append_cons hMark (notInfix_of_notMem (by decide)) ?_ (notInfix_of_notMem hLength)) ?_
      (notInfix_of_notMem hType)) ?_ (notInfix_tag (by decide) h.sender)) ?_ (notInfix_tag (by decide) h.target)
  all_goals
    rintro ⟨_, hTag⟩
    cases hTag

theorem msgSeqNum_message (h : Legible call session) (maxLen : UInt64) (buffers : Buffers) :
    msgSeqNum (assemble call.request.capacity (printedBody (session.slots call.request)) maxLen buffers).message =
      some session.nextOutSeq.toNat := by
  generalize hBody : printedBody (session.slots call.request) = body
  have hFront : printedBody ((session.slots call.request).take 4) <+: body :=
    ⟨printedBody ((session.slots call.request).drop 4), by
      rw [printedBody, printedBody, ← flatMap_append, ← map_append, take_append_drop, ← hBody, printedBody]⟩
  have hLength := h.length
  rw [hBody] at hLength
  obtain ⟨rest, hMessage⟩ : ∃ rest, (assemble call.request.capacity body maxLen buffers).message = _ ++ (_ ++ rest) :=
    message_front hLength hFront h.stored
  rw [← append_assoc, header_append_take, append_assoc, cons_append, append_assoc, append_assoc, singleton_append]
    at hMessage
  have hFound := strstr_append_self (by decide : soh ∉ ascii "34=") (notInfix_unnumbered h body.length)
    (Decimal.text session.nextOutSeq.toNat ++ soh :: rest)
  have hDrop : (unnumbered body.length call.request.msgType session ++ soh :: (ascii "34=" ++
      (Decimal.text session.nextOutSeq.toNat ++ soh :: rest))).drop
        ((unnumbered body.length call.request.msgType session).length + 4) =
      Decimal.text session.nextOutSeq.toNat ++ soh :: rest := by
    rw [drop_length_add_append]
    rfl
  have hDigits : (Decimal.text session.nextOutSeq.toNat ++ soh :: rest).takeWhile (· ≠ soh) =
      Decimal.text session.nextOutSeq.toNat := by
    rw [takeWhile_append_of_pos, takeWhile_cons_of_neg (by decide), append_nil]
    exact fun byte hByte => decide_eq_true fun hSoh => Decimal.notMem_text rfl (hSoh ▸ hByte)
  rw [hMessage, msgSeqNum, seqNumMark, hFound, Option.bind_some, hDrop, hDigits]
  exact (if_pos (all_eq_true.mpr fun _ => Decimal.isDigit_of_mem_text)).trans (congrArg some (Decimal.value_text _))

/-- As long as every report fits, the `n`-th usable call has the number `n`. -/
theorem history_eq {calls : List FormatCall} {n : Nat} (h : Run.Always perform ReportFits calls session)
    (hLegible : Run.Always perform (fun call s => (perform call s).1.ret ≠ 0 → Legible call s) calls session)
    (hNext : session.nextOutSeq = .ofNat (n + 1)) :
    Run.history perform noteNumber calls session ((range' 1 n).map fun k => some (k % 2 ^ 64)) =
      (range' 1 (n + (calls.filter usable).length)).map fun k => some (k % 2 ^ 64) := by
  induction calls generalizing session n with
  | nil => rfl
  | cons call calls ih =>
    obtain ⟨hFits, hRest⟩ := h
    obtain ⟨hHere, hLater⟩ := hLegible
    have hPerforms := performs call session
    rw [Run.history]
    generalize perform call session = result at hPerforms hRest hHere hLater ⊢
    cases hPerforms with
    | idle hUsable hRet =>
      rw [filter_cons_of_neg (by simp [hUsable]), noteNumber, if_pos hRet]
      exact ih hRest hLater hNext
    | spent hNot => exact absurd hFits hNot
    | sent buffers hUsable =>
      have hNumber : session.nextOutSeq.toNat = (1 + 1 * n) % 2 ^ 64 := by
        rw [hNext, UInt64.toNat_ofNat', one_mul, add_comm]
      have hAdvance : session.advance.nextOutSeq = .ofNat (n + 1 + 1) := by
        rw [UInt64.ofNat_add, ← hNext]
        rfl
      have hNote := ih hRest hLater hAdvance
      rw [range'_concat, map_append, map_singleton, ← hNumber] at hNote
      rw [noteNumber, if_neg ret_assemble_ne_zero, msgSeqNum_message (hHere ret_assemble_ne_zero), hNote,
        filter_cons_of_pos hUsable, length_cons, add_right_comm, add_assoc]

theorem map_range'_iff {n : Nat} : (range' 1 n).map (fun k => some (k % 2 ^ 64)) = (range' 1 n).map some ↔
    n < 2 ^ 64 := by
  simp only [map_inj_left, mem_range'_1, Option.some.injEq]
  constructor
  · intro h
    rcases Nat.eq_zero_or_pos n with rfl | hPos
    · decide
    · rw [← h n ⟨hPos, by omega⟩]
      exact Nat.mod_lt _ (by decide)
  · intro h k hk
    exact Nat.mod_eq_of_lt (by omega)

/-- **Outbound sequence numbers.** In a run of a new session whose messages can carry their numbers, the numbers read
from the bytes of the messages have no gap, and no call that returns 0 uses up a number, exactly if every report fits
its buffer and fewer than 2^64 calls get past the first check. -/
theorem gapFree_iff (senderCompId targetCompId : List UInt8) (calls : List FormatCall)
    (hLegible : Run.Always perform (fun call s => (perform call s).1.ret ≠ 0 → Legible call s) calls
      ⟨senderCompId, targetCompId, 1⟩) :
    GapFree calls ⟨senderCompId, targetCompId, 1⟩ ↔
      Run.Always perform ReportFits calls ⟨senderCompId, targetCompId, 1⟩ ∧
        (calls.filter FormatCall.usable).length < 2 ^ 64 := by
  have hUnspent : Run.Always perform
      (fun call s => (perform call s).1.ret = 0 → (perform call s).2.nextOutSeq = s.nextOutSeq) calls
        ⟨senderCompId, targetCompId, 1⟩ ↔ Run.Always perform ReportFits calls ⟨senderCompId, targetCompId, 1⟩ :=
    ⟨Run.Always.mono fun _ _ => unspent_iff.mp, Run.Always.mono fun _ _ => unspent_iff.mpr⟩
  have hNumbered (hFits : Run.Always perform ReportFits calls ⟨senderCompId, targetCompId, 1⟩) :
      Run.history perform noteNumber calls ⟨senderCompId, targetCompId, 1⟩ [] =
        (range' 1 (calls.filter usable).length).map fun k => some (k % 2 ^ 64) := by
    have hHistory := history_eq (n := 0) hFits hLegible rfl
    rw [zero_add] at hHistory
    exact hHistory
  constructor
  · rintro ⟨hNumbers, hAlways⟩
    have hFits := hUnspent.mp hAlways
    rw [hNumbered hFits, length_map, length_range'] at hNumbers
    exact ⟨hFits, map_range'_iff.mp hNumbers⟩
  · rintro ⟨hFits, hCount⟩
    refine ⟨?_, hUnspent.mpr hFits⟩
    rw [hNumbered hFits, length_map, length_range']
    exact map_range'_iff.mpr hCount

def wellFitted : List FormatCall :=
  [⟨.logon 30, 128, some zeroBuffers⟩, ⟨.executionReport sampleReport, 512, some zeroBuffers⟩,
    ⟨.heartbeat (ascii "T|1"), 128, some zeroBuffers⟩]

theorem wellFitted_gapFree : Run.history perform noteNumber wellFitted sampleSession [] = [some 1, some 2, some 3] ∧
    GapFree wellFitted sampleSession := by
  refine ⟨by decide +kernel, (gapFree_iff _ _ wellFitted (by decide +kernel)).mpr ⟨?_, by decide⟩⟩
  refine ⟨reportFits_of_ne nofun, ?_, reportFits_of_ne nofun, trivial⟩
  rintro _ hr -
  cases hr
  decide +kernel

/-- A report that does not fit a buffer of 128 bytes, then a logon that does. -/
def reportThenLogon : List FormatCall :=
  [⟨.executionReport sampleReport, 128, some zeroBuffers⟩, ⟨.logon 30, 256, some zeroBuffers⟩]

theorem reportThenLogon_gap : Run.history perform noteNumber reportThenLogon sampleSession [] = [some 2] ∧
    ¬ GapFree reportThenLogon sampleSession := by
  have hNumbers : Run.history perform noteNumber reportThenLogon sampleSession [] = [some 2] := by decide +kernel
  refine ⟨hNumbers, fun h => ?_⟩
  have hNumbered := h.numbered
  rw [hNumbers] at hNumbered
  exact absurd hNumbered (by decide)

end LuvFlicker.Fix
