import LuvFlicker.Safety.AuditChain

/-!
# Failed appends and the audit log

A failed append does not take back the bytes that reached the file: a write that
stops halfway leaves a part of a record, a failed `fsync` a whole one.
-/

namespace LuvFlicker.DurableAuditLog

open Run List AuditEvent RecoveryLedger
open AuditEvent (size format)

structure AppendCall where
  entry : AuditEntry
  padding : UInt32 := 0
  io : AppendIo
  deriving DecidableEq, Repr

namespace AppendCall

variable (a : AppendCall) (l : DurableAuditLog)

def Refused : Prop := a.entry.orderId = 0 ∨ a.entry.quantity ≤ 0 ∨ a.entry.side > 1

instance : Decidable a.Refused := inferInstanceAs (Decidable (_ ∨ _ ∨ _))

def WritesNothing : Prop := a.Refused ∨ RecoveryLedger.progress a.io.writes size = 0

/-- The append writes nothing, or its whole record, which is synced if that is due. -/
def LeavesNoTrace : Prop := a.WritesNothing ∨
    RecoveryLedger.progress a.io.writes size = size ∧ (l.pending + 1 < l.syncInterval ∨ a.io.synced = true)

instance : Decidable (a.LeavesNoTrace l) := inferInstanceAs (Decidable ((_ ∨ _) ∨ _ ∧ (_ ∨ _)))

end AppendCall

structure Kept where
  log : DurableAuditLog
  events : List AuditEvent

namespace Kept

variable (sha256 : List UInt8 → BitVec 256)

def opened (syncInterval : UInt32) (file : List UInt8) : Kept where
  log := (openLog sha256 syncInterval { file := file }).2
  events := records file

def step (a : AppendCall) (k : Kept) : Bool × Kept :=
  let (ok, log) := k.log.append sha256 a.entry a.padding a.io
  (ok, ⟨log, if ok then k.events ++ [nextEvent sha256 a.entry a.padding k.log] else k.events⟩)

/-- If the file is accepted after the append, its events are those whose append returned true; and it is accepted if
this one did. -/
structure Clean (a : AppendCall) (k : Kept) : Prop where
  events : (verifyLogIntegrity sha256 (step sha256 a k).2.log.file).ok = true →
    records (step sha256 a k).2.log.file = (step sha256 a k).2.events
  verifies : (step sha256 a k).1 = true → (verifyLogIntegrity sha256 (step sha256 a k).2.log.file).ok = true
  opens : (step sha256 a k).1 = true → ∀ syncInterval, syncInterval ≠ 0 →
    (openLog sha256 syncInterval { file := (step sha256 a k).2.log.file }).1 = true

end Kept

variable {sha256 : List UInt8 → BitVec 256} {a : AppendCall} {l : DurableAuditLog}

/-! ## Opening -/

variable {file : List UInt8}

theorem ok_of_rootHash {n seq : Nat} {prevHash root : BitVec 256}
    (h : (verifyLoop sha256 file n seq prevHash).rootHash = some root) :
    (verifyLoop sha256 file n seq prevHash).ok = true := by
  induction n generalizing seq prevHash with
  | zero => rfl
  | succ n ih =>
    rw [verifyLoop] at h ⊢
    split at h
    · cases h
    next hAccepted =>
      rw [if_neg hAccepted]
      exact ih h

variable {syncInterval : UInt32}

theorem Intact.openLog_eq (h : Intact sha256 file)
    (hInterval : syncInterval ≠ 0) : openLog sha256 syncInterval { file := file } =
      (true, ⟨file, true, syncInterval, 0, .ofNat (records file).length, format.root 0 (records file)⟩) := by
  rw [openLog, if_neg (not_or.mpr ⟨Bool.false_ne_true, hInterval⟩)]
  rw [if_neg (not_not.mpr h.whole), h.verifyLoop]

theorem intact_of_openLog
    (h : (openLog sha256 syncInterval { file := file }).1 = true) : Intact sha256 file ∧ syncInterval ≠ 0 := by
  rw [openLog] at h
  split at h
  · cases h
  rename_i hArgs
  dsimp only at h
  split at h
  · cases h
  rename_i hWhole
  split at h
  · cases h
  rename_i root hRoot
  refine ⟨intact_of_verifies ?_, (not_or.mp hArgs).2⟩
  rw [verifyLogIntegrity, if_neg hWhole]
  exact ok_of_rootHash hRoot

/-! ## One append -/

inductive Appended (sha256 : List UInt8 → BitVec 256) (a : AppendCall) (l : DurableAuditLog) :
    Bool × DurableAuditLog → Prop where
  | nothing (h : a.WritesNothing) : Appended sha256 a l (false, l)
  | record (pending : UInt32) (h : a.LeavesNoTrace l) :
    Appended sha256 a l (true, { pushed sha256 a.entry a.padding l with pending := pending })
  | stray (after : DurableAuditLog) (h : ¬ a.LeavesNoTrace l) (hOpen : after.isOpen = true)
    (hLength : l.file.length < after.file.length) : Appended sha256 a l (false, after)

theorem length_pushed (entry : AuditEntry) (padding : UInt32) (l : DurableAuditLog) :
    (pushed sha256 entry padding l).file.length = l.file.length + size := by
  rw [pushed, length_append, length_bytes]

theorem flush_true (h : l.isOpen = true) : l.flush true = (true, { l with pending := 0 }) := by
  rw [flush, h]
  rfl

theorem flush_false (l : DurableAuditLog) : l.flush false = (false, l) := if_pos (.inr rfl)

theorem appended (sha256 : List UInt8 → BitVec 256) (a : AppendCall) (hOpen : l.isOpen = true) :
    Appended sha256 a l (l.append sha256 a.entry a.padding a.io) := by
  rw [append]
  split
  next hArgs =>
    rw [hOpen] at hArgs
    exact .nothing (.inl (hArgs.resolve_left (by decide)))
  rename_i hArgs
  have hAccepted : ¬ a.Refused := fun h => hArgs (.inr h)
  have hLe := progress_le a.io.writes size
  dsimp only
  rw [writeAll_eq, length_bytes]
  dsimp only
  by_cases hAll : progress a.io.writes size = size
  · rw [hAll, take_of_length_le (length_bytes _).le, if_neg (by decide)]
    split
    next hEarly => exact .record _ (.inr ⟨hAll, .inl hEarly⟩)
    rename_i hDue
    cases hSynced : a.io.synced with
    | true =>
      rw [flush_true (by exact hOpen)]
      exact .record 0 (.inr ⟨hAll, .inr hSynced⟩)
    | false =>
      rw [flush_false]
      refine .stray (pushed _ _ _ l) ?_ hOpen ?_
      · rintro ((hNo | hNo) | ⟨_, hNo | hNo⟩)
        · exact hAccepted hNo
        · rw [hAll] at hNo
          cases hNo
        · exact hDue hNo
        · rw [hSynced] at hNo
          cases hNo
      · rw [length_pushed]
        exact Nat.lt_add_of_pos_right (by decide)
  · rw [decide_eq_false hAll]
    by_cases hNone : progress a.io.writes size = 0
    · rw [hNone, take_zero, append_nil]
      exact .nothing (.inr hNone)
    refine .stray _ ?_ hOpen ?_
    · rintro ((hNo | hNo) | ⟨hNo, _⟩)
      exacts [hAccepted hNo, hNone hNo, hAll hNo]
    · rw [length_append, length_take, length_bytes]
      omega

/-! ## Runs of appends -/

namespace Kept

variable {k : Kept}

structure Good (sha256 : List UInt8 → BitVec 256) (k : Kept) : Prop where
  isOpen : k.log.isOpen = true
  follows : Follows sha256 k.log k.events.length
  records_eq : records k.log.file = k.events

structure Bad (k : Kept) : Prop where
  isOpen : k.log.isOpen = true
  longer : size * k.events.length < k.log.file.length

theorem Good.length_file (h : Good sha256 k) : k.log.file.length = size * k.events.length := by
  rw [← h.follows.count, length_records, Nat.mul_div_cancel' (Nat.dvd_of_mod_eq_zero h.follows.intact.whole)]

inductive Stepped (sha256 : List UInt8 → BitVec 256) (a : AppendCall) (k : Kept) : Bool × Kept → Prop where
  | nothing (h : a.WritesNothing) : Stepped sha256 a k (false, k)
  | record (pending : UInt32) (h : a.LeavesNoTrace k.log) : Stepped sha256 a k
    (true, ⟨{ pushed sha256 a.entry a.padding k.log with pending := pending },
      k.events ++ [nextEvent sha256 a.entry a.padding k.log]⟩)
  | stray (after : DurableAuditLog) (h : ¬ a.LeavesNoTrace k.log) (hOpen : after.isOpen = true)
    (hLength : k.log.file.length < after.file.length) : Stepped sha256 a k (false, ⟨after, k.events⟩)

theorem stepped (sha256 : List UInt8 → BitVec 256) (a : AppendCall) (hOpen : k.log.isOpen = true) :
    Stepped sha256 a k (step sha256 a k) := by
  have hCases := appended sha256 a hOpen
  rw [step]
  generalize k.log.append sha256 a.entry a.padding a.io = result at hCases
  cases hCases with
  | nothing h => exact .nothing h
  | record pending h => exact .record _ h
  | stray after h hOpen hLength => exact .stray _ h hOpen hLength

theorem Good.step (h : Good sha256 k) (hTrace : a.LeavesNoTrace k.log) : Good sha256 (step sha256 a k).2 := by
  have hCases := stepped sha256 a h.isOpen
  generalize Kept.step sha256 a k = result at hCases
  cases hCases with
  | nothing _ => exact h
  | record pending _ =>
    have hNext := h.follows.push h.isOpen a.entry a.padding
    refine ⟨h.isOpen, ?_, ?_⟩
    · rw [length_append]
      exact ⟨hNext.intact, hNext.count, hNext.sequence, hNext.tail⟩
    · rw [← h.records_eq]
      exact records_append h.follows.intact.whole _
  | stray after hStray _ _ => exact absurd hTrace hStray

theorem Good.bad_of_trace (h : Good sha256 k) (hTrace : ¬ a.LeavesNoTrace k.log) : Bad (Kept.step sha256 a k).2 := by
  have hCases := stepped sha256 a h.isOpen
  generalize Kept.step sha256 a k = result at hCases
  cases hCases with
  | nothing hNone => exact absurd (.inl hNone) hTrace
  | record _ hNone => exact absurd hNone hTrace
  | stray after _ hOpen hLength => exact ⟨hOpen, h.length_file.symm.trans_lt hLength⟩

theorem Bad.step (sha256 : List UInt8 → BitVec 256) (h : Bad k) (a : AppendCall) : Bad (Kept.step sha256 a k).2 := by
  have hCases := stepped sha256 a h.isOpen
  generalize Kept.step sha256 a k = result at hCases
  cases hCases with
  | nothing _ => exact h
  | record pending _ =>
    refine ⟨h.isOpen, ?_⟩
    rw [length_append, length_pushed]
    exact Nat.add_lt_add_right h.longer size
  | stray after _ hOpen hLength => exact ⟨hOpen, h.longer.trans hLength⟩

theorem Good.clean (h : Good sha256 (Kept.step sha256 a k).2) : Clean sha256 a k where
  events _ := h.records_eq
  verifies _ := by rw [h.follows.intact.verifies]
  opens _ syncInterval hInterval := by rw [h.follows.intact.openLog_eq hInterval]

def sound : AppendCall where
  entry := { timestampNs := 0, orderId := 1, price := 100, quantity := 1, traderId := 0, side := 0, type := 0 }
  io := ⟨[.wrote size], true⟩

theorem sound_leavesNoTrace {l : DurableAuditLog} : sound.LeavesNoTrace l := .inr ⟨rfl, .inr rfl⟩

theorem sound_succeeds {sha256 : List UInt8 → BitVec 256} (hOpen : k.log.isOpen = true) :
    (Kept.step sha256 sound k).1 = true := by
  have hCases := stepped sha256 sound hOpen
  generalize Kept.step sha256 sound k = result at hCases
  cases hCases with
  | nothing hNone =>
    have hWrites : ¬ sound.WritesNothing := by
      rintro (hArgs | hNo)
      · exact absurd hArgs (by decide)
      · cases hNo
    exact absurd hNone hWrites
  | record _ _ => rfl
  | stray _ hStray _ _ => exact absurd sound_leavesNoTrace hStray

theorem Bad.not_clean (h : Bad k) : ¬ Clean sha256 sound k := by
  intro hClean
  have hBad := h.step sha256 sound
  have hVerifies := hClean.verifies (sound_succeeds h.isOpen)
  have hWhole := (intact_of_verifies hVerifies).whole
  have hLonger := hBad.longer
  rw [← hClean.events hVerifies, length_records, Nat.mul_div_cancel' (Nat.dvd_of_mod_eq_zero hWhole)] at hLonger
  exact lt_irrefl _ hLonger

theorem good_opened {file : List UInt8}
    (h : (openLog sha256 syncInterval { file := file }).1 = true) : Good sha256 (opened sha256 syncInterval file) := by
  obtain ⟨hIntact, hInterval⟩ := intact_of_openLog h
  rw [opened, hIntact.openLog_eq hInterval]
  exact ⟨rfl, ⟨hIntact, rfl, fun _ => rfl, fun _ => rfl⟩, rfl⟩

/-- The appends of a run leave no byte of a failed one. -/
def LeaveNoTrace (sha256 : List UInt8 → BitVec 256) (calls : List AppendCall) (k : Kept) : Prop :=
  Always (Kept.step sha256) (fun a k => a.LeavesNoTrace k.log) calls k

variable {calls : List AppendCall}

theorem Good.bad_final (h : Good sha256 k) (hCalls : ¬ LeaveNoTrace sha256 calls k) :
    Bad (Run.final (Kept.step sha256) calls k) := by
  induction calls generalizing k with
  | nil => exact absurd trivial hCalls
  | cons a rest ih =>
    by_cases hTrace : a.LeavesNoTrace k.log
    · exact ih (h.step hTrace) fun hRest => hCalls ⟨hTrace, hRest⟩
    · exact final_invariant (fun a _ hBad => hBad.step _ a) rest (h.bad_of_trace hTrace)

theorem Good.always_clean (h : Good sha256 k) (hCalls : LeaveNoTrace sha256 calls k) :
    Always (Kept.step sha256) (Clean sha256) calls k := by
  induction calls generalizing k with
  | nil => trivial
  | cons a rest ih =>
    have hNext := h.step hCalls.1
    exact ⟨hNext.clean, ih hNext hCalls.2⟩

end Kept

open Kept

/-- **Failed appends.** A run of appends on a log that was opened leaves no byte of a failed append exactly when it
and all that may follow it, as long as that leaves none either, keeps the log clean. -/
theorem clean_appends_iff (sha256 : List UInt8 → BitVec 256) (syncInterval : UInt32) (file : List UInt8)
    (hOpen : (openLog sha256 syncInterval { file := file }).1 = true) (calls : List AppendCall) :
    (∀ later, Kept.LeaveNoTrace sha256 later (final (Kept.step sha256) calls (.opened sha256 syncInterval file)) →
        Always (Kept.step sha256) (Kept.Clean sha256) (calls ++ later) (.opened sha256 syncInterval file)) ↔
      Kept.LeaveNoTrace sha256 calls (.opened sha256 syncInterval file) := by
  have hGood := good_opened hOpen
  constructor
  · intro hClean
    by_contra hTrace
    have hNext := hClean [sound] ⟨sound_leavesNoTrace, trivial⟩
    exact (hGood.bad_final hTrace).not_clean ((always_append ..).mp hNext).2.1
  · intro hCalls later hLater
    exact hGood.always_clean ((always_append ..).mpr ⟨hCalls, hLater⟩)

def cleanCalls : List AppendCall :=
  [{ Kept.sound with entry := { Kept.sound.entry with side := 2 } }, { Kept.sound with io := ⟨[.failed], true⟩ },
    Kept.sound]

theorem cleanCalls_clean :
    Always (Kept.step fun _ => 0) (Kept.Clean fun _ => 0) cleanCalls (.opened (fun _ => 0) 1 []) := by
  have hTrace : Kept.LeaveNoTrace (fun _ => 0) cleanCalls (.opened (fun _ => 0) 1 []) :=
    ⟨by decide, by decide, by decide, trivial⟩
  have hClean := (clean_appends_iff (fun _ => 0) 1 [] rfl cleanCalls).mpr hTrace [] trivial
  exact hClean

def unsynced : AppendCall := { Kept.sound with io := ⟨[.wrote size], false⟩ }

def torn : AppendCall := { Kept.sound with io := ⟨[.wrote 50, .failed], true⟩ }

theorem length_torn {e e' : AuditEvent} : (e.bytes.take 50 ++ e'.bytes).length % size ≠ 0 := by
  rw [length_append, length_take, length_bytes, length_bytes]
  decide

theorem remain_of_failed (sha256 : List UInt8 → BitVec 256) :
    ((run (Kept.step sha256) [unsynced] (.opened sha256 1 [])).1 = [false] ∧
      (verifyLogIntegrity sha256 (final (Kept.step sha256) [unsynced] (.opened sha256 1 [])).log.file).ok = true ∧
      (verifyLogIntegrity sha256
        (final (Kept.step sha256) [unsynced] (.opened sha256 1 [])).log.file).validEvents = 1) ∧
    (run (Kept.step sha256) [torn, sound] (.opened sha256 1 [])).1 = [false, true] ∧ (verifyLogIntegrity sha256
        (final (Kept.step sha256) [torn, sound] (.opened sha256 1 [])).log.file).ok = false := by
  have hGood : Kept.Good sha256 (.opened sha256 1 []) := good_opened rfl
  have hNext := hGood.follows.push hGood.isOpen unsynced.entry unsynced.padding
  have hVerifies := hNext.intact.verifies
  rw [hNext.count] at hVerifies
  refine ⟨⟨rfl, ?_, ?_⟩, rfl, ?_⟩
  · exact congrArg _ hVerifies
  · exact congrArg _ hVerifies
  · exact congrArg _ (if_pos length_torn)

theorem failed_appends_remain : ((run (Kept.step fun _ => 0) [unsynced] (.opened (fun _ => 0) 1 [])).1 = [false] ∧
      (verifyLogIntegrity (fun _ => 0)
        (final (Kept.step fun _ => 0) [unsynced] (.opened (fun _ => 0) 1 [])).log.file).ok = true ∧
      (verifyLogIntegrity (fun _ => 0)
        (final (Kept.step fun _ => 0) [unsynced] (.opened (fun _ => 0) 1 [])).log.file).validEvents = 1) ∧
    (run (Kept.step fun _ => 0) [torn, Kept.sound] (.opened (fun _ => 0) 1 [])).1 = [false, true] ∧
      (verifyLogIntegrity (fun _ => 0)
        (final (Kept.step fun _ => 0) [torn, Kept.sound] (.opened (fun _ => 0) 1 [])).log.file).ok = false :=
  remain_of_failed fun _ => 0

end LuvFlicker.DurableAuditLog
