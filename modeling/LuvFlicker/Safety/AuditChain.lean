import LuvFlicker.Lib.HashChain
import LuvFlicker.Recovery.Append
import LuvFlicker.Safety.AuditLog

/-!
# The audit chain

The records of an accepted file form a hash chain.
-/

namespace LuvFlicker

open Bytes HashChain Run List RecoveryLedger

namespace AuditEvent

def ofHashInput (b : List UInt8) : AuditEvent where
  sequence := .ofNat (field b 32 8)
  timestampNs := .ofNat (field b 40 8)
  orderId := .ofNat (field b 48 8)
  price := (UInt64.ofNat (field b 56 8)).toInt64
  quantity := (UInt64.ofNat (field b 64 8)).toInt64
  traderId := .ofNat (field b 72 2)
  side := .ofNat (field b 74 1)
  type := .ofNat (field b 75 1)
  previousHash := .ofNat 256 (field b 0 32)

def covered (e : AuditEvent) : AuditEvent := { e with hash := 0, padding := 0 }

theorem hashInput_eq (e : AuditEvent) : e.hashInput =
    toBytes 32 e.previousHash.toNat ++ (e.fields ++ (toBytes 32 e.previousHash.toNat).take 4) := by
  rfl

theorem ofHashInput_hashInput (e : AuditEvent) : ofHashInput e.hashInput = e.covered := by
  simp (disch := simp) only [hashInput_eq, ofHashInput, covered, fields, append_assoc, field_skip, field_toBytes,
    length_toBytes, Nat.reduceSub, ofNat_uint8, ofNat_uint16, ofNat_uint64,
    ofNat_bitVec _, Int64.toInt64_toUInt64]

theorem covered_of_hashInput {e e' : AuditEvent} (h : e.hashInput = e'.hashInput) : e.covered = e'.covered := by
  rw [← ofHashInput_hashInput, h, ofHashInput_hashInput]

def format : Format AuditEvent (BitVec 256) (List UInt8) where
  previous := previousHash
  digest := hash
  input := hashInput
  previous_of_input x y h :=
    show x.covered.previousHash = y.covered.previousHash from congrArg previousHash (covered_of_hashInput h)

def Numbered : Nat → List AuditEvent → Prop
  | _, [] => True
  | seq, e :: rest => e.sequence = .ofNat seq ∧ Numbered (seq + 1) rest

theorem numbered_concat (seq : Nat) (events : List AuditEvent) (e : AuditEvent) :
    Numbered seq (events ++ [e]) ↔ Numbered seq events ∧ e.sequence = .ofNat (seq + events.length) := by
  induction events generalizing seq with
  | nil => simp [Numbered]
  | cons x events ih =>
    rw [cons_append, Numbered, ih, Numbered, length_cons, and_assoc, add_right_comm, add_assoc]

end AuditEvent

open AuditEvent

namespace DurableAuditLog

variable {sha256 : List UInt8 → BitVec 256}

def records (file : List UInt8) : List AuditEvent := (List.range (file.length / size)).map (eventAt file)

theorem length_records (file : List UInt8) : (records file).length = file.length / size := by
  rw [records, length_map, length_range]

variable {file : List UInt8} {prevHash : BitVec 256} {n seq : Nat}

theorem verifyLoop_of_linked (hLinked : format.Linked sha256 prevHash ((range' seq n).map (eventAt file)))
    (hNumbered : Numbered seq ((range' seq n).map (eventAt file))) : verifyLoop sha256 file n seq prevHash =
      ⟨true, seq + n, some (format.root prevHash ((range' seq n).map (eventAt file)))⟩ := by
  induction n generalizing seq prevHash with
  | zero => rfl
  | succ n ih =>
    obtain ⟨hPrevious, hHash, hLinked⟩ := hLinked
    obtain ⟨hSequence, hNumbered⟩ := hNumbered
    have hValid := decide_eq_true hHash
    have hAccepted : ¬ ((eventAt file seq).sequence ≠ .ofNat seq ∨ (eventAt file seq).previousHash ≠ prevHash ∨
        (eventAt file seq).validEvent sha256 = false) := by
      rintro (hNo | hNo | hNo)
      exacts [hNo hSequence, hNo hPrevious, absurd (hValid.symm.trans hNo) (by decide)]
    rw [verifyLoop, if_neg hAccepted]
    refine (ih hLinked hNumbered).trans ?_
    rw [show seq + 1 + n = seq + (n + 1) by omega]
    rfl

theorem linked_of_verifyLoop (h : (verifyLoop sha256 file n seq prevHash).ok = true) :
    format.Linked sha256 prevHash ((range' seq n).map (eventAt file)) ∧
      Numbered seq ((range' seq n).map (eventAt file)) := by
  induction n generalizing seq prevHash with
  | zero => exact ⟨trivial, trivial⟩
  | succ n ih =>
    rw [verifyLoop] at h
    split at h
    · cases h
    rename_i hAccepted
    simp only [not_or, not_not, Bool.not_eq_false] at hAccepted
    obtain ⟨hSequence, hPrevious, hValid⟩ := hAccepted
    obtain ⟨hLinked, hNumbered⟩ := ih h
    exact ⟨⟨hPrevious, of_decide_eq_true hValid, hLinked⟩, hSequence, hNumbered⟩

structure Intact (sha256 : List UInt8 → BitVec 256) (file : List UInt8) : Prop where
  whole : file.length % size = 0
  linked : format.Linked sha256 0 (records file)
  numbered : Numbered 0 (records file)

theorem records_eq (file : List UInt8) : records file = (range' 0 (file.length / size)).map (eventAt file) := by
  rw [records, range_eq_range']

theorem Intact.verifyLoop (h : Intact sha256 file) : verifyLoop sha256 file (file.length / size) 0 0 =
      ⟨true, (records file).length, some (format.root 0 (records file))⟩ := by
  have hLinked := h.linked
  have hNumbered := h.numbered
  rw [records_eq] at hLinked hNumbered
  rw [verifyLoop_of_linked hLinked hNumbered, ← records_eq, length_records, zero_add]

theorem Intact.verifies (h : Intact sha256 file) :
    verifyLogIntegrity sha256 file = ⟨true, (records file).length, some (format.root 0 (records file))⟩ := by
  rw [verifyLogIntegrity, if_neg (not_not.mpr h.whole), h.verifyLoop]

theorem intact_of_verifies (h : (verifyLogIntegrity sha256 file).ok = true) : Intact sha256 file := by
  rw [verifyLogIntegrity] at h
  split at h
  · cases h
  rename_i hWhole
  obtain ⟨hLinked, hNumbered⟩ := linked_of_verifyLoop h
  rw [← records_eq] at hLinked hNumbered
  exact ⟨not_not.mp hWhole, hLinked, hNumbered⟩

/-! ## Appending -/

theorem records_append (hWhole : file.length % size = 0) (e : AuditEvent) :
    records (file ++ e.bytes) = records file ++ [e] := by
  have hRead : AuditEvent.ofBytes e.bytes = e := by simpa using e.ofBytes_bytes []
  have hMap := map_chunk_append AuditEvent.ofBytes (by decide) hWhole e.length_bytes
  rw [hRead] at hMap
  exact hMap

theorem Intact.append (h : Intact sha256 file) {e : AuditEvent}
    (hSequence : e.sequence = .ofNat (records file).length) (hPrevious : e.previousHash = format.root 0 (records file))
    (hHash : sha256 e.hashInput = e.hash) : Intact sha256 (file ++ e.bytes) := by
  have hRecords := records_append h.whole e
  refine ⟨?_, ?_, ?_⟩
  · rw [length_append, length_bytes, Nat.add_mod_right]
    exact h.whole
  · rw [hRecords, Format.linked_concat]
    exact ⟨h.linked, hPrevious, hHash⟩
  · rw [hRecords, numbered_concat, zero_add]
    exact ⟨h.numbered, hSequence⟩

theorem writeAll_of_ok {writes : List WriteOutcome} {data : List UInt8}
    (h : (writeAll writes data).1 = true) : writeAll writes data = (true, data) := by
  rw [writeAll_eq] at h ⊢
  have hAll := of_decide_eq_true h
  rw [hAll, take_length, decide_eq_true rfl]

def pushed (sha256 : List UInt8 → BitVec 256) (entry : AuditEntry) (padding : UInt32) (l : DurableAuditLog) :
    DurableAuditLog :=
  { l with
    file := l.file ++ (nextEvent sha256 entry padding l).bytes, tail := (nextEvent sha256 entry padding l).hash,
    sequence := l.sequence + 1, pending := l.pending + 1 }

variable {entry : AuditEntry} {padding : UInt32} {io : AppendIo}

theorem append_eq {l : DurableAuditLog} (hWrites : WritesSucceed sha256 (.append entry padding io) l) :
    l.append sha256 entry padding io = (false, l) ∨ l.isOpen = true ∧ ∃ pending, l.append sha256 entry padding io =
        (true, { pushed sha256 entry padding l with pending := pending }) := by
  unfold append
  split
  · exact .inl rfl
  rename_i hArgs
  have hOpen : l.isOpen = true := by
    by_contra hClosed
    exact hArgs (.inl (by simpa using hClosed))
  refine .inr ⟨hOpen, ?_⟩
  simp only [writeAll_of_ok hWrites.1, hWrites.2, Bool.not_true, Bool.false_eq_true, if_false]
  split
  · exact ⟨_, rfl⟩
  · rw [flush, if_neg (by simp [hOpen])]
    exact ⟨_, rfl⟩

structure Follows (sha256 : List UInt8 → BitVec 256) (l : DurableAuditLog) (appends : Nat) : Prop where
  intact : Intact sha256 l.file
  count : (records l.file).length = appends
  sequence : l.isOpen = true → l.sequence = .ofNat (records l.file).length
  tail : l.isOpen = true → l.tail = format.root 0 (records l.file)

theorem follows_new : Follows sha256 {} 0 where
  intact := ⟨rfl, trivial, trivial⟩
  count := rfl
  sequence h := by cases h
  tail h := by cases h

namespace Follows

variable {l : DurableAuditLog} {appends : Nat} (h : Follows sha256 l appends)

include h

theorem openLog (syncInterval : UInt32) : Follows sha256 (l.openLog sha256 syncInterval).2 appends := by
  unfold DurableAuditLog.openLog
  split
  · exact h
  · simp only [h.intact.whole, h.intact.verifyLoop]
    exact ⟨h.intact, h.count, fun _ => rfl, fun _ => rfl⟩

theorem flush (synced : Bool) : Follows sha256 (l.flush synced).2 appends := by
  unfold DurableAuditLog.flush
  split
  · exact h
  · exact ⟨h.intact, h.count, h.sequence, h.tail⟩

theorem close (synced : Bool) : Follows sha256 (l.close synced) appends := by
  unfold DurableAuditLog.close
  split
  · exact h
  · have hFlush := h.flush synced
    exact ⟨hFlush.intact, hFlush.count, nofun, nofun⟩

theorem push (hOpen : l.isOpen = true) (entry : AuditEntry) (padding : UInt32) :
    Follows sha256 (pushed sha256 entry padding l) (appends + 1) := by
  have hRecords := records_append h.intact.whole (nextEvent sha256 entry padding l)
  refine ⟨h.intact.append (h.sequence hOpen) (h.tail hOpen) ?_, ?_, fun _ => ?_, fun _ => ?_⟩
  · rw [hashInput_eq, nextEvent, hashInput_eq]
    rfl
  · rw [pushed, hRecords, length_append, h.count, length_singleton]
  · rw [pushed, hRecords, length_append, UInt64.ofNat_add, ← h.sequence hOpen]
    rfl
  · rw [pushed, hRecords, Format.root_concat]
    rfl

theorem append (hWrites : WritesSucceed sha256 (.append entry padding io) l) :
    Follows sha256 (l.append sha256 entry padding io).2
      (countAppends (.append entry padding io) l (l.append sha256 entry padding io).1 appends) := by
  obtain hRefused | ⟨hOpen, pending, hPushed⟩ := append_eq hWrites
  · rw [hRefused]
    exact h
  · rw [hPushed]
    have hNext := h.push hOpen entry padding
    exact ⟨hNext.intact, hNext.count, hNext.sequence, hNext.tail⟩

theorem step {op : AuditOp} (hWrites : WritesSucceed sha256 op l) : Follows sha256 (DurableAuditLog.step sha256 op l).2
      (countAppends op l (DurableAuditLog.step sha256 op l).1 appends) := by
  cases op with
  | openLog syncInterval => exact h.openLog _
  | append entry padding io => exact h.append hWrites
  | flush synced => exact h.flush _
  | close synced => exact h.close _

end Follows

/-! ## The root hash -/

theorem Intact.unpadded_eq (h : Intact sha256 file) : (records file).map unpadded =
    ((records file).map hashInput).map fun input =>
      { ofHashInput input with hash := sha256 input } := by
  rw [map_map]
  refine map_congr_left fun e he => ?_
  have hHash : sha256 e.hashInput = e.hash := h.linked.hash_input e he
  rw [Function.comp_apply, ofHashInput_hashInput, hHash]
  rfl

/-- Along every run the file stays accepted, with one event for each append that succeeded; and two accepted files with
the same root hash and number of events agree on every field of every record, unless two of the byte strings hashed for
them collide. -/
theorem audit_sound (sha256 : List UInt8 → BitVec 256) : (∀ ops, Always (step sha256) (WritesSucceed sha256) ops {} →
      ∃ root, verifyLogIntegrity sha256 (final (step sha256) ops {}).file =
        ⟨true, history (step sha256) countAppends ops {} 0, some root⟩) ∧
    ∀ file file', (verifyLogIntegrity sha256 file).ok = true → (verifyLogIntegrity sha256 file').ok = true →
      (verifyLogIntegrity sha256 file).rootHash = (verifyLogIntegrity sha256 file').rootHash →
      (verifyLogIntegrity sha256 file).validEvents = (verifyLogIntegrity sha256 file').validEvents →
      Set.InjOn sha256 {input | ∃ e ∈ records file ++ records file', e.hashInput = input} →
      (records file).map AuditEvent.unpadded = (records file').map AuditEvent.unpadded := by
  constructor
  · intro ops hRun
    have hFollows := hRun.invariant_history _ (fun _ _ _ hWrites h => h.step hWrites) follows_new
    exact ⟨_, by rw [hFollows.intact.verifies, hFollows.count]⟩
  · intro file file' hOk hOk' hRoot hCount hInj
    have hIntact := intact_of_verifies hOk
    have hIntact' := intact_of_verifies hOk'
    rw [hIntact.verifies, hIntact'.verifies] at hRoot hCount
    have hInputs : (records file).map hashInput = (records file').map hashInput :=
      Format.inputs_eq_of_root hIntact.linked hIntact'.linked hCount (Option.some.inj hRoot) hInj
    rw [hIntact.unpadded_eq, hIntact'.unpadded_eq, hInputs]

def loggedOnce (padding : UInt32) : List AuditOp :=
  [.openLog 1, .append ⟨5, 9, 100, 10, 1, 0, 0⟩ padding ⟨[.wrote 112], true⟩]

theorem audit_sound_loggedOnce :
    let file padding := (final (step fun _ => 1) (loggedOnce padding) {}).file
    (∃ root, verifyLogIntegrity (fun _ => 1) (file 0) = ⟨true, 1, some root⟩) ∧ file 0 ≠ file 7 ∧
      (records (file 0)).map AuditEvent.unpadded = (records (file 7)).map AuditEvent.unpadded := by
  intro file
  obtain ⟨hRun, hSame⟩ := audit_sound fun _ => 1
  have hInputs : ∀ e ∈ records (file 0) ++ records (file 7), ∀ e' ∈ records (file 0) ++ records (file 7),
      e.hashInput = e'.hashInput := by decide +kernel
  obtain ⟨root, hAccepted⟩ := hRun (loggedOnce 0) ⟨trivial, ⟨by decide +kernel, rfl⟩, trivial⟩
  have hCount : history (step fun _ => 1) countAppends (loggedOnce 0) {} 0 = 1 := by decide +kernel
  rw [hCount] at hAccepted
  refine ⟨⟨root, hAccepted⟩, by decide +kernel,
    hSame _ _ (by decide +kernel) (by decide +kernel) (by decide +kernel) (by decide +kernel) ?_⟩
  rintro _ ⟨e, he, rfl⟩ _ ⟨e', he', rfl⟩ -
  exact hInputs e he e' he'

end DurableAuditLog

end LuvFlicker
