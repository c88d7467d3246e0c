import LuvFlicker.Safety.AuditChain

/-!
# The audit manifest

A checkpoint names a range of the audit log with the hashes at its ends, and
carries a hash of its own. Checkpoints are appended to a manifest; the verifier
reads the first of them and follows the range in the log.
-/

namespace LuvFlicker

open Bytes Run List

structure AuditManifestCheckpoint where
  magic : UInt32 := 0x4D4E4653
  version : UInt32 := 1
  startSequence : UInt64 := 0
  endSequence : UInt64 := 0
  startTimestampNs : UInt64 := 0
  endTimestampNs : UInt64 := 0
  eventCount : UInt64 := 0
  startHash : BitVec 256 := 0
  endHash : BitVec 256 := 0
  manifestHash : BitVec 256 := 0
  deriving DecidableEq, Repr

namespace AuditManifestCheckpoint

def recordSize : Nat := 144

section

variable (c : AuditManifestCheckpoint)

def hashInput : List UInt8 :=
  toBytes 4 c.magic.toNat ++ (toBytes 4 c.version.toNat ++ (toBytes 8 c.startSequence.toNat ++
    (toBytes 8 c.endSequence.toNat ++ (toBytes 8 c.startTimestampNs.toNat ++ (toBytes 8 c.endTimestampNs.toNat ++
      (toBytes 8 c.eventCount.toNat ++ (toBytes 32 c.startHash.toNat ++ toBytes 32 c.endHash.toNat)))))))

def bytes : List UInt8 := c.hashInput ++ toBytes 32 c.manifestHash.toNat

def ofBytes (b : List UInt8) : AuditManifestCheckpoint where
  magic := .ofNat (field b 0 4)
  version := .ofNat (field b 4 4)
  startSequence := .ofNat (field b 8 8)
  endSequence := .ofNat (field b 16 8)
  startTimestampNs := .ofNat (field b 24 8)
  endTimestampNs := .ofNat (field b 32 8)
  eventCount := .ofNat (field b 40 8)
  startHash := .ofNat 256 (field b 48 32)
  endHash := .ofNat 256 (field b 80 32)
  manifestHash := .ofNat 256 (field b 112 32)

@[simp]
theorem length_bytes : c.bytes.length = recordSize := by
  simp [bytes, hashInput, recordSize]

theorem ofBytes_bytes : ofBytes c.bytes = c := by
  have hRead := append_nil c.bytes
  rw [← hRead]
  simp (disch := simp) only [ofBytes, bytes, hashInput, append_assoc, field_skip, field_toBytes, length_toBytes,
    Nat.reduceSub, ofNat_uint32, ofNat_uint64, ofNat_bitVec _]

end

def HashCorrect (sha256 : List UInt8 → BitVec 256) (c : AuditManifestCheckpoint) : Prop :=
  sha256 c.hashInput = c.manifestHash

instance (sha256 : List UInt8 → BitVec 256) (c : AuditManifestCheckpoint) : Decidable (c.HashCorrect sha256) :=
  inferInstanceAs (Decidable (_ = _))

end AuditManifestCheckpoint

structure ManifestIo where
  synced : Bool := true
  opens : Bool := true
  write : WriteOutcome
  deriving DecidableEq, Repr

namespace DurableAuditLog

open AuditEvent (size format Numbered)
open AuditManifestCheckpoint (recordSize)

def pread (file : List UInt8) (offset : UInt64) : Option AuditEvent :=
  if offset.toInt64 < 0 ∨ file.length < offset.toNat + size then none
  else some (AuditEvent.ofBytes ((file.drop offset.toNat).take size))

section Definitions

variable (sha256 : List UInt8 → BitVec 256)

def checkpoint (startSeq endSeq : UInt64) (first last : AuditEvent) : AuditManifestCheckpoint :=
  let c : AuditManifestCheckpoint :=
    { startSequence := startSeq, endSequence := endSeq, startTimestampNs := first.timestampNs,
      endTimestampNs := last.timestampNs, eventCount := endSeq - startSeq + 1, startHash := first.previousHash,
      endHash := last.hash }
  { c with manifestHash := sha256 c.hashInput }

def writeManifestCheckpoint (startSeq endSeq : UInt64) (io : ManifestIo) (manifest : Option (List UInt8))
    (l : DurableAuditLog) : Bool × Option (List UInt8) × DurableAuditLog :=
  if !l.isOpen ∨ startSeq > endSeq ∨ endSeq ≥ l.sequence then (false, manifest, l)
  else
    let l := (l.flush io.synced).2
    match pread l.file (startSeq * .ofNat size), pread l.file (endSeq * .ofNat size) with
    | some first, some last =>
      if !io.opens then (false, manifest, l)
      else
        let c := checkpoint sha256 startSeq endSeq first last
        match io.write with
        | .wrote count =>
          (decide ((c.bytes.take count).length = recordSize), some (manifest.getD [] ++ c.bytes.take count), l)
        | _ => (false, some (manifest.getD []), l)
    | _, _ => (false, manifest, l)

/-- The loop of `verify_manifest` over the events of a range, from a position of the file on; the last hash. -/
def rangeLoop (file : List UInt8) (c : AuditManifestCheckpoint) : Nat → UInt64 → Nat → BitVec 256 → Option (BitVec 256)
  | 0, _, _, prevHash => some prevHash
  | n + 1, seq, position, prevHash =>
    let ev := AuditEvent.ofBytes ((file.drop position).take size)
    if file.length < position + size then none
    else if ev.previousHash ≠ (if seq = c.startSequence then c.startHash else prevHash) ∨ ev.validEvent sha256 = false
    then none
    else rangeLoop file c n (seq + 1) (position + size) ev.hash

def verifyRange (file : List UInt8) (c : AuditManifestCheckpoint) : Bool :=
  if c.endSequence ≥ .ofNat (file.length / size) then false
  else if (c.startSequence * .ofNat size).toInt64 < 0 then false
  else
    match rangeLoop sha256 file c (c.endSequence.toNat + 1 - c.startSequence.toNat) c.startSequence
      (c.startSequence * .ofNat size).toNat 0 with
    | none => false
    | some prevHash => prevHash = c.endHash

def verifyManifest (log manifest : Option (List UInt8)) : Bool :=
  match manifest with
  | none => false
  | some bytes =>
    if bytes.length < recordSize then false
    else
      let c := AuditManifestCheckpoint.ofBytes (bytes.take recordSize)
      if c.magic ≠ 0x4D4E4653 ∨ c.version ≠ 1 then false
      else if ¬ c.HashCorrect sha256 then false
      else
        match log with
        | none => false
        | some file => verifyRange sha256 file c

end Definitions

/-! ## What the verifier is for -/

def checkpoints (manifest : Option (List UInt8)) : List AuditManifestCheckpoint :=
  (List.range ((manifest.getD []).length / recordSize)).map fun index =>
    AuditManifestCheckpoint.ofBytes (((manifest.getD []).drop (recordSize * index)).take recordSize)

def eventsFrom (file : List UInt8) (start n : Nat) : List AuditEvent := (List.range' start n).map (eventAt file)

def rangeEvents (file : List UInt8) (c : AuditManifestCheckpoint) : List AuditEvent :=
  eventsFrom file c.startSequence.toNat (c.endSequence.toNat + 1 - c.startSequence.toNat)

section

variable (sha256 : List UInt8 → BitVec 256)

/-- The places of the range are in the log, and are a hash chain between the hashes of the checkpoint. -/
structure Chained (file : List UInt8) (c : AuditManifestCheckpoint) : Prop where
  within : c.endSequence.toNat < file.length / size
  linked : format.Linked sha256 c.startHash (rangeEvents file c)
  root_eq : format.root c.startHash (rangeEvents file c) = c.endHash

/-- The range is in the log: its places are such a chain, and carry its sequence numbers. -/
structure Present (file : List UInt8) (c : AuditManifestCheckpoint) : Prop extends Chained sha256 file c where
  numbered : Numbered c.startSequence.toNat (rangeEvents file c)

structure CheckpointCall where
  log : DurableAuditLog
  startSeq : UInt64
  endSeq : UInt64
  io : ManifestIo

def checkpointStep (call : CheckpointCall) (manifest : Option (List UInt8)) : Bool × Option (List UInt8) :=
  let result := call.log.writeManifestCheckpoint sha256 call.startSeq call.endSeq call.io manifest
  (result.1, result.2.1)

end

/-! ## The verifier -/

variable {sha256 : List UInt8 → BitVec 256} {file : List UInt8} {c : AuditManifestCheckpoint}

variable {prevHash last : BitVec 256} {manifest : Option (List UInt8)} {seq : UInt64} {n i : Nat}

theorem rangeLoop_succ_iff (hLog : i < file.length / size) :
    rangeLoop sha256 file c (n + 1) seq (size * i) prevHash = some last ↔
      (eventAt file i).previousHash = (if seq = c.startSequence then c.startHash else prevHash) ∧
      sha256 (eventAt file i).hashInput = (eventAt file i).hash ∧
      rangeLoop sha256 file c n (seq + 1) (size * (i + 1)) (eventAt file i).hash = some last := by
  have hRoom : ¬ file.length < size * i + size := by
    have hMul := (Nat.mul_le_mul_left size (Nat.succ_le_of_lt hLog)).trans (Nat.mul_div_le _ size)
    exact not_lt.mpr hMul
  have hValid : (eventAt file i).validEvent sha256 = false ↔
      ¬ sha256 (eventAt file i).hashInput = (eventAt file i).hash := decide_eq_false_iff_not
  change (if _ then none else if (eventAt file i).previousHash ≠ _ ∨ (eventAt file i).validEvent sha256 = false then none
    else _) = some last ↔ _
  rw [if_neg hRoom]
  generalize (if seq = c.startSequence then c.startHash else prevHash) = expected
  constructor
  · intro h
    split at h
    · cases h
    next hAccepted =>
      obtain ⟨hPrevious, hHash⟩ := not_or.mp hAccepted
      exact ⟨not_not.mp hPrevious, not_not.mp (mt hValid.mpr hHash), h⟩
  · rintro ⟨hPrevious, hHash, hRest⟩
    rw [if_neg (not_or.mpr ⟨not_not.mpr hPrevious, mt hValid.mp (not_not.mpr hHash)⟩)]
    exact hRest

theorem ofNat_succ (i : Nat) : UInt64.ofNat i + 1 = UInt64.ofNat (i + 1) := (UInt64.ofNat_add i 1).symm

theorem toNat_offset (h : size * seq.toNat < 2 ^ 63) :
    (seq * .ofNat size).toNat = size * seq.toNat ∧ ¬ (seq * .ofNat size).toInt64 < 0 := by
  have hNat : (seq * .ofNat size).toNat = size * seq.toNat := by
    rw [UInt64.toNat_mul, UInt64.toNat_ofNat_of_lt' (by decide), mul_comm, Nat.mod_eq_of_lt (by omega)]
  refine ⟨hNat, ?_⟩
  have hInt : (seq * .ofNat size).toInt64.toInt = (size * seq.toNat : Nat) := by
    change (seq * .ofNat size).toBitVec.toInt = _
    rw [BitVec.toInt_eq_toNat_of_lt, ← hNat]
    · rfl
    · change 2 * (seq * .ofNat size).toNat < _
      omega
  rw [Int64.lt_iff_toInt_lt, hInt]
  exact not_lt.mpr (Int.natCast_nonneg _)

section

variable (hFile : file.length < 2 ^ 63)
include hFile

theorem rangeLoop_iff (hLog : i + n ≤ file.length / size) (hAfter : c.startSequence.toNat < i) :
    rangeLoop sha256 file c n (.ofNat i) (size * i) prevHash = some last ↔
      format.Linked sha256 prevHash (eventsFrom file i n) ∧ format.root prevHash (eventsFrom file i n) = last := by
  induction n generalizing i prevHash with
  | zero => exact ⟨fun h => ⟨trivial, Option.some.inj h⟩, fun h => congrArg some h.2⟩
  | succ n ih =>
    have hPlace : i < file.length / size := by omega
    have hOther : UInt64.ofNat i ≠ c.startSequence := by
      intro hSame
      have hSmall : i < 2 ^ 64 := (hPlace.trans_le (Nat.div_le_self ..)).trans (hFile.trans (by decide))
      have hNat := congrArg UInt64.toNat hSame
      rw [UInt64.toNat_ofNat_of_lt' hSmall] at hNat
      omega
    rw [rangeLoop_succ_iff hPlace, if_neg hOther, ofNat_succ, ih (by omega) (by omega)]
    exact (and_assoc.trans (and_congr_right' and_assoc)).symm

theorem verifyRange_iff (hOrder : c.startSequence ≤ c.endSequence) :
    verifyRange sha256 file c = true ↔ Chained sha256 file c := by
  have hTotal : (UInt64.ofNat (file.length / size)).toNat = file.length / size :=
    UInt64.toNat_ofNat_of_lt' (((Nat.div_le_self ..).trans_lt hFile).trans (by decide))
  have hStart := UInt64.le_iff_toNat_le.mp hOrder
  rw [verifyRange]
  by_cases hWithin : c.endSequence.toNat < file.length / size
  · have hOffset : size * c.startSequence.toNat < 2 ^ 63 := by
      have hMul := (Nat.mul_le_mul_left size (hStart.trans hWithin.le)).trans (Nat.mul_div_le file.length size)
      omega
    obtain ⟨hNat, hPositive⟩ := toNat_offset hOffset
    have hCount : c.endSequence.toNat + 1 - c.startSequence.toNat = c.endSequence.toNat - c.startSequence.toNat + 1 := by
      omega
    have hLoop (last : BitVec 256) : rangeLoop sha256 file c (c.endSequence.toNat + 1 - c.startSequence.toNat)
        c.startSequence (c.startSequence * .ofNat size).toNat 0 = some last ↔
        format.Linked sha256 c.startHash (rangeEvents file c) ∧
          format.root c.startHash (rangeEvents file c) = last := by
      have hSeq : c.startSequence + 1 = .ofNat (c.startSequence.toNat + 1) := by rw [← ofNat_succ, UInt64.ofNat_toNat]
      rw [rangeEvents, hCount, hNat, rangeLoop_succ_iff (by omega), if_pos rfl, hSeq,
        rangeLoop_iff hFile (by omega) (Nat.lt_succ_self _)]
      exact (and_assoc.trans (and_congr_right' and_assoc)).symm
    rw [if_neg (by rw [ge_iff_le, UInt64.le_iff_toNat_le]; omega), if_neg hPositive]
    constructor
    · intro h
      split at h
      · cases h
      next last hLast =>
        obtain ⟨hLinked, hRoot⟩ := (hLoop last).mp hLast
        exact ⟨hWithin, hLinked, hRoot.trans (of_decide_eq_true h)⟩
    · intro h
      rw [(hLoop _).mpr ⟨h.linked, h.root_eq⟩]
      exact decide_eq_true rfl
  · rw [if_pos (by rw [ge_iff_le, UInt64.le_iff_toNat_le]; omega)]
    exact ⟨nofun, fun h => absurd h.within hWithin⟩

end

/-! ## The manifest -/

structure Written (sha256 : List UInt8 → BitVec 256) (c : AuditManifestCheckpoint) : Prop where
  magic : c.magic = 0x4D4E4653
  version : c.version = 1
  hash : c.HashCorrect sha256
  order : c.startSequence ≤ c.endSequence

structure WellFormed (sha256 : List UInt8 → BitVec 256) (manifest : Option (List UInt8)) : Prop where
  whole : (manifest.getD []).length % recordSize = 0
  written : ∀ c ∈ checkpoints manifest, Written sha256 c

theorem checkpoints_append (h : (manifest.getD []).length % recordSize = 0) (c : AuditManifestCheckpoint) :
    checkpoints (some (manifest.getD [] ++ c.bytes)) = checkpoints manifest ++ [c] := by
  have hMap := map_chunk_append AuditManifestCheckpoint.ofBytes (by decide) h c.length_bytes
  rw [c.ofBytes_bytes] at hMap
  exact hMap

variable {call : CheckpointCall}

theorem checkpointStep_of_ok (h : (checkpointStep sha256 call manifest).1 = true) :
    ∃ c, Written sha256 c ∧ (checkpointStep sha256 call manifest).2 = some (manifest.getD [] ++ c.bytes) := by
  revert h
  rw [checkpointStep, writeManifestCheckpoint]
  split
  · nofun
  rename_i hArgs
  have hOrder := UInt64.not_lt.mp (not_or.mp (not_or.mp hArgs).2).1
  dsimp only
  split
  next first last _ _ =>
    split
    · nofun
    split
    next count _ =>
      intro hLength
      refine ⟨checkpoint sha256 _ _ first last, ⟨rfl, rfl, rfl, hOrder⟩, ?_⟩
      have hTake := of_decide_eq_true hLength
      rw [length_take] at hTake
      rw [take_of_length_le (by rw [AuditManifestCheckpoint.length_bytes]; omega)]
    · nofun
  · nofun

theorem WellFormed.step (hForm : WellFormed sha256 manifest) (h : (checkpointStep sha256 call manifest).1 = true) :
    WellFormed sha256 (checkpointStep sha256 call manifest).2 := by
  obtain ⟨c, hWritten, hNext⟩ := checkpointStep_of_ok h
  rw [hNext]
  constructor
  · rw [Option.getD_some, length_append, c.length_bytes, Nat.add_mod_right]
    exact hForm.whole
  intro c' hMem
  rw [checkpoints_append hForm.whole] at hMem
  rcases mem_append.mp hMem with hOld | hNew
  · exact hForm.written c' hOld
  · rw [mem_singleton.mp hNew]
    exact hWritten

theorem verifyManifest_nil {log : Option (List UInt8)}
    (h : checkpoints manifest = []) : verifyManifest sha256 log manifest = false := by
  cases manifest with
  | none => rfl
  | some bytes =>
    rw [checkpoints, map_eq_nil_iff, range_eq_nil, Nat.div_eq_zero_iff] at h
    exact if_pos (h.resolve_left (by decide))

theorem verifyManifest_cons {rest : List AuditManifestCheckpoint}
    (hFile : file.length < 2 ^ 63) (hWritten : Written sha256 c) (h : checkpoints manifest = c :: rest) :
    verifyManifest sha256 (some file) manifest = true ↔ Chained sha256 file c := by
  cases manifest with
  | none => cases h
  | some bytes =>
    rw [checkpoints, Option.getD_some] at h
    have hSome : bytes.length / recordSize ≠ 0 := by
      intro hZero
      rw [hZero] at h
      cases h
    obtain ⟨n, hn⟩ := Nat.exists_eq_succ_of_ne_zero hSome
    rw [hn, range_succ_eq_map, map_cons, cons.injEq, mul_zero, drop_zero] at h
    have hRoom : ¬ bytes.length < recordSize := fun hShort => hSome (Nat.div_eq_of_lt hShort)
    rw [verifyManifest]
    rw [if_neg hRoom, h.1, if_neg (not_or.mpr ⟨not_not.mpr hWritten.magic, not_not.mpr hWritten.version⟩),
      if_neg (not_not.mpr hWritten.hash)]
    exact verifyRange_iff hFile hWritten.order

/-- There is a first checkpoint, and a log that holds its range as a chain carries its sequence numbers there and holds
the ranges of the others. -/
def FirstDecides (sha256 : List UInt8 → BitVec 256) (file : List UInt8) : List AuditManifestCheckpoint → Prop
  | [] => False
  | c :: rest => Chained sha256 file c →
    Numbered c.startSequence.toNat (rangeEvents file c) ∧ ∀ c' ∈ rest, Present sha256 file c'

/-- **Manifest verification.** The manifest of any number of successful calls is accepted exactly when each of its
checkpoints has a correct hash and its range is in the log, if and only if the first checkpoint decides for the others:
it is the only one that is read. -/
theorem verifyManifest_iff_present (sha256 : List UInt8 → BitVec 256) (calls : List CheckpointCall)
    (hCalls : Always (checkpointStep sha256) (fun call manifest => (checkpointStep sha256 call manifest).1 = true)
      calls none)
    (file : List UInt8) (hFile : file.length < 2 ^ 63) :
    (verifyManifest sha256 (some file) (final (checkpointStep sha256) calls none) = true ↔
        ∀ c ∈ checkpoints (final (checkpointStep sha256) calls none), c.HashCorrect sha256 ∧ Present sha256 file c) ↔
      FirstDecides sha256 file (checkpoints (final (checkpointStep sha256) calls none)) := by
  have hForm := hCalls.invariant (WellFormed _) (fun _ _ hOk hForm => hForm.step hOk) ⟨rfl, nofun⟩
  generalize final (checkpointStep sha256) calls none = manifest at hForm
  cases hRecords : checkpoints manifest with
  | nil =>
    rw [verifyManifest_nil hRecords]
    exact iff_of_false (fun h => absurd (h.mpr nofun) Bool.false_ne_true) id
  | cons c rest =>
    have hWritten := hForm.written
    rw [hRecords] at hWritten
    rw [verifyManifest_cons hFile (hWritten c List.mem_cons_self) hRecords]
    constructor
    · intro h hFirst
      have hAll := h.mp hFirst
      exact ⟨(hAll c List.mem_cons_self).2.numbered, fun c' hMem => (hAll c' (List.mem_cons_of_mem _ hMem)).2⟩
    intro h
    constructor
    · intro hFirst c' hMem
      refine ⟨(hWritten c' hMem).hash, ?_⟩
      obtain ⟨hNumbered, hRest⟩ := h hFirst
      rcases List.mem_cons.mp hMem with rfl | hLater
      · exact ⟨hFirst, hNumbered⟩
      · exact hRest c' hLater
    · exact fun hAll => (hAll c List.mem_cons_self).2.toChained

def byteSum (input : List UInt8) : BitVec 256 := .ofNat 256 (input.map UInt8.toNat).sum

def twoEvents : DurableAuditLog := final (step byteSum)
    [.openLog 1, .append ⟨10, 1, 100, 5, 0, 0, 0⟩ 0 ⟨[.wrote size], true⟩,
      .append ⟨20, 2, 101, 7, 0, 1, 0⟩ 0 ⟨[.wrote size], true⟩] {}

instance decidableNumbered : ∀ seq events, Decidable (Numbered seq events)
  | _, [] => isTrue trivial
  | seq, e :: rest =>
    have := decidableNumbered (seq + 1) rest
    inferInstanceAs (Decidable (e.sequence = .ofNat seq ∧ Numbered (seq + 1) rest))

def oneCheckpoint : List CheckpointCall := [⟨twoEvents, 0, 1, { write := .wrote recordSize }⟩]

def twoCheckpoints : List CheckpointCall :=
  [⟨twoEvents, 0, 0, { write := .wrote recordSize }⟩, ⟨twoEvents, 1, 1, { write := .wrote recordSize }⟩]

theorem oneCheckpoint_verifies :
    verifyManifest byteSum (some twoEvents.file) (final (checkpointStep byteSum) oneCheckpoint none) = true ↔
      ∀ c ∈ checkpoints (final (checkpointStep byteSum) oneCheckpoint none),
        c.HashCorrect byteSum ∧ Present byteSum twoEvents.file c := by
  refine (verifyManifest_iff_present byteSum oneCheckpoint ⟨by decide +kernel, trivial⟩ twoEvents.file
    (by decide +kernel)).mpr ?_
  have hRecords : checkpoints (final (checkpointStep byteSum) oneCheckpoint none) =
      [checkpoint byteSum 0 1 (eventAt twoEvents.file 0) (eventAt twoEvents.file 1)] := by decide +kernel
  rw [hRecords]
  exact fun _ => ⟨by decide +kernel, nofun⟩

/-- The log lost its second event, but only the first checkpoint is read. -/
theorem lostEvent_verifies : (run (checkpointStep byteSum) twoCheckpoints none).1 = [true, true] ∧
      verifyManifest byteSum (some (twoEvents.file.take size)) (final (checkpointStep byteSum) twoCheckpoints none) =
        true ∧
      ¬ ∀ c ∈ checkpoints (final (checkpointStep byteSum) twoCheckpoints none),
        c.HashCorrect byteSum ∧ Present byteSum (twoEvents.file.take size) c := by
  refine ⟨by decide +kernel, by decide +kernel, fun h => ?_⟩
  have hWithin : ∀ c ∈ checkpoints (final (checkpointStep byteSum) twoCheckpoints none),
      c.endSequence.toNat < (twoEvents.file.take size).length / size := fun c hc => (h c hc).2.within
  revert hWithin
  decide +kernel

end DurableAuditLog

end LuvFlicker
