import LuvFlicker.Lib.Run

/-!
# The write-once log

Every step of the hash is a bijection in both of its arguments, so a record with one
changed field does not have the hash it carries, or not the one the next record names.
-/

namespace LuvFlicker.Worm

open Run List

structure WormAuditRecord where
  sequenceId : UInt64
  timestampNs : UInt64
  recordType : UInt32
  previousHash : UInt64
  currentHash : UInt64
  payloadSummary : List UInt8

def kMaxRecords : Nat := 512
def kOffsetBasis : UInt64 := 0xCBF29CE484222325
def kPrime : UInt64 := 0x100000001B3

def mix (hash value : UInt64) : UInt64 := (hash ^^^ value) * kPrime

def WormAuditRecord.hash (rec : WormAuditRecord) : UInt64 :=
  (rec.payloadSummary.takeWhile (· ≠ 0)).foldl (fun hash byte => mix hash byte.toUInt64)
    (mix (mix (mix rec.previousHash rec.sequenceId) rec.timestampNs) rec.recordType.toUInt64)

structure WormAuditLogValidator where
  records : List WormAuditRecord := []
  lastHash : UInt64 := kOffsetBasis

/-- What `strncpy` leaves in the 64 zero bytes of a record. -/
def payloadOf (summary : Option (List UInt8)) : List UInt8 :=
  let text := ((summary.getD []).takeWhile (· ≠ 0)).take 63
  text ++ replicate (64 - text.length) 0

structure Append where
  seq : UInt64
  timestampNs : UInt64
  recType : UInt32
  summary : Option (List UInt8)

def appendRecord (a : Append) (log : WormAuditLogValidator) : Bool × WormAuditLogValidator :=
  if log.records.length ≥ kMaxRecords then (false, log)
  else if log.records.getLast?.any fun last => a.seq ≤ last.sequenceId then (false, log)
  else
    let entry : WormAuditRecord := ⟨a.seq, a.timestampNs, a.recType, log.lastHash, 0, payloadOf a.summary⟩
    (true, ⟨log.records ++ [{ entry with currentHash := entry.hash }], entry.hash⟩)

def verifyFrom (expectedPrev : UInt64) : List WormAuditRecord → Bool
  | [] => true
  | rec :: rest => rec.previousHash = expectedPrev && rec.currentHash = rec.hash && verifyFrom rec.hash rest

def verifyChainIntegrity (records : List WormAuditRecord) : Bool := verifyFrom kOffsetBasis records

/-- A change of one field, or of one byte of the text, that is not the terminator and does not become one. -/
inductive Altered (rec : WormAuditRecord) : WormAuditRecord → Prop
  | sequenceId {x} (h : x ≠ rec.sequenceId) : Altered rec { rec with sequenceId := x }
  | timestampNs {x} (h : x ≠ rec.timestampNs) : Altered rec { rec with timestampNs := x }
  | recordType {x} (h : x ≠ rec.recordType) : Altered rec { rec with recordType := x }
  | previousHash {x} (h : x ≠ rec.previousHash) : Altered rec { rec with previousHash := x }
  | currentHash {x} (h : x ≠ rec.currentHash) : Altered rec { rec with currentHash := x }
  | payload {text rest old new} (hPayload : rec.payloadSummary = text ++ old :: rest) (hText : ∀ x ∈ text, x ≠ 0)
      (hOld : old ≠ 0) (hNew : new ≠ 0) (h : new ≠ old) : Altered rec { rec with payloadSummary := text ++ new :: rest }

/-! ## The hash -/

variable {a b : UInt64}

theorem mul_prime_inj (h : a * kPrime = b * kPrime) : a = b := by
  have hOne : kPrime * 0xCE965057AFF6957B = 1 := by decide
  have hMul := congrArg (· * 0xCE965057AFF6957B) h
  simpa only [UInt64.mul_assoc, hOne, UInt64.mul_one] using hMul

theorem mix_left {a b x : UInt64} (h : mix a x = mix b x) : a = b := (UInt64.xor_left_inj x).mp (mul_prime_inj h)

theorem mix_right {a x y : UInt64} (h : mix a x = mix a y) : x = y := (UInt64.xor_right_inj a).mp (mul_prime_inj h)

theorem foldl_mix_inj {bytes : List UInt8} (h : bytes.foldl (fun hash byte => mix hash byte.toUInt64) a =
      bytes.foldl (fun hash byte => mix hash byte.toUInt64) b) : a = b := by
  induction bytes generalizing a b with
  | nil => exact h
  | cons byte bytes ih => exact mix_left (ih h)

theorem Altered.detected {rec altered : WormAuditRecord} (h : Altered rec altered) (hHash : rec.currentHash = rec.hash)
    (hPrevious : altered.previousHash = rec.previousHash) : altered.currentHash ≠ altered.hash := by
  intro hSame
  cases h with
  | sequenceId h => exact h (mix_right (mix_left (mix_left (foldl_mix_inj (hSame.symm.trans hHash)))))
  | timestampNs h => exact h (mix_right (mix_left (foldl_mix_inj (hSame.symm.trans hHash))))
  | recordType h => exact h (UInt32.toUInt64_inj.mp (mix_right (foldl_mix_inj (hSame.symm.trans hHash))))
  | previousHash h => exact h hPrevious
  | currentHash h => exact h (hSame.trans hHash.symm)
  | @payload text rest old new hPayload hText hOld hNew h =>
    have hEq := hSame.symm.trans hHash
    have hTake : ∀ x : UInt8, x ≠ 0 → (text ++ x :: rest).takeWhile (· ≠ 0) = text ++ x :: rest.takeWhile (· ≠ 0) := by
      intro x hx
      rw [takeWhile_append_of_pos fun x hx => decide_eq_true (hText x hx)]
      simp [hx]
    rw [WormAuditRecord.hash, WormAuditRecord.hash, hPayload, hTake new hNew, hTake old hOld, foldl_append,
      foldl_append] at hEq
    exact h (UInt8.toUInt64_inj.mp (mix_right (foldl_mix_inj hEq)))

/-! ## Chains -/

theorem verifyFrom_append (start : UInt64) (xs ys : List WormAuditRecord) : verifyFrom start (xs ++ ys) =
    (verifyFrom start xs && verifyFrom (xs.foldl (fun _ rec => rec.hash) start) ys) := by
  induction xs generalizing start with
  | nil => rfl
  | cons x xs ih => simp [verifyFrom, ih, Bool.and_assoc]

structure Chained (log : WormAuditLogValidator) : Prop where
  verified : verifyChainIntegrity log.records = true
  last : log.records.foldl (fun _ rec => rec.hash) kOffsetBasis = log.lastHash

theorem Chained.append {log : WormAuditLogValidator} (h : Chained log) (a : Append) :
    Chained (appendRecord a log).2 := by
  rw [appendRecord]
  split_ifs
  · exact h
  · exact h
  · constructor
    · rw [verifyChainIntegrity, verifyFrom_append, h.last, Bool.and_eq_true]
      refine ⟨h.verified, ?_⟩
      simp [verifyFrom, WormAuditRecord.hash]
    · rw [foldl_append]
      rfl

/-- Every log of successful appends verifies, and no log in which a record was altered does. -/
theorem alterations_detected (calls : List Append) : let log := final appendRecord calls {}
    verifyChainIntegrity log.records = true ∧
      ∀ before rec altered after, log.records = before ++ rec :: after → Altered rec altered →
        verifyChainIntegrity (before ++ altered :: after) = false := by
  have hChained : Chained (final appendRecord calls {}) := final_invariant (fun a _ h => h.append a) _ ⟨rfl, rfl⟩
  refine ⟨hChained.verified, fun before rec altered after hRecords hAltered => ?_⟩
  have hVerified := hChained.verified
  rw [hRecords] at hVerified
  rw [verifyChainIntegrity, verifyFrom_append, verifyFrom] at hVerified ⊢
  simp only [Bool.and_eq_true, decide_eq_true_eq] at hVerified
  obtain ⟨-, ⟨hPrevious, hHash⟩, -⟩ := hVerified
  rw [← hPrevious]
  by_contra hTrue
  simp only [Bool.not_eq_false, Bool.and_eq_true, decide_eq_true_eq] at hTrue
  exact hAltered.detected hHash hTrue.2.1.1 hTrue.2.1.2

end LuvFlicker.Worm
