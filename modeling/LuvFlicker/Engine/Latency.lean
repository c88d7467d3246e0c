import LuvFlicker.Lib.Run

/-!
# Latency percentiles

The ranks 50 and 99 are read as percent. So is 999, as the denominator becomes 1000 at rank 1000
only, and the rank is cut down to the number of latencies.
-/

namespace LuvFlicker.Telemetry

open Run List

structure Collector where
  latencies : List UInt64 := []
  droppedLatencies : UInt32 := 0

def recordLatency (maxLatencies : Nat) (latencyNs : UInt64) (c : Collector) : Unit × Collector :=
  if c.latencies.length < maxLatencies then ((), { c with latencies := c.latencies ++ [latencyNs] })
  else ((), { c with droppedLatencies := c.droppedLatencies + 1 })

variable (latencies : List UInt64)

def sorted : List UInt64 := latencies.mergeSort (· ≤ ·)

/-- `none` is a read behind the latencies. -/
def percentile (sorted : List UInt64) (rank : Nat) : Option UInt64 :=
  if sorted.length = 0 then some 0
  else
    let denominator := if rank ≥ 1000 then 1000 else 100
    let index := (sorted.length * rank + denominator - 1) / denominator
    sorted[if index = 0 then 0 else min (index - 1) (sorted.length - 1)]?

def flushed (c : Collector) : List (Option UInt64) := [50, 99, 999].map (percentile (sorted c.latencies))

def kthSmallest (k : Nat) : Option UInt64 := (sorted latencies)[k - 1]?

/-- The nearest ranks of 50 %, 99 % and 99.9 %. -/
def nearestRanks : List (Option UInt64) :=
  [(50, 100), (99, 100), (999, 1000)].map fun (num, den) =>
    kthSmallest latencies ((latencies.length * num + den - 1) / den)

theorem latencies_final (maxLatencies : Nat) (ls : List UInt64) (c : Collector) (h : c.latencies.length ≤ maxLatencies) :
    (final (recordLatency maxLatencies) ls c).latencies = (c.latencies ++ ls).take maxLatencies := by
  induction ls generalizing c with
  | nil => simp [take_of_length_le h]
  | cons l ls ih =>
    rw [final_cons, recordLatency]
    split_ifs with hRoom
    · rw [ih _ (by simpa using hRoom), append_assoc, singleton_append]
    · have hFull := not_lt.mp hRoom
      rw [ih _ (by exact h), take_append_of_le_length (by exact hFull), take_append_of_le_length hFull]

theorem percentile_eq {s : List UInt64} (h : 0 < s.length) {rank : Nat} (hRank : 0 < rank) (hLow : rank ≤ 100) :
    percentile s rank = s[(s.length * rank + 100 - 1) / 100 - 1]? := by
  have hPos := Nat.mul_pos h hRank
  have hLe := Nat.mul_le_mul_left s.length hLow
  rw [percentile, if_neg h.ne', if_neg (by omega)]
  dsimp only
  rw [if_neg (by omega), Nat.min_eq_left (by omega)]

theorem percentile_last {s : List UInt64} (h : 0 < s.length) : percentile s 999 = s[s.length - 1]? := by
  rw [percentile, if_neg h.ne', if_neg (by omega)]
  dsimp only
  rw [if_neg (by omega), Nat.min_eq_right (by omega)]

/-- The percentiles are the nearest ranks, and are read within the latencies, just when there are less than 1000 of
them or the largest is as large as that of rank 99.9 %. -/
theorem percentiles_iff (maxLatencies : Nat) (ls : List UInt64) {kept : List UInt64}
    (hKept : (final (recordLatency maxLatencies) ls {}).latencies = kept) (hn : 1 ≤ kept.length) :
    flushed (final (recordLatency maxLatencies) ls {}) = nearestRanks kept ∧ none ∉ nearestRanks kept ↔
      kept.length < 1000 ∨ kthSmallest kept kept.length = kthSmallest kept ((kept.length * 999 + 999) / 1000) := by
  have hLength : (sorted kept).length = kept.length := length_mergeSort kept
  have hRead (k) (hk : k ≤ kept.length) : kthSmallest kept k ≠ none := by
    rw [kthSmallest, Ne, getElem?_eq_none_iff]
    omega
  have hSome : none ∉ nearestRanks kept := by
    simp only [nearestRanks, map_cons, map_nil, mem_cons, not_mem_nil, or_false, not_or]
    exact ⟨(hRead _ (by omega)).symm, (hRead _ (by omega)).symm, (hRead _ (by omega)).symm⟩
  have hRanks : flushed (final (recordLatency maxLatencies) ls {}) = nearestRanks kept ↔
      kthSmallest kept kept.length = kthSmallest kept ((kept.length * 999 + 999) / 1000) := by
    have hPos : 0 < (sorted kept).length := by omega
    simp [flushed, hKept, nearestRanks, kthSmallest, percentile_eq hPos, percentile_last hPos, hLength]
  rw [hRanks, and_iff_left hSome]
  constructor
  · exact .inr
  rintro (hFew | hEq)
  · rw [show (kept.length * 999 + 999) / 1000 = kept.length by omega]
  · exact hEq

theorem percentiles_iff_two : flushed (final (recordLatency 10) [5, 3] {}) = nearestRanks [5, 3] :=
  ((percentiles_iff 10 _ rfl (by decide)).mpr (.inl (by decide))).1

/-- Of 999 latencies of 0 ns and one of 1 ns, 99.9 % are 0 ns, and 1 ns is reported. -/
theorem tail_is_maximum : flushed (final (recordLatency 10000) (replicate 999 0 ++ [1]) {}) ≠
    nearestRanks (replicate 999 0 ++ [1]) := by
  have hSorted : sorted (replicate 999 0 ++ [1]) = replicate 999 0 ++ [1] := by
    refine mergeSort_of_pairwise ?_
    simp [pairwise_append, -reduceReplicate]
  rw [flushed, latencies_final _ _ _ (by decide), take_of_length_le (by simp [-reduceReplicate])]
  simp [nearestRanks, kthSmallest, hSorted, percentile, -reduceReplicate]

end LuvFlicker.Telemetry
