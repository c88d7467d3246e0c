import Mathlib.Data.Nat.Bitwise
import Mathlib.Tactic

/-!
# A reference count under a closed bit

One 32-bit word holds the number of references taken and, in its top bit, whether
the gate is closed.
-/

namespace LuvFlicker.Gate

def closedBit : UInt32 := 0x80000000

def refMask : UInt32 := 0x7FFFFFFF

def close (word : UInt32) : UInt32 := word ||| closedBit

def refs (word : UInt32) : UInt32 := word &&& refMask

def isClosed (word : UInt32) : Bool := word &&& closedBit ≠ 0

inductive Attempt where
  | refused
  | acquired (word : UInt32)
  | retry (observed : UInt32)

def attempt (word observed : UInt32) (spurious : Bool) : Attempt :=
  if isClosed observed ∨ refs observed = refMask then .refused
  else if word = observed ∧ spurious = false then .acquired (observed + 1)
  else .retry word

def word (closed : Bool) (count : Nat) : UInt32 := UInt32.ofNat (closed.toNat * 2 ^ 31 + count)

variable {closed : Bool} {count : Nat}

theorem toNat_word (h : count < 2 ^ 31) : (word closed count).toNat = closed.toNat * 2 ^ 31 + count := by
  have hClosed := closed.toNat_lt
  rw [word, UInt32.toNat_ofNat']
  omega

theorem word_succ {count : Nat} : word closed count + 1 = word closed (count + 1) := by
  rw [word, word, ← add_assoc, UInt32.ofNat_add _ 1]
  rfl

section

variable (h : count < 2 ^ 31)

include h

theorem refs_word : refs (word closed count) = UInt32.ofNat count := by
  apply UInt32.toNat_inj.mp
  rw [refs, UInt32.toNat_and, toNat_word h, UInt32.toNat_ofNat']
  change (closed.toNat * 2 ^ 31 + count) &&& (2 ^ 31 - 1) = _
  rw [Nat.and_two_pow_sub_one_eq_mod]
  omega

theorem isClosed_word : isClosed (word closed count) = closed := by
  have hBit : (word closed count &&& closedBit).toNat = closed.toNat * 2 ^ 31 := by
    rw [UInt32.toNat_and, toNat_word h]
    change (closed.toNat * 2 ^ 31 + count) &&& 2 ^ 31 = _
    have hTest : (closed.toNat * 2 ^ 31 + count).testBit 31 = closed := by
      rw [Nat.testBit_eq_decide_div_mod_eq]
      cases closed <;> simp <;> omega
    rw [Nat.and_two_pow, hTest]
  have hZero : word closed count &&& closedBit = 0 ↔ closed = false := by
    rw [← UInt32.toNat_inj, hBit]
    cases closed <;> decide
  rw [Bool.eq_iff_iff, isClosed, decide_eq_true_eq, ne_eq, hZero, Bool.not_eq_false]

theorem close_word : close (word closed count) = word true count := by
  apply UInt32.toNat_inj.mp
  rw [close, UInt32.toNat_or, toNat_word h, toNat_word h]
  have hSplit (n : Nat) : n * 2 ^ 31 + count = (n <<< 31) ||| count := by
    rw [← Nat.shiftLeft_add_eq_or_of_lt h, Nat.shiftLeft_eq]
  rw [hSplit, hSplit, Nat.or_right_comm]
  congr 1
  cases closed <;> rfl

variable {observed taken : UInt32} {spurious : Bool}

theorem attempt_acquired (hTaken : attempt (word closed count) observed spurious = .acquired taken) :
    closed = false ∧ count + 1 < 2 ^ 31 ∧ taken = word false (count + 1) := by
  unfold attempt at hTaken
  split at hTaken
  · cases hTaken
  rename_i hOpen
  split at hTaken
  next hSwap =>
    obtain ⟨rfl, _⟩ := hSwap
    rw [isClosed_word h, not_or, Bool.not_eq_true] at hOpen
    obtain ⟨rfl, hRefs⟩ := hOpen
    have hCount : count ≠ 2 ^ 31 - 1 := by
      rintro rfl
      exact hRefs rfl
    exact ⟨rfl, by omega, (Attempt.acquired.inj hTaken).symm.trans word_succ⟩
  · cases hTaken

theorem refs_word_eq_zero (hZero : refs (word closed count) = 0) : count = 0 := by
  rw [refs_word h, ← UInt32.toNat_inj, UInt32.toNat_ofNat', UInt32.toNat_zero] at hZero
  omega

end

/-! ## Holders -/

structure Guards (closed quiet : Bool) (current : UInt32) (holders : Nat) : Prop where
  word_eq : ∃ shut, current = word shut holders ∧ (closed = true → shut = true)
  holders_lt : holders < 2 ^ 31
  none_left : quiet = true → holders = 0

namespace Guards

variable {quiet : Bool} {current : UInt32} {holders : Nat} (h : Guards closed quiet current holders)
include h

theorem mono {closed' quiet' : Bool} (hClosed : closed' = true → closed = true)
    (hQuiet : quiet' = true → quiet = true) : Guards closed' quiet' current holders := by
  obtain ⟨shut, hWord, hShut⟩ := h.word_eq
  exact ⟨⟨shut, hWord, fun hc => hShut (hClosed hc)⟩, h.holders_lt, fun hq => h.none_left (hQuiet hq)⟩

omit h in
theorem congr {holders' : Nat} (hEq : holders' = holders) (h : Guards closed quiet current holders) :
    Guards closed quiet current holders' := hEq ▸ h

theorem acquire (hQuiet : quiet = true → closed = true) (hTaken : attempt current observed spurious = .acquired taken) :
    Guards closed quiet taken (holders + 1) := by
  obtain ⟨_, rfl, hShut⟩ := h.word_eq
  obtain ⟨rfl, hLt, rfl⟩ := attempt_acquired h.holders_lt hTaken
  have hOpen : closed ≠ true := fun hc => Bool.false_ne_true (hShut hc)
  exact ⟨⟨_, rfl, hShut⟩, hLt, fun hq => absurd (hQuiet hq) hOpen⟩

omit h in
theorem release (h : Guards closed quiet current (holders + 1)) : Guards closed quiet (current - 1) holders := by
  obtain ⟨shut, rfl, hShut⟩ := h.word_eq
  have hLt := h.holders_lt
  refine ⟨⟨shut, by rw [← word_succ, UInt32.add_sub_cancel], hShut⟩, by omega, ?_⟩
  intro hq
  cases h.none_left hq

theorem shut : Guards true quiet (close current) holders := by
  obtain ⟨shut, rfl, _⟩ := h.word_eq
  exact ⟨⟨true, close_word h.holders_lt, fun _ => rfl⟩, h.holders_lt, h.none_left⟩

omit h in
theorem opened (h : Guards closed true current holders) : Guards false false 0 holders := by
  obtain rfl := h.none_left rfl
  exact ⟨⟨_, rfl, id⟩, h.holders_lt, fun hq => absurd hq Bool.false_ne_true⟩

theorem drained (hZero : refs current = 0) : Guards closed true current holders := by
  obtain ⟨shut, rfl, hShut⟩ := h.word_eq
  exact ⟨⟨shut, rfl, hShut⟩, h.holders_lt, fun _ => refs_word_eq_zero h.holders_lt hZero⟩

end Guards

end LuvFlicker.Gate
