import Mathlib.Tactic

/-!
# Decimal numbers as text

A number as its decimal digits in ASCII, and the number that a text of digits
stands for.
-/

namespace LuvFlicker.Decimal

open List UInt8

def text (n : Nat) : List UInt8 := (Nat.toDigits 10 n).map fun c => UInt8.ofNat c.toNat

def padded (n : Nat) : List UInt8 :=
  [UInt8.ofNat (48 + n / 100), UInt8.ofNat (48 + n / 10 % 10), UInt8.ofNat (48 + n % 10)]

def signed (i : Int) : List UInt8 := if i < 0 then 45 :: text i.natAbs else text i.natAbs

def isDigit (byte : UInt8) : Bool := 48 ≤ byte && byte ≤ 57

def value (start : Nat) (digits : List UInt8) : Nat := digits.foldl (fun v byte => 10 * v + (byte.toNat - 48)) start

theorem toNat_ofNat_of_isDigit {c : Char} (h : c.isDigit = true) : (ofNat c.toNat).toNat = c.toNat ∧
    48 ≤ c.toNat ∧ c.toNat ≤ 57 := by
  have hBounds : 48 ≤ c.toNat ∧ c.toNat ≤ 57 := by
    rw [Char.isDigit, Bool.and_eq_true, decide_eq_true_eq, decide_eq_true_eq] at h
    exact ⟨UInt32.le_iff_toNat_le.mp h.1, UInt32.le_iff_toNat_le.mp h.2⟩
  exact ⟨toNat_ofNat_of_lt' (hBounds.2.trans_lt (by decide)), hBounds⟩

variable {n : Nat} {byte : UInt8}

theorem isDigit_of_mem_text (h : byte ∈ text n) : isDigit byte = true := by
  obtain ⟨c, hc, rfl⟩ := mem_map.mp h
  obtain ⟨hNat, hLow, hHigh⟩ := toNat_ofNat_of_isDigit (Nat.isDigit_of_mem_toDigits (by decide) (by decide) hc)
  rw [isDigit, Bool.and_eq_true, decide_eq_true_eq, decide_eq_true_eq, le_iff_toNat_le, le_iff_toNat_le, hNat]
  exact ⟨hLow, hHigh⟩

theorem notMem_text (h : isDigit byte = false) : byte ∉ text n := by
  intro hMem
  cases (isDigit_of_mem_text hMem).symm.trans h

theorem notMem_signed {i : Int} (h : isDigit byte = false) (hSign : byte ≠ 45) : byte ∉ signed i := by
  rw [signed]
  split
  · rw [mem_cons, not_or]
    exact ⟨hSign, notMem_text h⟩
  · exact notMem_text h

theorem value_map {chars : List Char} (h : ∀ c ∈ chars, c.isDigit = true) (start : Nat) :
    value start (chars.map fun c => ofNat c.toNat) = Nat.ofDigitChars 10 chars start := by
  induction chars generalizing start with
  | nil => rfl
  | cons c chars ih =>
    obtain ⟨hHead, hRest⟩ := forall_mem_cons.mp h
    have hDigit := (toNat_ofNat_of_isDigit hHead).1
    rw [map_cons, value, foldl_cons, hDigit]
    exact ih hRest _

theorem value_cons (start : Nat) (byte : UInt8) (ds : List UInt8) :
    value start (byte :: ds) = value (start * 10 + (byte.toNat - 48)) ds := by
  rw [mul_comm]
  rfl

theorem le_value (start : Nat) (ds : List UInt8) : start ≤ value start ds := by
  induction ds generalizing start with
  | nil => exact le_rfl
  | cons byte ds ih =>
    rw [value_cons]
    exact le_trans (by omega) (ih _)

theorem value_lt {ds : List UInt8} (h : ∀ byte ∈ ds, byte.toNat ≤ 57) (start : Nat) :
    value start ds < (start + 1) * 10 ^ ds.length := by
  induction ds generalizing start with
  | nil => simp [value]
  | cons byte ds ih =>
    obtain ⟨_, hTail⟩ := forall_mem_cons.mp h
    rw [value_cons, length_cons, Nat.pow_succ', ← mul_assoc]
    exact (ih hTail _).trans_le (Nat.mul_le_mul_right _ (by omega))

theorem value_text (n : Nat) : value 0 (text n) = n := by
  rw [text, value_map fun c hc => Nat.isDigit_of_mem_toDigits (by decide) (by decide) hc]
  exact Nat.ofDigitChars_ten_toDigits

theorem text_injective : Function.Injective text := by
  intro m n h
  rw [← value_text m, h, value_text]

theorem length_text_le {k : Nat} (hPos : 0 < k) (h : n < 10 ^ k) : (text n).length ≤ k := by
  rw [text, length_map]
  exact (Nat.length_toDigits_le_iff (by decide) hPos).mpr h

theorem toNat_digit {d : Nat} (h : d < 10) : (ofNat (48 + d)).toNat = 48 + d :=
  toNat_ofNat_of_lt' ((Nat.add_lt_add_left h 48).trans (by decide))

theorem isDigit_digit {d : Nat} (h : d < 10) : isDigit (ofNat (48 + d)) = true := by
  rw [isDigit, Bool.and_eq_true, decide_eq_true_eq, decide_eq_true_eq, le_iff_toNat_le, le_iff_toNat_le, toNat_digit h]
  change 48 ≤ 48 + d ∧ 48 + d ≤ 57
  omega

theorem isDigit_of_mem_padded (h : n < 1000) (hMem : byte ∈ padded n) : isDigit byte = true := by
  simp only [padded, mem_cons, not_mem_nil, or_false] at hMem
  rcases hMem with rfl | rfl | rfl
  all_goals exact isDigit_digit (by omega)

theorem value_padded (h : n < 1000) : value 0 (padded n) = n := by
  rw [value, padded]
  simp only [foldl_cons, foldl_nil]
  rw [toNat_digit (by omega : n / 100 < 10), toNat_digit (by omega : n / 10 % 10 < 10),
    toNat_digit (by omega : n % 10 < 10)]
  omega

end LuvFlicker.Decimal
