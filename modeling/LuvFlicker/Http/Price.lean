import LuvFlicker.Http.OrderBody
import LuvFlicker.Lib.Decimal

/-!
# Decimal prices

`json_decimal_price` reads a decimal number digit by digit. What it accepts is
exactly the numbers with at most four digits behind the point, and the result is
the number times 10000.
-/

namespace LuvFlicker.Http

open List Option

variable {text rest ds : List UInt8}

def NoDigit (rest : List UInt8) : Prop := ∀ byte ∈ rest.head?, isDigit byte = false

variable {start v count : Nat}

theorem of_decimal (h : decimal start text = some (v, rest)) :
    ∃ ds, text = ds ++ rest ∧ (∀ byte ∈ ds, isDigit byte = true) ∧ NoDigit rest ∧ v = Decimal.value start ds := by
  induction text generalizing start with
  | nil =>
    cases h
    exact ⟨[], rfl, nofun, nofun, rfl⟩
  | cons byte text ih =>
    rw [decimal] at h
    split at h
    next hDigit =>
      dsimp only at h
      split at h
      · cases h
      · obtain ⟨ds, rfl, hDigits, hRest, rfl⟩ := ih h
        exact ⟨_, rfl, forall_mem_cons.mpr ⟨hDigit, hDigits⟩, hRest, (Decimal.value_cons ..).symm⟩
    next hDigit =>
      cases h
      exact ⟨[], rfl, nofun, fun _ hByte => Option.some.inj hByte ▸ Bool.eq_false_iff.mpr hDigit, rfl⟩

section

variable (h : ∀ byte ∈ ds, isDigit byte = true) (hRest : NoDigit rest)
include h hRest

theorem decimal_append
    (hLt : Decimal.value start ds < 2 ^ 64) : decimal start (ds ++ rest) = some (Decimal.value start ds, rest) := by
  induction ds generalizing start with
  | nil =>
    cases rest with
    | nil => rfl
    | cons byte rest => rw [nil_append, decimal, hRest byte rfl]; rfl
  | cons byte ds ih =>
    obtain ⟨hHead, hTail⟩ := forall_mem_cons.mp h
    rw [Decimal.value_cons] at hLt ⊢
    have hLe := Decimal.le_value (start * 10 + (byte.toNat - 48)) ds
    rw [cons_append, decimal, if_pos hHead]
    rw [if_neg (by omega)]
    exact ih hTail hLt

theorem fractionLoop_append (hCount : count + ds.length ≤ 4) (start : Nat) :
    fractionLoop count start (ds ++ rest) = some (count + ds.length, Decimal.value start ds, rest) := by
  induction ds generalizing count start with
  | nil =>
    cases rest with
    | nil => rfl
    | cons byte rest => rw [nil_append, fractionLoop, hRest byte rfl]; rfl
  | cons byte ds ih =>
    obtain ⟨hHead, hTail⟩ := forall_mem_cons.mp h
    rw [length_cons] at hCount
    rw [cons_append, fractionLoop, if_pos hHead, if_neg (by omega), ih hTail (by omega), Decimal.value_cons, length_cons,
      add_right_comm, add_assoc]

end

theorem of_fractionLoop {n : Nat} (hCount : count ≤ 4) (h : fractionLoop count start text = some (n, v, rest)) :
    ∃ ds, text = ds ++ rest ∧ (∀ byte ∈ ds, isDigit byte = true) ∧ n = count + ds.length ∧ n ≤ 4 ∧ v =
      Decimal.value start ds := by
  induction text generalizing count start with
  | nil =>
    cases h
    exact ⟨[], rfl, nofun, rfl, hCount, rfl⟩
  | cons byte text ih =>
    rw [fractionLoop] at h
    split at h
    next hDigit =>
      split at h
      · cases h
      obtain ⟨ds, rfl, hDigits, rfl, hLe, rfl⟩ := ih (by omega) h
      refine ⟨_, rfl, forall_mem_cons.mpr ⟨hDigit, hDigits⟩, ?_, hLe, (Decimal.value_cons ..).symm⟩
      rw [length_cons]
      omega
    · cases h
      exact ⟨[], rfl, nofun, rfl, hCount, rfl⟩

/-! ## The price of a text -/

def ValueEnd (rest : List UInt8) : Prop :=
  ∃ spaces tail, rest = spaces ++ tail ∧ (∀ byte ∈ spaces, byte = 32 ∨ byte = 9 ∨ byte = 13 ∨ byte = 10) ∧
    (tail = [] ∨ tail.head? = some 44 ∨ tail.head? = some 125)

def IsPrice (text : List UInt8) (units : Nat) : Prop :=
  ∃ whole point frac rest, text = whole ++ (point ++ (frac ++ rest)) ∧ whole ≠ [] ∧
    (∀ byte ∈ whole, isDigit byte = true) ∧ (∀ byte ∈ frac, isDigit byte = true) ∧
    (point = [] ∧ frac = [] ∨ point = [46] ∧ 1 ≤ frac.length ∧ frac.length ≤ 4) ∧ ValueEnd rest ∧
    units = Decimal.value 0 whole * 10000 + Decimal.value 0 frac * 10 ^ (4 - frac.length)

theorem jsonValueEnd_iff (rest : List UInt8) : jsonValueEnd rest = true ↔ ValueEnd rest := by
  rw [jsonValueEnd]
  constructor
  · intro h
    refine ⟨rest.takeWhile fun byte => byte = 32 ∨ byte = 9 ∨ byte = 13 ∨ byte = 10, _,
      takeWhile_append_dropWhile.symm, fun byte hMem => ?_, ?_⟩
    · have hSpace := mem_takeWhile_imp hMem
      exact of_decide_eq_true hSpace
    generalize rest.dropWhile (fun byte => decide (byte = 32 ∨ byte = 9 ∨ byte = 13 ∨ byte = 10)) = tail at h ⊢
    cases tail with
    | nil => exact .inl rfl
    | cons byte tail => simpa using h
  · rintro ⟨spaces, tail, rfl, hSpaces, hTail⟩
    rw [dropWhile_append_of_pos fun byte hMem => decide_eq_true (hSpaces byte hMem)]
    cases tail with
    | nil => rfl
    | cons byte tail => rcases hTail with hNil | hComma | hBrace <;> simp_all

theorem ValueEnd.head (h : ValueEnd rest) : ∀ byte ∈ rest.head?, isDigit byte = false ∧ byte ≠ 46 := by
  obtain ⟨spaces, tail, rfl, hSpaces, hTail⟩ := h
  intro byte hByte
  cases spaces with
  | nil =>
    rcases hTail with rfl | hComma | hBrace
    · cases hByte
    · cases hComma.symm.trans hByte
      decide
    · cases hBrace.symm.trans hByte
      decide
  | cons space spaces =>
    cases hByte
    rcases hSpaces byte mem_cons_self with rfl | rfl | rfl | rfl <;> decide

theorem ValueEnd.noDigit (h : ValueEnd rest) : NoDigit rest := fun byte hByte => (h.head byte hByte).1

theorem digits_append (hNonempty : ds ≠ []) (h : ∀ byte ∈ ds, isDigit byte = true) (hRest : NoDigit rest)
    (hLt : Decimal.value 0 ds < 2 ^ 64) : digits (ds ++ rest) = some (Decimal.value 0 ds, rest) := by
  obtain ⟨byte, tail, rfl⟩ := exists_cons_of_ne_nil hNonempty
  rw [← decimal_append h hRest hLt]
  exact if_pos (h byte mem_cons_self)

theorem of_digits (h : digits text = some (v, rest)) :
    ∃ ds, text = ds ++ rest ∧ ds ≠ [] ∧ (∀ byte ∈ ds, isDigit byte = true) ∧ v = Decimal.value 0 ds := by
  cases text with
  | nil => cases h
  | cons byte text =>
    rw [digits] at h
    split at h
    next hDigit =>
      obtain ⟨ds, hText, hDigits, hRest, hValue⟩ := of_decimal h
      refine ⟨ds, hText, ?_, hDigits, hValue⟩
      rintro rfl
      subst hText
      exact absurd (hRest byte rfl) (by simp [hDigit])
    · cases h

theorem of_fraction (h : fraction text = some (count, v, rest)) :
    ∃ point frac, text = point ++ (frac ++ rest) ∧ (∀ byte ∈ frac, isDigit byte = true) ∧
      (point = [] ∧ frac = [] ∨ point = [46] ∧ 1 ≤ frac.length ∧ frac.length ≤ 4) ∧
      count = frac.length ∧ v = Decimal.value 0 frac := by
  unfold fraction at h
  split at h
  · split at h
    · cases h
    rename_i hSome
    obtain ⟨ds, rfl, hDigits, hCount, hLe, rfl⟩ := of_fractionLoop (Nat.zero_le 4) h
    rw [Nat.zero_add] at hCount
    refine ⟨[46], ds, rfl, hDigits, Or.inr ⟨rfl, ?_, hCount ▸ hLe⟩, hCount, rfl⟩
    rcases Nat.eq_zero_or_pos count with rfl | hPos
    · exact absurd h (hSome _ _)
    · omega
  · cases h
    exact ⟨[], [], rfl, nofun, .inl ⟨rfl, rfl⟩, rfl, rfl⟩

theorem fraction_append {point frac : List UInt8} (hFrac : ∀ byte ∈ frac, isDigit byte = true) (hEnd : ValueEnd rest)
    (hPoint : point = [] ∧ frac = [] ∨ point = [46] ∧ 1 ≤ frac.length ∧ frac.length ≤ 4) :
    fraction (point ++ (frac ++ rest)) = some (frac.length, Decimal.value 0 frac, rest) := by
  rcases hPoint with ⟨rfl, rfl⟩ | ⟨rfl, hPos, hLe⟩
  · unfold fraction
    split
    next hPoint => exact absurd rfl (hEnd.head 46 (congrArg List.head? hPoint)).2
    · rfl
  · rw [singleton_append, fraction, fractionLoop_append hFrac hEnd.noDigit (by omega), zero_add]
    split
    next h => exact absurd (Prod.mk.inj (Option.some.inj h)).1 (by omega)
    · rfl

theorem fraction_lt {frac : List UInt8} (hFrac : ∀ byte ∈ frac, isDigit byte = true) (hLe : frac.length ≤ 4) :
    Decimal.value 0 frac * 10 ^ (4 - frac.length) < 10000 := by
  have hDigits : ∀ byte ∈ frac, byte.toNat ≤ 57 := fun byte hMem =>
    UInt8.le_iff_toNat_le.mp (of_decide_eq_true (hFrac byte hMem)).2
  have hLt := Decimal.value_lt hDigits 0
  calc
    _ < 10 ^ frac.length * 10 ^ (4 - frac.length) := Nat.mul_lt_mul_of_pos_right (by omega) (Nat.pow_pos (by decide))
    _ = 10000 := by rw [← Nat.pow_add, Nat.add_sub_cancel' hLe]

/-- **Decimal prices.** A text is accepted exactly if it starts with such a number and the result fits; no digit is
lost, however many there are. -/
theorem jsonDecimalPrice_iff (text : List UInt8) (units : Nat) :
    jsonDecimalPrice text = some units ↔ IsPrice text units ∧ units ≤ 2 ^ 63 - 1 := by
  constructor
  · intro h
    simp only [jsonDecimalPrice, bind_eq_bind, bind_eq_some_iff] at h
    obtain ⟨⟨whole, rest⟩, hDigits, ⟨count, fractional, rest'⟩, hFraction, h⟩ := h
    obtain ⟨ds, rfl, hNonempty, hWhole, rfl⟩ := of_digits hDigits
    obtain ⟨point, frac, rfl, hFrac, hPoint, rfl, rfl⟩ := of_fraction hFraction
    split at h
    next hEnd =>
      dsimp only at h
      split at h
      · cases h
      rename_i hLe
      have hUnits := fraction_lt hFrac (by rcases hPoint with ⟨-, rfl⟩ | ⟨-, -, hLe⟩ <;> simp [*])
      cases h
      exact ⟨⟨ds, _, frac, _, rfl, hNonempty, hWhole, hFrac, hPoint, (jsonValueEnd_iff _).mp hEnd, rfl⟩,
        by omega⟩
    · cases h
  · rintro ⟨⟨whole, point, frac, rest, rfl, hNonempty, hWhole, hFrac, hPoint, hEnd, rfl⟩, hLe⟩
    have hNoDigit : NoDigit (point ++ (frac ++ rest)) := by
      rcases hPoint with ⟨rfl, rfl⟩ | ⟨rfl, -⟩
      · exact hEnd.noDigit
      · exact fun _ hByte => Option.some.inj hByte ▸ rfl
    simp only [jsonDecimalPrice, digits_append hNonempty hWhole hNoDigit (by omega), fraction_append hFrac hEnd hPoint,
      bind_eq_bind, bind_some, (jsonValueEnd_iff rest).mpr hEnd, if_true]
    rw [if_neg (by omega)]

end LuvFlicker.Http
