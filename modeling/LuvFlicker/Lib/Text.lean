import Mathlib.Tactic

/-!
# Searching and cutting texts

Texts are byte strings. A function on C strings sees a buffer up to its first zero
byte; `strstr` finds the first occurrence of a needle, and what it finds depends
only on the text up to the end of that occurrence.
-/

namespace LuvFlicker.Text

open List

def cstr (bytes : List UInt8) : List UInt8 := bytes.takeWhile (· ≠ 0)

def strstr (needle : List UInt8) : List UInt8 → Option Nat
  | [] => if needle = [] then some 0 else none
  | byte :: rest => if needle <+: byte :: rest then some 0 else (strstr needle rest).map (· + 1)

variable {needle text text' : List UInt8} {i k : Nat}

theorem strstr_eq_some_iff :
    strstr needle text = some i ↔ needle <+: text.drop i ∧ ∀ j < i, ¬ needle <+: text.drop j := by
  induction text generalizing i with
  | nil =>
    rw [strstr]
    simp only [drop_nil, prefix_nil]
    split
    next hNil =>
      constructor
      · intro hZero
        cases hZero
        exact ⟨hNil, nofun⟩
      rintro ⟨-, hBefore⟩
      cases i with
      | zero => rfl
      | succ i => exact absurd hNil (hBefore 0 (Nat.succ_pos i))
    next hNil => exact iff_of_false nofun fun h => hNil h.1
  | cons byte rest ih =>
    rw [strstr]
    split
    next hHere =>
      constructor
      · intro hZero
        cases hZero
        exact ⟨hHere, nofun⟩
      rintro ⟨-, hBefore⟩
      cases i with
      | zero => rfl
      | succ i => exact absurd hHere (hBefore 0 (Nat.succ_pos i))
    next hHere =>
      cases i with
      | zero =>
        refine iff_of_false (fun hSome => ?_) fun h => hHere h.1
        cases hRest : strstr needle rest with
        | none | some => rw [hRest] at hSome; cases hSome
      | succ i =>
        have hShift : (strstr needle rest).map (· + 1) = some (i + 1) ↔ strstr needle rest = some i := by
          cases strstr needle rest with
          | none => exact iff_of_false nofun nofun
          | some n => simp
        rw [hShift, ih]
        refine and_congr_right fun _ => ⟨fun hBefore j hj => ?_, fun hBefore j hj => ?_⟩
        · cases j with
          | zero => exact hHere
          | succ j => exact hBefore j (Nat.lt_of_succ_lt_succ hj)
        · exact hBefore _ (Nat.succ_lt_succ hj)

theorem isSome_strstr_iff : (strstr needle text).isSome ↔ needle <:+: text := by
  induction text with
  | nil =>
    rw [strstr, infix_nil]
    split
    next hNil => exact iff_of_true rfl hNil
    next hNil => exact iff_of_false nofun hNil
  | cons byte rest ih =>
    rw [strstr, infix_cons_iff]
    split
    next hHere => exact iff_of_true rfl (.inl hHere)
    next hHere =>
      rw [Option.isSome_map, ih]
      exact (or_iff_right hHere).symm

section

variable (h : strstr needle text = some i)
include h

theorem eq_of_strstr : ∃ rest, text = text.take i ++ needle ++ rest := by
  obtain ⟨rest, hRest⟩ := (strstr_eq_some_iff.mp h).1
  exact ⟨rest, by rw [append_assoc, hRest, take_append_drop]⟩

omit h in
theorem prefix_drop_congr (hSame : text.take k = text'.take k) {j : Nat} (hj : j + needle.length ≤ k)
    (h : needle <+: text.drop j) : needle <+: text'.drop j := by
  have hNeedle := prefix_iff_eq_take.mp h
  have hCut (t : List UInt8) : (t.drop j).take needle.length = ((t.take k).drop j).take needle.length := by
    rw [drop_take, take_take, min_eq_left (by omega)]
  rw [hNeedle, hCut, hSame, ← hCut]
  exact take_prefix _ _

theorem strstr_congr (hSame : text.take k = text'.take k)
    (hk : i + needle.length ≤ k) : strstr needle text' = some i := by
  obtain ⟨hHere, hBefore⟩ := strstr_eq_some_iff.mp h
  refine strstr_eq_some_iff.mpr ⟨prefix_drop_congr hSame hk hHere, fun j hj hEarlier => ?_⟩
  exact hBefore j hj (prefix_drop_congr hSame.symm (by omega) hEarlier)

theorem strstr_append (more : List UInt8) : strstr needle (text ++ more) = some i := by
  obtain ⟨_, _⟩ := eq_of_strstr h
  have hHere := (strstr_eq_some_iff.mp h).1.length_le
  apply strstr_congr h (k := text.length)
  · rw [take_length, take_left]
  rw [length_drop] at hHere
  rcases lt_or_ge text.length i with _ | _
  · -- an empty needle is found at once
    have hNil : needle = [] := length_eq_zero_iff.mp (by omega)
    subst hNil
    exact absurd nil_prefix ((strstr_eq_some_iff.mp h).2 0 (by omega))
  · omega

omit h in
theorem exists_strstr {j : Nat} (h : needle <+: text.drop j) : ∃ i ≤ j, strstr needle text = some i := by
  have hInfix : needle <:+: text := h.isInfix.trans (drop_suffix _ _).isInfix
  obtain ⟨i, hi⟩ := Option.isSome_iff_exists.mp (isSome_strstr_iff.mpr hInfix)
  exact ⟨i, not_lt.mp fun hlt => (strstr_eq_some_iff.mp hi).2 j hlt h, hi⟩

theorem notInfix_take (hNeedle : needle ≠ []) : ¬ needle <:+: text.take i := by
  intro hInfix
  obtain ⟨j, hj⟩ := Option.isSome_iff_exists.mp (isSome_strstr_iff.mpr hInfix)
  have hFound := (strstr_eq_some_iff.mp hj).1
  have hLength := hFound.length_le
  have hPos := length_pos_iff.mpr hNeedle
  rw [length_drop, length_take] at hLength
  rw [drop_take] at hFound
  exact (strstr_eq_some_iff.mp h).2 j (by omega) (hFound.trans ⟨_, take_append_drop _ _⟩)

end

/-! ## A needle that begins with a mark

No byte behind the mark repeats it, so an occurrence lies within one piece of the text. -/

section Fields

variable {byte : UInt8} {tail front rest field : List UInt8} (hTail : byte ∉ tail)
include hTail

theorem prefix_front (h : tail <+: front ++ byte :: rest) : tail <+: front := by
  have hMarked : front ++ [byte] <+: front ++ byte :: rest := ⟨rest, by rw [append_assoc, singleton_append]⟩
  rcases prefix_or_prefix_of_prefix h hMarked with hShort | hLong
  · refine (prefix_concat_iff.mp hShort).resolve_left fun hEq => hTail ?_
    rw [hEq]
    exact mem_concat_self
  · exact absurd (hLong.subset mem_concat_self) hTail

theorem prefix_front_of_cons (hFront : front ≠ []) (h : byte :: tail <+: front ++ byte :: rest) :
    byte :: tail <+: front := by
  obtain ⟨_, _, rfl⟩ := exists_cons_of_ne_nil hFront
  rw [cons_append, cons_prefix_cons] at h
  exact cons_prefix_cons.mpr ⟨h.1, prefix_front hTail h.2⟩

theorem notInfix_append_cons (hFront : ¬ byte :: tail <:+: front) (hTag : ¬ tail <+: field)
    (hField : ¬ byte :: tail <:+: field) : ¬ byte :: tail <:+: front ++ byte :: field := by
  induction front with
  | nil =>
    rw [nil_append, infix_cons_iff, cons_prefix_cons]
    rintro (⟨-, hHere⟩ | hLater)
    · exact hTag hHere
    · exact hField hLater
  | cons first front ih =>
    rw [infix_cons_iff, not_or] at hFront
    rw [cons_append, infix_cons_iff]
    rintro (hHere | hLater)
    · exact hFront.1 (prefix_front_of_cons hTail (cons_ne_nil _ _) hHere)
    · exact ih hFront.2 hLater

theorem strstr_append_self (hFront : ¬ byte :: tail <:+: front) (rest : List UInt8) :
    strstr (byte :: tail) (front ++ byte :: (tail ++ rest)) = some front.length := by
  refine strstr_eq_some_iff.mpr ⟨?_, fun j hj hEarlier => hFront ?_⟩
  · rw [drop_left]
    exact ⟨rest, rfl⟩
  · rw [drop_append_of_le_length hj.le] at hEarlier
    have hHere := prefix_front_of_cons hTail (drop_eq_nil_iff.not.mpr hj.not_ge) hEarlier
    exact hHere.isInfix.trans (drop_suffix _ _).isInfix

end Fields

/-! ## C strings -/

theorem cstr_append (h : 0 ∉ text) (more : List UInt8) : cstr (text ++ more) = text ++ cstr more := by
  rw [cstr, takeWhile_append_of_pos]
  · rfl
  · intro _ hByte
    exact decide_eq_true (ne_of_mem_of_not_mem hByte h)

theorem cstr_of_notMem (h : 0 ∉ text) : cstr text = text := by
  have hAppend := cstr_append h []
  rw [append_nil] at hAppend
  exact hAppend.trans (append_nil text)

variable {bytes : List UInt8}

theorem cstr_isPrefix : cstr bytes <+: bytes := takeWhile_prefix _

theorem zero_notMem_cstr : 0 ∉ cstr bytes := by
  intro hMem
  have hVisible := all_eq_true.mp all_takeWhile _ hMem
  exact of_decide_eq_true hVisible rfl

theorem cstr_append_of_mem (h : 0 ∈ bytes) (more : List UInt8) :
    cstr (bytes ++ more) = cstr bytes := by
  induction bytes with
  | nil => cases h
  | cons byte bytes ih =>
    rw [cons_append, cstr, cstr, takeWhile_cons, takeWhile_cons]
    split
    next hByte =>
      have hRest : 0 ∈ bytes := by
        rcases mem_cons.mp h with rfl | hRest
        · exact absurd rfl (of_decide_eq_true hByte)
        · exact hRest
      exact congrArg (byte :: ·) (ih hRest)
    · rfl

theorem exists_cstr_append (more : List UInt8) : ∃ rest, cstr (bytes ++ more) = cstr bytes ++ rest := by
  by_cases hZero : 0 ∈ bytes
  · exact ⟨[], by rw [cstr_append_of_mem hZero, append_nil]⟩
  · exact ⟨_, by rw [cstr_append hZero, cstr_of_notMem hZero]⟩

/-! ## Words -/

def isSpace (byte : UInt8) : Bool := byte = 32 ∨ (9 ≤ byte ∧ byte ≤ 13)

def scanToken (width : Nat) (text : List UInt8) : Option (List UInt8 × List UInt8) :=
  let start := text.dropWhile isSpace
  let token := (start.take width).takeWhile fun byte => !isSpace byte
  if token = [] then none else some (token, start.drop token.length)

variable {width : Nat} {token rest : List UInt8}

section

variable (h : scanToken width text = some (token, rest))
include h

theorem scanToken_eq_some : ∃ spaces, text = spaces ++ (token ++ rest) ∧ (∀ byte ∈ spaces, isSpace byte = true) ∧
      token ≠ [] ∧ token.length ≤ width ∧ ∀ byte ∈ token, isSpace byte = false := by
  rw [scanToken] at h
  split at h
  · cases h
  rename_i hToken
  cases h
  have hPrefix : ((text.dropWhile isSpace).take width).takeWhile (fun byte => !isSpace byte) <+:
      text.dropWhile isSpace := IsPrefix.trans ⟨_, takeWhile_append_dropWhile⟩ ⟨_, take_append_drop _ _⟩
  refine ⟨text.takeWhile isSpace, ?_, fun byte hByte => ?_, hToken, ?_, fun byte hByte => ?_⟩
  · rw [prefix_iff_eq_append.mp hPrefix, takeWhile_append_dropWhile]
  · exact all_eq_true.mp all_takeWhile byte hByte
  · exact (IsPrefix.length_le ⟨_, takeWhile_append_dropWhile⟩).trans (length_take_le _ _)
  · have hVisible := all_eq_true.mp all_takeWhile byte hByte
    rwa [Bool.not_eq_true'] at hVisible

theorem scanToken_append (hRest : rest ≠ []) (more : List UInt8) :
    scanToken width (text ++ more) = some (token, rest ++ more) := by
  obtain ⟨_, _, -, _, -⟩ := scanToken_eq_some h
  rw [scanToken] at h ⊢
  generalize hStart : text.dropWhile isSpace = start at h
  split at h
  · cases h
  rename_i hSome
  cases h
  have hLong : (start.take width).takeWhile (fun byte => !isSpace byte) <+: start :=
    IsPrefix.trans ⟨_, takeWhile_append_dropWhile⟩ ⟨_, take_append_drop _ _⟩
  have hNonempty : start ≠ [] := by
    rintro rfl
    rw [take_nil] at hSome
    exact hSome rfl
  have hDrop : (text ++ more).dropWhile isSpace = start ++ more := by
    rw [dropWhile_append, hStart, if_neg (by rwa [List.isEmpty_iff])]
  -- the word ends inside `start`: at its width, or at a space of `start`
  have hSame : ((start ++ more).take width).takeWhile (fun byte => !isSpace byte) =
      (start.take width).takeWhile fun byte => !isSpace byte := by
    rcases le_total width start.length with hWide | hShort
    · rw [take_append_of_le_length hWide]
    rw [take_of_length_le hShort] at hRest ⊢
    rw [take_append, take_of_length_le hShort, takeWhile_append, if_neg]
    intro hAll
    apply hRest
    rw [hAll, drop_length]
  rw [hDrop, hSame, if_neg hSome, drop_append_of_le_length hLong.length_le]

end

theorem exists_scanToken (hWidth : 0 < width) (h : ∃ byte ∈ text, isSpace byte = false) :
    ∃ token rest, scanToken width text = some (token, rest) := by
  rw [scanToken]
  cases hStart : text.dropWhile isSpace with
  | nil =>
    obtain ⟨byte, hByte, hVisible⟩ := h
    have hSpaces : text.takeWhile isSpace = text := by
      have hSplit := @takeWhile_append_dropWhile _ isSpace text
      rwa [hStart, append_nil] at hSplit
    rw [← hSpaces] at hByte
    exact absurd (all_eq_true.mp all_takeWhile byte hByte) (Bool.eq_false_iff.mp hVisible)
  | cons byte start =>
    have hVisible := head?_dropWhile_not isSpace text
    rw [hStart] at hVisible
    obtain ⟨n, rfl⟩ := Nat.exists_eq_succ_of_ne_zero (ne_of_gt hWidth)
    rw [take_succ_cons, takeWhile_cons_of_pos (by rw [hVisible]; rfl)]
    exact ⟨_, _, rfl⟩

theorem countP_scanToken (h : scanToken width text = some (token, rest)) :
    text.countP (fun byte => !isSpace byte) ≤ width + rest.countP fun byte => !isSpace byte := by
  obtain ⟨spaces, rfl, hSpaces, -, _, -⟩ := scanToken_eq_some h
  have hNone : spaces.countP (fun byte => !isSpace byte) = 0 := by
    rw [countP_eq_zero]
    intro byte hByte
    rw [hSpaces byte hByte]
    exact nofun
  have hToken := @countP_le_length _ (fun byte => !isSpace byte) token
  rw [countP_append, countP_append]
  omega

end LuvFlicker.Text
