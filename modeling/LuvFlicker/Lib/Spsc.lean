import Mathlib.Tactic

/-!
# Single-producer single-consumer rings

A ring of `2 ^ bits` cells with two free-running 64-bit counters. The cells
between the counters, read from the tail, are a queue: a push appends to it, a
pop takes its front.
-/

namespace LuvFlicker.Spsc

open Function List Option

universe u

variable {α : Type u} {bits : Nat}

structure Ring (α : Type u) (bits : Nat) where
  head : UInt64
  tail : UInt64
  slots : Nat → α
  bits_lt : bits < 64
  size_le : (head - tail).toNat ≤ 2 ^ bits

namespace Ring

def cell (bits : Nat) (counter : UInt64) : Nat := counter.toNat % 2 ^ bits

variable (r : Ring α bits)

def size : UInt64 := r.head - r.tail

def isFull : Bool := 2 ^ bits ≤ r.size.toNat

def isEmpty : Bool := r.head = r.tail

def new (slots : Nat → α) (bits_lt : bits < 64) : Ring α bits where
  head := 0
  tail := 0
  slots := slots
  bits_lt := bits_lt
  size_le := Nat.zero_le _

theorem pow_dvd (h : bits < 64) : 2 ^ bits ∣ 2 ^ 64 := Nat.pow_dvd_pow 2 h.le

theorem pow_lt (h : bits < 64) : 2 ^ bits < 2 ^ 64 := Nat.pow_lt_pow_right (by decide) h

variable {head tail : UInt64}

theorem toNat_succ_sub (h : (head - tail).toNat < 2 ^ 64 - 1) : (head + 1 - tail).toNat = (head - tail).toNat + 1 := by
  rw [UInt64.toNat_sub] at h ⊢
  rw [UInt64.toNat_sub]
  change (2 ^ 64 - tail.toNat + (head.toNat + 1) % 2 ^ 64) % 2 ^ 64 = _
  omega

theorem toNat_sub_succ (h : head ≠ tail) :
    (head - (tail + 1)).toNat = (head - tail).toNat - 1 ∧ 0 < (head - tail).toNat := by
  have hHead := head.toNat_lt
  have hTail := tail.toNat_lt
  have hNe : head.toNat ≠ tail.toNat := fun hEq => h (UInt64.toNat_inj.mp hEq)
  rw [UInt64.toNat_sub, UInt64.toNat_sub]
  change (2 ^ 64 - (tail.toNat + 1) % 2 ^ 64 + head.toNat) % 2 ^ 64 = _ ∧ _
  omega

def tryPush (a : α) : Option (Ring α bits) :=
  if h : 2 ^ bits ≤ r.size.toNat then none
  else
    some
      { head := r.head + 1
        tail := r.tail
        slots := update r.slots (cell bits r.head) a
        bits_lt := r.bits_lt
        size_le := by
          have hPow := pow_lt r.bits_lt
          rw [size] at h
          rw [toNat_succ_sub (by omega)]
          omega }

def tryPop : Option (α × Ring α bits) :=
  if h : r.head = r.tail then none
  else
    some (r.slots (cell bits r.tail),
      { head := r.head
        tail := r.tail + 1
        slots := r.slots
        bits_lt := r.bits_lt
        size_le := by
          have hSize := r.size_le
          rw [(toNat_sub_succ h).1]
          omega })

def contents : List α := (List.range r.size.toNat).map fun k => r.slots ((r.tail.toNat + k) % 2 ^ bits)

theorem length_contents : r.contents.length = r.size.toNat := by
  rw [contents, length_map, length_range]

theorem length_contents_le : r.contents.length ≤ 2 ^ bits := by
  rw [length_contents]
  exact r.size_le

@[simp]
theorem contents_new (slots : Nat → α) (h : bits < 64) : (new slots h).contents = [] := by
  rw [contents, size, show (new slots h).head - (new slots h).tail = 0 from UInt64.sub_self 0, UInt64.toNat_zero,
    range_zero, map_nil]

theorem head_cell : cell bits r.head = (r.tail.toNat + r.size.toNat) % 2 ^ bits := by
  have hHead := r.head.toNat_lt
  have hTail := r.tail.toNat_lt
  have hSum : (r.tail.toNat + r.size.toNat) % 2 ^ 64 = r.head.toNat := by
    rw [size, UInt64.toNat_sub]
    omega
  rw [cell, ← hSum, Nat.mod_mod_of_dvd _ (pow_dvd r.bits_lt)]

theorem cell_succ (h : bits < 64) (counter : UInt64) (k : Nat) :
    ((counter + 1).toNat + k) % 2 ^ bits = (counter.toNat + (k + 1)) % 2 ^ bits := by
  change ((counter.toNat + 1) % 2 ^ 64 + k) % 2 ^ bits = _
  rw [Nat.add_mod, Nat.mod_mod_of_dvd _ (pow_dvd h), ← Nat.add_mod]
  congr 1
  omega

theorem isFull_iff : r.isFull = true ↔ r.contents.length = 2 ^ bits := by
  have hSize := r.size_le
  rw [length_contents, isFull, decide_eq_true_eq]
  exact ⟨fun hFull => le_antisymm hSize hFull, fun hEq => hEq.ge⟩

theorem tryPush_eq_none_iff (a : α) : r.tryPush a = none ↔ r.isFull = true := by
  rw [isFull, decide_eq_true_eq, tryPush]
  split
  next hFull => exact ⟨fun _ => hFull, fun _ => rfl⟩
  next hRoom => exact ⟨fun h => absurd h (some_ne_none _), fun hFull => absurd hFull hRoom⟩

theorem contents_push {r r' : Ring α bits} {a : α} (h : r.tryPush a = some r') : r'.contents = r.contents ++ [a] := by
  unfold tryPush at h
  split at h
  · cases h
  rename_i hRoom
  obtain rfl := Option.some.inj h
  have hPow := pow_lt r.bits_lt
  have hSize : (r.head + 1 - r.tail).toNat = r.size.toNat + 1 := toNat_succ_sub (by rw [size] at hRoom; omega)
  rw [contents, size, hSize, range_succ, map_append, map_singleton]
  simp only
  rw [← head_cell, update_self]
  congr 1
  refine map_congr_left fun k hk => update_of_ne ?_ _ _
  -- two counters less than one round apart have different cells
  intro hEq
  have hk := mem_range.mp hk
  rw [head_cell] at hEq
  have hMod := Nat.ModEq.add_left_cancel' _ hEq
  rw [Nat.ModEq, Nat.mod_eq_of_lt (by omega), Nat.mod_eq_of_lt (by omega)] at hMod
  omega

theorem tryPop_eq_none_iff : r.tryPop = none ↔ r.contents = [] := by
  rw [← length_eq_zero_iff, length_contents, tryPop]
  split
  next hEmpty => exact ⟨fun _ => by rw [size, hEmpty, UInt64.sub_self]; rfl, fun _ => rfl⟩
  next hSome => exact ⟨fun h => absurd h (some_ne_none _), fun hZero => absurd hZero (toNat_sub_succ hSome).2.ne'⟩

theorem isEmpty_iff : r.isEmpty = true ↔ r.contents = [] := by
  rw [← tryPop_eq_none_iff, tryPop, isEmpty, decide_eq_true_eq]
  split
  next hEmpty => exact ⟨fun _ => rfl, fun _ => hEmpty⟩
  next hSome => exact ⟨fun hEmpty => absurd hEmpty hSome, fun h => absurd h (some_ne_none _)⟩

theorem contents_pop {r r' : Ring α bits} {a : α} (h : r.tryPop = some (a, r')) : r.contents = a :: r'.contents := by
  unfold tryPop at h
  split at h
  · cases h
  rename_i hSome
  obtain ⟨rfl, rfl⟩ := Prod.mk.inj (Option.some.inj h)
  obtain ⟨hSize, _⟩ := toNat_sub_succ hSome
  rw [contents, contents, size, size, hSize, show (r.head - r.tail).toNat = (r.head - r.tail).toNat - 1 + 1 by omega,
    range_succ_eq_map, map_cons, List.map_map]
  congr 1
  refine map_congr_left fun k _ => ?_
  simp only [Function.comp, cell_succ r.bits_lt]

end Ring

/-! ## Channels -/

structure Channel (α : Type u) (bits : Nat) where
  ring : Ring α bits
  taken : List α

open Spsc.Ring

namespace Channel

def new (slots : Nat → α) (h : bits < 64) : Channel α bits := ⟨.new slots h, []⟩

def committed (c : Channel α bits) : List α := c.taken ++ c.ring.contents

def drain : Nat → Channel α bits → Channel α bits
  | 0, c => c
  | n + 1, c =>
    match c.ring.tryPop with
    | none => c
    | some (a, ring) => drain n ⟨ring, c.taken ++ [a]⟩

section

variable (c : Channel α bits)

def isFull : Bool := c.ring.isFull

def tryPush (a : α) : Option (Channel α bits) :=
  (c.ring.tryPush a).map fun ring => { c with ring := ring }

def tryPop : Option (α × Channel α bits) :=
  c.ring.tryPop.map fun popped => (popped.1, ⟨popped.2, c.taken ++ [popped.1]⟩)

end

@[simp]
theorem committed_new {slots : Nat → α} (h : bits < 64) : (new slots h).committed = [] := contents_new _ h

@[simp]
theorem committed_drain (n : Nat) (c : Channel α bits) : (drain n c).committed = c.committed := by
  induction n generalizing c with
  | zero => rfl
  | succ n ih =>
    rw [drain]
    cases hPop : c.ring.tryPop with
    | none => rfl
    | some popped =>
      obtain ⟨a, _⟩ := popped
      rw [ih, committed, committed, contents_pop hPop, append_assoc, singleton_append]

variable {c : Channel α bits}

theorem tryPush_of_room (h : c.isFull = false) (a : α) :
    ∃ c', c.tryPush a = some c' ∧ c'.taken = c.taken ∧ c'.ring.contents = c.ring.contents ++ [a] := by
  cases hPush : c.ring.tryPush a with
  | none =>
    have hFull := (tryPush_eq_none_iff _ _).mp hPush
    rw [isFull, hFull] at h
    cases h
  | some ring => exact ⟨{ c with ring := ring }, by rw [tryPush, hPush]; rfl, rfl, contents_push hPush⟩

theorem tryPush_eq_none_iff (c : Channel α bits) (a : α) : c.tryPush a = none ↔ c.isFull = true := by
  rw [tryPush, map_eq_none_iff, Ring.tryPush_eq_none_iff, isFull]

variable {c c' : Channel α bits} {a : α}

theorem contents_push (h : c.tryPush a = some c') : c'.taken = c.taken ∧ c'.ring.contents = c.ring.contents ++ [a] := by
  obtain ⟨_, hRing, rfl⟩ := map_eq_some_iff.mp h
  exact ⟨rfl, contents_push hRing⟩

theorem committed_push (h : c.tryPush a = some c') : c'.committed = c.committed ++ [a] := by
  obtain ⟨hTaken, hContents⟩ := contents_push h
  rw [committed, hTaken, hContents, ← append_assoc, committed]

theorem tryPop_eq_none_iff (c : Channel α bits) : c.tryPop = none ↔ c.ring.contents = [] := by
  rw [tryPop, map_eq_none_iff, Ring.tryPop_eq_none_iff]

theorem contents_pop (h : c.tryPop = some (a, c')) :
    c'.taken = c.taken ++ [a] ∧ c.ring.contents = a :: c'.ring.contents := by
  obtain ⟨⟨b, _⟩, hRing, hEq⟩ := map_eq_some_iff.mp h
  obtain ⟨rfl, rfl⟩ := Prod.mk.inj hEq
  exact ⟨rfl, contents_pop hRing⟩

theorem committed_pop (h : c.tryPop = some (a, c')) : c'.committed = c.committed := by
  obtain ⟨hTaken, hContents⟩ := contents_pop h
  rw [committed, committed, hTaken, hContents, append_assoc, singleton_append]

theorem contents_drain (n : Nat) (c : Channel α bits) : (drain n c).ring.contents = c.ring.contents.drop n := by
  induction n generalizing c with
  | zero => rfl
  | succ n ih =>
    rw [drain]
    cases hPop : c.ring.tryPop with
    | none => rw [(Ring.tryPop_eq_none_iff _).mp hPop, drop_nil]
    | some popped =>
      obtain ⟨a, _⟩ := popped
      rw [ih, Ring.contents_pop hPop, drop_succ_cons]

theorem isFull_drain_of_room (h : c.isFull = false) (n : Nat) : (drain n c).isFull = false := by
  have hLe := c.ring.length_contents_le
  rw [isFull, Bool.eq_false_iff, Ne, isFull_iff] at h ⊢
  rw [contents_drain, length_drop]
  omega

theorem isFull_drain {n : Nat} (h : 2 ^ bits ≤ n) (c : Channel α bits) : (drain n c).isFull = false := by
  rw [isFull, Bool.eq_false_iff, Ne, isFull_iff, contents_drain, drop_eq_nil_of_le
    (le_trans c.ring.length_contents_le h)]
  exact (Nat.two_pow_pos bits).ne

end Channel

end LuvFlicker.Spsc
