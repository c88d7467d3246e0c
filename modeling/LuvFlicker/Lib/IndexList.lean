import Mathlib.Tactic

/-!
# Doubly linked lists through an index array

The cells of the list are indices into a fixed array; `next` and `prev` are the
two link fields, and `none` stands for the end.
-/

namespace LuvFlicker.IndexList

open Function List

/-- Walking `path` from the cell `cur`, whose predecessor is `back`, ends at `cur'` behind `back'`. -/
def Seg (next prev : Nat → Option Nat) : (back cur : Option Nat) → List Nat → (back' cur' : Option Nat) → Prop
  | back, cur, [], back', cur' => back = back' ∧ cur = cur'
  | back, cur, i :: rest, back', cur' => cur = some i ∧ prev i = back ∧ Seg next prev (some i) (next i) rest back' cur'

/-- The links from `head` run through exactly the cells of `path`, in that order, and end. -/
def Linked (next prev : Nat → Option Nat) (head : Option Nat) (path : List Nat) : Prop :=
  path.Nodup ∧ ∃ last, Seg next prev none head path last none

variable {next prev next' prev' : Nat → Option Nat} {back cur back' cur' : Option Nat} {l r : List Nat} {i : Nat}

theorem seg_append : Seg next prev back cur (l ++ r) back' cur' ↔
      ∃ b c, Seg next prev back cur l b c ∧ Seg next prev b c r back' cur' := by
  induction l generalizing back cur with
  | nil =>
    constructor
    · intro h
      exact ⟨back, cur, ⟨rfl, rfl⟩, h⟩
    · rintro ⟨b, c, ⟨rfl, rfl⟩, h⟩
      exact h
  | cons i l ih =>
    simp only [cons_append, Seg, ih]
    constructor
    · rintro ⟨hCur, hPrev, b, c, hLeft, hRight⟩
      exact ⟨b, c, ⟨hCur, hPrev, hLeft⟩, hRight⟩
    · rintro ⟨b, c, ⟨hCur, hPrev, hLeft⟩, hRight⟩
      exact ⟨hCur, hPrev, b, c, hLeft, hRight⟩

variable {path : List Nat}

theorem Seg.congr (h : Seg next prev back cur path back' cur')
    (hNext : ∀ i ∈ path, next' i = next i) (hPrev : ∀ i ∈ path, prev' i = prev i) :
    Seg next' prev' back cur path back' cur' := by
  induction path generalizing back cur with
  | nil => exact h
  | cons i path ih =>
    obtain ⟨hCur, hBack, hRest⟩ := h
    refine ⟨hCur, (hPrev i mem_cons_self).trans hBack, ?_⟩
    rw [hNext i mem_cons_self]
    exact ih hRest (fun j hj => hNext j (mem_cons_of_mem i hj)) (fun j hj => hPrev j (mem_cons_of_mem i hj))

variable {i : Nat}

theorem Seg.setEnd (target : Option Nat) (h : Seg next prev back cur (path ++ [i]) back' cur') (hFresh : i ∉ path) :
    Seg (update next i target) prev back cur (path ++ [i]) (some i) target := by
  obtain ⟨b, c, hLeft, hCur, hPrev, _⟩ := seg_append.mp h
  refine seg_append.mpr ⟨b, c, hLeft.congr ?_ (fun _ _ => rfl), hCur, hPrev, rfl, ?_⟩
  · intro j hj
    exact update_of_ne (ne_of_mem_of_not_mem hj hFresh) _ _
  · exact update_self ..

theorem Seg.setStart (target : Option Nat)
    (h : Seg next prev back (some i) (i :: path) back' cur') (hFresh : i ∉ path) :
    Seg next (update prev i target) target (some i) (i :: path) back' cur' := by
  obtain ⟨_, _, hRest⟩ := h
  refine ⟨rfl, update_self .., hRest.congr (fun _ _ => rfl) ?_⟩
  intro j hj
  exact update_of_ne (ne_of_mem_of_not_mem hj hFresh) _ _

/-! ## Reading a list -/

def follow (next : Nat → Option Nat) : Nat → Option Nat → List Nat
  | 0, _ => []
  | _ + 1, none => []
  | n + 1, some i => i :: follow next n (next i)

theorem follow_seg {n : Nat}
    (h : Seg next prev back cur path back' none) (hLength : path.length ≤ n) : follow next n cur = path := by
  induction path generalizing back cur n with
  | nil =>
    obtain ⟨_, rfl⟩ := h
    cases n <;> rfl
  | cons i path ih =>
    obtain ⟨rfl, _, hRest⟩ := h
    cases n with
    | zero => simp at hLength
    | succ n => exact congrArg _ (ih hRest (by simpa using hLength))

variable {head : Option Nat}

def tail (next : Nat → Option Nat) : Nat → Nat → Nat
  | 0, cur => cur
  | n + 1, cur =>
    match next cur with
    | none => cur
    | some j => tail next n j

theorem tail_seg {cur n : Nat}
    (h : Seg next prev back (some cur) (path ++ [i]) back' none) (hLength : path.length ≤ n) :
    tail next n cur = i ∧ next i = none := by
  induction path generalizing back cur n with
  | nil =>
    obtain ⟨hCur, _, _, hNext⟩ := h
    cases hCur
    cases n <;> simp [tail, hNext]
  | cons j path ih =>
    obtain ⟨hCur, _, hRest⟩ := h
    cases hCur
    cases n with
    | zero => simp at hLength
    | succ n =>
      have hStep : ∃ k, next j = some k := by
        cases path with
        | nil => exact ⟨i, hRest.1⟩
        | cons k path => exact ⟨k, hRest.1⟩
      obtain ⟨k, hk⟩ := hStep
      rw [hk] at hRest
      simp only [tail, hk]
      exact ih hRest (by simpa using hLength)

section

variable (h : Linked next prev head path)
include h

theorem Linked.follow {n : Nat} (hLength : path.length ≤ n) : follow next n head = path := by
  obtain ⟨_, _, hSeg⟩ := h
  exact follow_seg hSeg hLength

theorem Linked.congr
    (hNext : ∀ i ∈ path, next' i = next i) (hPrev : ∀ i ∈ path, prev' i = prev i) : Linked next' prev' head path := by
  obtain ⟨hNodup, last, hSeg⟩ := h
  exact ⟨hNodup, last, hSeg.congr hNext hPrev⟩

theorem Linked.head_eq : head = path.head? := by
  obtain ⟨_, _, hSeg⟩ := h
  cases path with
  | nil => exact hSeg.2
  | cons i path => exact hSeg.1

end

theorem Linked.next_eq (h : Linked next prev head (l ++ i :: r)) : next i = r.head? := by
  obtain ⟨_, _, hSeg⟩ := h
  obtain ⟨_, _, _, _, _, hRight⟩ := seg_append.mp hSeg
  cases r with
  | nil => exact hRight.2
  | cons j r => exact hRight.1

theorem Linked.unique {path path' : List Nat} (h : Linked next prev head path)
    (h' : Linked next prev head path') : path = path' := by
  rw [← h.follow (le_max_left _ _), h'.follow (le_max_right _ _)]

/-! ## Adding and unlinking a cell -/

def pushPrev (prev : Nat → Option Nat) (head : Option Nat) (i : Nat) : Nat → Option Nat :=
  match head with
  | some first => update (update prev i none) first (some i)
  | none => update prev i none

theorem Linked.push (h : Linked next prev head path)
    (hFresh : i ∉ path) : Linked (update next i head) (pushPrev prev head i) (some i) (i :: path) := by
  obtain ⟨hNodup, last, hSeg⟩ := h
  refine ⟨nodup_cons.mpr ⟨hFresh, hNodup⟩, ?_⟩
  have hKeep : ∀ j ∈ path, update next i head j = next j :=
    fun j hj => update_of_ne (ne_of_mem_of_not_mem hj hFresh) _ _
  cases path with
  | nil =>
    obtain ⟨rfl, rfl⟩ := hSeg
    exact ⟨_, rfl, update_self .., rfl, update_self ..⟩
  | cons first path =>
    obtain ⟨rfl, -, hRest⟩ := hSeg
    have hne : i ≠ first := fun he => hFresh (he ▸ mem_cons_self)
    refine ⟨last, rfl, ?_, ?_⟩
    · exact (update_of_ne hne _ _).trans (update_self ..)
    rw [update_self]
    refine ⟨rfl, update_self .., ?_⟩
    rw [hKeep _ mem_cons_self]
    refine hRest.congr (fun j hj => hKeep j (mem_cons_of_mem _ hj)) fun j hj => ?_
    have hFirst : j ≠ first := ne_of_mem_of_not_mem hj (nodup_cons.mp hNodup).1
    have hji : j ≠ i := ne_of_mem_of_not_mem (mem_cons_of_mem _ hj) hFresh
    exact (update_of_ne hFirst _ _).trans (update_of_ne hji _ _)

theorem linked_singleton (i : Nat) (hNext : next i = none) (hPrev : prev i = none) : Linked next prev (some i) [i] :=
  ⟨nodup_singleton i, _, rfl, hPrev, rfl, hNext⟩

theorem Linked.append {last : Nat} (h : Linked next prev head (path ++ [last])) (hFresh : i ∉ path ++ [last])
    (hNext : next' = update (update next i none) last (some i))
    (hPrev : prev' = update prev i (some last)) :
    Linked next' prev' head (path ++ [last] ++ [i]) := by
  subst hNext hPrev
  obtain ⟨hNodup, b, hSeg⟩ := h
  have hLast : last ∉ path := by
    have := nodup_append.mp hNodup
    simp at this
    tauto
  have hKeep : ∀ {f : Nat → Option Nat} {v : Option Nat}, ∀ j ∈ path ++ [last], update f i v j = f j :=
    fun j hj => update_of_ne (ne_of_mem_of_not_mem hj hFresh) _ _
  refine ⟨nodup_append.mpr ⟨hNodup, nodup_singleton i, ?_⟩, some i, ?_⟩
  · intro a ha b hb
    rw [mem_singleton.mp hb]
    exact fun he => hFresh (he ▸ ha)
  refine seg_append.mpr ⟨_, _, ?_, rfl, update_self .., rfl, ?_⟩
  · exact (hSeg.congr (fun j hj => hKeep j hj) (fun j hj => hKeep j hj)).setEnd _ hLast
  · have hne : i ≠ last := fun he => hFresh (by simp [he])
    rw [update_of_ne hne, update_self]

section

variable (next prev : Nat → Option Nat)

def unlinkHead (head : Option Nat) (i : Nat) : Option Nat :=
  match prev i with
  | some _ => head
  | none => next i

def unlinkNext (i : Nat) : Nat → Option Nat :=
  match prev i with
  | some p => update (update next p (next i)) i none
  | none => update next i none

def unlinkPrev (i : Nat) : Nat → Option Nat :=
  match next i with
  | some n => update (update prev n (prev i)) i none
  | none => update prev i none

end

theorem unlink_left {head : Option Nat}
    (h : Seg next prev none head l back (some i)) (hBack : prev i = back) (hNodup : (l ++ [i]).Nodup)
    (prev' : Nat → Option Nat) (hPrev : ∀ j ∈ l, prev' j = prev j) :
    Seg (unlinkNext next prev i) prev' none (unlinkHead next prev head i) l back (next i) := by
  have hi : i ∉ l := by
    intro hi
    have := nodup_append.mp hNodup
    simp at this
    tauto
  rcases eq_nil_or_concat' l with rfl | ⟨l, p, rfl⟩
  · obtain ⟨rfl, rfl⟩ := h
    simp only [unlinkHead, hBack]
    exact ⟨rfl, rfl⟩
  obtain ⟨b, c, _, _, _, hb, _⟩ := seg_append.mp h
  subst hb
  have hp : p ∉ l := by
    have := nodup_append.mp (nodup_append.mp hNodup).1
    simp at this
    tauto
  simp only [unlinkHead, unlinkNext, hBack]
  refine ((h.setEnd _ hp).congr ?_ hPrev)
  intro j hj
  exact update_of_ne (ne_of_mem_of_not_mem hj hi) _ _

theorem unlink_right {last : Option Nat}
    (h : Seg next prev (some i) (next i) r last none) (hBack : prev i = back) (hNodup : (i :: r).Nodup)
    (next' : Nat → Option Nat) (hNext : ∀ j ∈ r, next' j = next j) :
    ∃ last', Seg next' (unlinkPrev next prev i) back (next i) r last' none := by
  obtain ⟨hi, hr⟩ := nodup_cons.mp hNodup
  cases r with
  | nil => exact ⟨back, rfl, h.2⟩
  | cons n r =>
    have hn : next i = some n := h.1
    rw [hn] at h ⊢
    refine ⟨last, ?_⟩
    simp only [unlinkPrev, hn, hBack]
    refine ((h.setStart back (nodup_cons.mp hr).1).congr hNext ?_)
    intro j hj
    exact update_of_ne (ne_of_mem_of_not_mem hj hi) _ _

theorem Linked.unlink (h : Linked next prev head (l ++ i :: r)) :
    Linked (unlinkNext next prev i) (unlinkPrev next prev i) (unlinkHead next prev head i) (l ++ r) := by
  obtain ⟨hNodup, _, hSeg⟩ := h
  obtain ⟨back, _, hLeft, hCur, hBack, hRight⟩ := seg_append.mp hSeg
  subst hCur
  have hSplit := nodup_append.mp hNodup
  have hiL : i ∉ l := fun hi => hSplit.2.2 i hi i mem_cons_self rfl
  have hiR : i ∉ r := (nodup_cons.mp hSplit.2.1).1
  have hDisjoint : ∀ j ∈ l, ∀ k ∈ r, j ≠ k := fun j hj k hk => hSplit.2.2 j hj k (mem_cons_of_mem i hk)
  have hPrevL : ∀ j ∈ l, unlinkPrev next prev i j = prev j := by
    intro j hj
    have hji : j ≠ i := fun he => hiL (he ▸ hj)
    unfold unlinkPrev
    cases hn : next i with
    | some n =>
      have hn' : n ∈ r := by
        cases r with
        | nil => rw [hRight.2] at hn; cases hn
        | cons k r => rw [hRight.1] at hn; cases hn; exact mem_cons_self
      exact (update_of_ne hji _ _).trans (update_of_ne (hDisjoint j hj n hn') _ _)
    | none => exact update_of_ne hji _ _
  have hNextR : ∀ j ∈ r, unlinkNext next prev i j = next j := by
    intro j hj
    have hji : j ≠ i := fun he => hiR (he ▸ hj)
    unfold unlinkNext
    cases hp : prev i with
    | some p =>
      have hp' : p ∈ l := by
        rcases eq_nil_or_concat' l with rfl | ⟨l, q, rfl⟩
        · rw [hBack, ← hLeft.1] at hp; cases hp
        obtain ⟨b, c, _, _, _, hb, _⟩ := seg_append.mp hLeft
        rw [hBack, ← hb] at hp
        cases hp
        simp
      exact (update_of_ne hji _ _).trans (update_of_ne (hDisjoint p hp' j hj).symm _ _)
    | none => exact update_of_ne hji _ _
  have hNodup' : (l ++ r).Nodup := nodup_append.mpr ⟨hSplit.1, (nodup_cons.mp hSplit.2.1).2, hDisjoint⟩
  have hNodupL : (l ++ [i]).Nodup := nodup_append.mpr ⟨hSplit.1, nodup_singleton i, fun j hj k hk => by
      rw [mem_singleton.mp hk]; exact fun he => hiL (he ▸ hj)⟩
  obtain ⟨_, hRight'⟩ := unlink_right hRight hBack hSplit.2.1 _ hNextR
  exact ⟨hNodup', _, seg_append.mpr ⟨back, _, unlink_left hLeft hBack hNodupL _ hPrevL, hRight'⟩⟩

theorem Linked.unlink_erase (h : Linked next prev head path) (hi : i ∈ path) :
    Linked (unlinkNext next prev i) (unlinkPrev next prev i) (unlinkHead next prev head i) (path.erase i) := by
  obtain ⟨l, r, rfl⟩ := append_of_mem hi
  have hLeft : i ∉ l := fun hl => (nodup_append.mp h.1).2.2 i hl i mem_cons_self rfl
  rw [erase_append_right _ hLeft, erase_cons_head]
  exact h.unlink

/-! ## The neighbours of a cell -/

variable {j : Nat}

theorem Linked.pushPrev_of_notMem (h : Linked next prev head path)
    (hj : j ∉ path) (hji : j ≠ i) : pushPrev prev head i j = prev j := by
  cases path with
  | nil =>
    rw [h.head_eq]
    exact update_of_ne hji _ _
  | cons first path =>
    rw [h.head_eq]
    have hFirst : j ≠ first := (ne_of_mem_of_not_mem mem_cons_self hj).symm
    exact (update_of_ne hFirst _ _).trans (update_of_ne hji _ _)

theorem Seg.back_cases (h : Seg next prev none cur path back' cur') :
    path = [] ∧ back' = none ∧ cur = cur' ∨ ∃ q ∈ path, back' = some q := by
  rcases eq_nil_or_concat' path with rfl | ⟨_, q, rfl⟩
  · exact .inl ⟨rfl, h.1.symm, h.2⟩
  · obtain ⟨_, _, _, _, _, hBack, _⟩ := seg_append.mp h
    exact .inr ⟨q, mem_append_right _ mem_cons_self, hBack.symm⟩

variable (h : Linked next prev head path)

include h

variable (hi : i ∈ path)
include hi

theorem Linked.at : ∃ l r, path = l ++ i :: r ∧ Seg next prev none head l (prev i) (some i) ∧
      ∃ last, Seg next prev (some i) (next i) r last none := by
  obtain ⟨l, r, rfl⟩ := append_of_mem hi
  obtain ⟨_, last, hSeg⟩ := h
  obtain ⟨_, _, hLeft, rfl, hBack, hRight⟩ := seg_append.mp hSeg
  exact ⟨l, r, rfl, hBack ▸ hLeft, last, hRight⟩

theorem Linked.head_of_prev (hPrev : prev i = none) : head = some i := by
  obtain ⟨l, r, -, hLeft, -⟩ := h.at hi
  rcases hLeft.back_cases with ⟨-, -, hHead⟩ | ⟨q, -, hBack⟩
  · exact hHead
  · cases hPrev.symm.trans hBack

theorem Linked.unlinkNext_of_notMem (hj : j ∉ path) : unlinkNext next prev i j = next j := by
  obtain ⟨l, r, rfl, hLeft, -⟩ := h.at hi
  have hji : j ≠ i := (ne_of_mem_of_not_mem hi hj).symm
  rcases hLeft.back_cases with ⟨-, hBack, -⟩ | ⟨q, hq, hBack⟩
  · rw [unlinkNext, hBack]
    exact update_of_ne hji _ _
  · have hjq : j ≠ q := (ne_of_mem_of_not_mem (mem_append_left _ hq) hj).symm
    rw [unlinkNext, hBack]
    exact (update_of_ne hji _ _).trans (update_of_ne hjq _ _)

theorem Linked.unlinkPrev_of_notMem (hj : j ∉ path) : unlinkPrev next prev i j = prev j := by
  obtain ⟨l, r, rfl, -, _, hRight⟩ := h.at hi
  have hji : j ≠ i := (ne_of_mem_of_not_mem hi hj).symm
  cases r with
  | nil =>
    rw [unlinkPrev, hRight.2]
    exact update_of_ne hji _ _
  | cons q r =>
    have hjq : j ≠ q := (ne_of_mem_of_not_mem (mem_append_right l (mem_cons_of_mem i mem_cons_self)) hj).symm
    rw [unlinkPrev, hRight.1]
    exact (update_of_ne hji _ _).trans (update_of_ne hjq _ _)

end LuvFlicker.IndexList
