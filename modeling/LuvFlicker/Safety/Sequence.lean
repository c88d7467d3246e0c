import LuvFlicker.Lib.Run
import LuvFlicker.Safety.SequenceTracker

/-!
# Missing ranges

The tracker keeps the size of the latest gap and whether it waits for a
retransmission. Beside it stand the ranges that were reported missing and those of
them that wait.
-/

namespace LuvFlicker

open Run List

/-! ## The ranges -/

inductive SequenceCall where
  | observe (sequence : UInt64)
  | acknowledge (firstMissing lastMissing : UInt64)
  | reset
  deriving DecidableEq, Repr

inductive SequenceReply where
  | observed (result : SequenceResult)
  | acknowledged (ok : Bool)
  | void
  deriving DecidableEq, Repr

/-- The tracker with the ranges reported missing since the last reset, those that still wait for a retransmission, the
latest first, and whether a fatal gap was among them. -/
structure TrackedFeed where
  tracker : SequenceTracker := {}
  reported : List (UInt64 × UInt64) := []
  missing : List (UInt64 × UInt64) := []
  fatal : Bool := false
  deriving DecidableEq, Repr

namespace TrackedFeed

open SequenceTracker

section

variable (t : SequenceTracker)

def gapBefore (sequence : UInt64) : UInt64 × UInt64 := (t.next, sequence - 1)

def Skips (sequence : UInt64) : Prop := t.initialized = true ∧ t.next < sequence

instance (sequence : UInt64) : Decidable (Skips t sequence) := inferInstanceAs (Decidable (_ ∧ _))

end

def noteMissing (f : TrackedFeed) (sequence : UInt64) : TrackedFeed :=
  let range := gapBefore f.tracker sequence
  match classOf (sequence - f.tracker.next) with
  | .kRecoverable => { f with reported := range :: f.reported, missing := range :: f.missing }
  | _ => { f with reported := range :: f.reported, fatal := true }

section

variable (call : SequenceCall)

def step (f : TrackedFeed) : SequenceReply × TrackedFeed :=
  match call with
  | .observe sequence =>
    let (result, tracker) := f.tracker.observe sequence
    let noted := if result = .kGap then f.noteMissing sequence else f
    (.observed result, { noted with tracker := tracker })
  | .acknowledge firstMissing lastMissing =>
    let (ok, tracker) := f.tracker.acknowledgeRetransmit firstMissing lastMissing
    let missing := if ok then f.missing.erase (firstMissing, lastMissing) else f.missing
    (.acknowledged ok, { f with tracker := tracker, missing := missing })
  | .reset => (.void, { tracker := f.tracker.reset })

structure Told (f : TrackedFeed) : Prop where
  invalid : (step call f).2.fatal = true → (step call f).2.tracker.invalid = true
  pending : (step call f).2.tracker.gapPending = true ↔ (step call f).2.missing ≠ []
  acknowledged : ∀ first last, call = .acknowledge first last → (step call f).1 = .acknowledged true →
    (first, last) ∈ f.reported

/-- A recoverable gap comes only while there was no fatal one, a fatal gap only while no range waits, and an
acknowledgement of the size of the latest gap only if that gap is the one range that waits, and is the range it names. -/
def Distinct (f : TrackedFeed) : Prop :=
  match call with
  | .observe sequence => Skips f.tracker sequence →
    if classOf (sequence - f.tracker.next) = .kRecoverable then f.fatal = false else f.missing = []
  | .acknowledge first last => ∀ range ∈ f.missing.head?, first ≤ last → extent first last = extent range.1 range.2 →
    f.missing = [(first, last)]
  | .reset => True

end

structure Inv (f : TrackedFeed) : Prop where
  invalid : f.fatal = true → f.tracker.invalid = true
  pending : f.tracker.gapPending = true ↔ f.missing ≠ []
  size : ∀ range ∈ f.missing.head?, f.tracker.gapSize = extent range.1 range.2
  reported : ∀ range ∈ f.missing, range ∈ f.reported

variable {f : TrackedFeed} {t : SequenceTracker} {sequence : UInt64}

theorem observe_of_skips (h : Skips t sequence) : t.observe sequence = (.kGap, t.noteGap sequence) := by
  have hNe : sequence ≠ t.next := (UInt64.ne_of_lt h.2).symm
  rw [observe, h.1, if_neg (by decide), if_neg hNe, if_neg (UInt64.not_lt.mpr (UInt64.le_of_lt h.2))]

theorem observe_of_not_skips (h : ¬ Skips t sequence) :
    (t.observe sequence).1 ≠ .kGap ∧ (t.observe sequence).2.gapSize = t.gapSize ∧
      (t.observe sequence).2.gapPending = t.gapPending ∧ (t.observe sequence).2.invalid = t.invalid := by
  rw [observe]
  split
  · exact ⟨nofun, rfl, rfl, rfl⟩
  rename_i hInitialized
  split
  · exact ⟨nofun, rfl, rfl, rfl⟩
  rename_i hNe
  split
  · refine ⟨?_, rfl, rfl, rfl⟩
    split <;> nofun
  rename_i hNotBelow
  rw [Bool.not_eq_true', Bool.not_eq_false] at hInitialized
  refine absurd ⟨hInitialized, ?_⟩ h
  exact UInt64.lt_of_le_of_ne (UInt64.not_lt.mp hNotBelow) (Ne.symm hNe)

theorem step_observe_of_not_skips (h : ¬ Skips f.tracker sequence) :
    (step (.observe sequence) f).2 = { f with tracker := (f.tracker.observe sequence).2 } := by
  rw [step]
  dsimp only
  rw [if_neg (observe_of_not_skips h).1]

theorem step_observe_of_skips (h : Skips f.tracker sequence) :
    (step (.observe sequence) f).2 = { f.noteMissing sequence with tracker := f.tracker.noteGap sequence } := by
  rw [step, observe_of_skips h]
  rfl

theorem classOf_cases (gap : UInt64) : classOf gap = .kRecoverable ∨ classOf gap = .kFatal := by
  rw [classOf]
  split
  · exact .inl rfl
  · exact .inr rfl

theorem accepts_iff (t : SequenceTracker) (first last : UInt64) : (t.acknowledgeRetransmit first last).1 = true ↔
    t.gapPending = true ∧ first ≤ last ∧ extent first last = t.gapSize := by
  rw [acknowledgeRetransmit]
  split
  next hRefused =>
    refine iff_of_false Bool.false_ne_true ?_
    rintro ⟨hPending, hLe, hSize⟩
    rw [hPending] at hRefused
    rcases hRefused with hFalse | hGt | hNe
    · cases hFalse
    · exact UInt64.not_le.mpr hGt hLe
    · exact hNe hSize
  next hAccepted =>
    rw [not_or, not_or, Bool.not_eq_true', Bool.not_eq_false, not_not] at hAccepted
    exact iff_of_true rfl ⟨hAccepted.1, UInt64.not_lt.mp hAccepted.2.1, hAccepted.2.2⟩

variable {first last : UInt64}

theorem acknowledge_of_not_accepts
    (h : (t.acknowledgeRetransmit first last).1 ≠ true) : t.acknowledgeRetransmit first last = (false, t) := by
  rw [acknowledgeRetransmit] at h ⊢
  split
  · rfl
  next hAccepted =>
    rw [if_neg hAccepted] at h
    exact absurd rfl h

theorem acknowledge_of_accepts
    (h : (t.acknowledgeRetransmit first last).1 = true) : t.acknowledgeRetransmit first last =
      (true, { t with gapPending := false, gapClass := .kNone, gapSize := 0 }) := by
  rw [acknowledgeRetransmit] at h ⊢
  split
  next hRefused =>
    rw [if_pos hRefused] at h
    cases h
  · rfl

theorem Inv.accepts_iff (h : f.Inv) (first last : UInt64) : (f.tracker.acknowledgeRetransmit first last).1 = true ↔
    ∃ range ∈ f.missing.head?, first ≤ last ∧ extent first last = extent range.1 range.2 := by
  rw [TrackedFeed.accepts_iff]
  constructor
  · rintro ⟨hPending, hLe, hSize⟩
    obtain ⟨range, hRange⟩ := Option.isSome_iff_exists.mp (isSome_head?.mpr (h.pending.mp hPending))
    exact ⟨_, hRange, hLe, hSize.trans (h.size _ hRange)⟩
  rintro ⟨range, hRange, hLe, hSize⟩
  refine ⟨h.pending.mpr ?_, hLe, hSize.trans (h.size _ hRange).symm⟩
  intro hNil
  rw [hNil] at hRange
  cases hRange

/-! ## One call -/

theorem step_of_recoverable (hSkips : Skips f.tracker sequence)
    (hClass : classOf (sequence - f.tracker.next) = .kRecoverable) :
    let next := (step (.observe sequence) f).2
    next.tracker.gapPending = true ∧ next.tracker.invalid = false ∧ next.tracker.gapSize = sequence - f.tracker.next ∧
      next.missing = gapBefore f.tracker sequence :: f.missing ∧
      next.reported = gapBefore f.tracker sequence :: f.reported ∧ next.fatal = f.fatal := by
  rw [step_observe_of_skips hSkips, noteMissing, noteGap, hClass]
  exact ⟨rfl, rfl, rfl, rfl, rfl, rfl⟩

theorem step_of_fatal (hSkips : Skips f.tracker sequence) (hClass : classOf (sequence - f.tracker.next) = .kFatal) :
    let next := (step (.observe sequence) f).2
    next.tracker.gapPending = false ∧ next.tracker.invalid = true ∧ next.missing = f.missing ∧
      next.reported = gapBefore f.tracker sequence :: f.reported := by
  rw [step_observe_of_skips hSkips, noteMissing, noteGap, hClass]
  exact ⟨rfl, rfl, rfl, rfl⟩

theorem told_observe_iff (h : f.Inv) (sequence : UInt64) :
    Told (.observe sequence) f ↔ Distinct (.observe sequence) f := by
  by_cases hSkips : Skips f.tracker sequence
  · rw [Distinct, forall_prop_of_true hSkips]
    rcases classOf_cases (sequence - f.tracker.next) with hClass | hClass
    · obtain ⟨hPending, hInvalid, _, hMissing, _, hFatal⟩ := step_of_recoverable hSkips hClass
      rw [if_pos hClass]
      constructor
      · intro hTold
        rw [← Bool.not_eq_true]
        intro hSeen
        rw [← hFatal] at hSeen
        exact Bool.false_ne_true (hInvalid.symm.trans (hTold.invalid hSeen))
      · intro hNone
        refine ⟨fun hSeen => ?_, ?_, nofun⟩
        · rw [hFatal, hNone] at hSeen
          cases hSeen
        · rw [hMissing]
          exact iff_of_true hPending (cons_ne_nil _ _)
    · obtain ⟨hPending, hInvalid, hMissing, _⟩ := step_of_fatal hSkips hClass
      rw [if_neg (by rw [hClass]; nofun)]
      constructor
      · intro hTold
        by_contra hWaits
        rw [← hMissing] at hWaits
        exact Bool.false_ne_true (hPending.symm.trans (hTold.pending.mpr hWaits))
      · intro hNone
        refine ⟨fun _ => hInvalid, ?_, nofun⟩
        rw [hMissing, hNone, hPending]
        exact iff_of_false Bool.false_ne_true fun hNe => hNe rfl
  · refine iff_of_true ⟨?_, ?_, nofun⟩ fun hSkip => absurd hSkip hSkips
    · rw [step_observe_of_not_skips hSkips]
      exact fun hFatal => (observe_of_not_skips hSkips).2.2.2.trans (h.invalid hFatal)
    rw [step_observe_of_not_skips hSkips]
    rw [(observe_of_not_skips hSkips).2.2.1]
    exact h.pending

theorem step_of_accepts (h : (f.tracker.acknowledgeRetransmit first last).1 = true) :
    step (.acknowledge first last) f = (.acknowledged true, { f with
      tracker := { f.tracker with gapPending := false, gapClass := .kNone, gapSize := 0 },
      missing := f.missing.erase (first, last) }) := by
  rw [step, acknowledge_of_accepts h]
  rfl

theorem step_of_not_accepts (h : (f.tracker.acknowledgeRetransmit first last).1 ≠ true) :
    step (.acknowledge first last) f = (.acknowledged false, f) := by
  rw [step, acknowledge_of_not_accepts h]
  rfl

section

variable (h : f.Inv)
include h

theorem missing_of_accepts (hDistinct : Distinct (.acknowledge first last) f)
    (hAccepts : (f.tracker.acknowledgeRetransmit first last).1 = true) : f.missing = [(first, last)] := by
  obtain ⟨range, hRange, hLe, hSize⟩ := (h.accepts_iff _ last).mp hAccepts
  exact hDistinct _ hRange hLe hSize

theorem told_acknowledge_iff (first last : UInt64) :
    Told (.acknowledge first last) f ↔ Distinct (.acknowledge first last) f := by
  by_cases hAccepts : (f.tracker.acknowledgeRetransmit first last).1 = true
  · constructor
    · intro hTold range hRange _ _
      have hErased : f.missing.erase (first, last) = [] := by
        by_contra hLeft
        have hPending := hTold.pending
        rw [step_of_accepts hAccepts] at hPending
        exact Bool.false_ne_true (hPending.mpr hLeft)
      rcases erase_eq_nil_iff.mp hErased with hNil | hOnly
      · rw [hNil] at hRange
        cases hRange
      · exact hOnly
    · intro hDistinct
      have hOnly := missing_of_accepts h hDistinct hAccepts
      refine ⟨?_, ?_, fun first' last' hCall _ => ?_⟩
      · rw [step_of_accepts hAccepts]
        exact h.invalid
      · rw [step_of_accepts hAccepts, hOnly]
        exact iff_of_false Bool.false_ne_true fun hLeft => hLeft (erase_cons_head ..)
      · cases hCall
        refine h.reported _ ?_
        rw [hOnly]
        exact mem_singleton_self _
  · refine iff_of_true ⟨?_, ?_, ?_⟩ fun range hRange hLe hSize => ?_
    · rw [step_of_not_accepts hAccepts]
      exact h.invalid
    · rw [step_of_not_accepts hAccepts]
      exact h.pending
    · rw [step_of_not_accepts hAccepts]
      nofun
    · exact absurd ((h.accepts_iff _ last).mpr ⟨_, hRange, hLe, hSize⟩) hAccepts

theorem told_iff (call : SequenceCall) : Told call f ↔ Distinct call f := by
  cases call with
  | observe sequence => exact told_observe_iff h _
  | acknowledge first last => exact told_acknowledge_iff h _ last
  | reset => exact iff_of_true ⟨nofun, iff_of_false nofun fun hNe => hNe rfl, nofun⟩ trivial

theorem ranges_observe (hDistinct : Distinct (.observe sequence) f) :
    let next := (step (.observe sequence) f).2
    (∀ range ∈ next.missing.head?, next.tracker.gapSize = extent range.1 range.2) ∧
      ∀ range ∈ next.missing, range ∈ next.reported := by
  dsimp only
  by_cases hSkips : Skips f.tracker sequence
  · have hHere := hDistinct hSkips
    rcases classOf_cases (sequence - f.tracker.next) with hClass | hClass
    · obtain ⟨_, _, hSize, hMissing, hReported, _⟩ := step_of_recoverable hSkips hClass
      rw [hSize, hMissing, hReported]
      constructor
      · rintro range hRange
        cases hRange
        rw [extent, gapBefore]
        grind
      intro range hRange
      rcases mem_cons.mp hRange with rfl | hOld
      · exact mem_cons_self
      · exact mem_cons_of_mem _ (h.reported _ hOld)
    · obtain ⟨_, _, hMissing, _⟩ := step_of_fatal hSkips hClass
      rw [if_neg (by rw [hClass]; nofun)] at hHere
      rw [hMissing, hHere]
      exact ⟨nofun, nofun⟩
  · rw [step_observe_of_not_skips hSkips]
    refine ⟨fun range hRange => ?_, h.reported⟩
    exact (observe_of_not_skips hSkips).2.1.trans (h.size _ hRange)

theorem ranges_acknowledge (hDistinct : Distinct (.acknowledge first last) f) :
    let next := (step (.acknowledge first last) f).2
    (∀ range ∈ next.missing.head?, next.tracker.gapSize = extent range.1 range.2) ∧
      ∀ range ∈ next.missing, range ∈ next.reported := by
  by_cases hAccepts : (f.tracker.acknowledgeRetransmit first last).1 = true
  · rw [step_of_accepts hAccepts, missing_of_accepts h hDistinct hAccepts, erase_cons_head]
    exact ⟨nofun, nofun⟩
  · rw [step_of_not_accepts hAccepts]
    exact ⟨h.size, h.reported⟩

theorem inv_step {call : SequenceCall} (hDistinct : Distinct call f) : (step call f).2.Inv := by
  have hTold := (told_iff h call).mpr hDistinct
  cases call with
  | observe sequence =>
    obtain ⟨hSize, hReported⟩ := ranges_observe h hDistinct
    exact ⟨hTold.invalid, hTold.pending, hSize, hReported⟩
  | acknowledge first last =>
    obtain ⟨hSize, hReported⟩ := ranges_acknowledge h hDistinct
    exact ⟨hTold.invalid, hTold.pending, hSize, hReported⟩
  | reset => exact ⟨hTold.invalid, hTold.pending, nofun, nofun⟩

end

/-- **Gaps are not forgotten.** The tracker tells every fatal gap, tells that a range waits exactly while one does, and
takes acknowledgements of reported ranges only, along exactly the runs in which gaps do not overlap and an
acknowledgement of the right size is one of the right range. -/
theorem told_run_iff (calls : List SequenceCall) : Always step Told calls {} ↔ Always step Distinct calls {} := by
  have hStart : ({} : TrackedFeed).Inv := ⟨nofun, iff_of_false nofun fun hNe => hNe rfl, nofun, nofun⟩
  have hAny : Always step (fun _ _ => True) calls {} := always_of_forall (fun _ _ => trivial) _ _
  exact hAny.iff_of_invariant Inv (fun call f _ hInv => told_iff hInv call)
    (fun call f _ hDistinct hInv => inv_step hInv hDistinct) hStart

def overlapping : List SequenceCall := [.observe 1, .observe 3, .observe 5, .acknowledge 40 40]

/-- The acknowledgement is taken and no gap is pending, although the numbers 2 and 4 are still missing; and after a fatal
gap a recoverable one makes the feed valid again. -/
theorem overlapping_forgotten :
    (step (.acknowledge 40 40) (final step [.observe 1, .observe 3, .observe 5] {})).1 = .acknowledged true ∧
      (final step overlapping {}).tracker.gapPending = false ∧ (final step overlapping {}).missing = [(4, 4), (2, 2)] ∧
      (final step [.observe 1, .observe 200] {}).tracker.invalid = true ∧
      (final step [.observe 1, .observe 200, .observe 202] {}).tracker.invalid = false := by
  decide

end TrackedFeed

end LuvFlicker
