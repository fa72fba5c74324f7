import Mathlib.Data.List.Chain
import SecureRtp.Proofs.Rollover.Round

/-!
# `SecureRtp.Proofs.Rollover.Loss`: packets that are lost

The packets arrive in the order in which they were sent, and some do not arrive at
all. A stream with losses is an increasing list of true numbers, whose gaps are as long
as the losses. `InOrder` limits the gaps: a gap is shorter than a round, and too short
to reach from a low number to a high one of the same round.

In such a stream the counter never goes back, and it never begins a round that the
stream has not begun. It can only fail to notice one. `Unnoticed` says in which steps it
does: the step goes over the seam, not onto the number zero, and it does not lead from a
high number to a low one. Both ends matter, so a loss in front of the seam does the same
harm as a loss behind it.

* `between_of_inOrder`: the decision of the counter in one step.
* `slip_of_inOrder`: what the step costs, which is a round if it is unnoticed.
* `lag_run_inOrder`: after any list of packets in order the counter is behind by the
  number of the steps that were not noticed.
-/

set_option autoImplicit false

namespace SecureRtp

/-- How long a gap may be between packets that arrive in order. -/
def gapLimit (maxDisorder : UInt16) : Int :=
  min 65535 (65536 - 2 * maxDisorder.toNat)

/-- The packet `j` was sent after the packet `i`, with no more than the longest gap in
between. -/
def InOrder (maxDisorder : UInt16) (i j : Int) : Prop :=
  i < j ∧ j - i ≤ gapLimit maxDisorder

instance (maxDisorder : UInt16) (i j : Int) : Decidable (InOrder maxDisorder i j) :=
  inferInstanceAs (Decidable (_ ∧ _))

/-- The step from the packet `i` to the packet `j` begins a round behind its number zero,
and either it lands on a number that is no longer low, or it comes from one that is not
yet high. -/
def Unnoticed (maxDisorder : UInt16) (i j : Int) : Prop :=
  roundOf i < roundOf j ∧ 0 < j % 65536 ∧
    (maxDisorder.toNat ≤ j % 65536 ∨ i % 65536 ≤ 65535 - maxDisorder.toNat)

instance (maxDisorder : UInt16) (i j : Int) : Decidable (Unnoticed maxDisorder i j) :=
  inferInstanceAs (Decidable (_ ∧ _))

/-- The number of the steps in a list of packets that are not noticed. -/
def unnoticedCount (maxDisorder : UInt16) (indices : List Int) : Nat :=
  (indices.zip indices.tail).countP fun step => Unnoticed maxDisorder step.1 step.2

/-! ### One step -/

variable {maxDisorder : UInt16} {i j : Int}

/-- A step in order stays in the round or goes to the next one. -/
theorem roundOf_of_inOrder (h : InOrder maxDisorder i j) :
    roundOf j = roundOf i ∨ roundOf j = roundOf i + 1 := by
  obtain ⟨hforth, hgap⟩ := h
  rw [gapLimit] at hgap
  rw [roundOf, roundOf]
  omega

/-- A step in order that is not noticed loses a round, and no other step slips. -/
theorem slip_of_inOrder (hlimit : maxDisorder < 0x8000) (h : InOrder maxDisorder i j) :
    slip maxDisorder i j = if Unnoticed maxDisorder i j then 1 else 0 := by
  have hlt : maxDisorder.toNat < 32768 := UInt16.lt_iff_toNat_lt.mp hlimit
  obtain ⟨hforth, hgap⟩ := h
  rw [gapLimit] at hgap
  -- The limit of the gap is what keeps a step within a round from going from low to high.
  by_cases hunnoticed : Unnoticed maxDisorder i j
  · rw [if_pos hunnoticed]
    rw [Unnoticed, roundOf, roundOf] at hunnoticed
    rcases slip_cases maxDisorder i j with h | h | h | h | h <;> omega
  · rw [if_neg hunnoticed]
    rw [Unnoticed, roundOf, roundOf] at hunnoticed
    rcases slip_cases maxDisorder i j with h | h | h | h | h <;> omega

/-- The decision of the counter in a step in order: it counts the rounds that begin, but
for those that it does not notice. -/
theorem between_of_inOrder (hlimit : maxDisorder < 0x8000) (h : InOrder maxDisorder i j) :
    Adjustment.between (sequenceOf i) (sequenceOf j) maxDisorder
      = if roundOf j = roundOf i + 1 ∧ ¬ Unnoticed maxDisorder i j then .increment
        else .keep := by
  have hslip := slip_of_inOrder hlimit h
  rw [slip] at hslip
  generalize Adjustment.between (sequenceOf i) (sequenceOf j) maxDisorder = adjustment at hslip ⊢
  have hround := roundOf_of_inOrder h
  have hbegins : Unnoticed maxDisorder i j → roundOf i < roundOf j := fun h => h.1
  -- The slip of the step is known, and with the rounds it leaves one adjustment.
  cases adjustment with
  | keep =>
      rw [Adjustment.shift] at hslip
      rw [if_neg]
      rintro ⟨hnext, hnoticed⟩
      rw [if_neg hnoticed] at hslip
      omega
  | increment =>
      rw [Adjustment.shift] at hslip
      rw [if_pos]
      split at hslip
      · omega
      · rename_i hnoticed
        exact ⟨by omega, hnoticed⟩
  | decrement =>
      rw [Adjustment.shift] at hslip
      split at hslip
      · rename_i hunnoticed
        have := hbegins hunnoticed
        omega
      · omega

/-- A step in order onto the number zero is noticed. -/
theorem between_of_seam (hlimit : maxDisorder < 0x8000) (h : InOrder maxDisorder i j)
    (hseam : j % 65536 = 0) :
    Adjustment.between (sequenceOf i) (sequenceOf j) maxDisorder = .increment := by
  obtain ⟨hforth, hgap⟩ := id h
  rw [gapLimit] at hgap
  have hround : roundOf j = roundOf i + 1 := by
    rw [roundOf, roundOf]
    omega
  have hnoticed : ¬ Unnoticed maxDisorder i j := by
    rw [Unnoticed]
    omega
  rw [between_of_inOrder hlimit h, if_pos ⟨hround, hnoticed⟩]

/-! ### Any number of steps -/

/-- The sum of the slips is the number of the steps that are not noticed. -/
theorem totalSlip_eq_unnoticedCount (hlimit : maxDisorder < 0x8000) {indices : List Int}
    (hsteps : indices.IsChain (InOrder maxDisorder)) :
    totalSlip maxDisorder indices = unnoticedCount maxDisorder indices :=
  totalSlip_eq_countP (hsteps.imp fun _ _ => slip_of_inOrder hlimit)

/-- Packets in order, from a new counter whose first packet belongs to the round zero.
After every packet the counter is behind by the number of the steps so far that it did not
notice. No packet takes it back. A packet takes it on exactly when it begins the next round
and the step is noticed, which is sure when it is the packet with the number zero. -/
theorem lag_run_inOrder (maxDisorder : UInt16) (hlimit : maxDisorder < 0x8000) :
    ∃ fresh, RolloverCounter.new maxDisorder = .ok fresh ∧
      ∀ (before : List Int) (i : Int),
        (∀ first ∈ (before ++ [i]).head?, 0 ≤ first ∧ first < 65536) →
        (before ++ [i]).IsChain (InOrder maxDisorder) →
          let adjustment := (fresh.run (before.map sequenceOf)).adjustment (sequenceOf i)
          (roundOf i - (fresh.run ((before ++ [i]).map sequenceOf)).value.toNat) % 2 ^ 32
              = (unnoticedCount maxDisorder (before ++ [i]) : Int) % 2 ^ 32 ∧
          adjustment ≠ .decrement ∧
          (adjustment = .increment ↔ ∃ last ∈ before.getLast?,
            roundOf i = roundOf last + 1 ∧ ¬ Unnoticed maxDisorder last i) ∧
          (∀ last ∈ before.getLast?, sequenceOf i = 0 → adjustment = .increment) := by
  obtain ⟨fresh, hfresh, hvalue, hlast, hmax⟩ := RolloverCounter.exists_new hlimit
  refine ⟨fresh, hfresh, ?_⟩
  intro before i hfirst hsteps
  have hlag : (roundOf i - (fresh.run ((before ++ [i]).map sequenceOf)).value.toNat) % 2 ^ 32
      = (unnoticedCount maxDisorder (before ++ [i]) : Int) % 2 ^ 32 := by
    have hrun := RolloverCounter.tracks_run_fresh hlast hvalue fun first hmem =>
      (roundOf_eq_zero_iff first).mpr (hfirst first hmem)
    -- The arrears are the sum of the slips, and each slip is a step that was not noticed.
    rw [hmax, totalSlip_eq_unnoticedCount hlimit hsteps] at hrun
    have hbehind := hrun.value
    omega
  refine ⟨hlag, ?_⟩
  obtain rfl | ⟨earlier, last, rfl⟩ := List.eq_nil_or_concat' before
  · -- The first packet of all adjusts nothing.
    have hkeep : fresh.adjustment (sequenceOf i) = .keep := by
      rw [RolloverCounter.adjustment, hlast]
    simp [hkeep]
  · have hstep : InOrder maxDisorder last i := by
      rw [List.append_assoc] at hsteps
      exact (List.isChain_cons_cons.mp (List.IsChain.right_of_append hsteps)).1
    -- What the packet adjusts depends on the one before it alone.
    rw [List.map_append, List.map_singleton, RolloverCounter.adjustment_run_concat, hmax,
      List.getLast?_concat]
    have hdecision := between_of_inOrder hlimit hstep
    refine ⟨?_, ?_, ?_⟩
    · rw [hdecision]
      split <;> simp
    · rw [hdecision]
      simp
    · rintro _ ⟨⟩ hzero
      exact between_of_seam hlimit hstep ((sequenceOf_eq_iff i 0).mp hzero)

/-- The default limit. The first step goes over the seam onto the number 99, but from a
number that is not yet high; the last one lands on the number zero. The counter is behind
by one from the second packet on. -/
theorem lag_run_inOrder_default :
    RolloverCounter.defaultMaxDisorder < 0x8000 ∧
    [65400, 65635, 130000, 131072].IsChain (InOrder RolloverCounter.defaultMaxDisorder) ∧
    ∃ fresh, RolloverCounter.new RolloverCounter.defaultMaxDisorder = .ok fresh ∧
      (roundOf 131072
          - (fresh.run ([65400, 65635, 130000, 131072].map sequenceOf)).value.toNat) % 2 ^ 32
        = 1 ∧
      (fresh.run ([65400, 65635, 130000].map sequenceOf)).adjustment (sequenceOf 131072)
        = .increment := by
  refine ⟨by decide, by decide, ?_⟩
  obtain ⟨fresh, hfresh, hruns⟩ := lag_run_inOrder RolloverCounter.defaultMaxDisorder (by decide)
  obtain ⟨hlag, -, -, hseam⟩ := hruns [65400, 65635, 130000] 131072 (by decide) (by decide)
  exact ⟨fresh, hfresh, hlag, hseam 130000 rfl rfl⟩

end SecureRtp
