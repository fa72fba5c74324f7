import Mathlib.Data.List.Chain
import SecureRtp.Proofs.Rollover.Round

/-!
# `SecureRtp.Proofs.Rollover.Window`: the steps that the counter follows

A limit `D` for the disorder of packets is a number of the receiver's
settings. It is not the distance over which the counter is right. That
distance is `backwardReach`, which is `D` as long as the low numbers and the
high numbers are far enough apart, and shrinks to two where they nearly meet.
Forward the counter always takes one step (`forwardReach`), even with the
limit zero, because the number zero begins a round of its own accord.

* `slip_eq_zero`: no step within reach slips, wherever it starts and whichever
  way it crosses the seam.
* `tracks_run_of_withinReach`: hence a counter that is right stays right over
  any list of packets within reach.
* `reach_exact`: the counter on such a list, packet by packet, from any state
  and from a new counter; and one step too far on which it is wrong, for every
  limit.
-/

set_option autoImplicit false

namespace SecureRtp

/-- How far back the next packet may lie. -/
def backwardReach (maxDisorder : UInt16) : Int :=
  min (maxDisorder.toNat : Int) (65536 - 2 * maxDisorder.toNat)

/-- How far ahead the next packet may lie. -/
def forwardReach (maxDisorder : UInt16) : Int := max (backwardReach maxDisorder) 1

/-- The step from the packet `i` to the packet `j` is one that the counter
follows. -/
def WithinReach (maxDisorder : UInt16) (i j : Int) : Prop :=
  -backwardReach maxDisorder ≤ j - i ∧ j - i ≤ forwardReach maxDisorder

instance (maxDisorder : UInt16) (i j : Int) : Decidable (WithinReach maxDisorder i j) :=
  inferInstanceAs (Decidable (_ ∧ _))

/-- No step within reach slips. -/
theorem slip_eq_zero {maxDisorder : UInt16} (hlimit : maxDisorder < 0x8000) {i j : Int}
    (h : WithinReach maxDisorder i j) : slip maxDisorder i j = 0 := by
  have hlt : maxDisorder.toNat < 32768 := UInt16.lt_iff_toNat_lt.mp hlimit
  obtain ⟨hback, hforth⟩ := h
  rw [forwardReach, backwardReach] at hforth
  rw [backwardReach] at hback
  -- Each way of the decision is held against the places where the step can start and end.
  rcases slip_cases maxDisorder i j with h | h | h | h | h <;> omega

namespace RolloverCounter

/-- A counter that is right stays right over packets within reach. -/
theorem tracks_run_of_withinReach {counter : RolloverCounter} {i lag : Int}
    (hlimit : counter.maxDisorder < 0x8000) (h : counter.Tracks i lag) {indices : List Int}
    (hsteps : (i :: indices).IsChain (WithinReach counter.maxDisorder)) :
    (counter.run (indices.map sequenceOf)).Tracks
      ((i :: indices).getLast (List.cons_ne_nil _ _)) lag := by
  have hzero : totalSlip counter.maxDisorder (i :: indices) = 0 :=
    totalSlip_eq_zero _ _ (hsteps.imp fun _ _ => slip_eq_zero hlimit)
  have hrun := tracks_run h indices
  rwa [hzero, add_zero] at hrun

/-- The adjustment that the last packet of such a list makes is the
difference of the rounds. -/
theorem shift_adjustment_of_withinReach {counter : RolloverCounter} {i₀ lag : Int}
    (hlimit : counter.maxDisorder < 0x8000) (h : counter.Tracks i₀ lag) {before : List Int}
    {i : Int} (hsteps : (i₀ :: (before ++ [i])).IsChain (WithinReach counter.maxDisorder)) :
    ((counter.run (before.map sequenceOf)).adjustment (sequenceOf i)).shift
      = roundOf i - roundOf ((i₀ :: before).getLast (List.cons_ne_nil _ _)) := by
  have hsplit : ((i₀ :: before) ++ [i]).IsChain (WithinReach counter.maxDisorder) := hsteps
  have hreached := tracks_run_of_withinReach hlimit h hsplit.left_of_append
  have hstep : WithinReach counter.maxDisorder
      ((i₀ :: before).getLast (List.cons_ne_nil _ _)) i :=
    hsplit.rel_getLast_head_of_append (List.cons_ne_nil _ _) (List.cons_ne_nil _ _)
  -- The step has no slip, so the counter advances by the rounds of the stream.
  have hslip := slip_eq_zero hlimit hstep
  rw [hreached.adjustment_eq, maxDisorder_run]
  rw [slip] at hslip
  omega

/-- A new counter is right about packets within reach, if the first of them
belongs to the round zero. -/
theorem tracks_run_fresh_of_withinReach {counter : RolloverCounter}
    (hlimit : counter.maxDisorder < 0x8000) (hlast : counter.last = none)
    (hvalue : counter.value = 0) {before : List Int} {i : Int}
    (hfirst : ∀ first ∈ (before ++ [i]).head?, roundOf first = 0)
    (hsteps : (before ++ [i]).IsChain (WithinReach counter.maxDisorder)) :
    (counter.run ((before ++ [i]).map sequenceOf)).Tracks i 0 := by
  have hzero : totalSlip counter.maxDisorder (before ++ [i]) = 0 :=
    totalSlip_eq_zero _ _ (hsteps.imp fun _ _ => slip_eq_zero hlimit)
  have hrun := tracks_run_fresh hlast hvalue hfirst
  rwa [hzero] at hrun

end RolloverCounter

/-- One step further than the reach, and there is a place in the round where
the counter is wrong: at the seam, or where the low numbers meet the high
ones. -/
theorem exists_slip_beyond_reach {maxDisorder : UInt16} (hlimit : maxDisorder < 0x8000) :
    ∃ i : Int, 0 ≤ i ∧ i < 65536 ∧
      slip maxDisorder i (i + forwardReach maxDisorder + 1) ≠ 0 := by
  have hlt : maxDisorder.toNat < 32768 := UInt16.lt_iff_toNat_lt.mp hlimit
  rw [forwardReach, backwardReach]
  by_cases hmeet : maxDisorder.toNat ≤ 21845
  · -- From the last number of the round to the number `D`, which is no longer low.
    refine ⟨65535, by omega, by omega, fun hslip => ?_⟩
    rcases slip_cases maxDisorder 65535 _ with h | h | h | h | h <;> rw [hslip] at h <;> omega
  · -- From the highest low number to the lowest high one, within one round.
    refine ⟨maxDisorder.toNat - 1, by omega, by omega, fun hslip => ?_⟩
    rcases slip_cases maxDisorder (maxDisorder.toNat - 1) _ with h | h | h | h | h <;>
      rw [hslip] at h <;> omega

/-- The window of the counter. First, from any state: over packets within
reach each adjustment is the difference of the rounds, and the value follows
the rounds modulo `2 ^ 32`. Second, a new counter names the true number of
every packet modulo `2 ^ 48`, when the first one belongs to the round zero.
Third, for every limit there is a step forward, longer than the reach by one,
whose adjustment is not the difference of the rounds. -/
theorem reach_exact (maxDisorder : UInt16) (hlimit : maxDisorder < 0x8000) :
    (∀ (counter : RolloverCounter) (last : UInt16) (i₀ : Int) (before : List Int) (i : Int),
      counter.maxDisorder = maxDisorder → counter.last = some last →
      i₀ % 65536 = last.toNat →
      (i₀ :: (before ++ [i])).IsChain (WithinReach maxDisorder) →
        ((counter.run (before.map sequenceOf)).adjustment (sequenceOf i)).shift
            = roundOf i - roundOf ((i₀ :: before).getLast (List.cons_ne_nil _ _)) ∧
        ((counter.run ((before ++ [i]).map sequenceOf)).value.toNat : Int)
            = (counter.value.toNat + roundOf i - roundOf i₀) % 2 ^ 32) ∧
    (∃ fresh, RolloverCounter.new maxDisorder = .ok fresh ∧
      ∀ (before : List Int) (i : Int),
        (∀ first ∈ (before ++ [i]).head?, 0 ≤ first ∧ first < 65536) →
        (before ++ [i]).IsChain (WithinReach maxDisorder) →
          (fresh.run ((before ++ [i]).map sequenceOf)).index?.map (fun n => (n.toNat : Int))
            = some (i % 2 ^ 48)) ∧
    (∃ i : Int, 0 ≤ i ∧ i < 65536 ∧
      (Adjustment.between (sequenceOf i) (sequenceOf (i + forwardReach maxDisorder + 1))
          maxDisorder).shift
        ≠ roundOf (i + forwardReach maxDisorder + 1) - roundOf i) := by
  refine ⟨?_, ?_, ?_⟩
  · intro counter last i₀ before i hmax hlast hlow hsteps
    subst hmax
    -- The arrears of the given state are what its value lacks of the round of `i₀`.
    have hstart : counter.Tracks i₀ (roundOf i₀ - counter.value.toNat) := by
      refine ⟨?_, ?_⟩
      · rw [hlast, (sequenceOf_eq_iff i₀ last).mpr hlow]
      · have hlt := counter.value.toNat_lt
        omega
    have hend : (i₀ :: (before ++ [i])).getLast (List.cons_ne_nil _ _) = i :=
      List.getLast_concat (l := i₀ :: before)
    have hrun := RolloverCounter.tracks_run_of_withinReach hlimit hstart hsteps
    rw [hend] at hrun
    refine ⟨RolloverCounter.shift_adjustment_of_withinReach hlimit hstart hsteps, ?_⟩
    rw [hrun.value]
    congr 1
    omega
  · refine ⟨_, (RolloverCounter.new_eq_ok_iff maxDisorder _).mpr ⟨hlimit, rfl⟩, ?_⟩
    intro before i hfirst hsteps
    refine RolloverCounter.Tracks.toNat_index
      (RolloverCounter.tracks_run_fresh_of_withinReach hlimit rfl rfl ?_ hsteps)
    exact fun first hmem => (roundOf_eq_zero_iff first).mpr (hfirst first hmem)
  · obtain ⟨i, hlow, hhigh, hslip⟩ := exists_slip_beyond_reach hlimit
    refine ⟨i, hlow, hhigh, fun hshift => hslip ?_⟩
    rw [slip, hshift]
    omega

/-- The largest limit, where the reach is two. A counter that stands at the
packet `-1` with its value wrapped around goes over the seam, back, and over it
again, and a new counter goes below zero. -/
theorem reach_exact_largest_limit :
    (32767 : UInt16) < 0x8000 ∧
    [-1, 1, -1, 0].IsChain (WithinReach 32767) ∧
    (let counter : RolloverCounter := ⟨0xffffffff, some 65535, 32767⟩
     ((counter.run ([1, -1].map sequenceOf)).adjustment (sequenceOf 0)).shift
        = roundOf 0 - roundOf (-1) ∧
     ((counter.run ([1, -1, 0].map sequenceOf)).value.toNat : Int)
        = (0xffffffff + roundOf 0 - roundOf (-1)) % 2 ^ 32) ∧
    (∃ fresh, RolloverCounter.new 32767 = .ok fresh ∧
      (fresh.run ([1, -1].map sequenceOf)).index?.map (fun n => (n.toNat : Int))
        = some (-1 % 2 ^ 48)) := by
  have hreach := reach_exact 32767 (by decide)
  refine ⟨by decide, by decide, ?_, ?_⟩
  · exact hreach.1 ⟨0xffffffff, some 65535, 32767⟩ 65535 (-1) [1, -1] 0 rfl rfl (by decide)
      (by decide)
  · obtain ⟨fresh, hfresh, hindex⟩ := hreach.2.1
    exact ⟨fresh, hfresh, hindex [1] (-1) (by simp) (by decide)⟩

end SecureRtp
