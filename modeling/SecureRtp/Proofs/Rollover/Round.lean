import Mathlib.Data.Int.Cast.Lemmas
import SecureRtp.RolloverCounter

/-!
# `SecureRtp.Proofs.Rollover.Round`: the counter beside the true numbers

The sender numbers its packets by integers, and each packet carries the low
16 bits of its number. `roundOf` is the round of the sequence number that a
packet belongs to, `sequenceOf` the sequence number that it carries. The
receiver sees the second and wants the first.

The arrival model is a list of true numbers. `RolloverCounter.run` folds
`update` over the sequence numbers that they carry.

`slip` is what one step from a packet to the next one costs: the rounds that
the stream advances less the rounds that the counter advances. It is zero
where the counter is right. `RolloverCounter.Tracks` says that a counter
stands at a packet, a given number of rounds behind.

* `toNat_apply`: an adjustment is an addition modulo `2 ^ 32`.
* `shift_between`: the decision of the counter, on the true numbers.
* `slip_cases`: what one step can do, which all that is said of slips rests on.
* `totalSlip_eq_countP`: where every step loses one round or none, the slips
  add up to the number of the steps that lose one.
* `RolloverCounter.Tracks.update`: one packet adds its slip to the arrears.
* `RolloverCounter.tracks_run`: a list of packets adds the sum of the slips,
  whatever the packets are. What a stream has to be like for the sum to be
  zero is the matter of the modules that import this one.
-/

set_option autoImplicit false

namespace SecureRtp

/-! ### True numbers -/

/-- The round of the sequence number that the packet `i` of a stream belongs
to. -/
def roundOf (i : Int) : Int := i / 65536

/-- The sequence number that the packet `i` of a stream carries. -/
def sequenceOf (i : Int) : UInt16 := UInt16.ofInt i

/-- The sequence number of the packet `i` is the remainder of `i`, also when `i` is negative. -/
theorem toNat_sequenceOf (i : Int) : ((sequenceOf i).toNat : Int) = i % 65536 := by
  have hlow : 0 ≤ i % 65536 := Int.emod_nonneg i (by decide)
  have hhigh : i % 65536 < 65536 := Int.emod_lt_of_pos i (by decide)
  show (((i % 65536).toNat % 65536 : Nat) : Int) = i % 65536
  omega

/-- The packets that carry a sequence number are those whose number has it as
its low part. -/
theorem sequenceOf_eq_iff (i : Int) (sequence : UInt16) :
    sequenceOf i = sequence ↔ i % 65536 = sequence.toNat := by
  rw [← UInt16.toNat_inj, ← toNat_sequenceOf]
  exact Int.natCast_inj.symm

/-- The round zero. -/
theorem roundOf_eq_zero_iff (i : Int) : roundOf i = 0 ↔ 0 ≤ i ∧ i < 65536 := by
  rw [roundOf]
  omega

/-! ### Adjustments as numbers -/

/-- The rounds that an adjustment advances the counter by. -/
def Adjustment.shift : Adjustment → Int
  | keep => 0
  | increment => 1
  | decrement => -1

/-- An adjustment is an addition modulo `2 ^ 32`. -/
theorem Adjustment.toNat_apply (adjustment : Adjustment) (rollovers : UInt32) :
    ((adjustment.apply rollovers).toNat : Int)
      = (rollovers.toNat + adjustment.shift) % 2 ^ 32 := by
  have hlt := rollovers.toNat_lt
  -- Up from the largest value and down from zero, both sides wrap around.
  cases adjustment with
  | keep =>
      show (rollovers.toNat : Int) = (rollovers.toNat + 0) % 2 ^ 32
      omega
  | increment =>
      show ((rollovers + 1).toNat : Int) = (rollovers.toNat + 1) % 2 ^ 32
      rw [UInt32.toNat_add, UInt32.toNat_one]
      omega
  | decrement =>
      show ((rollovers - 1).toNat : Int) = (rollovers.toNat + -1) % 2 ^ 32
      rw [UInt32.toNat_sub, UInt32.toNat_one]
      omega

/-- Above this number the high ones begin. -/
theorem toNat_high (maxDisorder : UInt16) :
    (0xffff - maxDisorder).toNat = 65535 - maxDisorder.toNat := by
  have hlt := maxDisorder.toNat_lt
  rw [UInt16.toNat_sub_of_le _ _ (UInt16.le_iff_toNat_le.mpr (by
    show maxDisorder.toNat ≤ 65535
    omega))]
  rfl

/-- The decision of the counter in the step from the packet `i` to the packet
`j`, on the true numbers. The four cases are those of `between`, in its order. -/
theorem shift_between (maxDisorder : UInt16) (i j : Int) :
    (Adjustment.between (sequenceOf i) (sequenceOf j) maxDisorder).shift
      = if j % 65536 = 0 then (if maxDisorder.toNat < i % 65536 then 1 else 0)
        else if i % 65536 < maxDisorder.toNat ∧ 65535 - maxDisorder.toNat < j % 65536 then -1
        else if j % 65536 < maxDisorder.toNat ∧ 65535 - maxDisorder.toNat < i % 65536 then 1
        else 0 := by
  have hi := toNat_sequenceOf i
  have hj := toNat_sequenceOf j
  have hD := maxDisorder.toNat_lt
  have hzero : sequenceOf j = 0 ↔ j % 65536 = 0 := sequenceOf_eq_iff j 0
  -- Every condition is restated on the remainders before the cases are split, so that the
  -- two decisions branch together.
  simp only [Adjustment.between, UInt16.lt_iff_toNat_lt, toNat_high, hzero]
  split
  · have hlast : maxDisorder.toNat < (sequenceOf i).toNat ↔
        (maxDisorder.toNat : Int) < i % 65536 := by
      omega
    simp only [hlast]
    split <;> rfl
  · have hback : (sequenceOf i).toNat < maxDisorder.toNat ∧
          65535 - maxDisorder.toNat < (sequenceOf j).toNat ↔
        i % 65536 < maxDisorder.toNat ∧ 65535 - (maxDisorder.toNat : Int) < j % 65536 := by
      omega
    have hforth : (sequenceOf j).toNat < maxDisorder.toNat ∧
          65535 - maxDisorder.toNat < (sequenceOf i).toNat ↔
        j % 65536 < maxDisorder.toNat ∧ 65535 - (maxDisorder.toNat : Int) < i % 65536 := by
      omega
    simp only [hback, hforth]
    split
    · rfl
    · split <;> rfl

/-- The rounds that a counter with the limit `maxDisorder` falls behind in the
step from the packet `i` to the packet `j`. -/
def slip (maxDisorder : UInt16) (i j : Int) : Int :=
  roundOf j - roundOf i
    - (Adjustment.between (sequenceOf i) (sequenceOf j) maxDisorder).shift

/-- The five ways that a step can be decided, each with the places where it starts
and ends and with its slip. -/
theorem slip_cases (maxDisorder : UInt16) (i j : Int) :
    (j % 65536 = 0 ∧ maxDisorder.toNat < i % 65536 ∧
      slip maxDisorder i j = j / 65536 - i / 65536 - 1) ∨
    (j % 65536 = 0 ∧ i % 65536 ≤ maxDisorder.toNat ∧
      slip maxDisorder i j = j / 65536 - i / 65536) ∨
    (j % 65536 ≠ 0 ∧ i % 65536 < maxDisorder.toNat ∧ 65535 - maxDisorder.toNat < j % 65536 ∧
      slip maxDisorder i j = j / 65536 - i / 65536 + 1) ∨
    (j % 65536 < maxDisorder.toNat ∧ 65535 - maxDisorder.toNat < i % 65536 ∧
      slip maxDisorder i j = j / 65536 - i / 65536 - 1) ∨
    (j % 65536 ≠ 0 ∧
      ¬ (i % 65536 < maxDisorder.toNat ∧ 65535 - maxDisorder.toNat < j % 65536) ∧
      ¬ (j % 65536 < maxDisorder.toNat ∧ 65535 - maxDisorder.toNat < i % 65536) ∧
      slip maxDisorder i j = j / 65536 - i / 65536) := by
  rw [slip, shift_between, roundOf, roundOf]
  -- The branches of `between` in their order, each with what the branches before it exclude.
  by_cases hstart : j % 65536 = 0
  · by_cases hlast : (maxDisorder.toNat : Int) < i % 65536
    · rw [if_pos hstart, if_pos hlast]
      exact .inl ⟨hstart, hlast, rfl⟩
    · rw [if_pos hstart, if_neg hlast, sub_zero]
      exact .inr (.inl ⟨hstart, by omega, rfl⟩)
  · rw [if_neg hstart]
    split
    · rename_i hback
      exact .inr (.inr (.inl ⟨hstart, hback.1, hback.2, sub_neg_eq_add _ _⟩))
    · rename_i hback
      split
      · rename_i hforth
        exact .inr (.inr (.inr (.inl ⟨hforth.1, hforth.2, rfl⟩)))
      · rename_i hforth
        exact .inr (.inr (.inr (.inr ⟨hstart, hback, hforth, sub_zero _⟩)))

/-- The sum of the slips over the steps of a list of packets. -/
def totalSlip (maxDisorder : UInt16) : List Int → Int
  | i :: j :: rest => slip maxDisorder i j + totalSlip maxDisorder (j :: rest)
  | _ => 0

/-- The number of the steps in a list of packets that lose a round, if every step loses one
round or none and `P` says which of them do. Under which conditions a step does is the
matter of the modules on lost and on late packets, each with a `P` of its own. -/
theorem totalSlip_eq_countP {maxDisorder : UInt16} {P : Int → Int → Prop} [DecidableRel P]
    {indices : List Int}
    (h : indices.IsChain fun i j => slip maxDisorder i j = if P i j then 1 else 0) :
    totalSlip maxDisorder indices
      = (indices.zip indices.tail).countP fun step => P step.1 step.2 := by
  -- Along the list, two packets at a time, as the slips are summed.
  induction indices with
  | nil => rfl
  | cons i rest ih =>
      cases rest with
      | nil => rfl
      | cons j rest =>
          obtain ⟨hstep, hrest⟩ := List.isChain_cons_cons.mp h
          have hcount : ((i :: j :: rest).zip (j :: rest)).countP (fun step => P step.1 step.2)
              = ((j :: rest).zip rest).countP (fun step => P step.1 step.2)
                + if P i j then 1 else 0 := by
            simp [List.countP_cons]
          rw [totalSlip, hstep, ih hrest, List.tail_cons, List.tail_cons, hcount]
          push_cast
          rw [add_comm]

/-- No step slips, so there is nothing to sum. -/
theorem totalSlip_eq_zero (maxDisorder : UInt16) (indices : List Int)
    (h : indices.IsChain fun i j => slip maxDisorder i j = 0) :
    totalSlip maxDisorder indices = 0 := by
  rw [totalSlip_eq_countP (P := fun _ _ => False) (by simpa using h)]
  simp

namespace RolloverCounter

/-! ### Runs -/

/-- The counter after packets with the given sequence numbers, in the order of
their arrival. -/
def run (counter : RolloverCounter) (sequences : List UInt16) : RolloverCounter :=
  sequences.foldl update counter

@[simp] theorem run_nil (counter : RolloverCounter) : counter.run [] = counter := rfl

@[simp] theorem run_cons (counter : RolloverCounter) (sequence : UInt16)
    (sequences : List UInt16) :
    counter.run (sequence :: sequences) = (counter.update sequence).run sequences := rfl

/-- Any packets leave the limit as it is. -/
@[simp] theorem maxDisorder_run (counter : RolloverCounter) (sequences : List UInt16) :
    (counter.run sequences).maxDisorder = counter.maxDisorder := by
  induction sequences generalizing counter with
  | nil => rfl
  | cons sequence rest ih => rw [run_cons, ih, maxDisorder_update]

/-- The counter after two lists of packets is the one that the second list leads to from the end
of the first. -/
theorem run_append (counter : RolloverCounter) (before later : List UInt16) :
    counter.run (before ++ later) = (counter.run before).run later :=
  List.foldl_append

/-- What a packet does to the counter depends on the packet before it, and on none that
came earlier. -/
theorem adjustment_run_concat (counter : RolloverCounter) (before : List UInt16)
    (last sequence : UInt16) :
    (counter.run (before ++ [last])).adjustment sequence
      = Adjustment.between last sequence counter.maxDisorder := by
  rw [run_append, run_cons, run_nil, adjustment, last_update, maxDisorder_update,
    maxDisorder_run]

/-- The counter has seen the packet `i` last, and its value is `lag` rounds
behind the round of that packet, modulo `2 ^ 32`. -/
structure Tracks (counter : RolloverCounter) (i lag : Int) : Prop where
  last : counter.last = some (sequenceOf i)
  value : (counter.value.toNat : Int) = (roundOf i - lag) % 2 ^ 32

/-- The first packet of all puts the counter where it has to be, if the packet
belongs to the round zero. -/
theorem Tracks.first {counter : RolloverCounter} (hlast : counter.last = none)
    (hvalue : counter.value = 0) {i : Int} (hround : roundOf i = 0) :
    (counter.update (sequenceOf i)).Tracks i 0 where
  last := rfl
  value := by
    rw [value_update, adjustment, hlast, hvalue, hround]
    rfl

/-- The adjustment that the packet `j` makes. -/
theorem Tracks.adjustment_eq {counter : RolloverCounter} {i lag : Int}
    (h : counter.Tracks i lag) (j : Int) :
    counter.adjustment (sequenceOf j)
      = Adjustment.between (sequenceOf i) (sequenceOf j) counter.maxDisorder := by
  rw [adjustment, h.last]

/-- One packet adds its slip to the arrears. -/
theorem Tracks.update {counter : RolloverCounter} {i lag : Int} (h : counter.Tracks i lag)
    (j : Int) :
    (counter.update (sequenceOf j)).Tracks j (lag + slip counter.maxDisorder i j) where
  last := rfl
  value := by
    rw [value_update, Adjustment.toNat_apply, h.adjustment_eq, h.value, slip]
    omega

/-- A list of packets adds the sum of their slips to the arrears. -/
theorem tracks_run {counter : RolloverCounter} {i lag : Int} (h : counter.Tracks i lag)
    (indices : List Int) :
    (counter.run (indices.map sequenceOf)).Tracks
      ((i :: indices).getLast (List.cons_ne_nil _ _))
      (lag + totalSlip counter.maxDisorder (i :: indices)) := by
  -- The first packet changes the counter, the place and the arrears, so all three are general.
  induction indices generalizing counter i lag with
  | nil =>
      show counter.Tracks i (lag + 0)
      rw [add_zero]
      exact h
  | cons j rest ih =>
      have hrest := ih (h.update j)
      rw [maxDisorder_update, add_assoc, ← totalSlip] at hrest
      rw [List.getLast_cons (List.cons_ne_nil _ _)]
      exact hrest

/-- A new counter is behind by the sum of the slips, if the first packet belongs
to the round zero. -/
theorem tracks_run_fresh {counter : RolloverCounter} (hlast : counter.last = none)
    (hvalue : counter.value = 0) {before : List Int} {i : Int}
    (hfirst : ∀ first ∈ (before ++ [i]).head?, roundOf first = 0) :
    (counter.run ((before ++ [i]).map sequenceOf)).Tracks i
      (totalSlip counter.maxDisorder (before ++ [i])) := by
  cases before with
  | nil => exact Tracks.first hlast hvalue (hfirst i rfl)
  | cons first rest =>
      -- Nothing is counted at the first packet; the steps begin behind it.
      have hstart := Tracks.first hlast hvalue (hfirst first rfl)
      have hrun := tracks_run hstart (rest ++ [i])
      have hend : (first :: (rest ++ [i])).getLast (List.cons_ne_nil _ _) = i :=
        List.getLast_concat (l := first :: rest)
      rwa [hend, maxDisorder_update, zero_add] at hrun

/-- The number of the last packet is its true number modulo `2 ^ 48`, when the
counter is not behind. -/
theorem Tracks.toNat_index {counter : RolloverCounter} {i : Int} (h : counter.Tracks i 0) :
    counter.index?.map (fun n => (n.toNat : Int)) = some (i % 2 ^ 48) := by
  have hvalue := h.value
  have hsequence := toNat_sequenceOf i
  rw [index?, h.last, Option.map_some, Option.map_some, toNat_packetIndex]
  rw [roundOf] at hvalue
  congr 1
  -- The round modulo `2 ^ 32` above 16 bits, and the sequence number below them.
  omega

end RolloverCounter

end SecureRtp
