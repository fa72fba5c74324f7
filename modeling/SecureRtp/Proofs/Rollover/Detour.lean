import SecureRtp.Proofs.Rollover.Round

/-!
# `SecureRtp.Proofs.Rollover.Detour`: a stray packet and the way back

A packet with an arbitrary sequence number comes in between, and the packet after it has
the number again that was there before. Tags are not verified, so anybody can send such a
packet. The counter goes somewhere and returns, and the question is whether it returns to
its value.

It does, unless the detour joins the number zero with a number in the middle of the round,
neither low nor high. From the middle to zero the counter begins a round, because zero is
on the seam and has no limit of its own; from zero to the middle it does not go back.
`AddsRound` names these detours. Apart from zero the two ways cancel (`shift_swap`).

* `shift_there_and_back`: the rounds that a detour adds, which are one or none.
* `RolloverCounter.Ahead`: two counters that see the same and differ in their values by a
  number of rounds. Whatever comes makes the same adjustments in both.
* `detours_add_rounds`: what one detour does to any counter, and what any number of them,
  wherever they are put in, does to a run.
-/

set_option autoImplicit false

namespace SecureRtp

/-- The number is above the limit and below the high ones. -/
def Middle (maxDisorder sequence : UInt16) : Prop :=
  maxDisorder < sequence ∧ sequence ≤ 0xffff - maxDisorder

/-- The detour from the number `home` to the number `stray` and back adds a round. -/
def AddsRound (maxDisorder home stray : UInt16) : Prop :=
  (home = 0 ∧ Middle maxDisorder stray) ∨ (stray = 0 ∧ Middle maxDisorder home)

instance (maxDisorder sequence : UInt16) : Decidable (Middle maxDisorder sequence) :=
  inferInstanceAs (Decidable (_ ∧ _))

instance (maxDisorder home stray : UInt16) : Decidable (AddsRound maxDisorder home stray) :=
  inferInstanceAs (Decidable (_ ∨ _))

/-! ### There and back -/

section
variable {maxDisorder : UInt16}

/-- Between two numbers other than zero, the way back undoes the way there. -/
theorem shift_swap (hlimit : maxDisorder < 0x8000) {home stray : UInt16} (hhome : home ≠ 0)
    (hstray : stray ≠ 0) :
    (Adjustment.between stray home maxDisorder).shift
      = -(Adjustment.between home stray maxDisorder).shift := by
  -- No number is low and high at once, so the two conditions exclude each other.
  have hapart : ¬ ((home < maxDisorder ∧ 0xffff - maxDisorder < stray) ∧
      (stray < maxDisorder ∧ 0xffff - maxDisorder < home)) := by
    simp only [UInt16.lt_iff_toNat_lt, toNat_high]
    have hlt : maxDisorder.toNat < 32768 := UInt16.lt_iff_toNat_lt.mp hlimit
    omega
  simp only [Adjustment.between, hhome, hstray, if_false]
  by_cases hback : home < maxDisorder ∧ 0xffff - maxDisorder < stray
  · have hforth : ¬ (stray < maxDisorder ∧ 0xffff - maxDisorder < home) :=
      fun h => hapart ⟨hback, h⟩
    rw [if_pos hback, if_pos hback, if_neg hforth]
    rfl
  · rw [if_neg hback, if_neg hback]
    split <;> rfl

/-- On to zero, a round begins from any number above the limit. -/
theorem shift_to_zero (maxDisorder sequence : UInt16) :
    (Adjustment.between sequence 0 maxDisorder).shift
      = if maxDisorder < sequence then 1 else 0 := by
  rw [Adjustment.between, if_pos rfl]
  split <;> rfl

/-- From zero, only the high numbers lead back. -/
theorem shift_from_zero (maxDisorder sequence : UInt16) :
    (Adjustment.between 0 sequence maxDisorder).shift
      = if 0xffff - maxDisorder < sequence then -1 else 0 := by
  have hsequence := sequence.toNat_lt
  by_cases hzero : sequence = 0
  · subst hzero
    rw [shift_to_zero, if_neg UInt16.not_lt_zero, if_neg UInt16.not_lt_zero]
  · -- With the limit zero there are no high numbers, so that zero is low is no condition.
    have hback : (0 < maxDisorder ∧ 0xffff - maxDisorder < sequence) ↔
        0xffff - maxDisorder < sequence := by
      simp only [UInt16.lt_iff_toNat_lt, toNat_high, UInt16.toNat_zero]
      omega
    have hforth : ¬ (sequence < maxDisorder ∧ 0xffff - maxDisorder < 0) :=
      fun h => UInt16.not_lt_zero h.2
    rw [Adjustment.between, if_neg hzero, if_neg hforth]
    simp only [hback]
    split <;> rfl

/-- To zero and back from there. -/
theorem shift_over_zero (hlimit : maxDisorder < 0x8000) (sequence : UInt16) :
    (Adjustment.between sequence 0 maxDisorder).shift
        + (Adjustment.between 0 sequence maxDisorder).shift
      = if Middle maxDisorder sequence then 1 else 0 := by
  have hlt : maxDisorder.toNat < 32768 := UInt16.lt_iff_toNat_lt.mp hlimit
  rw [shift_to_zero, shift_from_zero]
  simp only [Middle, UInt16.lt_iff_toNat_lt, UInt16.le_iff_toNat_le, toNat_high]
  split_ifs <;> omega

/-- A detour adds a round if it joins zero with the middle, and nothing otherwise. -/
theorem shift_there_and_back (hlimit : maxDisorder < 0x8000) (home stray : UInt16) :
    (Adjustment.between home stray maxDisorder).shift
        + (Adjustment.between stray home maxDisorder).shift
      = if AddsRound maxDisorder home stray then 1 else 0 := by
  have hzero : ¬ Middle maxDisorder 0 := fun h => UInt16.not_lt_zero h.1
  -- The two ways cancel unless one end is zero, and if both are, zero is not in the middle.
  by_cases hhome : home = 0
  · subst hhome
    rw [Int.add_comm, shift_over_zero hlimit]
    simp [AddsRound, hzero]
  · by_cases hstray : stray = 0
    · subst hstray
      rw [shift_over_zero hlimit]
      simp [AddsRound, hzero]
    · rw [shift_swap hlimit hhome hstray, Int.add_right_neg]
      simp [AddsRound, hhome, hstray]

end

/-! ### Runs with detours -/

/-- A packet on the way of a counter. -/
structure Stop where
  /-- Its sequence number. -/
  sequence : UInt16
  /-- Whether it belongs to a detour. -/
  stray : Bool

/-- The way of the counter over the packets `route` with detours put in, and the number of
those that add a round. A detour may begin behind any packet, also behind one of another
detour, and leads back to the number of that packet. -/
inductive Detoured (counter : RolloverCounter) (route : List UInt16) :
    List Stop → Nat → Prop
  /-- The way without a detour. -/
  | straight : Detoured counter route (route.map fun sequence => ⟨sequence, false⟩) 0
  /-- One detour more, from the number `home`, which is the last one before it. -/
  | detour {before later : List Stop} {count : Nat} {home : UInt16} (stray : UInt16)
      (hway : Detoured counter route (before ++ later) count)
      (hhome : (counter.run (before.map Stop.sequence)).last = some home) :
      Detoured counter route (before ++ ⟨stray, true⟩ :: ⟨home, true⟩ :: later)
        (count + if AddsRound counter.maxDisorder home stray then 1 else 0)

namespace RolloverCounter

/-- The adjustments that packets make one after another. -/
def adjustments (counter : RolloverCounter) : List UInt16 → List Adjustment
  | [] => []
  | sequence :: rest =>
    counter.adjustment sequence :: (counter.update sequence).adjustments rest

/-- The adjustments of the packets that do not belong to a detour. -/
def plainAdjustments (counter : RolloverCounter) : List Stop → List Adjustment
  | [] => []
  | stop :: rest =>
    let later := (counter.update stop.sequence).plainAdjustments rest
    if stop.stray then later else counter.adjustment stop.sequence :: later

variable {counter other : RolloverCounter} {rounds : Nat}

/-- The adjustments over a way in two parts, of which the second begins where the first one has
led the counter, with its detours. -/
theorem plainAdjustments_append (counter : RolloverCounter) (before later : List Stop) :
    counter.plainAdjustments (before ++ later)
      = counter.plainAdjustments before
        ++ (counter.run (before.map Stop.sequence)).plainAdjustments later := by
  induction before generalizing counter with
  | nil => rfl
  | cons stop rest ih =>
      rw [List.cons_append, plainAdjustments, plainAdjustments, ih, List.map_cons, run_cons]
      split <;> rfl

/-- On the way without a detour, the adjustments are those of all packets. -/
theorem plainAdjustments_straight (counter : RolloverCounter) (route : List UInt16) :
    counter.plainAdjustments (route.map fun sequence => ⟨sequence, false⟩)
      = counter.adjustments route := by
  induction route generalizing counter with
  | nil => rfl
  | cons sequence rest ih => exact congrArg (_ :: ·) (ih _)

/-- The two counters see the same, and the first one is ahead of the other by a number of
rounds, modulo `2 ^ 32`. -/
structure Ahead (counter other : RolloverCounter) (rounds : Nat) : Prop where
  last : counter.last = other.last
  maxDisorder : counter.maxDisorder = other.maxDisorder
  value : (counter.value.toNat : Int) = (other.value.toNat + rounds) % 2 ^ 32

theorem Ahead.refl (counter : RolloverCounter) : counter.Ahead counter 0 where
  last := rfl
  maxDisorder := rfl
  value := by
    have hlt := counter.value.toNat_lt
    omega

/-- Distances add up. -/
theorem Ahead.trans {third : RolloverCounter} {more : Nat} (h : counter.Ahead other more)
    (hother : other.Ahead third rounds) : counter.Ahead third (rounds + more) where
  last := h.last.trans hother.last
  maxDisorder := h.maxDisorder.trans hother.maxDisorder
  value := by
    rw [h.value, hother.value]
    omega

/-- A packet makes the same adjustment in both. -/
theorem Ahead.adjustment_eq (h : counter.Ahead other rounds) (sequence : UInt16) :
    counter.adjustment sequence = other.adjustment sequence := by
  rw [adjustment, adjustment, h.last, h.maxDisorder]

/-- A packet leaves the distance as it is. -/
theorem Ahead.update (h : counter.Ahead other rounds) (sequence : UInt16) :
    (counter.update sequence).Ahead (other.update sequence) rounds where
  last := rfl
  maxDisorder := h.maxDisorder
  value := by
    rw [value_update, value_update, h.adjustment_eq, Adjustment.toNat_apply,
      Adjustment.toNat_apply, h.value]
    omega

/-- Any packets leave the distance as it is. -/
theorem Ahead.run (h : counter.Ahead other rounds) (sequences : List UInt16) :
    (counter.run sequences).Ahead (other.run sequences) rounds := by
  induction sequences generalizing counter other with
  | nil => exact h
  | cons sequence rest ih => exact ih (h.update sequence)

/-- Over any way, the packets that do not belong to a detour make the same adjustments in both. -/
theorem Ahead.plainAdjustments_eq (h : counter.Ahead other rounds) (stops : List Stop) :
    counter.plainAdjustments stops = other.plainAdjustments stops := by
  induction stops generalizing counter other with
  | nil => rfl
  | cons stop rest ih =>
      rw [plainAdjustments, plainAdjustments, ih (h.update stop.sequence),
        h.adjustment_eq stop.sequence]

/-- After a detour the counter is where it was, and ahead by the round that the detour
adds, if it adds one. -/
theorem ahead_of_detour (hlimit : counter.maxDisorder < 0x8000) {home : UInt16}
    (hhome : counter.last = some home) (stray : UInt16) :
    ((counter.update stray).update home).Ahead counter
      (if AddsRound counter.maxDisorder home stray then 1 else 0) where
  last := hhome.symm
  maxDisorder := rfl
  value := by
    have hthere : counter.adjustment stray
        = Adjustment.between home stray counter.maxDisorder := by
      rw [adjustment, hhome]
    have hback : (counter.update stray).adjustment home
        = Adjustment.between stray home counter.maxDisorder := rfl
    -- The two adjustments add up to the round that the detour adds.
    have hsum := shift_there_and_back hlimit home stray
    rw [value_update, hback, Adjustment.toNat_apply, value_update, hthere,
      Adjustment.toNat_apply]
    split <;> rename_i hadds
    · rw [if_pos hadds] at hsum
      omega
    · rw [if_neg hadds] at hsum
      omega

end RolloverCounter

/-- The way with detours ends where the straight one does, ahead by the rounds that were
added, and the packets of the straight way make the adjustments that they make without the
detours. -/
theorem Detoured.ahead {counter : RolloverCounter} (hlimit : counter.maxDisorder < 0x8000)
    {route : List UInt16} {stops : List Stop} {count : Nat}
    (h : Detoured counter route stops count) :
    (counter.run (stops.map Stop.sequence)).Ahead (counter.run route) count ∧
      counter.plainAdjustments stops = counter.adjustments route := by
  induction h with
  | straight =>
      have hroute : (route.map fun sequence => (⟨sequence, false⟩ : Stop)).map Stop.sequence
          = route := by
        rw [List.map_map]
        exact List.map_id route
      rw [RolloverCounter.plainAdjustments_straight, hroute]
      exact ⟨.refl _, rfl⟩
  | @detour before later count home stray _ hhome ih =>
      -- What comes behind the detour starts from a counter that sees the same as before.
      have hreturned := RolloverCounter.ahead_of_detour
        (by rwa [RolloverCounter.maxDisorder_run]) hhome stray
      rw [RolloverCounter.maxDisorder_run] at hreturned
      rw [List.map_append, RolloverCounter.run_append,
        RolloverCounter.plainAdjustments_append] at ih ⊢
      obtain ⟨hahead, hadjustments⟩ := ih
      refine ⟨(hreturned.run (later.map Stop.sequence)).trans hahead, ?_⟩
      rw [← hadjustments, ← hreturned.plainAdjustments_eq later]
      rfl

/-- A stray packet and the way back. First, from any counter that has seen a packet: after
the two the last number is what it was, and the value has moved on by one if the detour
adds a round, and not at all otherwise. Second, over any run, with any number of detours
put in anywhere: the value has moved on, modulo `2 ^ 32`, by the number of those that add a
round, the last number is the same, and so are the adjustments of all other packets. -/
theorem detours_add_rounds (counter : RolloverCounter) (hlimit : counter.maxDisorder < 0x8000) :
    (∀ home stray : UInt16, counter.last = some home →
      ((counter.update stray).update home).last = some home ∧
      ((counter.update stray).update home).value
        = if AddsRound counter.maxDisorder home stray then counter.value + 1
          else counter.value) ∧
    (∀ (route : List UInt16) (stops : List Stop) (count : Nat),
      Detoured counter route stops count →
        (counter.run (stops.map Stop.sequence)).value.toNat
            = ((counter.run route).value.toNat + count) % 2 ^ 32 ∧
        (counter.run (stops.map Stop.sequence)).last = (counter.run route).last ∧
        counter.plainAdjustments stops = counter.adjustments route) := by
  constructor
  · intro home stray hhome
    have hreturned := RolloverCounter.ahead_of_detour hlimit hhome stray
    refine ⟨rfl, UInt32.toNat_inj.mp ?_⟩
    -- Ahead by one round modulo `2 ^ 32` is one more, and by none is the same.
    have hvalue := hreturned.value
    have hlt := counter.value.toNat_lt
    split <;> rename_i hadds
    · rw [if_pos hadds] at hvalue
      rw [UInt32.toNat_add, UInt32.toNat_one]
      omega
    · rw [if_neg hadds] at hvalue
      omega
  · intro route stops count hway
    obtain ⟨hahead, hadjustments⟩ := hway.ahead hlimit
    have hvalue := hahead.value
    refine ⟨?_, hahead.last, hadjustments⟩
    omega

/-- The default limit, and a counter that stands at the number zero. The packet 500 and the
way back add a round, and within that detour the one from 500 to 65500 adds none. The
packet behind them adjusts nothing, with the detours or without. -/
theorem detours_add_rounds_nested :
    let counter : RolloverCounter := ⟨0xffffffff, some 0, RolloverCounter.defaultMaxDisorder⟩
    let stops : List Stop :=
      [⟨500, true⟩, ⟨65500, true⟩, ⟨500, true⟩, ⟨0, true⟩, ⟨7, false⟩]
    counter.maxDisorder < 0x8000 ∧
    counter.last = some 0 ∧
    ((counter.update 500).update 0).value = 0 ∧
    Detoured counter [7] stops 1 ∧
    (counter.run (stops.map Stop.sequence)).value.toNat = 0 ∧
    counter.plainAdjustments stops = [.keep] := by
  intro counter stops
  have hlimit : counter.maxDisorder < 0x8000 := by decide
  -- The outer detour first, and then the one that begins behind its stray packet.
  have houter : Detoured counter [7] ([] ++ ⟨500, true⟩ :: ⟨0, true⟩ :: [⟨7, false⟩])
      (0 + if AddsRound counter.maxDisorder 0 500 then 1 else 0) :=
    .detour 500 .straight rfl
  rw [if_pos (by decide)] at houter
  have hway : Detoured counter [7]
      ([⟨500, true⟩] ++ ⟨65500, true⟩ :: ⟨500, true⟩ :: [⟨0, true⟩, ⟨7, false⟩])
      (0 + 1 + if AddsRound counter.maxDisorder 500 65500 then 1 else 0) :=
    .detour 65500 houter rfl
  rw [if_neg (by decide)] at hway
  obtain ⟨hdetour, hruns⟩ := detours_add_rounds counter hlimit
  have hreturned := (hdetour 0 500 rfl).2
  rw [if_pos (by decide)] at hreturned
  obtain ⟨hvalue, -, hadjustments⟩ := hruns [7] stops 1 hway
  exact ⟨hlimit, rfl, hreturned.trans (by decide), hway, hvalue.trans (by decide),
    hadjustments.trans (by decide)⟩

end SecureRtp
