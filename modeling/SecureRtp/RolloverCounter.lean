import SecureRtp.Error
import SecureRtp.PacketIndex

/-!
# `SecureRtp.RolloverCounter`: counting the rounds of the sequence number

The sequence number of a stream starts over after 65536 packets. The
receiver counts how often it did. Near the place where it starts over the
order of arrival alone does not tell a new round from a late packet of
the old one, so a limit is assumed for how far packets are out of order:
a number below the limit is *low*, one above 65535 less the limit is
*high*. A step from high to low begins a round, a step from low to high
goes back to the round before, and every other step stays. The number
zero is on the seam itself and begins a round after everything that is
not low.

The interface of the receiver knows these definitions under the names
`rollover_adjustment` (`Adjustment.between`, with `RolloverAdjustment` for
its result) and `RolloverCounter` with `new`, `update`, `value`,
`last_sequence_number` and `packet_index` (`index?`). There, `update`
writes the counter in place and returns what it did; here `adjustment` is
what it returns and `update` is the counter that it leaves. An assertion
of `new` is the error of `checkDisorder`.
-/

set_option autoImplicit false

namespace SecureRtp

/-- What a packet does to the rollover counter, a `RolloverAdjustment`. -/
inductive Adjustment
  /-- The packet belongs to the current round. -/
  | keep
  /-- The packet is the first one of a new round. -/
  | increment
  /-- The packet is a late one of the round before. -/
  | decrement
deriving DecidableEq

namespace Adjustment

/-- The adjustment for the sequence number `sequence` after `last`, when
packets are out of order by no more than `maxDisorder`. This is
`rollover_adjustment`, branch by branch: the number zero is looked at
first, then the way back over the seam, then the way forth. -/
def between (last sequence maxDisorder : UInt16) : Adjustment :=
  let high := 0xffff - maxDisorder
  if sequence = 0 then
    if maxDisorder < last then increment else keep
  else if last < maxDisorder ∧ high < sequence then decrement
  else if sequence < maxDisorder ∧ high < last then increment
  else keep

/-- The counter after an adjustment. It counts modulo `2 ^ 32`, as RFC 3711
asks for in section 3.3.1. -/
def apply (adjustment : Adjustment) (rollovers : UInt32) : UInt32 :=
  match adjustment with
  | keep => rollovers
  | increment => rollovers + 1
  | decrement => rollovers - 1

end Adjustment

/-- The rollover counter of a stream. -/
structure RolloverCounter where
  /-- How often the sequence number has started over. -/
  value : UInt32
  /-- The sequence number of the packet before, if there was one. -/
  last : Option UInt16
  /-- The limit for how far packets are out of order. -/
  maxDisorder : UInt16
deriving DecidableEq

namespace RolloverCounter

/-- The limit when nothing else is asked for, `DEFAULT_MAX_DISORDER`. -/
def defaultMaxDisorder : UInt16 := 100

/-- The limits that can be used are those below half of the sequence
numbers. It is what `new` asserts, and what `max_rollover_disorder` of a
builder asserts before. -/
def checkDisorder (maxDisorder : UInt16) : Except DisorderTooLarge UInt16 :=
  if maxDisorder < 0x8000 then .ok maxDisorder else .error .disorderTooLarge

/-- A counter that has seen no packet. -/
def new (maxDisorder : UInt16) : Except DisorderTooLarge RolloverCounter := do
  let maxDisorder ← checkDisorder maxDisorder
  return { value := 0, last := none, maxDisorder }

/-- A counter with the default limit that has seen no packet. -/
instance : Inhabited RolloverCounter :=
  ⟨{ value := 0, last := none, maxDisorder := defaultMaxDisorder }⟩

/-- What the next packet does to the counter, the result of `update`. The
first one of all adjusts nothing, whatever its number. -/
def adjustment (counter : RolloverCounter) (sequence : UInt16) : Adjustment :=
  match counter.last with
  | some last => Adjustment.between last sequence counter.maxDisorder
  | none => .keep

/-- The counter after the next packet. -/
def update (counter : RolloverCounter) (sequence : UInt16) : RolloverCounter :=
  { counter with
    value := (counter.adjustment sequence).apply counter.value
    last := some sequence }

/-- The number of the last packet in the stream, if there was one:
`packet_index`. -/
def index? (counter : RolloverCounter) : Option UInt64 :=
  counter.last.map (packetIndex counter.value)

@[simp] theorem last_update (counter : RolloverCounter) (sequence : UInt16) :
    (counter.update sequence).last = some sequence := rfl

@[simp] theorem maxDisorder_update (counter : RolloverCounter) (sequence : UInt16) :
    (counter.update sequence).maxDisorder = counter.maxDisorder := rfl

/-- The value changes by the adjustment that the packet makes, and by nothing else. -/
theorem value_update (counter : RolloverCounter) (sequence : UInt16) :
    (counter.update sequence).value = (counter.adjustment sequence).apply counter.value := rfl

/-- A counter can be made exactly with the limits below half of the
sequence numbers. -/
theorem new_eq_ok_iff (maxDisorder : UInt16) (counter : RolloverCounter) :
    new maxDisorder = .ok counter ↔
      maxDisorder < 0x8000 ∧ counter = { value := 0, last := none, maxDisorder } := by
  by_cases h : maxDisorder < 0x8000
  · simp [new, checkDisorder, h, bind, Except.bind, pure, Except.pure, eq_comm]
  · simp [new, checkDisorder, h, bind, Except.bind]

/-- With such a limit there is a counter that has counted nothing. -/
theorem exists_new {maxDisorder : UInt16} (hlimit : maxDisorder < 0x8000) :
    ∃ fresh, new maxDisorder = .ok fresh ∧ fresh.value = 0 ∧ fresh.last = none ∧
      fresh.maxDisorder = maxDisorder :=
  ⟨_, (new_eq_ok_iff maxDisorder _).mpr ⟨hlimit, rfl⟩, rfl, rfl, rfl⟩

end RolloverCounter

end SecureRtp
