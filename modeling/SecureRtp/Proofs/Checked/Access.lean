import SecureRtp.Octets.Align

/-!
# `SecureRtp.Proofs.Checked.Access`: operations that can go wrong

The definitions of this library are total. Where a list is too short, `take` gives what
there is, and a difference of numbers stops at zero. A program that works on memory has no
such way out: a part of an array that is not there, a copy between parts of different
lengths or a difference below zero is an accident, after which it cannot go on.

A `Checked` program is written with operations that have such accidents. Each of them is a
`Fault`, apart from every result that the program can have, errors included. To show that a
program has no fault is to show that it gives a result, and the lemmas here say for each
operation which result that is and what has to hold beforehand.

The first two programs are here as well: `alignRight` is `slice_to_right_array` with the
indices that it computes and the copy that it makes, and `alignLeft` is
`slice_to_left_array`.

* `slice_eq`, `front_eq`, `copyInto_eq`, `sub_eq`, `add_eq`, `assert_eq`: one for each
  operation.
* `alignRight_eq` and `alignLeft_eq`: fitting a string into a fixed width is one copy between
  parts of equal length, whatever the length of the string is.
-/

set_option autoImplicit false

namespace SecureRtp

/-- An accident from which a program does not recover. -/
inductive Fault
  /-- A part of an array was asked for that is not there. -/
  | outOfRange
  /-- Octets were copied to a part of another length. -/
  | lengthMismatch
  /-- A difference was below zero. -/
  | underflow
  /-- A sum was too large for an index. -/
  | overflow
  /-- A cursor was moved behind the end. -/
  | overrun
  /-- An assertion did not hold. -/
  | assertion
  /-- A loop made no progress and would not have ended. -/
  | idle
deriving DecidableEq

/-- A program that gives a result unless there is an accident. -/
abbrev Checked := Except Fault

namespace Checked

variable {α β : Type} {n : Nat}

@[simp] theorem ok_bind (a : α) (next : α → Checked β) :
    ((.ok a : Checked α) >>= next) = next a := rfl

@[simp] theorem pure_eq_ok (a : α) : (pure a : Checked α) = .ok a := rfl

/-! ### The operations -/

/-- Goes on only if the condition holds. -/
def assert (condition : Prop) [Decidable condition] : Checked Unit :=
  if condition then .ok () else .error .assertion

/-- The difference of two numbers. -/
def sub (a b : Nat) : Checked Nat := if b ≤ a then .ok (a - b) else .error .underflow

/-- The first number that an index cannot hold. There are machines with larger ones, but none
with smaller ones. -/
def indexLimit : Nat := 0x10000

/-- The sum of two numbers. -/
def add (a b : Nat) : Checked Nat :=
  if a + b < indexLimit then .ok (a + b) else .error .overflow

/-- The part of a string from `first` up to `last`. -/
def slice (s : Octets) (first last : Nat) : Checked Octets :=
  if first ≤ last ∧ last ≤ s.length then .ok ((s.take last).drop first)
  else .error .outOfRange

/-- The array with octets copied to the part from `first` up to `last`, which has to be as
long as they are. -/
def copyInto (target : Vector UInt8 n) (first last : Nat) (data : Octets) :
    Checked (Vector UInt8 n) :=
  if range : first ≤ last ∧ last ≤ n then
    if fits : data.length = last - first then
      .ok (Octets.toVector (target.toList.take first ++ data ++ target.toList.drop last) (by
        simp only [List.length_append, List.length_take, List.length_drop, Vector.length_toList]
        omega))
    else .error .lengthMismatch
  else .error .outOfRange

/-- The first `count` octets of an array, to be written to. -/
def front (array : Vector UInt8 n) (count : Nat) : Checked (Vector UInt8 count) :=
  if fits : count ≤ n then
    .ok (Octets.toVector (array.toList.take count) (by simp [fits]))
  else .error .outOfRange

theorem assert_eq {condition : Prop} [Decidable condition] (h : condition) :
    assert condition = .ok () := if_pos h

/-- A difference that is not below zero has no fault, and is the difference of natural numbers. -/
theorem sub_eq {a b : Nat} (h : b ≤ a) : sub a b = .ok (a - b) := if_pos h

/-- A sum that an index can hold has no fault, and is the sum of natural numbers. -/
theorem add_eq {a b : Nat} (h : a + b < indexLimit) : add a b = .ok (a + b) := if_pos h

/-- The `count` octets from `first` on can be taken if the string has them. -/
theorem slice_eq (s : Octets) (first count : Nat) (h : first + count ≤ s.length) :
    slice s first (first + count) = .ok ((s.drop first).take count) := by
  rw [slice, if_pos ⟨Nat.le_add_right _ _, h⟩, List.drop_take, Nat.add_sub_cancel_left]

/-- An array has a front of any length up to its own. -/
theorem front_eq (array : Vector UInt8 n) {count : Nat} (h : count ≤ n) :
    ∃ part, front array count = .ok part := ⟨_, dif_pos h⟩

/-- What is copied stands where it was put, and around it nothing changes. -/
theorem copyInto_eq (target : Vector UInt8 n) (first : Nat) (data : Octets)
    (h : first + data.length ≤ n) :
    ∃ copied, copyInto target first (first + data.length) data = .ok copied ∧
      copied.toList
        = target.toList.take first ++ data ++ target.toList.drop (first + data.length) := by
  rw [copyInto, dif_pos ⟨Nat.le_add_right _ _, h⟩, dif_pos (Nat.add_sub_cancel_left ..).symm]
  exact ⟨_, rfl, Octets.toList_toVector _ _⟩

/-! ### Fitting a string into a fixed width -/

/-- The last octets of a string at the end of an array of zeros, `slice_to_right_array`. -/
def alignRight (n : Nat) (s : Octets) : Checked (Vector UInt8 n) := do
  let count := min s.length n
  let first ← sub s.length count
  let start ← sub n count
  copyInto (Vector.replicate n 0) start n (← slice s first s.length)

/-- The first octets of a string at the beginning of an array of zeros, `slice_to_left_array`. -/
def alignLeft (n : Nat) (s : Octets) : Checked (Vector UInt8 n) := do
  let count := min s.length n
  copyInto (Vector.replicate n 0) 0 count (← slice s 0 count)

/-- Aligning to the right has no fault for a string of any length. Both parts are as long as the
shorter of the string and the array, so that neither difference is below zero and the copy
fits. -/
theorem alignRight_eq (n : Nat) (s : Octets) : alignRight n s = .ok (Octets.alignRight n s) := by
  have hpart : slice s (s.length - min s.length n) s.length
      = .ok (s.drop (s.length - min s.length n)) := by
    rw [slice, if_pos ⟨Nat.sub_le _ _, Nat.le_refl _⟩, List.take_length]
  -- The copy ends where the array ends, which is what makes it a copy to the right.
  have hend : n - min s.length n + (s.drop (s.length - min s.length n)).length = n := by
    rw [List.length_drop]
    omega
  obtain ⟨copied, hcopy, hlist⟩ :=
    copyInto_eq (Vector.replicate n (0 : UInt8)) _ _ (Nat.le_of_eq hend)
  rw [hend] at hcopy hlist
  rw [alignRight, sub_eq (Nat.min_le_left _ _), ok_bind, sub_eq (Nat.min_le_right _ _), ok_bind,
    hpart, ok_bind, hcopy]
  -- The programs agree; what is left is that the array holds the same octets.
  congr 1
  apply Vector.toList_inj.mp
  rw [hlist, Octets.toList_alignRight, Vector.toList_replicate, List.take_replicate,
    List.drop_replicate, Nat.sub_self, List.replicate_zero, List.append_nil, Octets.zeros]
  congr 2 <;> omega

/-- Aligning to the left has no fault either. Both parts begin at zero, and no difference has to
be taken. -/
theorem alignLeft_eq (n : Nat) (s : Octets) : alignLeft n s = .ok (Octets.alignLeft n s) := by
  have hpart : slice s 0 (min s.length n) = .ok (s.take (min s.length n)) := by
    rw [slice, if_pos ⟨Nat.zero_le _, Nat.min_le_left _ _⟩, List.drop_zero]
  have hend : 0 + (s.take (min s.length n)).length = min s.length n := by
    rw [List.length_take]
    omega
  obtain ⟨copied, hcopy, hlist⟩ :=
    copyInto_eq (Vector.replicate n (0 : UInt8)) _ _ (Nat.le_trans (Nat.le_of_eq hend)
      (Nat.min_le_right _ _))
  rw [hend] at hcopy hlist
  rw [alignLeft, hpart, ok_bind, hcopy]
  congr 1
  apply Vector.toList_inj.mp
  rw [hlist, Octets.toList_alignLeft, Vector.toList_replicate, List.take_zero, List.nil_append,
    List.drop_replicate, Octets.zeros, Nat.min_comm, ← List.take_eq_take_min]
  congr 2
  omega

end Checked

end SecureRtp
