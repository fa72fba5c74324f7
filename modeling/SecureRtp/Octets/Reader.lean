import SecureRtp.Octets.BigEndian

/-!
# `SecureRtp.Octets.Reader`: reading a frame from the front

A reader works on the octets that are still unread. Each step takes a
number of them off the front or refuses when there are not enough, so a
program made of these steps never looks behind the end of a frame.

`Reader.octets_eq_some_iff` says it exactly: a step gives a result if and
only if the unread octets are the ones it gives followed by the ones it
leaves.
-/

set_option autoImplicit false

namespace SecureRtp

/-- A program that reads octets from the front of a string and refuses
when the string does not hold what it needs. -/
abbrev Reader := StateT Octets Option

namespace Reader

/-- Reads the next `n` octets. -/
def octets (n : Nat) : Reader Octets := fun unread =>
  let head := unread.take n
  if head.length = n then some (head, unread.drop n) else none

/-- Passes over the next `n` octets. -/
def skip (n : Nat) : Reader Unit := do
  let _ ← octets n
  return ()

/-- Reads a number of 16 bits. -/
def uint16 : Reader UInt16 := do
  return UInt16.ofNat (BigEndian.value (← octets 2))

/-- Reads a number of 32 bits. -/
def uint32 : Reader UInt32 := do
  return UInt32.ofNat (BigEndian.value (← octets 4))

/-- Refuses unless the condition holds. -/
def require (condition : Bool) : Reader Unit := fun unread =>
  if condition then some ((), unread) else none

/-- Reading `n` octets succeeds exactly when the unread octets begin with a string of this length.
The string is the result, and what stands behind it is left. -/
theorem octets_eq_some_iff (n : Nat) (unread head rest : Octets) :
    octets n unread = some (head, rest) ↔ unread = head ++ rest ∧ head.length = n := by
  simp only [octets]
  constructor
  · intro h
    split at h
    · rename_i hlen
      simp only [Option.some.injEq, Prod.mk.injEq] at h
      obtain ⟨rfl, rfl⟩ := h
      exact ⟨(List.take_append_drop n unread).symm, hlen⟩
    · simp at h
  · -- What stands in front is taken when its length is asked for.
    rintro ⟨rfl, rfl⟩
    simp

/-- Reading refuses exactly when too few octets are left. -/
theorem octets_eq_none_iff (n : Nat) (unread : Octets) :
    octets n unread = none ↔ unread.length < n := by
  simp only [octets, List.length_take, ite_eq_right_iff, reduceCtorEq, imp_false]
  omega

end Reader

end SecureRtp
