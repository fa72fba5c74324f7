import SecureRtp.Proofs.Packet.Header

/-!
# `SecureRtp.Proofs.Packet.Cursor`: a header read with a cursor

The steps of `Packet.header` each look for themselves whether there are octets enough. A
cursor does not: what it is moved over has to be there, and when it is not, the reading
has gone wrong, which is not the same as a frame that is refused. `Packet.walk` reads a
header with a cursor, step by step as `decode` of an `RtpPacket` does. It checks the length
in four places, before the fixed part, before the sources, before the head of the extension
and before the rest of it.

`Cursor.Covers n` says that the next `n` octets are read without a check. Reading adds to
this number, a check brings it back to zero.

* `walk_covers`: each check is for as many octets as are read before the next one.
* `walk_eq`: hence the cursor does what `header` does, on every frame.
* `walk_ne_overrun`: it is never moved behind the end.
-/

set_option autoImplicit false

namespace SecureRtp

/-- Why a cursor stops before the end of a program. -/
inductive Halt
  /-- A check failed. -/
  | refused
  /-- The cursor was moved behind the end. -/
  | overrun
deriving DecidableEq

/-- A program that moves over octets from the front. -/
abbrev Cursor := StateT Octets (Except Halt)

namespace Cursor

variable {α β : Type}

/-- Moves over the next `n` octets and gives them. -/
def octets (n : Nat) : Cursor Octets := fun unread =>
  if n ≤ unread.length then .ok (unread.take n, unread.drop n) else .error .overrun

/-- Moves over the next `n` octets. -/
def advance (n : Nat) : Cursor Unit := do
  let _ ← octets n
  return ()

/-- Reads a number of 16 bits. -/
def uint16 : Cursor UInt16 := do
  return UInt16.ofNat (BigEndian.value (← octets 2))

/-- Reads a number of 32 bits. -/
def uint32 : Cursor UInt32 := do
  return UInt32.ofNat (BigEndian.value (← octets 4))

/-- Refuses unless `n` octets are left. -/
def demand (n : Nat) : Cursor Unit := fun unread =>
  if n ≤ unread.length then .ok ((), unread) else .error .refused

/-- Refuses unless the condition holds. -/
def require (condition : Bool) : Cursor Unit := fun unread =>
  if condition then .ok ((), unread) else .error .refused

/-- Where `n` octets are left, the cursor does what the reader does, and where fewer are
left, the reader refuses. -/
structure Covers (n : Nat) (cursor : Cursor α) (reader : Reader α) : Prop where
  enough : ∀ unread, n ≤ unread.length →
    cursor unread = (reader unread).elim (.error .refused) .ok
  short : ∀ unread, unread.length < n → reader unread = none

/-- The end of a program reads nothing, so nothing has to be there. -/
theorem covers_pure (a : α) : Covers 0 (pure a) (pure a) where
  enough _ _ := rfl
  short _ hlt := absurd hlt (Nat.not_lt_zero _)

/-- Octets that are read have to be there beforehand, and what is read behind them too. -/
theorem covers_octets {m : Nat} {next : Octets → Cursor β} {next' : Octets → Reader β} (n : Nat)
    (h : ∀ head, Covers m (next head) (next' head)) :
    Covers (n + m) (octets n >>= next) (Reader.octets n >>= next') where
  enough := by
    intro unread hlength
    have hread : Reader.octets n unread = some (unread.take n, unread.drop n) := by
      rw [Reader.octets_eq_some_iff, List.take_append_drop, List.length_take]
      exact ⟨rfl, by omega⟩
    have hmoved : octets n unread = .ok (unread.take n, unread.drop n) := if_pos (by omega)
    show (octets n unread).bind (fun read => next read.1 read.2)
      = ((Reader.octets n unread).bind fun read => next' read.1 read.2).elim _ _
    rw [hmoved, hread]
    exact (h _).enough _ (by rw [List.length_drop]; omega)
  short := by
    intro unread hlength
    show (Reader.octets n unread).bind (fun read => next' read.1 read.2) = none
    rw [Option.bind_eq_none_iff]
    -- Where the `n` octets can be read, what is left is too short for the rest of the program.
    intro ⟨head, rest⟩ hread
    obtain ⟨rfl, hhead⟩ := (Reader.octets_eq_some_iff _ _ _ _).mp hread
    rw [List.length_append] at hlength
    exact (h head).short rest (by omega)

/-- Octets that are passed over have to be there beforehand like octets that are read. -/
theorem covers_advance {m : Nat} {next : Unit → Cursor β} {next' : Unit → Reader β} (n : Nat)
    (h : Covers m (next ()) (next' ())) :
    Covers (n + m) (advance n >>= next) (Reader.skip n >>= next') := by
  simp only [advance, Reader.skip, bind_assoc, pure_bind]
  exact covers_octets n fun _ => h

/-- A number of 16 bits takes two octets, which have to be there beforehand. -/
theorem covers_uint16 {m : Nat} {next : UInt16 → Cursor β} {next' : UInt16 → Reader β}
    (h : ∀ word, Covers m (next word) (next' word)) :
    Covers (2 + m) (uint16 >>= next) (Reader.uint16 >>= next') := by
  simp only [uint16, Reader.uint16, bind_assoc, pure_bind]
  exact covers_octets 2 fun _ => h _

/-- A number of 32 bits takes four octets, which have to be there beforehand. -/
theorem covers_uint32 {m : Nat} {next : UInt32 → Cursor β} {next' : UInt32 → Reader β}
    (h : ∀ word, Covers m (next word) (next' word)) :
    Covers (4 + m) (uint32 >>= next) (Reader.uint32 >>= next') := by
  simp only [uint32, Reader.uint32, bind_assoc, pure_bind]
  exact covers_octets 4 fun _ => h _

/-- Behind a check nothing has to be there beforehand. The reader has no such check, but
refuses of its own accord. -/
theorem covers_demand {cursor : Cursor β} {reader : Reader β} {n : Nat}
    (h : Covers n cursor reader) : Covers 0 (demand n >>= fun _ => cursor) reader where
  enough := by
    intro unread _
    show (demand n unread).bind (fun read => cursor read.2) = _
    by_cases hlength : n ≤ unread.length
    · rw [demand, if_pos hlength]
      exact h.enough unread hlength
    · rw [demand, if_neg hlength, h.short unread (by omega)]
      rfl
  short _ hlt := absurd hlt (Nat.not_lt_zero _)

/-- A condition reads nothing, and the cursor and the reader refuse together when it does not
hold. It may stand only where nothing is read behind it without a check, because the reader would
refuse for a wrong condition and the cursor for missing octets. -/
theorem covers_require {next : Unit → Cursor β} {next' : Unit → Reader β} (condition : Bool)
    (h : Covers 0 (next ()) (next' ())) :
    Covers 0 (require condition >>= next) (Reader.require condition >>= next') where
  enough := by
    intro unread hlength
    cases condition with
    | false => rfl
    | true => exact h.enough unread hlength
  short _ hlt := absurd hlt (Nat.not_lt_zero _)

end Cursor

namespace Packet

open Cursor

/-- Reads the header up to the payload with a cursor. -/
def walk : Cursor Header := do
  demand 12
  let options ← uint16
  let sequence ← uint16
  advance 4
  let stream ← uint32
  require (version options = 2)
  demand (4 * sourceCount options)
  advance (4 * sourceCount options)
  if hasExtension options then
    demand 4
    advance 2
    let units ← uint16
    demand (4 * units.toNat)
    advance (4 * units.toNat)
  return { stream, sequence }

/-- Each of the four checks of `walk` is for as many octets as are read up to the next one, and
the first of them stands at the beginning. So nothing has to be there beforehand. -/
theorem walk_covers : Covers 0 walk header := by
  rw [walk, header]
  refine covers_demand (n := 2 + (2 + (4 + (4 + 0)))) (covers_uint16 fun options =>
    covers_uint16 fun sequence => covers_advance 4 (covers_uint32 fun stream =>
    covers_require _ (covers_demand (n := 4 * sourceCount options + 0) (covers_advance _ ?_))))
  split
  · exact covers_demand (n := 2 + (2 + 0)) (covers_advance 2 (covers_uint16 fun units =>
      covers_demand (n := 4 * units.toNat + 0) (covers_advance _ (covers_pure _))))
  · exact covers_pure _

/-- The cursor does what the reader of a header does, on every frame. -/
theorem walk_eq (frame : Octets) :
    walk frame = (header frame).elim (.error .refused) .ok :=
  walk_covers.enough frame (Nat.zero_le _)

/-- The cursor is never moved behind the end. -/
theorem walk_ne_overrun (frame : Octets) : walk frame ≠ .error .overrun := by
  rw [walk_eq]
  cases header frame <;> simp

end Packet

end SecureRtp
