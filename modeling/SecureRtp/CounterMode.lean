import SecureRtp.Aes.Cipher
import SecureRtp.Octets.BigEndian

/-!
# `SecureRtp.CounterMode`: a block cipher as a source of octets

In counter mode the cipher encrypts a starting block, its successor, the
successor of that, and so on, where a block counts as a number of 128
bits and the successor of the largest one is zero. The encrypted blocks,
one behind the other, form a stream without end.

`octet` names each octet of the stream by its position, whatever has been
drawn before; it is the reference for everything that hands out parts of
the stream. `draw` takes the next octets and produces them block by
block. `draw_fst` says that the two agree.

## What is assumed of the cipher engine

The cipher is run by an engine outside of the receiver, of which nothing
but its documented behaviour is known. A `CounterMode` is this behaviour,
and whatever is said of key streams rests on it. These are the
assumptions, each with the definition that makes it:

* To begin with a key and a starting block (`encrypt_init` with both) is
  `new`: the stream of this key from this block, of which nothing has been
  drawn.
* To encrypt zeros (`cipher_update`) is `draw`. As many octets come out as
  zeros went in (`length_draw`), and they are the next ones of the stream
  (`draw_fst`). So the stream goes on from one call to the next, also in
  the middle of a block, and how it is cut into calls makes no difference.
* To give a starting block alone (`encrypt_init` without a key) is
  `restart`: the stream of the new block from its first octet, under the
  key that was expanded before. What was drawn of the old stream, the rest
  of a block included, has no part in it.
* The whole block is counted, as a number of 128 bits that wraps around
  (`block`).
* None of these calls fails. The errors of the engine are kept in
  `SecureRtp.Error` as texts, and nothing here gives rise to one.

How a single block is encrypted is `SecureRtp.Aes.Cipher`. No proof about
key streams, counter blocks or packets looks into it, so they hold for any
function of a key and a block in its place. The vectors of RFC 3711 below
and in `SecureRtp.Proofs.MasterKey` are the ones that hold for this cipher
alone.
-/

set_option autoImplicit false

namespace SecureRtp

/-- A stream of octets under one key and starting block, part of which
has been drawn. -/
structure CounterMode where
  /-- The expanded key. -/
  schedule : Aes.KeySchedule
  /-- The block that is encrypted first. -/
  start : Block
  /-- How many octets of the stream have been drawn. -/
  drawn : Nat

namespace CounterMode

/-- The stream of a key from a starting block, of which nothing has been drawn. -/
def new (key : Key) (start : Block) : CounterMode :=
  { schedule := Aes.expand key, start, drawn := 0 }

/-- The stream of the same key from another starting block. Nothing of the stream before is
left in it. -/
def restart (source : CounterMode) (start : Block) : CounterMode :=
  { source with start, drawn := 0 }

/-- Block number `j` of the stream. -/
def block (source : CounterMode) (j : Nat) : Block :=
  source.schedule.encrypt (Block.ofWord (source.start.toWord + BitVec.ofNat 128 j))

/-- The octet of the stream at position `p`. -/
def octet (source : CounterMode) (p : Nat) : UInt8 := (source.block (p / 16))[p % 16]

/-- The `count` octets of the stream from position `first`, each taken by
its position. -/
def octets (source : CounterMode) (first count : Nat) : Octets :=
  (List.range' first count).map source.octet

/-- The `count` blocks of the stream from number `first`, one behind the
other. -/
def blocks (source : CounterMode) (first count : Nat) : Octets :=
  (List.range' first count).flatMap fun j => (source.block j).toList

/-- Draws the next `n` octets. The blocks that hold them are produced
whole, and what lies in front of them or behind them is cut off. -/
def draw (source : CounterMode) (n : Nat) : Octets × CounterMode :=
  let lead := source.drawn % 16
  let whole := source.blocks (source.drawn / 16) ((lead + n + 15) / 16)
  ((whole.drop lead).take n, { source with drawn := source.drawn + n })

/-! ### What is drawn -/

@[simp] theorem length_octets (source : CounterMode) (first count : Nat) :
    (source.octets first count).length = count := by
  simp [octets]

/-- Neighbouring parts of the stream join. -/
theorem octets_append (source : CounterMode) (first m n : Nat) :
    source.octets first m ++ source.octets (first + m) n = source.octets first (m + n) := by
  rw [octets, octets, octets, ← List.map_append, List.range'_append_1]

/-- The sixteen octets at the positions of a block are the block. -/
theorem octets_block (source : CounterMode) (j : Nat) :
    source.octets (16 * j) 16 = (source.block j).toList := by
  apply List.ext_getElem
  · simp
  · intro i h₁ h₂
    rw [length_octets] at h₁
    have hdiv : (16 * j + i) / 16 = j := by omega
    have hmod : (16 * j + i) % 16 = i := by omega
    simp only [octets, List.getElem_map, List.getElem_range', Nat.one_mul, octet,
      Vector.getElem_toList, hdiv, hmod]

/-- Whole blocks are the octets at their positions. -/
theorem blocks_eq_octets (source : CounterMode) (first count : Nat) :
    source.blocks first count = source.octets (16 * first) (16 * count) := by
  induction count generalizing first with
  | zero => rfl
  | succ count ih =>
      rw [blocks, List.range'_succ, List.flatMap_cons, ← octets_block, ← blocks, ih,
        Nat.mul_add, octets_append, Nat.mul_succ, Nat.add_comm 16]

/-- Part of a part of the stream. -/
theorem take_drop_octets (source : CounterMode) (first count skip n : Nat)
    (h : skip + n ≤ count) :
    ((source.octets first count).drop skip).take n = source.octets (first + skip) n := by
  obtain ⟨rest, rfl⟩ := Nat.exists_eq_add_of_le h
  rw [Nat.add_assoc, ← octets_append, ← octets_append, List.drop_append_of_le_length (by simp),
    List.drop_of_length_le (by simp), List.nil_append, List.take_append_of_le_length (by simp),
    List.take_of_length_le (by simp)]

/-- What is drawn is the next part of the stream. -/
theorem draw_fst (source : CounterMode) (n : Nat) :
    (source.draw n).1 = source.octets source.drawn n := by
  have hposition : 16 * (source.drawn / 16) + source.drawn % 16 = source.drawn := by omega
  simp only [draw]
  rw [blocks_eq_octets, take_drop_octets _ _ _ _ _ (by omega), hposition]

/-- As many octets are drawn as were asked for. -/
@[simp] theorem length_draw (source : CounterMode) (n : Nat) : (source.draw n).1.length = n := by
  rw [draw_fst, length_octets]

/-- The key stream of RFC 3711, appendix B.2: three blocks, of which the first five octets are
drawn before the others. -/
example :
    let source := new #v[0x2b, 0x7e, 0x15, 0x16, 0x28, 0xae, 0xd2, 0xa6, 0xab, 0xf7, 0x15, 0x88,
        0x09, 0xcf, 0x4f, 0x3c]
      #v[0xf0, 0xf1, 0xf2, 0xf3, 0xf4, 0xf5, 0xf6, 0xf7, 0xf8, 0xf9, 0xfa, 0xfb, 0xfc, 0xfd, 0x00,
        0x00]
    let first := source.draw 5
    first.1 ++ (first.2.draw 43).1
      = [0xe0, 0x3e, 0xad, 0x09, 0x35, 0xc9, 0x5e, 0x80, 0xe1, 0x66, 0xb1, 0x6d, 0xd9, 0x2b, 0x4e,
        0xb4, 0xd2, 0x35, 0x13, 0x16, 0x2b, 0x02, 0xd0, 0xf7, 0x2a, 0x43, 0xa2, 0xfe, 0x4a, 0x5f,
        0x97, 0xab, 0x41, 0xe9, 0x5b, 0x3b, 0xb0, 0xa2, 0xe8, 0xdd, 0x47, 0x79, 0x01, 0xe4, 0xfc,
        0xa8, 0x94, 0xc0] := by
  decide +kernel

end CounterMode

end SecureRtp
