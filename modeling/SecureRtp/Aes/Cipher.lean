import SecureRtp.Aes.State

/-!
# `SecureRtp.Aes.Cipher`: encrypting one block

A 128-bit key is expanded once into eleven round keys. Encryption adds
the first to the block and then runs ten rounds, one for each of the
others; the last round leaves out the mixing of the columns. Counter mode
needs encryption only, so there is no inverse here.
-/

set_option autoImplicit false

namespace SecureRtp.Aes

/-- A key that has been expanded for use. -/
structure KeySchedule where
  /-- The key itself, which is added before the first round. -/
  whitening : State
  /-- The keys of the rounds, the first round first. -/
  rounds : List State

/-- The constants that go into the round keys: the powers of `x`, from
the one with exponent zero. -/
def roundConstants : List UInt8 := [0x01, 0x02, 0x04, 0x08, 0x10, 0x20, 0x40, 0x80, 0x1b, 0x36]

/-- The round key after `k`. Its first column is the first column of `k`
plus the last one, turned, substituted and marked with the constant of
the round; every other column adds the column of `k` in its place to its
neighbour on the left. -/
def nextRoundKey (constant : UInt8) (k : State) : State :=
  let c₀ := (k.c₀.add (k.c₃.rotateUp.map substitute)).add ⟨constant, 0, 0, 0⟩
  let c₁ := k.c₁.add c₀
  let c₂ := k.c₂.add c₁
  let c₃ := k.c₃.add c₂
  ⟨c₀, c₁, c₂, c₃⟩

/-- The round keys that follow `k`, one for each constant. -/
def roundKeys (k : State) : List UInt8 → List State
  | [] => []
  | constant :: constants =>
    let next := nextRoundKey constant k
    next :: roundKeys next constants

/-- Expands a key. -/
def expand (key : Key) : KeySchedule :=
  let k := State.ofBlock key
  { whitening := k, rounds := roundKeys k roundConstants }

/-- Runs the rounds with the given keys. The last one does not mix the
columns. -/
def runRounds (s : State) : List State → State
  | [] => s
  | [k] => s.substitute.shiftRows.add k
  | k :: next :: ks => runRounds (s.substitute.shiftRows.mixColumns.add k) (next :: ks)

/-- Encrypts a block under an expanded key. -/
def KeySchedule.encrypt (schedule : KeySchedule) (block : Block) : Block :=
  (runRounds ((State.ofBlock block).add schedule.whitening) schedule.rounds).toBlock

/-- The cipher: a block encrypted under a key. -/
def encrypt (key : Key) (block : Block) : Block := (expand key).encrypt block

/-- The first counter block of RFC 3711, appendix B.2. Its key is the one that the standard of
the cipher expands as its example. -/
example :
    encrypt #v[0x2b, 0x7e, 0x15, 0x16, 0x28, 0xae, 0xd2, 0xa6, 0xab, 0xf7, 0x15, 0x88, 0x09, 0xcf,
        0x4f, 0x3c]
      #v[0xf0, 0xf1, 0xf2, 0xf3, 0xf4, 0xf5, 0xf6, 0xf7, 0xf8, 0xf9, 0xfa, 0xfb, 0xfc, 0xfd, 0x00,
        0x00]
      = #v[0xe0, 0x3e, 0xad, 0x09, 0x35, 0xc9, 0x5e, 0x80, 0xe1, 0x66, 0xb1, 0x6d, 0xd9, 0x2b, 0x4e,
        0xb4] := by
  decide +kernel

end SecureRtp.Aes
