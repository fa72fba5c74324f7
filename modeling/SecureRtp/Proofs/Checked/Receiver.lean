import SecureRtp.Proofs.Checked.KeyStream
import SecureRtp.Proofs.Context.Build
import SecureRtp.Proofs.Packet.Cursor
import SecureRtp.Proofs.Packet.Origin
import SecureRtp.Proofs.Rollover.Round

/-!
# `SecureRtp.Proofs.Checked.Receiver`: a receiver that works on memory

A `Receiver` is a context whose key stream is kept in an array. This module holds the programs
that make one and that decrypt with one, each of them written with the operations of
`Checked`, and says for each of them that it has no fault and does what the definition of the
library does.

What they rest on lies far apart. A master key is copied to arrays of fixed size, for which
its lengths were checked (`build_eq`). A tag is cut off a payload that was found long enough
for it, and a frame is cut behind a header that it has because it was decoded once and has
only been rebuilt since (`Packet.Headed`); the key stream has its own invariant,
`KeyBuffer.Fits` (`decrypt_eq`).

The programs follow the functions of the interface one by one. In `Checked`,
`counterBlock` is `generate_counter`; `derive` includes `prf_aes_128_cm`; `newCounter`,
`between` and `update` are `new` and `update` of a `RolloverCounter` and the function
`rollover_adjustment`; `decode`, `dropTail` and `rebuild` are `decode`, `truncate_payload` and
`sync_raw` of an `RtpPacket`. `Receiver.build` is `build` of a `CryptoContextBuilder` with the
checks that `MasterKey` makes in `new`, and `Receiver.decrypt` is `decrypt` of a
`CryptoContext`, where `accept` is what comes after its two checks.

* `Checked.decode_eq`: no frame makes the cursor go behind its end.
* `Receiver.build_eq`: making a receiver has no fault when the limit for the disorder of
  packets can be used.
* `Receiver.decrypt_eq`: decrypting a packet has no fault when it has its header.
-/

set_option autoImplicit false

namespace SecureRtp

namespace Checked

/-! ### Blocks -/

/-- The block from which the key stream of a packet starts, `generate_counter`. -/
def counterBlock (stream rollovers : UInt32) (sequence : UInt16) (salt : Salt) :
    Checked Block := do
  let saltWord := Block.toWord (← alignRight 16 salt.toList)
  let streamWord := BitVec.ofNat 128 stream.toNat
  let indexWord := BitVec.ofNat 128 (packetIndex rollovers sequence).toNat
  return Block.ofWord ((saltWord <<< 16) ^^^ (streamWord <<< 64) ^^^ (indexWord <<< 16))

/-- A counter block is made without a fault for any packet. All that could go wrong is the
alignment of the salt. -/
theorem counterBlock_eq (stream rollovers : UInt32) (sequence : UInt16) (salt : Salt) :
    counterBlock stream rollovers sequence salt
      = .ok (SecureRtp.counterBlock stream rollovers sequence salt) := by
  rw [counterBlock, alignRight_eq]
  rfl

/-- The first sixteen octets of the key stream for a label. -/
def derive (master : MasterKey) (label : UInt8) : Checked Block := do
  let saltWord := Block.toWord (← alignRight 16 master.salt.toList)
  let labelWord := BitVec.ofNat 128 label.toNat
  let start := Block.ofWord ((saltWord ^^^ (labelWord <<< 48)) <<< 16)
  let filled ← (KeyBuffer.new master.key start).take (Vector.replicate 16 0)
  return filled.output

/-- Deriving the octets for a label has no fault, and is `MasterKey.derive`. A block is sixteen
octets of a key stream, far fewer than an index can hold. -/
theorem derive_eq (master : MasterKey) (label : UInt8) :
    derive master label = .ok (master.derive label) := by
  obtain ⟨filled, htake, houtput, -⟩ :=
    (KeyBuffer.fits_new master.key (master.labelBlock label)).take_eq (Vector.replicate 16 0)
      (by decide)
  rw [KeyBuffer.stream_new] at houtput
  have hblock : filled.output = master.derive label := Vector.toList_inj.mp houtput
  rw [derive, alignRight_eq, ok_bind, ← hblock]
  show ((KeyBuffer.new master.key (master.labelBlock label)).take _ >>= fun filled => _) = _
  rw [htake]
  rfl

/-! ### The rollover counter -/

/-- A counter that has seen no packet. The limit is asserted to be one that can be used. -/
def newCounter (maxDisorder : UInt16) : Checked RolloverCounter := do
  assert (maxDisorder < 0x8000)
  return { value := 0, last := none, maxDisorder }

/-- A counter is made without a fault for a limit that can be used. -/
theorem newCounter_eq {maxDisorder : UInt16} (h : maxDisorder < 0x8000) :
    newCounter maxDisorder = .ok { value := 0, last := none, maxDisorder } := by
  rw [newCounter, assert_eq h]
  rfl

/-- The adjustment for a sequence number after another one, `rollover_adjustment`. -/
def between (last sequence maxDisorder : UInt16) : Checked Adjustment := do
  let high ← sub 65535 maxDisorder.toNat
  if sequence = 0 then
    return if maxDisorder < last then .increment else .keep
  else if last < maxDisorder ∧ high < sequence.toNat then
    return .decrement
  else if sequence < maxDisorder ∧ high < last.toNat then
    return .increment
  else
    return .keep

/-- The adjustment has no fault for any three numbers. The limit is one of 16 bits, so the
difference to the highest number is never below zero. -/
theorem between_eq (last sequence maxDisorder : UInt16) :
    between last sequence maxDisorder = .ok (Adjustment.between last sequence maxDisorder) := by
  have hlimit := maxDisorder.toNat_lt
  rw [between, sub_eq (by omega), ok_bind, Adjustment.between]
  simp only [UInt16.lt_iff_toNat_lt, toNat_high, pure_eq_ok]
  split_ifs <;> rfl

/-- What the next packet does to the counter, and the counter after it. -/
def update (counter : RolloverCounter) (sequence : UInt16) :
    Checked (Adjustment × RolloverCounter) := do
  let adjustment ← match counter.last with
    | some last => between last sequence counter.maxDisorder
    | none => .ok .keep
  let value := adjustment.apply counter.value
  return (adjustment, { counter with value, last := some sequence })

/-- Counting a packet has no fault in any state of the counter, because its value wraps around and
is no index. -/
theorem update_eq (counter : RolloverCounter) (sequence : UInt16) :
    update counter sequence = .ok (counter.adjustment sequence, counter.update sequence) := by
  rw [update, RolloverCounter.update, RolloverCounter.adjustment]
  cases counter.last with
  | none => rfl
  | some last =>
      simp only [between_eq]
      rfl

/-! ### Packets -/

/-- The packet in a frame. -/
def decode (frame : Octets) : Checked (Except InvalidInput Packet) :=
  match Packet.walk frame with
  | .error .overrun => .error .overrun
  | .error .refused => .ok (.error .invalidInput)
  | .ok (header, payload) => do
    let payloadOffset ← sub frame.length payload.length
    return .ok { stream := header.stream, sequence := header.sequence, payloadOffset, payload,
                 frame }

/-- The cursor is never behind the end of the frame, and a frame without a header is an error
and not a fault. -/
theorem decode_eq (frame : Octets) : decode frame = .ok (Packet.decode frame) := by
  rw [decode, Packet.walk_eq, Packet.decode]
  cases hread : Packet.header frame with
  | none => rfl
  | some read =>
      obtain ⟨header, payload⟩ := read
      obtain ⟨head, rfl, -⟩ := Packet.exact_header frame header payload hread
      show (sub (head ++ payload).length payload.length >>= fun payloadOffset => _) = _
      rw [sub_eq (by simp)]
      rfl

/-- The packet without the last `count` octets of its payload, which has to have them:
`truncate_payload`, with its assertion. -/
def dropTail (packet : Packet) (count : Nat) : Checked Packet := do
  assert (count ≤ packet.payload.length)
  let kept ← sub packet.payload.length count
  return { packet with payload := packet.payload.take kept }

/-- A tail is dropped without a fault when the payload has it, which is when `dropTail?` drops
it. -/
theorem dropTail_eq {packet stripped : Packet} {count : Nat}
    (h : packet.dropTail? count = some stripped) : dropTail packet count = .ok stripped := by
  obtain ⟨hroom, rfl⟩ := (Packet.dropTail?_eq_some_iff _ _ _).mp h
  rw [dropTail, assert_eq hroom, ok_bind, sub_eq hroom]
  rfl

/-- The packet with the frame in line with the payload, `sync_raw`. The frame is cut behind the
header, which has to be there. -/
def rebuild (packet : Packet) : Checked Packet := do
  let header ← slice packet.frame 0 packet.payloadOffset
  return { packet with frame := header ++ packet.payload }

/-- Rebuilding a frame has no fault when the frame is as long as its header. -/
theorem rebuild_eq {packet : Packet} (h : packet.Headed) :
    rebuild packet = .ok packet.rebuild := by
  rw [rebuild, slice, if_pos ⟨Nat.zero_le _, h⟩]
  rfl

end Checked

open Checked

/-- A receiver of one stream that keeps its key stream in an array. -/
structure Receiver where
  /-- The profile both ends agreed on. -/
  profile : Profile
  /-- The stream the receiver belongs to, once there is one. -/
  stream : Option UInt32
  /-- The rounds of the sequence number. -/
  rollover : RolloverCounter
  /-- The salt that goes into the counter blocks of packets. -/
  sessionSalt : Salt
  /-- The key stream under the session key. -/
  keys : KeyBuffer

namespace Receiver

/-- The context that the receiver stands for. -/
def context (receiver : Receiver) : Context where
  profile := receiver.profile
  stream := receiver.stream
  rollover := receiver.rollover
  sessionSalt := receiver.sessionSalt
  keyStream := receiver.keys.stream

/-! ### Making a receiver -/

/-- A receiver with the settings of a builder, under the session keys of a master key. -/
def ofMaster (builder : Context.Builder) (master : MasterKey) : Checked Receiver := do
  let sessionKey ← derive master MasterKey.encryptionLabel
  let saltBlock ← derive master MasterKey.saltLabel
  let sessionSalt ← alignLeft 14 saltBlock.toList
  let rollover ← newCounter builder.maxDisorder
  return { profile := builder.profile, stream := none, rollover, sessionSalt,
           keys := KeyBuffer.new sessionKey (Vector.replicate 16 0) }

/-- Makes a receiver from a master key and a master salt. They are copied to arrays of fixed
size, which would hide a wrong length. -/
def build (builder : Context.Builder) (key salt : Octets) :
    Checked (Except SetupError Receiver) :=
  if key.length ≠ builder.profile.masterKeyLength then
    .ok (.error (.masterKeyLength builder.profile.masterKeyLength key.length))
  else if salt.length ≠ builder.profile.masterSaltLength then
    .ok (.error (.masterSaltLength builder.profile.masterSaltLength salt.length))
  else do
    let master : MasterKey := { key := ← alignRight 16 key, salt := ← alignRight 14 salt }
    return .ok (← ofMaster builder master)

/-- A receiver is made of a master key without a fault when the limit can be used. It stands for
the context that the builder makes, and its key stream fits its array. -/
theorem ofMaster_eq {builder : Context.Builder} (hlimit : builder.maxDisorder < 0x8000)
    (master : MasterKey) :
    ∃ receiver, ofMaster builder master = .ok receiver ∧
      receiver.context = builder.fresh master ∧ receiver.keys.Fits := by
  let receiver : Receiver :=
    { profile := builder.profile
      stream := none
      rollover := { value := 0, last := none, maxDisorder := builder.maxDisorder }
      sessionSalt := master.sessionSalt
      keys := KeyBuffer.new master.sessionKey (Vector.replicate 16 0) }
  refine ⟨receiver, ?_, rfl, KeyBuffer.fits_new _ _⟩
  rw [ofMaster, derive_eq, ok_bind, derive_eq, ok_bind, alignLeft_eq, ok_bind,
    newCounter_eq hlimit]
  rfl

/-- Making a receiver has no fault, and makes the context that the builder makes. -/
theorem build_eq {builder : Context.Builder} (hlimit : builder.maxDisorder < 0x8000)
    (key salt : Octets) :
    ∃ made, build builder key salt = .ok made ∧
      made.map context = (builder.build key salt).result ∧
      ∀ receiver, made = .ok receiver → receiver.keys.Fits := by
  rw [Context.Builder.result_build hlimit, build, MasterKey.ofOctets]
  by_cases hkey : key.length = builder.profile.masterKeyLength
  · by_cases hsalt : salt.length = builder.profile.masterSaltLength
    · let master : MasterKey :=
        { key := key.toVector (by simpa using hkey), salt := salt.toVector (by simpa using hsalt) }
      -- Octets of the right number fill their arrays.
      have hkeyArray : Octets.alignRight 16 key = master.key := Octets.alignRight_toList master.key
      have hsaltArray : Octets.alignRight 14 salt = master.salt :=
        Octets.alignRight_toList master.salt
      obtain ⟨receiver, hmade, hcontext, hfits⟩ := ofMaster_eq hlimit master
      rw [if_neg (not_not.mpr hkey), if_neg (not_not.mpr hsalt), dif_pos hkey, dif_pos hsalt,
        alignRight_eq, ok_bind, alignRight_eq, ok_bind, hkeyArray, hsaltArray]
      refine ⟨.ok receiver, ?_, congrArg Except.ok hcontext, ?_⟩
      · show (ofMaster builder master >>= fun receiver => _) = _
        rw [hmade]
        rfl
      · intro made hok
        cases hok
        exact hfits
    · rw [if_neg (not_not.mpr hkey), if_pos hsalt, dif_pos hkey, dif_neg hsalt]
      refine ⟨_, rfl, rfl, ?_⟩
      intro receiver hok
      cases hok
  · rw [if_pos hkey, dif_neg hkey]
    refine ⟨_, rfl, rfl, ?_⟩
    intro receiver hok
    cases hok

/-! ### Decrypting a packet -/

/-- What comes of decrypting a packet: whether it was decrypted, the receiver and the packet
afterwards. -/
structure Decrypted where
  /-- Whether the packet was decrypted, and if not, why. -/
  result : Except DecryptError Unit
  /-- The receiver afterwards. -/
  receiver : Receiver
  /-- The packet afterwards. -/
  packet : Packet

/-- Decrypts a packet of the receiver's stream that has room for a tag. -/
def accept (receiver : Receiver) (packet : Packet) : Checked Decrypted := do
  let counted ← Checked.update receiver.rollover packet.sequence
  let rollover := counted.2
  let start ← Checked.counterBlock packet.stream rollover.value packet.sequence receiver.sessionSalt
  let stripped ← dropTail packet receiver.profile.tagLength
  let opened ← (receiver.keys.reset start).xor stripped.payload
  let rebuilt ← rebuild { stripped with payload := opened.1 }
  return { result := .ok ()
           receiver := { receiver with
             stream := receiver.stream.or (some packet.stream), rollover, keys := opened.2 }
           packet := rebuilt }

/-- Decrypts a packet, unless it is turned away. -/
def decrypt (receiver : Receiver) (packet : Packet) : Checked Decrypted :=
  match receiver.context.otherStream? packet.stream with
  | some expected =>
    .ok { result := .error (.streamMismatch expected packet.stream), receiver, packet }
  | none =>
    if packet.payload.length < receiver.profile.tagLength then
      .ok { result := .error .invalidInput, receiver, packet }
    else receiver.accept packet

/-- What came of decrypting with a receiver is what comes of decrypting with a context. -/
structure Decrypted.Agrees (decrypted : Decrypted) (decryption : Decryption) : Prop where
  result : decrypted.result = decryption.result
  context : decrypted.receiver.context = decryption.context
  packet : decrypted.packet = decryption.packet

variable {receiver : Receiver} {packet stripped : Packet}

/-- Decrypting a packet that has its header and room for a tag has no fault, and comes to what the
context makes of the packet without the tag. -/
theorem accept_eq (hheaded : packet.Headed)
    (hstripped : packet.dropTail? receiver.profile.tagLength = some stripped) :
    ∃ decrypted, receiver.accept packet = .ok decrypted ∧
      decrypted.Agrees (receiver.context.accept stripped) ∧ decrypted.receiver.keys.Fits := by
  let rollover := receiver.rollover.update packet.sequence
  let start := SecureRtp.counterBlock packet.stream rollover.value packet.sequence
    receiver.sessionSalt
  obtain ⟨opened, hxor, hpayload, hstream, hopened⟩ :=
    (KeyBuffer.fits_reset receiver.keys start).xor_eq stripped.payload
  rw [KeyBuffer.stream_reset] at hpayload hstream
  have hrebuild : rebuild { packet with payload := opened.1 }
      = .ok (Packet.rebuild { packet with payload := opened.1 }) := rebuild_eq hheaded
  have hdrop := dropTail_eq hstripped
  -- Without its tail the packet has the fields that it had, and so its header.
  obtain ⟨-, rfl⟩ := (Packet.dropTail?_eq_some_iff _ _ _).mp hstripped
  let after : Receiver :=
    { receiver with
      stream := receiver.stream.or (some packet.stream)
      rollover
      keys := opened.2 }
  refine ⟨{ result := .ok (), receiver := after,
            packet := Packet.rebuild { packet with payload := opened.1 } }, ?_, ?_, hopened⟩
  · rw [accept, update_eq, ok_bind]
    show (Checked.counterBlock packet.stream rollover.value packet.sequence receiver.sessionSalt
      >>= fun start => _) = _
    rw [counterBlock_eq, ok_bind, hdrop, ok_bind, hxor, ok_bind, hrebuild]
    rfl
  · refine ⟨rfl, ?_, ?_⟩
    · show (⟨_, _, _, _, opened.2.stream⟩ : Context) = _
      rw [hstream]
      rfl
    · show Packet.rebuild { packet with payload := opened.1 } = _
      rw [hpayload]
      rfl

/-- Decrypting a packet has no fault, and does what a context does. -/
theorem decrypt_eq (hfits : receiver.keys.Fits) (hheaded : packet.Headed) :
    ∃ decrypted, receiver.decrypt packet = .ok decrypted ∧
      decrypted.Agrees (receiver.context.decrypt packet) ∧ decrypted.receiver.keys.Fits := by
  rw [decrypt, Context.decrypt]
  cases receiver.context.otherStream? packet.stream with
  | some expected => exact ⟨_, rfl, ⟨rfl, rfl, rfl⟩, hfits⟩
  | none =>
      dsimp only
      cases hroom : packet.dropTail? receiver.context.profile.tagLength with
      | none =>
          have hshort := (Packet.dropTail?_eq_none_iff _ _).mp hroom
          rw [if_pos (show packet.payload.length < receiver.profile.tagLength from hshort)]
          exact ⟨_, rfl, ⟨rfl, rfl, rfl⟩, hfits⟩
      | some stripped =>
          -- The program compares the lengths itself, and comes to the same as `dropTail?`.
          have hlong : ¬ packet.payload.length < receiver.profile.tagLength := by
            rw [← Packet.dropTail?_eq_none_iff]
            exact ne_of_eq_of_ne hroom (Option.some_ne_none stripped)
          rw [if_neg hlong]
          exact accept_eq hheaded hroom

end Receiver

end SecureRtp
