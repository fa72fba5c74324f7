import SecureRtp.Proofs.Context.Build
import SecureRtp.Proofs.Packet.Header
import SecureRtp.Proofs.Rollover.Window

/-!
# `SecureRtp.Proofs.Context.Delivery`: what was sent is what is received

A sender has the session keys of a master key and numbers its packets by
integers. `Sender.frame` is the frame that it makes of a message: the header,
the plaintext under the key stream of the message's true number, and a tag.

The arrival model is a list of arrivals, each a message of the sender or a stray
frame. `Admissible` says which lists are meant: the true numbers of the messages
go in steps that the rollover counter follows (`WithinReach`), which allows
duplicates, losses and packets out of order over any number of rounds, and the
stray frames are such as the context turns away. `Context.receive` is the run of
the receiver over the frames.

`Context.InStep` is the invariant. The context has the keys of the sender and the
counter is at the round of the last message, so it builds the counter block that
the sender built. `InStep.deliver` and `InStep.discard` are the steps, and
`delivered_receive` is the run.

`build_delivers` puts them together, from the master key on: every message comes
out as it was sent, and every stray frame is left alone.
-/

set_option autoImplicit false

namespace SecureRtp

/-! ### The sender -/

/-- The sending end of a stream. -/
structure Sender where
  /-- The key that packets are encrypted with. -/
  key : Key
  /-- The salt that goes into the counter blocks. -/
  salt : Salt
  /-- The stream. -/
  stream : UInt32

/-- A packet as the sender means it. -/
structure Message where
  /-- The true number of the packet in the stream. -/
  index : Int
  /-- The header, with everything that belongs to it. -/
  header : Octets
  /-- The payload, not encrypted. -/
  plaintext : Octets
  /-- The authentication tag. -/
  tag : Octets

/-- The sender whose session keys come from `master`. -/
def Sender.ofMaster (master : MasterKey) (stream : UInt32) : Sender :=
  { key := master.sessionKey, salt := master.sessionSalt, stream }

/-- The encrypted payload of a message. The counter block holds the round of the
true number modulo `2 ^ 32` and the true number modulo `2 ^ 16`. -/
def Sender.ciphertext (sender : Sender) (message : Message) : Octets :=
  let start := counterBlock sender.stream (UInt32.ofInt (roundOf message.index))
    (sequenceOf message.index) sender.salt
  Octets.xor message.plaintext (streamOctets sender.key start 0 message.plaintext.length)

/-- The frame of a message. -/
def Sender.frame (sender : Sender) (message : Message) : Octets :=
  message.header ++ (sender.ciphertext message ++ message.tag)

/-- The message is one that the sender can send. Its header is a header as
packets have it, of any form, with the stream and the sequence number in it; the
tag is any octets of the right number. -/
structure Sender.CanSend (sender : Sender) (profile : Profile) (message : Message) : Prop where
  header : Packet.decode message.header
    = .ok { stream := sender.stream, sequence := sequenceOf message.index,
            payloadOffset := message.header.length, payload := [], frame := message.header }
  tag : message.tag.length = profile.tagLength

/-! ### Arrivals -/

/-- What arrives at the receiver. -/
inductive Arrival
  /-- A message of the sender. -/
  | genuine (message : Message)
  /-- Some other frame. -/
  | stray (frame : Octets)

/-- The frame that arrives. -/
def Arrival.frame (sender : Sender) : Arrival → Octets
  | genuine message => sender.frame message
  | stray frame => frame

/-- The message `i` may come after the message `last`, or as the first one of
all. -/
def MayFollow (maxDisorder : UInt16) : Option Int → Int → Prop
  | none, i => 0 ≤ i ∧ i < 65536
  | some last, i => WithinReach maxDisorder last i

instance (maxDisorder : UInt16) (last : Option Int) (i : Int) :
    Decidable (MayFollow maxDisorder last i) :=
  match last with
  | none => inferInstanceAs (Decidable (_ ∧ _))
  | some last => inferInstanceAs (Decidable (WithinReach maxDisorder last i))

/-- The lists of arrivals that the context is made for, when `last` is the true
number of the last message before. A packet in a stray frame has no room for a
tag, or belongs to another stream and comes after the first message. -/
inductive Admissible (sender : Sender) (profile : Profile) (maxDisorder : UInt16) :
    Option Int → List Arrival → Prop
  | nil (last : Option Int) : Admissible sender profile maxDisorder last []
  | genuine {last : Option Int} {message : Message} {rest : List Arrival}
      (hsend : sender.CanSend profile message)
      (hfollow : MayFollow maxDisorder last message.index)
      (hrest : Admissible sender profile maxDisorder (some message.index) rest) :
      Admissible sender profile maxDisorder last (.genuine message :: rest)
  | stray {last : Option Int} {frame : Octets} {rest : List Arrival}
      (hstray : ∀ packet, Packet.decode frame = .ok packet →
        packet.payload.length < profile.tagLength ∨
          (last.isSome ∧ packet.stream ≠ sender.stream))
      (hrest : Admissible sender profile maxDisorder last rest) :
      Admissible sender profile maxDisorder last (.stray frame :: rest)

/-! ### The receiver -/

/-- Decodes and decrypts frames in the order of their arrival. A frame that holds
no packet does not reach the context. -/
def Context.receive (context : Context) :
    List Octets → List (Except InvalidInput Decryption)
  | [] => []
  | frame :: frames =>
    match Packet.decode frame with
    | .error error => .error error :: context.receive frames
    | .ok packet =>
      .ok (context.decrypt packet) :: (context.decrypt packet).context.receive frames

/-- What has to come of an arrival. A message is decrypted: the payload is the
plaintext, the frame is the header and the plaintext, and the rollover counter is
the round of the true number. A packet in a stray frame is refused and comes back
as it was. -/
def Delivered : Arrival → Except InvalidInput Decryption → Prop
  | .genuine message, outcome =>
    ∃ decryption, outcome = .ok decryption ∧ decryption.result = .ok () ∧
      decryption.packet.payload = message.plaintext ∧
      decryption.packet.frame = message.header ++ message.plaintext ∧
      (decryption.context.rollover.value.toNat : Int) = roundOf message.index % 2 ^ 32
  | .stray frame, outcome =>
    match Packet.decode frame with
    | .error error => outcome = .error error
    | .ok packet =>
      ∃ decryption error, outcome = .ok decryption ∧ decryption.result = .error error ∧
        decryption.packet = packet

namespace Context

/-- The context is in step with the sender: it has the settings and the keys,
belongs to the stream once there was a message, and its counter is at the round of
the last message. -/
structure InStep (context : Context) (sender : Sender) (profile : Profile)
    (maxDisorder : UInt16) (last : Option Int) : Prop where
  profile : context.profile = profile
  sessionSalt : context.sessionSalt = sender.salt
  keyed : context.Keyed sender.key
  maxDisorder : context.rollover.maxDisorder = maxDisorder
  stream : context.stream = last.map fun _ => sender.stream
  rollover : match last with
    | none => context.rollover.last = none ∧ context.rollover.value = 0
    | some i => context.rollover.Tracks i 0

/-- A new context is in step with a sender that has sent nothing. -/
theorem Fresh.inStep {context : Context} {builder : Builder} {master : MasterKey}
    (h : context.Fresh builder master) (stream : UInt32) :
    context.InStep (Sender.ofMaster master stream) builder.profile builder.maxDisorder none where
  profile := h.profile
  sessionSalt := h.sessionSalt
  keyed := h.keyed
  maxDisorder := by rw [h.rollover]
  stream := h.stream
  rollover := by
    rw [h.rollover]
    exact ⟨rfl, rfl⟩

end Context

/-- A counter that is right has the round of its packet modulo `2 ^ 32`. -/
theorem RolloverCounter.Tracks.value_eq {counter : RolloverCounter} {i : Int}
    (h : counter.Tracks i 0) : counter.value = UInt32.ofInt (roundOf i) := by
  have hvalue := h.value
  rw [sub_zero] at hvalue
  have hlt := counter.value.toNat_lt
  apply UInt32.toNat_inj.mp
  show counter.value.toNat = (roundOf i % 2 ^ 32).toNat % 2 ^ 32
  omega

namespace Context

variable {context : Context} {sender : Sender} {profile : Profile} {maxDisorder : UInt16}
  {last : Option Int}

/-- The message puts the counter at its round. -/
theorem InStep.tracks (h : context.InStep sender profile maxDisorder last)
    (hlimit : maxDisorder < 0x8000) {i : Int} (hfollow : MayFollow maxDisorder last i) :
    (context.rollover.update (sequenceOf i)).Tracks i 0 := by
  have hrollover := h.rollover
  cases last with
  | none =>
      -- A new counter takes the first packet for one of the round zero.
      obtain ⟨hlast, hvalue⟩ := hrollover
      exact .first hlast hvalue ((roundOf_eq_zero_iff i).mpr hfollow)
  | some l =>
      have hslip : slip context.rollover.maxDisorder l i = 0 := by
        rw [h.maxDisorder]
        exact slip_eq_zero hlimit hfollow
      have hmoved := RolloverCounter.Tracks.update hrollover i
      rwa [hslip, add_zero] at hmoved

/-- The packet in the frame of a message. -/
theorem decode_frame {message : Message} (hsend : sender.CanSend profile message) :
    Packet.decode (sender.frame message)
      = .ok { stream := sender.stream, sequence := sequenceOf message.index,
              payloadOffset := message.header.length,
              payload := sender.ciphertext message ++ message.tag,
              frame := sender.frame message } :=
  Packet.decode_append hsend.header _

@[simp] theorem length_ciphertext (sender : Sender) (message : Message) :
    (sender.ciphertext message).length = message.plaintext.length := by
  simp [Sender.ciphertext]

/-- Decryption takes the key stream off that the sender put on, because the two
agree on the counter block. -/
theorem InStep.plaintext_eq (h : context.InStep sender profile maxDisorder last)
    (hlimit : maxDisorder < 0x8000) {message : Message}
    (hfollow : MayFollow maxDisorder last message.index)
    (hsend : sender.CanSend profile message) {packet : Packet}
    (hstream : packet.stream = sender.stream)
    (hsequence : packet.sequence = sequenceOf message.index)
    (hpayload : packet.payload = sender.ciphertext message ++ message.tag) :
    context.plaintext sender.key packet = message.plaintext := by
  have hround : (context.rollover.update (sequenceOf message.index)).value
      = UInt32.ofInt (roundOf message.index) := (h.tracks hlimit hfollow).value_eq
  have hlength : packet.payload.length - context.profile.tagLength
      = message.plaintext.length := by
    rw [hpayload, h.profile, List.length_append, hsend.tag, length_ciphertext,
      Nat.add_sub_cancel]
  have htake : packet.payload.take message.plaintext.length = sender.ciphertext message := by
    rw [hpayload, ← length_ciphertext sender message, List.take_left]
  -- The two ends put the same stream, round, sequence number and salt into the block.
  rw [plaintext]
  simp only [hlength, htake, hround, hstream, hsequence, h.sessionSalt]
  rw [Sender.ciphertext]
  exact Octets.xor_xor_cancel _ _ (by rw [length_streamOctets])

/-- A message is decrypted, and the context is in step with the sender after
it. -/
theorem InStep.deliver (h : context.InStep sender profile maxDisorder last)
    (hlimit : maxDisorder < 0x8000) {message : Message}
    (hfollow : MayFollow maxDisorder last message.index)
    (hsend : sender.CanSend profile message) :
    ∃ packet, Packet.decode (sender.frame message) = .ok packet ∧
      Delivered (.genuine message) (.ok (context.decrypt packet)) ∧
      (context.decrypt packet).context.InStep sender profile maxDisorder
        (some message.index) := by
  refine ⟨_, decode_frame hsend, ?_⟩
  generalize hpacket : Packet.mk sender.stream (sequenceOf message.index)
    message.header.length (sender.ciphertext message ++ message.tag)
    (sender.frame message) = packet
  have hstream : packet.stream = sender.stream := by rw [← hpacket]
  have hsequence : packet.sequence = sequenceOf message.index := by rw [← hpacket]
  have hpayload : packet.payload = sender.ciphertext message ++ message.tag := by rw [← hpacket]
  -- The stream is that of the context, if it has one yet, and the tag makes room for a tag.
  have haccepts : context.Accepts packet := by
    refine ⟨?_, ?_⟩
    · intro own hown
      rw [h.stream, Option.mem_map] at hown
      obtain ⟨-, -, rfl⟩ := hown
      exact hstream.symm
    · rw [hpayload, h.profile, List.length_append, hsend.tag]
      exact Nat.le_add_left _ _
  have hopens := decrypt_of_accepts h.keyed haccepts
  have hplain := h.plaintext_eq hlimit hfollow hsend hstream hsequence hpayload
  -- The counter of the context stands at the message after it was counted.
  have htracks := h.tracks hlimit hfollow
  rw [← hsequence, ← hopens.rollover] at htracks
  refine ⟨⟨_, rfl, hopens.result, ?_, ?_, ?_⟩, ⟨?_, ?_, hopens.keyed, ?_, ?_, htracks⟩⟩
  · rw [hopens.opened]
    exact hplain
  · -- The frame is cut behind its header.
    have hheader : packet.frame.take packet.payloadOffset = message.header := by
      rw [← hpacket]
      exact List.take_left
    rw [hopens.opened, hheader]
    exact congrArg (message.header ++ ·) hplain
  · rw [htracks.value, sub_zero]
  · rw [hopens.profile, h.profile]
  · rw [hopens.sessionSalt, h.sessionSalt]
  · rw [hopens.rollover, RolloverCounter.maxDisorder_update, h.maxDisorder]
  · rw [hopens.stream, hstream]
    rfl

/-- A packet in a stray frame is refused, and neither it nor the context
changes. -/
theorem InStep.discard (h : context.InStep sender profile maxDisorder last) {packet : Packet}
    (hstray : packet.payload.length < profile.tagLength ∨
      (last.isSome ∧ packet.stream ≠ sender.stream)) :
    ∃ reason, context.decrypt packet = context.reject packet reason := by
  refine decrypt_of_not_accepts fun ⟨hstream, hroom⟩ => ?_
  rw [h.profile] at hroom
  rcases hstray with hshort | ⟨hsome, hother⟩
  · omega
  · obtain ⟨i, rfl⟩ := Option.isSome_iff_exists.mp hsome
    exact hother (hstream sender.stream h.stream).symm

/-- The run of the receiver over an admissible list of arrivals. -/
theorem delivered_receive (hlimit : maxDisorder < 0x8000) {arrivals : List Arrival}
    (harrivals : Admissible sender profile maxDisorder last arrivals)
    (h : context.InStep sender profile maxDisorder last) :
    List.Forall₂ Delivered arrivals
      (context.receive (arrivals.map (Arrival.frame sender))) := by
  -- Only a message moves the context on; a stray frame leaves it in step as it is.
  induction harrivals generalizing context with
  | nil => exact .nil
  | @genuine last message rest hsend hfollow _ ih =>
      obtain ⟨packet, hdecode, hdelivered, hstep⟩ := h.deliver hlimit hfollow hsend
      rw [List.map_cons, Arrival.frame, receive, hdecode]
      exact .cons hdelivered (ih hstep)
  | @stray last frame rest hstray _ ih =>
      rw [List.map_cons, Arrival.frame, receive]
      cases hdecode : Packet.decode frame with
      | error error =>
          refine .cons ?_ (ih h)
          rw [Delivered, hdecode]
      | ok packet =>
          obtain ⟨reason, hreject⟩ := h.discard (hstray packet hdecode)
          simp only [hreject]
          refine .cons ?_ (ih h)
          rw [Delivered, hdecode]
          exact ⟨_, _, rfl, rfl, rfl⟩

/-- From the master key to the plaintexts. A context that is made from a master
key and a master salt, with any profile and any limit, gives every message of the
stream back as it was sent, whatever arrives in between that it has to turn
away. -/
theorem build_delivers (master : MasterKey) (profile : Profile) (maxDisorder : UInt16)
    (stream : UInt32) (hlimit : maxDisorder < 0x8000) :
    ∃ context,
      (Builder.build { profile, maxDisorder } master.key.toList master.salt.toList).result
        = .ok context ∧
      ∀ arrivals : List Arrival,
        Admissible (Sender.ofMaster master stream) profile maxDisorder none arrivals →
          List.Forall₂ Delivered arrivals
            (context.receive
              (arrivals.map (Arrival.frame (Sender.ofMaster master stream)))) := by
  obtain ⟨context, hbuild, hfresh⟩ :=
    exists_build_fresh { profile, maxDisorder } hlimit master
  refine ⟨context, hbuild, fun arrivals harrivals => ?_⟩
  exact delivered_receive hlimit harrivals (hfresh.inStep stream)

/-- A stream that goes over the seam and comes back for a late packet. The second
message has a header with a source and an extension. The frames in between are one
without a header, one without room for a tag, and one of another stream. -/
theorem build_delivers_across_seam :
    let master : MasterKey := ⟨Vector.replicate 16 0x2b, Vector.replicate 14 0xf0⟩
    let first : Message := ⟨65534, [0x80, 0, 0xff, 0xfe, 0, 0, 0, 0, 1, 2, 3, 4], [5, 6],
      List.replicate 4 0⟩
    let early : Message := ⟨65536, [0x91, 0, 0, 0, 0, 0, 0, 0, 1, 2, 3, 4, 9, 9, 9, 9,
      0, 0, 0, 1, 8, 8, 8, 8], List.replicate 20 7, List.replicate 4 1⟩
    let late : Message := ⟨65535, [0x80, 0, 0xff, 0xff, 0, 0, 0, 0, 1, 2, 3, 4], [],
      List.replicate 4 2⟩
    let arrivals := [.stray [0x80, 0, 0, 5, 0, 0, 0, 0, 1, 2, 3, 4, 6, 6, 6], .genuine first,
      .stray [0x80, 0], .genuine early,
      .stray [0x80, 0, 0, 5, 0, 0, 0, 0, 4, 3, 2, 1, 6, 6, 6, 6, 6], .genuine late]
    ∃ context,
      (Builder.build ⟨.tag32, 100⟩ master.key.toList master.salt.toList).result = .ok context ∧
        List.Forall₂ Delivered arrivals
          (context.receive
            (arrivals.map (Arrival.frame (Sender.ofMaster master 0x01020304)))) := by
  -- The headers are read as they stand, so the names of the messages have to go.
  dsimp only
  obtain ⟨context, hbuild, hdelivers⟩ := build_delivers
    ⟨Vector.replicate 16 0x2b, Vector.replicate 14 0xf0⟩ .tag32 100 0x01020304 (by decide)
  refine ⟨context, hbuild, hdelivers _ ?_⟩
  refine .stray ?_ (.genuine ⟨by rfl, rfl⟩ (by decide) (.stray ?_ (.genuine ⟨by rfl, rfl⟩
    (by decide) (.stray ?_ (.genuine ⟨by rfl, rfl⟩ (by decide) (.nil _))))))
  · rintro packet ⟨⟩
    exact .inl (by decide)
  · rintro packet ⟨⟩
  · rintro packet ⟨⟩
    exact .inr ⟨rfl, by decide⟩

end Context

end SecureRtp
