import SecureRtp.Proofs.Checked.Receiver

/-!
# `SecureRtp.Proofs.Checked.Session`: everything that can be called

A `Session` is all that a user of the library has in hand: builders, receivers, packets and
rollover counters. A `Call` does something with them or makes a new one, and calls come in any
order and with any arguments. `Operations.perform` says what a call does, from the operations
that it is made of. There are two sets of them. `Operations.onMemory` are the programs on
memory, which have faults; `Operations.plain` are the definitions of the library, where nothing
can go wrong and only a limit for the disorder of packets is refused. Reading the fields of
what is in hand, the names of profiles and the texts of errors need no operation that could go
wrong, and there are no calls for them.

Most calls have the names of the interface. `setProfile` and `setLimit` are `profile` and
`max_rollover_disorder` of a builder; `overwrite` is a write through `payload_mut`; `newCounter`
and `cloneCounter` make a `RolloverCounter`; `between` and `counterBlock` are the functions
`rollover_adjustment` and `generate_counter`, which a user can call without having anything in
hand.

A fault does not end a session. The user may catch it and go on, with what the call has left
behind.

The operations that do not touch a receiver are the same in both sets: `setLimit_eq`,
`decode_eq`, `newCounter_eq`, `update_eq`, `between_eq`, `counterBlock_eq`. `setLimit_of_le`
says what a limit of no use does to a builder, which is nothing.
-/

set_option autoImplicit false

namespace SecureRtp

open Checked

/-- What a user has in hand. Receivers are of the type `κ`. -/
structure Session (κ : Type) where
  /-- The builders. -/
  builders : List Context.Builder := []
  /-- The receivers that were made. -/
  receivers : List κ := []
  /-- The packets that were decoded or cloned. -/
  packets : List Packet := []
  /-- The rollover counters that were made by themselves. -/
  counters : List RolloverCounter := []

/-- What can be called. What is in hand is named by its place. -/
inductive Call
  /-- To take a new builder. -/
  | newBuilder
  /-- To set the profile of a builder. -/
  | setProfile (place : Nat) (profile : Profile)
  /-- To set the limit of a builder for the disorder of packets. -/
  | setLimit (place : Nat) (limit : UInt16)
  /-- To make a receiver with a builder. -/
  | build (place : Nat) (key salt : Octets)
  /-- To decode a frame. -/
  | decode (frame : Octets)
  /-- To write over the payload of a packet. -/
  | overwrite (place start : Nat) (octets : Octets)
  /-- To clone a packet. -/
  | clonePacket (place : Nat)
  /-- To decrypt a packet with a receiver. -/
  | decrypt (receiver packet : Nat)
  /-- To make a rollover counter. -/
  | newCounter (limit : UInt16)
  /-- To clone a rollover counter. -/
  | cloneCounter (place : Nat)
  /-- To have a rollover counter count a packet. -/
  | update (place : Nat) (sequence : UInt16)
  /-- To ask for the adjustment for a sequence number after another one. -/
  | between (last sequence limit : UInt16)
  /-- To ask for the counter block of a packet. -/
  | counterBlock (stream rollovers : UInt32) (sequence : UInt16) (salt : Salt)

/-- What a call answers. -/
inductive Answer
  /-- There is nothing at the place that was named. -/
  | nothing
  /-- It was done. -/
  | done
  /-- A receiver was made, or why not. -/
  | built (result : Except SetupError Unit)
  /-- A packet was decoded, or why not. -/
  | decoded (result : Except InvalidInput Unit)
  /-- A packet was decrypted, or why not. -/
  | decrypted (result : Except DecryptError Unit)
  /-- The adjustment that was asked for. -/
  | adjustment (adjustment : Adjustment)
  /-- The block that was asked for. -/
  | block (block : Block)
deriving DecidableEq

/-- What comes of a call: an answer or a fault, and the session afterwards. -/
abbrev Outcome (κ : Type) := Checked Answer × Session κ

/-- The operations that calls are made of. -/
structure Operations (κ : Type) where
  /-- Sets the limit of a builder, in place. -/
  setLimit : UInt16 → Context.Builder → Checked Unit × Context.Builder
  /-- Makes a receiver. -/
  build : Context.Builder → Octets → Octets → Checked (Except SetupError κ)
  /-- Decodes a frame. -/
  decode : Octets → Checked (Except InvalidInput Packet)
  /-- Decrypts a packet. -/
  decrypt : κ → Packet → Checked (Except DecryptError Unit × κ × Packet)
  /-- Makes a rollover counter. -/
  newCounter : UInt16 → Checked RolloverCounter
  /-- Counts a packet. -/
  update : RolloverCounter → UInt16 → Checked (Adjustment × RolloverCounter)
  /-- Gives the adjustment for a sequence number after another one. -/
  between : UInt16 → UInt16 → UInt16 → Checked Adjustment
  /-- Gives the counter block of a packet. -/
  counterBlock : UInt32 → UInt32 → UInt16 → Salt → Checked Block

/-- Goes on with the result of a program. A fault leaves the session as it is: of the programs
that are followed in this way, those that write anything will turn out to have none. -/
def Session.follow {κ α : Type} (session : Session κ) (result : Checked α)
    (next : α → Outcome κ) : Outcome κ :=
  match result with
  | .ok a => next a
  | .error fault => (.error fault, session)

/-- Goes on with what is at a place, if there is something. -/
def Session.visit {κ α : Type} (session : Session κ) (items : List α) (place : Nat)
    (next : α → Outcome κ) : Outcome κ :=
  match items[place]? with
  | some a => next a
  | none => (.ok .nothing, session)

namespace Operations

variable {κ : Type}

/-- What a call does. -/
def perform (operations : Operations κ) (session : Session κ) : Call → Outcome κ
  | .newBuilder => (.ok .done, { session with builders := session.builders ++ [default] })
  | .setProfile place profile =>
    session.visit session.builders place fun builder =>
      let changed := builder.withProfile profile
      (.ok .done, { session with builders := session.builders.set place changed })
  | .setLimit place limit =>
    session.visit session.builders place fun builder =>
      let changed := operations.setLimit limit builder
      (changed.1.map fun _ => .done,
        { session with builders := session.builders.set place changed.2 })
  | .build place key salt =>
    session.visit session.builders place fun builder =>
      session.follow (operations.build builder key salt) fun
        | .ok receiver =>
          (.ok (.built (.ok ())), { session with receivers := session.receivers ++ [receiver] })
        | .error error => (.ok (.built (.error error)), session)
  | .decode frame =>
    session.follow (operations.decode frame) fun
      | .ok packet =>
        (.ok (.decoded (.ok ())), { session with packets := session.packets ++ [packet] })
      | .error error => (.ok (.decoded (.error error)), session)
  | .overwrite place start octets =>
    session.visit session.packets place fun packet =>
      let written := packet.overwrite start octets
      (.ok .done, { session with packets := session.packets.set place written })
  | .clonePacket place =>
    session.visit session.packets place fun packet =>
      (.ok .done, { session with packets := session.packets ++ [packet] })
  | .decrypt place packetPlace =>
    session.visit session.receivers place fun receiver =>
      session.visit session.packets packetPlace fun packet =>
        session.follow (operations.decrypt receiver packet) fun (result, receiver, packet) =>
          (.ok (.decrypted result),
            { session with
              receivers := session.receivers.set place receiver
              packets := session.packets.set packetPlace packet })
  | .newCounter limit =>
    session.follow (operations.newCounter limit) fun counter =>
      (.ok .done, { session with counters := session.counters ++ [counter] })
  | .cloneCounter place =>
    session.visit session.counters place fun counter =>
      (.ok .done, { session with counters := session.counters ++ [counter] })
  | .update place sequence =>
    session.visit session.counters place fun counter =>
      session.follow (operations.update counter sequence) fun (adjustment, updated) =>
        (.ok (.adjustment adjustment),
          { session with counters := session.counters.set place updated })
  | .between last sequence limit =>
    session.follow (operations.between last sequence limit) fun adjustment =>
      (.ok (.adjustment adjustment), session)
  | .counterBlock stream rollovers sequence salt =>
    session.follow (operations.counterBlock stream rollovers sequence salt) fun block =>
      (.ok (.block block), session)

/-- The session after some calls. -/
def after (operations : Operations κ) (calls : List Call) : Session κ :=
  calls.foldl (fun session call => (operations.perform session call).2) {}

/-- One call more, on what the calls before it have left. -/
theorem after_concat (operations : Operations κ) (calls : List Call) (call : Call) :
    operations.after (calls ++ [call]) = (operations.perform (operations.after calls) call).2 := by
  rw [after, List.foldl_append, ← after]
  rfl

/-! ### The two sets of operations -/

/-- The definitions of the library. A limit that they refuse is a fault. -/
def plain : Operations Context where
  setLimit limit builder :=
    match builder.withMaxDisorder limit with
    | .ok changed => (.ok (), changed)
    | .error .disorderTooLarge => (.error .assertion, builder)
  build builder key salt := .ok (builder.build key salt).result
  decode frame := .ok (Packet.decode frame)
  decrypt context packet :=
    let decryption := context.decrypt packet
    .ok (decryption.result, decryption.context, decryption.packet)
  newCounter limit := (RolloverCounter.new limit).mapError fun _ => .assertion
  update counter sequence := .ok (counter.adjustment sequence, counter.update sequence)
  between last sequence limit := .ok (Adjustment.between last sequence limit)
  counterBlock stream rollovers sequence salt :=
    .ok (SecureRtp.counterBlock stream rollovers sequence salt)

/-- Sets the limit of a builder in place. What was written before a fault would stay. -/
def writeLimit (limit : UInt16) : ExceptT Fault (StateM Context.Builder) Unit := do
  assert (limit < 0x8000)
  modify fun builder => { builder with maxDisorder := limit }

/-- The programs on memory. -/
def onMemory : Operations Receiver where
  setLimit limit builder := (writeLimit limit).run.run builder
  build := Receiver.build
  decode := Checked.decode
  decrypt receiver packet := do
    let decrypted ← receiver.decrypt packet
    return (decrypted.result, decrypted.receiver, decrypted.packet)
  newCounter := Checked.newCounter
  update := Checked.update
  between := Checked.between
  counterBlock := Checked.counterBlock

/-! ### Operation by operation -/

/-- A limit that can be used is written to the builder. -/
theorem setLimit_of_lt {limit : UInt16} (h : limit < 0x8000) (builder : Context.Builder) :
    onMemory.setLimit limit builder = (.ok (), { builder with maxDisorder := limit }) := by
  show ((writeLimit limit).run.run builder : Checked Unit × Context.Builder) = _
  rw [writeLimit, assert_eq h]
  rfl

/-- A limit that is of no use is found before anything is written. -/
theorem setLimit_of_le {limit : UInt16} (h : 0x8000 ≤ limit) (builder : Context.Builder) :
    onMemory.setLimit limit builder = (.error .assertion, builder) := by
  show ((writeLimit limit).run.run builder : Checked Unit × Context.Builder) = _
  rw [writeLimit, assert, if_neg (UInt16.not_lt.mpr h)]
  rfl

/-- The program that sets a limit in place does what `withMaxDisorder` does, for the limits that
can be used and for those that cannot. -/
theorem setLimit_eq : onMemory.setLimit = plain.setLimit := by
  funext limit builder
  by_cases h : limit < 0x8000
  · rw [setLimit_of_lt h]
    simp [plain, Context.Builder.withMaxDisorder, RolloverCounter.checkDisorder, h]
  · rw [setLimit_of_le (UInt16.not_lt.mp h)]
    simp [plain, Context.Builder.withMaxDisorder, RolloverCounter.checkDisorder, h]

theorem decode_eq : onMemory.decode = plain.decode := funext Checked.decode_eq

/-- No counter is made with a limit that is of no use. -/
theorem newCounter_of_le {limit : UInt16} (h : 0x8000 ≤ limit) :
    onMemory.newCounter limit = .error .assertion := by
  show (assert (limit < 0x8000) >>= fun _ => _) = _
  rw [assert, if_neg (UInt16.not_lt.mpr h)]
  rfl

/-- Making a counter comes to the same in both sets, for the limits that can be used and for those
that cannot. -/
theorem newCounter_eq : onMemory.newCounter = plain.newCounter := by
  funext limit
  by_cases h : limit < 0x8000
  · have hnew := (RolloverCounter.new_eq_ok_iff limit _).mpr ⟨h, rfl⟩
    show Checked.newCounter limit = (RolloverCounter.new limit).mapError _
    rw [Checked.newCounter_eq h, hnew]
    rfl
  · rw [newCounter_of_le (UInt16.not_lt.mp h)]
    simp [plain, RolloverCounter.new, RolloverCounter.checkDisorder, h]
    rfl

theorem update_eq : onMemory.update = plain.update := by
  funext counter sequence
  exact Checked.update_eq counter sequence

theorem between_eq : onMemory.between = plain.between := by
  funext last sequence limit
  exact Checked.between_eq last sequence limit

theorem counterBlock_eq : onMemory.counterBlock = plain.counterBlock := by
  funext stream rollovers sequence salt
  exact Checked.counterBlock_eq stream rollovers sequence salt

end Operations

end SecureRtp
