import SecureRtp.Proofs.Context.Accept
import SecureRtp.Proofs.Packet.Header

/-!
# `SecureRtp.Proofs.Packet.Origin`: where packets come from

A packet is decoded from a frame. After that its payload may be written over, and contexts
may be given the packet, which decrypt it or turn it away. Nothing else can happen to it,
so every packet there is comes from a frame in this way (`Packet.ComesFrom`).

`Packet.Headed` is what rebuilding a frame rests on: the frame that a packet keeps is never
shorter than its header, so cutting it behind the header leaves the whole header. Each
handling preserves it (`Headed.handle`), and so does any number of them.
-/

set_option autoImplicit false

namespace SecureRtp

/-- What can be done with a packet. -/
inductive Handling
  /-- Octets are written over its payload, beginning at `start`. -/
  | overwrite (start : Nat) (octets : Octets)
  /-- A context is given the packet to decrypt. -/
  | decrypt (context : Context)

namespace Packet

/-- The packet after it was handled. -/
def handle (packet : Packet) : Handling → Packet
  | .overwrite start octets => packet.overwrite start octets
  | .decrypt context => (context.decrypt packet).packet

/-- The packet after it was handled in several ways, one after another. -/
def handleAll (packet : Packet) (handlings : List Handling) : Packet :=
  handlings.foldl handle packet

/-- The packet was decoded from the frame, and handled in any way since. -/
def ComesFrom (packet : Packet) (frame : Octets) : Prop :=
  ∃ (fresh : Packet) (handlings : List Handling),
    decode frame = .ok fresh ∧ packet = fresh.handleAll handlings

/-- The frame of the packet is as long as the header at least. -/
def Headed (packet : Packet) : Prop := packet.payloadOffset ≤ packet.frame.length

variable {packet : Packet} {frame : Octets}

/-- A packet that was just decoded is `Headed`: its payload begins within the frame or at its
end. -/
theorem headed_of_decode (h : decode frame = .ok packet) : packet.Headed := by
  obtain ⟨fields, payload, -, rfl⟩ := (decode_eq_ok_iff _ _).mp h
  exact Nat.sub_le _ _

/-- Rebuilding the frame keeps the whole header, and puts the payload behind it. -/
theorem Headed.rebuild (h : packet.Headed) : packet.rebuild.Headed := by
  show packet.payloadOffset ≤ (packet.frame.take packet.payloadOffset ++ packet.payload).length
  rw [List.length_append, List.length_take_of_le h]
  exact Nat.le_add_right _ _

/-- A rebuilt frame begins with the header that was there. -/
theorem Headed.take_rebuild (h : packet.Headed) :
    packet.rebuild.frame.take packet.rebuild.payloadOffset
      = packet.frame.take packet.payloadOffset :=
  List.take_left' (List.length_take_of_le h)

/-- A packet stays `Headed` when it is handled. A write does not touch the frame, and a decryption
that succeeds rebuilds it. -/
theorem Headed.handle (h : packet.Headed) (handling : Handling) :
    (packet.handle handling).Headed := by
  cases handling with
  | overwrite start octets => exact h
  | decrypt context =>
      show (context.decrypt packet).packet.Headed
      by_cases haccepts : context.Accepts packet
      · -- Only the payload has changed before the frame is rebuilt.
        rw [Context.decrypt_eq_accept haccepts]
        exact Headed.rebuild h
      · rwa [Context.packet_decrypt_of_not_accepts haccepts]

/-- A packet stays `Headed` however it is handled and how often. -/
theorem Headed.handleAll (h : packet.Headed) (handlings : List Handling) :
    (packet.handleAll handlings).Headed := by
  induction handlings generalizing packet with
  | nil => exact h
  | cons handling rest ih => exact ih (h.handle handling)

/-- Every packet that comes from a frame is `Headed`. -/
theorem ComesFrom.headed (h : packet.ComesFrom frame) : packet.Headed := by
  obtain ⟨fresh, handlings, hdecode, rfl⟩ := h
  exact (headed_of_decode hdecode).handleAll handlings

end Packet

end SecureRtp
