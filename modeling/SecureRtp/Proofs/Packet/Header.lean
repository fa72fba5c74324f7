import SecureRtp.Packet

/-!
# `SecureRtp.Proofs.Packet.Header`: what stands behind a header

A reader takes octets off the front, so what stands behind the ones that it
takes has no part in what it does. `Reader.Exact` states this for one reader,
and `Reader.Steady` is the part of it that speaks of octets put behind. The
steps that readers are made of are exact, and programs made of exact steps are
exact.

Two conclusions are drawn for packets. `decode_append`: octets put behind a
frame join its payload, and everything else of the packet stays. A sender that
has a header may put any payload behind it. `decode_replace`: the same for a
payload that is put in the place of the one that was there.
-/

set_option autoImplicit false

namespace SecureRtp

namespace Reader

variable {α β : Type}

/-- A reader that succeeds does the same when more octets stand behind, and
leaves them behind what it leaves. -/
def Steady (reader : Reader α) : Prop :=
  ∀ unread a rest extra, reader unread = some (a, rest) →
    reader (unread ++ extra) = some (a, rest ++ extra)

/-- One reader after another, on the octets that the first one leaves. -/
theorem bind_eq_some_iff (reader : Reader α) (next : α → Reader β) (unread rest : Octets)
    (b : β) :
    (reader >>= next) unread = some (b, rest) ↔
      ∃ a middle, reader unread = some (a, middle) ∧ next a middle = some (b, rest) := by
  show (reader unread).bind (fun read => next read.1 read.2) = some (b, rest) ↔ _
  rw [Option.bind_eq_some_iff]
  exact Prod.exists

/-- A reader that succeeds takes a part off the front. It does the same wherever
that part stands in front, and leaves what is behind it. -/
def Exact (reader : Reader α) : Prop :=
  ∀ unread a rest, reader unread = some (a, rest) →
    ∃ head, unread = head ++ rest ∧ ∀ behind, reader (head ++ behind) = some (a, behind)

/-- An exact reader is steady. Octets that are put behind stand behind what the reader takes. -/
theorem Exact.steady {reader : Reader α} (h : Exact reader) : Steady reader := by
  intro unread a rest extra hread
  obtain ⟨head, rfl, hbehind⟩ := h unread a rest hread
  rw [List.append_assoc]
  exact hbehind (rest ++ extra)

/-- A reader that only gives a value takes nothing off the front. -/
theorem exact_pure (a : α) : Exact (pure a : Reader α) := by
  intro unread b rest h
  cases h
  exact ⟨[], rfl, fun _ => rfl⟩

/-- Two exact readers, one after the other, are an exact reader. It takes what the first one
takes, followed by what the second one takes of the rest. -/
theorem Exact.bind {reader : Reader α} {next : α → Reader β} (hreader : Exact reader)
    (hnext : ∀ a, Exact (next a)) : Exact (reader >>= next) := by
  intro unread b rest h
  obtain ⟨a, middle, hfirst, hsecond⟩ := (bind_eq_some_iff _ _ _ _ _).mp h
  obtain ⟨head, rfl, hread⟩ := hreader unread a middle hfirst
  obtain ⟨head', rfl, hread'⟩ := hnext a middle b rest hsecond
  refine ⟨head ++ head', (List.append_assoc _ _ _).symm, fun behind => ?_⟩
  rw [List.append_assoc]
  exact (bind_eq_some_iff _ _ _ _ _).mpr ⟨a, head' ++ behind, hread _, hread' behind⟩

/-- Reading `n` octets takes them off the front, and nothing else. -/
theorem exact_octets (n : Nat) : Exact (octets n) := by
  intro unread head rest h
  obtain ⟨hunread, hlength⟩ := (octets_eq_some_iff _ _ _ _).mp h
  exact ⟨head, hunread, fun behind => (octets_eq_some_iff _ _ _ _).mpr ⟨rfl, hlength⟩⟩

/-- Passing over `n` octets takes them off the front, and nothing else. -/
theorem exact_skip (n : Nat) : Exact (skip n) :=
  (exact_octets n).bind fun _ => exact_pure ()

/-- Reading a number of 16 bits takes two octets off the front, and nothing else. -/
theorem exact_uint16 : Exact uint16 := (exact_octets 2).bind fun _ => exact_pure _

/-- Reading a number of 32 bits takes four octets off the front, and nothing else. -/
theorem exact_uint32 : Exact uint32 := (exact_octets 4).bind fun _ => exact_pure _

/-- A condition takes nothing off the front, and does not depend on what is unread. -/
theorem exact_require (condition : Bool) : Exact (require condition) := by
  intro unread a rest h
  cases condition with
  | false => cases h
  | true =>
      cases h
      exact ⟨[], rfl, fun _ => rfl⟩

end Reader

namespace Packet

open Reader

/-- Reading a header takes the header off the front, and nothing else. How much that is depends on
the header itself, but not on what stands behind it. -/
theorem exact_header : Exact header := by
  rw [header]
  refine exact_uint16.bind fun options => exact_uint16.bind fun sequence =>
    (exact_skip 4).bind fun _ => exact_uint32.bind fun stream =>
    (exact_require _).bind fun _ => (exact_skip _).bind fun _ => ?_
  -- The options read so far say whether there is an extension to go over.
  split
  · exact (exact_skip 2).bind fun _ => exact_uint16.bind fun units =>
      (exact_skip _).bind fun _ => exact_pure _
  · exact exact_pure _

/-- A frame holds a packet exactly when its header can be read, and then the
payload is what the header leaves. -/
theorem decode_eq_ok_iff (frame : Octets) (packet : Packet) :
    decode frame = .ok packet ↔
      ∃ fields payload, header frame = some (fields, payload) ∧
        packet = { stream := fields.stream, sequence := fields.sequence,
                   payloadOffset := frame.length - payload.length, payload, frame } := by
  rw [decode]
  cases hread : header frame with
  | none => simp
  | some read =>
      obtain ⟨fields, payload⟩ := read
      constructor
      · intro h
        cases h
        exact ⟨fields, payload, rfl, rfl⟩
      · rintro ⟨fields', payload', hsome, rfl⟩
        cases hsome
        rfl

/-- A packet keeps the frame that it was decoded from. -/
theorem frame_of_decode {frame : Octets} {packet : Packet} (h : decode frame = .ok packet) :
    packet.frame = frame := by
  obtain ⟨fields, payload, -, rfl⟩ := (decode_eq_ok_iff _ _).mp h
  rfl

/-- Octets put behind a frame join its payload. -/
theorem decode_append {frame : Octets} {packet : Packet} (h : decode frame = .ok packet)
    (extra : Octets) :
    decode (frame ++ extra)
      = .ok { packet with payload := packet.payload ++ extra, frame := frame ++ extra } := by
  obtain ⟨fields, payload, hheader, rfl⟩ := (decode_eq_ok_iff _ _).mp h
  have hlonger := exact_header.steady frame fields payload extra hheader
  refine (decode_eq_ok_iff _ _).mpr ⟨fields, payload ++ extra, hlonger, ?_⟩
  rw [List.length_append, List.length_append, Nat.add_sub_add_right]

/-- A frame is its header and the payload. -/
theorem frame_eq_of_decode {frame : Octets} {packet : Packet} (h : decode frame = .ok packet) :
    frame = frame.take packet.payloadOffset ++ packet.payload := by
  obtain ⟨fields, payload, hheader, rfl⟩ := (decode_eq_ok_iff _ _).mp h
  obtain ⟨head, rfl, -⟩ := exact_header frame fields payload hheader
  simp

/-- A header with another payload behind it holds the same packet with that payload. -/
theorem decode_replace {frame : Octets} {packet : Packet} (h : decode frame = .ok packet)
    (payload : Octets) :
    decode (frame.take packet.payloadOffset ++ payload)
      = .ok { packet with payload, frame := frame.take packet.payloadOffset ++ payload } := by
  obtain ⟨fields, rest, hheader, rfl⟩ := (decode_eq_ok_iff _ _).mp h
  obtain ⟨head, rfl, hbehind⟩ := exact_header frame fields rest hheader
  have hhead : (head ++ rest).take ((head ++ rest).length - rest.length) = head := by simp
  -- The header is read again from the front, and leaves the other payload.
  refine (decode_eq_ok_iff _ _).mpr ⟨fields, payload, ?_, ?_⟩
  · rw [hhead]
    exact hbehind payload
  · rw [hhead]
    simp

end Packet

end SecureRtp
