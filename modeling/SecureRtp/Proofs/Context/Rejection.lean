import SecureRtp.Proofs.Context.Run

/-!
# `SecureRtp.Proofs.Context.Rejection`: packets that might as well not have come

A packet that a context turns away changes neither the context nor the packet itself. So
a run does not depend on such packets, however many of them there are and wherever they
come.

`Context.decrypted` pairs each packet of a run that is decrypted with what comes of it.
`Context.accepted` lists these packets alone, and is what remains of the run when the
others are deleted.

* `zip_run_accepted`, `after_accepted`: what remains comes to the same.
* `rejected_leave_no_trace`: the two reasons for turning a packet away, what is left
  unchanged then, and the same for any number of packets.
-/

set_option autoImplicit false

namespace SecureRtp

namespace Context

/-- The packets that are decrypted, each with what comes of it. -/
def decrypted (context : Context) (packets : List Packet) : List (Packet × Decryption) :=
  (packets.zip (context.run packets)).filter fun step => step.2.succeeded

/-- The packets that are decrypted. -/
def accepted (context : Context) (packets : List Packet) : List Packet :=
  (context.decrypted packets).map Prod.fst

variable {context : Context} {packet : Packet}

/-! ### One packet -/

/-- Decryption reports success for the accepted packets and for no others. -/
theorem succeeded_decrypt_iff (context : Context) (packet : Packet) :
    (context.decrypt packet).succeeded = true ↔ context.Accepts packet := by
  rw [← result_decrypt_eq_ok_iff, Decryption.succeeded]
  cases (context.decrypt packet).result <;> simp

/-- An accepted packet is the first of those that are decrypted, and the others are decrypted by
the context as it is after the packet. -/
theorem decrypted_cons_of_accepts (h : context.Accepts packet) (rest : List Packet) :
    context.decrypted (packet :: rest)
      = (packet, context.decrypt packet) :: (context.decrypt packet).context.decrypted rest :=
  List.filter_cons_of_pos ((succeeded_decrypt_iff context packet).mpr h)

/-- A packet that is not accepted is none of those that are decrypted, and the others are decrypted
by the context as it was before. -/
theorem decrypted_cons_of_not_accepts (h : ¬ context.Accepts packet) (rest : List Packet) :
    context.decrypted (packet :: rest) = context.decrypted rest := by
  have hfailed : ¬ (context.decrypt packet).succeeded = true := by
    rwa [succeeded_decrypt_iff]
  have hdropped : context.decrypted (packet :: rest)
      = (context.decrypt packet).context.decrypted rest := List.filter_cons_of_neg hfailed
  rwa [context_decrypt_of_not_accepts h] at hdropped

/-! ### Any number of packets -/

/-- An accepted packet remains in front of what remains of the run behind it. -/
theorem accepted_cons_of_accepts (h : context.Accepts packet) (rest : List Packet) :
    context.accepted (packet :: rest)
      = packet :: (context.decrypt packet).context.accepted rest := by
  rw [accepted, decrypted_cons_of_accepts h]
  rfl

/-- A packet that is not accepted is deleted, and what remains of the run is what remains without
it. -/
theorem accepted_cons_of_not_accepts (h : ¬ context.Accepts packet) (rest : List Packet) :
    context.accepted (packet :: rest) = context.accepted rest := by
  rw [accepted, decrypted_cons_of_not_accepts h]
  rfl

/-- What comes of the packets that are decrypted does not change when they come
alone. -/
theorem zip_run_accepted (context : Context) (packets : List Packet) :
    (context.accepted packets).zip (context.run (context.accepted packets))
      = context.decrypted packets := by
  -- A packet that is turned away drops out on both sides, without a change to the context.
  induction packets generalizing context with
  | nil => rfl
  | cons packet rest ih =>
      by_cases h : context.Accepts packet
      · rw [accepted_cons_of_accepts h, decrypted_cons_of_accepts h, run, List.zip_cons_cons, ih]
      · rw [accepted_cons_of_not_accepts h, decrypted_cons_of_not_accepts h, ih]

/-- The context at the end of a run is the same when the packets that are turned away are
deleted. -/
theorem after_accepted (context : Context) (packets : List Packet) :
    context.after (context.accepted packets) = context.after packets := by
  induction packets generalizing context with
  | nil => rfl
  | cons packet rest ih =>
      by_cases h : context.Accepts packet
      · rw [accepted_cons_of_accepts h, after, after, ih]
      · rw [accepted_cons_of_not_accepts h, ih, after, context_decrypt_of_not_accepts h]

/-- Packets that are turned away leave no trace. First, a packet is turned away exactly
when the context belongs to another stream, or does not and the payload has no room for a
tag; the error says which, and the context and the packet are as they were. Second, when
the packets that are turned away are deleted from a list, the context comes out the same,
and so does everything of each packet that remains. -/
theorem rejected_leave_no_trace (context : Context) :
    (∀ packet error,
      ((context.decrypt packet).result = .error error ↔ context.Rejects packet error) ∧
      ((context.decrypt packet).result = .error error →
        (context.decrypt packet).context = context ∧
          (context.decrypt packet).packet = packet)) ∧
    (∀ packets : List Packet,
      context.after (context.accepted packets) = context.after packets ∧
      (context.accepted packets).zip (context.run (context.accepted packets))
        = (packets.zip (context.run packets)).filter fun step => step.2.succeeded) := by
  constructor
  · intro packet error
    refine ⟨result_decrypt_eq_error_iff, ?_⟩
    intro hresult
    obtain ⟨reason, -, hreject⟩ := decrypt_of_rejects (result_decrypt_eq_error_iff.mp hresult)
    rw [hreject]
    exact ⟨rfl, rfl⟩
  · intro packets
    exact ⟨after_accepted context packets, zip_run_accepted context packets⟩

/-- A context of the stream 1 that has counted a round. A packet of the stream 2 with an empty
payload is turned away for its stream, and comes in front of a packet of the stream 1 and once
more behind it. Deleted from the run, it is not missed: the packet of the stream 1 begins the
second round either way, and what comes of it is the same. -/
theorem rejected_leave_no_trace_other_stream :
    let context : Context :=
      ⟨.tag80, some 1, ⟨1, some 65500, 100⟩, Vector.replicate 14 7,
        KeyStream.new (Vector.replicate 16 3) (Vector.replicate 16 0)⟩
    let packet : Packet := ⟨2, 10, 12, [], List.replicate 12 9⟩
    let own : Packet := ⟨1, 0, 12, List.replicate 25 9, List.replicate 37 9⟩
    let packets := [packet, own, packet]
    (context.decrypt packet).result = .error (.streamMismatch 1 2) ∧
      (context.decrypt packet).context = context ∧ (context.decrypt packet).packet = packet ∧
      context.accepted packets = [own] ∧
      context.after [own] = context.after packets ∧
      (context.after packets).rollover.value = 2 ∧
      [(own, context.decrypt own)]
        = (packets.zip (context.run packets)).filter fun step => step.2.succeeded := by
  intro context packet own packets
  obtain ⟨hpackets, hruns⟩ := rejected_leave_no_trace context
  obtain ⟨hiff, hunchanged⟩ := hpackets packet (.streamMismatch 1 2)
  have hresult := hiff.mpr (.otherStream 1 rfl (by decide))
  have hown : context.Accepts own := ⟨by simp [context, own], by decide⟩
  -- The packet is of another stream than the context, before and after the one it decrypts.
  have hbefore : ¬ context.Accepts packet := fun h => absurd (h.1 1 rfl) (by decide)
  have hbehind : ¬ (context.decrypt own).context.Accepts packet := fun h =>
    absurd (h.1 1 (stream_decrypt hown)) (by decide)
  have haccepted : context.accepted packets = [own] := by
    rw [accepted_cons_of_not_accepts hbefore, accepted_cons_of_accepts hown,
      accepted_cons_of_not_accepts hbehind]
    rfl
  obtain ⟨hafter, houtcomes⟩ := hruns packets
  rw [haccepted] at hafter houtcomes
  have hvalue : (context.after packets).rollover.value = 2 := by
    rw [← hafter]
    show (context.decrypt own).context.rollover.value = 2
    rw [rollover_decrypt hown]
    decide
  exact ⟨hresult, (hunchanged hresult).1, (hunchanged hresult).2, haccepted, hafter, hvalue,
    houtcomes⟩

end Context

end SecureRtp
