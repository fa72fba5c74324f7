import SecureRtp.Proofs.Checked.Session

/-!
# `SecureRtp.Proofs.Checked.Faults`: nothing that is called has a fault

This module follows a session through any calls.

* `Session.Sound` is the invariant: no builder has a limit that is of no use, every receiver's
  key stream fits its array, and every packet has its header.
* `Session.Sound.perform` is the step: a call on memory comes to the same as a plain call,
  fault and all, and keeps the invariant. `Session.sound_after` is the run.
* `Operations.faults_only_refused`: a call has a fault exactly when it asks for a limit that is
  of no use, and then it changes nothing.
-/

set_option autoImplicit false

namespace SecureRtp

open Checked

/-! ### The invariant -/

namespace Session

/-- The session with contexts in the place of the receivers that stand for them. -/
def plain (session : Session Receiver) : Session Context where
  builders := session.builders
  receivers := session.receivers.map Receiver.context
  packets := session.packets
  counters := session.counters

/-- What holds of everything in hand at any time. -/
structure Sound (session : Session Receiver) : Prop where
  /-- No builder has a limit that is of no use. -/
  limits : ∀ builder ∈ session.builders, builder.maxDisorder < 0x8000
  /-- The key stream of each receiver fits its array. -/
  fits : ∀ receiver ∈ session.receivers, receiver.keys.Fits
  /-- Each packet has its header. -/
  headed : ∀ packet ∈ session.packets, packet.Headed

/-- What comes of a call on memory is what comes of a plain one, and keeps the invariant. -/
structure Matches (outcome : Outcome Receiver) (wanted : Outcome Context) : Prop where
  answer : outcome.1 = wanted.1
  session : outcome.2.plain = wanted.2
  sound : outcome.2.Sound

variable {session : Session Receiver} {α : Type}

/-- At the beginning there is nothing in hand of which anything would have to hold. -/
theorem sound_empty : ({} : Session Receiver).Sound where
  limits _ h := nomatch h
  fits _ h := nomatch h
  headed _ h := nomatch h

/-- What holds of all items and of a new one holds of the items with the new one in the place
of another. -/
theorem forall_mem_set {p : α → Prop} {items : List α} (hitems : ∀ a ∈ items, p a) (place : Nat)
    {b : α} (hb : p b) : ∀ a ∈ items.set place b, p a := by
  intro a ha
  obtain hmem | rfl := List.mem_or_eq_of_mem_set ha
  · exact hitems a hmem
  · exact hb

/-- What holds of all items and of a new one holds of the items with the new one behind. -/
theorem forall_mem_concat {p : α → Prop} {items : List α} (hitems : ∀ a ∈ items, p a) {b : α}
    (hb : p b) : ∀ a ∈ items ++ [b], p a :=
  List.forall_mem_append.mpr ⟨hitems, List.forall_mem_singleton.mpr hb⟩

/-- A call that works on an item both sessions have in common, which is a builder, a packet or a
rollover counter. What has to be shown is only what comes of an item that is there: with nothing
at the place, both sides answer so and stay as they are. -/
theorem Sound.visit (h : session.Sound) {items : List α} {place : Nat}
    {next : α → Outcome Receiver} {next' : α → Outcome Context}
    (hnext : ∀ a ∈ items, Matches (next a) (next' a)) :
    Matches (session.visit items place next) (session.plain.visit items place next') := by
  rw [Session.visit, Session.visit]
  cases hitem : items[place]? with
  | none => exact ⟨rfl, rfl, h⟩
  | some a => exact hnext a (List.mem_of_getElem? hitem)

/-- A call that works on a receiver. The plain session has a context at the same place, and it is
the one that the receiver stands for. -/
theorem Sound.visit_receivers (h : session.Sound) {place : Nat}
    {next : Receiver → Outcome Receiver} {next' : Context → Outcome Context}
    (hnext : ∀ receiver ∈ session.receivers, Matches (next receiver) (next' receiver.context)) :
    Matches (session.visit session.receivers place next)
      (session.plain.visit session.plain.receivers place next') := by
  have hplain : session.plain.receivers[place]?
      = (session.receivers[place]?).map Receiver.context := List.getElem?_map
  rw [Session.visit, Session.visit, hplain]
  cases hitem : session.receivers[place]? with
  | none => exact ⟨rfl, rfl, h⟩
  | some receiver => exact hnext receiver (List.mem_of_getElem? hitem)

/-- A call that goes on with the result of a program that is the same on both sides. A fault stops
both where they are, and a result is followed on both. -/
theorem Sound.follow (h : session.Sound) {result : Checked α}
    {next : α → Outcome Receiver} {next' : α → Outcome Context}
    (hnext : ∀ a, result = .ok a → Matches (next a) (next' a)) :
    Matches (session.follow result next) (session.plain.follow result next') := by
  cases result with
  | error fault => exact ⟨rfl, rfl, h⟩
  | ok a => exact hnext a rfl

/-! ### One call -/

/-- Making a receiver, which is what the limits of the builders are for. -/
theorem Sound.build (h : session.Sound) (place : Nat) (key salt : Octets) :
    Matches (Operations.onMemory.perform session (.build place key salt))
      (Operations.plain.perform session.plain (.build place key salt)) := by
  refine h.visit fun builder hbuilder => ?_
  obtain ⟨made, hmade, hresult, hfits⟩ := Receiver.build_eq (h.limits builder hbuilder) key salt
  show Matches (session.follow (Receiver.build builder key salt) _)
    (session.plain.follow (.ok (builder.build key salt).result) _)
  rw [hmade, ← hresult]
  -- Only a receiver that was made is put in hand, and its key stream fits from the beginning.
  cases made with
  | error error => exact ⟨rfl, rfl, h⟩
  | ok receiver =>
      refine ⟨rfl, ?_, h.limits, forall_mem_concat h.fits (hfits receiver rfl), h.headed⟩
      show (⟨_, (session.receivers ++ [receiver]).map Receiver.context, _, _⟩ : Session Context)
        = _
      rw [List.map_append]
      rfl

/-- Decrypting, which is what the arrays and the headers are for. -/
theorem Sound.decrypt (h : session.Sound) (place packetPlace : Nat) :
    Matches (Operations.onMemory.perform session (.decrypt place packetPlace))
      (Operations.plain.perform session.plain (.decrypt place packetPlace)) := by
  refine h.visit_receivers fun receiver hreceiver => h.visit fun packet hpacket => ?_
  obtain ⟨decrypted, hdecrypt, hagrees, hfits⟩ :=
    Receiver.decrypt_eq (h.fits receiver hreceiver) (h.headed packet hpacket)
  -- A packet has its header afterwards, because decrypting is one of the ways to handle it.
  have hheaded : decrypted.packet.Headed := by
    rw [hagrees.packet]
    exact (h.headed packet hpacket).handle (.decrypt receiver.context)
  show Matches (session.follow (receiver.decrypt packet >>= fun decrypted => _) _)
    (session.plain.follow (.ok _) _)
  rw [hdecrypt]
  refine ⟨?_, ?_, h.limits, forall_mem_set h.fits place hfits,
    forall_mem_set h.headed packetPlace hheaded⟩
  · show (.ok (.decrypted decrypted.result) : Checked Answer) = _
    rw [hagrees.result]
    rfl
  · show (⟨_, (session.receivers.set place decrypted.receiver).map Receiver.context,
      session.packets.set packetPlace decrypted.packet, _⟩ : Session Context) = _
    rw [List.map_set, hagrees.context, hagrees.packet]
    rfl

/-- A call on memory comes to the same as a plain call, and keeps the invariant. -/
theorem Sound.perform (h : session.Sound) (call : Call) :
    Matches (Operations.onMemory.perform session call)
      (Operations.plain.perform session.plain call) := by
  cases call with
  | newBuilder =>
      exact ⟨rfl, rfl, forall_mem_concat h.limits (by decide), h.fits, h.headed⟩
  | setProfile place profile =>
      refine h.visit fun builder hbuilder => ⟨rfl, rfl, ?_, h.fits, h.headed⟩
      exact forall_mem_set h.limits place (h.limits builder hbuilder)
  | setLimit place limit =>
      refine h.visit fun builder hbuilder => ?_
      rw [Operations.setLimit_eq]
      refine ⟨rfl, rfl, ?_, h.fits, h.headed⟩
      rw [← Operations.setLimit_eq]
      -- Whether the limit is accepted or not, the builder has one that can be used afterwards.
      by_cases hlimit : limit < 0x8000
      · rw [Operations.setLimit_of_lt hlimit]
        exact forall_mem_set h.limits place hlimit
      · rw [Operations.setLimit_of_le (UInt16.not_lt.mp hlimit)]
        exact forall_mem_set h.limits place (h.limits builder hbuilder)
  | build place key salt => exact h.build place key salt
  | decode frame =>
      simp only [Operations.perform, Operations.decode_eq]
      refine h.follow fun result hresult => ?_
      cases result with
      | error error => exact ⟨rfl, rfl, h⟩
      | ok packet =>
          have hheaded := Packet.headed_of_decode (Except.ok.inj hresult)
          exact ⟨rfl, rfl, h.limits, h.fits, forall_mem_concat h.headed hheaded⟩
  | overwrite place start octets =>
      refine h.visit fun packet hpacket => ⟨rfl, rfl, h.limits, h.fits, ?_⟩
      exact forall_mem_set h.headed place (h.headed packet hpacket)
  | clonePacket place =>
      refine h.visit fun packet hpacket => ⟨rfl, rfl, h.limits, h.fits, ?_⟩
      exact forall_mem_concat h.headed (h.headed packet hpacket)
  | decrypt place packetPlace => exact h.decrypt place packetPlace
  | newCounter limit =>
      simp only [Operations.perform, Operations.newCounter_eq]
      exact h.follow fun _ _ => ⟨rfl, rfl, h.limits, h.fits, h.headed⟩
  | cloneCounter place =>
      exact h.visit fun _ _ => ⟨rfl, rfl, h.limits, h.fits, h.headed⟩
  | update place sequence =>
      refine h.visit fun counter _ => ?_
      rw [Operations.update_eq]
      exact h.follow fun _ _ => ⟨rfl, rfl, h.limits, h.fits, h.headed⟩
  | between last sequence limit =>
      simp only [Operations.perform, Operations.between_eq]
      exact h.follow fun _ _ => ⟨rfl, rfl, h⟩
  | counterBlock stream rollovers sequence salt =>
      simp only [Operations.perform, Operations.counterBlock_eq]
      exact h.follow fun _ _ => ⟨rfl, rfl, h⟩

/-! ### Any number of calls -/

/-- Any number of calls from a sound session: the session on memory stays sound, and the plain
session goes along with it. -/
theorem Sound.foldl (h : session.Sound) (calls : List Call) :
    let finish := calls.foldl (fun s call => (Operations.onMemory.perform s call).2) session
    finish.Sound ∧ finish.plain
      = calls.foldl (fun s call => (Operations.plain.perform s call).2) session.plain := by
  induction calls generalizing session with
  | nil => exact ⟨h, rfl⟩
  | cons call rest ih =>
      have hcall := h.perform call
      rw [List.foldl_cons, List.foldl_cons, ← hcall.session]
      exact ih hcall.sound

/-- After any calls the invariant holds, and the session is the one that plain calls lead
to. -/
theorem sound_after (calls : List Call) :
    (Operations.onMemory.after calls).Sound ∧
      (Operations.onMemory.after calls).plain = Operations.plain.after calls :=
  sound_empty.foldl calls

end Session

/-! ### Calls that are refused -/

/-- The call asks for a limit that is of no use. -/
def Call.Refused {κ : Type} (session : Session κ) : Call → Prop
  | .setLimit place limit => place < session.builders.length ∧ 0x8000 ≤ limit
  | .newCounter limit => 0x8000 ≤ limit
  | _ => False

/-- The error says that the master key or the master salt has not the right length. -/
def SetupError.OfLength : SetupError → Prop
  | .masterKeyLength _ _ | .masterSaltLength _ _ => True
  | .disorder _ | .engine _ => False

namespace Session

variable {κ α : Type} {session : Session κ}

/-- A call that works on an item has an answer, if it has one for every item that is there. That
there is nothing at the place is an answer too. -/
theorem exists_answer_visit {items : List α} {place : Nat} {next : α → Outcome κ}
    (hnext : ∀ a, items[place]? = some a → ∃ answer, (next a).1 = .ok answer) :
    ∃ answer, (session.visit items place next).1 = .ok answer := by
  rw [visit]
  cases hitem : items[place]? with
  | none => exact ⟨.nothing, rfl⟩
  | some a => exact hnext a hitem

/-- A call that follows a program has an answer, if the program has a result and every result
leads to an answer. -/
theorem exists_answer_follow {result : Checked α} {a : α} {next : α → Outcome κ}
    (hresult : result = .ok a) (hnext : ∀ a, ∃ answer, (next a).1 = .ok answer) :
    ∃ answer, (session.follow result next).1 = .ok answer := by
  subst hresult
  exact hnext a

end Session

namespace Operations

/-- A limit of no use is found by an assertion in front of everything that is written, so the
fault leaves the session as it was. -/
theorem perform_of_refused {session : Session Receiver} {call : Call}
    (h : call.Refused session) : onMemory.perform session call = (.error .assertion, session) := by
  cases call with
  | setLimit place limit =>
      obtain ⟨hplace, hlimit⟩ := h
      have hbuilder := List.getElem?_eq_getElem hplace
      simp only [perform, Session.visit, hbuilder, setLimit_of_le hlimit, List.set_getElem_self]
      rfl
  | newCounter limit =>
      simp only [perform, newCounter_of_le h]
      rfl
  | _ => exact h.elim

/-- Every call that does not ask for a limit of no use is answered. It is enough to say so of the
definitions of the library, where nothing but the limit can be refused. -/
theorem exists_answer_of_not_refused {session : Session Context} {call : Call}
    (h : ¬ call.Refused session) : ∃ answer, (plain.perform session call).1 = .ok answer := by
  cases call with
  | newBuilder => exact ⟨_, rfl⟩
  | setProfile | overwrite | clonePacket | cloneCounter =>
      exact Session.exists_answer_visit fun _ _ => ⟨_, rfl⟩
  | setLimit place limit =>
      refine Session.exists_answer_visit fun builder hbuilder => ?_
      -- There is a builder at the place, so the limit is the only thing to refuse.
      have hplace := (List.getElem?_eq_some_iff.mp hbuilder).1
      have hlimit : limit < 0x8000 := UInt16.not_le.mp fun hle => h ⟨hplace, hle⟩
      rw [← setLimit_eq, setLimit_of_lt hlimit]
      exact ⟨_, rfl⟩
  | build place key salt =>
      refine Session.exists_answer_visit fun builder _ => Session.exists_answer_follow rfl ?_
      intro result
      cases result <;> exact ⟨_, rfl⟩
  | decode frame =>
      refine Session.exists_answer_follow rfl ?_
      intro result
      cases result <;> exact ⟨_, rfl⟩
  | decrypt place packetPlace =>
      exact Session.exists_answer_visit fun _ _ => Session.exists_answer_visit fun _ _ =>
        Session.exists_answer_follow rfl fun _ => ⟨_, rfl⟩
  | newCounter limit =>
      have hlimit : limit < 0x8000 := UInt16.not_le.mp h
      have hnew : plain.newCounter limit = .ok ⟨0, none, limit⟩ := by
        rw [← newCounter_eq]
        exact Checked.newCounter_eq hlimit
      exact Session.exists_answer_follow hnew fun _ => ⟨_, rfl⟩
  | update => exact Session.exists_answer_visit fun _ _ =>
      Session.exists_answer_follow rfl fun _ => ⟨_, rfl⟩
  | between | counterBlock => exact Session.exists_answer_follow rfl fun _ => ⟨_, rfl⟩

/-- The errors about a master key are those about its two lengths. -/
theorem error_ofOctets {profile : Profile} {key salt : Octets} {error : SetupError}
    (h : MasterKey.ofOctets profile key salt = .error error) : error.OfLength := by
  rw [MasterKey.ofOctets] at h
  split at h
  · split at h
    · cases h
    · cases h
      trivial
  · cases h
    trivial

/-- No call has a fault but one that asks for a limit of half of the sequence numbers or more.
After any calls, with any arguments and with faults that were caught among them, first, every
builder has a limit below that, and making a receiver with it gives a receiver or an error
about the length of the master key or the master salt. Second, a call that asks for such a
limit fails by an assertion and leaves everything as it was. Third, every other call is
answered. Fourth, the answer, and everything in hand afterwards, is what the definitions of the
library say that it is. -/
theorem faults_only_refused (calls : List Call) (call : Call) :
    let session := onMemory.after calls
    let outcome := onMemory.perform session call
    (∀ builder ∈ session.builders, builder.maxDisorder < 0x8000 ∧
      ∀ key salt, ∃ made, Receiver.build builder key salt = .ok made ∧
        ∀ error, made = .error error → error.OfLength) ∧
    (call.Refused session → outcome = (.error .assertion, session)) ∧
    (¬ call.Refused session → ∃ answer, outcome.1 = .ok answer) ∧
    (outcome.1, outcome.2.plain) = plain.perform (plain.after calls) call := by
  intro session outcome
  obtain ⟨hsound, hplain⟩ := Session.sound_after calls
  have hmatches := hsound.perform call
  refine ⟨fun builder hbuilder => ?_, perform_of_refused, fun hallowed => ?_, ?_⟩
  · have hlimit := hsound.limits builder hbuilder
    refine ⟨hlimit, fun key salt => ?_⟩
    obtain ⟨made, hmade, hresult, -⟩ := Receiver.build_eq hlimit key salt
    refine ⟨made, hmade, fun error herror => ?_⟩
    -- An error of the program is the error of the definition, and with this limit only the master
    -- key can be wrong.
    rw [herror, Context.Builder.result_build hlimit] at hresult
    cases hoctets : MasterKey.ofOctets builder.profile key salt with
    | error cause =>
        rw [hoctets] at hresult
        cases hresult
        exact error_ofOctets hoctets
    | ok master =>
        rw [hoctets] at hresult
        cases hresult
  · rw [hmatches.answer]
    exact exists_answer_of_not_refused hallowed
  · rw [← hplain]
    exact Prod.ext hmatches.answer hmatches.session

/-- A builder that is asked for a limit of no use, and then for the largest one that can be
used. A key of no octets and a frame of two are refused, a key and a frame of the right form
are not, and the packet is decrypted. After all that the builder has the limit that could be
used, and refuses another one without a change. -/
theorem faults_only_refused_largest_limit :
    let master : MasterKey := ⟨Vector.replicate 16 0x2b, Vector.replicate 14 0xf0⟩
    let header : Octets := [0x80, 0, 0, 0, 0, 0, 0, 0, 0, 0, 0, 1]
    let frame := header ++ List.replicate 30 9
    let refused : List Call := [.newBuilder, .setLimit 0 0x8000, .setLimit 0 0x7fff,
      .newCounter 0xffff, .build 0 [] [], .decode [0x9f, 0x60]]
    let build : Call := .build 0 master.key.toList master.salt.toList
    let decode : Call := .decode frame
    let decrypt : Call := .decrypt 0 0
    let session := onMemory.after (refused ++ [build] ++ [decode] ++ [decrypt])
    (onMemory.perform (onMemory.after refused) build).1 = .ok (.built (.ok ())) ∧
      (onMemory.perform (onMemory.after (refused ++ [build])) decode).1
        = .ok (.decoded (.ok ())) ∧
      (onMemory.perform (onMemory.after (refused ++ [build] ++ [decode])) decrypt).1
        = .ok (.decrypted (.ok ())) ∧
      session.builders = [⟨.tag80, 0x7fff⟩] ∧ (Call.setLimit 0 0xffff).Refused session ∧
      onMemory.perform session (.setLimit 0 0xffff) = (.error .assertion, session) ∧
      ¬ (Call.build 0 [1] []).Refused session ∧
      ∃ answer, (onMemory.perform session (.build 0 [1] [])).1 = .ok answer := by
  intro master header frame refused build decode decrypt session
  -- The fourth part of the theorem leads from the programs on memory to the definitions of the
  -- library, where the three calls are followed one after another.
  obtain ⟨-, -, -, hbuild⟩ := faults_only_refused refused build
  obtain ⟨-, -, -, hdecode⟩ := faults_only_refused (refused ++ [build]) decode
  obtain ⟨-, -, -, hdecrypt⟩ := faults_only_refused (refused ++ [build] ++ [decode]) decrypt
  obtain ⟨-, hrefused, -⟩ := faults_only_refused
    (refused ++ [build] ++ [decode] ++ [decrypt]) (.setLimit 0 0xffff)
  obtain ⟨-, -, hanswered, -⟩ := faults_only_refused
    (refused ++ [build] ++ [decode] ++ [decrypt]) (.build 0 [1] [])
  obtain ⟨context, hmade, hfresh⟩ :=
    Context.exists_build_fresh ⟨.tag80, 0x7fff⟩ (by decide) master
  let packet : Packet := ⟨1, 0, 12, List.replicate 30 9, frame⟩
  have hheader : Packet.decode header = .ok ⟨1, 0, 12, [], header⟩ := by
    dsimp only [header]
    rfl
  have hpacket : Packet.decode frame = .ok packet :=
    Packet.decode_append hheader (List.replicate 30 9)
  have hopened : (context.decrypt packet).result = .ok () :=
    Context.result_decrypt (hfresh.accepts (by decide))
  have hbuilt : plain.perform (plain.after refused) build
      = (.ok (.built (.ok ())), ⟨[⟨.tag80, 0x7fff⟩], [context], [], []⟩) := by
    show plain.perform ⟨[⟨.tag80, 0x7fff⟩], [], [], []⟩ build = _
    simp [perform, Session.visit, Session.follow, plain, build, hmade]
  have hdecoded : plain.perform (plain.after (refused ++ [build])) decode
      = (.ok (.decoded (.ok ())), ⟨[⟨.tag80, 0x7fff⟩], [context], [packet], []⟩) := by
    rw [after_concat, hbuilt]
    simp [perform, Session.follow, plain, decode, hpacket]
  have hdecrypted : plain.perform (plain.after (refused ++ [build] ++ [decode])) decrypt
      = (.ok (.decrypted (.ok ())), ⟨[⟨.tag80, 0x7fff⟩], [(context.decrypt packet).context],
          [(context.decrypt packet).packet], []⟩) := by
    rw [after_concat, hdecoded]
    simp [perform, Session.visit, Session.follow, plain, decrypt, hopened]
  rw [hbuilt, Prod.mk.injEq] at hbuild
  rw [hdecoded, Prod.mk.injEq] at hdecode
  rw [hdecrypted, Prod.mk.injEq] at hdecrypt
  have hbuilders : session.builders = [⟨.tag80, 0x7fff⟩] := by
    show (onMemory.after (refused ++ [build] ++ [decode] ++ [decrypt])).builders = _
    rw [after_concat]
    exact congrArg Session.builders hdecrypt.2
  have hcall : (Call.setLimit 0 0xffff).Refused session := ⟨by rw [hbuilders]; decide, by decide⟩
  exact ⟨hbuild.1, hdecode.1, hdecrypt.1, hbuilders, hcall, hrefused hcall, id, hanswered id⟩

end Operations

end SecureRtp
