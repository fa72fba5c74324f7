import SecureRtp.Proofs.KeyStream.Position

/-!
# `SecureRtp.Proofs.KeyStream.Requests`: a key stream that is asked anything

A key stream takes three kinds of requests, in any order and of any length: for
octets, for octets put onto data, and for a restart. `KeyStream.answers` is what
it answers to a list of them. `referenceAnswers` answers the same list out of
the reference stream, with two numbers for its whole state: the starting block
and the position.

* `KeyStream.At.answers`: a key stream answers like the reference from where it
  stands.
* `KeyStream.At.after_moves`: requests lead it where `Request.move` says.
* `KeyStream.flatten_referenceAnswers`: between two restarts the answers, one
  behind the other, are one part of the stream put onto what the requests carry.
* `KeyStream.answers_eq_reference`: a new key stream answers like the reference.
  How requests are cut up and mixed makes no difference, neither for their own
  answers nor for later ones, and a restarted key stream answers like a new one.
-/

set_option autoImplicit false

namespace SecureRtp

/-- What a key stream can be asked for. -/
inductive Request
  /-- The next `count` octets. -/
  | take (count : Nat)
  /-- The next octets, put onto `data`. -/
  | xor (data : Octets)
  /-- To begin again at the block `start`. -/
  | reset (start : Block)
deriving DecidableEq

namespace Request

/-- The octets that the stream is put onto. A request for the bare stream has it
put onto zeros. -/
def carried : Request → Octets
  | take count => Octets.zeros count
  | xor data => data
  | reset _ => []

/-- Whether the stream goes on with the request, and does not begin again. -/
def Continues : Request → Prop
  | take _ | xor _ => True
  | reset _ => False

instance : DecidablePred Continues
  | take _ | xor _ => .isTrue trivial
  | reset _ => .isFalse id

/-- Where a request leads, from a starting block and a position. -/
def move (place : Block × Nat) : Request → Block × Nat
  | take count => (place.1, place.2 + count)
  | xor data => (place.1, place.2 + data.length)
  | reset start => (start, 0)

end Request

/-- The answers out of the reference stream. The state is the starting block and
the position. -/
def referenceAnswers (key : Key) : Block → Nat → List Request → List Octets
  | _, _, [] => []
  | start, p, .take count :: rest =>
    streamOctets key start p count :: referenceAnswers key start (p + count) rest
  | start, p, .xor data :: rest =>
    Octets.xor data (streamOctets key start p data.length)
      :: referenceAnswers key start (p + data.length) rest
  | _, _, .reset start :: rest => [] :: referenceAnswers key start 0 rest

namespace KeyStream

/-- The answer to a request, and the key stream after it. -/
def answer (stream : KeyStream) : Request → Octets × KeyStream
  | .take count => stream.take count
  | .xor data => stream.xor data
  | .reset start => ([], stream.reset start)

/-- The answers to a list of requests. -/
def answers (stream : KeyStream) : List Request → List Octets
  | [] => []
  | request :: rest => (stream.answer request).1 :: (stream.answer request).2.answers rest

/-- The key stream after a list of requests. -/
def after (stream : KeyStream) : List Request → KeyStream
  | [] => stream
  | request :: rest => (stream.answer request).2.after rest

variable {stream : KeyStream} {key : Key} {start : Block} {p : Nat}

/-- From where it stands, a key stream answers like the reference. -/
theorem At.answers (h : stream.At key start p) (requests : List Request) :
    stream.answers requests = referenceAnswers key start p requests := by
  induction requests generalizing stream start p with
  | nil => rfl
  | cons request rest ih =>
      cases request with
      | take count =>
          obtain ⟨hanswer, hmoved⟩ := h.take count
          exact congrArg₂ List.cons hanswer (ih hmoved)
      | xor data =>
          obtain ⟨hanswer, hmoved⟩ := h.xor data
          exact congrArg₂ List.cons hanswer (ih hmoved)
      | reset start' =>
          -- The position so far is given up, and with it what waits in the buffer.
          exact congrArg ([] :: ·) (ih (h.reset start'))

/-- Requests lead where they move to, one after another. -/
theorem At.after_moves (h : stream.At key start p) (requests : List Request) :
    (stream.after requests).At key (requests.foldl Request.move (start, p)).1
      (requests.foldl Request.move (start, p)).2 := by
  induction requests generalizing stream start p with
  | nil => exact h
  | cons request rest ih =>
      -- The other requests begin where this one leads.
      cases request with
      | take count => exact ih (h.take count).2
      | xor data => exact ih (h.xor data).2
      | reset start' => exact ih (h.reset start')

/-- After any requests a key stream stands somewhere in a stream of its key. -/
theorem At.after (h : stream.At key start p) (requests : List Request) :
    ∃ start' p', (stream.after requests).At key start' p' :=
  ⟨_, _, h.after_moves requests⟩

/-- Requests without a restart move the position by as many octets as they
carry. -/
theorem At.after_of_continues (h : stream.At key start p) {requests : List Request}
    (hcontinue : ∀ request ∈ requests, request.Continues) :
    (stream.after requests).At key start (p + (requests.flatMap Request.carried).length) := by
  induction requests generalizing stream p with
  | nil => exact h
  | cons request rest ih =>
      have hrest : ∀ r ∈ rest, r.Continues := fun r hr =>
        hcontinue r (List.mem_cons_of_mem _ hr)
      rw [List.flatMap_cons, List.length_append, ← Nat.add_assoc]
      -- A request that goes on moves the position by what it carries, and a restart is excluded.
      cases request with
      | take count =>
          rw [Request.carried, Octets.length_zeros]
          exact ih (h.take count).2 hrest
      | xor data => exact ih (h.xor data).2 hrest
      | reset start' => exact (hcontinue _ List.mem_cons_self).elim

/-- A stream put onto zeros is the stream itself. -/
theorem xor_zeros (octets : Octets) : Octets.xor (Octets.zeros octets.length) octets = octets := by
  refine List.ext_getElem (by simp) fun i h₁ h₂ => ?_
  rw [Octets.getElem_xor _ _ _ (by simpa using h₂) h₂]
  simp [Octets.zeros]

/-- Without a restart, the answers one behind the other are one part of the
stream put onto what the requests carry. -/
theorem flatten_referenceAnswers {requests : List Request}
    (hcontinue : ∀ request ∈ requests, request.Continues) :
    (referenceAnswers key start p requests).flatten
      = Octets.xor (requests.flatMap Request.carried)
          (streamOctets key start p (requests.flatMap Request.carried).length) := by
  induction requests generalizing p with
  | nil => rfl
  | cons request rest ih =>
      have hrest : ∀ r ∈ rest, r.Continues := fun r hr =>
        hcontinue r (List.mem_cons_of_mem _ hr)
      rw [List.flatMap_cons, List.length_append, ← streamOctets_append,
        Octets.xor_append _ _ _ _ (length_streamOctets _ _ _ _).symm]
      cases request with
      | take count =>
          -- The answer is the stream itself, which is the stream put onto zeros.
          have hzeros := xor_zeros (streamOctets key start p count)
          rw [length_streamOctets] at hzeros
          rw [Request.carried, Octets.length_zeros, hzeros, referenceAnswers, List.flatten_cons,
            ih hrest]
      | xor data => rw [Request.carried, referenceAnswers, List.flatten_cons, ih hrest]
      | reset start' => exact (hcontinue _ List.mem_cons_self).elim

/-- A key stream is the stream of its key. First, it answers any list of
requests like the reference. Second, after any requests, two lists of requests
without a restart that carry the same octets get the same answer, one part
behind the other, and leave key streams that answer alike from then on. Third,
after any requests, a restart makes a key stream that answers like a new one. -/
theorem answers_eq_reference (key : Key) (start : Block) :
    (∀ requests, (KeyStream.new key start).answers requests
      = referenceAnswers key start 0 requests) ∧
    (∀ history requests requests' : List Request,
      (∀ request ∈ requests, request.Continues) →
      (∀ request ∈ requests', request.Continues) →
      requests.flatMap Request.carried = requests'.flatMap Request.carried →
        (((KeyStream.new key start).after history).answers requests).flatten
            = (((KeyStream.new key start).after history).answers requests').flatten ∧
        ∀ later,
          (((KeyStream.new key start).after history).after requests).answers later
            = (((KeyStream.new key start).after history).after requests').answers later) ∧
    (∀ history start' later,
      (((KeyStream.new key start).after history).reset start').answers later
        = (KeyStream.new key start').answers later) := by
  have hnew := At.new key start
  refine ⟨hnew.answers, ?_, ?_⟩
  · intro history requests requests' hcontinue hcontinue' hcarried
    -- The history leaves nothing behind but a place in a stream, where both lists begin.
    obtain ⟨start', p, hat⟩ := hnew.after history
    refine ⟨?_, ?_⟩
    · rw [hat.answers, hat.answers, flatten_referenceAnswers hcontinue,
        flatten_referenceAnswers hcontinue', hcarried]
    · intro later
      rw [(hat.after_of_continues hcontinue).answers, (hat.after_of_continues hcontinue').answers,
        hcarried]
  · intro history start' later
    obtain ⟨start'', p, hat⟩ := hnew.after history
    rw [(hat.reset start').answers, (At.new key start').answers]

/-- Five octets and then data, or the data behind five zeros, after a request that
ended in the middle of a block. -/
theorem answers_eq_reference_split :
    (∀ request ∈ [Request.take 5, .xor [1, 2, 3]], request.Continues) ∧
    (let stream := (KeyStream.new (Vector.replicate 16 0) (Vector.replicate 16 255)).after [.take 7]
     (stream.answers [.take 5, .xor [1, 2, 3]]).flatten
        = (stream.answers [.xor [0, 0, 0, 0, 0, 1, 2, 3]]).flatten) := by
  refine ⟨by decide, ?_⟩
  have hsplit := (answers_eq_reference (Vector.replicate 16 0) (Vector.replicate 16 255)).2.1
  exact (hsplit [.take 7] [.take 5, .xor [1, 2, 3]] [.xor [0, 0, 0, 0, 0, 1, 2, 3]] (by decide)
    (by decide) (by decide)).1

end KeyStream

end SecureRtp
