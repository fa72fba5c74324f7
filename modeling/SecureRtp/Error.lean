/-!
# `SecureRtp.Error`: why an operation is refused

Each operation that can be refused names the causes in a type of its own.
`message` is the sentence for a user, `diagnostic` the compact form for a
developer (a failure of the cipher engine has none), and `cause` the
error underneath, where there is one.
-/

set_option autoImplicit false

namespace SecureRtp

/-- The name of an error followed by its fields, as a developer writes
it down. -/
def fieldsText (name : String) (fields : List (String × Nat)) : String :=
  let items := fields.map fun (label, value) => label ++ ": " ++ toString value
  name ++ " \x7b " ++ String.intercalate ", " items ++ " \x7d"

/-- The eight hexadecimal digits of a word, in lower case. -/
def hexDigits (word : UInt32) : String :=
  String.ofList ((List.range 8).map fun i => Nat.digitChar (word.toNat >>> (4 * (7 - i)) % 16))

/-! ### Input that is not what it should be -/

/-- The octets are not a packet, or too few for what they should hold. -/
inductive InvalidInput
  | invalidInput
deriving DecidableEq, Inhabited

/-- What a user is told. -/
def InvalidInput.message : InvalidInput → String
  | .invalidInput => "invalid input"

/-- What a developer is shown. -/
def InvalidInput.diagnostic : InvalidInput → String
  | .invalidInput => "InvalidInput"

/-- No profile has the given name. -/
inductive UnknownProfile
  | unknownProfile
deriving DecidableEq, Inhabited

/-- What a user is told. -/
def UnknownProfile.message : UnknownProfile → String
  | .unknownProfile => "unknown SRTP profile"

/-- What a developer is shown. -/
def UnknownProfile.diagnostic : UnknownProfile → String
  | .unknownProfile => "UnknownProfile"

/-- A limit for the disorder of packets is half of the sequence numbers
or more, so that late and early packets could not be told apart. -/
inductive DisorderTooLarge
  | disorderTooLarge
deriving DecidableEq, Inhabited

/-- What a user is told. -/
def DisorderTooLarge.message : DisorderTooLarge → String
  | .disorderTooLarge => "assertion failed: max_disorder < 0x8000"

/-! ### The cipher engine -/

/-- The cipher engine reports a failure without saying which. -/
inductive EngineError
  | unspecified
deriving DecidableEq, Inhabited

/-- What a user is told. -/
def EngineError.message : EngineError → String
  | .unspecified => "OpenSSL error"

/-- How a failure of the engine is told as part of another error. -/
def EngineError.wrappedMessage (error : EngineError) : String := "SSL error: " ++ error.message

/-! ### Making a context -/

/-- Why no context can be made. -/
inductive SetupError
  /-- The master key has not the length that the profile asks for. -/
  | masterKeyLength (expected actual : Nat)
  /-- The master salt has not the length that the profile asks for. -/
  | masterSaltLength (expected actual : Nat)
  /-- The limit for the disorder of packets cannot be used. -/
  | disorder (error : DisorderTooLarge)
  /-- The cipher engine failed. -/
  | engine (error : EngineError)
deriving DecidableEq

namespace SetupError

/-- What a user is told. -/
def message : SetupError → String
  | masterKeyLength expected actual =>
    s!"invalid master key length (expected {expected}, got {actual})"
  | masterSaltLength expected actual =>
    s!"invalid master salt length (expected {expected}, got {actual})"
  | disorder error => error.message
  | engine error => error.wrappedMessage

/-- What a developer is shown. -/
def diagnostic? : SetupError → Option String
  | masterKeyLength expected actual =>
    some (fieldsText "InvalidMasterKeyLength" [("expected", expected), ("actual", actual)])
  | masterSaltLength expected actual =>
    some (fieldsText "InvalidMasterSaltLength" [("expected", expected), ("actual", actual)])
  | disorder _ | engine _ => none

/-- The error underneath. -/
def cause? : SetupError → Option EngineError
  | engine error => some error
  | _ => none

end SetupError

/-! ### Decrypting a packet -/

/-- Why a packet is not decrypted. -/
inductive DecryptError
  /-- The context belongs to the stream `expected`, the packet to another
  one. -/
  | streamMismatch (expected actual : UInt32)
  /-- The payload is too short to hold an authentication tag. -/
  | invalidInput
  /-- The cipher engine failed. -/
  | engine (error : EngineError)
deriving DecidableEq

namespace DecryptError

/-- Invalid input stays what it is when a packet is decrypted. -/
def ofInvalidInput : InvalidInput → DecryptError
  | .invalidInput => .invalidInput

/-- What a user is told. -/
def message : DecryptError → String
  | streamMismatch expected actual =>
    "SSRC mismatch (expected " ++ hexDigits expected ++ ", got " ++ hexDigits actual ++ ")"
  | invalidInput => InvalidInput.invalidInput.message
  | engine error => error.wrappedMessage

/-- What a developer is shown. -/
def diagnostic? : DecryptError → Option String
  | streamMismatch expected actual =>
    some (fieldsText "StreamMismatch" [("expected", expected.toNat), ("actual", actual.toNat)])
  | invalidInput => some InvalidInput.invalidInput.diagnostic
  | engine _ => none

/-- The error underneath. -/
def cause? : DecryptError → Option EngineError
  | engine error => some error
  | _ => none

end DecryptError

end SecureRtp
