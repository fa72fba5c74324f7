import SecureRtp.Error

/-!
# `SecureRtp.Profile`: protection profiles

A profile fixes the lengths that both ends of a stream agree on. Both
profiles here use the 128-bit cipher in counter mode and differ in the
length of the authentication tag that follows each payload.

A profile has two forms in the interface, `SrtpProfileId` for its name and
`SrtpProfile` for its lengths; since the one determines the other, there is
one type here.
-/

set_option autoImplicit false

namespace SecureRtp

/-- A protection profile. -/
inductive Profile
  /-- Counter mode with a tag of 80 bits. -/
  | tag80
  /-- Counter mode with a tag of 32 bits. -/
  | tag32
deriving DecidableEq

namespace Profile

/-- The longer tag is the default. -/
instance : Inhabited Profile := ⟨tag80⟩

/-- The name a profile is shown under. -/
def name : Profile → String
  | tag80 => "SRTP_AES128_CM_SHA1_80"
  | tag32 => "SRTP_AES128_CM_SHA1_32"

/-- The name a profile has in session descriptions. -/
def sessionName : Profile → String
  | tag80 => "AES_CM_128_HMAC_SHA1_80"
  | tag32 => "AES_CM_128_HMAC_SHA1_32"

/-- Every profile. -/
def all : List Profile := [tag80, tag32]

/-- The profile with a given name, which has to match one of its two
names exactly. -/
def ofName (text : String) : Except UnknownProfile Profile :=
  match all.find? fun profile => text = profile.name ∨ text = profile.sessionName with
  | some profile => .ok profile
  | none => .error .unknownProfile

/-- The length of the master key in bits. -/
def masterKeyBits (_ : Profile) : Nat := 128

/-- The length of the master salt in bits. -/
def masterSaltBits (_ : Profile) : Nat := 112

/-- The length of the authentication tag in bits. -/
def tagBits : Profile → Nat
  | tag80 => 80
  | tag32 => 32

/-- The length of the master key in octets. -/
def masterKeyLength (profile : Profile) : Nat := profile.masterKeyBits / 8

/-- The length of the master salt in octets. -/
def masterSaltLength (profile : Profile) : Nat := profile.masterSaltBits / 8

/-- The length of the authentication tag in octets. -/
def tagLength (profile : Profile) : Nat := profile.tagBits / 8

/-- Every profile asks for a master key of sixteen octets, the width of the cipher's key. -/
@[simp] theorem masterKeyLength_eq (profile : Profile) : profile.masterKeyLength = 16 := by
  simp [masterKeyLength, masterKeyBits]

/-- Every profile asks for a master salt of fourteen octets, the width of a salt. -/
@[simp] theorem masterSaltLength_eq (profile : Profile) : profile.masterSaltLength = 14 := by
  simp [masterSaltLength, masterSaltBits]

/-- A profile is found under the name it is shown under. -/
theorem ofName_name (profile : Profile) : ofName profile.name = .ok profile := by
  cases profile <;> simp [ofName, all, name, sessionName]

end Profile

end SecureRtp
