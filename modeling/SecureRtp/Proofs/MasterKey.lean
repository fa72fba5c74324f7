import SecureRtp.Proofs.Context.Build
import SecureRtp.Proofs.CounterBlock

/-!
# `SecureRtp.Proofs.MasterKey`: what session keys are made of

A session key is the first block of a key stream under the master key, and the block that
the stream starts from is computed with numbers of 128 bits. Octet by octet it is the master
salt with two zeros behind (`Salt.padded`), where the label of the purpose is put onto the
octet 7 (`Salt.labelled`). The first block of a key stream is its starting block encrypted,
so a session key is one call of the cipher.

* `labelBlock_eq`: the block for a label, octet by octet. No bit of the salt is moved off
  the top, which `value_labelBlock` says in numbers.
* `derive_eq`: what is derived for a label.
* `derivation_exact`: the lengths that are asked for, the two session keys, and the same
  for a context, whatever its settings.
-/

set_option autoImplicit false

namespace SecureRtp

namespace Salt

/-- The salt with two zeros behind, which makes a block of it. -/
def padded (salt : Salt) : Block := salt ++ (#v[0, 0] : Vector UInt8 2)

/-- The salt with a label put onto the octet 7. -/
def labelled (salt : Salt) (label : UInt8) : Salt := salt.set 7 (salt[7] ^^^ label)

/-- The octets of the padded salt are those of the salt and two zeros. -/
theorem toList_padded (salt : Salt) : (padded salt).toList = salt.toList ++ Octets.zeros 2 :=
  Vector.toList_append

/-- A label is put on like a string that is zero everywhere else. -/
theorem toList_labelled (salt : Salt) (label : UInt8) :
    (labelled salt label).toList = Octets.xor salt.toList ((Octets.zeros 14).set 7 label) := by
  apply List.ext_getElem
  · simp
  · intro i h₁ h₂
    rw [Octets.getElem_xor _ _ _ (by simpa using h₁) (by simpa using h₁)]
    simp only [labelled, Octets.zeros, Vector.getElem_toList, Vector.getElem_set,
      List.getElem_set, List.getElem_replicate]
    -- The octet at the place 7 takes the label, and every other one a zero.
    split
    · rename_i hplace
      subst hplace
      rfl
    · rw [UInt8.xor_zero]

/-- The label zero leaves the salt as it is. -/
@[simp] theorem labelled_zero (salt : Salt) : labelled salt 0 = salt := by
  rw [labelled, UInt8.xor_zero, Vector.set_getElem_self]

end Salt

namespace MasterKey

variable (master : MasterKey) (label : UInt8)

/-! ### The block for a label -/

/-- The octet 7 of fourteen is worth `2 ^ 48`. -/
theorem value_label :
    BigEndian.value ((Octets.zeros 14).set 7 label) = label.toNat * 2 ^ 48 := by
  have hsplit : (Octets.zeros 14).set 7 label = Octets.zeros 7 ++ label :: Octets.zeros 6 := rfl
  rw [hsplit, BigEndian.value_append, BigEndian.value_cons, BigEndian.value_zeros,
    BigEndian.value_zeros, Octets.length_zeros]
  omega

/-- The salt and the label fit into the number, and are not moved off the top. -/
theorem value_labelBlock :
    BigEndian.value (master.labelBlock label).toList
      = (BigEndian.value master.salt.toList ^^^ (label.toNat * 2 ^ 48)) * 2 ^ 16 := by
  have hsalt := BigEndian.value_lt master.salt.toList
  have hlabel : label.toNat * 2 ^ 48 < 2 ^ 112 := by
    have := label.toNat_lt
    omega
  have hmoved : (BitVec.ofNat 128 label.toNat <<< 48).toNat = label.toNat * 2 ^ 48 :=
    toNat_ofNat_shiftLeft (by omega)
  have haligned : BigEndian.value (Octets.alignRight 16 master.salt.toList).toList
      = BigEndian.value master.salt.toList := BigEndian.value_alignRight _ (by simp)
  rw [Vector.length_toList, show 256 ^ 14 = 2 ^ 112 by decide] at hsalt
  -- Sixteen bits more are just the width that there is.
  have hfits := Nat.mul_lt_mul_of_pos_right (Nat.xor_lt_two_pow hsalt hlabel)
    (Nat.two_pow_pos 16)
  rw [← Nat.pow_add] at hfits
  rw [← Block.toNat_toWord, labelBlock, Block.toWord_ofWord, BitVec.toNat_shiftLeft,
    BitVec.toNat_xor, Block.toNat_toWord, haligned, hmoved, Nat.shiftLeft_eq]
  exact Nat.mod_eq_of_lt hfits

/-- The block for a label is the salt with the label on its octet 7 and two zeros behind. Both are
sixteen octets with the same value (`value_labelBlock`), so they are the same octets. -/
theorem labelBlock_eq :
    master.labelBlock label = Salt.padded (Salt.labelled master.salt label) := by
  have hwidth : 256 ^ 2 = 2 ^ 16 := by decide
  refine Vector.toList_inj.mp (BigEndian.value_inj (by simp) ?_)
  rw [value_labelBlock, Salt.toList_padded, BigEndian.value_append, BigEndian.value_zeros,
    Salt.toList_labelled, BigEndian.value_xor (by simp), value_label, Octets.length_zeros,
    hwidth, Nat.add_zero]

/-! ### Session keys -/

/-- The first block of a key stream is its starting block encrypted. -/
theorem take_block (key : Key) (start : Block) :
    ((KeyStream.new key start).take 16).1 = (Aes.encrypt key start).toList := by
  have hfirst : CounterMode.block (CounterMode.new key start) 0 = Aes.encrypt key start := by
    show (Aes.expand key).encrypt (Block.ofWord (start.toWord + 0#128)) = _
    rw [BitVec.add_zero, Block.ofWord_toWord]
    rfl
  rw [((KeyStream.At.new key start).take 16).1, ← octets_eq_streamOctets key start 0, ← hfirst]
  exact CounterMode.octets_block _ 0

/-- What is derived for a label is its block, encrypted under the master key. -/
theorem derive_eq :
    master.derive label
      = Aes.encrypt master.key (Salt.padded (Salt.labelled master.salt label)) := by
  apply Vector.toList_inj.mp
  rw [derive, Octets.toList_toVector, take_block, labelBlock_eq]

/-- The session key is the padded salt, encrypted under the master key. Its label is zero and
leaves no mark on the salt. -/
theorem sessionKey_eq :
    master.sessionKey = Aes.encrypt master.key (Salt.padded master.salt) := by
  rw [sessionKey, derive_eq, encryptionLabel, Salt.labelled_zero]

/-- The session salt is the first fourteen octets of the block for the label `0x02`, encrypted
under the master key. The two octets behind them are not used. -/
theorem toList_sessionSalt :
    master.sessionSalt.toList
      = (Aes.encrypt master.key (Salt.padded (Salt.labelled master.salt 0x02))).toList.take 14 := by
  rw [sessionSalt, derive_eq, Octets.toList_alignLeft, Vector.length_toList]
  exact List.append_nil _

/-- The session keys of RFC 3711, appendix B.3. -/
example :
    let master : MasterKey :=
      ⟨#v[0xe1, 0xf9, 0x7a, 0x0d, 0x3e, 0x01, 0x8b, 0xe0, 0xd6, 0x4f, 0xa3, 0x2c, 0x06, 0xde, 0x41,
          0x39],
        #v[0x0e, 0xc6, 0x75, 0xad, 0x49, 0x8a, 0xfe, 0xeb, 0xb6, 0x96, 0x0b, 0x3a, 0xab, 0xe6]⟩
    master.sessionKey
        = #v[0xc6, 0x1e, 0x7a, 0x93, 0x74, 0x4f, 0x39, 0xee, 0x10, 0x73, 0x4a, 0xfe, 0x3f, 0xf7,
          0xa0, 0x87] ∧
      master.sessionSalt.toList
        = [0x30, 0xcb, 0xbc, 0x08, 0x86, 0x3d, 0x8c, 0x85, 0xd4, 0x9d, 0xb3, 0x4a, 0x9a, 0xe1] := by
  intro master
  rw [sessionKey_eq, toList_sessionSalt]
  decide +kernel

/-- Different labels have different blocks, because the salt cancels. -/
theorem labelBlock_inj {label label' : UInt8}
    (h : master.labelBlock label = master.labelBlock label') : label = label' := by
  have hvalues := congrArg (fun block : Block => BigEndian.value block.toList) h
  simp only [value_labelBlock] at hvalues
  have hmoved := Nat.mul_right_cancel (Nat.two_pow_pos 16) hvalues
  rw [Nat.xor_right_inj] at hmoved
  exact UInt8.toNat_inj.mp (Nat.mul_right_cancel (Nat.two_pow_pos 48) hmoved)

/-! ### Master keys -/

variable (profile : Profile) {key salt : Octets}

/-- A key that is not of sixteen octets is refused before the salt is looked at. -/
theorem ofOctets_of_key (hkey : key.length ≠ 16) (salt : Octets) :
    ofOctets profile key salt = .error (.masterKeyLength 16 key.length) := by
  simp [ofOctets, hkey]

/-- A salt that is not of fourteen octets is refused when the key is of sixteen. -/
theorem ofOctets_of_salt (hkey : key.length = 16) (hsalt : salt.length ≠ 14) :
    ofOctets profile key salt = .error (.masterSaltLength 14 salt.length) := by
  simp [ofOctets, hkey, hsalt]

/-- A key of sixteen octets and a salt of fourteen make a master key with just these octets. -/
theorem ofOctets_of_lengths (hkey : key.length = 16) (hsalt : salt.length = 14) :
    ofOctets profile key salt = .ok ⟨key.toVector hkey, salt.toVector hsalt⟩ := by
  simp [ofOctets, hkey, hsalt]

/-- The lengths do not depend on the profile. -/
theorem ofOctets_profile (profile profile' : Profile) (key salt : Octets) :
    ofOctets profile key salt = ofOctets profile' key salt := by
  simp [ofOctets]

/-- From a master key to the session keys. First, the lengths: a key that is not of sixteen
octets is refused, whatever the salt, and with a key that is, a salt that is not of fourteen.
Second, with both lengths right there is a master key; its session key is the salt with two
zeros behind, encrypted, and its session salt the beginning of the same with `0x02` put onto
the octet 7. The two blocks are different, and as numbers they have every bit of the salt.
Third, a builder makes a context exactly when there is a master key, whatever its settings,
fails in the same way when there is none, and gives the context these two session keys. -/
theorem derivation_exact (profile : Profile) (key salt : Octets) :
    (ofOctets profile key salt = .error (.masterKeyLength 16 key.length) ↔ key.length ≠ 16) ∧
    (ofOctets profile key salt = .error (.masterSaltLength 14 salt.length) ↔
      key.length = 16 ∧ salt.length ≠ 14) ∧
    (key.length = 16 → salt.length = 14 → ∃ master : MasterKey,
      ofOctets profile key salt = .ok master ∧
      master.key.toList = key ∧ master.salt.toList = salt ∧
      master.sessionKey = Aes.encrypt master.key (Salt.padded master.salt) ∧
      master.sessionSalt.toList
        = (Aes.encrypt master.key
            (Salt.padded (Salt.labelled master.salt 0x02))).toList.take 14 ∧
      (∀ label, BigEndian.value (master.labelBlock label).toList
        = (BigEndian.value salt ^^^ (label.toNat * 2 ^ 48)) * 2 ^ 16) ∧
      master.labelBlock encryptionLabel ≠ master.labelBlock saltLabel) ∧
    (∀ builder : Context.Builder, builder.Reachable →
      (∀ error, (builder.build key salt).result = .error error ↔
        ofOctets profile key salt = .error error) ∧
      (∀ master, ofOctets profile key salt = .ok master →
        ∃ context, (builder.build key salt).result = .ok context ∧
          context.sessionSalt = master.sessionSalt ∧
          context.keyStream = KeyStream.new master.sessionKey (Vector.replicate 16 0))) := by
  refine ⟨⟨?_, ?_⟩, ⟨?_, ?_⟩, ?_, ?_⟩
  · intro hrefused hkey
    -- There is another error then, or none.
    by_cases hsalt : salt.length = 14
    · rw [ofOctets_of_lengths profile hkey hsalt] at hrefused
      cases hrefused
    · rw [ofOctets_of_salt profile hkey hsalt] at hrefused
      cases hrefused
  · exact fun hkey => ofOctets_of_key profile hkey salt
  · intro hrefused
    -- The key is looked at first, so the error says that its length is right.
    have hkey : key.length = 16 := by
      by_contra hkey
      rw [ofOctets_of_key profile hkey salt] at hrefused
      cases hrefused
    refine ⟨hkey, fun hsalt => ?_⟩
    rw [ofOctets_of_lengths profile hkey hsalt] at hrefused
    cases hrefused
  · exact fun ⟨hkey, hsalt⟩ => ofOctets_of_salt profile hkey hsalt
  · intro hkey hsalt
    refine ⟨_, ofOctets_of_lengths profile hkey hsalt, rfl, rfl, sessionKey_eq _,
      toList_sessionSalt _, value_labelBlock _, fun hsame => ?_⟩
    exact absurd (labelBlock_inj _ hsame) (by decide)
  · intro builder hbuilder
    have hresult := Context.Builder.result_build hbuilder.maxDisorder_lt key salt
    rw [ofOctets_profile builder.profile profile] at hresult
    refine ⟨?_, ?_⟩
    · intro error
      rw [hresult]
      cases ofOctets profile key salt <;> simp [Except.map]
    · intro master hmaster
      rw [hmaster] at hresult
      exact ⟨_, hresult, rfl, rfl⟩

/-- The key and the salt of RFC 3711, appendix B.3, and the default settings. Of the octets of
the two blocks, only the one at the place 7 is different. The session key and the session salt
are the ones that the appendix gives. -/
theorem derivation_exact_default_settings :
    let key : Octets := [0xe1, 0xf9, 0x7a, 0x0d, 0x3e, 0x01, 0x8b, 0xe0, 0xd6, 0x4f, 0xa3, 0x2c,
      0x06, 0xde, 0x41, 0x39]
    let salt : Octets := [0x0e, 0xc6, 0x75, 0xad, 0x49, 0x8a, 0xfe, 0xeb, 0xb6, 0x96, 0x0b, 0x3a,
      0xab, 0xe6]
    key.length = 16 ∧ salt.length = 14 ∧ Context.Builder.Reachable default ∧
    ∃ master context, ofOctets .tag32 key salt = .ok master ∧ master.key.toList = key ∧
      master.sessionKey = Aes.encrypt master.key
        #v[0x0e, 0xc6, 0x75, 0xad, 0x49, 0x8a, 0xfe, 0xeb, 0xb6, 0x96, 0x0b, 0x3a, 0xab, 0xe6,
          0, 0] ∧
      master.sessionSalt.toList = (Aes.encrypt master.key
        #v[0x0e, 0xc6, 0x75, 0xad, 0x49, 0x8a, 0xfe, 0xe9, 0xb6, 0x96, 0x0b, 0x3a, 0xab, 0xe6,
          0, 0]).toList.take 14 ∧
      master.sessionKey.toList = [0xc6, 0x1e, 0x7a, 0x93, 0x74, 0x4f, 0x39, 0xee, 0x10, 0x73,
        0x4a, 0xfe, 0x3f, 0xf7, 0xa0, 0x87] ∧
      master.sessionSalt.toList
        = [0x30, 0xcb, 0xbc, 0x08, 0x86, 0x3d, 0x8c, 0x85, 0xd4, 0x9d, 0xb3, 0x4a, 0x9a, 0xe1] ∧
      (Context.Builder.build default key salt).result = .ok context ∧
      context.sessionSalt = master.sessionSalt := by
  intro key salt
  obtain ⟨-, -, hmaster, hbuilders⟩ := derivation_exact .tag32 key salt
  obtain ⟨master, hok, hkey, hsalt, hsessionKey, hsessionSalt, -⟩ := hmaster rfl rfl
  obtain ⟨-, hcontexts⟩ := hbuilders default .start
  obtain ⟨context, hcontext, hcontextSalt, -⟩ := hcontexts master hok
  have hvector : master.salt = salt.toVector rfl := Vector.toList_inj.mp hsalt
  have hkeyBlock : Salt.padded (salt.toVector rfl) = #v[0x0e, 0xc6, 0x75, 0xad, 0x49, 0x8a, 0xfe,
      0xeb, 0xb6, 0x96, 0x0b, 0x3a, 0xab, 0xe6, 0, 0] := by decide
  have hsaltBlock : Salt.padded (Salt.labelled (salt.toVector rfl) 0x02) = #v[0x0e, 0xc6, 0x75,
      0xad, 0x49, 0x8a, 0xfe, 0xe9, 0xb6, 0x96, 0x0b, 0x3a, 0xab, 0xe6, 0, 0] := by decide
  rw [hvector, hkeyBlock] at hsessionKey
  rw [hvector, hsaltBlock] at hsessionSalt
  -- What is left of the two session keys is to run the cipher on a block each.
  have hkeyVector : master.key = key.toVector rfl := Vector.toList_inj.mp hkey
  refine ⟨rfl, rfl, .start, master, context, hok, hkey, hsessionKey, hsessionSalt, ?_, ?_,
    hcontext, hcontextSalt⟩
  · rw [hsessionKey, hkeyVector]
    decide +kernel
  · rw [hsessionSalt, hkeyVector]
    decide +kernel

end MasterKey

end SecureRtp
