import Oyster.Attestation.Freshness
import Oyster.Lib.Hex
import Oyster.Lib.TypedData

namespace Oyster.Attestation.Verifier

open Fallible

abbrev B256 := Vector UInt8 32

/-- The hash function and the signatures. A recovery id is one of four numbers. -/
structure Crypto (SecretKey : Type) where
  keccak256 : List UInt8 → B256
  /-- `sign_ecdsa_recoverable` and `serialize_compact` -/
  sign : B256 → SecretKey → Fin 4 × Vector UInt8 64

inductive UserError where
  | attestationDecode (e : Hex.FromHexError)
  | attestationVerification (e : AttestationError)
  | messageGeneration
  | invalidRecovery

/-- The strings are given as their bytes. -/
structure VerifyAttestationResponse where
  signature : List UInt8
  secp256k1Public : List UInt8
  pcr0 : List UInt8
  pcr1 : List UInt8
  pcr2 : List UInt8
  timestamp : UInt64
  verifierSecp256k1Public : List UInt8
deriving DecidableEq

/-- `keccak256(abi.encode(keccak256("EIP712Domain(string name,string version)"),
keccak256("marlin.oyster.AttestationVerifier"), keccak256("1")))` -/
def domainSeparator : List UInt8 := BigEndian.encode 32
  0x0de834feb03c214f785e75b2828ffeceb322312d4487e2fb9640ca5fc32542c7

/-- `keccak256("Attestation(bytes enclavePubKey,bytes PCR0,bytes PCR1,bytes PCR2,uint256
timestampInMilliseconds)")` -/
def attestationTypehash : List UInt8 := BigEndian.encode 32
  0x6889df476ca38f3f4b417c17eb496682eb401b4f41a2259741a78acc481ea805

section

variable {SecretKey : Type} (crypto : Crypto SecretKey)

def computeDigest (enclavePubkey pcr0 pcr1 pcr2 : List UInt8) (timestamp : UInt64) : B256 :=
  let encodedStruct := attestationTypehash ++ (crypto.keccak256 enclavePubkey).toList ++
    (crypto.keccak256 pcr0).toList ++ (crypto.keccak256 pcr1).toList ++
    (crypto.keccak256 pcr2).toList ++ BigEndian.encode 32 timestamp.toNat
  let hashStruct := crypto.keccak256 encodedStruct
  crypto.keccak256 ([0x19, 0x01] ++ domainSeparator ++ hashStruct.toList)

/-- `Message::from_digest_slice` -/
def fromDigestSlice (digest : List UInt8) : Except UserError B256 :=
  if h : digest.length = 32 then .ok ⟨digest.toArray, by simpa using h⟩
  else .error .messageGeneration

/-- `i32::from(recid).try_into()` -/
def recidByte (recid : ℤ) : Except UserError UInt8 :=
  if 0 ≤ recid ∧ recid < 256 then .ok (UInt8.ofNat recid.toNat) else .error .invalidRecovery

variable {CoseSign1 X509 Key Time : Type} (lib : Libraries CoseSign1 X509 Key Time)

def respond (parsed : AttestationDecoded) (secret : SecretKey) (public_ : Vector UInt8 64) :
    Except UserError VerifyAttestationResponse := do
  let requesterSecp256k1Public := parsed.publicKey
  let digest := computeDigest crypto requesterSecp256k1Public parsed.pcrs[0].toList
    parsed.pcrs[1].toList parsed.pcrs[2].toList parsed.timestamp
  let responseMsg ← fromDigestSlice digest.toList
  let signed := crypto.sign responseMsg secret
  let sig := Hex.encode signed.2.toList
  let recid ← recidByte signed.1.val
  let recid := Hex.encode [recid + 27]
  return {
    signature := sig ++ recid
    secp256k1Public := Hex.encode requesterSecp256k1Public
    pcr0 := Hex.encode parsed.pcrs[0].toList
    pcr1 := Hex.encode parsed.pcrs[1].toList
    pcr2 := Hex.encode parsed.pcrs[2].toList
    timestamp := parsed.timestamp
    verifierSecp256k1Public := Hex.encode public_.toList }

def verify (attestation : List UInt8) (secret : SecretKey) (public_ : Vector UInt8 64) :
    Except UserError VerifyAttestationResponse := do
  let parsed ← (decodeAttestation lib attestation).mapError .attestationVerification
  let _ ← (verifyWithTimestamp lib attestation parsed.pcrs parsed.timestamp).mapError
    .attestationVerification
  respond crypto parsed secret public_

def verifyRaw (req : List UInt8) (secret : SecretKey) (public_ : Vector UInt8 64) :
    Except UserError VerifyAttestationResponse :=
  verify crypto lib req secret public_

def verifyHex (req : List UInt8) (secret : SecretKey) (public_ : Vector UInt8 64) :
    Except UserError VerifyAttestationResponse := do
  let attestation ← (Hex.decode req).mapError .attestationDecode
  verify crypto lib attestation secret public_

def keccakWord (bs : List UInt8) : Abi.Word :=
  BitVec.ofNat 256 (BigEndian.decode (crypto.keccak256 bs).toList)

def domainHash : Abi.Word := 0x0de834feb03c214f785e75b2828ffeceb322312d4487e2fb9640ca5fc32542c7

def typeHash : Abi.Word := 0x6889df476ca38f3f4b417c17eb496682eb401b4f41a2259741a78acc481ea805

/-- The struct `Attestation(bytes enclavePubKey,bytes PCR0,bytes PCR1,bytes PCR2,uint256
timestampInMilliseconds)` of the content of a document, as typed data has it: a field of bytes is
its hash, and a number is a word. -/
def attestationFields (d : AttestationDecoded) : List Abi.Word :=
  [keccakWord crypto d.publicKey, keccakWord crypto d.pcrs[0].toList,
    keccakWord crypto d.pcrs[1].toList, keccakWord crypto d.pcrs[2].toList,
    BitVec.ofNat 256 d.timestamp.toNat]

def attestationDigest (d : AttestationDecoded) : Abi.Word :=
  Abi.digestOf (keccakWord crypto) domainHash typeHash (attestationFields crypto d)

def attestationHashed (d : AttestationDecoded) : List (List UInt8) :=
  let struct := Abi.hashedStruct typeHash (attestationFields crypto d)
  [d.publicKey, d.pcrs[0].toList, d.pcrs[1].toList, d.pcrs[2].toList, struct,
    Abi.messageOf domainHash (keccakWord crypto struct)]

def digestBytes (w : Abi.Word) : B256 := ⟨(Abi.word w).toArray, by simp⟩

/-- The response for the content of a document: every field is one of its fields, and the
signature is over the digest of these. -/
def signedResponse (d : AttestationDecoded) (secret : SecretKey) (public_ : Vector UInt8 64) :
    VerifyAttestationResponse :=
  let digest := digestBytes (attestationDigest crypto d)
  { signature := Hex.encode (crypto.sign digest secret).2.toList ++
      Hex.encode [UInt8.ofNat (crypto.sign digest secret).1.val + 27]
    secp256k1Public := Hex.encode d.publicKey
    pcr0 := Hex.encode d.pcrs[0].toList
    pcr1 := Hex.encode d.pcrs[1].toList
    pcr2 := Hex.encode d.pcrs[2].toList
    timestamp := d.timestamp
    verifierSecp256k1Public := Hex.encode public_.toList }

variable {crypto lib}

theorem fromDigestSlice_digest (digest : B256) : fromDigestSlice digest.toList = .ok digest := by
  unfold fromDigestSlice
  rw [dif_pos (by simp)]
  rfl

theorem recidByte_recid (recid : Fin 4) :
    recidByte recid.val = .ok (UInt8.ofNat recid.val) := by
  have hlt := recid.isLt
  unfold recidByte
  rw [if_pos (by omega)]
  rfl

/-- The pass without checks reads what the checked pass reads. -/
theorem decoded_twice {attestation : List UInt8} {parsed : AttestationDecoded} {key : List UInt8} :
    (decodeAttestation lib attestation = .ok parsed ∧
      verifyWithTimestamp lib attestation parsed.pcrs parsed.timestamp = .ok key) ↔
    verifyAndDecodeAttestation lib attestation = .ok parsed ∧ key = parsed.publicKey := by
  rw [verifyWithTimestamp_ok]
  constructor
  · rintro ⟨hparsed, hverified⟩
    have hagain := decodeAttestation_of_verified hverified
    have hsame : parsed = ⟨parsed.pcrs, parsed.timestamp, key⟩ :=
      Except.ok.inj (hparsed.symm.trans hagain)
    rw [← hsame] at hverified
    exact ⟨hverified, (congrArg AttestationDecoded.publicKey hsame).symm⟩
  · rintro ⟨hverified, rfl⟩
    exact ⟨decodeAttestation_of_verified hverified, hverified⟩

theorem word_keccakWord (bs : List UInt8) :
    Abi.word (keccakWord crypto bs) = (crypto.keccak256 bs).toList := by
  have hlen : (crypto.keccak256 bs).toList.length = 32 := by simp
  have hlt : BigEndian.decode (crypto.keccak256 bs).toList < 2 ^ 256 := by
    have hlt := BigEndian.decode_lt (crypto.keccak256 bs).toList
    rw [hlen] at hlt
    exact hlt
  have hbytes := BigEndian.encode_decode (crypto.keccak256 bs).toList
  rw [hlen] at hbytes
  rw [Abi.word, keccakWord, BitVec.toNat_ofNat, Nat.mod_eq_of_lt hlt, hbytes]

theorem toNat_uint64 (t : UInt64) : (BitVec.ofNat 256 t.toNat).toNat = t.toNat := by
  have hlt : t.toNat < 2 ^ 256 := t.toNat_lt.trans (by norm_num)
  rw [BitVec.toNat_ofNat, Nat.mod_eq_of_lt hlt]

/-- Two contents with one digest are one, unless two byte strings hashed for them collide. -/
theorem attestationDigest_inj {d d' : AttestationDecoded}
    (hsep : Abi.Separates (keccakWord crypto)
      (attestationHashed crypto d ++ attestationHashed crypto d'))
    (h : attestationDigest crypto d = attestationDigest crypto d') : d = d' := by
  have hfields := Abi.digestOf_inj (hsep.subset (by simp [attestationHashed])) h
  have hsame : ∀ a ∈ attestationHashed crypto d, ∀ b ∈ attestationHashed crypto d',
      keccakWord crypto a = keccakWord crypto b → a = b := fun a ha b hb =>
    hsep a (List.mem_append_left _ ha) b (List.mem_append_right _ hb)
  simp only [attestationFields, List.cons.injEq, and_true] at hfields
  obtain ⟨hkey, h0, h1, h2, htimestamp⟩ := hfields
  have hkey := hsame _ (by simp [attestationHashed]) _ (by simp [attestationHashed]) hkey
  have h0 := hsame _ (by simp [attestationHashed]) _ (by simp [attestationHashed]) h0
  have h1 := hsame _ (by simp [attestationHashed]) _ (by simp [attestationHashed]) h1
  have h2 := hsame _ (by simp [attestationHashed]) _ (by simp [attestationHashed]) h2
  have hpcrs : d.pcrs = d'.pcrs := by
    apply Vector.ext
    intro i hi
    apply Vector.toList_inj.1
    interval_cases i
    · exact h0
    · exact h1
    · exact h2
  have htimestamp : d.timestamp = d'.timestamp := by
    have hnat := congrArg BitVec.toNat htimestamp
    rw [toNat_uint64, toNat_uint64] at hnat
    exact UInt64.toNat_inj.1 hnat
  obtain ⟨pcrs, timestamp, publicKey⟩ := d
  obtain ⟨pcrs', timestamp', publicKey'⟩ := d'
  cases hkey
  cases hpcrs
  cases htimestamp
  rfl

/-- What the code signs is the digest of the fields as typed data. -/
theorem computeDigest_eq (d : AttestationDecoded) :
    computeDigest crypto d.publicKey d.pcrs[0].toList d.pcrs[1].toList d.pcrs[2].toList
      d.timestamp = digestBytes (attestationDigest crypto d) := by
  have htypehash : Abi.word typeHash = attestationTypehash := rfl
  have hseparator : Abi.word domainHash = domainSeparator := rfl
  have htimestamp : Abi.word (BitVec.ofNat 256 d.timestamp.toNat) =
      BigEndian.encode 32 d.timestamp.toNat := by
    rw [Abi.word, toNat_uint64]
  apply Vector.toList_inj.1
  have hbytes : (digestBytes (attestationDigest crypto d)).toList =
      Abi.word (attestationDigest crypto d) := rfl
  rw [hbytes, attestationDigest, Abi.digestOf, word_keccakWord, Abi.messageOf, word_keccakWord,
    hseparator, Abi.hashedStruct, attestationFields]
  simp only [Abi.words, List.flatMap_cons, List.flatMap_nil, word_keccakWord, htypehash,
    htimestamp, List.append_nil]
  simp only [computeDigest, List.append_assoc]

theorem respond_eq {d : AttestationDecoded} {secret : SecretKey} {public_ : Vector UInt8 64} :
    respond crypto d secret public_ = .ok (signedResponse crypto d secret public_) := by
  unfold respond
  dsimp only
  rw [computeDigest_eq, fromDigestSlice_digest, ok_bind, recidByte_recid, ok_bind]
  rfl

theorem verify_ok {attestation : List UInt8} {secret : SecretKey} {public_ : Vector UInt8 64}
    {response : VerifyAttestationResponse} :
    verify crypto lib attestation secret public_ = .ok response ↔
      ∃ d, verifyAndDecodeAttestation lib attestation = .ok d ∧
        response = signedResponse crypto d secret public_ := by
  unfold verify
  simp only [bind_ok, mapError_ok, respond_eq, Except.ok.injEq]
  constructor
  · rintro ⟨parsed, hparsed, key, hkey, h⟩
    obtain ⟨hverified, -⟩ := decoded_twice.1 ⟨hparsed, hkey⟩
    exact ⟨parsed, hverified, h.symm⟩
  · rintro ⟨d, hd, h⟩
    obtain ⟨hparsed, hkey⟩ := decoded_twice.2 ⟨hd, rfl⟩
    exact ⟨d, hparsed, _, hkey, h.symm⟩

/-- A document is signed exactly if it is verified, and what is signed and returned is its
verified content; posted as raw bytes, or as any hexadecimal text of them. No other content has
its digest. -/
theorem signs_verified (crypto : Crypto SecretKey) (lib : Libraries CoseSign1 X509 Key Time)
    (secret : SecretKey) (public_ : Vector UInt8 64) (response : VerifyAttestationResponse) :
    (∀ attestation, verifyRaw crypto lib attestation secret public_ = .ok response ↔
      ∃ d, verifyAndDecodeAttestation lib attestation = .ok d ∧
        response = signedResponse crypto d secret public_) ∧
    (∀ req, verifyHex crypto lib req secret public_ = .ok response ↔
      ∃ attestation d, Hex.decode req = .ok attestation ∧
        verifyAndDecodeAttestation lib attestation = .ok d ∧
        response = signedResponse crypto d secret public_) ∧
    (∀ attestation, verifyHex crypto lib (Hex.encode attestation) secret public_ =
      verifyRaw crypto lib attestation secret public_) ∧
    ∀ d d', Abi.Separates (keccakWord crypto)
        (attestationHashed crypto d ++ attestationHashed crypto d') →
      attestationDigest crypto d = attestationDigest crypto d' → d = d' := by
  refine ⟨fun _ => verify_ok, ?_, ?_, fun _ _ => attestationDigest_inj⟩
  · intro req
    unfold verifyHex
    simp only [bind_ok, mapError_ok, verify_ok]
    constructor
    · rintro ⟨attestation, hdecode, d, hd, h⟩
      exact ⟨attestation, d, hdecode, hd, h⟩
    · rintro ⟨attestation, d, hdecode, hd, h⟩
      exact ⟨attestation, hdecode, d, hd, h⟩
  · intro attestation
    unfold verifyHex verifyRaw
    rw [Hex.decode_encode]
    rfl

end

end Oyster.Attestation.Verifier
