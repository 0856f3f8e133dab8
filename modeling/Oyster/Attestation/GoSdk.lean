import Mathlib.Data.Int.Notation
import Oyster.Lib.Hex

namespace Oyster.Attestation.Go

open Fallible

abbrev Bytes := List UInt8

inductive Failure where
  | error (text : String)
  | panic
deriving DecidableEq, Repr

/-- A value of dynamic type, of the types that matter here. -/
inductive GoAny where
  | bytes (b : Bytes)
  /-- `[][]byte` -/
  | byteSlices (bs : List Bytes)
  /-- `[]interface{}` -/
  | anys (vs : List GoAny)

structure AttestationDocument where
  timestamp : UInt64
  pcrs : List (UInt64 × Bytes)
  certificate : Bytes
  caBundle : List Bytes
  publicKey : Bytes
  userData : Bytes
deriving DecidableEq

structure EnclaveConfig where
  totalMemory : UInt64
  totalCpus : UInt64
deriving DecidableEq

/-- The decoders, the cryptography, the file and the clock. -/
structure Libraries (Cert Key Msg Verifier : Type) where
  /-- the payload of `cbor.Unmarshal` into a `coseSign1` -/
  unmarshalSign1 : Bytes → Option Bytes
  unmarshalDocument : Bytes → Option AttestationDocument
  parseCertificate : Bytes → Except String Cert
  parseCertificates : Bytes → Option (List Cert)
  rawSubjectPublicKeyInfo : Cert → Bytes
  parsePKIXPublicKey : Bytes → Option Key
  unmarshalCBOR : Bytes → Option Msg
  algorithm : Msg → Option ℤ
  newVerifier : ℤ → Key → Option Verifier
  /-- `msg.Verify`; a nil verifier is `none` -/
  verify : Msg → Option Verifier → Except Failure Unit
  /-- the contents of `aws.cert` -/
  readRootCert : Option Bytes
  equal : Cert → Cert → Bool
  /-- `cert.Verify` with the intermediates and a root -/
  verifyCert : Cert → List Cert → Cert → Bool
  unmarshalConfig : Bytes → Option EnclaveConfig
  unixMilli : Int64

variable {Cert Key Msg Verifier : Type} (lib : Libraries Cert Key Msg Verifier)

/-- `x.([]interface{})` and `cert.([]byte)` panic on a value of another type. -/
def concatCerts : GoAny → Except Failure Bytes
  | .anys certs => certs.foldlM (fun res cert =>
      match cert with
      | .bytes b => .ok (res ++ b)
      | _ => .error .panic) []
  | _ => .error .panic

def orError {α : Type} (x : Option α) (text : String) : Except Failure α :=
  match x with
  | none => .error (.error text)
  | some a => .ok a

def verifyCertChain (cert : Cert) (caBundle : List Bytes) (rootCertPem : Bytes) :
    Except Failure Unit := do
  let certs ← concatCerts (.byteSlices caBundle)
  let intermediates ← orError (lib.parseCertificates certs) "cabundle parsing failed"
  let root ← (lib.parseCertificate rootCertPem).mapError .error
  match intermediates with
  | [] => .error .panic
  | first :: _ =>
    if !lib.equal root first then .error (.error "root certificate mismatch")
    else if !lib.verifyCert cert intermediates root then
      .error (.error "certificate chain verification failed")
    else .ok ()

/-- The loop over the expected registers, in any order that the map is visited in. -/
def matchPcrs (doc : AttestationDocument) : List (UInt64 × String) → Except Failure Unit
  | [] => .ok ()
  | (index, value) :: pcrs =>
    match doc.pcrs.lookup index with
    | none => .error (.error ("pcr" ++ toString index ++ " not found"))
    | some docPcr =>
      if value ≠ Hex.encodeToString docPcr then
        .error (.error ("pcr" ++ toString index ++ " match failed"))
      else matchPcrs doc pcrs

def unmarshal (data : Bytes) : Except Failure AttestationDocument := do
  let payload ← orError (lib.unmarshalSign1 data) "cbor bad coseSign1"
  orError (lib.unmarshalDocument payload) "cbor bad attestation document"

/-- The verifier of the message, nil if there is none for its algorithm and the key. Both errors
are dropped. -/
def verifierOf (msg : Msg) (publicKey : Key) : Option Verifier :=
  lib.newVerifier ((lib.algorithm msg).getD 0) publicKey

/-- The certificate of the document, once it has signed the message. -/
def verifySignature (data : Bytes) (doc : AttestationDocument) : Except Failure Cert := do
  let cert ← orError (lib.parseCertificate doc.certificate).toOption "certificate parsing failed"
  let publicKey ← orError (lib.parsePKIXPublicKey (lib.rawSubjectPublicKeyInfo cert))
    "public key parsing failed"
  let msg ← orError (lib.unmarshalCBOR (0xd2 :: data)) "coseSign1Message unmarshal failed"
  match lib.verify msg (verifierOf lib msg publicKey) with
  | .ok () => .ok cert
  | .error .panic => .error .panic
  | .error (.error _) => .error (.error "cose signature verfication failed")

def checkConfig (doc : AttestationDocument) (minCpus minMem : UInt64) (maxAge : Int64) :
    Except Failure Unit := do
  let userData ← orError (lib.unmarshalConfig doc.userData) "userData parse failed"
  if userData.totalCpus < minCpus then
    .error (.error "enclave does not meet minimum cpus requirement")
  else if userData.totalMemory < minMem then
    .error (.error "enclave does not meet minimum memory requirement")
  else if lib.unixMilli - maxAge > doc.timestamp.toInt64 then
    .error (.error "attestation is too old")
  else .ok ()

def verify (data : Bytes) (pcrs : List (UInt64 × String)) (minCpus minMem : UInt64)
    (maxAge : Int64) : Except Failure Bytes := do
  let doc ← unmarshal lib data
  matchPcrs doc pcrs
  let cert ← verifySignature lib data doc
  let rootCert ← orError lib.readRootCert "root certificate reading failed"
  verifyCertChain lib cert doc.caBundle rootCert
  checkConfig lib doc minCpus minMem maxAge
  return doc.publicKey

/-- Everything that is read before the signature is checked. -/
structure Parsed (data : Bytes) (pcrs : List (UInt64 × String)) (doc : AttestationDocument)
    (cert : Cert) (publicKey : Key) (msg : Msg) : Prop where
  document : ∃ payload, lib.unmarshalSign1 data = some payload ∧
    lib.unmarshalDocument payload = some doc
  pcrs : ∀ p ∈ pcrs, ∃ docPcr, doc.pcrs.lookup p.1 = some docPcr ∧
    p.2 = Hex.encodeToString docPcr
  certificate : lib.parseCertificate doc.certificate = .ok cert
  key : lib.parsePKIXPublicKey (lib.rawSubjectPublicKeyInfo cert) = some publicKey
  message : lib.unmarshalCBOR (0xd2 :: data) = some msg

def ChainVerifies (cert : Cert) (caBundle : List Bytes) (root : Cert) : Prop :=
  ∃ intermediates, lib.parseCertificates caBundle.flatten = some intermediates ∧
    intermediates.head?.any (lib.equal root) ∧ lib.verifyCert cert intermediates root

/-- The signature and the chain verify, the registers match, and the enclave is as large and the
document as young as asked. `rootOf` is the certificate that the file holds. -/
def Genuine (rootOf : Bytes → Option Cert) (data : Bytes) (pcrs : List (UInt64 × String))
    (minCpus minMem : UInt64) (maxAge : Int64) (key : Bytes) : Prop :=
  ∃ doc cert publicKey msg v rootCert root config, Parsed lib data pcrs doc cert publicKey msg ∧
    verifierOf lib msg publicKey = some v ∧ lib.verify msg (some v) = .ok () ∧
    lib.readRootCert = some rootCert ∧ rootOf rootCert = some root ∧
    ChainVerifies lib cert doc.caBundle root ∧ lib.unmarshalConfig doc.userData = some config ∧
    minCpus ≤ config.totalCpus ∧ minMem ≤ config.totalMemory ∧
    lib.unixMilli.toInt - doc.timestamp.toNat ≤ maxAge.toInt ∧ key = doc.publicKey

def Total (rootOf : Bytes → Option Cert) (data : Bytes) (pcrs : List (UInt64 × String))
    (minCpus minMem : UInt64) (maxAge : Int64) : Prop :=
  verify lib data pcrs minCpus minMem maxAge ≠ .error .panic ∧
    ∀ key, Genuine lib rootOf data pcrs minCpus minMem maxAge key →
      verify lib data pcrs minCpus minMem maxAge = .ok key

/-- Where the document is read, its signature is found wrong without a panic, or there is no file
with the root. -/
def StopsEarly (data : Bytes) (pcrs : List (UInt64 × String)) : Prop :=
  ∀ doc cert publicKey msg, Parsed lib data pcrs doc cert publicKey msg →
    lib.verify msg (verifierOf lib msg publicKey) ≠ .error .panic ∧
      (lib.verify msg (verifierOf lib msg publicKey) = .ok () → lib.readRootCert = none)

variable {lib} {data : Bytes} {pcrs : List (UInt64 × String)} {doc : AttestationDocument}

theorem orError_ok {α : Type} {x : Option α} {text : String} {a : α} :
    orError x text = .ok a ↔ x = some a := by
  cases x <;> simp [orError]

theorem orError_ne_panic {α : Type} (x : Option α) (text : String) :
    orError x text ≠ .error .panic := by
  cases x <;> simp [orError]

theorem bind_panic {α β : Type} {x : Except Failure α} {f : α → Except Failure β} :
    (x >>= f) = .error .panic ↔ x = .error .panic ∨ ∃ a, x = .ok a ∧ f a = .error .panic := by
  cases x <;> simp

theorem verifyCertChain_panics (cert : Cert) (caBundle : List Bytes) (rootCertPem : Bytes) :
    verifyCertChain lib cert caBundle rootCertPem = .error .panic := rfl

theorem matchPcrs_ok :
    matchPcrs doc pcrs = .ok () ↔ ∀ p ∈ pcrs, ∃ docPcr, doc.pcrs.lookup p.1 = some docPcr ∧
      p.2 = Hex.encodeToString docPcr := by
  induction pcrs with
  | nil => simp [matchPcrs]
  | cons p pcrs ih =>
    obtain ⟨index, value⟩ := p
    rw [List.forall_mem_cons, ← ih, matchPcrs]
    cases doc.pcrs.lookup index with
    | none => simp
    | some docPcr =>
      dsimp only
      split
      · simp [*]
      · simp_all

theorem matchPcrs_ne_panic (doc : AttestationDocument) (pcrs : List (UInt64 × String)) :
    matchPcrs doc pcrs ≠ .error .panic := by
  induction pcrs with
  | nil => simp [matchPcrs]
  | cons p pcrs ih =>
    obtain ⟨index, value⟩ := p
    rw [matchPcrs]
    split
    · simp
    · split
      · simp
      · exact ih

theorem unmarshal_ok :
    unmarshal lib data = .ok doc ↔ ∃ payload, lib.unmarshalSign1 data = some payload ∧
      lib.unmarshalDocument payload = some doc := by
  simp only [unmarshal, bind_ok, orError_ok]

theorem unmarshal_ne_panic : unmarshal lib data ≠ .error .panic := by
  unfold unmarshal
  rw [ne_eq, bind_panic]
  rintro (h | ⟨payload, -, h⟩)
  · exact orError_ne_panic _ _ h
  · exact orError_ne_panic _ _ h

theorem verifySignature_ok {cert : Cert} :
    verifySignature lib data doc = .ok cert ↔ lib.parseCertificate doc.certificate = .ok cert ∧
      ∃ publicKey msg,
        lib.parsePKIXPublicKey (lib.rawSubjectPublicKeyInfo cert) = some publicKey ∧
        lib.unmarshalCBOR (0xd2 :: data) = some msg ∧
        lib.verify msg (verifierOf lib msg publicKey) = .ok () := by
  simp only [verifySignature, bind_ok, orError_ok, toOption_eq_some]
  constructor
  · rintro ⟨cert', hcert, publicKey, hkey, msg, hmsg, h⟩
    split at h
    · rename_i hv
      injection h with h
      subst h
      exact ⟨hcert, publicKey, msg, hkey, hmsg, hv⟩
    · simp at h
    · simp at h
  · rintro ⟨hcert, publicKey, msg, hkey, hmsg, hv⟩
    refine ⟨cert, hcert, publicKey, hkey, msg, hmsg, ?_⟩
    rw [hv]

theorem verifySignature_panics :
    verifySignature lib data doc = .error .panic ↔ ∃ cert publicKey msg,
      lib.parseCertificate doc.certificate = .ok cert ∧
      lib.parsePKIXPublicKey (lib.rawSubjectPublicKeyInfo cert) = some publicKey ∧
      lib.unmarshalCBOR (0xd2 :: data) = some msg ∧
      lib.verify msg (verifierOf lib msg publicKey) = .error .panic := by
  simp only [verifySignature, bind_panic, orError_ne_panic, false_or, orError_ok, toOption_eq_some]
  constructor
  · rintro ⟨cert, hcert, publicKey, hkey, msg, hmsg, h⟩
    refine ⟨cert, publicKey, msg, hcert, hkey, hmsg, ?_⟩
    split at h
    · simp at h
    · assumption
    · simp at h
  · rintro ⟨cert, publicKey, msg, hcert, hkey, hmsg, hv⟩
    refine ⟨cert, hcert, publicKey, hkey, msg, hmsg, ?_⟩
    rw [hv]

variable {minCpus minMem : UInt64} {maxAge : Int64}

/-- Every run that reaches the certificate chain panics there. -/
theorem verify_panics :
    verify lib data pcrs minCpus minMem maxAge = .error .panic ↔
      ∃ doc cert publicKey msg, Parsed lib data pcrs doc cert publicKey msg ∧
        (lib.verify msg (verifierOf lib msg publicKey) = .error .panic ∨
          lib.verify msg (verifierOf lib msg publicKey) = .ok () ∧ lib.readRootCert ≠ none) := by
  simp only [verify, bind_panic, unmarshal_ne_panic, matchPcrs_ne_panic, orError_ne_panic, false_or,
    unmarshal_ok, orError_ok, verifyCertChain_panics, true_or, and_true, exists_unit, matchPcrs_ok]
  constructor
  · rintro ⟨doc, hdoc, hpcrs, h | ⟨cert, h, rootCert, hroot⟩⟩
    · obtain ⟨cert, publicKey, msg, hcert, hkey, hmsg, hv⟩ := verifySignature_panics.1 h
      exact ⟨doc, cert, publicKey, msg, ⟨hdoc, hpcrs, hcert, hkey, hmsg⟩, .inl hv⟩
    · obtain ⟨hcert, publicKey, msg, hkey, hmsg, hv⟩ := verifySignature_ok.1 h
      refine ⟨doc, cert, publicKey, msg, ⟨hdoc, hpcrs, hcert, hkey, hmsg⟩, .inr ⟨hv, ?_⟩⟩
      rw [hroot]
      exact Option.some_ne_none _
  · rintro ⟨doc, cert, publicKey, msg, ⟨hdoc, hpcrs, hcert, hkey, hmsg⟩, h⟩
    refine ⟨doc, hdoc, hpcrs, ?_⟩
    rcases h with hv | ⟨hv, hroot⟩
    · exact .inl (verifySignature_panics.2 ⟨cert, publicKey, msg, hcert, hkey, hmsg, hv⟩)
    · obtain ⟨rootCert, hroot⟩ := Option.ne_none_iff_exists'.1 hroot
      exact .inr ⟨cert, verifySignature_ok.2 ⟨hcert, publicKey, msg, hkey, hmsg, hv⟩, rootCert,
        hroot⟩

/-- A document is answered exactly if its run stops before the certificate chain, with an
error. -/
theorem total_iff (rootOf : Bytes → Option Cert) :
    Total lib rootOf data pcrs minCpus minMem maxAge ↔ StopsEarly lib data pcrs := by
  constructor
  · rintro ⟨hpanic, -⟩ doc cert publicKey msg hp
    rw [ne_eq, verify_panics] at hpanic
    refine ⟨fun hv => hpanic ⟨doc, cert, publicKey, msg, hp, .inl hv⟩, fun hv => ?_⟩
    by_contra hroot
    exact hpanic ⟨doc, cert, publicKey, msg, hp, .inr ⟨hv, hroot⟩⟩
  · intro hstops
    constructor
    · rw [ne_eq, verify_panics]
      rintro ⟨doc, cert, publicKey, msg, hp, hv | ⟨hv, hroot⟩⟩
      · exact (hstops doc cert publicKey msg hp).1 hv
      · exact hroot ((hstops doc cert publicKey msg hp).2 hv)
    · -- a genuine document is one that gets as far as the chain
      rintro key ⟨doc, cert, publicKey, msg, v, rootCert, root, config, hp, hverifier, hv, hroot, -⟩
      rw [← hverifier] at hv
      have hnone := (hstops doc cert publicKey msg hp).2 hv
      rw [hroot] at hnone
      exact absurd hnone (Option.some_ne_none _)

namespace Sample

def document : AttestationDocument where
  timestamp := 1000
  pcrs := [(0, [0xab])]
  certificate := [3]
  caBundle := [[1], [2]]
  publicKey := [5]
  userData := [7]

/-- Libraries that know one document. A nil verifier panics. -/
def libraries : Libraries ℕ ℕ ℕ ℕ where
  unmarshalSign1 data := if data = [132] then some [9] else none
  unmarshalDocument payload := if payload = [9] then some document else none
  parseCertificate certificate :=
    if certificate = [3] then .ok 3 else .error "x509: malformed certificate"
  parseCertificates certs := if certs = [1, 2] then some [1, 2] else none
  rawSubjectPublicKeyInfo cert := [UInt8.ofNat cert]
  parsePKIXPublicKey info := if info = [3] then some 3 else none
  unmarshalCBOR data := if data = [0xd2, 132] then some 84 else none
  algorithm _ := some (-35)
  newVerifier algorithm publicKey := if algorithm = -35 then some publicKey else none
  verify msg verifier :=
    match verifier with
    | none => .error .panic
    | some key => if key = 3 ∧ msg = 84 then .ok () else .error (.error "verification error")
  readRootCert := some [45, 45]
  equal a b := a = b
  verifyCert cert intermediates root := cert = 3 ∧ intermediates = [1, 2] ∧ root = 1
  unmarshalConfig userData := if userData = [7] then some ⟨4096, 4⟩ else none
  unixMilli := 2000

/-- A genuine document, and `verify` panics. -/
theorem genuine_panics :
    (∃ key, Genuine libraries (fun _ => some 1) [132] [(0, "ab")] 2 1024 5000 key) ∧
      verify libraries [132] [(0, "ab")] 2 1024 5000 = .error .panic ∧
      ¬Total libraries (fun _ => some 1) [132] [(0, "ab")] 2 1024 5000 := by
  -- every check before the chain passes, and the bundle is not a `[]interface{}`
  have hpanic : verify libraries [132] [(0, "ab")] 2 1024 5000 = .error .panic := by rfl
  refine ⟨⟨[5], document, 3, 3, 84, 3, [45, 45], 1, ⟨4096, 4⟩, ?_, rfl, rfl, rfl, rfl, ?_, rfl, ?_⟩,
    hpanic, fun h => h.1 hpanic⟩
  · refine ⟨⟨[9], rfl, rfl⟩, ?_, rfl, rfl, rfl⟩
    intro p hp
    rw [List.mem_singleton.1 hp]
    exact ⟨[0xab], rfl, by decide⟩
  · exact ⟨[1, 2], rfl, rfl, rfl⟩
  · decide

end Sample

end Oyster.Attestation.Go
