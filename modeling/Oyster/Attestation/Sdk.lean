import Oyster.Lib.Cbor
import Oyster.Lib.Fallible

namespace Oyster.Attestation

open Cbor Fallible

inductive AttestationError where
  | parseFailed (msg : String)
  | verifyFailed (msg : String)
deriving DecidableEq, Repr

/-- The functions of the COSE, CBOR and X.509 libraries; an error is given as its text. -/
structure Libraries (CoseSign1 X509 Key Time : Type) where
  fromBytes : List UInt8 → Except String CoseSign1
  getPayload : CoseSign1 → Except String (List UInt8)
  verifySignature : CoseSign1 → Key → Except String Bool
  fromSlice : List UInt8 → Except String Value
  /-- `value::from_value::<BTreeMap<Value, Value>>` -/
  fromValue : Value → Except String Map
  fromDer : List UInt8 → Except String X509
  fromPem : String → Except String X509
  publicKey : X509 → Except String Key
  verify : X509 → Key → Except String Bool
  /-- `issuer.issued(&cert) == X509VerifyResult::OK` -/
  issued : X509 → X509 → Bool
  notBefore : X509 → Time
  notAfter : X509 → Time
  partialCmp : Time → Time → Option Ordering
  /-- the clock, as the check of each certificate reads it -/
  daysFromNow0 : ℕ → Except String Time
  eq : X509 → X509 → Bool

/-- `aws.cert` -/
def rootCertPem : String :=
"-----BEGIN CERTIFICATE-----
MIICETCCAZagAwIBAgIRAPkxdWgbkK/hHUbMtOTn+FYwCgYIKoZIzj0EAwMwSTEL
MAkGA1UEBhMCVVMxDzANBgNVBAoMBkFtYXpvbjEMMAoGA1UECwwDQVdTMRswGQYD
VQQDDBJhd3Mubml0cm8tZW5jbGF2ZXMwHhcNMTkxMDI4MTMyODA1WhcNNDkxMDI4
MTQyODA1WjBJMQswCQYDVQQGEwJVUzEPMA0GA1UECgwGQW1hem9uMQwwCgYDVQQL
DANBV1MxGzAZBgNVBAMMEmF3cy5uaXRyby1lbmNsYXZlczB2MBAGByqGSM49AgEG
BSuBBAAiA2IABPwCVOumCMHzaHDimtqQvkY4MpJzbolL//Zy2YlES1BR5TSksfbb
48C8WBoyt7F2Bw7eEtaaP+ohG2bnUs990d0JX28TcPQXCEPZ3BABIeTPYwEoCWZE
h8l5YoQwTcU/9KNCMEAwDwYDVR0TAQH/BAUwAwEB/zAdBgNVHQ4EFgQUkCW1DdkF
R+eWw5b6cp3PmanfS5YwDgYDVR0PAQH/BAQDAgGGMAoGCCqGSM49BAMDA2kAMGYC
MQCjfy+Rocm9Xue4YnwWmNJVA44fA0P5W2OpYow9OYCVRaEevL8uO1XYru5xtMPW
rfMCMQCi85sWBbJwKKXdS6BptQFuZbT73o/gBh1qUxl/nNr12UO8Yfwr6wPLb+6N
IwLz3/Y=
-----END CERTIFICATE-----
"

abbrev Pcr := Vector UInt8 48

structure AttestationDecoded where
  pcrs : Vector Pcr 3
  timestamp : UInt64
  publicKey : List UInt8
deriving DecidableEq

variable {CoseSign1 X509 Key Time : Type} (lib : Libraries CoseSign1 X509 Key Time)

/-- A failure of a library function, under the name of what failed. -/
def parseFailed {α : Type} (what : String) (x : Except String α) : Except AttestationError α :=
  x.mapError fun e => .parseFailed s!"{what}: {e}"

/-- `remove`, and the error for a key that is not there. -/
def remove (doc : Map) (k : Cbor.Key) (missing : String) :
    Except AttestationError (Value × Map) :=
  match doc.get? k with
  | some v => .ok (v, doc.erase k)
  | none => .error (.parseFailed missing)

def asBytes (failure : String) : Value → Except AttestationError (List UInt8)
  | .bytes bs => .ok bs
  | _ => .error (.parseFailed failure)

def asArray (failure : String) : Value → Except AttestationError (List Value)
  | .array vs => .ok vs
  | _ => .error (.parseFailed failure)

def getCert (cert : Value) : Except AttestationError X509 := do
  let der ← asBytes "cert decode" cert
  parseFailed "der" (lib.fromDer der)

def getAllCerts (cert : X509) (cabundle : List Value) : Except AttestationError (List X509) := do
  let certs ← cabundle.mapM (getCert lib)
  return cert :: certs

/-- The checks of `certs[i]` against `certs[i + 1]`. -/
def verifyLink (i : ℕ) (cert next : X509) : Except AttestationError Unit := do
  let pubkey ← parseFailed "pubkey" (lib.publicKey next)
  let signed ← parseFailed "signature" (lib.verify cert pubkey)
  if !signed then
    .error (.verifyFailed "signature")
  else if !lib.issued next cert then
    .error (.verifyFailed "issuer or subject")
  else do
    let currentTime ← (lib.daysFromNow0 i).mapError .parseFailed
    if lib.partialCmp (lib.notAfter cert) currentTime == some .lt ||
        lib.partialCmp (lib.notBefore cert) currentTime == some .gt then
      .error (.verifyFailed "timestamp")
    else pure ()

/-- The loop over `0..(certs.len() - 1)`, from the certificate `i` on. -/
def verifyLinks (i : ℕ) : List X509 → Except AttestationError Unit
  | cert :: next :: certs => do
    verifyLink lib i cert next
    verifyLinks (i + 1) (next :: certs)
  | _ => pure ()

def verifyCertChain (cert : X509) (cabundle : List Value) (rootCertPem : String) :
    Except AttestationError Unit := do
  let certs ← getAllCerts lib cert cabundle
  verifyLinks lib 0 certs
  let rootCert ← parseFailed "pem" (lib.fromPem rootCertPem)
  match certs.getLast? with
  | none => .error (.parseFailed "root")
  | some last => if lib.eq rootCert last then pure () else .error (.verifyFailed "root")

def parseAttestationDoc (attestationDoc : List UInt8) :
    Except AttestationError (CoseSign1 × Map) := do
  let cosesign1 ← parseFailed "cose" (lib.fromBytes attestationDoc)
  let payload ← parseFailed "cose payload" (lib.getPayload cosesign1)
  let cbor ← parseFailed "cbor" (lib.fromSlice payload)
  let attestationDoc ← parseFailed "doc" (lib.fromValue cbor)
  return (cosesign1, attestationDoc)

def parsePcr (i : ℕ) (pcrsArr : Map) : Except AttestationError (Pcr × Map) := do
  let (pcr, pcrsArr) ← remove pcrsArr (.integer i) s!"pcr{i} not found"
  let pcr ← asBytes s!"pcr{i} decode failure" pcr
  if h : pcr.length = 48 then
    return (⟨pcr.toArray, by simpa using h⟩, pcrsArr)
  else
    .error (.parseFailed s!"pcr{i} not 48 bytes: could not convert slice to array")

def parsePcrs (attestationDoc : Map) : Except AttestationError (Vector Pcr 3 × Map) := do
  let (pcrsArr, attestationDoc) ← remove attestationDoc (.text "pcrs") "pcrs not found"
  let pcrsArr ← parseFailed "pcrs" (lib.fromValue pcrsArr)
  let (pcr0, pcrsArr) ← parsePcr 0 pcrsArr
  let (pcr1, pcrsArr) ← parsePcr 1 pcrsArr
  let (pcr2, _) ← parsePcr 2 pcrsArr
  return (#v[pcr0, pcr1, pcr2], attestationDoc)

def verifySignatureAndCertChain (attestationDoc : Map) (cosesign1 : CoseSign1) :
    Except AttestationError Map := do
  let (enclaveCertificate, attestationDoc) ←
    remove attestationDoc (.text "certificate") "certificate key not found"
  let enclaveCertificate ← asBytes "enclave certificate decode failure" enclaveCertificate
  let enclaveCertificate ← parseFailed "der" (lib.fromDer enclaveCertificate)
  let pubKey ← parseFailed "pubkey" (lib.publicKey enclaveCertificate)
  let verifyResult ← parseFailed "signature" (lib.verifySignature cosesign1 pubKey)
  if !verifyResult then
    .error (.verifyFailed "signature")
  else do
    let (cabundle, attestationDoc) ←
      remove attestationDoc (.text "cabundle") "cabundle key not found in attestation doc"
    let cabundle ← asArray "cabundle decode failure" cabundle
    verifyCertChain lib enclaveCertificate cabundle.reverse rootCertPem
    return attestationDoc

def parseTimestamp (attestationDoc : Map) : Except AttestationError (UInt64 × Map) := do
  let (timestamp, attestationDoc) ←
    remove attestationDoc (.text "timestamp") "timestamp not found in attestation doc"
  match timestamp with
  | .integer i =>
    if 0 ≤ i ∧ i < 18446744073709551616 then
      return (UInt64.ofNat i.toNat, attestationDoc)
    else
      .error (.parseFailed "timestamp: out of range integral type conversion attempted")
  | _ => .error (.parseFailed "timestamp decode failure")

def parseEnclaveKey (attestationDoc : Map) : Except AttestationError (List UInt8 × Map) := do
  let (publicKey, attestationDoc) ←
    remove attestationDoc (.text "public_key") "public key not found in attestation doc"
  let publicKey ← asBytes "public key decode failure" publicKey
  return (publicKey, attestationDoc)

def verifyAndDecodeAttestation (attestationDoc : List UInt8) :
    Except AttestationError AttestationDecoded := do
  let (cosesign1, attestationDoc) ← parseAttestationDoc lib attestationDoc
  let (pcrs, attestationDoc) ← parsePcrs lib attestationDoc
  let attestationDoc ← verifySignatureAndCertChain lib attestationDoc cosesign1
  let (timestamp, attestationDoc) ← parseTimestamp attestationDoc
  let (publicKey, _) ← parseEnclaveKey attestationDoc
  return ⟨pcrs, timestamp, publicKey⟩

/-- `certs[i]` is valid when it is checked. -/
def ValidNow (i : ℕ) (cert : X509) : Prop :=
  ∃ now, lib.daysFromNow0 i = .ok now ∧ lib.partialCmp (lib.notAfter cert) now ≠ some .lt ∧
    lib.partialCmp (lib.notBefore cert) now ≠ some .gt

/-- `certs[i]` is valid, and issued by and signed with the key of `next`. -/
structure Link (i : ℕ) (cert next : X509) : Prop where
  signed : ∃ pubkey, lib.publicKey next = .ok pubkey ∧ lib.verify cert pubkey = .ok true
  issued : lib.issued next cert = true
  valid : ValidNow lib i cert

/-- A path of certificates, each signed with the key of the next one, to the built-in root. -/
structure SignedPath (chain : List X509) : Prop where
  link : ∀ i cert next, chain[i]? = some cert → chain[i + 1]? = some next → Link lib i cert next
  root : ∃ root last, lib.fromPem rootCertPem = .ok root ∧ chain.getLast? = some last ∧
    lib.eq root last = true

def IsCert (v : Value) (cert : X509) : Prop := ∃ der, v = .bytes der ∧ lib.fromDer der = .ok cert

def IsDocument (attestationDoc : List UInt8) (cosesign1 : CoseSign1) (m : Map) : Prop :=
  ∃ payload cbor, lib.fromBytes attestationDoc = .ok cosesign1 ∧
    lib.getPayload cosesign1 = .ok payload ∧ lib.fromSlice payload = .ok cbor ∧
    lib.fromValue cbor = .ok m

/-- What a document and its signer have to be for `d` to be its content. -/
structure Accepts (attestationDoc : List UInt8) (d : AttestationDecoded) (cert : X509)
    (bundle : List X509) : Prop where
  signed : ∃ cosesign1 m, IsDocument lib attestationDoc cosesign1 m ∧
    (∃ v, m.get? (.text "certificate") = some v ∧ IsCert lib v cert) ∧
    (∃ vs, m.get? (.text "cabundle") = some (.array vs) ∧
      List.Forall₂ (IsCert lib) vs bundle) ∧
    (∃ v pcrs, m.get? (.text "pcrs") = some v ∧ lib.fromValue v = .ok pcrs ∧
      ∀ i : Fin 3, pcrs.get? (.integer i) = some (.bytes d.pcrs[i].toList)) ∧
    m.get? (.text "timestamp") = some (.integer d.timestamp.toNat) ∧
    m.get? (.text "public_key") = some (.bytes d.publicKey) ∧
    ∃ pubkey, lib.publicKey cert = .ok pubkey ∧ lib.verifySignature cosesign1 pubkey = .ok true
  path : SignedPath lib (cert :: bundle.reverse)

variable {lib}

theorem parseFailed_ok {α : Type} {what : String} {x : Except String α} {a : α} :
    parseFailed what x = .ok a ↔ x = .ok a :=
  mapError_ok

theorem remove_ok {doc doc' : Map} {k : Cbor.Key} {missing : String} {v : Value} :
    remove doc k missing = .ok (v, doc') ↔ doc.get? k = some v ∧ doc' = doc.erase k := by
  unfold remove
  cases doc.get? k <;> simp [eq_comm]

theorem asBytes_ok {failure : String} {v : Value} {bs : List UInt8} :
    asBytes failure v = .ok bs ↔ v = .bytes bs := by
  cases v <;> simp [asBytes]

theorem asArray_ok {failure : String} {v : Value} {vs : List Value} :
    asArray failure v = .ok vs ↔ v = .array vs := by
  cases v <;> simp [asArray]

theorem getCert_ok {v : Value} {cert : X509} : getCert lib v = .ok cert ↔ IsCert lib v cert := by
  simp only [getCert, bind_ok, asBytes_ok, parseFailed_ok, IsCert]

theorem getAllCerts_ok {cert : X509} {cabundle : List Value} {certs : List X509} :
    getAllCerts lib cert cabundle = .ok certs ↔
      ∃ rest, List.Forall₂ (IsCert lib) cabundle rest ∧ certs = cert :: rest := by
  simp only [getAllCerts, bind_ok, pure_ok, mapM_ok, getCert_ok]
  exact exists_congr fun rest => and_congr_right fun _ => eq_comm

theorem verifyLink_ok {i : ℕ} {cert next : X509} :
    verifyLink lib i cert next = .ok () ↔ Link lib i cert next := by
  simp only [verifyLink, bind_ok, parseFailed_ok]
  constructor
  · rintro ⟨pubkey, hkey, signed, hsigned, h⟩
    cases signed with
    | false => cases h
    | true =>
      cases hissued : lib.issued next cert with
      | false =>
        rw [hissued] at h
        cases h
      | true =>
        rw [hissued] at h
        obtain ⟨now, hnow, h⟩ := bind_ok.1 h
        refine ⟨⟨pubkey, hkey, hsigned⟩, hissued, now, mapError_ok.1 hnow, ?_⟩
        split at h
        · cases h
        · rename_i hvalid
          simpa [not_or] using hvalid
  · rintro ⟨⟨pubkey, hkey, hsigned⟩, hissued, now, hnow, hafter, hbefore⟩
    refine ⟨pubkey, hkey, true, hsigned, ?_⟩
    have hvalid : ¬(lib.partialCmp (lib.notAfter cert) now == some .lt ||
        lib.partialCmp (lib.notBefore cert) now == some .gt) = true := by
      simp [hafter, hbefore]
    rw [hissued]
    exact bind_ok.2 ⟨now, mapError_ok.2 hnow, if_neg hvalid⟩

theorem verifyLinks_ok {i : ℕ} {certs : List X509} : verifyLinks lib i certs = .ok () ↔
    ∀ j cert next, certs[j]? = some cert → certs[j + 1]? = some next →
      Link lib (i + j) cert next := by
  induction certs generalizing i with
  | nil => simp [verifyLinks, pure_ok]
  | cons cert certs ih =>
    cases certs with
    | nil => simp [verifyLinks, pure_ok]
    | cons next certs =>
      rw [verifyLinks, check_ok, verifyLink_ok, ih]
      constructor
      · rintro ⟨hlink, hrest⟩ j c n hc hn
        cases j with
        | zero =>
          cases hc
          cases hn
          exact hlink
        | succ j =>
          have h := hrest j c n hc hn
          rwa [Nat.add_right_comm] at h
      · intro h
        refine ⟨h 0 cert next rfl rfl, fun j c n hc hn => ?_⟩
        have h := h (j + 1) c n hc hn
        rwa [← Nat.add_assoc, Nat.add_right_comm] at h

theorem verifyCertChain_ok {cert : X509} {cabundle : List Value} :
    verifyCertChain lib cert cabundle rootCertPem = .ok () ↔
      ∃ rest, List.Forall₂ (IsCert lib) cabundle rest ∧ SignedPath lib (cert :: rest) := by
  rw [verifyCertChain, bind_ok]
  simp only [getAllCerts_ok, bind_ok, exists_unit, verifyLinks_ok, parseFailed_ok, Nat.zero_add]
  constructor
  · rintro ⟨certs, ⟨rest, hrest, rfl⟩, hlinks, root, hroot, h⟩
    refine ⟨rest, hrest, hlinks, root, ?_⟩
    cases hlast : (cert :: rest).getLast? with
    | none =>
      rw [hlast] at h
      cases h
    | some last =>
      rw [hlast] at h
      cases heq : lib.eq root last with
      | false => simp [heq] at h
      | true => exact ⟨last, hroot, rfl, heq⟩
  · rintro ⟨rest, hrest, hlinks, root, last, hroot, hlast, heq⟩
    refine ⟨cert :: rest, ⟨rest, hrest, rfl⟩, hlinks, root, hroot, ?_⟩
    rw [hlast]
    exact if_pos heq

theorem parseAttestationDoc_ok {attestationDoc : List UInt8} {cosesign1 : CoseSign1} {m : Map} :
    parseAttestationDoc lib attestationDoc = .ok (cosesign1, m) ↔
      lib.fromBytes attestationDoc = .ok cosesign1 ∧ ∃ payload, lib.getPayload cosesign1 =
        .ok payload ∧ ∃ cbor, lib.fromSlice payload = .ok cbor ∧ lib.fromValue cbor = .ok m := by
  simp only [parseAttestationDoc, bind_ok, parseFailed_ok, pure_ok, Prod.mk.injEq]
  constructor
  · rintro ⟨c, hc, payload, hp, cbor, hcbor, m', hm, rfl, rfl⟩
    exact ⟨hc, payload, hp, cbor, hcbor, hm⟩
  · rintro ⟨hc, payload, hp, cbor, hcbor, hm⟩
    exact ⟨cosesign1, hc, payload, hp, cbor, hcbor, m, hm, rfl, rfl⟩

theorem parsePcr_ok {i : ℕ} {arr arr' : Map} {pcr : Pcr} :
    parsePcr i arr = .ok (pcr, arr') ↔
      arr.get? (.integer i) = some (.bytes pcr.toList) ∧ arr' = arr.erase (.integer i) := by
  simp only [parsePcr, bind_ok, Prod.exists, remove_ok, asBytes_ok]
  constructor
  · rintro ⟨v, arr₁, ⟨hv, rfl⟩, bs, rfl, h⟩
    split at h
    · obtain ⟨rfl, rfl⟩ := Prod.mk.inj (Except.ok.inj h)
      exact ⟨hv, rfl⟩
    · cases h
  · rintro ⟨hv, rfl⟩
    refine ⟨_, _, ⟨hv, rfl⟩, _, rfl, ?_⟩
    rw [dif_pos (by simp)]
    rfl

theorem parsePcrs_ok {doc doc' : Map} {pcrs : Vector Pcr 3} :
    parsePcrs lib doc = .ok (pcrs, doc') ↔
      (∃ v arr, doc.get? (.text "pcrs") = some v ∧ lib.fromValue v = .ok arr ∧
        ∀ i : Fin 3, arr.get? (.integer i) = some (.bytes pcrs[i].toList)) ∧
      doc' = doc.erase (.text "pcrs") := by
  simp only [parsePcrs, bind_ok, Prod.exists, remove_ok, parseFailed_ok, parsePcr_ok, pure_ok,
    Prod.mk.injEq]
  constructor
  · rintro ⟨v, doc₁, ⟨hv, rfl⟩, arr, harr, p0, _, ⟨h0, rfl⟩, p1, _, ⟨h1, rfl⟩, p2, _, ⟨h2, rfl⟩,
      rfl, rfl⟩
    -- taking one register out does not change the others
    rw [Map.get?_erase_ne (by decide)] at h1
    rw [Map.get?_erase_ne (by decide), Map.get?_erase_ne (by decide)] at h2
    refine ⟨⟨v, arr, hv, harr, fun i => ?_⟩, rfl⟩
    match i with
    | 0 => exact h0
    | 1 => exact h1
    | 2 => exact h2
  · rintro ⟨⟨v, arr, hv, harr, hpcrs⟩, rfl⟩
    refine ⟨v, _, ⟨hv, rfl⟩, arr, harr, pcrs[0], _, ⟨hpcrs 0, rfl⟩, pcrs[1], _, ⟨?_, rfl⟩,
      pcrs[2], _, ⟨?_, rfl⟩, ?_, rfl⟩
    · rw [Map.get?_erase_ne (by decide)]
      exact hpcrs 1
    · rw [Map.get?_erase_ne (by decide), Map.get?_erase_ne (by decide)]
      exact hpcrs 2
    · ext i hi : 1
      match i with
      | 0 => rfl
      | 1 => rfl
      | 2 => rfl

theorem verifySignatureAndCertChain_ok {doc doc' : Map} {cosesign1 : CoseSign1} :
    verifySignatureAndCertChain lib doc cosesign1 = .ok doc' ↔
      ∃ cert bundle, (∃ v, doc.get? (.text "certificate") = some v ∧ IsCert lib v cert) ∧
        (∃ vs, doc.get? (.text "cabundle") = some (.array vs) ∧
          List.Forall₂ (IsCert lib) vs bundle) ∧
        (∃ pubkey, lib.publicKey cert = .ok pubkey ∧
          lib.verifySignature cosesign1 pubkey = .ok true) ∧
        SignedPath lib (cert :: bundle.reverse) ∧
        doc' = (doc.erase (.text "certificate")).erase (.text "cabundle") := by
  simp only [verifySignatureAndCertChain, bind_ok, Prod.exists, remove_ok, asBytes_ok,
    parseFailed_ok]
  constructor
  · rintro ⟨v, _, ⟨hv, rfl⟩, der, rfl, cert, hcert, pubkey, hkey, result, hresult, h⟩
    cases result with
    | false => cases h
    | true =>
      simp only [Bool.not_true, Bool.false_eq_true, if_false, bind_ok, Prod.exists, remove_ok,
        asArray_ok, exists_unit, verifyCertChain_ok, pure_ok] at h
      obtain ⟨_, _, ⟨hb, rfl⟩, vs, rfl, ⟨rest, hrest, hpath⟩, rfl⟩ := h
      rw [Map.get?_erase_ne (by decide)] at hb
      refine ⟨cert, rest.reverse, ⟨_, hv, der, rfl, hcert⟩, ⟨vs, hb, ?_⟩,
        ⟨pubkey, hkey, hresult⟩, ?_, rfl⟩
      · rw [← List.forall₂_reverse_iff, List.reverse_reverse]
        exact hrest
      · rwa [List.reverse_reverse]
  · rintro ⟨cert, bundle, ⟨v, hv, der, rfl, hcert⟩, ⟨vs, hvs, hbundle⟩, ⟨pubkey, hkey, hresult⟩,
      hpath, rfl⟩
    refine ⟨_, _, ⟨hv, rfl⟩, der, rfl, cert, hcert, pubkey, hkey, true, hresult, ?_⟩
    simp only [Bool.not_true, Bool.false_eq_true, if_false, bind_ok, Prod.exists, remove_ok,
      asArray_ok, exists_unit, verifyCertChain_ok, pure_ok]
    refine ⟨.array vs, _, ⟨?_, rfl⟩, vs, rfl, ⟨bundle.reverse, ?_, hpath⟩, rfl⟩
    · rw [Map.get?_erase_ne (by decide)]
      exact hvs
    · exact List.forall₂_reverse_iff.2 hbundle

theorem parseTimestamp_ok {doc doc' : Map} {timestamp : UInt64} :
    parseTimestamp doc = .ok (timestamp, doc') ↔
      doc.get? (.text "timestamp") = some (.integer timestamp.toNat) ∧
        doc' = doc.erase (.text "timestamp") := by
  simp only [parseTimestamp, bind_ok, Prod.exists, remove_ok]
  constructor
  · rintro ⟨v, _, ⟨hv, rfl⟩, h⟩
    cases v with
    | integer i =>
      dsimp only at h
      split at h
      · rename_i hi
        obtain ⟨rfl, rfl⟩ := Prod.mk.inj (Except.ok.inj h)
        refine ⟨?_, rfl⟩
        rw [hv, UInt64.toNat_ofNat_of_lt' (by simp [UInt64.size]; omega), Int.toNat_of_nonneg hi.1]
      · cases h
    | _ => cases h
  · rintro ⟨hv, rfl⟩
    refine ⟨_, _, ⟨hv, rfl⟩, ?_⟩
    have hlt := timestamp.toNat_lt
    dsimp only
    rw [if_pos (by omega)]
    simp [pure, Except.pure]

theorem parseEnclaveKey_ok {doc doc' : Map} {publicKey : List UInt8} :
    parseEnclaveKey doc = .ok (publicKey, doc') ↔
      doc.get? (.text "public_key") = some (.bytes publicKey) ∧
        doc' = doc.erase (.text "public_key") := by
  simp only [parseEnclaveKey, bind_ok, Prod.exists, remove_ok, asBytes_ok, pure_ok, Prod.mk.injEq]
  constructor
  · rintro ⟨v, _, ⟨hv, rfl⟩, bs, rfl, rfl, rfl⟩
    exact ⟨hv, rfl⟩
  · rintro ⟨hv, rfl⟩
    exact ⟨_, _, ⟨hv, rfl⟩, publicKey, rfl, rfl, rfl⟩

theorem verifyAndDecode_ok {attestationDoc : List UInt8} {d : AttestationDecoded} :
    verifyAndDecodeAttestation lib attestationDoc = .ok d ↔
      ∃ cert bundle, Accepts lib attestationDoc d cert bundle := by
  simp only [verifyAndDecodeAttestation, bind_ok, Prod.exists, parseAttestationDoc_ok, parsePcrs_ok,
    verifySignatureAndCertChain_ok, parseTimestamp_ok, parseEnclaveKey_ok, pure_ok]
  constructor
  · rintro ⟨cosesign1, m, ⟨hcose, payload, hpayload, cbor, hcbor, hm⟩, pcrs, _, ⟨hpcrs, rfl⟩, _,
      ⟨cert, bundle, hcert, hbundle, hkey, hpath, rfl⟩, timestamp, _, ⟨hts, rfl⟩, publicKey, _,
      ⟨hpk, _⟩, rfl⟩
    simp only [Map.get?_erase_ne, ne_eq, not_false_eq_true, Cbor.Key.text.injEq,
      String.reduceEq] at hcert hbundle hts hpk
    exact ⟨cert, bundle, ⟨cosesign1, m, ⟨payload, cbor, hcose, hpayload, hcbor, hm⟩, hcert,
      hbundle, hpcrs, hts, hpk, hkey⟩, hpath⟩
  · rintro ⟨cert, bundle, ⟨cosesign1, m, ⟨payload, cbor, hcose, hpayload, hcbor, hm⟩, hcert,
      hbundle, hpcrs, hts, hpk, hkey⟩, hpath⟩
    refine ⟨cosesign1, m, ⟨hcose, payload, hpayload, cbor, hcbor, hm⟩, d.pcrs, _, ⟨hpcrs, rfl⟩, _,
      ⟨cert, bundle, ?_, ?_, hkey, hpath, rfl⟩, d.timestamp, _, ⟨?_, rfl⟩, d.publicKey, _,
      ⟨?_, rfl⟩, rfl⟩
    all_goals
      simp only [Map.get?_erase_ne, ne_eq, not_false_eq_true, Cbor.Key.text.injEq,
        String.reduceEq]
      assumption

/-- Exactly the documents that are signed under the built-in root are accepted, with their own
content; and then no certificate of the bundle is left out of the path to the root. -/
theorem verifyAndDecodeAttestation_exact (lib : Libraries CoseSign1 X509 Key Time)
    (attestationDoc : List UInt8) (d : AttestationDecoded) :
    (verifyAndDecodeAttestation lib attestationDoc = .ok d ↔
      ∃ cert bundle, Accepts lib attestationDoc d cert bundle) ∧
    (verifyAndDecodeAttestation lib attestationDoc = .ok d →
      ∃ cosesign1 m vs cert rest pubkey, IsDocument lib attestationDoc cosesign1 m ∧
        m.get? (.text "cabundle") = some (.array vs) ∧ SignedPath lib (cert :: rest) ∧
        (∀ v ∈ vs, ∃ c ∈ cert :: rest, IsCert lib v c) ∧
        lib.publicKey cert = .ok pubkey ∧ lib.verifySignature cosesign1 pubkey = .ok true) := by
  refine ⟨verifyAndDecode_ok, fun h => ?_⟩
  obtain ⟨cert, bundle, ⟨cosesign1, m, hdoc, _, ⟨vs, hvs, hbundle⟩, _, _, _, pubkey, hkey,
    hsigned⟩, hpath⟩ := verifyAndDecode_ok.1 h
  refine ⟨cosesign1, m, vs, cert, bundle.reverse, pubkey, hdoc, hvs, hpath, fun v hv => ?_, hkey,
    hsigned⟩
  obtain ⟨i, hi, rfl⟩ := List.getElem_of_mem hv
  have hi' : i < bundle.length := hbundle.length_eq ▸ hi
  refine ⟨bundle[i], List.mem_cons_of_mem _ ?_, hbundle.get hi hi'⟩
  exact List.mem_reverse.2 (List.getElem_mem hi')

end Oyster.Attestation
