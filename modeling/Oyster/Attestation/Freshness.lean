import Mathlib.Data.Int.Notation
import Oyster.Attestation.Sdk

namespace Oyster.Attestation

open Cbor Fallible

variable {CoseSign1 X509 Key Time : Type} (lib : Libraries CoseSign1 X509 Key Time)

def checkPcrs (expected : Vector Pcr 3) : ℕ → List Pcr → Except AttestationError Unit
  | _, [] => pure ()
  | i, pcr :: pcrs =>
    if expected[i]? ≠ some pcr then .error (.verifyFailed s!"pcr{i}")
    else checkPcrs expected (i + 1) pcrs

/-- `a - b` of two `usize`: an underflow panics, or wraps in a build without overflow checks. -/
def usizeSub (overflowChecks : Bool) (a b : UInt64) : Option UInt64 :=
  if b ≤ a ∨ !overflowChecks then some (a - b) else none

/-- `none` is a panic; `now` is what `timestamp_millis` returns. -/
def verify (overflowChecks : Bool) (attestationDocCbor : List UInt8) (pcrs : Vector Pcr 3)
    (maxAge : UInt64) (now : Int64) : Option (Except AttestationError (List UInt8)) :=
  match verifyAndDecodeAttestation lib attestationDocCbor with
  | .error e => some (.error e)
  | .ok decodedData =>
    match checkPcrs pcrs 0 decodedData.pcrs.toList with
    | .error e => some (.error e)
    | .ok () => (usizeSub overflowChecks now.toUInt64 maxAge).map fun oldest =>
      if oldest > decodedData.timestamp then .error (.verifyFailed "too old")
      else .ok decodedData.publicKey

def verifyWithTimestamp (attestationDocCbor : List UInt8) (pcrs : Vector Pcr 3)
    (timestamp : UInt64) : Except AttestationError (List UInt8) := do
  let decodedData ← verifyAndDecodeAttestation lib attestationDocCbor
  checkPcrs pcrs 0 decodedData.pcrs.toList
  if timestamp ≠ decodedData.timestamp then
    .error (.verifyFailed "timestamp does not match")
  else return decodedData.publicKey

/-- The fields of a document, without any check of its signature. -/
def decodeAttestation (attestationDoc : List UInt8) :
    Except AttestationError AttestationDecoded := do
  let (_, attestationDoc) ← parseAttestationDoc lib attestationDoc
  let (pcrs, attestationDoc) ← parsePcrs lib attestationDoc
  let (timestamp, attestationDoc) ← parseTimestamp attestationDoc
  let (publicKey, _) ← parseEnclaveKey attestationDoc
  return ⟨pcrs, timestamp, publicKey⟩

/-- In every build `verify` returns; it accepts a document that is verified, has the expected
registers and is not older than `max_age`, over the integers, and returns its key. -/
def FreshnessExact (attestationDocCbor : List UInt8) (pcrs : Vector Pcr 3) (maxAge : UInt64)
    (now : Int64) : Prop :=
  ∀ overflowChecks, ∃ r, verify lib overflowChecks attestationDocCbor pcrs maxAge now = some r ∧
    ∀ key, r = .ok key ↔ ∃ d, verifyAndDecodeAttestation lib attestationDocCbor = .ok d ∧
      d.pcrs = pcrs ∧ now.toInt ≤ (d.timestamp.toNat + maxAge.toNat : ℕ) ∧ key = d.publicKey

/-- Where the age is looked at, the clock has reached `max_age`. Before 1970 the clock is cast to
a huge `usize`, and even that is not beyond `max_age` and the timestamp. -/
def ClockReaches (attestationDocCbor : List UInt8) (pcrs : Vector Pcr 3) (maxAge : UInt64)
    (now : Int64) : Prop :=
  ∀ d, verifyAndDecodeAttestation lib attestationDocCbor = .ok d → d.pcrs = pcrs →
    maxAge ≤ now.toUInt64 ∧ (now.toInt < 0 → now.toUInt64 - maxAge ≤ d.timestamp)

variable {lib}

theorem checkPcrs_ok {expected : Vector Pcr 3} {i : ℕ} {pcrs : List Pcr} :
    checkPcrs expected i pcrs = .ok () ↔ ∀ j, j < pcrs.length → expected[i + j]? = pcrs[j]? := by
  -- on the registers of the document; `i` counts the ones that were compared
  induction pcrs generalizing i with
  | nil => exact ⟨fun _ j hj => absurd hj (Nat.not_lt_zero j), fun _ => rfl⟩
  | cons pcr pcrs ih =>
    unfold checkPcrs
    split
    next hne =>
      constructor
      · intro h
        cases h
      · intro h
        exact absurd (h 0 (Nat.zero_lt_succ _)) hne
    next heq =>
      rw [ih]
      constructor
      · intro h j hj
        cases j with
        | zero => exact Decidable.not_not.1 heq
        | succ j =>
          have hj := h j (Nat.lt_of_succ_lt_succ hj)
          rwa [Nat.add_right_comm] at hj
      · intro h j hj
        have hj := h (j + 1) (Nat.succ_lt_succ hj)
        rwa [← Nat.add_assoc, Nat.add_right_comm] at hj

theorem checkPcrs_all {expected pcrs : Vector Pcr 3} :
    checkPcrs expected 0 pcrs.toList = .ok () ↔ pcrs = expected := by
  rw [checkPcrs_ok]
  constructor
  · intro h
    ext i hi : 1
    have hi' := h i (by simpa using hi)
    rw [Nat.zero_add] at hi'
    simpa [hi] using hi'.symm
  · intro h j hj
    subst h
    simp

theorem checkPcrs_error {expected pcrs : Vector Pcr 3} (h : pcrs ≠ expected) :
    ∃ e, checkPcrs expected 0 pcrs.toList = .error e := by
  cases hc : checkPcrs expected 0 pcrs.toList with
  | error e => exact ⟨e, rfl⟩
  | ok u => exact absurd (checkPcrs_all.1 hc) h

theorem decodeAttestation_ok {attestationDoc : List UInt8} {d : AttestationDecoded} :
    decodeAttestation lib attestationDoc = .ok d ↔ ∃ cosesign1 m,
      IsDocument lib attestationDoc cosesign1 m ∧
      parsePcrs lib m = .ok (d.pcrs, m.erase (.text "pcrs")) ∧
      m.get? (.text "timestamp") = some (.integer d.timestamp.toNat) ∧
      m.get? (.text "public_key") = some (.bytes d.publicKey) := by
  simp only [decodeAttestation, bind_ok, Prod.exists, parseAttestationDoc_ok, parseTimestamp_ok,
    parseEnclaveKey_ok, pure_ok]
  constructor
  · rintro ⟨cosesign1, m, ⟨hcose, payload, hpayload, cbor, hcbor, hm⟩, pcrs, _, hpcrs,
      timestamp, _, ⟨hts, rfl⟩, publicKey, _, ⟨hpk, _⟩, rfl⟩
    obtain ⟨-, rfl⟩ := parsePcrs_ok.1 hpcrs
    simp only [Map.get?_erase_ne, ne_eq, not_false_eq_true, Cbor.Key.text.injEq,
      String.reduceEq] at hts hpk
    exact ⟨cosesign1, m, ⟨payload, cbor, hcose, hpayload, hcbor, hm⟩, hpcrs, hts, hpk⟩
  · rintro ⟨cosesign1, m, ⟨payload, cbor, hcose, hpayload, hcbor, hm⟩, hpcrs, hts, hpk⟩
    refine ⟨cosesign1, m, ⟨hcose, payload, hpayload, cbor, hcbor, hm⟩, d.pcrs, _, hpcrs,
      d.timestamp, _, ⟨?_, rfl⟩, d.publicKey, _, ⟨?_, rfl⟩, rfl⟩
    all_goals
      simp only [Map.get?_erase_ne, ne_eq, not_false_eq_true, Cbor.Key.text.injEq,
        String.reduceEq]
      assumption

/-- What is verified is decoded to the same fields without verification, although the
certificate and its bundle are removed from the map in between. -/
theorem decodeAttestation_of_verified {attestationDoc : List UInt8} {d : AttestationDecoded}
    (h : verifyAndDecodeAttestation lib attestationDoc = .ok d) :
    decodeAttestation lib attestationDoc = .ok d := by
  obtain ⟨cert, bundle, ⟨cosesign1, m, hdoc, _, _, hpcrs, hts, hpk, _⟩, _⟩ :=
    verifyAndDecode_ok.1 h
  exact decodeAttestation_ok.2 ⟨cosesign1, m, hdoc, parsePcrs_ok.2 ⟨hpcrs, rfl⟩, hts, hpk⟩

theorem verifyWithTimestamp_ok {attestationDocCbor : List UInt8} {pcrs : Vector Pcr 3}
    {timestamp : UInt64} {key : List UInt8} :
    verifyWithTimestamp lib attestationDocCbor pcrs timestamp = .ok key ↔
      verifyAndDecodeAttestation lib attestationDocCbor = .ok ⟨pcrs, timestamp, key⟩ := by
  rw [verifyWithTimestamp, bind_ok]
  simp only [check_ok, checkPcrs_all]
  constructor
  · rintro ⟨d, hd, rfl, h⟩
    split at h
    · cases h
    · rename_i hts
      cases Decidable.not_not.1 hts
      cases h
      exact hd
  · intro hd
    refine ⟨_, hd, rfl, ?_⟩
    rw [if_neg (fun hne => hne rfl)]
    rfl

theorem toInt_eq (now : Int64) : now.toInt =
    if now.toInt < 0 then (now.toUInt64.toNat : ℤ) - 18446744073709551616
    else now.toUInt64.toNat := by
  have h : now.toInt = now.toBitVec.toInt := rfl
  have hnat : now.toUInt64.toNat = now.toBitVec.toNat := rfl
  have hlt := now.toBitVec.isLt
  rw [h, hnat, BitVec.toInt_eq_toNat_cond]
  split <;> split <;> omega

theorem sub_le_iff {now : Int64} {maxAge : UInt64} (timestamp : UInt64)
    (h : maxAge ≤ now.toUInt64) :
    (now.toUInt64 - maxAge ≤ timestamp ↔ now.toInt ≤ (timestamp.toNat + maxAge.toNat : ℕ)) ↔
      (now.toInt < 0 → now.toUInt64 - maxAge ≤ timestamp) := by
  have hsub : (now.toUInt64 - maxAge).toNat = now.toUInt64.toNat - maxAge.toNat :=
    UInt64.toNat_sub_of_le _ _ h
  have hnow := toInt_eq now
  rw [UInt64.le_iff_toNat_le] at h
  rw [UInt64.le_iff_toNat_le, hsub]
  have hlt := now.toUInt64.toNat_lt
  -- before 1970 the clock is cast to a huge `usize`
  split at hnow
  · constructor
    · intro hiff _
      exact hiff.2 (by omega)
    · intro hneg
      exact ⟨fun _ => by omega, fun _ => hneg (by omega)⟩
  · constructor
    · intro _ hneg
      omega
    · intro _
      omega

section

variable {overflowChecks : Bool} {attestationDocCbor : List UInt8} {pcrs : Vector Pcr 3}
  {maxAge : UInt64} {now : Int64} {d : AttestationDecoded}

theorem verify_of_verified (hd : verifyAndDecodeAttestation lib attestationDocCbor = .ok d)
    (hpcrs : d.pcrs = pcrs) : verify lib overflowChecks attestationDocCbor pcrs maxAge now =
      (usizeSub overflowChecks now.toUInt64 maxAge).map fun oldest =>
        if oldest > d.timestamp then .error (.verifyFailed "too old") else .ok d.publicKey := by
  unfold verify
  rw [hd]
  dsimp only
  rw [checkPcrs_all.2 hpcrs]

theorem verify_of_reaches (hd : verifyAndDecodeAttestation lib attestationDocCbor = .ok d)
    (hpcrs : d.pcrs = pcrs) (hreaches : maxAge ≤ now.toUInt64) :
    verify lib overflowChecks attestationDocCbor pcrs maxAge now =
      some (if now.toUInt64 - maxAge ≤ d.timestamp then .ok d.publicKey
        else .error (.verifyFailed "too old")) := by
  rw [verify_of_verified hd hpcrs, usizeSub, if_pos (.inl hreaches), Option.map_some]
  by_cases hle : now.toUInt64 - maxAge ≤ d.timestamp
  · rw [if_pos hle, if_neg (UInt64.not_lt.2 hle)]
  · rw [if_neg hle, if_pos (UInt64.not_le.1 hle)]

/-- In a build with overflow checks an underflow panics. -/
theorem reaches_of_returns (hd : verifyAndDecodeAttestation lib attestationDocCbor = .ok d)
    (hpcrs : d.pcrs = pcrs) {r : Except AttestationError (List UInt8)}
    (h : verify lib true attestationDocCbor pcrs maxAge now = some r) :
    maxAge ≤ now.toUInt64 := by
  rw [verify_of_verified hd hpcrs] at h
  obtain ⟨oldest, hsub, -⟩ := Option.map_eq_some_iff.1 h
  by_contra hlt
  rw [usizeSub, if_neg (by simp [hlt])] at hsub
  cases hsub

theorem freshnessExact_of_failed {e : AttestationError} (h : ∀ overflowChecks,
    verify lib overflowChecks attestationDocCbor pcrs maxAge now = some (.error e))
    (hnone : ∀ d, verifyAndDecodeAttestation lib attestationDocCbor = .ok d → d.pcrs ≠ pcrs) :
    FreshnessExact lib attestationDocCbor pcrs maxAge now := by
  intro overflowChecks
  refine ⟨.error e, h overflowChecks, fun key => ⟨nofun, ?_⟩⟩
  rintro ⟨d, hd, hpcrs, -⟩
  exact absurd hpcrs (hnone d hd)

theorem freshnessExact_of_reaches (hd : verifyAndDecodeAttestation lib attestationDocCbor = .ok d)
    (hpcrs : d.pcrs = pcrs) (hreaches : maxAge ≤ now.toUInt64) :
    FreshnessExact lib attestationDocCbor pcrs maxAge now ↔
      (now.toUInt64 - maxAge ≤ d.timestamp ↔
        now.toInt ≤ (d.timestamp.toNat + maxAge.toNat : ℕ)) := by
  constructor
  · intro h
    obtain ⟨r, hr, hkey⟩ := h true
    rw [verify_of_reaches hd hpcrs hreaches] at hr
    have hkey := hkey d.publicKey
    rw [← Option.some.inj hr] at hkey
    constructor
    · intro hle
      obtain ⟨d', hd', -, hage, -⟩ := hkey.1 (if_pos hle)
      cases hd.symm.trans hd'
      exact hage
    · intro hage
      have hok := hkey.2 ⟨d, hd, hpcrs, hage, rfl⟩
      by_contra hle
      rw [if_neg hle] at hok
      cases hok
  · -- nothing underflows, so the two builds agree
    intro h overflowChecks
    refine ⟨_, verify_of_reaches hd hpcrs hreaches, fun key => ?_⟩
    constructor
    · intro hok
      split at hok
      · rename_i hle
        exact ⟨d, hd, hpcrs, h.1 hle, (Except.ok.inj hok).symm⟩
      · cases hok
    · rintro ⟨d', hd', -, hage, rfl⟩
      cases hd.symm.trans hd'
      exact if_pos (h.2 hage)

end

/-- For every document, all registers, every clock and every `max_age`. -/
theorem verify_exact_iff (lib : Libraries CoseSign1 X509 Key Time)
    (attestationDocCbor : List UInt8) (pcrs : Vector Pcr 3) (maxAge : UInt64) (now : Int64) :
    FreshnessExact lib attestationDocCbor pcrs maxAge now ↔
      ClockReaches lib attestationDocCbor pcrs maxAge now := by
  constructor
  · intro h d hd hpcrs
    have hreaches : maxAge ≤ now.toUInt64 := by
      -- the build with overflow checks returns as well
      obtain ⟨r, hr, -⟩ := h true
      exact reaches_of_returns hd hpcrs hr
    exact ⟨hreaches,
      (sub_le_iff d.timestamp hreaches).1 ((freshnessExact_of_reaches hd hpcrs hreaches).1 h)⟩
  · intro h
    cases hd : verifyAndDecodeAttestation lib attestationDocCbor with
    | error e =>
      apply freshnessExact_of_failed (e := e)
      · intro overflowChecks
        rw [verify, hd]
      · intro d hd'
        cases hd.symm.trans hd'
    | ok d =>
      by_cases hpcrs : d.pcrs = pcrs
      · obtain ⟨hreaches, hneg⟩ := h d hd hpcrs
        exact (freshnessExact_of_reaches hd hpcrs hreaches).2
          ((sub_le_iff d.timestamp hreaches).2 hneg)
      · obtain ⟨e, he⟩ := checkPcrs_error hpcrs
        apply freshnessExact_of_failed (e := e)
        · intro overflowChecks
          unfold verify
          rw [hd]
          dsimp only
          rw [he]
        · intro d' hd'
          cases hd.symm.trans hd'
          exact hpcrs

namespace Sample

def pcr : Pcr := Vector.replicate 48 0

def content : Map :=
  [(.text "pcrs", .map [(.integer 0, .bytes pcr.toList), (.integer 1, .bytes pcr.toList),
      (.integer 2, .bytes pcr.toList)]),
    (.text "timestamp", .integer 1723012689640), (.text "public_key", .bytes [7]),
    (.text "certificate", .bytes [1]), (.text "cabundle", .array [.bytes [2]])]

def libraries : Libraries (List UInt8) (List UInt8) (List UInt8) ℕ where
  fromBytes doc := .ok doc
  getPayload doc := .ok doc
  verifySignature _ key := .ok (key = [1])
  fromSlice _ := .ok (.map content)
  fromValue
    | .map m => .ok m
    | _ => .error "invalid type"
  fromDer der := .ok der
  fromPem _ := .ok [2]
  publicKey cert := .ok cert
  verify cert key := .ok (cert = [1] ∧ key = [2])
  issued issuer cert := issuer = [2] ∧ cert = [1]
  notBefore _ := 0
  notAfter _ := 2
  partialCmp a b := some (compare a b)
  daysFromNow0 _ := .ok 1
  eq cert cert' := cert = cert'

def decoded : AttestationDecoded := ⟨#v[pcr, pcr, pcr], 1723012689640, [7]⟩

theorem verified (doc : List UInt8) : verifyAndDecodeAttestation libraries doc = .ok decoded := by
  rfl

/-- A `max_age` of `usize::MAX`, at the time of the document itself. -/
theorem unlimited_age_panics :
    verify libraries true [] decoded.pcrs 18446744073709551615 1723012689640 = none ∧
      ¬FreshnessExact libraries [] decoded.pcrs 18446744073709551615 1723012689640 := by
  have hpanic : verify libraries true [] decoded.pcrs 18446744073709551615 1723012689640 =
      none := by
    rw [verify_of_verified (verified []) rfl]
    decide
  refine ⟨hpanic, ?_⟩
  intro h
  obtain ⟨r, hr, -⟩ := h true
  rw [hpanic] at hr
  cases hr

end Sample

end Oyster.Attestation
