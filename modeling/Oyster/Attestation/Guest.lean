import Mathlib.Data.Option.Basic
import Oyster.Lib.BigEndian

/-!
`main` of the guest walks over the bytes of an attestation with offsets of its own and commits
parts of them. `none` is a panic: an assertion that fails, an index out of range or a failed
`unwrap`.
-/

namespace Oyster.Attestation.Guest

structure Libraries (Certificate VerifyingKey Signature : Type) where
  fromDer : List UInt8 → Option Certificate
  /-- in seconds since the epoch -/
  notBefore : Certificate → ℕ
  notAfter : Certificate → ℕ
  /-- the raw bytes of the subject public key and of the signature -/
  publicKey : Certificate → List UInt8
  signature : Certificate → List UInt8
  verifyingKey : List UInt8 → Option VerifyingKey
  signatureFromDer : List UInt8 → Option Signature
  signatureFromScalars : List UInt8 → List UInt8 → Option Signature
  verify : VerifyingKey → List UInt8 → Signature → Bool
  verifyPrehash : VerifyingKey → List UInt8 → Signature → Bool
  sha384 : List UInt8 → List UInt8

def ascii (s : String) : List UInt8 := s.toList.map fun c => UInt8.ofNat c.toNat

structure Slice where
  start : ℕ
  stop : ℕ
deriving DecidableEq, Repr

def Slice.bytes (a : List UInt8) (s : Slice) : List UInt8 :=
  (a.drop s.start).take (s.stop - s.start)

/-- `&attestation[start..stop]` -/
def slice (a : List UInt8) (start stop : ℕ) : Option (List UInt8) :=
  if start ≤ stop ∧ stop ≤ a.length then some (Slice.bytes a ⟨start, stop⟩) else none

def u16At (a : List UInt8) (offset : ℕ) : Option ℕ := do
  let hi ← a[offset]?
  let lo ← a[offset + 1]?
  some (BigEndian.decode [hi, lo])

def assertBytes (a : List UInt8) (offset : ℕ) (expected : List UInt8) : Option Unit := do
  let actual ← slice a offset (offset + expected.length)
  guard (actual = expected)

/-- What is committed, by its place in the attestation where it is a part of it. -/
structure Journal where
  timestamp : Slice
  pcr0 : Slice
  pcr1 : Slice
  pcr2 : Slice
  /-- the root certificate, and what is committed of its public key -/
  rootCert : Slice
  rootKey : List UInt8
  publicKeyLen : Slice
  publicKey : Slice
  userDataSize : ℕ
  userData : Slice
deriving DecidableEq, Repr

def Journal.bytes (a : List UInt8) (j : Journal) : List UInt8 :=
  j.timestamp.bytes a ++ j.pcr0.bytes a ++ j.pcr1.bytes a ++ j.pcr2.bytes a ++ j.rootKey ++
    j.publicKeyLen.bytes a ++ j.publicKey.bytes a ++ BigEndian.encode 2 j.userDataSize ++
    j.userData.bytes a

/-- The initial fields; the size of the payload. -/
def cose (a : List UInt8) : Option ℕ := do
  assertBytes a 0 [0x84, 0x44, 0xa1, 0x01, 0x38, 0x22, 0xa0, 0x59]
  let payloadSize ← u16At a 8
  guard (a.length = 10 + payloadSize + 98)
  some payloadSize

/-- The skipped fields, up to the offset after the module id. -/
def moduleId (a : List UInt8) : Option ℕ := do
  assertBytes a 10 [0xa9, 0x69]
  assertBytes a 21 [0x78]
  let size ← a[22]?
  some (23 + size.toNat)

/-- The digest, the timestamp and the head of the registers. -/
def digestTimestamp (a : List UInt8) (offset : ℕ) : Option (Slice × ℕ) := do
  assertBytes a offset [0x66]
  assertBytes a (offset + 7) [0x66]
  assertBytes a (offset + 14) [0x69]
  assertBytes a (offset + 15) (ascii "timestamp")
  assertBytes a (offset + 24) [0x1b]
  let _ ← slice a (offset + 25) (offset + 33)
  assertBytes a (offset + 33) [0x64]
  assertBytes a (offset + 34) (ascii "pcrs")
  assertBytes a (offset + 38) [0xb0]
  some (⟨offset + 25, offset + 33⟩, offset + 39)

/-- The head of a register, up to the offset after the register. -/
def skipPcr (a : List UInt8) (offset : ℕ) (i : ℕ) : Option ℕ := do
  assertBytes a offset [UInt8.ofNat i, 0x58, 0x30]
  some (offset + 51)

def commitPcr (a : List UInt8) (offset : ℕ) (i : ℕ) : Option (Slice × ℕ) := do
  assertBytes a offset [UInt8.ofNat i, 0x58, 0x30]
  let _ ← slice a (offset + 3) (offset + 51)
  some (⟨offset + 3, offset + 51⟩, offset + 51)

section

variable {Certificate VerifyingKey Signature : Type}
  (lib : Libraries Certificate VerifyingKey Signature)

/-- A certificate as bytes with a length of two bytes, at the offset of that length. -/
def certificate (a : List UInt8) (offset : ℕ) : Option (Slice × Certificate) := do
  let size ← u16At a offset
  let der ← slice a (offset + 2) (offset + 2 + size)
  let cert ← lib.fromDer der
  some (⟨offset + 2, offset + 2 + size⟩, cert)

def leafCertificate (a : List UInt8) (offset : ℕ) : Option (Slice × Certificate) := do
  assertBytes a offset [0x6b]
  assertBytes a (offset + 1) (ascii "certificate")
  assertBytes a (offset + 12) [0x59]
  certificate lib a (offset + 13)

def assertValidity (timestamp : ℕ) (cert : Certificate) : Option Unit :=
  guard (lib.notBefore cert < timestamp ∧ timestamp < lib.notAfter cert)

/-- The signature of the certificate at `start`, over its own encoding. -/
def verifyCertificate (a : List UInt8) (start : ℕ) (cert parent : Certificate) : Option Unit := do
  assertBytes a start [0x30]
  assertBytes a (start + 1) [0x82]
  assertBytes a (start + 4) [0x30]
  assertBytes a (start + 5) [0x82]
  let certSize ← u16At a (start + 6)
  let msg ← slice a (start + 4) (start + 8 + certSize)
  let sig ← lib.signatureFromDer (lib.signature cert)
  let vkey ← lib.verifyingKey (lib.publicKey parent)
  guard (lib.verify vkey msg sig)

/-- The loop over the certificates after the root. -/
def verifyChildren (a : List UInt8) (timestamp : ℕ) :
    ℕ → Certificate → ℕ → Option (Certificate × ℕ)
  | 0, parent, offset => some (parent, offset)
  | n + 1, parent, offset => do
    assertBytes a offset [0x59]
    let (der, child) ← certificate lib a (offset + 1)
    assertValidity lib timestamp child
    verifyCertificate lib a (offset + 3) child parent
    verifyChildren a timestamp n child der.stop

/-- The chain from the root to the leaf; the root certificate and what is committed of it. -/
def certificateChain (a : List UInt8) (timestamp : ℕ) (leafSlice : Slice) (leaf : Certificate)
    (offset : ℕ) : Option (Slice × List UInt8 × ℕ) := do
  assertBytes a offset [0x68]
  assertBytes a (offset + 1) (ascii "cabundle")
  let chainSize ← a[offset + 9]?
  guard (0x80 < chainSize.toNat ∧ chainSize.toNat ≤ 0x90)
  assertBytes a (offset + 10) [0x59]
  let (rootSlice, root) ← certificate lib a (offset + 11)
  assertValidity lib timestamp root
  guard ((lib.publicKey root).length = 97)
  guard ((lib.publicKey root).head? = some 0x04)
  let (parent, offset) ←
    verifyChildren lib a timestamp (chainSize.toNat - 0x80 - 1) root rootSlice.stop
  assertValidity lib timestamp leaf
  verifyCertificate lib a leafSlice.start leaf parent
  some (rootSlice, (lib.publicKey root).drop 1, offset)

end

def publicKey (a : List UInt8) (offset : ℕ) : Option (Slice × Slice × ℕ) := do
  assertBytes a offset [0x6a]
  assertBytes a (offset + 1) (ascii "public_key")
  assertBytes a (offset + 11) [0x58]
  let pubkeyLen ← a[offset + 12]?
  let _ ← slice a (offset + 13) (offset + 13 + pubkeyLen.toNat)
  some (⟨offset + 12, offset + 13⟩, ⟨offset + 13, offset + 13 + pubkeyLen.toNat⟩,
    offset + 13 + pubkeyLen.toNat)

def userData (a : List UInt8) (offset : ℕ) : Option (ℕ × Slice) := do
  assertBytes a offset [0x69]
  assertBytes a (offset + 1) (ascii "user_data")
  let head ← a[offset + 10]?
  if head = 0xf6 then
    some (0, ⟨0, 0⟩)
  else if head = 0x58 then do
    let size ← a[offset + 11]?
    let _ ← slice a (offset + 12) (offset + 12 + size.toNat)
    some (size.toNat, ⟨offset + 12, offset + 12 + size.toNat⟩)
  else do
    assertBytes a (offset + 10) [0x59]
    let size ← u16At a (offset + 11)
    let _ ← slice a (offset + 13) (offset + 13 + size)
    some (size, ⟨offset + 13, offset + 13 + size⟩)

/-- What the COSE signature is over, with the payload and the two bytes of its size. -/
def signedBytes (payloadSize payload : List UInt8) : List UInt8 :=
  [0x84] ++ [0x6a] ++ ascii "Signature1" ++ [0x44, 0xa1, 0x01, 0x38, 0x22] ++ [0x40] ++
    ([0x59] ++ payloadSize) ++ payload

section

variable {Certificate VerifyingKey Signature : Type}
  (lib : Libraries Certificate VerifyingKey Signature)

def verifySignature (a : List UInt8) (payloadSize : ℕ) (leaf : Certificate) : Option Unit := do
  let size ← slice a 8 10
  let payload ← slice a 10 (10 + payloadSize)
  assertBytes a (payloadSize + 10) [0x58]
  assertBytes a (payloadSize + 11) [0x60]
  let vkey ← lib.verifyingKey (lib.publicKey leaf)
  let r ← slice a (12 + payloadSize) (60 + payloadSize)
  let s ← slice a (60 + payloadSize) (108 + payloadSize)
  let signature ← lib.signatureFromScalars r s
  guard (lib.verifyPrehash vkey (lib.sha384 (signedBytes size payload)) signature)

def main (attestation : List UInt8) : Option Journal := do
  let payloadSize ← cose attestation
  let offset ← moduleId attestation
  let (timestamp, offset) ← digestTimestamp attestation offset
  -- from milliseconds to seconds
  let seconds := BigEndian.decode (timestamp.bytes attestation) / 1000
  let (pcr0, offset) ← commitPcr attestation offset 0
  let (pcr1, offset) ← commitPcr attestation offset 1
  let (pcr2, offset) ← commitPcr attestation offset 2
  let offset ← (List.range' 3 13).foldlM (skipPcr attestation) offset
  let (leafSlice, leaf) ← leafCertificate lib attestation offset
  let (rootCert, rootKey, offset) ←
    certificateChain lib attestation seconds leafSlice leaf leafSlice.stop
  let (publicKeyLen, publicKey, offset) ← publicKey attestation offset
  let (userDataSize, userData) ← userData attestation offset
  verifySignature lib attestation payloadSize leaf
  some {
    timestamp, pcr0, pcr1, pcr2, rootCert, rootKey, publicKeyLen, publicKey, userDataSize
    userData }

end

theorem slice_eq_some {a s : List UInt8} {start stop : ℕ} :
    slice a start stop = some s ↔
      start ≤ stop ∧ stop ≤ a.length ∧ Slice.bytes a ⟨start, stop⟩ = s := by
  unfold slice
  split
  · rename_i h
    simp [h.1, h.2]
  · rename_i h
    simp only [reduceCtorEq, false_iff]
    exact fun hs => h ⟨hs.1, hs.2.1⟩

theorem assertBytes_iff {a expected : List UInt8} {offset : ℕ} (hne : expected ≠ []) :
    assertBytes a offset expected = some () ↔ expected <+: a.drop offset := by
  have hpos := List.length_pos_iff.2 hne
  have hbytes : Slice.bytes a ⟨offset, offset + expected.length⟩ =
      (a.drop offset).take expected.length := by
    rw [Slice.bytes, Nat.add_sub_cancel_left]
  simp only [assertBytes, Option.bind_eq_bind, Option.bind_eq_some_iff, slice_eq_some, hbytes,
    Option.guard_eq_some']
  rw [List.prefix_iff_eq_take]
  constructor
  · rintro ⟨s, ⟨_, _, rfl⟩, h⟩
    exact h.symm
  · intro h
    have hlen := congrArg List.length h
    rw [List.length_take, List.length_drop] at hlen
    exact ⟨_, ⟨by omega, by omega, rfl⟩, h.symm⟩

theorem singleton_initial_iff {a : List UInt8} {b : UInt8} {offset : ℕ} :
    [b] <+: a.drop offset ↔ a[offset]? = some b := by
  rw [← List.head?_drop]
  cases a.drop offset <;> simp [eq_comm]

theorem u16At_eq_some {a : List UInt8} {offset n : ℕ} : u16At a offset = some n ↔
    ∃ hi lo, a[offset]? = some hi ∧ a[offset + 1]? = some lo ∧ BigEndian.decode [hi, lo] = n := by
  simp only [u16At, Option.bind_eq_bind, Option.bind_eq_some_iff, Option.some.injEq]
  constructor
  · rintro ⟨hi, h, lo, h', rfl⟩
    exact ⟨hi, lo, h, h', rfl⟩
  · rintro ⟨hi, lo, h, h', rfl⟩
    exact ⟨hi, h, lo, h', rfl⟩

end Oyster.Attestation.Guest
