import Oyster.Attestation.Guest
import Oyster.Attestation.MockCerts
import Oyster.Lib.CborEncode
import Oyster.Lib.Copies

/-!
`get_attestation_doc` computes the size of the document first, then fills a buffer of that size
with offsets of its own, and signs it. `none` is a panic. The time is in milliseconds since the
epoch.
-/

namespace Oyster.Attestation.Mock

open Guest (ascii slice)

/-- The functions of the hash and signature libraries. -/
structure Signing (SigningKey : Type) where
  sha384 : List UInt8 → List UInt8
  /-- `SigningKey::from_sec1_der(LEAF_KEY)` -/
  signer : Except String SigningKey
  signPrehash : SigningKey → List UInt8 → Except String (Vector UInt8 96)

def encodedLen (payload : ℕ) : ℕ :=
  if payload < 24 then 1 + payload
  else if payload < 256 then 2 + payload
  else 3 + payload

def payloadSize (publicKey userData nonce : Option (List UInt8)) : ℕ :=
  1832 + (publicKey.elim 1 fun x => encodedLen x.length) +
    (userData.elim 1 fun x => encodedLen x.length) + nonce.elim 1 fun x => encodedLen x.length

def totalSize (publicKey userData nonce : Option (List UInt8)) : ℕ :=
  payloadSize publicKey userData nonce + 108

/-- The register `i`, in a round of the loop. -/
def pcrField (i : ℕ) : List (Copy UInt8) :=
  [.single (101 + i * 51) (UInt8.ofNat i), .single (102 + i * 51) 0x58,
    .single (103 + i * 51) 0x30,
    ⟨104 + i * 51, 152 + i * 51, List.replicate 48 (UInt8.ofNat i)⟩]

/-- The payload fields before the public key. -/
def payloadFields (timestampMs : ℕ) : List (Copy UInt8) :=
  [.single 10 0xa9, .single 11 0x69, ⟨12, 21, ascii "module_id"⟩,
    ⟨21, 62, [0x78, 0x27] ++ ascii "i-0d69bec447a037a2a-enc01939aab191aadd2"⟩,
    ⟨62, 69, [0x66] ++ ascii "digest"⟩, ⟨69, 76, [0x66] ++ ascii "SHA384"⟩,
    ⟨76, 86, [0x69] ++ ascii "timestamp"⟩, .single 86 0x1b,
    ⟨87, 95, BigEndian.encode 8 timestampMs⟩, ⟨95, 100, [0x64] ++ ascii "pcrs"⟩,
    .single 100 0xb0] ++
  (List.range 16).flatMap pcrField ++
  [⟨917, 929, [0x6b] ++ ascii "certificate"⟩, .single 929 0x59,
    ⟨930, 932, BigEndian.encode 2 leafCert.length⟩, ⟨932, 1398, leafCert⟩,
    ⟨1398, 1407, [0x68] ++ ascii "cabundle"⟩, .single 1407 0x81, .single 1408 0x59,
    ⟨1409, 1411, BigEndian.encode 2 rootCert.length⟩, ⟨1411, 1815, rootCert⟩]

/-- The slice after its writes, and the size of what was written. -/
def encode (dest : List UInt8) (payload : Option (List UInt8)) : Option (List UInt8 × ℕ) :=
  match payload with
  | none => do
    let dest ← Copy.runAll dest [.single 0 0xf6]
    some (dest, 1)
  | some payload =>
    if payload.length < 24 then do
      let dest ← Copy.runAll dest
        [.single 0 (0x40 + UInt8.ofNat payload.length), ⟨1, 1 + payload.length, payload⟩]
      some (dest, 1 + payload.length)
    else if payload.length < 256 then do
      let dest ← Copy.runAll dest
        [.single 0 0x58, .single 1 (UInt8.ofNat payload.length),
          ⟨2, 2 + payload.length, payload⟩]
      some (dest, 2 + payload.length)
    else do
      let dest ← Copy.runAll dest
        [.single 0 0x59, ⟨1, 3, BigEndian.encode 2 payload.length⟩,
          ⟨3, 3 + payload.length, payload⟩]
      some (dest, 3 + payload.length)

/-- A key of `size` bytes at the offset and `encode` into `&mut attestation[offset..]` after it;
the offset after both. -/
def field (attestation : List UInt8) (offset size : ℕ) (key : List UInt8)
    (payload : Option (List UInt8)) : Option (List UInt8 × ℕ) := do
  let attestation ← Copy.run attestation ⟨offset, offset + size, key⟩
  let offset := offset + size
  guard (offset ≤ attestation.length)
  let (rest, size) ← encode (attestation.drop offset) payload
  some (attestation.take offset ++ rest, offset + size)

/-- The COSE fields before the signature, which goes after the offset. -/
def coseFields (payloadSize offset : ℕ) : List (Copy UInt8) :=
  [⟨0, 8, [0x84, 0x44, 0xa1, 0x01, 0x38, 0x22, 0xa0, 0x59]⟩,
    ⟨8, 10, BigEndian.encode 2 payloadSize⟩, .single offset 0x58, .single (offset + 1) 0x60]

/-- The document before it is signed, and the offset after the payload. -/
def fill (timestampMs : ℕ) (publicKey userData nonce : Option (List UInt8)) :
    Option (List UInt8 × ℕ) := do
  let attestation := List.replicate (totalSize publicKey userData nonce) 0
  let attestation ← Copy.runAll attestation (payloadFields timestampMs)
  let (attestation, offset) ← field attestation 1815 11 ([0x6a] ++ ascii "public_key") publicKey
  let (attestation, offset) ← field attestation offset 10 ([0x69] ++ ascii "user_data") userData
  let (attestation, offset) ← field attestation offset 6 ([0x65] ++ ascii "nonce") nonce
  let attestation ←
    Copy.runAll attestation (coseFields (payloadSize publicKey userData nonce) offset)
  some (attestation, offset)

/-- What the hash is over. -/
def signedBytes (attestation : List UInt8) (payloadSize : ℕ) : Option (List UInt8) := do
  let hi ← attestation[8]?
  let lo ← attestation[9]?
  let payload ← slice attestation 10 (10 + payloadSize)
  some ([0x84] ++ [0x6a] ++ ascii "Signature1" ++ [0x44, 0xa1, 0x01, 0x38, 0x22] ++ [0x40] ++
    [0x59, hi, lo] ++ payload)

section

variable {SigningKey : Type} (lib : Signing SigningKey)

def getAttestationDoc (timestampMs : ℕ) (publicKey userData nonce : Option (List UInt8)) :
    Option (Except String (List UInt8)) :=
  if publicKey.elim 0 List.length > 65535 then
    some (.error "public key is too long, maximum of 65535")
  else if userData.elim 0 List.length > 65535 then
    some (.error "user_data is too long, maximum of 65535")
  else if nonce.elim 0 List.length > 65535 then
    some (.error "nonce is too long, maximum of 65535")
  else if totalSize publicKey userData nonce > 65535 then
    some (.error "Payload too big")
  else do
    let (attestation, offset) ← fill timestampMs publicKey userData nonce
    let signed ← signedBytes attestation (payloadSize publicKey userData nonce)
    match lib.signer with
    | .error e => some (.error ("failed to parse signer: " ++ e))
    | .ok signer =>
      match lib.signPrehash signer (lib.sha384 signed) with
      | .error e => some (.error ("failed to sign attestation: " ++ e))
      | .ok signature => do
        let attestation ←
          Copy.run attestation ⟨offset + 2, offset + 98, signature.toList⟩
        some (.ok attestation)

end

def encoding : Option (List UInt8) → List UInt8
  | none => [0xf6]
  | some payload =>
    if payload.length < 24 then (0x40 + UInt8.ofNat payload.length) :: payload
    else if payload.length < 256 then 0x58 :: BigEndian.encode 1 payload.length ++ payload
    else 0x59 :: BigEndian.encode 2 payload.length ++ payload

theorem encoding_length (payload : Option (List UInt8)) :
    (encoding payload).length = payload.elim 1 fun x => encodedLen x.length := by
  cases payload with
  | none => rfl
  | some payload =>
    simp only [encoding, Option.elim_some, encodedLen]
    split_ifs
    · rw [List.length_cons]
      omega
    · simp only [List.cons_append, List.length_cons, List.length_append, BigEndian.length_encode]
      omega
    · simp only [List.cons_append, List.length_cons, List.length_append, BigEndian.length_encode]
      omega

theorem encode_eq {dest : List UInt8} {payload : Option (List UInt8)}
    (hroom : (encoding payload).length ≤ dest.length) :
    encode dest payload =
      some (encoding payload ++ dest.drop (encoding payload).length,
        (encoding payload).length) := by
  have hrun : ∀ cs, Copy.InRow 0 cs → Copy.written cs = encoding payload →
      Copy.runAll dest cs =
        some (encoding payload ++ dest.drop (encoding payload).length) := by
    intro cs hrow hwritten
    have h := @Copy.runAll_append UInt8 [] dest cs hrow (by rw [hwritten]; exact hroom)
    rw [hwritten] at h
    exact h
  cases payload with
  | none =>
    rw [encode, hrun _ (by simp [Copy.InRow, Copy.single]) (by simp [encoding])]
    rfl
  | some payload =>
    have hlen := encoding_length (some payload)
    rw [Option.elim_some] at hlen
    rw [hlen] at hrun ⊢
    simp only [encode, encodedLen] at hrun ⊢
    split_ifs with hshort hone
    · have hbytes : Copy.written [Copy.single 0 (0x40 + UInt8.ofNat payload.length),
          ⟨1, 1 + payload.length, payload⟩] = encoding (some payload) := by
        simp [encoding, hshort]
      rw [if_pos hshort] at hrun
      rw [hrun _ (by simp [Copy.InRow, Copy.single]) hbytes]
      rfl
    · have hbytes : Copy.written [Copy.single 0 0x58,
          Copy.single 1 (UInt8.ofNat payload.length), ⟨2, 2 + payload.length, payload⟩] =
          encoding (some payload) := by
        simp [encoding, hshort, hone, BigEndian.encode]
      rw [if_neg hshort, if_pos hone] at hrun
      rw [hrun _ (by simp [Copy.InRow, Copy.single]) hbytes]
      rfl
    · have hbytes : Copy.written [Copy.single 0 0x59,
          ⟨1, 3, BigEndian.encode 2 payload.length⟩, ⟨3, 3 + payload.length, payload⟩] =
          encoding (some payload) := by
        simp [encoding, hshort, hone]
      rw [if_neg hshort, if_neg hone] at hrun
      rw [hrun _ (by simp [Copy.InRow, Copy.single]) hbytes]
      rfl

def padded (total : ℕ) (done : List UInt8) : List UInt8 :=
  done ++ List.replicate (total - done.length) 0

theorem runAll_padded {total : ℕ} {done : List UInt8} {cs : List (Copy UInt8)}
    (hrow : Copy.InRow done.length cs) (hroom : done.length + (Copy.written cs).length ≤ total) :
    Copy.runAll (padded total done) cs = some (padded total (done ++ Copy.written cs)) := by
  rw [padded, Copy.runAll_append hrow (by rw [List.length_replicate]; omega), padded,
    List.drop_replicate, List.length_append, Nat.sub_add_eq]

theorem field_padded {total offset size : ℕ} {done key : List UInt8}
    {payload : Option (List UInt8)} (hoffset : done.length = offset) (hkey : key.length = size)
    (hroom : offset + (size + (encoding payload).length) ≤ total) :
    field (padded total done) offset size key payload =
      some (padded total (done ++ (key ++ encoding payload)),
        offset + (size + (encoding payload).length)) := by
  have hrun := @Copy.run_append UInt8 done (List.replicate (total - done.length) 0)
    ⟨offset, offset + size, key⟩ hoffset.symm (by rw [← hoffset, ← hkey])
    (by rw [List.length_replicate]; show key.length ≤ _; omega)
  have hdone : offset + size = (done ++ key).length := by
    rw [List.length_append, hkey, hoffset]
  have hleft : total - done.length - size = total - (offset + size) := by omega
  simp only [hkey, List.drop_replicate, hleft] at hrun
  have henc : encode (List.replicate (total - (offset + size)) 0) payload =
      some (encoding payload ++
        List.replicate (total - (offset + (size + (encoding payload).length))) 0,
        (encoding payload).length) := by
    rw [encode_eq (by rw [List.length_replicate]; omega), List.drop_replicate,
      ← Nat.sub_add_eq, Nat.add_assoc]
  have hguard : offset + size ≤
      (done ++ key ++ List.replicate (total - (offset + size)) (0 : UInt8)).length := by
    rw [List.length_append, ← hdone]
    omega
  have hlen : (done ++ (key ++ encoding payload)).length =
      offset + (size + (encoding payload).length) := by
    rw [List.length_append, List.length_append, hkey, hoffset]
  simp only [field, padded, hrun, Option.bind_eq_bind, Option.bind_some, guard, if_pos hguard]
  rw [hdone, List.drop_left, ← hdone, henc, hdone, List.take_left, hlen, ← hdone]
  simp only [Option.pure_def, Option.bind_some, List.append_assoc, Nat.add_assoc]

/-- The bytes of the payload. -/
def payloadBytes (timestampMs : ℕ) (publicKey userData nonce : Option (List UInt8)) :
    List UInt8 :=
  Copy.written (payloadFields timestampMs) ++
    ([0x6a] ++ ascii "public_key" ++ encoding publicKey) ++
    ([0x69] ++ ascii "user_data" ++ encoding userData) ++
    ([0x65] ++ ascii "nonce" ++ encoding nonce)

def coseHead (payloadSize : ℕ) : List UInt8 :=
  [0x84, 0x44, 0xa1, 0x01, 0x38, 0x22, 0xa0, 0x59] ++ BigEndian.encode 2 payloadSize

theorem pcrFields_inRow :
    Copy.InRow 101 ((List.range 16).flatMap pcrField) ∧
      (Copy.written ((List.range 16).flatMap pcrField)).length = 816 := by
  apply @Copy.inRow_rounds UInt8 101 51
  · intro i
    simp [pcrField, Copy.InRow, Copy.single]
    omega
  · intro i
    simp [pcrField]

theorem payloadFields_inRow (timestampMs : ℕ) :
    Copy.InRow 10 (payloadFields timestampMs) ∧
      (Copy.written (payloadFields timestampMs)).length = 1805 := by
  have hpcrs := pcrFields_inRow
  constructor
  · apply Copy.InRow.append
    · apply Copy.InRow.append
      · simp [Copy.InRow, Copy.single, ascii]
      · simpa [ascii] using hpcrs.1
    · simp [Copy.InRow, Copy.single, ascii, hpcrs.2]
  · simp [payloadFields, ascii, hpcrs.2]

theorem payloadBytes_length (timestampMs : ℕ) (publicKey userData nonce : Option (List UInt8)) :
    (payloadBytes timestampMs publicKey userData nonce).length =
      payloadSize publicKey userData nonce := by
  simp only [payloadBytes, List.length_append, (payloadFields_inRow timestampMs).2,
    encoding_length, payloadSize]
  simp [ascii]
  omega

def unsigned (timestampMs : ℕ) (publicKey userData nonce : Option (List UInt8)) : List UInt8 :=
  coseHead (payloadSize publicKey userData nonce) ++
    payloadBytes timestampMs publicKey userData nonce ++ [0x58, 0x60]

theorem coseHead_length (payloadSize : ℕ) : (coseHead payloadSize).length = 10 := by
  simp [coseHead]

theorem unsigned_length (timestampMs : ℕ) (publicKey userData nonce : Option (List UInt8)) :
    (unsigned timestampMs publicKey userData nonce).length =
      10 + payloadSize publicKey userData nonce + 2 := by
  rw [unsigned, List.length_append, List.length_append, coseHead_length, payloadBytes_length]
  rfl

/-- The head is written over the ten bytes that the payload fields leave, and the two bytes
before the signature come after the payload. -/
theorem coseFields_eq {payload : List UInt8} {size : ℕ} (hsize : payload.length = size) :
    Copy.runAll (List.replicate 10 0 ++ payload ++ List.replicate 98 0)
      (coseFields size (10 + size)) =
        some (coseHead size ++ payload ++ [0x58, 0x60] ++ List.replicate 96 0) := by
  have hmagic := @Copy.run_over UInt8 [] (List.replicate 8 0)
    (List.replicate 2 0 ++ payload ++ List.replicate 98 0)
    ⟨0, 8, [0x84, 0x44, 0xa1, 0x01, 0x38, 0x22, 0xa0, 0x59]⟩ rfl rfl rfl
  have hlen := @Copy.run_over UInt8 [0x84, 0x44, 0xa1, 0x01, 0x38, 0x22, 0xa0, 0x59]
    (List.replicate 2 0) (payload ++ List.replicate 98 0) ⟨8, 10, BigEndian.encode 2 size⟩
    rfl rfl (by simp)
  have hlast := @Copy.runAll_append UInt8 (coseHead size ++ payload) (List.replicate 98 0)
    [.single (10 + size) 0x58, .single (10 + size + 1) 0x60]
    (by simp [Copy.InRow, Copy.single, coseHead_length, hsize])
    (by simp)
  have hzeros : List.replicate 10 (0 : UInt8) ++ payload ++ List.replicate 98 0 =
      [] ++ List.replicate 8 0 ++ (List.replicate 2 0 ++ payload ++ List.replicate 98 0) := rfl
  have hwritten : [] ++ [0x84, 0x44, 0xa1, 0x01, 0x38, 0x22, 0xa0, 0x59] ++
      (List.replicate 2 0 ++ payload ++ List.replicate 98 0) =
      [0x84, 0x44, 0xa1, 0x01, 0x38, 0x22, 0xa0, 0x59] ++ List.replicate 2 (0 : UInt8) ++
        (payload ++ List.replicate 98 0) := rfl
  rw [hwritten] at hmagic
  rw [List.append_assoc (coseHead size)] at hlast
  rw [coseFields, Copy.runAll, List.foldlM_cons, hzeros, hmagic]
  show List.foldlM Copy.run _ _ = _
  rw [List.foldlM_cons, hlen]
  show Copy.runAll (coseHead size ++ (payload ++ List.replicate 98 0)) _ = _
  rw [hlast]
  rfl

theorem fill_eq (timestampMs : ℕ) (publicKey userData nonce : Option (List UInt8)) :
    fill timestampMs publicKey userData nonce =
      some (unsigned timestampMs publicKey userData nonce ++ List.replicate 96 0,
        10 + payloadSize publicKey userData nonce) := by
  have hpk := encoding_length publicKey
  have hud := encoding_length userData
  have hnonce := encoding_length nonce
  have hpayload : 10 + payloadSize publicKey userData nonce =
      1815 + (11 + (encoding publicKey).length) + (10 + (encoding userData).length) +
        (6 + (encoding nonce).length) := by
    rw [payloadSize, hpk, hud, hnonce]
    omega
  generalize htotal : totalSize publicKey userData nonce = total
  rw [totalSize] at htotal
  -- the buffer is what is written so far, padded with zeros
  have hblank : List.replicate total (0 : UInt8) = padded total (List.replicate 10 0) := by
    rw [padded, List.replicate_append_replicate, List.length_replicate,
      (by omega : 10 + (total - 10) = total)]
  have hfixed := payloadFields_inRow timestampMs
  have hfields := @runAll_padded total (List.replicate 10 0) (payloadFields timestampMs) hfixed.1
    (by rw [hfixed.2, List.length_replicate]; omega)
  generalize hdone : List.replicate 10 0 ++ Copy.written (payloadFields timestampMs) = done
    at hfields
  have hlen : done.length = 1815 := by
    rw [← hdone, List.length_append, hfixed.2, List.length_replicate]
  -- the three arguments follow, each where the one before it ends
  have hfirst := @field_padded total 1815 11 done ([0x6a] ++ ascii "public_key") publicKey
    hlen (by simp [ascii]) (by omega)
  have hsecond := @field_padded total (1815 + (11 + (encoding publicKey).length)) 10
    (done ++ ([0x6a] ++ ascii "public_key" ++ encoding publicKey))
    ([0x69] ++ ascii "user_data") userData (by simp [ascii, hlen]; omega) (by simp [ascii])
    (by omega)
  have hthird := @field_padded total
    (1815 + (11 + (encoding publicKey).length) + (10 + (encoding userData).length)) 6
    (done ++ ([0x6a] ++ ascii "public_key" ++ encoding publicKey) ++
      ([0x69] ++ ascii "user_data" ++ encoding userData))
    ([0x65] ++ ascii "nonce") nonce (by simp [ascii, hlen]; omega) (by simp [ascii])
    (by omega)
  have hpayloadBytes : padded total (done ++
      ([0x6a] ++ ascii "public_key" ++ encoding publicKey) ++
      ([0x69] ++ ascii "user_data" ++ encoding userData) ++
      ([0x65] ++ ascii "nonce" ++ encoding nonce)) =
      List.replicate 10 0 ++ payloadBytes timestampMs publicKey userData nonce ++
        List.replicate 98 0 := by
    have hsize := payloadBytes_length timestampMs publicKey userData nonce
    have hall : done ++ ([0x6a] ++ ascii "public_key" ++ encoding publicKey) ++
        ([0x69] ++ ascii "user_data" ++ encoding userData) ++
        ([0x65] ++ ascii "nonce" ++ encoding nonce) =
        List.replicate 10 0 ++ payloadBytes timestampMs publicKey userData nonce := by
      rw [← hdone, payloadBytes]
      simp only [List.append_assoc]
    rw [hall, padded, List.length_append, hsize, List.length_replicate,
      (by omega : total - (10 + payloadSize publicKey userData nonce) = 98)]
  -- the head is written last, over the ten zeros in front
  rw [hpayloadBytes, ← hpayload] at hthird
  have hcose := coseFields_eq (payloadBytes_length timestampMs publicKey userData nonce)
  simp only [fill, totalSize, htotal, hblank, hfields, hfirst, hsecond, hthird, hcose,
    Option.bind_eq_bind, Option.bind_some]
  rfl

theorem signedBytes_eq (timestampMs : ℕ) (publicKey userData nonce : Option (List UInt8))
    (rest : List UInt8) :
    signedBytes (unsigned timestampMs publicKey userData nonce ++ rest)
      (payloadSize publicKey userData nonce) =
        some (Guest.signedBytes (BigEndian.encode 2 (payloadSize publicKey userData nonce))
          (payloadBytes timestampMs publicKey userData nonce)) := by
  have hsize := payloadBytes_length timestampMs publicKey userData nonce
  rw [unsigned]
  generalize payloadBytes timestampMs publicKey userData nonce = payload at hsize ⊢
  generalize payloadSize publicKey userData nonce = size at hsize ⊢
  have hpayload : slice (coseHead size ++ payload ++ [0x58, 0x60] ++ rest) 10 (10 + size) =
      some payload := by
    have hlen := coseHead_length size
    have hfit : 10 + size ≤ (coseHead size ++ payload ++ [0x58, 0x60] ++ rest).length := by
      simp only [List.length_append, hlen, hsize]
      omega
    have hdrop : (coseHead size ++ (payload ++ ([0x58, 0x60] ++ rest))).drop 10 =
        payload ++ ([0x58, 0x60] ++ rest) := List.drop_left' hlen
    rw [Guest.slice_eq_some]
    refine ⟨Nat.le_add_right 10 size, hfit, ?_⟩
    rw [Guest.Slice.bytes, List.append_assoc, List.append_assoc, hdrop, Nat.add_sub_cancel_left]
    exact List.take_left' hsize
  rw [signedBytes, hpayload]
  rfl

def entry : Option (List UInt8) → Cbor.Value
  | none => .simple 22
  | some payload => .bytes payload

def payloadMap (timestampMs : ℕ) (publicKey userData nonce : Option (List UInt8)) : Cbor.Map :=
  [(.text "module_id", .text "i-0d69bec447a037a2a-enc01939aab191aadd2"),
    (.text "digest", .text "SHA384"),
    (.text "timestamp", .integer (timestampMs % 18446744073709551616 : ℕ)),
    (.text "pcrs", .map ((List.range 16).map fun i : ℕ =>
      (.integer i, .bytes (List.replicate 48 (UInt8.ofNat i))))),
    (.text "certificate", .bytes leafCert),
    (.text "cabundle", .array [.bytes rootCert]),
    (.text "public_key", entry publicKey),
    (.text "user_data", entry userData),
    (.text "nonce", entry nonce)]

theorem encodes_entry {payload : Option (List UInt8)}
    (hlen : payload.elim 0 List.length ≤ 65535) :
    Cbor.Encodes 1 (encoding payload) (entry payload) := by
  cases payload with
  | none => exact Cbor.encodes_null
  | some payload =>
    rw [Option.elim_some] at hlen
    simp only [encoding]
    -- one lemma for each width that the length is written in
    split_ifs with hshort hone
    · apply Cbor.encodes_bytes_short _ hshort
      have hbyte : (UInt8.ofNat payload.length).toNat = payload.length := by
        rw [UInt8.toNat_ofNat']
        omega
      rw [UInt8.toNat_add, hbyte]
      show (64 + payload.length) % 256 = 64 + payload.length
      omega
    · exact Cbor.encodes_bytes_one hone
    · exact Cbor.encodes_bytes_two (by omega)

theorem encodes_pcrs (is : List ℕ) (h : ∀ i ∈ is, i < 16) :
    Cbor.Entries 1 (Copy.written (is.flatMap pcrField))
      (is.map fun i : ℕ => (.integer i, .bytes (List.replicate 48 (UInt8.ofNat i)))) := by
  -- the registers one by one, so that the keys need not be in order
  induction is with
  | nil => exact .nil
  | cons i is ih =>
    have hi := h i (List.mem_cons_self ..)
    have hbyte : (UInt8.ofNat i).toNat = i := by
      rw [UInt8.toNat_ofNat']
      omega
    have hkey : Cbor.Encodes 1 [UInt8.ofNat i] (.integer i) := by
      have hshort := @Cbor.encodes_integer_short (UInt8.ofNat i) (by omega)
      rwa [hbyte] at hshort
    have hvalue := @Cbor.encodes_bytes_one (List.replicate 48 (UInt8.ofNat i)) (by simp)
    have hrest := ih fun j hj => h j (List.mem_cons_of_mem _ hj)
    rw [List.flatMap_cons, Copy.written_append, List.map_cons]
    exact .cons hkey hvalue hrest

theorem encodes_key {s : String} {b : UInt8} (hs : s.toByteArray = ⟨(ascii s).toArray⟩)
    (hb : b.toNat = 96 + (ascii s).length) (hlen : (ascii s).length < 24) {depth : ℕ}
    (hdepth : 1 ≤ depth) : Cbor.Encodes depth ([b] ++ ascii s) (.text s) :=
  (Cbor.encodes_text_short hs hb hlen).mono hdepth

theorem encodes_payload (timestampMs : ℕ) {publicKey userData nonce : Option (List UInt8)}
    (hpk : publicKey.elim 0 List.length ≤ 65535) (hud : userData.elim 0 List.length ≤ 65535)
    (hnonce : nonce.elim 0 List.length ≤ 65535) :
    Cbor.Encodes 3 (payloadBytes timestampMs publicKey userData nonce)
      (.map (payloadMap timestampMs publicKey userData nonce)) := by
  have hmodule : Cbor.Encodes 1 ([0x78, 0x27] ++ ascii "i-0d69bec447a037a2a-enc01939aab191aadd2")
      (.text "i-0d69bec447a037a2a-enc01939aab191aadd2") :=
    @Cbor.encodes_text_one (ascii "i-0d69bec447a037a2a-enc01939aab191aadd2") _ rfl (by decide)
  have hdigest : Cbor.Encodes 1 ([0x66] ++ ascii "SHA384") (.text "SHA384") :=
    encodes_key rfl rfl (by decide) (by omega)
  have htime : Cbor.Encodes 1 ([0x1b] ++ BigEndian.encode 8 timestampMs)
      (.integer (timestampMs % 18446744073709551616 : ℕ)) := by
    rw [← BigEndian.encode_mod]
    exact Cbor.encodes_integer_eight (Nat.mod_lt _ (by omega))
  have hpcrs : Cbor.Encodes 2 ([0xb0] ++ Copy.written ((List.range 16).flatMap pcrField))
      (.map ((List.range 16).map fun i : ℕ =>
        (.integer i, .bytes (List.replicate 48 (UInt8.ofNat i))))) :=
    Cbor.encodes_map (encodes_pcrs _ fun i hi => List.mem_range.1 hi) rfl (by decide)
  have hleaf : Cbor.Encodes 1 ([0x59] ++ BigEndian.encode 2 leafCert.length ++ leafCert)
      (.bytes leafCert) := Cbor.encodes_bytes_two (by rw [leafCert_length]; omega)
  have hroot : Cbor.Encodes 1 ([0x59] ++ BigEndian.encode 2 rootCert.length ++ rootCert)
      (.bytes rootCert) := Cbor.encodes_bytes_two (by rw [rootCert_length]; omega)
  have hrow : Cbor.Row 1 ([0x59] ++ BigEndian.encode 2 rootCert.length ++ rootCert ++ [])
      [.bytes rootCert] := .cons hroot .nil
  have hbundle : Cbor.Encodes 2
      ([0x81] ++ ([0x59] ++ BigEndian.encode 2 rootCert.length ++ rootCert ++ []))
      (.array [.bytes rootCert]) := Cbor.encodes_array hrow rfl (by simp)
  have hkey := fun (b : UInt8) {s : String} (hs : s.toByteArray = ⟨(ascii s).toArray⟩)
    (hb : b.toNat = 96 + (ascii s).length) (hlen : (ascii s).length < 24) =>
      @encodes_key s b hs hb hlen 2 (by omega)
  have hentries : Cbor.Entries 2 _ (payloadMap timestampMs publicKey userData nonce) :=
    .cons (hkey 0x69 rfl rfl (by decide)) (hmodule.mono (by omega)) <|
    .cons (hkey 0x66 rfl rfl (by decide)) (hdigest.mono (by omega)) <|
    .cons (hkey 0x69 rfl rfl (by decide)) (htime.mono (by omega)) <|
    .cons (hkey 0x64 rfl rfl (by decide)) hpcrs <|
    .cons (hkey 0x6b rfl rfl (by decide)) (hleaf.mono (by omega)) <|
    .cons (hkey 0x68 rfl rfl (by decide)) hbundle <|
    .cons (hkey 0x6a rfl rfl (by decide)) ((encodes_entry hpk).mono (by omega)) <|
    .cons (hkey 0x69 rfl rfl (by decide)) ((encodes_entry hud).mono (by omega)) <|
    .cons (hkey 0x65 rfl rfl (by decide)) ((encodes_entry hnonce).mono (by omega)) .nil
  have hmap : Cbor.Encodes 3 (0xa9 :: _) _ := Cbor.encodes_map hentries rfl (by simp [payloadMap])
  simpa only [payloadBytes, payloadFields, Copy.written_append, Copy.written_cons,
    Copy.written_nil, Copy.single_src, List.append_assoc, List.cons_append, List.nil_append,
    List.append_nil] using hmap

theorem decode_document (timestampMs : ℕ) {publicKey userData nonce : Option (List UInt8)}
    (hfit : totalSize publicKey userData nonce ≤ 65535) (signature : Vector UInt8 96) :
    Cbor.decode (unsigned timestampMs publicKey userData nonce ++ signature.toList) =
      some (.array [.bytes [0xa1, 0x01, 0x38, 0x22], .map [],
        .bytes (payloadBytes timestampMs publicKey userData nonce),
        .bytes signature.toList]) := by
  have hsize := payloadBytes_length timestampMs publicKey userData nonce
  have hsig : signature.toList.length = 96 := by simp
  rw [totalSize] at hfit
  have hlarge : ¬payloadSize publicKey userData nonce < 256 := by
    rw [payloadSize]
    omega
  rw [unsigned]
  generalize payloadBytes timestampMs publicKey userData nonce = payload at hsize ⊢
  rw [← hsize] at hfit hlarge ⊢
  have hheader : Cbor.Encodes 1 [0x44, 0xa1, 0x01, 0x38, 0x22] (.bytes [0xa1, 0x01, 0x38, 0x22]) :=
    Cbor.encodes_bytes_short rfl (by decide)
  have hempty : Cbor.Encodes 1 [0xa0] (.map []) := Cbor.encodes_map .nil rfl (by decide)
  have hpayload := @Cbor.encodes_bytes_two payload (by omega)
  have hsigned : Cbor.Encodes 1 (0x58 :: 0x60 :: signature.toList) (.bytes signature.toList) := by
    have h := @Cbor.encodes_bytes_one signature.toList (by omega)
    rwa [hsig] at h
  have hrow : Cbor.Row 1 _ _ := .cons hheader (.cons hempty (.cons hpayload (.cons hsigned .nil)))
  have harray : Cbor.Encodes 2 (0x84 :: _) _ := Cbor.encodes_array hrow rfl (by simp)
  have hdecode := harray.decode (by simp)
  simpa only [coseHead, List.append_assoc, List.cons_append, List.nil_append,
    List.append_nil] using hdecode

theorem length_lt_encoding (payload : Option (List UInt8)) :
    payload.elim 0 List.length < payload.elim 1 fun x => encodedLen x.length := by
  cases payload with
  | none => exact Nat.one_pos
  | some payload =>
    simp only [Option.elim_some, encodedLen]
    split_ifs <;> omega

theorem lengths_of_totalSize {publicKey userData nonce : Option (List UInt8)}
    (hfit : totalSize publicKey userData nonce ≤ 65535) :
    publicKey.elim 0 List.length ≤ 65535 ∧ userData.elim 0 List.length ≤ 65535 ∧
      nonce.elim 0 List.length ≤ 65535 := by
  have hpk := length_lt_encoding publicKey
  have hud := length_lt_encoding userData
  have hnonce := length_lt_encoding nonce
  rw [totalSize, payloadSize] at hfit
  omega

section

variable {SigningKey : Type} (lib : Signing SigningKey)

theorem getAttestationDoc_large {timestampMs : ℕ} {publicKey userData nonce : Option (List UInt8)}
    (hlarge : 65535 < totalSize publicKey userData nonce) :
    ∃ e, getAttestationDoc lib timestampMs publicKey userData nonce = some (.error e) := by
  unfold getAttestationDoc
  split_ifs
  · exact ⟨_, rfl⟩
  · exact ⟨_, rfl⟩
  · exact ⟨_, rfl⟩
  · exact ⟨_, rfl⟩

/-- Once the size is right only the key and the signature can fail. -/
theorem getAttestationDoc_fits {timestampMs : ℕ} {publicKey userData nonce : Option (List UInt8)}
    (hfit : totalSize publicKey userData nonce ≤ 65535) :
    getAttestationDoc lib timestampMs publicKey userData nonce = some
      (match lib.signer with
      | .error e => .error ("failed to parse signer: " ++ e)
      | .ok signer =>
        match lib.signPrehash signer (lib.sha384 (Guest.signedBytes
          (BigEndian.encode 2 (payloadSize publicKey userData nonce))
          (payloadBytes timestampMs publicKey userData nonce))) with
        | .error e => .error ("failed to sign attestation: " ++ e)
        | .ok signature =>
          .ok (unsigned timestampMs publicKey userData nonce ++ signature.toList)) := by
  obtain ⟨hpk, hud, hnonce⟩ := lengths_of_totalSize hfit
  have hlen := unsigned_length timestampMs publicKey userData nonce
  have hsign : ∀ signature : Vector UInt8 96,
      Copy.run (unsigned timestampMs publicKey userData nonce ++ List.replicate 96 0)
        ⟨10 + payloadSize publicKey userData nonce + 2,
          10 + payloadSize publicKey userData nonce + 98, signature.toList⟩ =
        some (unsigned timestampMs publicKey userData nonce ++ signature.toList) := by
    intro signature
    have h := @Copy.run_append UInt8 (unsigned timestampMs publicKey userData nonce)
      (List.replicate 96 0)
      ⟨10 + payloadSize publicKey userData nonce + 2,
        10 + payloadSize publicKey userData nonce + 98, signature.toList⟩
      hlen.symm (by simp [hlen]) (by simp)
    simpa using h
  rw [getAttestationDoc, if_neg (by omega), if_neg (by omega), if_neg (by omega),
    if_neg (by omega), fill_eq]
  simp only [Option.bind_eq_bind, Option.bind_some, signedBytes_eq]
  cases lib.signer with
  | error e => rfl
  | ok signer =>
    dsimp only
    cases lib.signPrehash signer _ with
    | error e => rfl
    | ok signature =>
      dsimp only
      rw [hsign]
      rfl

theorem getAttestationDoc_ok {timestampMs : ℕ} {publicKey userData nonce : Option (List UInt8)}
    {doc : List UInt8}
    (hdoc : getAttestationDoc lib timestampMs publicKey userData nonce = some (.ok doc)) :
    totalSize publicKey userData nonce ≤ 65535 ∧
      ∃ signer signature, lib.signer = .ok signer ∧
        lib.signPrehash signer (lib.sha384 (Guest.signedBytes
          (BigEndian.encode 2 (payloadSize publicKey userData nonce))
          (payloadBytes timestampMs publicKey userData nonce))) = .ok signature ∧
        doc = unsigned timestampMs publicKey userData nonce ++ signature.toList := by
  have hfit : totalSize publicKey userData nonce ≤ 65535 := by
    by_contra hlarge
    obtain ⟨e, he⟩ := @getAttestationDoc_large _ lib timestampMs _ _ _ (Nat.not_le.1 hlarge)
    rw [hdoc] at he
    cases he
  refine ⟨hfit, ?_⟩
  rw [getAttestationDoc_fits lib hfit, Option.some.injEq] at hdoc
  cases hsigner : lib.signer with
  | error e =>
    rw [hsigner] at hdoc
    cases hdoc
  | ok signer =>
    rw [hsigner] at hdoc
    dsimp only at hdoc
    cases hsignature : lib.signPrehash signer _ with
    | error e =>
      rw [hsignature] at hdoc
      cases hdoc
    | ok signature =>
      rw [hsignature] at hdoc
      exact ⟨signer, signature, rfl, hsignature, (Except.ok.inj hdoc).symm⟩

theorem decode_header :
    Cbor.decode [0xa1, 0x01, 0x38, 0x22] = some (.map [(.integer 1, .integer (-35))]) := rfl

theorem getAttestationDoc_error {timestampMs : ℕ} {publicKey userData nonce : Option (List UInt8)}
    {e : String} (hfit : totalSize publicKey userData nonce ≤ 65535)
    (he : getAttestationDoc lib timestampMs publicKey userData nonce = some (.error e)) :
    (∃ e', lib.signer = .error e' ∧ e = "failed to parse signer: " ++ e') ∨
      ∃ signer digest e', lib.signer = .ok signer ∧ lib.signPrehash signer digest = .error e' ∧
        e = "failed to sign attestation: " ++ e' := by
  rw [getAttestationDoc_fits lib hfit, Option.some.injEq] at he
  cases hsigner : lib.signer with
  | error e' =>
    rw [hsigner] at he
    exact .inl ⟨e', rfl, (Except.error.inj he).symm⟩
  | ok signer =>
    rw [hsigner] at he
    dsimp only at he
    cases hsignature : lib.signPrehash signer _ with
    | error e' =>
      rw [hsignature] at he
      exact .inr ⟨signer, _, e', rfl, hsignature, (Except.error.inj he).symm⟩
    | ok signature =>
      rw [hsignature] at he
      cases he

/-- Every document is of the computed size and decodes to a signed message over a map of nine
entries, among them the arguments; what does not fit is an error, what fits is one only where the
key or the signature is, and nothing panics. -/
theorem document_wellFormed (timestampMs : ℕ) (publicKey userData nonce : Option (List UInt8)) :
    (65535 < totalSize publicKey userData nonce →
      ∃ e, getAttestationDoc lib timestampMs publicKey userData nonce = some (.error e)) ∧
    ((∃ e, getAttestationDoc lib timestampMs publicKey userData nonce = some (.error e)) ∨
      ∃ doc header payload signature,
        getAttestationDoc lib timestampMs publicKey userData nonce = some (.ok doc) ∧
        doc.length = 10 + payloadSize publicKey userData nonce + 98 ∧
        Cbor.decode doc =
          some (.array [.bytes header, .map [], .bytes payload, .bytes signature]) ∧
        Cbor.decode header = some (.map [(.integer 1, .integer (-35))]) ∧
        signature.length = 96 ∧
        payload.length = payloadSize publicKey userData nonce ∧
        Cbor.decode payload =
          some (.map (payloadMap timestampMs publicKey userData nonce))) ∧
    (totalSize publicKey userData nonce ≤ 65535 → ∀ e,
      getAttestationDoc lib timestampMs publicKey userData nonce = some (.error e) →
      (∃ e', lib.signer = .error e' ∧ e = "failed to parse signer: " ++ e') ∨
        ∃ signer digest e', lib.signer = .ok signer ∧
          lib.signPrehash signer digest = .error e' ∧
          e = "failed to sign attestation: " ++ e') := by
  refine ⟨getAttestationDoc_large lib, ?_, fun hfit e he => getAttestationDoc_error lib hfit he⟩
  by_cases hfit : totalSize publicKey userData nonce ≤ 65535
  · rw [getAttestationDoc_fits lib hfit]
    cases lib.signer with
    | error e => exact .inl ⟨_, rfl⟩
    | ok signer =>
      dsimp only
      cases lib.signPrehash signer _ with
      | error e => exact .inl ⟨_, rfl⟩
      | ok signature =>
        obtain ⟨hpk, hud, hnonce⟩ := lengths_of_totalSize hfit
        have hlen := unsigned_length timestampMs publicKey userData nonce
        have hsize := payloadBytes_length timestampMs publicKey userData nonce
        have hpayload := (encodes_payload timestampMs hpk hud hnonce).decode
          (by rw [hsize, payloadSize]; omega)
        refine .inr ⟨_, _, _, _, rfl, ?_, decode_document timestampMs hfit signature,
          decode_header, by simp, hsize, hpayload⟩
        rw [List.length_append, hlen, Vector.length_toList]
  · exact .inl (getAttestationDoc_large lib (by omega))

end

def zeroSigning : Signing Unit where
  sha384 _ := []
  signer := .ok ()
  signPrehash _ _ := .ok (Vector.replicate 96 0)

theorem document_wellFormed_zeroSigning : ∃ doc header payload signature,
    getAttestationDoc zeroSigning 1700000000000 none (some [1, 2]) none = some (.ok doc) ∧
      doc.length = 1945 ∧
      Cbor.decode doc = some (.array [.bytes header, .map [], .bytes payload, .bytes signature]) ∧
      Cbor.decode payload = some (.map (payloadMap 1700000000000 none (some [1, 2]) none)) := by
  obtain ⟨-, hdoc, herror⟩ := document_wellFormed zeroSigning 1700000000000 none (some [1, 2]) none
  rcases hdoc with ⟨e, he⟩ | ⟨doc, header, payload, signature, hdoc, hlen, hdecode, -, -, -, hmap⟩
  · obtain ⟨e', hsigner, -⟩ | ⟨signer, digest, e', -, hsignature, -⟩ := herror (by decide) e he
    · cases hsigner
    · cases hsignature
  · exact ⟨doc, header, payload, signature, hdoc, hlen, hdecode, hmap⟩

end Oyster.Attestation.Mock
