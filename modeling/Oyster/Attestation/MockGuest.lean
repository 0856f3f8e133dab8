import Oyster.Attestation.Mock

namespace Oyster.Attestation.Mock

open Guest (ascii slice u16At assertBytes Slice Journal)
open Cbor (takeN)

def Holds (a : List UInt8) (offset : ℕ) (bs : List UInt8) : Prop := bs <+: a.drop offset

theorem bind_of_some {α β : Type} {x : Option α} {v : α} (h : x = some v) (f : α → Option β) :
    (x >>= f) = f v := by
  rw [h]
  rfl

variable {a bs bs' : List UInt8} {b hi lo : UInt8} {offset : ℕ}

theorem holds_append :
    Holds a offset (bs ++ bs') ↔ Holds a offset bs ∧ Holds a (offset + bs.length) bs' := by
  unfold Holds
  rw [← List.drop_drop]
  generalize a.drop offset = rest
  constructor
  · rintro ⟨r, rfl⟩
    refine ⟨⟨bs' ++ r, (List.append_assoc ..).symm⟩, r, ?_⟩
    rw [List.append_assoc, List.drop_left]
  · rintro ⟨⟨r, rfl⟩, h⟩
    rw [List.drop_left] at h
    exact (List.prefix_append_right_inj bs).2 h

theorem holds_cons :
    Holds a offset (b :: bs) ↔ Holds a offset [b] ∧ Holds a (offset + 1) bs :=
  @holds_append a [b] bs offset

theorem Holds.get (h : Holds a offset (b :: bs)) : a[offset]? = some b :=
  Guest.singleton_initial_iff.1 (holds_cons.1 h).1

theorem Holds.assertBytes (h : Holds a offset bs) (hne : bs ≠ []) :
    assertBytes a offset bs = some () :=
  (Guest.assertBytes_iff hne).2 h

theorem Holds.u16At (h : Holds a offset [hi, lo]) :
    u16At a offset = some (BigEndian.decode [hi, lo]) :=
  Guest.u16At_eq_some.2 ⟨hi, lo, h.get, (holds_cons.1 h).2.get, rfl⟩

theorem Holds.bytes {stop : ℕ} (h : Holds a offset bs) (hstop : stop = offset + bs.length) :
    Slice.bytes a ⟨offset, stop⟩ = bs := by
  rw [Slice.bytes, hstop, Nat.add_sub_cancel_left]
  exact (List.prefix_iff_eq_take.1 h).symm

theorem Holds.slice {stop : ℕ} (h : Holds a offset bs) (hne : bs ≠ [])
    (hstop : stop = offset + bs.length) : slice a offset stop = some bs := by
  have hlen := h.length_le
  have hpos := List.length_pos_iff.2 hne
  rw [List.length_drop] at hlen
  exact Guest.slice_eq_some.2 ⟨by omega, by omega, h.bytes hstop⟩

theorem Holds.part {n m : ℕ} (h : Holds a offset bs) (hn : n ≤ bs.length) :
    Holds a (offset + n) ((bs.drop n).take m) := by
  rw [← List.take_append_drop n bs, ← List.take_append_drop m (bs.drop n)] at h
  have hpart := (holds_append.1 (holds_append.1 h).2).1
  rwa [List.length_take, Nat.min_eq_left hn] at hpart

section

variable {timestampMs : ℕ} {publicKey : Vector UInt8 64} {userData nonce : Option (List UInt8)}
  {signature : Vector UInt8 96}

def document (timestampMs : ℕ) (publicKey : Vector UInt8 64)
    (userData nonce : Option (List UInt8)) (signature : Vector UInt8 96) : List UInt8 :=
  unsigned timestampMs (some publicKey.toList) userData nonce ++ signature.toList

theorem document_holds_copy (c : Copy UInt8) (hc : c ∈ payloadFields timestampMs) :
    Holds (document timestampMs publicKey userData nonce signature) c.start c.src := by
  have hrow := (payloadFields_inRow timestampMs).1
  rw [← coseHead_length (payloadSize (some publicKey.toList) userData nonce)] at hrow
  have h := @Copy.InRow.initial_drop UInt8 _
    ([0x6a] ++ ascii "public_key" ++ encoding (some publicKey.toList) ++
      ([0x69] ++ ascii "user_data" ++ encoding userData) ++
      ([0x65] ++ ascii "nonce" ++ encoding nonce) ++ [0x58, 0x60] ++ signature.toList) c
    (payloadFields timestampMs) hrow hc
  simpa only [Holds, document, unsigned, payloadBytes, List.append_assoc] using h

theorem document_holds_pcr {i : ℕ} (hi : i < 16) (c : Copy UInt8) (hc : c ∈ pcrField i) :
    Holds (document timestampMs publicKey userData nonce signature) c.start c.src := by
  apply document_holds_copy c
  have hloop : c ∈ (List.range 16).flatMap pcrField :=
    List.mem_flatMap.2 ⟨i, List.mem_range.2 hi, hc⟩
  exact List.mem_append_left _ (List.mem_append_right _ hloop)

theorem document_holds_rest :
    Holds (document timestampMs publicKey userData nonce signature) 1815
      ([0x6a] ++ ascii "public_key" ++ [0x58, 64] ++ publicKey.toList ++
        ([0x69] ++ ascii "user_data" ++ (encoding userData ++
          ([0x65] ++ ascii "nonce" ++ encoding nonce)))) := by
  have hfixed := (payloadFields_inRow timestampMs).2
  have hhead := coseHead_length (payloadSize (some publicKey.toList) userData nonce)
  have hkey : encoding (some publicKey.toList) = [0x58, 64] ++ publicKey.toList := by
    simp [encoding, BigEndian.encode]
  have hlen : (coseHead (payloadSize (some publicKey.toList) userData nonce) ++
      Copy.written (payloadFields timestampMs)).length = 1815 := by
    rw [List.length_append, hhead, hfixed]
  refine ⟨[0x58, 0x60] ++ signature.toList, ?_⟩
  simp only [document, unsigned, payloadBytes, hkey]
  rw [← List.append_assoc (coseHead _), ← List.append_assoc (coseHead _),
    ← List.append_assoc (coseHead _)]
  simp only [List.append_assoc] at hlen ⊢
  rw [← List.append_assoc (coseHead _), List.drop_left' hlen]

theorem document_moduleId :
    Guest.moduleId (document timestampMs publicKey userData nonce signature) = some 62 := by
  have hmap := @document_holds_copy timestampMs publicKey userData nonce signature
    (.single 10 0xa9) (by simp [payloadFields])
  have hkey := @document_holds_copy timestampMs publicKey userData nonce signature
    (.single 11 0x69) (by simp [payloadFields])
  have hid := @document_holds_copy timestampMs publicKey userData nonce signature
    ⟨21, 62, [0x78, 0x27] ++ ascii "i-0d69bec447a037a2a-enc01939aab191aadd2"⟩
    (by simp [payloadFields])
  have hhead := (holds_cons.2 ⟨hmap, hkey⟩).assertBytes (by simp)
  have htext := (holds_cons.1 hid).1.assertBytes (by simp)
  have hsize := (holds_cons.1 hid).2.get
  simp only [Copy.single] at hhead htext hsize
  simp only [Guest.moduleId, hhead, htext, hsize, Option.bind_eq_bind, Option.bind_some]
  rfl

theorem document_digestTimestamp :
    Guest.digestTimestamp (document timestampMs publicKey userData nonce signature) 62 =
      some (⟨87, 95⟩, 101) := by
  have hholds := @document_holds_copy timestampMs publicKey userData nonce signature
  have hdigest := hholds ⟨62, 69, [0x66] ++ ascii "digest"⟩ (by simp [payloadFields])
  have hsha := hholds ⟨69, 76, [0x66] ++ ascii "SHA384"⟩ (by simp [payloadFields])
  have hkey := hholds ⟨76, 86, [0x69] ++ ascii "timestamp"⟩ (by simp [payloadFields])
  have hhead := hholds (.single 86 0x1b) (by simp [payloadFields])
  have htime := hholds ⟨87, 95, BigEndian.encode 8 timestampMs⟩ (by simp [payloadFields])
  have hpcrs := hholds ⟨95, 100, [0x64] ++ ascii "pcrs"⟩ (by simp [payloadFields])
  have hmap := hholds (.single 100 0xb0) (by simp [payloadFields])
  generalize document timestampMs publicKey userData nonce signature = a at *
  have h₁ := (holds_append.1 hdigest).1.assertBytes (by simp)
  have h₂ := (holds_append.1 hsha).1.assertBytes (by simp)
  have h₃ := (holds_append.1 hkey).1.assertBytes (by simp)
  have h₄ := (holds_append.1 hkey).2.assertBytes (by simp [ascii])
  have h₅ := hhead.assertBytes (by simp)
  have h₆ : slice a 87 95 = some _ :=
    htime.slice (by simp [BigEndian.encode]) (by simp)
  have h₇ := (holds_append.1 hpcrs).1.assertBytes (by simp)
  have h₈ := (holds_append.1 hpcrs).2.assertBytes (by simp [ascii])
  have h₉ := hmap.assertBytes (by simp)
  simp only [Copy.single, List.length_singleton, Nat.reduceAdd] at h₁ h₂ h₃ h₄ h₅ h₇ h₈ h₉
  simp only [Guest.digestTimestamp, Nat.reduceAdd, h₁, h₂, h₃, h₄, h₅, h₆, h₇, h₈, h₉,
    Option.bind_eq_bind, Option.bind_some]

theorem document_pcr {i : ℕ} (hi : i < 16) :
    assertBytes (document timestampMs publicKey userData nonce signature) (101 + i * 51)
        [UInt8.ofNat i, 0x58, 0x30] = some () ∧
      Holds (document timestampMs publicKey userData nonce signature) (104 + i * 51)
        (List.replicate 48 (UInt8.ofNat i)) := by
  have hholds := fun c => @document_holds_pcr timestampMs publicKey userData nonce signature i hi c
  have hkey := hholds (.single (101 + i * 51) (UInt8.ofNat i)) (by simp [pcrField])
  have hhead := hholds (.single (102 + i * 51) 0x58) (by simp [pcrField])
  have hsize := hholds (.single (103 + i * 51) 0x30) (by simp [pcrField])
  have hbytes := hholds ⟨104 + i * 51, 152 + i * 51, List.replicate 48 (UInt8.ofNat i)⟩
    (by simp [pcrField])
  simp only [Copy.single] at hkey hhead hsize
  rw [(by omega : 103 + i * 51 = 101 + i * 51 + 1 + 1)] at hsize
  rw [(by omega : 102 + i * 51 = 101 + i * 51 + 1)] at hhead
  exact ⟨(holds_cons.2 ⟨hkey, holds_cons.2 ⟨hhead, hsize⟩⟩).assertBytes (by simp), hbytes⟩

theorem document_commitPcr {i : ℕ} (hi : i < 16) :
    Guest.commitPcr (document timestampMs publicKey userData nonce signature) (101 + i * 51) i =
      some (⟨104 + i * 51, 152 + i * 51⟩, 101 + (i + 1) * 51) := by
  obtain ⟨hhead, hbytes⟩ :=
    @document_pcr timestampMs publicKey userData nonce signature i hi
  have hslice := @Holds.slice _ _ _ (152 + i * 51) hbytes (by simp) (by simp; omega)
  have hstop : 101 + i * 51 + 51 = 152 + i * 51 := by omega
  have hstart : 101 + i * 51 + 3 = 104 + i * 51 := by omega
  simp only [Guest.commitPcr, hhead, hstart, hstop, hslice, Option.bind_eq_bind, Option.bind_some]
  rw [(by omega : 152 + i * 51 = 101 + (i + 1) * 51)]

theorem document_skipPcrs {i n : ℕ} (hin : i + n ≤ 16) :
    (List.range' i n).foldlM
      (Guest.skipPcr (document timestampMs publicKey userData nonce signature))
      (101 + i * 51) = some (101 + (i + n) * 51) := by
  -- on the rounds that are left, from the register `i` on
  induction n generalizing i with
  | zero => rfl
  | succ n ih =>
    have hhead := (@document_pcr timestampMs publicKey userData nonce signature i (by omega)).1
    have hnext : 101 + i * 51 + 51 = 101 + (i + 1) * 51 := by omega
    have hrest := @ih (i + 1) (by omega)
    rw [List.range'_succ, List.foldlM_cons]
    simp only [Guest.skipPcr, hhead, hnext, Option.bind_eq_bind, Option.bind_some]
    rw [hrest]
    congr 2
    omega

variable {Certificate VerifyingKey Signature SigningKey : Type}
  {lib : Guest.Libraries Certificate VerifyingKey Signature} {signing : Signing SigningKey}
  {root leaf : Certificate}

/-- What is assumed of the libraries of both sides: the certificates parse and are valid at the
time, the root signed the leaf, and what the mock signs verifies under the key of the leaf. -/
structure Trusted (lib : Guest.Libraries Certificate VerifyingKey Signature)
    (signing : Signing SigningKey) (seconds : ℕ) (root leaf : Certificate) : Prop where
  sha384 : lib.sha384 = signing.sha384
  rootDer : lib.fromDer rootCert = some root
  leafDer : lib.fromDer leafCert = some leaf
  rootKey : lib.publicKey root = rootPublicKey
  rootValid : lib.notBefore root < seconds ∧ seconds < lib.notAfter root
  leafValid : lib.notBefore leaf < seconds ∧ seconds < lib.notAfter leaf
  leafSigned : ∃ sig vkey, lib.signatureFromDer (lib.signature leaf) = some sig ∧
    lib.verifyingKey (lib.publicKey root) = some vkey ∧
    lib.verify vkey leafTbsCertificate sig = true
  documentSigned : ∀ signer hash signature, signing.signer = .ok signer →
    signing.signPrehash signer hash = .ok signature →
      ∃ vkey sig, lib.verifyingKey (lib.publicKey leaf) = some vkey ∧
        lib.signatureFromScalars (signature.toList.take 48) (signature.toList.drop 48) =
          some sig ∧
        lib.verifyPrehash vkey hash sig = true

theorem document_leafCertificate (hleaf : lib.fromDer leafCert = some leaf) :
    Guest.leafCertificate lib (document timestampMs publicKey userData nonce signature) 917 =
      some (⟨932, 1398⟩, leaf) := by
  have hholds := @document_holds_copy timestampMs publicKey userData nonce signature
  have hkey := hholds ⟨917, 929, [0x6b] ++ ascii "certificate"⟩ (by simp [payloadFields])
  have hhead := hholds (.single 929 0x59) (by simp [payloadFields])
  have hsize := hholds ⟨930, 932, BigEndian.encode 2 leafCert.length⟩ (by simp [payloadFields])
  have hder := hholds ⟨932, 1398, leafCert⟩ (by simp [payloadFields])
  rw [leafCert_length] at hsize
  generalize document timestampMs publicKey userData nonce signature = a at *
  have h₁ := (holds_append.1 hkey).1.assertBytes (by simp)
  have h₂ := (holds_append.1 hkey).2.assertBytes (by simp [ascii])
  have h₃ := hhead.assertBytes (by simp)
  have h₄ : u16At a 930 = some 466 := @Holds.u16At _ 0x01 0xd2 _ hsize
  have h₅ : slice a 932 1398 = some leafCert :=
    hder.slice (List.ne_nil_of_length_pos (by simp)) (by simp)
  simp only [Copy.single, List.length_singleton, Nat.reduceAdd] at h₁ h₂ h₃
  simp only [Guest.leafCertificate, Guest.certificate, Nat.reduceAdd, h₁, h₂, h₃, h₄, h₅, hleaf,
    Option.bind_eq_bind, Option.bind_some]

theorem document_verifyCertificate {seconds : ℕ} (trusted : Trusted lib signing seconds root leaf) :
    Guest.verifyCertificate lib (document timestampMs publicKey userData nonce signature) 932
      leaf root = some () := by
  obtain ⟨sig, vkey, hsig, hvkey, hverify⟩ := trusted.leafSigned
  have hder := @document_holds_copy timestampMs publicKey userData nonce signature
    ⟨932, 1398, leafCert⟩ (by simp [payloadFields])
  generalize document timestampMs publicKey userData nonce signature = a at *
  have hheads := @Holds.part _ _ _ 0 8 hder (by simp)
  have htbs : Holds a 936 leafTbsCertificate := @Holds.part _ _ _ 4 343 hder (by simp)
  rw [List.drop_zero, leafCert_heads] at hheads
  have htail := (holds_append.1 (show Holds a 932 ([0x30, 0x82, 0x01, 0xce] ++
    [0x30, 0x82, 0x01, 0x53]) from hheads)).2
  have h₁ := (holds_cons.1 hheads).1.assertBytes (by simp)
  have h₂ := (holds_cons.1 (holds_cons.1 hheads).2).1.assertBytes (by simp)
  have h₃ := (holds_cons.1 htail).1.assertBytes (by simp)
  have h₄ := (holds_cons.1 (holds_cons.1 htail).2).1.assertBytes (by simp)
  have h₅ : u16At a 938 = some 339 := (holds_cons.1 (holds_cons.1 htail).2).2.u16At
  have h₆ : slice a 936 1279 = some leafTbsCertificate :=
    htbs.slice (List.ne_nil_of_length_pos (by rw [leafTbsCertificate_length]; omega))
      (by rw [leafTbsCertificate_length])
  simp only [List.length_cons, List.length_nil, Nat.reduceAdd] at h₁ h₂ h₃ h₄
  simp only [Guest.verifyCertificate, Nat.reduceAdd, h₁, h₂, h₃, h₄, h₅, h₆, hsig, hvkey,
    hverify, Option.bind_eq_bind, Option.bind_some]
  rfl

theorem document_certificateChain {seconds : ℕ} (trusted : Trusted lib signing seconds root leaf) :
    Guest.certificateChain lib (document timestampMs publicKey userData nonce signature) seconds
      ⟨932, 1398⟩ leaf 1398 = some (⟨1411, 1815⟩, rootPublicKey.drop 1, 1815) := by
  have hverify := @document_verifyCertificate timestampMs publicKey userData nonce signature
    _ _ _ _ _ _ _ _ _ trusted
  have hholds := @document_holds_copy timestampMs publicKey userData nonce signature
  have hkey := hholds ⟨1398, 1407, [0x68] ++ ascii "cabundle"⟩ (by simp [payloadFields])
  have harray := hholds (.single 1407 0x81) (by simp [payloadFields])
  have hhead := hholds (.single 1408 0x59) (by simp [payloadFields])
  have hsize := hholds ⟨1409, 1411, BigEndian.encode 2 rootCert.length⟩ (by simp [payloadFields])
  have hder := hholds ⟨1411, 1815, rootCert⟩ (by simp [payloadFields])
  rw [rootCert_length] at hsize
  generalize document timestampMs publicKey userData nonce signature = a at *
  have h₁ := (holds_append.1 hkey).1.assertBytes (by simp)
  have h₂ := (holds_append.1 hkey).2.assertBytes (by simp [ascii])
  have h₃ : a[1407]? = some 0x81 := harray.get
  have h₄ := hhead.assertBytes (by simp)
  have h₅ : u16At a 1409 = some 404 := @Holds.u16At _ 0x01 0x94 _ hsize
  have h₆ : slice a 1411 1815 = some rootCert :=
    hder.slice (List.ne_nil_of_length_pos (by simp)) (by simp)
  have hroot : Guest.assertValidity lib seconds root = some () := if_pos trusted.rootValid
  have hleaf : Guest.assertValidity lib seconds leaf = some () := if_pos trusted.leafValid
  simp only [Copy.single, List.length_singleton, Nat.reduceAdd] at h₁ h₂ h₄
  simp only [Guest.certificateChain, Guest.certificate, Nat.reduceAdd, h₁, h₂, h₃, h₄, h₅, h₆,
    trusted.rootDer, hroot, hleaf, trusted.rootKey, rootPublicKey_length, rootPublicKey_head,
    UInt8.reduceToNat, Nat.reduceSub, Guest.verifyChildren, Option.bind_eq_bind,
    Option.bind_some]
  simp [hverify, guard]

theorem document_publicKey :
    Guest.publicKey (document timestampMs publicKey userData nonce signature) 1815 =
      some (⟨1827, 1828⟩, ⟨1828, 1892⟩, 1892) := by
  have hrest := @document_holds_rest timestampMs publicKey userData nonce signature
  generalize document timestampMs publicKey userData nonce signature = a at *
  have hname : (ascii "public_key").length = 10 := rfl
  simp only [holds_append, List.length_append, List.length_singleton, hname, Nat.reduceAdd]
    at hrest
  obtain ⟨⟨⟨⟨hhead, hkey⟩, hsize⟩, hbytes⟩, _⟩ := hrest
  have h₁ := hhead.assertBytes (by simp)
  have h₂ := hkey.assertBytes (List.ne_nil_of_length_pos (by rw [hname]; omega))
  have h₃ := (holds_cons.1 hsize).1.assertBytes (by simp)
  have h₄ := (holds_cons.1 hsize).2.get
  have h₅ : slice a 1828 1892 = some publicKey.toList :=
    hbytes.slice (List.ne_nil_of_length_pos (by simp)) (by simp)
  simp only [Nat.reduceAdd] at h₄
  simp only [Guest.publicKey, Nat.reduceAdd, h₁, h₂, h₃, h₄, h₅, UInt8.reduceToNat,
    Option.bind_eq_bind, Option.bind_some]

theorem document_holds_key :
    Slice.bytes (document timestampMs publicKey userData nonce signature) ⟨1827, 1828⟩ = [64] ∧
      Slice.bytes (document timestampMs publicKey userData nonce signature) ⟨1828, 1892⟩ =
        publicKey.toList := by
  have hrest := @document_holds_rest timestampMs publicKey userData nonce signature
  have hkey := (holds_append.1 hrest).1
  have hsize := (holds_append.1 (holds_append.1 hkey).1).2
  exact ⟨@Holds.bytes _ _ 1827 _ (holds_cons.1 hsize).2 rfl,
    @Holds.bytes _ _ 1828 _ (holds_append.1 hkey).2 (by simp)⟩

theorem document_holds_userData :
    Holds (document timestampMs publicKey userData nonce signature) 1892
        ([0x69] ++ ascii "user_data") ∧
      Holds (document timestampMs publicKey userData nonce signature) 1902
        (encoding userData) := by
  have hrest := @document_holds_rest timestampMs publicKey userData nonce signature
  have hafter := (holds_append.1 hrest).2
  have hoffset : 1815 + ([0x6a] ++ ascii "public_key" ++ [0x58, 64] ++
      publicKey.toList).length = 1892 := by
    simp [ascii]
  rw [hoffset] at hafter
  have hname := holds_append.1 hafter
  exact ⟨hname.1, (holds_append.1 hname.2).1⟩

theorem document_userData (hlong : ∀ data ∈ userData, 24 ≤ data.length)
    (hmax : userData.elim 0 List.length ≤ 65535) :
    ∃ s, Guest.userData (document timestampMs publicKey userData nonce signature) 1892 =
        some ((userData.getD []).length, s) ∧
      s.bytes (document timestampMs publicKey userData nonce signature) = userData.getD [] := by
  obtain ⟨hname, hdata⟩ :=
    @document_holds_userData timestampMs publicKey userData nonce signature
  generalize document timestampMs publicKey userData nonce signature = a at *
  have h₁ := (holds_append.1 hname).1.assertBytes (by simp)
  have h₂ := (holds_append.1 hname).2.assertBytes (by simp [ascii])
  simp only [List.length_singleton, Nat.reduceAdd] at h₂
  cases userData with
  | none =>
    have h₃ : a[1902]? = some 0xf6 := hdata.get
    refine ⟨⟨0, 0⟩, ?_, by simp [Slice.bytes]⟩
    simp only [Guest.userData, Nat.reduceAdd, h₁, h₂, h₃, Option.bind_eq_bind, Option.bind_some,
      if_pos]
    rfl
  | some data =>
    have hshort : ¬data.length < 24 := Nat.not_lt.2 (hlong data rfl)
    have hne : data ≠ [] := List.ne_nil_of_length_pos (by omega)
    rw [Option.elim_some] at hmax
    rw [encoding, if_neg hshort] at hdata
    by_cases hone : data.length < 256
    · rw [if_pos hone] at hdata
      have hsize : (UInt8.ofNat data.length).toNat = data.length := by
        rw [UInt8.toNat_ofNat']
        omega
      have hparts := holds_append.1 hdata
      have h₃ : a[1902]? = some 0x58 := hparts.1.get
      have h₄ : a[1903]? = some (UInt8.ofNat data.length) := (holds_cons.1 hparts.1).2.get
      have h₅ : slice a 1904 (1904 + data.length) = some data := hparts.2.slice hne rfl
      refine ⟨⟨1904, 1904 + data.length⟩, ?_, hparts.2.bytes rfl⟩
      simp only [Guest.userData, Nat.reduceAdd, h₁, h₂, h₃, h₄, hsize, Option.bind_eq_bind,
        Option.bind_some, if_pos, if_neg (by decide : ¬(0x58 : UInt8) = 0xf6), h₅,
        Option.getD_some]
    · rw [if_neg hone] at hdata
      have hsize : BigEndian.decode (BigEndian.encode 2 data.length) = data.length := by
        rw [BigEndian.decode_encode]
        exact Nat.mod_eq_of_lt (by omega)
      have hparts := holds_append.1 hdata
      have h₃ : a[1902]? = some 0x59 := hparts.1.get
      have h₄ : assertBytes a 1902 [0x59] = some () :=
        (holds_cons.1 hparts.1).1.assertBytes (by simp)
      have h₅ : u16At a 1903 = some data.length := by
        rw [← hsize]
        exact Holds.u16At (holds_cons.1 hparts.1).2
      have h₆ : slice a 1905 (1905 + data.length) = some data := hparts.2.slice hne rfl
      refine ⟨⟨1905, 1905 + data.length⟩, ?_, hparts.2.bytes rfl⟩
      simp only [Guest.userData, Nat.reduceAdd, h₁, h₂, h₃, h₄, h₅, h₆, Option.bind_eq_bind,
        Option.bind_some, if_neg (by decide : ¬(0x59 : UInt8) = 0xf6),
        if_neg (by decide : ¬(0x59 : UInt8) = 0x58), Option.getD_some]

/-- Short user data has its length in its head, which the guest takes for a head of a length of
two bytes. -/
theorem document_userData_short {data : List UInt8} (hshort : data.length < 24) :
    Guest.userData (document timestampMs publicKey (some data) nonce signature) 1892 = none := by
  obtain ⟨hname, hdata⟩ :=
    @document_holds_userData timestampMs publicKey (some data) nonce signature
  generalize document timestampMs publicKey (some data) nonce signature = a at *
  have h₁ := (holds_append.1 hname).1.assertBytes (by simp)
  have h₂ := (holds_append.1 hname).2.assertBytes (by simp [ascii])
  simp only [List.length_singleton, Nat.reduceAdd] at h₂
  rw [encoding, if_pos hshort] at hdata
  have hhead : (0x40 + UInt8.ofNat data.length).toNat = 64 + data.length := by
    rw [UInt8.toNat_add, UInt8.toNat_ofNat']
    show (64 + data.length % 256) % 256 = 64 + data.length
    omega
  have hnot : ∀ b : UInt8, 88 ≤ b.toNat → 0x40 + UInt8.ofNat data.length ≠ b := by
    rintro b hb rfl
    omega
  have h₃ := hdata.get
  have h₄ : assertBytes a 1902 [0x59] = none := by
    rw [Option.eq_none_iff_forall_ne_some]
    intro _ h
    have hget := Guest.singleton_initial_iff.1 ((Guest.assertBytes_iff (by simp)).1 h)
    rw [h₃, Option.some.injEq] at hget
    exact hnot 0x59 (by decide) hget
  simp only [Guest.userData, Nat.reduceAdd, h₁, h₂, h₃, h₄, Option.bind_eq_bind,
    Option.bind_some, if_neg (hnot 0xf6 (by decide)), if_neg (hnot 0x58 (by decide)),
    Option.bind_none]

theorem document_holds_parts {size : ℕ}
    (hsize : payloadSize (some publicKey.toList) userData nonce = size) :
    Holds (document timestampMs publicKey userData nonce signature) 0
        [0x84, 0x44, 0xa1, 0x01, 0x38, 0x22, 0xa0, 0x59] ∧
      Holds (document timestampMs publicKey userData nonce signature) 8
        (BigEndian.encode 2 size) ∧
      Holds (document timestampMs publicKey userData nonce signature) 10
        (payloadBytes timestampMs (some publicKey.toList) userData nonce) ∧
      Holds (document timestampMs publicKey userData nonce signature) (size + 10)
        [0x58, 0x60] ∧
      Holds (document timestampMs publicKey userData nonce signature) (size + 12)
        signature.toList := by
  have hlen := payloadBytes_length timestampMs (some publicKey.toList) userData nonce
  rw [hsize] at hlen
  have hwhole : Holds (document timestampMs publicKey userData nonce signature) 0
      (coseHead size ++ payloadBytes timestampMs (some publicKey.toList) userData nonce ++
        [0x58, 0x60] ++ signature.toList) := by
    simp only [Holds, List.drop_zero, document, unsigned, hsize, List.prefix_rfl]
  obtain ⟨hsigned, hsig⟩ := holds_append.1 hwhole
  obtain ⟨hpayload, htail⟩ := holds_append.1 hsigned
  obtain ⟨hcose, hpayload⟩ := holds_append.1 hpayload
  obtain ⟨hmagic, hcount⟩ := holds_append.1 hcose
  rw [List.length_append, List.length_append, coseHead_length, hlen] at hsig
  rw [List.length_append, coseHead_length, hlen] at htail
  rw [coseHead_length] at hpayload
  rw [(by omega : size + 10 = 0 + (10 + size)),
    (by rw [List.length_cons, List.length_singleton]; omega :
      size + 12 = 0 + (10 + size + [(0x58 : UInt8), 0x60].length))]
  exact ⟨hmagic, hcount, hpayload, htail, hsig⟩

theorem document_cose
    (hfit : totalSize (some publicKey.toList) userData nonce ≤ 65535) :
    Guest.cose (document timestampMs publicKey userData nonce signature) =
      some (payloadSize (some publicKey.toList) userData nonce) := by
  have hlen : (document timestampMs publicKey userData nonce signature).length =
      10 + payloadSize (some publicKey.toList) userData nonce + 98 := by
    rw [document, List.length_append, unsigned_length, Vector.length_toList]
  generalize hsize : payloadSize (some publicKey.toList) userData nonce = size at hlen ⊢
  obtain ⟨hmagic, hcount, _⟩ :=
    @document_holds_parts timestampMs publicKey userData nonce signature size hsize
  rw [totalSize, hsize] at hfit
  have h₁ := hmagic.assertBytes (by simp)
  have h₂ : u16At (document timestampMs publicKey userData nonce signature) 8 = some size := by
    have hread : u16At (document timestampMs publicKey userData nonce signature) 8 =
        some (BigEndian.decode (BigEndian.encode 2 size)) := @Holds.u16At _ _ _ _ hcount
    rw [hread, BigEndian.decode_encode]
    exact congrArg some (Nat.mod_eq_of_lt (by omega))
  simp only [Guest.cose, h₁, h₂, Option.bind_eq_bind, Option.bind_some, guard, if_pos hlen]
  rfl

theorem document_verifySignature {seconds : ℕ} {signer : SigningKey}
    (trusted : Trusted lib signing seconds root leaf) (hsigner : signing.signer = .ok signer)
    (hsignature : signing.signPrehash signer (signing.sha384 (Guest.signedBytes
      (BigEndian.encode 2 (payloadSize (some publicKey.toList) userData nonce))
      (payloadBytes timestampMs (some publicKey.toList) userData nonce))) = .ok signature) :
    Guest.verifySignature lib (document timestampMs publicKey userData nonce signature)
      (payloadSize (some publicKey.toList) userData nonce) leaf = some () := by
  obtain ⟨vkey, sig, hvkey, hsig, hverify⟩ :=
    trusted.documentSigned signer _ signature hsigner hsignature
  have hlen := payloadBytes_length timestampMs (some publicKey.toList) userData nonce
  generalize hsize : payloadSize (some publicKey.toList) userData nonce = size at *
  obtain ⟨_, hcount, hpayload, htail, hsigned⟩ :=
    @document_holds_parts timestampMs publicKey userData nonce signature size hsize
  generalize document timestampMs publicKey userData nonce signature = a at *
  generalize payloadBytes timestampMs (some publicKey.toList) userData nonce = payload at *
  rw [← List.take_append_drop 48 signature.toList] at hsigned
  obtain ⟨hr, hs⟩ := holds_append.1 hsigned
  have hrlen : (signature.toList.take 48).length = 48 := by simp
  have hslen : (signature.toList.drop 48).length = 48 := by simp
  rw [hrlen] at hs
  have h₁ : slice a 8 10 = some (BigEndian.encode 2 size) :=
    hcount.slice (List.ne_nil_of_length_pos (by simp)) (by simp)
  have h₂ : slice a 10 (10 + size) = some payload := by
    apply hpayload.slice _ (by rw [hlen])
    apply List.ne_nil_of_length_pos
    rw [hlen, ← hsize, payloadSize]
    omega
  have h₃ := (holds_cons.1 htail).1.assertBytes (by simp)
  have h₄ := (holds_cons.1 htail).2.assertBytes (by simp)
  have h₅ : slice a (12 + size) (60 + size) = some (signature.toList.take 48) := by
    rw [Nat.add_comm 12]
    exact hr.slice (List.ne_nil_of_length_pos (by omega)) (by omega)
  have h₆ : slice a (60 + size) (108 + size) = some (signature.toList.drop 48) := by
    rw [(by omega : 60 + size = size + 12 + 48)]
    exact hs.slice (List.ne_nil_of_length_pos (by omega)) (by omega)
  rw [← trusted.sha384] at hverify
  simp only [Guest.verifySignature, h₁, h₂, h₃, h₄, h₅, h₆, hvkey, hsig, hverify,
    Option.bind_eq_bind, Option.bind_some]
  rfl

/-- The journal by its documented format. -/
structure JournalFields where
  timestamp : ℕ
  pcr0 : List UInt8
  pcr1 : List UInt8
  pcr2 : List UInt8
  rootKey : List UInt8
  publicKey : List UInt8
  userData : List UInt8
deriving DecidableEq, Repr

def readJournal (bs : List UInt8) : Option JournalFields := do
  let (timestamp, bs) ← takeN 8 bs
  let (pcr0, bs) ← takeN 48 bs
  let (pcr1, bs) ← takeN 48 bs
  let (pcr2, bs) ← takeN 48 bs
  let (rootKey, bs) ← takeN 96 bs
  let (publicKeyLen, bs) ← takeN 1 bs
  let (publicKey, bs) ← takeN (BigEndian.decode publicKeyLen) bs
  let (userDataLen, bs) ← takeN 2 bs
  let (userData, bs) ← takeN (BigEndian.decode userDataLen) bs
  guard (bs = [])
  some { timestamp := BigEndian.decode timestamp, pcr0, pcr1, pcr2, rootKey, publicKey, userData }

theorem takeN_of_length {s rest : List UInt8} {n : ℕ} (h : s.length = n) :
    takeN n (s ++ rest) = some (s, rest) := by
  rw [← h]
  exact Cbor.takeN_append s rest

theorem readJournal_eq {pcr0 pcr1 pcr2 rootKey publicKey userData : List UInt8}
    (h₀ : pcr0.length = 48) (h₁ : pcr1.length = 48) (h₂ : pcr2.length = 48)
    (hroot : rootKey.length = 96) (hkey : publicKey.length = 64) (hdata : userData.length ≤ 65535) :
    readJournal (BigEndian.encode 8 timestampMs ++ pcr0 ++ pcr1 ++ pcr2 ++ rootKey ++ [64] ++
      publicKey ++ BigEndian.encode 2 userData.length ++ userData) =
        some ⟨timestampMs % 18446744073709551616, pcr0, pcr1, pcr2, rootKey, publicKey,
          userData⟩ := by
  have htime : BigEndian.decode (BigEndian.encode 8 timestampMs) =
      timestampMs % 18446744073709551616 := BigEndian.decode_encode 8 timestampMs
  have hcount : BigEndian.decode (BigEndian.encode 2 userData.length) = userData.length := by
    rw [BigEndian.decode_encode]
    exact Nat.mod_eq_of_lt (by omega)
  have hlast : takeN userData.length userData = some (userData, []) := by
    have h := Cbor.takeN_append userData []
    rwa [List.append_nil] at h
  simp only [List.append_assoc]
  rw [readJournal]
  refine (bind_of_some (takeN_of_length (BigEndian.length_encode 8 timestampMs)) _).trans ?_
  refine (bind_of_some (takeN_of_length h₀) _).trans ?_
  refine (bind_of_some (takeN_of_length h₁) _).trans ?_
  refine (bind_of_some (takeN_of_length h₂) _).trans ?_
  refine (bind_of_some (takeN_of_length hroot) _).trans ?_
  refine (bind_of_some (@takeN_of_length [64] _ 1 rfl) _).trans ?_
  refine (bind_of_some (takeN_of_length hkey) _).trans ?_
  refine (bind_of_some (takeN_of_length (BigEndian.length_encode 2 userData.length)) _).trans ?_
  dsimp only
  rw [hcount]
  refine (bind_of_some hlast _).trans ?_
  rw [← htime]
  rfl

def committed (userDataSize : ℕ) (userData : Slice) : Journal where
  timestamp := ⟨87, 95⟩
  pcr0 := ⟨104, 152⟩
  pcr1 := ⟨155, 203⟩
  pcr2 := ⟨206, 254⟩
  rootCert := ⟨1411, 1815⟩
  rootKey := rootPublicKey.drop 1
  publicKeyLen := ⟨1827, 1828⟩
  publicKey := ⟨1828, 1892⟩
  userDataSize := userDataSize
  userData := userData

theorem document_timestamp :
    Slice.bytes (document timestampMs publicKey userData nonce signature) ⟨87, 95⟩ =
      BigEndian.encode 8 timestampMs := by
  have h := @document_holds_copy timestampMs publicKey userData nonce signature
    ⟨87, 95, BigEndian.encode 8 timestampMs⟩ (by simp [payloadFields])
  exact h.bytes (by simp)

/-- The guest stops at the user data, or reads the rest as it was written. -/
theorem main_document {signer : SigningKey}
    (hfit : totalSize (some publicKey.toList) userData nonce ≤ 65535)
    (trusted : Trusted lib signing (timestampMs % 18446744073709551616 / 1000) root leaf)
    (hsigner : signing.signer = .ok signer)
    (hsignature : signing.signPrehash signer (signing.sha384 (Guest.signedBytes
      (BigEndian.encode 2 (payloadSize (some publicKey.toList) userData nonce))
      (payloadBytes timestampMs (some publicKey.toList) userData nonce))) = .ok signature) :
    Guest.main lib (document timestampMs publicKey userData nonce signature) =
      (Guest.userData (document timestampMs publicKey userData nonce signature) 1892).map
        fun r => committed r.1 r.2 := by
  have hseconds : BigEndian.decode (Slice.bytes
      (document timestampMs publicKey userData nonce signature) ⟨87, 95⟩) / 1000 =
        timestampMs % 18446744073709551616 / 1000 := by
    rw [document_timestamp, BigEndian.decode_encode]
    rfl
  have hcose := @document_cose timestampMs publicKey userData nonce signature hfit
  have hverify := document_verifySignature trusted hsigner hsignature
  have hchain := @document_certificateChain timestampMs publicKey userData nonce signature
    _ _ _ _ _ _ _ _ _ trusted
  have hleaf := @document_leafCertificate timestampMs publicKey userData nonce signature
    _ _ _ _ _ trusted.leafDer
  have hmodule := @document_moduleId timestampMs publicKey userData nonce signature
  have hdigest := @document_digestTimestamp timestampMs publicKey userData nonce signature
  have hpcr := @document_commitPcr timestampMs publicKey userData nonce signature
  have hskip := @document_skipPcrs timestampMs publicKey userData nonce signature 3 13 le_rfl
  have hkey := @document_publicKey timestampMs publicKey userData nonce signature
  have h₀ := hpcr (by omega : 0 < 16)
  have h₁ := hpcr (by omega : 1 < 16)
  have h₂ := hpcr (by omega : 2 < 16)
  simp only [Nat.reduceAdd, Nat.reduceMul] at h₀ h₁ h₂ hskip
  clear hpcr
  generalize document timestampMs publicKey userData nonce signature = a at *
  rw [Guest.main]
  refine (bind_of_some hcose _).trans ?_
  refine (bind_of_some hmodule _).trans ?_
  refine (bind_of_some hdigest _).trans ?_
  refine (bind_of_some h₀ _).trans ?_
  refine (bind_of_some h₁ _).trans ?_
  refine (bind_of_some h₂ _).trans ?_
  refine (bind_of_some hskip _).trans ?_
  refine (bind_of_some hleaf _).trans ?_
  rw [hseconds]
  refine (bind_of_some hchain _).trans ?_
  refine (bind_of_some hkey _).trans ?_
  show (Guest.userData a 1892 >>= _) = _
  cases Guest.userData a 1892 with
  | none => rfl
  | some r => exact bind_of_some hverify _

theorem committed_bytes {data : Slice}
    (hdata : data.bytes (document timestampMs publicKey userData nonce signature) =
      userData.getD []) :
    (committed (userData.getD []).length data).bytes
        (document timestampMs publicKey userData nonce signature) =
      BigEndian.encode 8 timestampMs ++ List.replicate 48 0 ++ List.replicate 48 1 ++
        List.replicate 48 2 ++ rootPublicKey.drop 1 ++ [64] ++ publicKey.toList ++
        BigEndian.encode 2 (userData.getD []).length ++ userData.getD [] := by
  have htime := @document_timestamp timestampMs publicKey userData nonce signature
  have hpcr := @document_pcr timestampMs publicKey userData nonce signature
  have h₀ := @Holds.bytes _ _ _ 152 (hpcr (by omega : 0 < 16)).2 (by simp)
  have h₁ := @Holds.bytes _ _ _ 203 (hpcr (by omega : 1 < 16)).2 (by simp)
  have h₂ := @Holds.bytes _ _ _ 254 (hpcr (by omega : 2 < 16)).2 (by simp)
  obtain ⟨hlen, hkey⟩ := @document_holds_key timestampMs publicKey userData nonce signature
  simp only [Nat.reduceMul, Nat.reduceAdd] at h₀ h₁ h₂
  clear hpcr
  generalize document timestampMs publicKey userData nonce signature = a at *
  rw [Journal.bytes, committed, htime, h₀, h₁, h₂, hlen, hkey, hdata]
  rfl

def expected (timestampMs : ℕ) (publicKey : Vector UInt8 64) (userData : Option (List UInt8)) :
    JournalFields where
  timestamp := timestampMs % 18446744073709551616
  pcr0 := List.replicate 48 0
  pcr1 := List.replicate 48 1
  pcr2 := List.replicate 48 2
  rootKey := rootPublicKey.drop 1
  publicKey := publicKey.toList
  userData := userData.getD []

theorem main_of_long {doc : List UInt8}
    (trusted : Trusted lib signing (timestampMs % 18446744073709551616 / 1000) root leaf)
    (hdoc : getAttestationDoc signing timestampMs (some publicKey.toList) userData nonce =
      some (.ok doc)) (hlong : ∀ data ∈ userData, 24 ≤ data.length) :
    ∃ j, Guest.main lib doc = some j ∧
      readJournal (j.bytes doc) = some (expected timestampMs publicKey userData) := by
  obtain ⟨hfit, signer, signature, hsigner, hsignature, rfl⟩ := getAttestationDoc_ok signing hdoc
  obtain ⟨-, hmax, -⟩ := lengths_of_totalSize hfit
  obtain ⟨data, huserData, hdata⟩ :=
    @document_userData timestampMs publicKey userData nonce signature hlong hmax
  have hmain := main_document hfit trusted hsigner hsignature
  rw [huserData] at hmain
  refine ⟨_, hmain, ?_⟩
  show readJournal ((committed (userData.getD []).length data).bytes
    (document timestampMs publicKey userData nonce signature)) = _
  rw [committed_bytes hdata]
  apply readJournal_eq (by simp) (by simp) (by simp)
  · rw [List.length_drop, rootPublicKey_length]
  · simp
  · cases userData with
    | none => simp
    | some data => exact hmax

theorem main_of_short {doc data : List UInt8}
    (trusted : Trusted lib signing (timestampMs % 18446744073709551616 / 1000) root leaf)
    (hdoc : getAttestationDoc signing timestampMs (some publicKey.toList) (some data) nonce =
      some (.ok doc)) (hshort : data.length < 24) : Guest.main lib doc = none := by
  obtain ⟨hfit, signer, signature, hsigner, hsignature, rfl⟩ := getAttestationDoc_ok signing hdoc
  have hmain := main_document hfit trusted hsigner hsignature
  rwa [document_userData_short hshort] at hmain

/-- The guest accepts the document and its journal has what the mock was given, exactly when the
user data is absent or has at least 24 bytes. -/
theorem agrees_iff {doc : List UInt8}
    (trusted : Trusted lib signing (timestampMs % 18446744073709551616 / 1000) root leaf)
    (hdoc : getAttestationDoc signing timestampMs (some publicKey.toList) userData nonce =
      some (.ok doc)) :
    (∃ j, Guest.main lib doc = some j ∧
      readJournal (j.bytes doc) = some (expected timestampMs publicKey userData)) ↔
      ∀ data ∈ userData, 24 ≤ data.length := by
  constructor
  · rintro ⟨j, hj, _⟩ data hdata
    rw [Option.mem_def] at hdata
    subst hdata
    by_contra hshort
    rw [main_of_short trusted hdoc (Nat.not_le.1 hshort)] at hj
    cases hj
  · exact main_of_long trusted hdoc

end

namespace Sample

def libraries : Guest.Libraries (List UInt8) (List UInt8) (List UInt8) where
  fromDer der := some der
  notBefore _ := 1600000000
  notAfter _ := 4000000000
  publicKey der := if der.length = 404 then (der.drop 119).take 97 else (der.drop 135).take 97
  signature _ := []
  verifyingKey key := some key
  signatureFromDer der := some der
  signatureFromScalars r s := some (r ++ s)
  verify _ _ _ := true
  verifyPrehash _ _ _ := true
  sha384 bs := bs.take 48

def signing : Signing Unit where
  sha384 bs := bs.take 48
  signer := .ok ()
  signPrehash _ _ := .ok (Vector.replicate 96 5)

theorem trusted : Trusted libraries signing 1700000000 rootCert leafCert where
  sha384 := rfl
  rootDer := rfl
  leafDer := rfl
  rootKey := by simp only [libraries, rootCert_length, if_pos, rootPublicKey]
  rootValid := by decide
  leafValid := by decide
  leafSigned := ⟨_, _, rfl, rfl, rfl⟩
  documentSigned _ _ _ _ _ := ⟨_, _, rfl, rfl, rfl⟩

theorem signed (userData : Option (List UInt8))
    (hfit : totalSize (some (Vector.replicate 64 7).toList) userData none ≤ 65535) :
    ∃ doc, getAttestationDoc signing 1700000000000 (some (Vector.replicate 64 7).toList) userData
      none = some (.ok doc) :=
  ⟨_, getAttestationDoc_fits signing hfit⟩

theorem long_accepted : ∃ doc j,
    getAttestationDoc signing 1700000000000 (some (Vector.replicate 64 7).toList)
      (some (List.replicate 24 1)) none = some (.ok doc) ∧
    Guest.main libraries doc = some j ∧
    readJournal (j.bytes doc) =
      some (expected 1700000000000 (Vector.replicate 64 7) (some (List.replicate 24 1))) := by
  obtain ⟨doc, hdoc⟩ := signed (some (List.replicate 24 1)) (by decide)
  obtain ⟨j, hj, hread⟩ := (agrees_iff trusted hdoc).2 (by simp)
  exact ⟨doc, j, hdoc, hj, hread⟩

/-- User data of one byte. -/
theorem short_rejected : ∃ doc,
    getAttestationDoc signing 1700000000000 (some (Vector.replicate 64 7).toList) (some [1]) none =
      some (.ok doc) ∧
    Trusted libraries signing 1700000000 rootCert leafCert ∧
    Guest.main libraries doc = none := by
  obtain ⟨doc, hdoc⟩ := signed (some [1]) (by decide)
  exact ⟨doc, hdoc, trusted, main_of_short trusted hdoc (by decide)⟩

end Sample

end Oyster.Attestation.Mock
