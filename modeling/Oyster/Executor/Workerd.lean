import Mathlib.Data.List.DropRight
import Oyster.ControlPlane.Types
import Oyster.Lib.Abi
import Oyster.Lib.Hex

namespace Oyster.Executor.Workerd

open ControlPlane (Json)
open Fallible

inductive ServerlessError where
  | txDataRetrieve
  | txNotFound
  | invalidTxToType
  | invalidTxToValue (contractAddress contract : String)
  | invalidTxCalldataType
  | invalidTxCalldataLength
  | invalidTxCalldata
  | badCalldata (e : Hex.FromHexError)
  | codeFileCreate

/-- `v[key].take()`: indexing anything but an object or `Null` panics. -/
def takeField (v : Json) (key : String) : Option Json :=
  match v with
  | .obj fields => some ((fields.lookup key).getD .null)
  | .null => some .null
  | _ => none

def byteLen (cs : List Char) : ℕ := (cs.map Char.utf8Size).sum

def utf8 (cs : List Char) : List UInt8 := cs.flatMap String.utf8EncodeChar

/-- `&text[n..]` panics if `n` is inside a character. -/
def dropBytes : ℕ → List Char → Option (List Char)
  | 0, cs => some cs
  | _ + 1, [] => none
  | n + 1, c :: cs => if c.utf8Size ≤ n + 1 then dropBytes (n + 1 - c.utf8Size) cs else none

/-- The selector of the call and the offset of its argument. -/
def callHead : String :=
  "0xff7cdaf30000000000000000000000000000000000000000000000000000000000000020"

/-- Without its trailing zeros, unless there is nothing else. -/
def stripZeros (calldata : List UInt8) : List UInt8 :=
  let idx := (calldata.reverse.findIdx? (· != 0)).getD 0
  calldata.take (calldata.length - idx)

def decodeCalldata (calldata : String) : Option (Except ServerlessError (List UInt8)) :=
  if byteLen calldata.toList < 138 then some (.error .invalidTxCalldataLength)
  else if !callHead.toList.isPrefixOf calldata.toList then some (.error .invalidTxCalldata)
  else (dropBytes 138 calldata.toList).map fun text => do
    let calldata ← (Hex.decode (utf8 text)).mapError .badCalldata
    return stripZeros calldata

/-- `rpc` is the response to the request and `write` whether some attempt to write the file
succeeds. `none` is a panic, and the result what the code file contains. -/
def createCodeFile (rpc : Except Unit Json) (contract : String) (write : Bool) :
    Option (Except ServerlessError (List UInt8)) :=
  match rpc with
  | .error () => some (.error .txDataRetrieve)
  | .ok response => do
    match ← takeField response "result" with
    | .null => some (.error .txNotFound)
    | txData =>
      match ← takeField txData "to" with
      | .str contractAddress =>
        if contractAddress ≠ contract then
          some (.error (.invalidTxToValue contractAddress contract))
        else
          match ← takeField txData "input" with
          | .str calldata =>
            match ← decodeCalldata calldata with
            | .error e => some (.error e)
            | .ok code => if write then some (.ok code) else some (.error .codeFileCreate)
          | _ => some (.error .invalidTxCalldataType)
      | _ => some (.error .invalidTxToType)

def hexChars (bytes : List UInt8) : List Char := (Hex.encode bytes).map fun d => Char.ofNat d.toNat

def selector : List UInt8 := [0xff, 0x7c, 0xda, 0xf3]

/-- The calldata of the call that saves `code`. -/
def saveCalldata (code : List UInt8) : String :=
  String.ofList ("0x".toList ++ hexChars (selector ++ Abi.stringThen code []))

/-- The response is a transaction to the contract with this calldata. -/
def Carries (response : Json) (contract calldata : String) : Prop :=
  ∃ txData, takeField response "result" = some txData ∧ txData ≠ .null ∧
    takeField txData "to" = some (.str contract) ∧ takeField txData "input" = some (.str calldata)

/-- The code does not end in a zero, or it is whole words of zeros. -/
def Survives (code : List UInt8) : Prop :=
  code.getLast? ≠ some 0 ∨ (∀ b ∈ code, b = 0) ∧ 32 ∣ code.length

/-- If the text begins as the call does, no character of it spans the byte 138. -/
def EndsHead (calldata : String) : Prop :=
  callHead.toList <+: calldata.toList → ∃ k, byteLen (calldata.toList.take k) = 138

theorem stripZeros_append {pre : List UInt8} {b : UInt8} (hb : b ≠ 0) (n : ℕ) :
    stripZeros (pre ++ b :: List.replicate n 0) = pre ++ [b] := by
  have hidx : (pre ++ b :: List.replicate n 0).reverse.findIdx? (· != 0) = some n := by
    rw [List.reverse_append, List.reverse_cons, List.reverse_replicate, List.append_assoc,
      List.findIdx?_append, List.findIdx?_replicate]
    simp [List.findIdx?_cons, hb]
  have hlen : (pre ++ b :: List.replicate n 0).length - n = (pre ++ [b]).length := by
    simp only [List.length_append, List.length_cons, List.length_replicate, List.length_nil]
    omega
  have hsplit : pre ++ b :: List.replicate n 0 = (pre ++ [b]) ++ List.replicate n 0 := by simp
  unfold stripZeros
  rw [hidx, Option.getD_some]
  dsimp only
  rw [hlen, hsplit, List.take_left]

theorem stripZeros_zeros (n : ℕ) : stripZeros (List.replicate n 0) = List.replicate n 0 := by
  have hidx : (List.replicate n (0 : UInt8)).reverse.findIdx? (· != 0) = none := by
    rw [List.reverse_replicate, List.findIdx?_replicate]
    simp
  unfold stripZeros
  rw [hidx]
  simp

theorem zeros_or_append (code : List UInt8) : code = List.replicate code.length 0 ∨
    ∃ pre b n, b ≠ 0 ∧ code = pre ++ b :: List.replicate n 0 := by
  -- from the end, where `stripZeros` looks
  induction code using List.reverseRecOn with
  | nil => exact .inl rfl
  | append_singleton code b ih =>
    by_cases hb : b = 0
    · subst hb
      rcases ih with h | ⟨pre, c, n, hc, h⟩
      · left
        rw [List.length_append, List.length_singleton, List.replicate_succ', ← h]
      · refine .inr ⟨pre, c, n + 1, hc, ?_⟩
        rw [h, List.replicate_succ']
        simp
    · exact .inr ⟨code, b, 0, hb, rfl⟩

def padding (code : List UInt8) : ℕ := (32 - code.length % 32) % 32

theorem stripZeros_padded (code : List UInt8) :
    stripZeros (code ++ List.replicate (padding code) 0) = code ↔ Survives code := by
  unfold Survives
  rcases zeros_or_append code with h | ⟨pre, b, n, hb, h⟩
  · -- all zeros: nothing is stripped, so the padding has to be empty
    have hpad : code ++ List.replicate (padding code) 0 =
        List.replicate (code.length + padding code) 0 := by
      rw [List.replicate_add, ← h]
    have hall : ∀ b ∈ code, b = 0 := by
      rw [h]
      exact fun b hb => List.eq_of_mem_replicate hb
    rw [hpad, stripZeros_zeros]
    constructor
    · intro heq
      have hlen := congrArg List.length heq
      rw [List.length_replicate] at hlen
      refine .inr ⟨hall, ?_⟩
      unfold padding at hlen
      omega
    · intro hs
      have hzero : padding code = 0 := by
        unfold padding
        rcases hs with hlast | ⟨-, hdvd⟩
        · cases hcode : code.getLast? with
          | none =>
            rw [List.getLast?_eq_none_iff.1 hcode]
            rfl
          | some b =>
            rw [hcode, hall b (List.mem_of_getLast? hcode)] at hlast
            exact absurd rfl hlast
        · omega
      rw [hzero, Nat.add_zero, ← h]
  · have hpad : code ++ List.replicate (padding code) 0 =
        pre ++ b :: List.replicate (n + padding code) 0 := by
      -- the zeros of the code join the padding, and both are stripped
      conv_lhs => rw [h]
      rw [List.replicate_add]
      simp [h]
    rw [hpad, stripZeros_append hb]
    constructor
    · intro heq
      left
      rw [← heq, List.getLast?_append]
      simpa using hb
    · rintro (hlast | ⟨hall, -⟩)
      · cases n with
        | zero => exact h.symm
        | succ n =>
          have hend : code.getLast? = some 0 := by
            rw [h, List.replicate_succ', ← List.cons_append, ← List.append_assoc,
              List.getLast?_concat]
          exact absurd hend hlast
      · exact absurd (hall b (by rw [h]; simp)) hb

theorem dropBytes_append (pre post : List Char) :
    dropBytes (byteLen pre) (pre ++ post) = some post := by
  induction pre with
  | nil => cases post <;> rfl
  | cons c pre ih =>
    have hpos := c.utf8Size_pos
    obtain ⟨n, hn⟩ : ∃ n, c.utf8Size + byteLen pre = n + 1 :=
      ⟨c.utf8Size + byteLen pre - 1, by omega⟩
    have hlen : byteLen (c :: pre) = n + 1 := by
      rw [← hn]
      rfl
    rw [hlen, List.cons_append, dropBytes, if_pos (by omega), ← hn, Nat.add_sub_cancel_left, ih]

theorem dropBytes_eq_none {n : ℕ} {cs : List Char} :
    dropBytes n cs ≠ none ↔ ∃ k, byteLen (cs.take k) = n := by
  constructor
  · intro h
    induction cs generalizing n with
    | nil =>
      cases n with
      | zero => exact ⟨0, rfl⟩
      | succ n => exact absurd rfl h
    | cons c cs ih =>
      cases n with
      | zero => exact ⟨0, rfl⟩
      | succ n =>
        rw [dropBytes] at h
        -- a cut inside of a character is refused
        split at h
        · rename_i hle
          obtain ⟨k, hk⟩ := ih h
          refine ⟨k + 1, ?_⟩
          have hlen : byteLen ((c :: cs).take (k + 1)) = c.utf8Size + byteLen (cs.take k) := rfl
          rw [hlen, hk]
          omega
        · exact absurd rfl h
  · rintro ⟨k, rfl⟩
    have h := dropBytes_append (cs.take k) (cs.drop k)
    rw [List.take_append_drop] at h
    rw [h]
    exact Option.some_ne_none _

theorem utf8_ascii {n : ℕ} (h : n < 128) :
    String.utf8EncodeChar (Char.ofNat n) = [UInt8.ofNat n] := by
  have hall : ∀ n < 128, String.utf8EncodeChar (Char.ofNat n) = [UInt8.ofNat n] := by decide
  exact hall n h

theorem digit_lt {n : ℕ} (h : n < 16) : (Hex.digit n).toNat < 128 := by
  interval_cases n <;> decide

theorem encode_ascii (bytes : List UInt8) : ∀ d ∈ Hex.encode bytes, d.toNat < 128 := by
  intro d hd
  obtain ⟨b, -, hb⟩ := List.mem_flatMap.1 hd
  have hlt := b.toNat_lt
  simp only [Hex.encodeByte, List.mem_cons, List.not_mem_nil, or_false] at hb
  rcases hb with rfl | rfl
  · exact digit_lt (by omega)
  · exact digit_lt (by omega)

theorem utf8_hexChars (bytes : List UInt8) : utf8 (hexChars bytes) = Hex.encode bytes := by
  have hascii := encode_ascii bytes
  unfold utf8 hexChars
  generalize Hex.encode bytes = ds at hascii
  induction ds with
  | nil => rfl
  | cons d ds ih =>
    obtain ⟨hd, hds⟩ := List.forall_mem_cons.1 hascii
    rw [List.map_cons, List.flatMap_cons, utf8_ascii hd, ih hds, UInt8.ofNat_toNat]
    rfl

theorem byteLen_hexChars (bytes : List UInt8) : byteLen (hexChars bytes) = 2 * bytes.length := by
  -- a character is as long as its encoding
  have hsize : ∀ cs, byteLen cs = (utf8 cs).length := by
    intro cs
    induction cs with
    | nil => rfl
    | cons c cs ih =>
      have hcons : byteLen (c :: cs) = c.utf8Size + byteLen cs := rfl
      rw [hcons, ih, utf8, utf8, List.flatMap_cons, List.length_append,
        String.length_utf8EncodeChar]
  rw [hsize, utf8_hexChars, Hex.length_encode]

theorem byteLen_append (cs cs' : List Char) : byteLen (cs ++ cs') = byteLen cs + byteLen cs' := by
  unfold byteLen
  rw [List.map_append, List.sum_append]

theorem hexChars_append (as bs : List UInt8) :
    hexChars (as ++ bs) = hexChars as ++ hexChars bs := by
  unfold hexChars
  rw [Hex.encode_append, List.map_append]

theorem callHead_eq : callHead.toList = "0x".toList ++ hexChars (selector ++ Abi.word 32) := by
  decide

/-- The length of the code, which the decoder skips. -/
def lengthWord (code : List UInt8) : List UInt8 := Abi.word (BitVec.ofNat 256 code.length)

theorem saveCalldata_eq (code : List UInt8) : (saveCalldata code).toList =
    (callHead.toList ++ hexChars (lengthWord code)) ++
      hexChars (code ++ List.replicate (padding code) 0) := by
  have hargs : selector ++ Abi.stringThen code [] = (selector ++ Abi.word 32) ++
      (lengthWord code ++ (code ++ List.replicate (padding code) 0)) := by
    unfold Abi.stringThen Abi.byteString Abi.words lengthWord padding
    simp only [List.append_assoc, List.flatMap_nil, List.nil_append]
    rfl
  rw [saveCalldata, String.toList_ofList, hargs, callHead_eq, hexChars_append, hexChars_append,
    hexChars_append (lengthWord code)]
  simp only [List.append_assoc]

theorem byteLen_head (code : List UInt8) :
    byteLen (callHead.toList ++ hexChars (lengthWord code)) = 138 := by
  have hhead : byteLen callHead.toList = 74 := by decide
  rw [byteLen_append, hhead, byteLen_hexChars, lengthWord, Abi.length_word]

theorem le_byteLen_save (code : List UInt8) : 138 ≤ byteLen (saveCalldata code).toList := by
  rw [saveCalldata_eq, byteLen_append, byteLen_head]
  omega

theorem endsHead_save (code : List UInt8) : EndsHead (saveCalldata code) := by
  intro _
  refine ⟨(callHead.toList ++ hexChars (lengthWord code)).length, ?_⟩
  rw [saveCalldata_eq, List.take_left, byteLen_head]

theorem decodeCalldata_save (code : List UInt8) : decodeCalldata (saveCalldata code) =
    some (.ok (stripZeros (code ++ List.replicate (padding code) 0))) := by
  have hchars := saveCalldata_eq code
  have hlen : ¬byteLen (saveCalldata code).toList < 138 := Nat.not_lt.2 (le_byteLen_save code)
  have hhead : callHead.toList.isPrefixOf (saveCalldata code).toList = true := by
    rw [List.isPrefixOf_iff_prefix, hchars, List.append_assoc]
    exact List.prefix_append _ _
  have hdrop : dropBytes 138 (saveCalldata code).toList =
      some (hexChars (code ++ List.replicate (padding code) 0)) := by
    rw [hchars, ← byteLen_head code]
    exact dropBytes_append _ _
  unfold decodeCalldata
  rw [if_neg hlen, hhead, hdrop, Option.map_some, utf8_hexChars, Hex.decode_encode]
  rfl

/-- Only a cut inside a character panics. -/
theorem decodeCalldata_returns {calldata : String} (h : 138 ≤ byteLen calldata.toList) :
    decodeCalldata calldata ≠ none ↔ EndsHead calldata := by
  unfold decodeCalldata EndsHead
  rw [if_neg (Nat.not_lt.2 h), ← List.isPrefixOf_iff_prefix]
  cases hhead : callHead.toList.isPrefixOf calldata.toList with
  | false => simp
  | true =>
    simp only [Bool.not_true, Bool.false_eq_true, if_false, forall_const, ne_eq,
      Option.map_eq_none_iff]
    exact dropBytes_eq_none

theorem createCodeFile_carries {response : Json} {contract calldata : String}
    (h : Carries response contract calldata) (write : Bool) :
    createCodeFile (.ok response) contract write = (decodeCalldata calldata).map fun r =>
      r.bind fun code => if write then .ok code else .error .codeFileCreate := by
  obtain ⟨txData, hresult, hnull, haddress, hinput⟩ := h
  simp only [createCodeFile, hresult, Option.bind_eq_bind, Option.bind_some]
  cases txData with
  | null => exact absurd rfl hnull
  | _ =>
    simp only [haddress, hinput, Option.bind_some, ne_eq, not_true_eq_false, if_false]
    cases hcode : decodeCalldata calldata with
    | none => rfl
    | some r =>
      cases r with
      | error e => rfl
      | ok code => cases write <;> rfl

/-- The code comes out of the calldata as it went in exactly if it survives the padding, and a
calldata text of enough bytes is handled without a panic exactly if it can be cut where the code
begins. -/
theorem code_survives_iff (contract : String) :
    (∀ response code, Carries response contract (saveCalldata code) →
      (createCodeFile (.ok response) contract true = some (.ok code) ↔ Survives code)) ∧
    ∀ response calldata write, Carries response contract calldata →
      138 ≤ byteLen calldata.toList →
      (createCodeFile (.ok response) contract write ≠ none ↔ EndsHead calldata) := by
  constructor
  · intro response code h
    rw [createCodeFile_carries h, decodeCalldata_save, Option.map_some]
    have hok : ((Except.ok (stripZeros (code ++ List.replicate (padding code) 0)) :
        Except ServerlessError (List UInt8)).bind fun code =>
          if true then .ok code else .error .codeFileCreate) =
        .ok (stripZeros (code ++ List.replicate (padding code) 0)) := rfl
    rw [hok, Option.some.injEq, Except.ok.injEq]
    exact stripZeros_padded code
  · intro response calldata write h hlen
    rw [createCodeFile_carries h, ← decodeCalldata_returns hlen, ne_eq, Option.map_eq_none_iff]

namespace Sample

def contract : String := "0x44fe06d2940b8782a0a9a9ffd09c65852c0156b1"

def response (calldata : String) : Json :=
  .obj [("result", .obj [("to", .str contract), ("input", .str calldata)])]

theorem carries (calldata : String) : Carries (response calldata) contract calldata :=
  ⟨_, rfl, nofun, rfl, rfl⟩

theorem code_survives_sample :
    createCodeFile (.ok (response (saveCalldata [65]))) contract true = some (.ok [65]) ∧
      createCodeFile (.ok (response (saveCalldata [65]))) contract false ≠ none := by
  have hcode : Survives [65] := .inl (by decide)
  exact ⟨((code_survives_iff contract).1 _ [65] (carries _)).2 hcode,
    ((code_survives_iff contract).2 _ _ false (carries _) (le_byteLen_save _)).2 (endsHead_save _)⟩

def split : String := String.ofList (callHead.toList ++ List.replicate 63 '0' ++ ['é'])

set_option maxRecDepth 4000 in
/-- A last byte of zero is lost, code that is nothing but a zero gets its padding, and a calldata
text that cannot be cut panics. -/
theorem code_changed :
    createCodeFile (.ok (response (saveCalldata [65, 0]))) contract true = some (.ok [65]) ∧
      createCodeFile (.ok (response (saveCalldata [0]))) contract true =
        some (.ok (List.replicate 32 0)) ∧
      138 ≤ byteLen split.toList ∧ createCodeFile (.ok (response split)) contract true = none := by
  refine ⟨?_, ?_, ?_, ?_⟩
  · rw [createCodeFile_carries (carries _), decodeCalldata_save]
    rfl
  · rw [createCodeFile_carries (carries _), decodeCalldata_save]
    rfl
  · decide
  · have hnone : decodeCalldata split = none := by rfl
    rw [createCodeFile_carries (carries _), hnone]
    rfl

end Sample

end Oyster.Executor.Workerd
