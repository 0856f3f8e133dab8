import Oyster.Executor.Lifecycle
import Oyster.Lib.AbiArgs
import Oyster.Lib.TypedData

namespace Oyster.Executor

open Abi (Word Bytes ascii TypedData)

/-- The crates that hash and sign: `sign_prehash_recoverable` is of the enclave key. -/
structure Crypto where
  keccak256 : Bytes → Word
  signPrehash : Word → Option (Vector UInt8 64 × Fin 4)

def addressWord (address : H160) : Word := BitVec.ofNat 256 (BigEndian.decode address.val)

/-- What the enclave key puts its name to. -/
inductive Statement where
  | register (owner : H160) (jobCapacity env signTimestamp : Word)
  | submitOutput (jobId : Word) (output : Bytes) (totalTime errorCode signTimestamp : Word)

def registerType : Bytes :=
  ascii "Register(address owner,uint256 jobCapacity,uint8 env,uint256 signTimestamp)"

def submitOutputType : Bytes := ascii
  "SubmitOutput(uint256 jobId,bytes output,uint256 totalTime,uint8 errorCode,uint256 signTimestamp)"

section

variable (crypto : Crypto)

def Statement.typed : Statement → TypedData
  | .register owner jobCapacity env signTimestamp =>
    { name := ascii "marlin.oyster.Executors"
      version := ascii "1"
      type := registerType
      fields := [addressWord owner, jobCapacity, env, signTimestamp] }
  | .submitOutput jobId output totalTime errorCode signTimestamp =>
    { name := ascii "marlin.oyster.Jobs"
      version := ascii "1"
      type := submitOutputType
      fields := [jobId, crypto.keccak256 output, totalTime, errorCode, signTimestamp] }

def Statement.digest (s : Statement) : Word := (s.typed crypto).digest crypto.keccak256

/-- What is hashed for a statement. -/
def Statement.hashed (s : Statement) : List Bytes :=
  (s.typed crypto).hashed crypto.keccak256 ++
    match s with
    | .register _ _ _ _ => []
    | .submitOutput _ output _ _ _ => [output]

/-- `rs.to_bytes().append(27 + v.to_byte())` -/
def sign (s : Statement) : Option (List UInt8) :=
  (crypto.signPrehash (s.digest crypto)).map fun (rs, v) => rs.toList ++ [27 + UInt8.ofNat v.val]

def signRegistration (jobCapacity : ℕ) (owner : H160) (signTimestamp : ℕ) : Option (List UInt8) :=
  sign crypto (.register owner (BitVec.ofNat 256 jobCapacity) (BitVec.ofNat 256 executionEnvId)
    (BitVec.ofNat 256 signTimestamp))

def JobOutput.statement (o : JobOutput) (jobId : ℕ) : Statement :=
  .submitOutput (BitVec.ofNat 256 jobId) o.output (BitVec.ofNat 256 o.totalTime)
    (BitVec.ofNat 256 o.errorCode.toNat) (BitVec.ofNat 256 o.signTimestamp)

def signResponse (jobId : ℕ) (o : JobOutput) : Option (List UInt8) :=
  sign crypto (o.statement jobId)

/-- The fields that are set. -/
structure Eip1559TransactionRequest where
  toAddr : H160
  data : Bytes

/-- A function of the contract: its name with the types of its arguments. -/
def selector (signature : Bytes) : Bytes := (Abi.word (crypto.keccak256 signature)).take 4

def encodeInput (signature : Bytes) (params : List Abi.Arg) : Bytes :=
  selector crypto signature ++ Abi.encodeArgs params

/-- What a contract takes the calldata for. -/
def decodeInput (signature : Bytes) (kinds : List Abi.Kind) (data : Bytes) :
    Option (List Abi.Arg) :=
  if data.take 4 = selector crypto signature then Abi.decodeArgs (data.drop 4) 0 kinds else none

def submitOutputSignature : Bytes := ascii "submitOutput(bytes,uint256,bytes,uint256,uint8,uint256)"

def slashSignature : Bytes := ascii "slashOnExecutionTimeout(uint256)"

/-- An output that is not there is unwrapped. -/
def generateTxn (jobsContractAddr : H160) (jobResponse : JobsTxnMetadata JobsTxn) :
    Option Eip1559TransactionRequest :=
  match jobResponse.job.txnType with
  | .output => jobResponse.job.jobOutput.map fun o =>
    { toAddr := jobsContractAddr
      data := encodeInput crypto submitOutputSignature
        [.bytes o.signature, .uint (BitVec.ofNat 256 jobResponse.job.jobId), .bytes o.output,
          .uint (BitVec.ofNat 256 o.totalTime), .uint (BitVec.ofNat 256 o.errorCode.toNat),
          .uint (BitVec.ofNat 256 o.signTimestamp)] }
  | .timeout => some
    { toAddr := jobsContractAddr
      data := encodeInput crypto slashSignature
        [.uint (BitVec.ofNat 256 jobResponse.job.jobId)] }

end

variable {crypto : Crypto}

theorem addressWord_injective : Function.Injective addressWord := by
  intro a b h
  have hlt : ∀ c : H160, BigEndian.decode c.val < 2 ^ 256 := fun c => by
    have hc := BigEndian.decode_lt c.val
    rw [c.property] at hc
    omega
  have hdecode : BigEndian.decode a.val = BigEndian.decode b.val := by
    have hnat := congrArg BitVec.toNat h
    rw [addressWord, addressWord, BitVec.toNat_ofNat, BitVec.toNat_ofNat,
      Nat.mod_eq_of_lt (hlt a), Nat.mod_eq_of_lt (hlt b)] at hnat
    exact hnat
  have ha := BigEndian.encode_decode a.val
  have hb := BigEndian.encode_decode b.val
  rw [a.property, hdecode] at ha
  rw [b.property] at hb
  exact Subtype.ext (ha.symm.trans hb)

theorem types_ne : registerType ≠ submitOutputType := by decide

/-- Two statements with one digest are one statement: neither another output, nor an output for a
registration. -/
theorem digests_bind (s s' : Statement)
    (hsep : Abi.Separates crypto.keccak256 (s.hashed crypto ++ s'.hashed crypto))
    (h : s.digest crypto = s'.digest crypto) : s = s' := by
  have hsub : (s.typed crypto).hashed crypto.keccak256 ++
      (s'.typed crypto).hashed crypto.keccak256 ⊆ s.hashed crypto ++ s'.hashed crypto := by
    refine List.append_subset.2 ⟨?_, ?_⟩
    · exact List.subset_append_of_subset_left _ (List.subset_append_left _ _)
    · exact List.subset_append_of_subset_right _ (List.subset_append_left _ _)
  have htyped := TypedData.digest_inj (hsep.subset hsub) h
  have htype := congrArg TypedData.type htyped
  have hfields := congrArg TypedData.fields htyped
  cases s with
  | register =>
    cases s' with
    | register =>
      simp only [Statement.typed, List.cons.injEq, and_true] at hfields
      rw [addressWord_injective hfields.1, hfields.2.1, hfields.2.2.1, hfields.2.2.2]
    | submitOutput => exact absurd htype types_ne
  | submitOutput _ output =>
    cases s' with
    | register => exact absurd htype.symm types_ne
    | submitOutput _ output' =>
      simp only [Statement.typed, List.cons.injEq, and_true] at hfields
      have houtput := hsep output (by simp [Statement.hashed]) output'
        (by simp [Statement.hashed]) hfields.2.1
      rw [hfields.1, houtput, hfields.2.2.1, hfields.2.2.2.1, hfields.2.2.2.2]

def heads : Crypto where
  keccak256 bs := BitVec.ofNat 256 (bs.length * 256 + (bs.headD 0).toNat)
  signPrehash _ := some (Vector.replicate 64 0, 0)

theorem digests_bind_sample :
    Statement.submitOutput 7 [72, 105] 100 0 5 = .submitOutput 7 ([72] ++ [105]) 100 0 5 :=
  digests_bind _ _ (by decide +kernel) (rfl : Statement.digest heads _ = _)

theorem decodeInput_encodeInput {signature : Bytes} {params : List Abi.Arg}
    (h : (encodeInput crypto signature params).length < 2 ^ 256) :
    decodeInput crypto signature (params.map Abi.Arg.kind) (encodeInput crypto signature params) =
      some params := by
  have hselector : (selector crypto signature).length = 4 := by
    rw [selector, List.length_take, Abi.length_word]
    rfl
  rw [encodeInput, List.length_append] at h
  unfold decodeInput encodeInput
  rw [List.take_left' hselector, if_pos rfl, List.drop_left' hselector]
  exact @Abi.decodeArgs_encodeArgs [] params (by rw [List.nil_append]; omega)

/-- A call that tells the contract of a job that ran out of time. -/
def Slashes (crypto : Crypto) (data : Bytes) (jobId : Word) : Prop :=
  decodeInput crypto slashSignature [.uint] data = some [.uint jobId]

/-- A call that gives the contract an output with the signature of just this output. -/
def Submits (crypto : Crypto) (data : Bytes) (jobId : Word) : Prop :=
  ∃ signature output totalTime errorCode signTimestamp,
    decodeInput crypto submitOutputSignature [.bytes, .uint, .bytes, .uint, .uint, .uint] data =
      some [.bytes signature, .uint jobId, .bytes output, .uint totalTime, .uint errorCode,
        .uint signTimestamp] ∧
    sign crypto (.submitOutput jobId output totalTime errorCode signTimestamp) = some signature

theorem toAddr_generateTxn {jobsContractAddr : H160} {m : JobsTxnMetadata JobsTxn}
    {txn : Eip1559TransactionRequest} (h : generateTxn crypto jobsContractAddr m = some txn) :
    txn.toAddr = jobsContractAddr := by
  unfold generateTxn at h
  split at h
  · obtain ⟨_, -, rfl⟩ := Option.map_eq_some_iff.1 h
    rfl
  · cases h
    rfl

theorem slashes_generateTxn {jobsContractAddr : H160} {m : JobsTxnMetadata JobsTxn}
    {txn : Eip1559TransactionRequest} (h : generateTxn crypto jobsContractAddr m = some txn)
    (htype : m.job.txnType = .timeout) (hlen : txn.data.length < 2 ^ 256) :
    Slashes crypto txn.data (BitVec.ofNat 256 m.job.jobId) := by
  unfold generateTxn at h
  rw [htype] at h
  cases h
  exact decodeInput_encodeInput hlen

theorem submits_generateTxn {jobsContractAddr : H160} {m : JobsTxnMetadata JobsTxn}
    {txn : Eip1559TransactionRequest} (h : generateTxn crypto jobsContractAddr m = some txn)
    (htype : m.job.txnType = .output)
    (hsigned : ∃ o signature, signResponse crypto m.job.jobId o = some signature ∧
      m.job.jobOutput = some { o with signature := signature })
    (hlen : txn.data.length < 2 ^ 256) :
    Submits crypto txn.data (BitVec.ofNat 256 m.job.jobId) := by
  obtain ⟨o, signature, hsign, hout⟩ := hsigned
  unfold generateTxn at h
  rw [htype, hout] at h
  cases h
  exact ⟨signature, o.output, _, _, _, decodeInput_encodeInput hlen, hsign⟩

end Oyster.Executor
