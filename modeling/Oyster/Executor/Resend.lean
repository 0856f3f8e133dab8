import Mathlib.Algebra.Order.Ring.Nat
import Oyster.Executor.Sender

/-!
`resend_pending_transaction` of the serverless executor, cut at its await points. It takes the
first pending transaction and works on it until it is mined, replaced or unblocked. What other
tasks do meanwhile is part of the runs: new transactions are appended, the client changes and the
enclave is deregistered. Every reading of the clock is arbitrary.
-/

namespace Oyster.Executor

/-- What the contract call is generated from, `D`, with the deadline of its retries. -/
structure JobsTxnMetadata (D : Type) where
  job : D
  retryDeadline : ℕ

/-- A transaction as it is sent. Without a payload it pays nothing to its own sender. -/
structure TxnRequest (W T : Type) where
  sender : W
  payload : Option T
  nonce : ℕ
  gas : ℕ
  gasPrice : ℕ

structure PendingTxnData (W D T : Type) where
  txnHash : ℕ
  txnData : JobsTxnMetadata D
  httpRpcClient : W
  nonce : ℕ
  gasLimit : ℕ
  gasPrice : ℕ
  lastMonitorInstant : ℕ
  /-- what was sent for it so far, which no task reads -/
  sends : List (TxnRequest W T)

namespace PendingTxnData

variable {W D T : Type}

/-- The sum is a `U256`. -/
def LimitFits (p : PendingTxnData W D T) : Prop := p.gasLimit + gasLimitBuffer < 2 ^ 256

/-- The product is a `U256`. -/
def PriceFits (p : PendingTxnData W D T) : Prop :=
  (100 + resendGasPriceIncrementPercent) * p.gasPrice < 2 ^ 256

instance (p : PendingTxnData W D T) : Decidable p.LimitFits :=
  inferInstanceAs (Decidable (_ < _))

instance (p : PendingTxnData W D T) : Decidable p.PriceFits :=
  inferInstanceAs (Decidable (_ < _))

/-- The arithmetic of `U256` panics on an overflow, here and below. -/
def bumpGasLimit (p : PendingTxnData W D T) : Option (PendingTxnData W D T) :=
  if p.LimitFits then some { p with gasLimit := p.gasLimit + gasLimitBuffer } else none

def bumpGasPrice (p : PendingTxnData W D T) : Option (PendingTxnData W D T) :=
  if p.PriceFits then
    some { p with gasPrice := (100 + resendGasPriceIncrementPercent) * p.gasPrice / 100 }
  else none

def request (p : PendingTxnData W D T) (payload : Option T) : TxnRequest W T where
  sender := p.httpRpcClient
  payload := payload
  nonce := p.nonce
  gas := p.gasLimit
  gasPrice := p.gasPrice

def record (p : PendingTxnData W D T) (txn : TxnRequest W T) : PendingTxnData W D T :=
  { p with sends := p.sends ++ [txn] }

end PendingTxnData

inductive Resend (W D T : Type) where
  /-- the head of the outer loop -/
  | idle
  /-- waits, then asks for the receipt -/
  | monitoring (p : PendingTxnData W D T)
  /-- the head of the retry loop -/
  | retrying (p : PendingTxnData W D T) (sendDummy : Bool)
  | replacing (p : PendingTxnData W D T) (sendDummy : Bool)
  /-- `tx_sender.send`, with the address that the client was found to have -/
  | handing (currentGasAddress : W) (p : PendingTxnData W D T)
  /-- `send_transaction` -/
  | sending (txn : TxnRequest W T) (p : PendingTxnData W D T) (sendDummy : Bool)
  /-- the head of the dummy loop -/
  | dummy (p : PendingTxnData W D T)
  | sendingDummy (txn : TxnRequest W T) (p : PendingTxnData W D T)
  /-- waits for the confirmation -/
  | confirming (txn : TxnRequest W T) (p : PendingTxnData W D T)
  | stopped
  | panicked

namespace Resend

variable {W D T : Type}

/-- The transaction that the task works on. -/
def held : Resend W D T → Option (PendingTxnData W D T)
  | monitoring p | retrying p _ | replacing p _ | handing _ p | sending _ p _ | dummy p
  | sendingDummy _ p | confirming _ p => some p
  | idle | stopped | panicked => none

end Resend

structure Resender (W D T : Type) where
  httpRpcClient : Option W
  enclaveRegistered : Bool
  pendingTxns : List (PendingTxnData W D T)
  task : Resend W D T
  /-- what the task has put into the channel of the sender -/
  handed : List (JobsTxnMetadata D)
  /-- the transaction that was popped last, which no task reads -/
  popped : Option (PendingTxnData W D T)

inductive ResendEvent (W D T : Type) where
  /-- `send_execution_output` appends a transaction that it has sent -/
  | pushBack (p : PendingTxnData W D T)
  | setClient (wallet : W)
  | deregister
  /-- no await point -/
  | go
  | receipt (found : Bool)
  | clock (now : ℕ)
  | handedOver (ok : Bool)
  | accepted (hash now : ℕ)
  | refused (error : String)
  | confirmed (ok : Bool)

namespace Resender

variable {W D T : Type} [DecidableEq W] (generateTxn : JobsTxnMetadata D → Option T)

/-- A step of the task that may panic. -/
def goOn (s : Resender W D T) : Option (Resend W D T) → Resender W D T
  | none => { s with task := .panicked }
  | some task => { s with task := task }

/-- The end of the retry loop. -/
def afterRetries (p : PendingTxnData W D T) (sendDummy : Bool) : Resend W D T :=
  if sendDummy then .dummy p else .idle

/-- After an error of the replacement. -/
def afterError (p : PendingTxnData W D T) (sendDummy : Bool) :
    JobsTxnSendError → Option (Resend W D T)
  | .nonceTooLow => some .idle
  | .outOfGas => p.bumpGasLimit.map (.retrying · sendDummy)
  | .gasPriceLow => p.bumpGasPrice.map (.retrying · sendDummy)
  | .gasTooHigh | .contractExecution => some (afterRetries p sendDummy)
  | .nonceTooHigh | .networkConnectivity | .otherRetryable => some (.retrying p sendDummy)

def afterDummyError (p : PendingTxnData W D T) : JobsTxnSendError → Option (Resend W D T)
  | .nonceTooLow => some .idle
  | .outOfGas => p.bumpGasLimit.map .dummy
  | .gasPriceLow => p.bumpGasPrice.map .dummy
  | .nonceTooHigh | .gasTooHigh | .contractExecution | .networkConnectivity | .otherRetryable =>
    some (.dummy p)

/-- The head of the outer loop. -/
def pop (s : Resender W D T) : Resender W D T :=
  match s.pendingTxns with
  | [] => { s with task := if s.enclaveRegistered then .idle else .stopped }
  | p :: pendingTxns => { s with
      task := .monitoring p
      pendingTxns := pendingTxns
      popped := some p }

/-- The body of the retry loop up to its await point. -/
def replace (s : Resender W D T) (p : PendingTxnData W D T) (sendDummy : Bool) :
    Option (Resend W D T) := do
  let payload ← generateTxn p.txnData
  let currentGasAddress ← s.httpRpcClient
  -- another wallet is in use: the job goes to the sender as a new one
  if currentGasAddress ≠ p.httpRpcClient then return .handing currentGasAddress p
  else return .sending (p.request (some payload)) (p.record (p.request (some payload))) sendDummy

/-- The body of the dummy loop up to its await point. -/
def replaceByDummy (s : Resender W D T) (p : PendingTxnData W D T) : Option (Resend W D T) := do
  let currentGasAddress ← s.httpRpcClient
  -- the nonce is one of a wallet that is no longer used
  if currentGasAddress ≠ p.httpRpcClient then return .idle
  else return .sendingDummy (p.request none) (p.record (p.request none))

def stepTask (s : Resender W D T) :
    Resend W D T → ResendEvent W D T → Option (Resender W D T)
  | .idle, .go => some s.pop
  | .monitoring p, .receipt found =>
    some <| s.goOn <|
      if found then some .idle
      else (p.bumpGasLimit.bind (·.bumpGasPrice)).map (.retrying · true)
  -- the retry loop runs until its deadline, the dummy loop for ever
  | .retrying p sendDummy, .clock now =>
    some <| s.goOn <| some <|
      if now < p.txnData.retryDeadline then .replacing p sendDummy else afterRetries p sendDummy
  | .replacing p sendDummy, .go => some <| s.goOn <| s.replace generateTxn p sendDummy
  | .handing _ p, .handedOver ok =>
    if ok then some { s with task := .idle, handed := s.handed ++ [p.txnData] }
    -- the channel is closed, and no dummy is sent at the end
    else some { s with task := .retrying p false }
  | .sending _ p _, .accepted hash now => some { s with
      task := .idle
      pendingTxns := { p with txnHash := hash, lastMonitorInstant := now } :: s.pendingTxns }
  | .sending _ p sendDummy, .refused error =>
    some <| s.goOn <| afterError p sendDummy (parseSendError error)
  | .dummy p, .go => some <| s.goOn <| s.replaceByDummy p
  | .sendingDummy txn p, .accepted _ _ => some { s with task := .confirming txn p }
  | .sendingDummy _ p, .refused error =>
    some <| s.goOn <| afterDummyError p (parseSendError error)
  | .confirming _ p, .confirmed ok => some { s with task := if ok then .idle else .dummy p }
  | _, _ => none

/-- A transaction is appended once it was sent, with the client that there was, and its payload
was generated. -/
def step (s : Resender W D T) : ResendEvent W D T → Option (Resender W D T)
  | .pushBack p => do
    let payload ← generateTxn p.txnData
    let _ ← s.httpRpcClient
    return { s with
      pendingTxns := s.pendingTxns ++ [{ p with sends := [p.request (some payload)] }] }
  | .setClient wallet => some { s with httpRpcClient := some wallet }
  | .deregister => some { s with enclaveRegistered := false }
  | e => s.stepTask generateTxn s.task e

/-- A step while the receiver of the sender's channel is alive. -/
def Step (s : Resender W D T) (e : ResendEvent W D T) (s' : Resender W D T) : Prop :=
  e ≠ .handedOver false ∧ s.step generateTxn e = some s'

/-- Nothing has been sent yet. -/
structure Fresh (s : Resender W D T) : Prop where
  pendingTxns : s.pendingTxns = []
  task : s.task = .idle

end Resender

end Oyster.Executor
