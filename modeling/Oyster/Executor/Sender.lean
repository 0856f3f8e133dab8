import Mathlib.Data.List.Infix
import Oyster.Lib.Run

/-!
`send_execution_output` of the serverless executor and the writes of `inject_mutable_config`, cut
at their await points and lock sections. A task is where it stands between two of them; any number
of tasks share the client and the nonce. A wallet stands for a client that signs with it.
-/

namespace Oyster.Executor

inductive JobsTxnSendError where
  | nonceTooLow
  | nonceTooHigh
  | outOfGas
  | gasTooHigh
  | gasPriceLow
  | contractExecution
  | networkConnectivity
  | otherRetryable
deriving DecidableEq

def contains (error text : String) : Bool := text.toList <:+: error.toList

/-- The text is in lower case. -/
def parseSendError (error : String) : JobsTxnSendError :=
  if contains error "nonce too low" then .nonceTooLow
  else if contains error "nonce too high" || contains error "too many pending transactions" then
    .nonceTooHigh
  else if contains error "out of gas" then .outOfGas
  else if contains error "gas limit too high" ||
      contains error "transaction exceeds block gas limit" then .gasTooHigh
  else if contains error "gas price too low" || contains error "transaction underpriced" then
    .gasPriceLow
  else if contains error "connection" || contains error "network" then .networkConnectivity
  else if contains error "reverted" || contains error "failed" then .contractExecution
  else .otherRetryable

def gasLimitBuffer : ℕ := 200000

def resendGasPriceIncrementPercent : ℕ := 10

/-- A transaction as it is signed, with the wallet that its nonce was obtained for. -/
structure Signed (W : Type) where
  wallet : W
  nonce : ℕ
  gasLimit : ℕ
  gasPrice : ℕ
  obtainedFor : Option W

structure History (W : Type) where
  /-- the wallet whose transaction count was last written to the nonce -/
  obtainedFor : Option W := none
  signed : List (Signed W) := []
  /-- the sends that the RPC accepted -/
  accepted : List (W × ℕ) := []
  /-- the count at the last injection and the sends accepted since, if no count was fetched for a
  nonce error meanwhile -/
  injected : Option (ℕ × ℕ) := none

structure Node (W : Type) where
  httpRpcClient : Option W := none
  nonceToSend : ℕ := 0
  /-- an injection that has written the nonce, and holds the lock of `mutable_params_injected` -/
  injecting : Option W := none
  history : History W := {}

structure Attempt where
  gasLimit : ℕ
  gasPrice : ℕ
  updateNonce : Bool

inductive Task (W : Type) where
  /-- `rx.recv()` -/
  | waiting
  | estimating
  /-- the head of the retry loop -/
  | retrying (a : Attempt)
  /-- with the client of this round -/
  | ready (client : W) (a : Attempt)
  /-- `get_transaction_count` -/
  | fetching (client : W) (a : Attempt)
  | fetched (client : W) (a : Attempt) (nonce : ℕ)
  /-- `send_transaction` -/
  | sending (client : W) (a : Attempt) (nonce : ℕ)
  /-- accepted, and the nonce is not incremented yet -/
  | sent (client : W) (nonce : ℕ)
  | stopped

inductive TaskEvent where
  | received
  | closed
  | estimated (gasLimit gasPrice : ℕ)
  | failed
  | expired
  | counted (nonce : ℕ)
  | accepted
  | refused (error : String)
  /-- no await point -/
  | go
deriving DecidableEq

namespace Task

variable {W : Type}

def afterError (a : Attempt) : JobsTxnSendError → Task W
  | .nonceTooLow => .retrying { a with updateNonce := true }
  | .outOfGas => .retrying { a with gasLimit := a.gasLimit + gasLimitBuffer }
  | .gasPriceLow =>
    .retrying { a with gasPrice := (100 + resendGasPriceIncrementPercent) * a.gasPrice / 100 }
  | .gasTooHigh | .contractExecution => .waiting
  | .nonceTooHigh | .networkConnectivity | .otherRetryable => .retrying a

/-- The nonce is read and the transaction signed. -/
def sign (s : Node W) (client : W) (a : Attempt) : Node W :=
  { s with history := { s.history with
      signed := s.history.signed ++
        [⟨client, s.nonceToSend, a.gasLimit, a.gasPrice, s.history.obtainedFor⟩] } }

/-- A count fetched after a nonce error is written to the nonce. -/
def writeNonce (s : Node W) (client : W) (nonce : ℕ) : Node W :=
  { s with
    nonceToSend := nonce
    history := { s.history with obtainedFor := some client, injected := none } }

def accept (s : Node W) (client : W) (nonce : ℕ) : Node W :=
  { s with history := { s.history with
      accepted := s.history.accepted ++ [(client, nonce)]
      injected := s.history.injected.map fun (n, k) => (n, k + 1) } }

def step (s : Node W) : Task W → TaskEvent → Option (Node W × Task W)
  -- the client is unwrapped, here and below
  | .waiting, .received => some (s, if s.httpRpcClient.isSome then .estimating else .stopped)
  | .waiting, .closed => some (s, .stopped)
  | .estimating, .estimated gasLimit gasPrice => some (s, .retrying ⟨gasLimit, gasPrice, false⟩)
  | .estimating, .failed => some (s, .waiting)
  | .retrying _, .expired => some (s, .waiting)
  | .retrying a, .go =>
    match s.httpRpcClient with
    | none => some (s, .stopped)
    | some client => some (s, .ready client a)
  | .ready client a, .go =>
    if a.updateNonce then some (s, .fetching client a)
    else some (sign s client a, .sending client a s.nonceToSend)
  | .fetching _ a, .failed => some (s, .retrying a)
  | .fetching client a, .counted nonce => some (s, .fetched client a nonce)
  | .fetched client a nonce, .go =>
    some (writeNonce s client nonce, .ready client { a with updateNonce := false })
  | .sending client _ nonce, .accepted => some (accept s client nonce, .sent client nonce)
  | .sending _ a _, .refused error => some (s, afterError a (parseSendError error))
  | .sent _ _, .go => some ({ s with nonceToSend := s.nonceToSend + 1 }, .waiting)
  | _, _ => none

/-- The task stands between an accepted send and its increment. -/
def isSent : Task W → Bool
  | .sent _ _ => true
  | _ => false

end Task

structure Senders (W : Type) where
  node : Node W := {}
  tasks : List (Task W) := []

inductive SenderEvent (W : Type) where
  | spawn
  | task (i : ℕ) (e : TaskEvent)
  /-- a request that fetched this count for its wallet takes the lock and writes the nonce -/
  | injectNonce (wallet : W) (nonce : ℕ)
  /-- the same request writes the client and releases the lock -/
  | injectClient
deriving DecidableEq

namespace Senders

variable {W : Type}

def step (s : Senders W) : SenderEvent W → Option (Senders W)
  | .spawn => some { s with tasks := s.tasks ++ [.waiting] }
  | .task i e =>
    match s.tasks[i]? with
    | none => none
    | some t => (t.step s.node e).map fun (node, t) => { node := node, tasks := s.tasks.set i t }
  | .injectNonce wallet nonce =>
    match s.node.injecting with
    | some _ => none
    | none => some { s with node := { s.node with
        nonceToSend := nonce
        injecting := some wallet
        history := { s.node.history with
          obtainedFor := some wallet
          injected := some (nonce, 0) } } }
  | .injectClient =>
    match s.node.injecting with
    | none => none
    | some wallet => some { s with node := { s.node with
        httpRpcClient := some wallet
        injecting := none } }

abbrev Step (s : Senders W) (e : SenderEvent W) (s' : Senders W) : Prop := s.step e = some s'

def inSent (s : Senders W) : ℕ := s.tasks.countP Task.isSent

/-- The wallet whose nonce a node stores: the client's, or the one that is being injected. -/
def nonceWallet (s : Senders W) : Option W := s.node.injecting <|> s.node.httpRpcClient

end Senders

end Oyster.Executor
