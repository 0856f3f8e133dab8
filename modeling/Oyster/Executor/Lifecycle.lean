import Oyster.Executor.Deadline
import Oyster.Lib.Hex
import Oyster.Lib.Spawn

/-!
The endpoints of `node_handler`, `events_listener` and the tasks that it spawns, over one
`AppState`: any number of requests at any time, and of connections one after the other. A task is
where it stands between two of its awaits or lock sections; the senders, the resenders and the
timeouts take the steps that they take alone.
-/

namespace Oyster.Executor

open Spawn

/-- Twenty bytes. -/
abbrev H160 := { bytes : List UInt8 // bytes.length = 20 }

def H160.zero : H160 := ⟨List.replicate 20 0, rfl⟩

/-- `strip_prefix("0x")`, or the text as it is. -/
def strip0x : List UInt8 → List UInt8
  | 48 :: 120 :: rest => rest
  | text => text

structure RegistrationMessage where
  jobCapacity : ℕ
  signTimestamp : ℕ
  env : ℕ
  owner : H160
  signature : List UInt8
deriving DecidableEq

inductive Response (W : Type) where
  | ok (body : String)
  | badRequest (body : String)
  /-- a body that ends with the error -/
  | badHex (body : String) (err : Hex.FromHexError)
  | internalServerError (body : String)
  /-- the address of the gas wallet is zero without a client -/
  | details (owner : H160) (gasAddress : Option W)
  | registration (message : RegistrationMessage)

/-- What the executor is started with, and what it computes by other crates: the wallet of a gas
key, the transaction of a job response, and the signatures of the enclave key. -/
structure Env (W T : Type) where
  config : Config
  jobCapacity : ℕ
  fromBytes : List UInt8 → Option W
  generateTxn : JobsTxnMetadata JobsTxn → Option T
  sign : ℕ → JobOutput → Option (List UInt8)
  signRegistration : H160 → ℕ → Option (List UInt8)

/-- A `JobCreated` log that was delivered, the block of the registration that was in force, and
what was done. -/
structure Handled where
  registeredAt : Option ℕ
  log : JobCreatedLog
  actions : List Action

/-- The fields of `AppState` that change; the channel and the pending transactions of each
connection; and the history, which no task reads. -/
structure AppState (W T : Type) where
  immutableParamsInjected : Bool := false
  mutableParamsInjected : Bool := false
  eventsListenerActive : Bool := false
  enclaveOwner : H160 := H160.zero
  node : Node W := {}
  listener : Listener := { lastBlockSeen := 0, enclaveRegistered := false }
  now : ℕ := 0
  connections : ℕ := 0
  channel : ℕ → List (JobsTxnMetadata JobsTxn) := fun _ => []
  pending : ℕ → List (PendingTxnData W JobsTxn T) := fun _ => []
  registeredAt : Option ℕ := none
  handled : List Handled := []

variable {W T : Type}

namespace AppState

def putChannel (s : AppState W T) (k : ℕ) (ms : List (JobsTxnMetadata JobsTxn)) : AppState W T :=
  { s with channel := Function.update s.channel k ms }

def putPending (s : AppState W T) (k : ℕ) (ps : List (PendingTxnData W JobsTxn T)) :
    AppState W T :=
  { s with pending := Function.update s.pending k ps }

end AppState

def injectImmutableConfig (ownerAddressHex : List UInt8) (s : AppState W T) :
    Response W × AppState W T :=
  if s.immutableParamsInjected then
    (.badRequest "Immutable params already configured!\n", s)
  else match Hex.decode (strip0x ownerAddressHex) with
    | .error err => (.badHex "Invalid owner address hex string: " err, s)
    | .ok ownerAddress =>
      if h : ownerAddress.length = 20 then
        (.ok "Immutable params configured!\n",
          { s with enclaveOwner := ⟨ownerAddress, h⟩, immutableParamsInjected := true })
      else (.badRequest "Owner address must be 20 bytes long!\n", s)

/-- The wallet of an injected gas key. -/
def gasWallet (fromBytes : List UInt8 → Option W) (gasKeyHex : List UInt8) :
    Except (Response W) W :=
  match Hex.decode (strip0x gasKeyHex) with
  | .error err => .error (.badHex "Invalid gas private key hex string: " err)
  | .ok bytes32GasKey =>
    if bytes32GasKey.length ≠ 32 then
      .error (.badRequest "Gas private key must be 32 bytes long!\n")
    else match fromBytes bytes32GasKey with
      | none => .error (.badRequest "Invalid gas private key provided: ")
      | some wallet => .ok wallet

inductive Proc (W T : Type) where
  | clock
  | immutableConfig (ownerAddressHex : List UInt8)
  | mutableConfig (gasKeyHex : List UInt8)
  /-- `get_transaction_count` -/
  | nonceCount (wallet : W)
  | writeNonce (wallet : W) (nonce : ℕ)
  | writeClient
  | writeFlag
  | details
  | detailsClient
  | registration
  | registrationMutable
  | registrationOwner
  | registrationClient (message : RegistrationMessage)
  /-- `get_block_number` -/
  | registrationBlock (message : RegistrationMessage)
  | registrationListen (message : RegistrationMessage) (currentBlockNumber : Option ℕ)
  | answered (response : Response W)
  -- `events_listener`
  | connecting (startingBlock : ℕ)
  /-- the stream of the registrations of this enclave by the owner -/
  | registering (startingBlock : ℕ) (owner : H160)
  | subscribing (startingBlock : ℕ)
  /-- `handle_event_logs`, with the number of the connection -/
  | handling (startingBlock k : ℕ)
  | left (startingBlock : ℕ)
  | returning
  -- the tasks of a connection
  | sending (k : ℕ) (t : Task W) (jobResponse : Option (JobsTxnMetadata JobsTxn))
  | resending (k : ℕ) (t : Resend W JobsTxn T)
  | timeout (k : ℕ) (t : TimeoutTask)
  | job (k jobId userDeadline : ℕ)
  | finished
  /-- the client was unwrapped and was none -/
  | panicked

/-- What comes from outside: the requests, and the time. -/
def Outside : Proc W T → Prop
  | .clock | .immutableConfig _ | .mutableConfig _ | .details | .registration => True
  | _ => False

/-- The tasks that a handled log spawns. -/
def spawn (k now : ℕ) (actions : List Action) : List (Proc W T) :=
  (timeoutTasks now actions).map (.timeout k) ++ actions.filterMap fun
    | .handleJob jobId _ _ userDeadline => some (.job k jobId userDeadline)
    | _ => none

def AppState.resender (s : AppState W T) (k : ℕ) (t : Resend W JobsTxn T) :
    Resender W JobsTxn T where
  httpRpcClient := s.node.httpRpcClient
  enclaveRegistered := s.listener.enclaveRegistered
  pendingTxns := s.pending k
  task := t
  handed := []
  popped := none

def AppState.session (s : AppState W T) : Session where
  listener := s.listener
  now := s.now

def TimeoutTxn.metadata (t : TimeoutTxn) : JobsTxnMetadata JobsTxn :=
  ⟨⟨.timeout, t.jobId, none⟩, t.retryDeadline⟩

variable [DecidableEq W]

inductive Own (env : Env W T) :
    AppState W T → Proc W T → Unit → AppState W T → Proc W T → List (Proc W T) → Prop
  | clock {s : AppState W T} {ms : ℕ} :
      Own env s .clock () { s with now := s.now + ms } .clock []
  -- `inject_immutable_config`, all of it under the lock
  | immutableConfig {s s' : AppState W T} {hex : List UInt8} {response : Response W} :
      injectImmutableConfig hex s = (response, s') →
      Own env s (.immutableConfig hex) () s' (.answered response) []
  -- `inject_mutable_config`; the lock is held from the nonce to the flag
  | mutableConfig {s : AppState W T} {hex : List UInt8} {wallet : W} :
      gasWallet env.fromBytes hex = .ok wallet →
      Own env s (.mutableConfig hex) () s (.nonceCount wallet) []
  | mutableConfigRefused {s : AppState W T} {hex : List UInt8} {response : Response W} :
      gasWallet env.fromBytes hex = .error response →
      Own env s (.mutableConfig hex) () s (.answered response) []
  | mutableConfigUnconnected {s : AppState W T} {hex : List UInt8} :
      Own env s (.mutableConfig hex) () s
        (.answered (.internalServerError "Failed to initialize the http rpc server ")) []
  | nonceCount {s : AppState W T} {wallet : W} {nonce : ℕ} :
      Own env s (.nonceCount wallet) () s (.writeNonce wallet nonce) []
  | nonceCountFailed {s : AppState W T} {wallet : W} :
      Own env s (.nonceCount wallet) () s (.answered
        (.internalServerError "Failed to fetch current nonce for the gas address: ")) []
  | writeNonce {s : AppState W T} {senders : Senders W} {wallet : W} {nonce : ℕ} :
      Senders.step ⟨s.node, []⟩ (.injectNonce wallet nonce) = some senders →
      Own env s (.writeNonce wallet nonce) () { s with node := senders.node } .writeClient []
  | writeClient {s : AppState W T} {senders : Senders W} :
      Senders.step ⟨s.node, []⟩ .injectClient = some senders →
      Own env s .writeClient () { s with node := senders.node } .writeFlag []
  | writeFlag {s : AppState W T} :
      Own env s .writeFlag () { s with mutableParamsInjected := true }
        (.answered (.ok "Mutable params configured!\n")) []
  -- `get_executor_details`
  | details {s : AppState W T} : s.mutableParamsInjected = true →
      Own env s .details () s .detailsClient []
  | detailsUnset {s : AppState W T} : s.mutableParamsInjected = false →
      Own env s .details () s (.answered (.details s.enclaveOwner none)) []
  | detailsClient {s : AppState W T} {wallet : W} : s.node.httpRpcClient = some wallet →
      Own env s .detailsClient () s (.answered (.details s.enclaveOwner (some wallet))) []
  | detailsPanics {s : AppState W T} : s.node.httpRpcClient = none →
      Own env s .detailsClient () s .panicked []
  -- `export_signed_registration_message`
  | registration {s : AppState W T} : s.immutableParamsInjected = true →
      Own env s .registration () s .registrationMutable []
  | registrationRefused {s : AppState W T} : s.immutableParamsInjected = false →
      Own env s .registration () s
        (.answered (.badRequest "Immutable params not configured yet!\n")) []
  | registrationMutable {s : AppState W T} : s.mutableParamsInjected = true →
      Own env s .registrationMutable () s .registrationOwner []
  | registrationMutableRefused {s : AppState W T} : s.mutableParamsInjected = false →
      Own env s .registrationMutable () s
        (.answered (.badRequest "Mutable params not configured yet!\n")) []
  | registrationOwner {s : AppState W T} {signTimestamp : ℕ} {signature : List UInt8} :
      env.signRegistration s.enclaveOwner signTimestamp = some signature →
      Own env s .registrationOwner () s (.registrationClient
        ⟨env.jobCapacity, signTimestamp, executionEnvId, s.enclaveOwner, signature⟩) []
  | registrationUnsigned {s : AppState W T} {signTimestamp : ℕ} :
      env.signRegistration s.enclaveOwner signTimestamp = none →
      Own env s .registrationOwner () s (.answered
        (.internalServerError "Failed to sign the registration message using enclave key: ")) []
  | registrationClient {s : AppState W T} {message : RegistrationMessage} {wallet : W} :
      s.node.httpRpcClient = some wallet →
      Own env s (.registrationClient message) () s (.registrationBlock message) []
  | registrationPanics {s : AppState W T} {message : RegistrationMessage} :
      s.node.httpRpcClient = none → Own env s (.registrationClient message) () s .panicked []
  | registrationBlock {s : AppState W T} {message : RegistrationMessage} {block : Option ℕ} :
      Own env s (.registrationBlock message) () s (.registrationListen message block) []
  | registrationListening {s : AppState W T} {message : RegistrationMessage} {block : Option ℕ} :
      s.eventsListenerActive = true →
      Own env s (.registrationListen message block) () s (.answered (.registration message)) []
  | registrationUnlistened {s : AppState W T} {message : RegistrationMessage} :
      s.eventsListenerActive = false →
      Own env s (.registrationListen message none) () s (.answered
        (.internalServerError "Failed to fetch the latest block number of the common chain")) []
  | registrationListen {s : AppState W T} {message : RegistrationMessage} {block : ℕ} :
      s.eventsListenerActive = false →
      Own env s (.registrationListen message (some block)) ()
        { s with eventsListenerActive := true } (.answered (.registration message))
        [.connecting block]
  -- `events_listener`
  | connectFailed {s : AppState W T} {start : ℕ} :
      Own env s (.connecting start) () s (.connecting start) []
  | connectedRegistered {s : AppState W T} {start : ℕ} : s.listener.enclaveRegistered = true →
      Own env s (.connecting start) () s (.subscribing start) []
  | connected {s : AppState W T} {start : ℕ} : s.listener.enclaveRegistered = false →
      Own env s (.connecting start) () s (.registering start s.enclaveOwner) []
  | registeringRemoved {s : AppState W T} {start : ℕ} {owner : H160} {removed : Option Bool} :
      removed.getD true = true →
      Own env s (.registering start owner) () s (.registering start owner) []
  | registered {s : AppState W T} {start : ℕ} {owner : H160} {removed : Option Bool}
      {block : Option ℕ} : removed.getD true = false →
      Own env s (.registering start owner) ()
        { s with
          listener := { s.listener with
            enclaveRegistered := true, lastBlockSeen := block.getD start }
          registeredAt := some (block.getD start) }
        (.subscribing start) []
  | registeringEnded {s : AppState W T} {start : ℕ} {owner : H160} :
      Own env s (.registering start owner) () s
        (if s.listener.enclaveRegistered then .subscribing start else .connecting start) []
  | subscribeFailed {s : AppState W T} {start : ℕ} :
      Own env s (.subscribing start) () s (.connecting start) []
  | subscribed {s : AppState W T} {start : ℕ} :
      Own env s (.subscribing start) () { s with connections := s.connections + 1 }
        (.handling start s.connections)
        [.resending s.connections .idle, .sending s.connections .waiting none]
  | created {s : AppState W T} {start k : ℕ} {log : JobCreatedLog} {listener : Listener}
      {actions : List Action} : handleJobCreated env.config s.listener log = (listener, actions) →
      Own env s (.handling start k) ()
        { s with listener := listener, handled := s.handled ++ [⟨s.registeredAt, log, actions⟩] }
        (.handling start k) (spawn k s.now actions)
  | responded {s : AppState W T} {start k : ℕ} {log : JobRespondedLog} :
      Own env s (.handling start k) ()
        { s with listener := handleJobResponded env.config s.listener log } (.handling start k) []
  | deregisteredRemoved {s : AppState W T} {start k : ℕ} {removed : Option Bool} :
      removed.getD true = true →
      Own env s (.handling start k) () s (.handling start k) []
  | deregistered {s : AppState W T} {start k : ℕ} {removed : Option Bool} :
      removed.getD true = false →
      Own env s (.handling start k) ()
        { s with listener := handleDeregistered s.listener removed, registeredAt := none }
        (.left start) []
  | streamsEnded {s : AppState W T} {start k : ℕ} :
      Own env s (.handling start k) () s (.left start) []
  | left {s : AppState W T} {start : ℕ} :
      Own env s (.left start) () s
        (if s.listener.enclaveRegistered then .connecting start else .returning) []
  | returning {s : AppState W T} :
      Own env s .returning () { s with eventsListenerActive := false } .finished []
  -- `send_execution_output`
  | received {s : AppState W T} {k : ℕ} {m : JobsTxnMetadata JobsTxn}
      {rest : List (JobsTxnMetadata JobsTxn)} {held : Option (JobsTxnMetadata JobsTxn)}
      {node : Node W} {t' : Task W} :
      s.channel k = m :: rest → (env.generateTxn m).isSome →
      Task.step s.node .waiting .received = some (node, t') →
      Own env s (.sending k .waiting held) ()
        (AppState.putChannel { s with node := node } k rest)
        (.sending k t' (some m)) []
  | receivedPanics {s : AppState W T} {k : ℕ} {m : JobsTxnMetadata JobsTxn}
      {rest : List (JobsTxnMetadata JobsTxn)} {held : Option (JobsTxnMetadata JobsTxn)} :
      s.channel k = m :: rest → env.generateTxn m = none →
      Own env s (.sending k .waiting held) () (s.putChannel k rest) .finished []
  | accepted {s : AppState W T} {k : ℕ} {m : JobsTxnMetadata JobsTxn} {client : W} {a : Attempt}
      {nonce hash : ℕ} {node : Node W} {t' : Task W} :
      Task.step s.node (.sending client a nonce) .accepted = some (node, t') →
      Own env s (.sending k (.sending client a nonce) (some m)) ()
        (AppState.putPending { s with node := node } k
          (s.pending k ++ [⟨hash, m, client, nonce, a.gasLimit, a.gasPrice, s.now, []⟩]))
        (.sending k t' (some m)) []
  | sending {s : AppState W T} {k : ℕ} {held : Option (JobsTxnMetadata JobsTxn)}
      {t t' : Task W} {e : TaskEvent} {node : Node W} :
      e ≠ .received → e ≠ .accepted → Task.step s.node t e = some (node, t') →
      Own env s (.sending k t held) () { s with node := node } (.sending k t' held) []
  -- `resend_pending_transaction`
  | resending {s : AppState W T} {k : ℕ} {t : Resend W JobsTxn T}
      {e : ResendEvent W JobsTxn T} {r : Resender W JobsTxn T} :
      (s.resender k t).stepTask env.generateTxn t e = some r →
      Own env s (.resending k t) ()
        ((s.putPending k r.pendingTxns).putChannel k (s.channel k ++ r.handed))
        (.resending k r.task) []
  -- `handle_timeout`
  | timeout {s : AppState W T} {k : ℕ} {t t' : TimeoutTask} {e : TimeoutEvent}
      {session : Session} : t.step env.config s.session e = some (session, t') →
      Own env s (.timeout k t) ()
        (AppState.putChannel { s with listener := session.listener } k
          (s.channel k ++ session.channel.map TimeoutTxn.metadata))
        (.timeout k t') []
  -- `handle_job`
  | job {s : AppState W T} {k jobId userDeadline deadline signTimestamp : ℕ}
      {response : Option (Option JobOutput)} {m : JobsTxnMetadata JobsTxn} :
      asU64 userDeadline = some deadline →
      handleJob env.config deadline env.sign jobId response signTimestamp s.now = some (some m) →
      Own env s (.job k jobId userDeadline) () (s.putChannel k (s.channel k ++ [m])) .finished []
  -- no output, no signature, a closed channel or a panic
  | jobEnds {s : AppState W T} {k jobId userDeadline : ℕ} :
      Own env s (.job k jobId userDeadline) () s .finished []

/-- The tasks of one executor, of which none is there at first. -/
def Reached (env : Env W T) (s : System (AppState W T) (Proc W T)) : Prop :=
  ∃ ls, Run (Step Outside (Own env)) (⟨{}, []⟩ : System (AppState W T) (Proc W T)) ls s

end Oyster.Executor
