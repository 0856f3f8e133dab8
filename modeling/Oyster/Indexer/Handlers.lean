import Oyster.Indexer.Tables
import Oyster.Lib.Fallible

/-!
`handlers/` of the indexer, with one definition for each handler. A handler runs inside the
transaction of `event_loop`, which undoes it on an error: it returns the tables it leaves or the
error, never both.
-/

namespace Oyster.Indexer

open ControlPlane

structure Log extends ControlPlane.Log where
  blockNumber : Option (BitVec 64)
  logIndex : Option (BitVec 64)
  transactionHash : Option B256
deriving DecidableEq

inductive Error where
  /-- an `anyhow!` message, or the context of a statement that failed -/
  | msg (text : String)
  /-- the error of a decoder -/
  | decode
  | panicked
deriving DecidableEq

/-- The logs that no handler changes anything for, and that are not reported either. -/
inductive IgnoredEvent where
  | upgraded
  | lockWaitTimeUpdated
  | roleGranted
  | tokenUpdated
  | initialized
deriving DecidableEq

/-- The keccak256 hash of the event signature. -/
def IgnoredEvent.topic : IgnoredEvent → B256
  | upgraded => 0xbc7cd75a20ee27fd9adebab32041f755214dbc6bffa90cc0225b39da2e5c2d3b
  | lockWaitTimeUpdated => 0x21a54b9df4e6fa389ce6d626ac659fe37069cae439958c382c427376f9fe5e4c
  | roleGranted => 0x2f8788117e7eff1d82e926ec794901d17c78024a50270940304540a733656f0d
  | tokenUpdated => 0x0b1186973f810894b87ab0bfbee422fddcaad21b46dc705a561451bbb6bac117
  | initialized => 0x7f26b83ff96e1f2b6a682f133852f6798a09c465da95921460cefb3847402498

/-- What `handle_log` makes of the first topic. -/
inductive LogType where
  | providerAdded
  | providerRemoved
  | providerUpdatedWithCp
  | job (event : MarketEvent)
  | lockCreated
  | lockDeleted
  | ignored (event : IgnoredEvent)
deriving DecidableEq

def LogType.topic : LogType → B256
  | providerAdded => 0x685b3f0c2702c8946b2f7fcfbc7ad4802d34b86a128adc5b5fb99570d27f5357
  | providerRemoved => 0x1589f8555933761a3cff8aa925061be3b46e2dd43f621322ab611d300f62b1d9
  | providerUpdatedWithCp => 0x16aa293866804eb57e17688cdf865583ca3ea47890988b4854569cc4e8d62b5b
  | job event => event.topic
  | lockCreated => 0x0d858fafaaaabbcb3b2d1ecac6142eb509664ef8d0cae011942541e3273001d5
  | lockDeleted => 0xdbe35a54268d79c0dfe35aa29c4972c87611267a6b4db6414ffa0c2ae78ac649
  | ignored event => event.topic

/-- The order in which `handle_log` compares the first topic. -/
def LogType.all : List LogType :=
  [providerAdded, providerRemoved, providerUpdatedWithCp, job .jobOpened, job .jobSettled,
    job .jobClosed, job .jobDeposited, job .jobWithdrew, job .jobReviseRateInitiated,
    job .jobReviseRateCancelled, job .jobReviseRateFinalized, job .metadataUpdated, lockCreated,
    lockDeleted, ignored .upgraded, ignored .lockWaitTimeUpdated, ignored .roleGranted,
    ignored .tokenUpdated, ignored .initialized]

def logType (topic : B256) : Option LogType := LogType.all.find? fun t => t.topic = topic

@[simp] theorem logType_topic (t : LogType) : logType t.topic = some t := by
  cases t with
  | job event => cases event <;> decide
  | ignored event => cases event <;> decide
  | _ => decide

theorem topic_of_logType {topic : B256} {t : LogType} (h : logType topic = some t) :
    topic = t.topic := by
  have h' := List.find?_some h
  exact (of_decide_eq_true h').symm

/-- `keccak256!("RATE_LOCK")`. -/
def rateLockSelector : B256 :=
  0xbb00c34f1a27e23493f1bd516e88ec0af9b091cc990f207e765f5bd5af012243

namespace Log

/-- `log.topics()[i]`. -/
def topic (log : Log) (i : ℕ) : Except Error B256 :=
  match log.topics[i]? with
  | some word => .ok word
  | none => .error .panicked

/-- The position and the transaction of a log, as columns. -/
def place (log : Log) : Except Error (ℤ × ℤ × B256) :=
  match log.blockNumber, log.logIndex, log.transactionHash with
  | none, _, _ => .error (.msg "did not get block from log")
  | some _, none, _ => .error (.msg "did not get index from log")
  | some _, some _, none => .error (.msg "did not get tx hash from log")
  | some block, some idx, some hash => .ok (block.toInt, idx.toInt, hash)

end Log

def decoded {α : Type} : Option α → Except Error α
  | some a => .ok a
  | none => .error .decode

/-- `Address::from_word`. -/
def addressFromWord (word : B256) : Address := word.setWidth 160

/-- `UNIX_EPOCH + Duration::from_secs(secs.into_limbs()[0])`, which panics beyond an `i64`. -/
def systemTime (secs : U256) : Except Error ℕ :=
  if secs.toNat % 2 ^ 64 < 2 ^ 63 then .ok (secs.toNat % 2 ^ 64) else .error .panicked

section Handlers

variable (codec : Codec) (pg : Postgres) (db : Db) (log : Log)

/-- `INSERT .. ON CONFLICT (id) DO UPDATE SET .. WHERE is_active = false`: the tables and the
number of rows written. -/
def upsertProvider (provider : Address) (cp : String) : Db × ℕ :=
  match db.providers.insert { id := provider, cp := cp, isActive := true } with
  | some providers => (db.setProviders providers, 1)
  | none =>
    let matches_ := fun row : Provider => decide (row.id = provider) && row.isActive == false
    (db.setProviders (db.providers.update matches_
      (fun row => { row with isActive := true, cp := cp }) fun _ => rfl),
      db.providers.count matches_)

def handleProviderAdded : Except Error Db := do
  let provider := addressFromWord (← log.topic 1)
  let cp ← decoded (codec.stringData log.data)
  if pg.takesText cp then
    if (upsertProvider db provider cp).2 = 1 then .ok (upsertProvider db provider cp).1
    else .error (.msg "did not expect to find existing provider")
  else .error (.msg "failed to add provider")

/-- The rows that an update of an active provider matches. -/
def activeProvider (provider : Address) (row : Provider) : Bool :=
  decide (row.id = provider) && row.isActive

/-- `UPDATE providers SET .. WHERE id = .. AND is_active = true`. -/
def updateActiveProvider (provider : Address) (f : Provider → Provider)
    (hf : ∀ row, (f row).id = row.id) : Except Error Db :=
  let count := db.providers.count (activeProvider provider)
  if count = 1 then .ok (db.setProviders (db.providers.update (activeProvider provider) f hf))
  else .error (.msg s!"count {count} should have been 1")

def handleProviderRemoved : Except Error Db := do
  let provider := addressFromWord (← log.topic 1)
  updateActiveProvider db provider (fun row => { row with isActive := false }) fun _ => rfl

def handleProviderUpdatedWithCp : Except Error Db := do
  let provider := addressFromWord (← log.topic 1)
  let cp ← decoded (codec.stringData log.data)
  if pg.takesText cp then
    updateActiveProvider db provider (fun row => { row with cp := cp }) fun _ => rfl
  else .error (.msg "failed to update provider")

def handleJobOpened : Except Error Db := do
  let id ← log.topic 1
  let owner := addressFromWord (← log.topic 2)
  let provider := addressFromWord (← log.topic 3)
  let (metadata, rate, balance, timestamp) ← decoded (codec.openedData log.data)
  let timestamp ← systemTime timestamp
  let (block, idx, hash) ← log.place
  let job : Job := {
    id := id
    metadata := metadata
    owner := owner
    provider := provider
    rate := rate.toNat
    balance := balance.toNat
    lastSettled := timestamp
    created := timestamp
    isClosed := false }
  if pg.takesText metadata && pg.takesTimestamp timestamp then
    match db.insertJob job with
    | none => .error (.msg "failed to create job")
    | some db =>
      match db.insertTransaction ⟨block, idx, hash, id, balance.toNat, true⟩ with
      | none => .error (.msg "failed to create deposit")
      | some db => .ok db
  else .error (.msg "failed to create job")

/-- The rows that an update of an open job matches. -/
def openJob (id : B256) (job : Job) : Bool := decide (job.id = id) && job.isClosed == false

/-- `UPDATE jobs SET .. WHERE id = .. AND is_closed = false`: where the job does not exist or is
closed, no row changes and the handler fails. -/
def updateOpenJob (id : B256) (f : Job → Job) (hf : ∀ job, (f job).id = job.id) :
    Except Error Db :=
  if db.jobs.count (openJob id) = 1 then .ok (db.updateJobs (openJob id) f hf)
  else .error (.msg "could not find job")

def handleJobSettled : Except Error Db := do
  let id ← log.topic 1
  let (amount, timestamp) ← decoded (codec.settledData log.data)
  let timestamp ← systemTime timestamp
  if pg.takesTimestamp timestamp then
    updateOpenJob db id (fun job =>
      { job with balance := job.balance - amount.toNat, lastSettled := timestamp }) fun _ => rfl
  else .error (.msg "failed to update job")

def handleJobClosed : Except Error Db := do
  let id ← log.topic 1
  updateOpenJob db id (fun job => { job with isClosed := true }) fun _ => rfl

def handleJobDeposited : Except Error Db := do
  let id ← log.topic 1
  let amount ← decoded (codec.u256Data log.data)
  let (block, idx, hash) ← log.place
  let db ← updateOpenJob db id (fun job => { job with balance := job.balance + amount.toNat })
    fun _ => rfl
  match db.insertTransaction ⟨block, idx, hash, id, amount.toNat, true⟩ with
  | none => .error (.msg "failed to create deposit")
  | some db => .ok db

def handleJobWithdrew : Except Error Db := do
  let id ← log.topic 1
  let amount ← decoded (codec.u256Data log.data)
  let (block, idx, hash) ← log.place
  let db ← updateOpenJob db id (fun job => { job with balance := job.balance - amount.toNat })
    fun _ => rfl
  match db.insertTransaction ⟨block, idx, hash, id, amount.toNat, false⟩ with
  | none => .error (.msg "failed to create withdraw")
  | some db => .ok db

/-- Empty impl, supposed to be handled by `LockCreated`. -/
def handleJobReviseRateInitiated : Except Error Db := .ok db

/-- Empty impl, supposed to be handled by `LockDeleted`. -/
def handleJobReviseRateCancelled : Except Error Db := .ok db

def handleJobReviseRateFinalized : Except Error Db := do
  let id ← log.topic 1
  let rate ← decoded (codec.u256Data log.data)
  updateOpenJob db id (fun job => { job with rate := rate.toNat }) fun _ => rfl

def handleJobMetadataUpdated : Except Error Db := do
  let id ← log.topic 1
  let metadata ← decoded (codec.stringData log.data)
  if pg.takesText metadata then
    updateOpenJob db id (fun job => { job with metadata := metadata }) fun _ => rfl
  else .error (.msg "failed to update job")

/-- `INSERT INTO revise_rate_requests SELECT .. FROM jobs WHERE ..`: only for an open job. -/
def insertRequestOfOpenJob (request : ReviseRateRequest) : Except Error Db :=
  if !pg.takesTimestamp request.updatesAt then
    .error (.msg "failed to create revise rate request")
  else if db.jobs.count (openJob request.id) ≠ 1 then
    .error (.msg "did not expect to find a non existent request or closed job")
  else
    match db.insertRequest request with
    | none => .error (.msg "failed to create revise rate request")
    | some db => .ok db

def handleRateLockCreated : Except Error Db := do
  let id ← log.topic 2
  let (value, timestamp) ← decoded (codec.settledData log.data)
  let timestamp ← systemTime timestamp
  insertRequestOfOpenJob pg db ⟨id, value.toNat, timestamp⟩

/-- A lock with another selector is skipped. -/
def handleLockCreated : Except Error Db := do
  let selector ← log.topic 1
  if selector = rateLockSelector then handleRateLockCreated codec pg db log else .ok db

/-- Closing a job emits two `LockDeleted` events, so the number of rows is not checked. -/
def handleLockDeleted : Except Error Db := do
  let selector ← log.topic 1
  if selector = rateLockSelector then do
    let id ← log.topic 2
    return db.deleteRequests fun request => request.id = id
  else .ok db

/-- The branch of `handle_log` for a type; an unknown one is passed over. -/
def handleType : Option LogType → Except Error Db
  | some .providerAdded => handleProviderAdded codec pg db log
  | some .providerRemoved => handleProviderRemoved db log
  | some .providerUpdatedWithCp => handleProviderUpdatedWithCp codec pg db log
  | some (.job .jobOpened) => handleJobOpened codec pg db log
  | some (.job .jobSettled) => handleJobSettled codec pg db log
  | some (.job .jobClosed) => handleJobClosed db log
  | some (.job .jobDeposited) => handleJobDeposited codec db log
  | some (.job .jobWithdrew) => handleJobWithdrew codec db log
  | some (.job .jobReviseRateInitiated) => handleJobReviseRateInitiated db
  | some (.job .jobReviseRateCancelled) => handleJobReviseRateCancelled db
  | some (.job .jobReviseRateFinalized) => handleJobReviseRateFinalized codec db log
  | some (.job .metadataUpdated) => handleJobMetadataUpdated codec pg db log
  | some .lockCreated => handleLockCreated codec pg db log
  | some .lockDeleted => handleLockDeleted db log
  | some (.ignored _) => .ok db
  | none => .ok db

def handleLog : Except Error Db :=
  match log.topics.head? with
  | none => .error (.msg "log does not have topic0, should never happen")
  | some topic => handleType codec pg db log (logType topic)

end Handlers

/-- The logs of a range, one after the other, up to the first that fails. -/
def handleLogs (codec : Codec) (pg : Postgres) (db : Db) (logs : List Log) : Except Error Db :=
  logs.foldlM (handleLog codec pg) db

end Oyster.Indexer
