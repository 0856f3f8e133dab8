import Oyster.Indexer.Handlers

namespace Oyster.Indexer

open ControlPlane Fallible

inductive JobChange where
  | settled (amount timestamp : ℕ)
  | closed
  | deposited (block idx : ℤ) (hash : B256) (amount : ℕ)
  | withdrew (block idx : ℤ) (hash : B256) (amount : ℕ)
  | rateFinalized (rate : ℕ)
  | metadataUpdated (metadata : String)

namespace JobChange

def row : JobChange → Job → Job
  | settled amount timestamp, job =>
    { job with balance := job.balance - amount, lastSettled := timestamp }
  | closed, job => { job with isClosed := true }
  | deposited _ _ _ amount, job => { job with balance := job.balance + amount }
  | withdrew _ _ _ amount, job => { job with balance := job.balance - amount }
  | rateFinalized rate, job => { job with rate := rate }
  | metadataUpdated metadata, job => { job with metadata := metadata }

def transaction (id : B256) : JobChange → Option Transaction
  | deposited block idx hash amount => some ⟨block, idx, hash, id, amount, true⟩
  | withdrew block idx hash amount => some ⟨block, idx, hash, id, amount, false⟩
  | _ => none

/-- Whether PostgreSQL takes the values of the change. -/
def takes (pg : Postgres) : JobChange → Bool
  | settled _ timestamp => pg.takesTimestamp timestamp
  | metadataUpdated metadata => pg.takesText metadata
  | _ => true

@[simp] theorem row_id (c : JobChange) (job : Job) : (c.row job).id = job.id := by
  cases c <;> rfl

end JobChange

inductive Record where
  | providerAdded (provider : Address) (cp : String)
  | providerRemoved (provider : Address)
  | providerUpdatedWithCp (provider : Address) (cp : String)
  /-- a new job, and the deposit that opens it -/
  | opened (job : Job) (block idx : ℤ) (hash : B256)
  | changed (id : B256) (change : JobChange)
  | requested (request : ReviseRateRequest)
  | unrequested (id : B256)
  | nothing

section Read

variable (codec : Codec) (log : Log)

def readJobOpened : Except Error Record := do
  let id ← log.topic 1
  let owner := addressFromWord (← log.topic 2)
  let provider := addressFromWord (← log.topic 3)
  let (metadata, rate, balance, timestamp) ← decoded (codec.openedData log.data)
  let timestamp ← systemTime timestamp
  let (block, idx, hash) ← log.place
  return .opened {
    id := id
    metadata := metadata
    owner := owner
    provider := provider
    rate := rate.toNat
    balance := balance.toNat
    lastSettled := timestamp
    created := timestamp
    isClosed := false } block idx hash

def readRateLockCreated : Except Error Record := do
  let id ← log.topic 2
  let (value, timestamp) ← decoded (codec.settledData log.data)
  let timestamp ← systemTime timestamp
  return .requested ⟨id, value.toNat, timestamp⟩

def readAmount (change : ℤ → ℤ → B256 → ℕ → JobChange) : Except Error Record := do
  let id ← log.topic 1
  let amount ← decoded (codec.u256Data log.data)
  let (block, idx, hash) ← log.place
  return .changed id (change block idx hash amount.toNat)

def readType : Option LogType → Except Error Record
  | some .providerAdded => do
    let provider := addressFromWord (← log.topic 1)
    return .providerAdded provider (← decoded (codec.stringData log.data))
  | some .providerRemoved => do
    let provider := addressFromWord (← log.topic 1)
    return .providerRemoved provider
  | some .providerUpdatedWithCp => do
    let provider := addressFromWord (← log.topic 1)
    return .providerUpdatedWithCp provider (← decoded (codec.stringData log.data))
  | some (.job .jobOpened) => readJobOpened codec log
  | some (.job .jobSettled) => do
    let id ← log.topic 1
    let (amount, timestamp) ← decoded (codec.settledData log.data)
    let timestamp ← systemTime timestamp
    return .changed id (.settled amount.toNat timestamp)
  | some (.job .jobClosed) => do
    let id ← log.topic 1
    return .changed id .closed
  | some (.job .jobDeposited) => readAmount codec log .deposited
  | some (.job .jobWithdrew) => readAmount codec log .withdrew
  | some (.job .jobReviseRateFinalized) => do
    let id ← log.topic 1
    let rate ← decoded (codec.u256Data log.data)
    return .changed id (.rateFinalized rate.toNat)
  | some (.job .metadataUpdated) => do
    let id ← log.topic 1
    let metadata ← decoded (codec.stringData log.data)
    return .changed id (.metadataUpdated metadata)
  | some .lockCreated => do
    let selector ← log.topic 1
    if selector = rateLockSelector then readRateLockCreated codec log else .ok .nothing
  | some .lockDeleted => do
    let selector ← log.topic 1
    if selector = rateLockSelector then do
      let id ← log.topic 2
      return .unrequested id
    else .ok .nothing
  | _ => .ok .nothing

def readLog : Except Error Record :=
  match log.topics.head? with
  | none => .error (.msg "log does not have topic0, should never happen")
  | some topic => readType codec log (logType topic)

end Read

namespace Record

variable (pg : Postgres) (db : Db)

def insertDeposit (tx : Option Transaction) : Except Error Db :=
  match tx with
  | none => .ok db
  | some tx =>
    match db.insertTransaction tx with
    | none => .error (.msg (if tx.isDeposit then "failed to create deposit"
        else "failed to create withdraw"))
    | some db => .ok db

theorem deactivated_id (row : Provider) : { row with isActive := false }.id = row.id := rfl

theorem withCp_id (cp : String) (row : Provider) : { row with cp := cp }.id = row.id := rfl

def apply : Record → Except Error Db
  | providerAdded provider cp =>
    if pg.takesText cp then
      if (upsertProvider db provider cp).2 = 1 then .ok (upsertProvider db provider cp).1
      else .error (.msg "did not expect to find existing provider")
    else .error (.msg "failed to add provider")
  | providerRemoved provider =>
    updateActiveProvider db provider (fun row => { row with isActive := false })
      deactivated_id
  | providerUpdatedWithCp provider cp =>
    if pg.takesText cp then
      updateActiveProvider db provider (fun row => { row with cp := cp }) (withCp_id cp)
    else .error (.msg "failed to update provider")
  | opened job block idx hash =>
    if pg.takesText job.metadata && pg.takesTimestamp job.lastSettled then
      match db.insertJob job with
      | none => .error (.msg "failed to create job")
      | some db => insertDeposit db (some ⟨block, idx, hash, job.id, job.balance, true⟩)
    else .error (.msg "failed to create job")
  | changed id change =>
    if change.takes pg then
      updateOpenJob db id change.row change.row_id >>= fun db =>
        insertDeposit db (change.transaction id)
    else .error (.msg "failed to update job")
  | requested request => insertRequestOfOpenJob pg db request
  | unrequested id => .ok (db.deleteRequests fun request => request.id = id)
  | nothing => .ok db

end Record

section Eq

attribute [local simp] Record.apply Record.insertDeposit JobChange.takes JobChange.transaction

variable (codec : Codec) (pg : Postgres) (db : Db) (log : Log)

theorem handleJob_eq (e : MarketEvent) :
    handleType codec pg db log (some (.job e)) =
      readType codec log (some (.job e)) >>= fun r => r.apply pg db := by
  cases e with
  | jobOpened =>
    simp only [handleType, readType, handleJobOpened, readJobOpened, bind_assoc, pure_bind]
    rfl
  | jobSettled =>
    simp [handleType, readType, handleJobSettled]
    all_goals rfl
  | jobClosed =>
    simp [handleType, readType, handleJobClosed]
    all_goals rfl
  | jobDeposited =>
    simp [handleType, readType, handleJobDeposited, readAmount]
    all_goals rfl
  | jobWithdrew =>
    simp [handleType, readType, handleJobWithdrew, readAmount]
    all_goals rfl
  | jobReviseRateInitiated => rfl
  | jobReviseRateCancelled => rfl
  | jobReviseRateFinalized =>
    simp [handleType, readType, handleJobReviseRateFinalized]
    all_goals rfl
  | metadataUpdated =>
    simp [handleType, readType, handleJobMetadataUpdated]
    all_goals rfl

theorem handleLockCreated_eq :
    handleLockCreated codec pg db log =
      readType codec log (some .lockCreated) >>= fun r => r.apply pg db := by
  unfold handleLockCreated readType
  cases log.topic 1 with
  | error e => rfl
  | ok selector =>
    by_cases hsel : selector = rateLockSelector
    · simp [hsel, handleRateLockCreated, readRateLockCreated]
    · simp [hsel]

theorem handleLockDeleted_eq :
    handleLockDeleted db log =
      readType codec log (some .lockDeleted) >>= fun r => r.apply pg db := by
  unfold handleLockDeleted readType
  cases log.topic 1 with
  | error e => rfl
  | ok selector =>
    by_cases hsel : selector = rateLockSelector
    · simp [hsel]
      all_goals rfl
    · simp [hsel]

end Eq

/-- The handlers read their log, and then act on what they read. -/
theorem handleLog_eq (codec : Codec) (pg : Postgres) (db : Db) (log : Log) :
    handleLog codec pg db log = readLog codec log >>= fun r => r.apply pg db := by
  unfold handleLog readLog
  cases log.topics.head? with
  | none => rfl
  | some topic =>
    dsimp only
    cases logType topic with
    | none => rfl
    | some t =>
      cases t with
      | providerAdded => simp [handleType, readType, handleProviderAdded, Record.apply]
      | providerRemoved => simp [handleType, readType, handleProviderRemoved, Record.apply]
      | providerUpdatedWithCp =>
        simp [handleType, readType, handleProviderUpdatedWithCp, Record.apply]
      | job e => exact handleJob_eq codec pg db log e
      | lockCreated => exact handleLockCreated_eq codec pg db log
      | lockDeleted => exact handleLockDeleted_eq codec pg db log
      | ignored e => rfl

theorem handleLog_ok {codec : Codec} {pg : Postgres} {db db' : Db} {log : Log} :
    handleLog codec pg db log = .ok db' ↔
      ∃ r, readLog codec log = .ok r ∧ r.apply pg db = .ok db' := by
  rw [handleLog_eq, bind_ok]

section Read

variable {codec : Codec} {log : Log} {r : Record}

theorem topic_ok {i : ℕ} {w : B256} : log.topic i = .ok w ↔ log.topics[i]? = some w := by
  unfold Log.topic
  cases log.topics[i]? <;> simp

theorem decoded_ok {α : Type} {x : Option α} {a : α} : decoded x = .ok a ↔ x = some a := by
  cases x <;> simp [decoded]

/-- What `handle_log` makes of a log. -/
def Log.type (log : Log) : Option LogType := log.topics.head?.bind logType

theorem Log.event_eq {e : MarketEvent} : log.event = some e ↔ log.type = some (.job e) := by
  unfold ControlPlane.Log.event Log.type
  cases log.topics.head? with
  | none => simp
  | some topic =>
    rw [Option.bind_some, Option.bind_some]
    constructor
    · intro h
      have htopic : topic = (LogType.job e).topic := topic_of_marketEvent h
      rw [htopic, logType_topic]
    · intro h
      have htopic : topic = e.topic := topic_of_logType h
      rw [htopic, marketEvent_topic]

inductive Reads (codec : Codec) (log : Log) : Option LogType → Record → Prop
  | providerAdded {provider : B256} {cp : String} :
    log.topics[1]? = some provider → codec.stringData log.data = some cp →
    Reads codec log (some .providerAdded) (.providerAdded (addressFromWord provider) cp)
  | providerRemoved {provider : B256} : log.topics[1]? = some provider →
    Reads codec log (some .providerRemoved) (.providerRemoved (addressFromWord provider))
  | providerUpdatedWithCp {provider : B256} {cp : String} :
    log.topics[1]? = some provider → codec.stringData log.data = some cp →
    Reads codec log (some .providerUpdatedWithCp)
      (.providerUpdatedWithCp (addressFromWord provider) cp)
  | jobOpened {id owner provider hash : B256} {metadata : String} {rate balance timestamp : U256}
      {t : ℕ} {block idx : ℤ} :
    log.topics[1]? = some id → log.topics[2]? = some owner → log.topics[3]? = some provider →
    codec.openedData log.data = some (metadata, rate, balance, timestamp) →
    systemTime timestamp = .ok t → log.place = .ok (block, idx, hash) →
    Reads codec log (some (.job .jobOpened)) (.opened {
      id := id
      metadata := metadata
      owner := addressFromWord owner
      provider := addressFromWord provider
      rate := rate.toNat
      balance := balance.toNat
      lastSettled := t
      created := t
      isClosed := false } block idx hash)
  | jobSettled {id : B256} {amount timestamp : U256} {t : ℕ} :
    log.topics[1]? = some id → codec.settledData log.data = some (amount, timestamp) →
    systemTime timestamp = .ok t →
    Reads codec log (some (.job .jobSettled)) (.changed id (.settled amount.toNat t))
  | jobClosed {id : B256} : log.topics[1]? = some id →
    Reads codec log (some (.job .jobClosed)) (.changed id .closed)
  | jobDeposited {id hash : B256} {amount : U256} {block idx : ℤ} :
    log.topics[1]? = some id → codec.u256Data log.data = some amount →
    log.place = .ok (block, idx, hash) →
    Reads codec log (some (.job .jobDeposited))
      (.changed id (.deposited block idx hash amount.toNat))
  | jobWithdrew {id hash : B256} {amount : U256} {block idx : ℤ} :
    log.topics[1]? = some id → codec.u256Data log.data = some amount →
    log.place = .ok (block, idx, hash) →
    Reads codec log (some (.job .jobWithdrew)) (.changed id (.withdrew block idx hash amount.toNat))
  | rateInitiated : Reads codec log (some (.job .jobReviseRateInitiated)) .nothing
  | rateCancelled : Reads codec log (some (.job .jobReviseRateCancelled)) .nothing
  | rateFinalized {id : B256} {rate : U256} :
    log.topics[1]? = some id → codec.u256Data log.data = some rate →
    Reads codec log (some (.job .jobReviseRateFinalized)) (.changed id (.rateFinalized rate.toNat))
  | metadataUpdated {id : B256} {metadata : String} :
    log.topics[1]? = some id → codec.stringData log.data = some metadata →
    Reads codec log (some (.job .metadataUpdated)) (.changed id (.metadataUpdated metadata))
  | rateLockCreated {id : B256} {value timestamp : U256} {t : ℕ} :
    log.topics[1]? = some rateLockSelector → log.topics[2]? = some id →
    codec.settledData log.data = some (value, timestamp) → systemTime timestamp = .ok t →
    Reads codec log (some .lockCreated) (.requested ⟨id, value.toNat, t⟩)
  | otherLockCreated {selector : B256} :
    log.topics[1]? = some selector → selector ≠ rateLockSelector →
    Reads codec log (some .lockCreated) .nothing
  | rateLockDeleted {id : B256} :
    log.topics[1]? = some rateLockSelector → log.topics[2]? = some id →
    Reads codec log (some .lockDeleted) (.unrequested id)
  | otherLockDeleted {selector : B256} :
    log.topics[1]? = some selector → selector ≠ rateLockSelector →
    Reads codec log (some .lockDeleted) .nothing
  | ignored (e : IgnoredEvent) : Reads codec log (some (.ignored e)) .nothing
  | unknown : Reads codec log none .nothing

theorem reads_job {e : MarketEvent} (h : readType codec log (some (.job e)) = .ok r) :
    Reads codec log (some (.job e)) r := by
  cases e with
  | jobOpened =>
    simp only [readType, readJobOpened, bind_ok, topic_ok, decoded_ok, pure_ok] at h
    obtain ⟨id, hid, owner, howner, provider, hprovider, data, hdata, t, ht, place, hplace,
      rfl⟩ := h
    exact .jobOpened hid howner hprovider hdata ht hplace
  | jobSettled =>
    simp only [readType, bind_ok, topic_ok, decoded_ok, pure_ok] at h
    obtain ⟨id, hid, data, hdata, t, ht, rfl⟩ := h
    exact .jobSettled hid hdata ht
  | jobClosed =>
    simp only [readType, bind_ok, topic_ok, pure_ok] at h
    obtain ⟨id, hid, rfl⟩ := h
    exact .jobClosed hid
  | jobDeposited =>
    simp only [readType, readAmount, bind_ok, topic_ok, decoded_ok, pure_ok] at h
    obtain ⟨id, hid, amount, hdata, place, hplace, rfl⟩ := h
    exact .jobDeposited hid hdata hplace
  | jobWithdrew =>
    simp only [readType, readAmount, bind_ok, topic_ok, decoded_ok, pure_ok] at h
    obtain ⟨id, hid, amount, hdata, place, hplace, rfl⟩ := h
    exact .jobWithdrew hid hdata hplace
  | jobReviseRateInitiated =>
    cases h
    exact .rateInitiated
  | jobReviseRateCancelled =>
    cases h
    exact .rateCancelled
  | jobReviseRateFinalized =>
    simp only [readType, bind_ok, topic_ok, decoded_ok, pure_ok] at h
    obtain ⟨id, hid, rate, hdata, rfl⟩ := h
    exact .rateFinalized hid hdata
  | metadataUpdated =>
    simp only [readType, bind_ok, topic_ok, decoded_ok, pure_ok] at h
    obtain ⟨id, hid, metadata, hdata, rfl⟩ := h
    exact .metadataUpdated hid hdata

theorem reads_of_readType {t : Option LogType} (h : readType codec log t = .ok r) :
    Reads codec log t r := by
  cases t with
  | none =>
    cases h
    exact .unknown
  | some t =>
    cases t with
    | providerAdded =>
      simp only [readType, bind_ok, topic_ok, decoded_ok, pure_ok] at h
      obtain ⟨provider, hprovider, cp, hdata, rfl⟩ := h
      exact .providerAdded hprovider hdata
    | providerRemoved =>
      simp only [readType, bind_ok, topic_ok, pure_ok] at h
      obtain ⟨provider, hprovider, rfl⟩ := h
      exact .providerRemoved hprovider
    | providerUpdatedWithCp =>
      simp only [readType, bind_ok, topic_ok, decoded_ok, pure_ok] at h
      obtain ⟨provider, hprovider, cp, hdata, rfl⟩ := h
      exact .providerUpdatedWithCp hprovider hdata
    | job e => exact reads_job h
    | lockCreated =>
      simp only [readType, bind_ok, topic_ok] at h
      obtain ⟨selector, hselector, h⟩ := h
      -- only a lock on the rate is kept; the other kinds are ignored
      split at h
      next heq =>
        simp only [readRateLockCreated, bind_ok, topic_ok, decoded_ok, pure_ok] at h
        obtain ⟨id, hid, data, hdata, t, ht, rfl⟩ := h
        exact .rateLockCreated (heq ▸ hselector) hid hdata ht
      next hne =>
        cases h
        exact .otherLockCreated hselector hne
    | lockDeleted =>
      simp only [readType, bind_ok, topic_ok] at h
      obtain ⟨selector, hselector, h⟩ := h
      split at h
      next heq =>
        simp only [bind_ok, topic_ok, pure_ok] at h
        obtain ⟨id, hid, rfl⟩ := h
        exact .rateLockDeleted (heq ▸ hselector) hid
      next hne =>
        cases h
        exact .otherLockDeleted hselector hne
    | ignored e =>
      cases h
      exact .ignored e

theorem Reads.readType {t : Option LogType} (h : Reads codec log t r) :
    readType codec log t = .ok r := by
  cases h <;> simp_all [Indexer.readType, readJobOpened, readAmount, readRateLockCreated, Log.topic,
    decoded]

theorem readLog_ok :
    readLog codec log = .ok r ↔ log.topics.head?.isSome ∧ Reads codec log log.type r := by
  unfold readLog Log.type
  cases log.topics.head? with
  | none => simp
  | some topic =>
    simp only [Option.isSome_some, true_and, Option.bind_some]
    exact ⟨reads_of_readType, Reads.readType⟩

end Read

theorem count_openJob {db : Db} {id : B256} :
    db.jobs.count (openJob id) = 1 ↔ ∃ job, db.jobs.find? id = some job ∧ job.isClosed = false := by
  show (db.jobs.count fun job => decide (job.id = id) && job.isClosed == false) = 1 ↔ _
  rw [Table.count_eq_one]
  simp only [beq_iff_eq]

theorem updateOpenJob_ok {db db' : Db} {id : B256} {f : Job → Job}
    {hf : ∀ job, (f job).id = job.id} :
    updateOpenJob db id f hf = .ok db' ↔
      (∃ job, db.jobs.find? id = some job ∧ job.isClosed = false) ∧
        db' = db.updateJobs (openJob id) f hf := by
  rw [← count_openJob]
  unfold updateOpenJob
  split
  next h => simp [h, eq_comm]
  next h => simp [h]

theorem find?_updateOpenJob (db : Db) (id k : B256) (f : Job → Job)
    (hf : ∀ job, (f job).id = job.id) :
    (db.updateJobs (openJob id) f hf).jobs.find? k =
      (db.jobs.find? k).map fun job => if k = id ∧ job.isClosed = false then f job else job := by
  rw [Db.updateJobs_jobs, Table.find?_update]
  refine Option.map_congr fun job hjob => ?_
  have hid : job.id = k := (Table.find?_eq_some.1 hjob).2
  simp [openJob, hid]

namespace Record

variable {pg : Postgres} {db db' : Db}

theorem insertDeposit_ok {tx : Option Transaction} (h : insertDeposit db tx = .ok db') :
    db'.jobs = db.jobs ∧ db'.requests = db.requests ∧ db'.providers = db.providers ∧
      db'.transactions.rows = db.transactions.rows ++ tx.toList := by
  unfold insertDeposit at h
  split at h
  · cases h
    exact ⟨rfl, rfl, rfl, by simp⟩
  next tx =>
    split at h
    · cases h
    next db₁ hins =>
      cases h
      obtain ⟨htx, hproviders, hjobs, hrequests⟩ := Db.insertTransaction_eq hins
      exact ⟨hjobs, hrequests, hproviders, (Table.insert_eq_some.1 htx).2⟩

theorem opened_ok {job : Job} {block idx : ℤ} {hash : B256}
    (h : (opened job block idx hash).apply pg db = .ok db') :
    db.jobs.insert job = some db'.jobs ∧ db'.requests = db.requests ∧
      db'.transactions.rows =
        db.transactions.rows ++ [⟨block, idx, hash, job.id, job.balance, true⟩] := by
  rw [apply] at h
  split at h
  · split at h
    · cases h
    next db₁ hins =>
      obtain ⟨hjobs, -, hrequests, htx⟩ := Db.insertJob_eq hins
      obtain ⟨hjobs', hrequests', -, htx'⟩ := insertDeposit_ok h
      exact ⟨hjobs' ▸ hjobs, hrequests'.trans hrequests, by rw [htx', htx]; rfl⟩
  · cases h

theorem changed_ok {id : B256} {change : JobChange}
    (h : (changed id change).apply pg db = .ok db') :
    (∃ job, db.jobs.find? id = some job ∧ job.isClosed = false) ∧
      db'.jobs = (db.updateJobs (openJob id) change.row change.row_id).jobs ∧
      db'.requests = db.requests ∧
      db'.transactions.rows = db.transactions.rows ++ (change.transaction id).toList := by
  rw [apply] at h
  split at h
  · obtain ⟨db₁, hdb₁, h⟩ := bind_ok.1 h
    obtain ⟨hopen, rfl⟩ := updateOpenJob_ok.1 hdb₁
    obtain ⟨hjobs, hrequests, -, htx⟩ := insertDeposit_ok h
    exact ⟨hopen, hjobs, hrequests, htx⟩
  · cases h

theorem insertRequestOfOpenJob_ok {request : ReviseRateRequest}
    (h : insertRequestOfOpenJob pg db request = .ok db') :
    (∃ job, db.jobs.find? request.id = some job ∧ job.isClosed = false) ∧
      db.requests.insert request = some db'.requests ∧ db'.jobs = db.jobs ∧
      db'.transactions = db.transactions := by
  unfold insertRequestOfOpenJob at h
  split at h
  · cases h
  · split at h
    · cases h
    next hcount =>
      split at h
      · cases h
      next db₁ hins =>
        cases h
        obtain ⟨hrequests, -, hjobs, htx⟩ := Db.insertRequest_eq hins
        exact ⟨count_openJob.1 (not_not.1 hcount), hrequests, hjobs, htx⟩

theorem updateActiveProvider_ok {provider : Address} {f : Provider → Provider}
    {hf : ∀ row, (f row).id = row.id} (h : updateActiveProvider db provider f hf = .ok db') :
    db' = db.setProviders (db.providers.update (activeProvider provider) f hf) := by
  unfold updateActiveProvider at h
  dsimp only at h
  split at h
  · cases h
    rfl
  · cases h

def transaction : Record → Option Transaction
  | opened job block idx hash => some ⟨block, idx, hash, job.id, job.balance, true⟩
  | changed id change => change.transaction id
  | _ => none

def job? : Record → Option B256
  | opened job _ _ _ => some job.id
  | changed id _ => some id
  | _ => none

theorem apply_other {r : Record} (hjob : r.job? = none) (h : r.apply pg db = .ok db') :
    db'.jobs = db.jobs ∧ db'.transactions = db.transactions := by
  cases r with
  | providerAdded provider cp =>
    simp only [apply] at h
    split at h
    · split at h
      · cases h
        unfold upsertProvider
        split <;> exact ⟨rfl, rfl⟩
      · cases h
    · cases h
  | providerRemoved provider =>
    rw [updateActiveProvider_ok h]
    exact ⟨rfl, rfl⟩
  | providerUpdatedWithCp provider cp =>
    simp only [apply] at h
    split at h
    · rw [updateActiveProvider_ok h]
      exact ⟨rfl, rfl⟩
    · cases h
  | opened job block idx hash => cases hjob
  | changed id change => cases hjob
  | requested request => exact (insertRequestOfOpenJob_ok h).2.2
  | unrequested id =>
    cases h
    exact ⟨rfl, rfl⟩
  | nothing =>
    cases h
    exact ⟨rfl, rfl⟩

theorem apply_transactions {r : Record} (h : r.apply pg db = .ok db') :
    db'.transactions.rows = db.transactions.rows ++ r.transaction.toList := by
  cases r with
  | opened job block idx hash => exact (opened_ok h).2.2
  | changed id change => exact (changed_ok h).2.2.2
  | _ =>
    rw [(apply_other rfl h).2]
    exact (List.append_nil _).symm

/-- What a record does to the row of a job: it creates it, changes it while it is open, or leaves
it as it is. -/
theorem apply_job {r : Record} (h : r.apply pg db = .ok db') (id : B256) :
    (∃ job block idx hash, r = opened job block idx hash ∧ job.id = id ∧
        db.jobs.find? id = none ∧ db'.jobs.find? id = some job) ∨
      (∃ change job, r = changed id change ∧ db.jobs.find? id = some job ∧
        job.isClosed = false ∧ db'.jobs.find? id = some (change.row job)) ∨
      (r.job? ≠ some id ∧ db'.jobs.find? id = db.jobs.find? id) := by
  cases r with
  | opened job block idx hash =>
    have hins := (opened_ok h).1
    have hfind := Table.find?_insert hins id
    by_cases hid : job.id = id
    · rw [if_pos hid] at hfind
      have hnone := (Table.insert_eq_some.1 hins).1
      exact .inl ⟨job, block, idx, hash, rfl, hid, hid ▸ hnone, hfind⟩
    · rw [if_neg hid] at hfind
      exact .inr (.inr ⟨by simpa [job?] using hid, hfind⟩)
  | changed k change =>
    obtain ⟨⟨job, hjob, hopen⟩, hjobs, -, -⟩ := changed_ok h
    have hfind := find?_updateOpenJob db k id change.row change.row_id
    rw [← hjobs] at hfind
    by_cases hid : k = id
    · subst hid
      rw [hjob, Option.map_some, if_pos ⟨rfl, hopen⟩] at hfind
      exact .inr (.inl ⟨change, job, rfl, hjob, hopen, hfind⟩)
    · refine .inr (.inr ⟨by simpa [job?] using hid, ?_⟩)
      rw [hfind]
      cases db.jobs.find? id with
      | none => rfl
      | some job => simp [Ne.symm hid]
  | _ => exact .inr (.inr ⟨nofun, by rw [(apply_other rfl h).1]⟩)

end Record

end Oyster.Indexer
