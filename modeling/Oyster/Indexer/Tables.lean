import Oyster.ControlPlane.Types
import Oyster.Lib.Table

/-!
The schema of the migrations and the statements that the handlers run on it. A foreign key is a
field of `Db`, so that a row of a job that does not exist cannot be built. A word printed in a
`CHAR` column is kept as the word, a `NUMERIC` as an integer and a `TIMESTAMP` as the seconds
since the epoch.
-/

namespace Oyster.Indexer

open ControlPlane

abbrev Address := BitVec 160

structure Provider where
  id : Address
  cp : String
  isActive : Bool
deriving DecidableEq

structure Job where
  id : B256
  metadata : String
  owner : Address
  provider : Address
  rate : ℤ
  balance : ℤ
  lastSettled : ℕ
  created : ℕ
  isClosed : Bool
deriving DecidableEq

/-- A row of `revise_rate_requests`. -/
structure ReviseRateRequest where
  id : B256
  value : ℤ
  updatesAt : ℕ
deriving DecidableEq

structure Transaction where
  block : ℤ
  idx : ℤ
  txHash : B256
  job : B256
  amount : ℤ
  isDeposit : Bool
deriving DecidableEq

namespace Transaction

def key (t : Transaction) : ℤ × ℤ := (t.block, t.idx)

/-- What the row adds to the balance of its job. -/
def signed (t : Transaction) : ℤ := if t.isDeposit then t.amount else -t.amount

end Transaction

structure Db where
  providers : Table Provider.id
  jobs : Table Job.id
  requests : Table ReviseRateRequest.id
  transactions : Table Transaction.key
  requests_job : ∀ r ∈ requests.rows, r.id ∈ jobs.rows.map Job.id
  transactions_job : ∀ t ∈ transactions.rows, t.job ∈ jobs.rows.map Job.id

/-- Which values PostgreSQL takes for a `TEXT` and a `TIMESTAMP` column: a string with a NUL
character and a time out of range are refused, and then the statement fails. -/
structure Postgres where
  takesText : String → Bool
  takesTimestamp : ℕ → Bool

namespace Db

def empty : Db where
  providers := .empty
  jobs := .empty
  requests := .empty
  transactions := .empty
  requests_job := by simp
  transactions_job := by simp

def setProviders (db : Db) (providers : Table Provider.id) : Db :=
  { db with providers := providers }

def insertJob (db : Db) (job : Job) : Option Db :=
  match h : db.jobs.insert job with
  | none => none
  | some jobs => some { db with
      jobs := jobs
      requests_job := fun r hr => by
        rw [(Table.insert_eq_some.1 h).2, List.map_append]
        exact List.mem_append_left _ (db.requests_job r hr)
      transactions_job := fun t ht => by
        rw [(Table.insert_eq_some.1 h).2, List.map_append]
        exact List.mem_append_left _ (db.transactions_job t ht) }

def updateJobs (db : Db) (p : Job → Bool) (f : Job → Job) (hf : ∀ job, (f job).id = job.id) : Db :=
  { db with
    jobs := db.jobs.update p f hf
    requests_job := by simpa using db.requests_job
    transactions_job := by simpa using db.transactions_job }

/-- Fails where the job does not exist. -/
def insertRequest (db : Db) (request : ReviseRateRequest) : Option Db :=
  if hjob : request.id ∈ db.jobs.rows.map Job.id then
    match h : db.requests.insert request with
    | none => none
    | some requests => some { db with
        requests := requests
        requests_job := fun r hr => by
          rw [(Table.insert_eq_some.1 h).2, List.mem_append, List.mem_singleton] at hr
          rcases hr with hr | rfl
          · exact db.requests_job r hr
          · exact hjob }
  else none

def deleteRequests (db : Db) (p : ReviseRateRequest → Bool) : Db :=
  { db with
    requests := db.requests.delete p
    requests_job := fun r hr => db.requests_job r (List.mem_of_mem_filter hr) }

def insertTransaction (db : Db) (tx : Transaction) : Option Db :=
  if hjob : tx.job ∈ db.jobs.rows.map Job.id then
    match h : db.transactions.insert tx with
    | none => none
    | some transactions => some { db with
        transactions := transactions
        transactions_job := fun t ht => by
          rw [(Table.insert_eq_some.1 h).2, List.mem_append, List.mem_singleton] at ht
          rcases ht with ht | rfl
          · exact db.transactions_job t ht
          · exact hjob }
  else none

variable {db db' : Db}

theorem insertJob_eq {job : Job} (h : db.insertJob job = some db') :
    db.jobs.insert job = some db'.jobs ∧ db'.providers = db.providers ∧
      db'.requests = db.requests ∧ db'.transactions = db.transactions := by
  unfold insertJob at h
  split at h
  · cases h
  next jobs hjobs =>
    cases h
    exact ⟨hjobs, rfl, rfl, rfl⟩

theorem insertJob_isSome {job : Job} (h : db.jobs.find? job.id = none) :
    ∃ db', db.insertJob job = some db' := by
  have hmem : job.id ∉ db.jobs.rows.map Job.id := Table.find?_eq_none.1 h
  unfold insertJob
  split
  next hins => simp [Table.insert, hmem] at hins
  next jobs hins => exact ⟨_, rfl⟩

@[simp] theorem updateJobs_jobs (db : Db) (p : Job → Bool) (f : Job → Job)
    (hf : ∀ job, (f job).id = job.id) : (db.updateJobs p f hf).jobs = db.jobs.update p f hf := rfl

@[simp] theorem updateJobs_requests (db : Db) (p : Job → Bool) (f : Job → Job)
    (hf : ∀ job, (f job).id = job.id) : (db.updateJobs p f hf).requests = db.requests := rfl

@[simp] theorem updateJobs_transactions (db : Db) (p : Job → Bool) (f : Job → Job)
    (hf : ∀ job, (f job).id = job.id) : (db.updateJobs p f hf).transactions = db.transactions := rfl

@[simp] theorem updateJobs_providers (db : Db) (p : Job → Bool) (f : Job → Job)
    (hf : ∀ job, (f job).id = job.id) : (db.updateJobs p f hf).providers = db.providers := rfl

theorem insertRequest_eq {request : ReviseRateRequest} (h : db.insertRequest request = some db') :
    db.requests.insert request = some db'.requests ∧ db'.providers = db.providers ∧
      db'.jobs = db.jobs ∧ db'.transactions = db.transactions := by
  unfold insertRequest at h
  split at h
  · split at h
    · cases h
    next requests hins =>
      cases h
      exact ⟨hins, rfl, rfl, rfl⟩
  · cases h

theorem insertRequest_isSome {request : ReviseRateRequest}
    (hjob : request.id ∈ db.jobs.rows.map Job.id) (h : db.requests.find? request.id = none) :
    ∃ db', db.insertRequest request = some db' := by
  have hmem : request.id ∉ db.requests.rows.map ReviseRateRequest.id := Table.find?_eq_none.1 h
  unfold insertRequest
  rw [dif_pos hjob]
  split
  next hins => simp [Table.insert, hmem] at hins
  next requests hins => exact ⟨_, rfl⟩

theorem insertTransaction_eq {tx : Transaction} (h : db.insertTransaction tx = some db') :
    db.transactions.insert tx = some db'.transactions ∧ db'.providers = db.providers ∧
      db'.jobs = db.jobs ∧ db'.requests = db.requests := by
  unfold insertTransaction at h
  split at h
  · split at h
    · cases h
    next transactions hins =>
      cases h
      exact ⟨hins, rfl, rfl, rfl⟩
  · cases h

theorem insertTransaction_isSome {tx : Transaction} (hjob : tx.job ∈ db.jobs.rows.map Job.id)
    (h : db.transactions.find? tx.key = none) : ∃ db', db.insertTransaction tx = some db' := by
  have hmem : tx.key ∉ db.transactions.rows.map Transaction.key := Table.find?_eq_none.1 h
  unfold insertTransaction
  rw [dif_pos hjob]
  split
  next hins => simp [Table.insert, hmem] at hins
  next transactions hins => exact ⟨_, rfl⟩

end Db

end Oyster.Indexer
