import Oyster.ControlPlane.JobState
import Oyster.Indexer.Records

namespace Oyster.Indexer

open ControlPlane Fallible

/-- The amount that a log settles for a job. -/
def settledBy (codec : Codec) (id : B256) (log : Log) : ℤ :=
  if log.event = some .jobSettled ∧ log.topics[1]? = some id then
    ((codec.settledData log.data).elim 0 fun d => d.1.toNat : ℕ)
  else 0

/-- The logs that move money into a job or out of it. -/
def movesMoney (log : Log) : Bool :=
  log.event = some .jobOpened || log.event = some .jobDeposited || log.event = some .jobWithdrew

/-- The row books the log: its place, its job and its amount. -/
structure Books (codec : Codec) (log : Log) (tx : Transaction) : Prop where
  place : log.place = .ok (tx.block, tx.idx, tx.txHash)
  job : log.topics[1]? = some tx.job
  amount : log.event = some .jobOpened ∧
        (∃ metadata rate balance timestamp, codec.openedData log.data =
          some (metadata, rate, balance, timestamp) ∧ tx.amount = (balance.toNat : ℤ)) ∨
      log.event ≠ some .jobOpened ∧
        ∃ amount, codec.u256Data log.data = some amount ∧ tx.amount = (amount.toNat : ℤ)
  isDeposit : tx.isDeposit = decide (log.event ≠ some .jobWithdrew)

/-- The sum of the rows of a job. -/
def bookedFor (db : Db) (id : B256) : ℤ :=
  ((db.transactions.rows.filter fun tx => tx.job = id).map Transaction.signed).sum

def balanceOf (db : Db) (id : B256) : ℤ := (db.jobs.find? id).elim 0 Job.balance

namespace Record

/-- The amount that a record settles for a job. -/
def settles (id : B256) : Record → ℤ
  | changed k (.settled amount _) => if k = id then amount else 0
  | _ => 0

/-- The amount that a record books for a job. -/
def books (id : B256) (r : Record) : ℤ :=
  r.transaction.elim 0 fun tx => if tx.job = id then tx.signed else 0

end Record

section Log

variable {codec : Codec} {pg : Postgres} {db db' : Db} {log : Log} {r : Record}

theorem Reads.settledBy {t : Option LogType} (h : Reads codec log t r)
    (ht : ∀ e, log.event = some e ↔ t = some (.job e)) (id : B256) :
    settledBy codec id log = r.settles id := by
  unfold Indexer.settledBy
  simp only [ht]
  cases h with
  | @jobSettled k amount timestamp s hid hdata _ =>
    rw [hid, hdata]
    by_cases hk : k = id
    · simp [Record.settles, hk]
    · simp [Record.settles, hk]
  | _ => simp [Record.settles]

theorem Reads.movesMoney {t : Option LogType} (h : Reads codec log t r)
    (ht : ∀ e, log.event = some e ↔ t = some (.job e)) :
    movesMoney log = r.transaction.isSome := by
  unfold Indexer.movesMoney
  simp only [ht]
  cases h <;> rfl

theorem Reads.books {t : Option LogType} (h : Reads codec log t r)
    (ht : ∀ e, log.event = some e ↔ t = some (.job e)) {tx : Transaction}
    (htx : r.transaction = some tx) : Books codec log tx := by
  have hopened := ht .jobOpened
  have hwithdrew := ht .jobWithdrew
  cases h with
  | @jobOpened id owner provider hash metadata rate balance timestamp s block idx hid _ _ hdata _
      hplace =>
    cases htx
    exact {
      place := hplace
      job := hid
      amount := .inl ⟨hopened.2 rfl, metadata, rate, balance, timestamp, hdata, rfl⟩
      isDeposit := by simp [hwithdrew] }
  | @jobDeposited id hash amount block idx hid hdata hplace =>
    cases htx
    exact {
      place := hplace
      job := hid
      amount := .inr ⟨by simp [hopened], amount, hdata, rfl⟩
      isDeposit := by simp [hwithdrew] }
  | @jobWithdrew id hash amount block idx hid hdata hplace =>
    cases htx
    exact {
      place := hplace
      job := hid
      amount := .inr ⟨by simp [hopened], amount, hdata, rfl⟩
      isDeposit := by simp [hwithdrew] }
  | _ => cases htx

theorem handleLog_money (h : handleLog codec pg db log = .ok db') :
    ∃ r : Record, r.apply pg db = .ok db' ∧ (∀ id, settledBy codec id log = r.settles id) ∧
      movesMoney log = r.transaction.isSome ∧
      ∀ tx, r.transaction = some tx → Books codec log tx := by
  obtain ⟨r, hread, happly⟩ := handleLog_ok.1 h
  have hreads := (readLog_ok.1 hread).2
  have htype : ∀ e, log.event = some e ↔ log.type = some (.job e) := fun e => Log.event_eq
  exact ⟨r, happly, hreads.settledBy htype, hreads.movesMoney htype, fun tx => hreads.books htype⟩

theorem bookedFor_apply (h : r.apply pg db = .ok db') (id : B256) :
    bookedFor db' id = bookedFor db id + r.books id := by
  unfold bookedFor Record.books
  rw [Record.apply_transactions h, List.filter_append, List.map_append, List.sum_append]
  -- a record appends one transaction at most
  congr 1
  cases r.transaction with
  | none => rfl
  | some tx => by_cases htx : tx.job = id <;> simp [htx]

/-- A record changes the balance of a job by what it books, less what it settles. -/
theorem balanceOf_apply (h : r.apply pg db = .ok db') (id : B256) :
    balanceOf db' id = balanceOf db id + r.books id - r.settles id := by
  unfold balanceOf Record.books
  -- the row is new, it is changed, or the record is about another job
  rcases Record.apply_job h id with ⟨job, block, idx, hash, rfl, rfl, hnone, hjob⟩ |
    ⟨change, job, rfl, hjob, -, hjob'⟩ | ⟨hother, hsame⟩
  · simp [hnone, hjob, Record.transaction, Record.settles, Transaction.signed]
  · rw [hjob, hjob']
    cases change <;>
      simp [Record.transaction, Record.settles, JobChange.transaction, JobChange.row,
        Transaction.signed, sub_eq_add_neg]
  · rw [hsame]
    cases r with
    | opened job block idx hash =>
      have hne : job.id ≠ id := fun h => hother (congrArg some h)
      simp [Record.transaction, Record.settles, hne]
    | changed k change =>
      have hne : k ≠ id := fun h => hother (congrArg some h)
      cases change <;> simp [Record.transaction, Record.settles, JobChange.transaction, hne]
    | _ => simp [Record.transaction, Record.settles]

theorem handleLog_closed (h : handleLog codec pg db log = .ok db') {id : B256} {job : Job}
    (hjob : db.jobs.find? id = some job) (hclosed : job.isClosed = true) :
    db'.jobs.find? id = some job := by
  obtain ⟨r, -, happly⟩ := handleLog_ok.1 h
  -- a closed job is neither opened again nor changed
  rcases Record.apply_job happly id with ⟨_, _, _, _, rfl, -, hnone, -⟩ |
    ⟨change, job', rfl, hjob', hopen, -⟩ | ⟨-, hsame⟩
  · rw [hjob] at hnone
    cases hnone
  · rw [hjob, Option.some.injEq] at hjob'
    rw [← hjob', hclosed] at hopen
    cases hopen
  · rw [hsame, hjob]

theorem handleLog_jobClosed (h : handleLog codec pg db log = .ok db')
    (hevent : log.event = some .jobClosed) {id : B256} (hid : log.topics[1]? = some id) :
    ∃ job, db'.jobs.find? id = some job ∧ job.isClosed = true := by
  obtain ⟨r, hread, happly⟩ := handleLog_ok.1 h
  have hreads := (readLog_ok.1 hread).2
  rw [Log.event_eq.1 hevent] at hreads
  cases hreads with
  | jobClosed hk =>
    rw [hid, Option.some.injEq] at hk
    subst hk
    rcases Record.apply_job happly id with ⟨_, _, _, _, hr, -, -, -⟩ |
      ⟨change, job, hr, hjob, -, hjob'⟩ | ⟨hother, -⟩
    · cases hr
    · cases hr
      exact ⟨_, hjob', rfl⟩
    · exact absurd rfl hother

end Log

/-- The tables agree with the logs that were handled. -/
structure Booked (codec : Codec) (done : List Log) (db : Db) : Prop where
  balance : ∀ id, balanceOf db id = bookedFor db id - (done.map (settledBy codec id)).sum
  transactions : List.Forall₂ (Books codec) (done.filter movesMoney) db.transactions.rows

section Run

variable {codec : Codec} {pg : Postgres} {db db' : Db} {logs done : List Log} {log : Log}

theorem Booked.step (hdb : Booked codec done db) (h : handleLog codec pg db log = .ok db') :
    Booked codec (done ++ [log]) db' := by
  obtain ⟨r, happly, hsettles, hmoves, hbooks⟩ := handleLog_money h
  constructor
  · intro id
    have hbal := balanceOf_apply happly id
    have hbook := bookedFor_apply happly id
    have hdone := hdb.balance id
    rw [List.map_append, List.sum_append, List.map_singleton, List.sum_singleton, hsettles]
    omega
  · rw [Record.apply_transactions happly, List.filter_append]
    refine List.rel_append hdb.transactions ?_
    cases htx : r.transaction with
    | none => simp [hmoves, htx]
    | some tx => simp [hmoves, htx, hbooks tx htx]

theorem booked (h : handleLogs codec pg .empty logs = .ok db) : Booked codec logs db :=
  foldlM_prefix_invariant (Booked codec) (fun _ _ _ _ hdb hs => Booked.step hdb hs) h
    ⟨fun _ => rfl, .nil⟩

theorem handleLogs_closed (h : handleLogs codec pg db logs = .ok db') {id : B256} {job : Job}
    (hjob : db.jobs.find? id = some job) (hclosed : job.isClosed = true) :
    db'.jobs.find? id = some job := by
  have hstep : ∀ (db : Db) log db', db.jobs.find? id = some job →
      handleLog codec pg db log = .ok db' → db'.jobs.find? id = some job :=
    fun _ _ _ hdb hs => handleLog_closed hs hdb hclosed
  exact foldlM_invariant (fun db => db.jobs.find? id = some job) hstep h hjob

/-- Whatever logs are accepted: the balance of a job is the sum of its transactions less what
was settled, the transactions are one row for each log that moves money, in order, and a job
keeps its row from its closing log on. -/
theorem ledger (h : handleLogs codec pg .empty logs = .ok db) :
    (∀ id job, db.jobs.find? id = some job →
      job.balance = bookedFor db id - (logs.map (settledBy codec id)).sum) ∧
    List.Forall₂ (Books codec) (logs.filter movesMoney) db.transactions.rows ∧
    ∀ before log after id, logs = before ++ log :: after → log.event = some .jobClosed →
      log.topics[1]? = some id →
      ∃ db₁ job, handleLogs codec pg .empty (before ++ [log]) = .ok db₁ ∧
        db₁.jobs.find? id = some job ∧ db.jobs.find? id = some job := by
  have hbooked := booked h
  refine ⟨fun id job hjob => ?_, hbooked.transactions, ?_⟩
  · have hbal := hbooked.balance id
    rwa [balanceOf, hjob] at hbal
  · -- from the closing log on no handler touches the row
    rintro before log after id rfl hevent hid
    have happ : before ++ log :: after = before ++ [log] ++ after := by simp
    rw [handleLogs, happ, foldlM_append_ok] at h
    obtain ⟨db₁, h₁, hafter⟩ := h
    obtain ⟨db₀, -, hlog⟩ := foldlM_concat_ok.1 h₁
    obtain ⟨job, hjob, hclosed⟩ := handleLog_jobClosed hlog hevent hid
    exact ⟨db₁, job, h₁, hjob, handleLogs_closed hafter hjob hclosed⟩

end Run

namespace Sample

def pg : Postgres where
  takesText s := s.toList.all fun c => c.toNat ≠ 0
  takesTimestamp t := t < 9224318016000

def log (log : ControlPlane.Log) (idx : BitVec 64) : Log where
  toLog := log
  blockNumber := some 5
  logIndex := some idx
  transactionHash := some 7

def opened : Log := log ControlPlane.Sample.openLog 0

def deposited : Log :=
  log ⟨[MarketEvent.jobDeposited.topic, 1, 2], ControlPlane.Sample.abiWord 29000000000000⟩ 1

def closed : Log := log ControlPlane.Sample.closeLog 2

end Sample

/-- A job that is opened, topped up and closed. -/
theorem ledger_sample : ∃ db,
    handleLogs ControlPlane.Sample.codec Sample.pg .empty
        [Sample.opened, Sample.deposited, Sample.closed] = .ok db ∧
      (∀ id job, db.jobs.find? id = some job → job.balance = bookedFor db id -
        ([Sample.opened, Sample.deposited, Sample.closed].map
          (settledBy ControlPlane.Sample.codec id)).sum) ∧
      List.Forall₂ (Books ControlPlane.Sample.codec) [Sample.opened, Sample.deposited]
        db.transactions.rows := by
  obtain ⟨db, hdb⟩ := ok_of_isSome (show (handleLogs ControlPlane.Sample.codec Sample.pg .empty
    [Sample.opened, Sample.deposited, Sample.closed]).toOption.isSome by decide +kernel)
  have h := ledger hdb
  exact ⟨db, hdb, h.1, h.2.1⟩

end Oyster.Indexer
