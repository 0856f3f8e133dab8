import Oyster.Indexer.View
import Oyster.Indexer.Ledger
import Oyster.Lib.Abi

namespace Oyster.Indexer

open ControlPlane Fallible

structure Both where
  db : Db
  state : JobState

/-- A log, and the time at which the control plane processes it. -/
abbrev Delivery := Log × Instant

/-- A log that `handle_log` accepts and, if the control plane subscribes to it, `process_log`
returns 0 for. -/
inductive Both.Step (m : Market) (pg : Postgres) : Both → Delivery → Both → Prop
  | market {b : Both} {log : Log} {now : Instant} {e : MarketEvent} {db : Db} {state : JobState} :
    log.event = some e → handleLog m.codec pg b.db log = .ok db →
    b.state.processLog m (some log.toLog) now = some (state, 0) → Step m pg b (log, now) ⟨db, state⟩
  | lock {b : Both} {log : Log} {now : Instant} {db : Db} : log.event = none →
    handleLog m.codec pg b.db log = .ok db → Step m pg b (log, now) ⟨db, b.state⟩

/-- A log of a job: one of the market with the job as its first argument, or one of its rate
lock. -/
inductive OfJob (job : B256) (log : Log) : Prop
  | market {e : MarketEvent} : log.event = some e → log.topics[1]? = some job → OfJob job log
  | lock : log.type = some .lockCreated ∨ log.type = some .lockDeleted →
    log.topics[1]? = some rateLockSelector → log.topics[2]? = some job → OfJob job log

def LogType.kind : LogType → Kind
  | .job .jobReviseRateInitiated => .initiated
  | .job .jobReviseRateCancelled | .job .jobReviseRateFinalized | .job .jobClosed => .ended
  | .lockCreated => .lockCreated
  | .lockDeleted => .lockDeleted
  | _ => .account

def Log.kind (log : Log) : Kind := (log.type.map LogType.kind).getD .account

/-- A log of the job whose amounts are covered by the balance and whose times are small. -/
structure Covered (codec : Codec) (job : B256) (b : Both) (log : Log) : Prop where
  ofJob : OfJob job log
  settles : ∀ amount timestamp row, log.event = some .jobSettled →
    codec.settledData log.data = some (amount, timestamp) → b.db.jobs.find? job = some row →
    (amount.toNat : ℤ) ≤ row.balance ∧ timestamp.toNat < 2 ^ 63
  withdraws : ∀ amount row, log.event = some .jobWithdrew →
    codec.u256Data log.data = some amount → b.db.jobs.find? job = some row →
    (amount.toNat : ℤ) ≤ row.balance
  opens : ∀ metadata rate balance timestamp, log.event = some .jobOpened →
    codec.openedData log.data = some (metadata, rate, balance, timestamp) →
    timestamp.toNat < 2 ^ 63

/-- A deposit does not take the balance to 2^256. -/
def Fits (codec : Codec) (job : B256) (b : Both) (log : Log) : Prop :=
  ∀ amount row, log.event = some .jobDeposited → codec.u256Data log.data = some amount →
    b.db.jobs.find? job = some row → row.balance + amount.toNat < 2 ^ 256

def Both.view (job : B256) (b : Both) : View where
  row := b.db.jobs.find? job
  requested := (b.db.requests.find? job).isSome
  account := b.state.account

variable {m : Market} {pg : Postgres} {job : B256} {b b' : Both}

theorem systemTime_eq {secs : U256} {t : ℕ} (h : systemTime secs = .ok t)
    (hlt : secs.toNat < 2 ^ 63) : U256.saturatingToU64 secs = t := by
  unfold systemTime at h
  have hmod : secs.toNat % 2 ^ 64 = secs.toNat := Nat.mod_eq_of_lt (by omega)
  rw [hmod, if_pos hlt] at h
  cases h
  unfold U256.saturatingToU64
  omega

theorem changed_view {id : B256} {change : JobChange} {db db' : Db}
    (h : (Record.changed id change).apply pg db = .ok db') :
    ∃ row, db.jobs.find? id = some row ∧ row.isClosed = false ∧
      db'.jobs.find? id = some (change.row row) ∧
      (db'.requests.find? id).isSome = (db.requests.find? id).isSome := by
  obtain ⟨⟨row, hrow, hopen⟩, hjobs, hrequests, -⟩ := Record.changed_ok h
  refine ⟨row, hrow, hopen, ?_, by rw [hrequests]⟩
  rw [hjobs, find?_updateOpenJob, hrow, Option.map_some, if_pos ⟨rfl, hopen⟩]

theorem kind_of_type {log : Log} {t : LogType} (h : log.type = some t) : log.kind = t.kind := by
  rw [Log.kind, h, Option.map_some, Option.getD_some]

theorem market_view {log : Log} {e : MarketEvent} {db : Db} {account : Account}
    (he : log.event = some e) (hid : log.topics[1]? = some job)
    (hlog : handleLog m.codec pg b.db log = .ok db)
    (hnext : b.state.account.next m.codec log.data e = some account)
    (hcovered : Covered m.codec job b log) (hfits : Fits m.codec job b log) :
    View.Step (b.view job) log.kind
      ⟨db.jobs.find? job, (db.requests.find? job).isSome, account⟩ := by
  have htype : log.type = some (.job e) := Log.event_eq.1 he
  obtain ⟨r, hread, happly⟩ := handleLog_ok.1 hlog
  have hreads := (readLog_ok.1 hread).2
  rw [htype] at hreads
  rw [kind_of_type htype]
  cases hreads with
  | jobOpened hid' _ _ hdata htime _ =>
    cases hid.symm.trans hid'
    obtain ⟨hjobs, hrequests, -⟩ := Record.opened_ok happly
    have hrow := Table.find?_insert hjobs job
    rw [if_pos rfl] at hrow
    rw [Account.next, hdata] at hnext
    cases hnext
    have hlt := hcovered.opens _ _ _ _ he hdata
    dsimp only
    rw [hrow, hrequests, systemTime_eq htime hlt]
    exact .opened (v := b.view job) (Table.insert_eq_some.1 hjobs).1 rfl rfl rfl
  | jobSettled hid' hdata htime =>
    cases hid.symm.trans hid'
    obtain ⟨row, hrow, hopen, hrow', hreq⟩ := changed_view happly
    obtain ⟨hle, hlt⟩ := hcovered.settles _ _ row he hdata hrow
    rw [Account.next, hdata] at hnext
    cases hnext
    dsimp only
    rw [hrow', hreq, systemTime_eq htime hlt]
    exact .settled (v := b.view job) hrow hopen hle
  | jobClosed hid' =>
    cases hid.symm.trans hid'
    obtain ⟨row, hrow, hopen, hrow', hreq⟩ := changed_view happly
    cases hnext
    rw [hrow', hreq]
    exact .closed (v := b.view job) hrow
  | jobDeposited hid' hdata _ =>
    cases hid.symm.trans hid'
    obtain ⟨row, hrow, hopen, hrow', hreq⟩ := changed_view happly
    have hlt := hfits _ row he hdata hrow
    rw [Account.next, hdata] at hnext
    cases hnext
    rw [hrow', hreq]
    exact .deposited (v := b.view job) hrow hopen hlt
  | jobWithdrew hid' hdata _ =>
    cases hid.symm.trans hid'
    obtain ⟨row, hrow, hopen, hrow', hreq⟩ := changed_view happly
    have hle := hcovered.withdraws _ row he hdata hrow
    rw [Account.next, hdata] at hnext
    cases hnext
    rw [hrow', hreq]
    exact .withdrew (v := b.view job) hrow hopen hle
  | rateInitiated =>
    cases happly
    obtain ⟨newRate, -, rfl⟩ := Option.map_eq_some_iff.1 hnext
    exact .initiated (v := b.view job)
  | rateCancelled =>
    cases happly
    cases hnext
    exact .cancelled (v := b.view job)
  | rateFinalized hid' hdata =>
    cases hid.symm.trans hid'
    obtain ⟨row, hrow, hopen, hrow', hreq⟩ := changed_view happly
    rw [Account.next, hdata, Option.bind_some] at hnext
    obtain ⟨hrate, hnext⟩ := Option.ite_none_right_eq_some.1 hnext
    cases hnext
    rw [hrow', hreq]
    exact .finalized (v := b.view job) hrow hopen hrate
  | metadataUpdated hid' hdata =>
    cases hid.symm.trans hid'
    obtain ⟨row, hrow, hopen, hrow', hreq⟩ := changed_view happly
    cases hnext
    rw [hrow', hreq]
    exact .metadataUpdated (v := b.view job) hrow hopen

theorem lock_view {log : Log} {db : Db}
    (htype : log.type = some .lockCreated ∨ log.type = some .lockDeleted)
    (hselector : log.topics[1]? = some rateLockSelector) (hid : log.topics[2]? = some job)
    (hlog : handleLog m.codec pg b.db log = .ok db) :
    View.Step (b.view job) log.kind
      ⟨db.jobs.find? job, (db.requests.find? job).isSome, b.state.account⟩ := by
  obtain ⟨r, hread, happly⟩ := handleLog_ok.1 hlog
  have hreads := (readLog_ok.1 hread).2
  rcases htype with htype | htype
  · rw [htype] at hreads
    rw [kind_of_type htype]
    cases hreads with
    | rateLockCreated _ hid' _ _ =>
      cases hid.symm.trans hid'
      obtain ⟨⟨row, hrow, hopen⟩, hrequests, hjobs, -⟩ := Record.insertRequestOfOpenJob_ok happly
      have hfind := Table.find?_insert hrequests job
      rw [if_pos rfl] at hfind
      have hfree : (b.db.requests.find? job).isSome = false := by
        rw [(Table.insert_eq_some.1 hrequests).1]
        rfl
      rw [hjobs, hfind]
      exact .lockCreated (v := b.view job) hrow hopen hfree
    | otherLockCreated hother hne =>
      exact absurd (Option.some.inj (hother.symm.trans hselector)) hne
  · rw [htype] at hreads
    rw [kind_of_type htype]
    cases hreads with
    | rateLockDeleted _ hid' =>
      cases hid.symm.trans hid'
      cases happly
      have hnone : (b.db.deleteRequests fun request => request.id = job).requests.find? job =
          none := by
        rw [Db.deleteRequests, Table.find?_delete_key, if_pos rfl]
      rw [hnone]
      exact .lockDeleted (v := b.view job)
    | otherLockDeleted hother hne =>
      exact absurd (Option.some.inj (hother.symm.trans hselector)) hne

theorem Both.Step.view {x : Delivery} (h : Both.Step m pg b x b')
    (hx : Covered m.codec job b x.1 ∧ Fits m.codec job b x.1) :
    View.Step (b.view job) x.1.kind (b'.view job) := by
  cases h with
  | market he hlog hprocess =>
    have hnext := JobState.processLog_account he hprocess
    cases hx.1.ofJob with
    | market _ hid => exact market_view he hid hlog hnext hx.1 hx.2
    | lock htype _ _ =>
      rw [Log.event_eq] at he
      simp [he] at htype
  | @lock log _ _ hnone hlog =>
    cases hx.1.ofJob with
    | market he _ => cases hnone.symm.trans he
    | lock htype hselector hid => exact lock_view htype hselector hid hlog

theorem view_run {xs : List Delivery}
    (h : Along (Both.Step m pg) (fun b x => Covered m.codec job b x.1 ∧ Fits m.codec job b x.1)
      b xs b') :
    Run View.Step (b.view job) (xs.map fun x => x.1.kind) (b'.view job) := by
  induction h with
  | nil => exact .nil _
  | cons hx hstep _ ih => exact .cons (hstep.view hx) ih

/-- The account of the job is the one in its row, once it has a row. -/
def Both.Agrees (job : B256) (b : Both) : Prop :=
  ∀ row, b.db.jobs.find? job = some row →
    (b.state.balance.toNat : ℤ) = row.balance ∧ (b.state.originalRate.toNat : ℤ) = row.rate ∧
      b.state.lastSettled = fromSecs row.lastSettled

/-- Both components are given groups of paired logs of a job that the indexer does not know: after
each log they agree on its account. -/
theorem accounts_agree {groups : List (List Delivery)} {before after : List Delivery} {b₀ : Both}
    (hjob : b₀.db.jobs.find? job = none)
    (hpaired : ∀ g ∈ groups, View.Paired (g.map fun x => x.1.kind))
    (hlogs : groups.flatten = before ++ after)
    (h₁ : Along (Both.Step m pg) (fun b x => Covered m.codec job b x.1 ∧ Fits m.codec job b x.1)
      b₀ before b)
    (h₂ : Along (Both.Step m pg) (fun b x => Covered m.codec job b x.1 ∧ Fits m.codec job b x.1)
      b after b') :
    b.Agrees job := by
  -- without a row there is nothing to agree on yet
  have hnone : (b₀.view job).row = none := hjob
  have hagrees : (b₀.view job).Agrees := by
    intro row hrow
    cases hnone.symm.trans hrow
  have hsettled : (b₀.view job).requested = false → (b₀.view job).Settled := by
    intro _ row hrow
    cases hnone.symm.trans hrow
  have hp : ∀ g ∈ groups.map (List.map fun x => x.1.kind), View.Paired g := by
    intro g hg
    obtain ⟨g', hg', rfl⟩ := List.mem_map.1 hg
    exact hpaired g' hg'
  have hkinds : (groups.map (List.map fun x => x.1.kind)).flatten =
      (before.map fun x => x.1.kind) ++ after.map fun x => x.1.kind := by
    rw [← List.map_flatten, hlogs, List.map_append]
  intro row hrow
  have hsame := View.agrees_of_paired hp hagrees hsettled hkinds (view_run h₁) (view_run h₂) row
    hrow
  exact ⟨hsame.balance, hsame.originalRate, hsame.lastSettled⟩

def Both.next (m : Market) (pg : Postgres) (b : Both) (x : Delivery) : Option Both := do
  let db ← (handleLog m.codec pg b.db x.1).toOption
  match x.1.event with
  | none => return ⟨db, b.state⟩
  | some _ =>
    let (state, res) ← b.state.processLog m (some x.1.toLog) x.2
    if res = 0 then some ⟨db, state⟩ else none

theorem Both.step_of_next {x : Delivery} (h : b.next m pg x = some b') : Both.Step m pg b x b' := by
  obtain ⟨log, now⟩ := x
  obtain ⟨db, hdb, h⟩ := Option.bind_eq_some_iff.1 h
  have hlog := toOption_eq_some.1 hdb
  cases he : log.event with
  | none =>
    simp only [he] at h
    cases h
    exact .lock he hlog
  | some e =>
    simp only [he] at h
    obtain ⟨⟨state, res⟩, hprocess, h⟩ := Option.bind_eq_some_iff.1 h
    obtain ⟨rfl, h⟩ := Option.ite_none_right_eq_some.1 h
    cases h
    exact .market he hlog hprocess

theorem along_of_next {cond : Both → Delivery → Prop} {xs : List Delivery}
    (hcond : ∀ b, ∀ x ∈ xs, cond b x) (h : xs.foldlM (Both.next m pg) b = some b') :
    Along (Both.Step m pg) cond b xs b' := by
  induction xs generalizing b with
  | nil =>
    cases h
    exact .nil _
  | cons x xs ih =>
    rw [List.foldlM_cons] at h
    obtain ⟨b₁, hnext, h⟩ := Option.bind_eq_some_iff.1 h
    have hrest := ih (fun b y hy => hcond b y (List.mem_cons_of_mem _ hy)) h
    exact .cons (hcond b x List.mem_cons_self) (Both.step_of_next hnext) hrest

namespace Sample

open ControlPlane.Sample in
def openedWith (balance : U256) : Bytes :=
  abiWord 128 ++ abiWord 31000000000000 ++ abiWord balance.toNat ++ abiWord 0 ++
    abiString (metadata url "c6a.xlarge")

def newRate : U256 := 40000000000000

open ControlPlane.Sample in
def accountCodec : Codec where
  openedData d :=
    if d = openedWith 31000 then some (metadata url "c6a.xlarge", 31000000000000, 31000, 0)
    else if d = openedWith (BitVec.allOnes 256) then
      some (metadata url "c6a.xlarge", 31000000000000, BitVec.allOnes 256, 0)
    else none
  settledData d := if d = Abi.words [newRate, 600] then some (newRate, 600) else none
  u256Data d :=
    if d = Abi.words [newRate] then some newRate
    else if d = Abi.words [1] then some 1
    else none
  stringData _ := none
  parseJson := codec.parseJson

def accountMarket : Market := { ControlPlane.Sample.market [] with codec := accountCodec }

def unopened : Both := ⟨.empty, ControlPlane.Sample.state⟩

def openedLog (balance : U256) : Delivery :=
  (log ⟨[MarketEvent.jobOpened.topic, 1, ControlPlane.Sample.owner, 0xdef],
    openedWith balance⟩ 0, 0)

def depositedLog : Delivery :=
  (log ⟨[MarketEvent.jobDeposited.topic, 1, 2], Abi.words [1]⟩ 1, 0)

def lockedLog : Delivery :=
  (log ⟨[LogType.lockCreated.topic, rateLockSelector, 1], Abi.words [newRate, 600]⟩ 1, 0)

def initiatedLog : Delivery :=
  (log ⟨[MarketEvent.jobReviseRateInitiated.topic, 1], Abi.words [newRate]⟩ 2, 0)

def unlockedLog : Delivery :=
  (log ⟨[LogType.lockDeleted.topic, rateLockSelector, 1], Abi.words [newRate]⟩ 3, 0)

def finalizedLog : Delivery :=
  (log ⟨[MarketEvent.jobReviseRateFinalized.topic, 1], Abi.words [newRate]⟩ 4, 0)

theorem event_opened (balance : U256) : (openedLog balance).1.event = some .jobOpened :=
  marketEvent_topic .jobOpened

theorem covered_opened {b : Both} {balance : U256}
    (hdata : accountCodec.openedData (openedWith balance) =
      some (ControlPlane.Sample.metadata ControlPlane.Sample.url "c6a.xlarge", 31000000000000,
        balance, 0)) : Covered accountCodec 1 b (openedLog balance).1 where
  ofJob := .market (event_opened balance) rfl
  settles := fun _ _ _ h => by cases (event_opened balance).symm.trans h
  withdraws := fun _ _ h => by cases (event_opened balance).symm.trans h
  opens := fun _ _ _ _ _ h => by
    cases hdata.symm.trans h
    decide

theorem covered_other {b : Both} {log : Log} (hof : OfJob 1 log)
    (h : log.event ≠ some .jobOpened ∧ log.event ≠ some .jobSettled ∧
      log.event ≠ some .jobWithdrew) : Covered accountCodec 1 b log where
  ofJob := hof
  settles := fun _ _ _ he => absurd he h.2.1
  withdraws := fun _ _ he => absurd he h.2.2
  opens := fun _ _ _ _ he => absurd he h.1

theorem fits_other {b : Both} {log : Log} (h : log.event ≠ some .jobDeposited) :
    Fits accountCodec 1 b log :=
  fun _ _ he => absurd he h

def overflow : List Delivery := [openedLog (BitVec.allOnes 256), depositedLog]

def revision : List (List Delivery) :=
  [[openedLog 31000], [lockedLog, initiatedLog], [unlockedLog, finalizedLog]]

theorem openedData_highest : accountCodec.openedData (openedWith (BitVec.allOnes 256)) =
    some (ControlPlane.Sample.metadata ControlPlane.Sample.url "c6a.xlarge", 31000000000000,
      BitVec.allOnes 256, 0) := by
  decide +kernel

theorem openedData_sample : accountCodec.openedData (openedWith 31000) =
    some (ControlPlane.Sample.metadata ControlPlane.Sample.url "c6a.xlarge", 31000000000000,
      31000, 0) := by
  decide +kernel

theorem covered_before {b : Both} {x : Delivery}
    (hx : x ∈ [openedLog 31000, lockedLog, initiatedLog]) :
    Covered accountCodec 1 b x.1 ∧ Fits accountCodec 1 b x.1 := by
  simp only [List.mem_cons, List.not_mem_nil, or_false] at hx
  rcases hx with rfl | rfl | rfl
  · have hfits : (openedLog 31000).1.event ≠ some .jobDeposited := by
      rw [event_opened]
      decide
    exact ⟨covered_opened openedData_sample, fits_other hfits⟩
  · exact ⟨covered_other (.lock (by decide) rfl rfl) (by decide), fits_other (by decide)⟩
  · exact ⟨covered_other (.market (e := .jobReviseRateInitiated) (by decide) rfl) (by decide),
      fits_other (by decide)⟩

theorem covered_after {b : Both} {x : Delivery} (hx : x ∈ [unlockedLog, finalizedLog]) :
    Covered accountCodec 1 b x.1 ∧ Fits accountCodec 1 b x.1 := by
  simp only [List.mem_cons, List.not_mem_nil, or_false] at hx
  rcases hx with rfl | rfl
  · exact ⟨covered_other (.lock (by decide) rfl rfl) (by decide), fits_other (by decide)⟩
  · exact ⟨covered_other (.market (e := .jobReviseRateFinalized) (by decide) rfl) (by decide),
      fits_other (by decide)⟩

theorem covered_overflow {b : Both} {x : Delivery} (hx : x ∈ overflow) :
    Covered accountCodec 1 b x.1 := by
  simp only [overflow, List.mem_cons, List.not_mem_nil, or_false] at hx
  rcases hx with rfl | rfl
  · exact covered_opened openedData_highest
  · exact covered_other (.market (e := .jobDeposited) (by decide) rfl) (by decide)

theorem kind_opened (balance : U256) : (openedLog balance).1.kind = .account :=
  kind_of_type (Log.event_eq.1 (event_opened balance))

theorem paired_revision : ∀ g ∈ revision, View.Paired (g.map fun x => x.1.kind) := by
  intro g hg
  simp only [revision, List.mem_cons, List.not_mem_nil, or_false] at hg
  rcases hg with rfl | rfl | rfl
  · left
    rw [List.map_singleton, kind_opened]
    rfl
  · exact .inr (.inr (.inl (by decide)))
  · exact .inr (.inr (.inr (by decide)))

end Sample

/-- While the revision of the sample job is on its way. -/
theorem accounts_agree_sample : ∃ b b',
    Along (Both.Step Sample.accountMarket Sample.pg)
      (fun b x => Covered Sample.accountCodec 1 b x.1 ∧ Fits Sample.accountCodec 1 b x.1)
      Sample.unopened [Sample.openedLog 31000, Sample.lockedLog, Sample.initiatedLog] b ∧
    Along (Both.Step Sample.accountMarket Sample.pg)
      (fun b x => Covered Sample.accountCodec 1 b x.1 ∧ Fits Sample.accountCodec 1 b x.1)
      b [Sample.unlockedLog, Sample.finalizedLog] b' ∧ b.Agrees 1 := by
  have hrun : (([Sample.openedLog 31000, Sample.lockedLog, Sample.initiatedLog].foldlM
      (Both.next Sample.accountMarket Sample.pg) Sample.unopened).bind fun b =>
        [Sample.unlockedLog, Sample.finalizedLog].foldlM
          (Both.next Sample.accountMarket Sample.pg) b).isSome := by
    decide +kernel
  obtain ⟨b', hb'⟩ := Option.isSome_iff_exists.1 hrun
  obtain ⟨b, hb, hb'⟩ := Option.bind_eq_some_iff.1 hb'
  have h₁ := along_of_next (fun b x hx => Sample.covered_before (b := b) hx) hb
  have h₂ := along_of_next (fun b x hx => Sample.covered_after (b := b) hx) hb'
  have hlogs : Sample.revision.flatten =
      [Sample.openedLog 31000, Sample.lockedLog, Sample.initiatedLog] ++
        [Sample.unlockedLog, Sample.finalizedLog] := rfl
  exact ⟨b, b', h₁, h₂, accounts_agree rfl Sample.paired_revision hlogs h₁ h₂⟩

/-- Without a bound on the deposits the two disagree: the control plane wraps the balance. -/
theorem accounts_disagree : ∃ b,
    Along (Both.Step Sample.accountMarket Sample.pg)
      (fun b x => Covered Sample.accountCodec 1 b x.1) Sample.unopened Sample.overflow b ∧
    View.Paired (Sample.overflow.map fun x => x.1.kind) ∧
    Sample.unopened.db.jobs.find? 1 = none ∧ ¬b.Agrees 1 := by
  have hbalance : ((Sample.overflow.foldlM (Both.next Sample.accountMarket Sample.pg)
      Sample.unopened).map fun b => (b.state.balance, (b.db.jobs.find? 1).map Job.balance)) =
      some (0, some (2 ^ 256)) := by
    decide +kernel
  obtain ⟨b, hb, hpair⟩ := Option.map_eq_some_iff.1 hbalance
  obtain ⟨hstate, hrow⟩ := Prod.mk.inj hpair
  refine ⟨b, along_of_next (fun b x hx => Sample.covered_overflow (b := b) hx) hb, .inl ?_, rfl, ?_⟩
  · show View.marks [(Sample.openedLog (BitVec.allOnes 256)).1.kind,
      Sample.depositedLog.1.kind] = []
    rw [Sample.kind_opened]
    decide
  · intro hagrees
    obtain ⟨row, hrow, hbal⟩ := Option.map_eq_some_iff.1 hrow
    have hsame := (hagrees row hrow).1
    rw [hstate, hbal] at hsame
    cases hsame

end Oyster.Indexer
