import Oyster.Indexer.Contract
import Oyster.Indexer.EventLoop

namespace Oyster.Indexer

open ControlPlane Fallible

/-- The strings of an event are UTF-8, and PostgreSQL takes its strings and its times. -/
structure Event.Readable (pg : Postgres) (e : Event) : Prop where
  strings : ∀ s ∈ e.strings, ∃ text, s.utf8? = some text ∧ pg.takesText text = true
  timestamps : ∀ t ∈ e.timestamps, ∃ secs, systemTime t = .ok secs ∧ pg.takesTimestamp secs = true

/-- Whether PostgreSQL takes the values of a record. -/
def Record.takes (pg : Postgres) : Record → Bool
  | .providerAdded _ cp | .providerUpdatedWithCp _ cp => pg.takesText cp
  | .opened job _ _ _ => pg.takesText job.metadata && pg.takesTimestamp job.lastSettled
  | .changed _ change => change.takes pg
  | .requested request => pg.takesTimestamp request.updatesAt
  | _ => true

variable {pg : Postgres} {db db' : Db} {c c' : Contract}

attribute [local simp] Event.strings Event.timestamps Emitted.record Record.takes JobChange.takes
  toOption_eq_some in
theorem readable_iff (e : Emitted) :
    e.event.Readable pg ↔ ∃ r, e.record = some r ∧ r.takes pg = true := by
  have hiff : e.event.Readable pg ↔
      (∀ s ∈ e.event.strings, ∃ text, s.utf8? = some text ∧ pg.takesText text = true) ∧
      ∀ t ∈ e.event.timestamps, ∃ secs, systemTime t = .ok secs ∧ pg.takesTimestamp secs = true :=
    ⟨fun h => ⟨h.1, h.2⟩, fun h => ⟨h.1, h.2⟩⟩
  rw [hiff]
  obtain ⟨event, block, idx, hash⟩ := e
  cases event with
  | jobOpened job metadata owner provider rate balance timestamp =>
    simp only [Event.strings, Event.timestamps, List.mem_singleton, forall_eq, Emitted.record,
      Option.bind_eq_bind, Option.bind_eq_some_iff, toOption_eq_some, Option.pure_def,
      Option.some.injEq]
    constructor
    · rintro ⟨⟨text, htext, htakes⟩, t, ht, htime⟩
      exact ⟨_, ⟨text, htext, t, ht, rfl⟩, by simp [htakes, htime]⟩
    · rintro ⟨r, ⟨text, htext, t, ht, rfl⟩, htakes⟩
      simp only [Record.takes, Bool.and_eq_true] at htakes
      exact ⟨⟨text, htext, htakes.1⟩, t, ht, htakes.2⟩
  | lockCreated selector key iValue unlockTime =>
    by_cases hsel : selector = rateLockSelector
    · simp [hsel]
    · simp [hsel]
  | lockDeleted selector key iValue =>
    by_cases hsel : selector = rateLockSelector
    · simp [hsel]
    · simp [hsel]
  | _ => simp

/-- The tables after some events of the contract, of which `done` are the places. -/
structure Tracks (c : Contract) (done : List (ℤ × ℤ)) (db : Db) : Prop where
  providers : ∀ p, c.active p = true ↔ ∃ row, db.providers.find? p = some row ∧ row.isActive = true
  jobs : ∀ id, c.closed id = (db.jobs.find? id).map Job.isClosed
  requests : ∀ id, c.locked id = (db.requests.find? id).isSome
  transactions : ∀ tx ∈ db.transactions.rows, tx.key ∈ done

theorem Tracks.init : Tracks .init [] .empty where
  providers p := by simp [Contract.init, Db.empty]
  jobs id := rfl
  requests id := rfl
  transactions tx h := by simp [Db.empty] at h

theorem Tracks.mono {done : List (ℤ × ℤ)} (h : Tracks c done db) (key : ℤ × ℤ) :
    Tracks c (done ++ [key]) db where
  providers := h.providers
  jobs := h.jobs
  requests := h.requests
  transactions tx htx := List.mem_append_left _ (h.transactions tx htx)

theorem Tracks.openRow {done : List (ℤ × ℤ)} (h : Tracks c done db) {id : B256}
    (hopen : c.closed id = some false) :
    ∃ job, db.jobs.find? id = some job ∧ job.isClosed = false := by
  have hjob := h.jobs id
  rw [hopen] at hjob
  exact Option.map_eq_some_iff.1 hjob.symm

theorem Tracks.noActive {done : List (ℤ × ℤ)} (h : Tracks c done db) {provider : Address}
    (hinactive : c.active provider = false) :
    ¬∃ row, db.providers.find? provider = some row ∧ row.isActive = true := by
  rw [← h.providers, hinactive]
  decide

theorem upsertProvider_of_inactive {provider : Address} (cp : String)
    (h : ¬∃ row, db.providers.find? provider = some row ∧ row.isActive = true) :
    (upsertProvider db provider cp).2 = 1 ∧
      ∃ providers, (upsertProvider db provider cp).1 = db.setProviders providers ∧
        ∀ p, (∃ row, providers.find? p = some row ∧ row.isActive = true) ↔
          p = provider ∨ ∃ row, db.providers.find? p = some row ∧ row.isActive = true := by
  unfold upsertProvider
  cases hins : db.providers.insert { id := provider, cp := cp, isActive := true } with
  | some providers =>
    refine ⟨rfl, providers, rfl, fun p => ?_⟩
    rw [Table.find?_insert hins]
    by_cases hp : provider = p
    · simp [hp]
    · simp [hp, Ne.symm hp]
  | none =>
    have hrow : ∃ row, db.providers.find? provider = some row := by
      rw [← Table.mem_keys]
      by_contra hmem
      simp [Table.insert, hmem] at hins
    obtain ⟨row, hrow⟩ := hrow
    have hinactive : row.isActive = false := by
      by_contra hactive
      exact h ⟨row, hrow, by simpa using hactive⟩
    refine ⟨?_, _, rfl, fun p => ?_⟩
    · exact (Table.count_eq_one provider fun row : Provider => row.isActive == false).2
        ⟨row, hrow, by simp [hinactive]⟩
    · rw [Table.find?_update]
      by_cases hp : p = provider
      · have hid : row.id = provider := (Table.find?_eq_some.1 hrow).2
        simp [hp, hrow, hid, hinactive]
      · have hmap : ∀ row, db.providers.find? p = some row → row.id ≠ provider := by
          intro row hrow hid
          exact hp ((Table.find?_eq_some.1 hrow).2.symm.trans hid)
        cases hfind : db.providers.find? p with
        | none => simp [hp]
        | some row => simp [hp, hmap row hfind]

theorem updateActiveProvider_of_active {provider : Address} {f : Provider → Provider}
    {hf : ∀ row, (f row).id = row.id}
    (h : ∃ row, db.providers.find? provider = some row ∧ row.isActive = true) :
    updateActiveProvider db provider f hf =
      .ok (db.setProviders (db.providers.update (activeProvider provider) f hf)) := by
  have hcount : db.providers.count (activeProvider provider) = 1 :=
    (Table.count_eq_one provider Provider.isActive).2 h
  unfold updateActiveProvider
  dsimp only
  rw [if_pos hcount]

theorem find?_updateActiveProvider (db : Db) (provider p : Address) (f : Provider → Provider)
    (hf : ∀ row, (f row).id = row.id) :
    (db.setProviders (db.providers.update (activeProvider provider) f hf)).providers.find? p =
      (db.providers.find? p).map fun row =>
        if p = provider ∧ row.isActive = true then f row else row := by
  show (db.providers.update (activeProvider provider) f hf).find? p = _
  rw [Table.find?_update]
  apply Option.map_congr
  intro row hrow
  have hid : row.id = p := (Table.find?_eq_some.1 hrow).2
  simp [activeProvider, hid]

/-- What the contract does with the record of an event at a place. -/
inductive Contract.Admits (key : ℤ × ℤ) (c : Contract) : Record → Contract → Prop
  | providerAdded {provider : Address} {cp : String} : c.active provider = false →
    Admits key c (.providerAdded provider cp) (c.setActive provider true)
  | providerRemoved {provider : Address} : c.active provider = true →
    Admits key c (.providerRemoved provider) (c.setActive provider false)
  | providerUpdatedWithCp {provider : Address} {cp : String} : c.active provider = true →
    Admits key c (.providerUpdatedWithCp provider cp) c
  | opened {job : Job} {block idx : ℤ} {hash : B256} : c.closed job.id = none →
    job.isClosed = false → (block, idx) = key →
    Admits key c (.opened job block idx hash) (c.setClosed job.id false)
  | closed {id : B256} : c.closed id = some false →
    Admits key c (.changed id .closed) (c.setClosed id true)
  | changed {id : B256} {change : JobChange} : c.closed id = some false →
    (∀ tx, change.transaction id = some tx → tx.key = key) →
    (∀ job, (change.row job).isClosed = job.isClosed) → Admits key c (.changed id change) c
  | requested {request : ReviseRateRequest} : c.closed request.id = some false →
    c.locked request.id = false →
    Admits key c (.requested request) (c.setLocked request.id true)
  | unrequested {id : B256} : Admits key c (.unrequested id) (c.setLocked id false)
  | nothing : Admits key c .nothing c

theorem Contract.admits {e : Emitted} {r : Record} (hnext : c.next e.event = some c')
    (hr : e.record = some r) : c.Admits e.key r c' := by
  obtain ⟨event, block, idx, hash⟩ := e
  cases event with
  | providerAdded provider cp =>
    obtain ⟨hactive, hc⟩ := Option.ite_none_left_eq_some.1 hnext
    obtain ⟨text, -, rfl⟩ := Option.map_eq_some_iff.1 hr
    cases hc
    exact .providerAdded (by simpa using hactive)
  | providerRemoved provider =>
    obtain ⟨hactive, hc⟩ := Option.ite_none_right_eq_some.1 hnext
    cases hc
    cases hr
    exact .providerRemoved hactive
  | providerUpdatedWithCp provider cp =>
    obtain ⟨hactive, hc⟩ := Option.ite_none_right_eq_some.1 hnext
    obtain ⟨text, -, rfl⟩ := Option.map_eq_some_iff.1 hr
    cases hc
    exact .providerUpdatedWithCp hactive
  | jobOpened job metadata owner provider rate balance timestamp =>
    obtain ⟨hnone, hc⟩ := Option.ite_none_right_eq_some.1 hnext
    obtain ⟨text, -, hr⟩ := Option.bind_eq_some_iff.1 hr
    obtain ⟨t, -, hr⟩ := Option.bind_eq_some_iff.1 hr
    cases hc
    cases hr
    exact .opened hnone rfl rfl
  | jobSettled job amount timestamp =>
    obtain ⟨hopen, hc⟩ := Option.ite_none_right_eq_some.1 hnext
    obtain ⟨t, -, rfl⟩ := Option.map_eq_some_iff.1 hr
    cases hc
    exact .changed hopen nofun fun _ => rfl
  | jobClosed job =>
    obtain ⟨hopen, hc⟩ := Option.ite_none_right_eq_some.1 hnext
    cases hc
    cases hr
    exact .closed hopen
  | jobDeposited job sender amount =>
    obtain ⟨hopen, hc⟩ := Option.ite_none_right_eq_some.1 hnext
    cases hc
    cases hr
    exact .changed hopen (fun _ h => by cases h; rfl) fun _ => rfl
  | jobWithdrew job receiver amount =>
    obtain ⟨hopen, hc⟩ := Option.ite_none_right_eq_some.1 hnext
    cases hc
    cases hr
    exact .changed hopen (fun _ h => by cases h; rfl) fun _ => rfl
  | jobReviseRateFinalized job newRate =>
    obtain ⟨hopen, hc⟩ := Option.ite_none_right_eq_some.1 hnext
    cases hc
    cases hr
    exact .changed hopen nofun fun _ => rfl
  | jobMetadataUpdated job metadata =>
    obtain ⟨hopen, hc⟩ := Option.ite_none_right_eq_some.1 hnext
    obtain ⟨text, -, rfl⟩ := Option.map_eq_some_iff.1 hr
    cases hc
    exact .changed hopen nofun fun _ => rfl
  | jobReviseRateInitiated job newRate =>
    obtain ⟨-, hc⟩ := Option.ite_none_right_eq_some.1 hnext
    cases hc
    cases hr
    exact .nothing
  | jobReviseRateCancelled job =>
    obtain ⟨-, hc⟩ := Option.ite_none_right_eq_some.1 hnext
    cases hc
    cases hr
    exact .nothing
  | lockCreated selector key iValue unlockTime =>
    dsimp only [next] at hnext
    dsimp only [Emitted.record] at hr
    by_cases hsel : selector = rateLockSelector
    · rw [if_pos hsel] at hnext hr
      obtain ⟨⟨hopen, hfree⟩, hc⟩ := Option.ite_none_right_eq_some.1 hnext
      obtain ⟨t, -, rfl⟩ := Option.map_eq_some_iff.1 hr
      cases hc
      exact .requested hopen hfree
    · rw [if_neg hsel] at hnext hr
      cases hnext
      cases hr
      exact .nothing
  | lockDeleted selector key iValue =>
    dsimp only [next] at hnext
    dsimp only [Emitted.record] at hr
    by_cases hsel : selector = rateLockSelector
    · rw [if_pos hsel] at hnext hr
      cases hnext
      cases hr
      exact .unrequested
    · rw [if_neg hsel] at hnext hr
      cases hnext
      cases hr
      exact .nothing
  | other topic topics data unhandled =>
    cases hnext
    cases hr
    exact .nothing

section Step

variable {done : List (ℤ × ℤ)} {key : ℤ × ℤ} {r : Record}

theorem insertDeposit_of_fresh (db : Db) (tx : Option Transaction)
    (hjob : ∀ t, tx = some t → ∃ job, db.jobs.find? t.job = some job)
    (hfresh : ∀ t, tx = some t → t.key ∉ db.transactions.rows.map Transaction.key) :
    ∃ db', Record.insertDeposit db tx = .ok db' := by
  cases tx with
  | none => exact ⟨db, rfl⟩
  | some t =>
    obtain ⟨db', hdb'⟩ := Db.insertTransaction_isSome (Table.mem_keys.2 (hjob t rfl))
      (Table.find?_eq_none.2 (hfresh t rfl))
    refine ⟨db', ?_⟩
    unfold Record.insertDeposit
    dsimp only
    rw [hdb']

theorem Tracks.applies (h : Tracks c done db) (hadmits : c.Admits key r c') (hkey : key ∉ done)
    (htakes : r.takes pg = true) : ∃ db', r.apply pg db = .ok db' := by
  have hfresh : key ∉ db.transactions.rows.map Transaction.key := by
    intro hmem
    obtain ⟨tx, htx, heq⟩ := List.mem_map.1 hmem
    exact hkey (heq ▸ h.transactions tx htx)
  have hchanged : ∀ {id : B256} {change : JobChange}, c.closed id = some false →
      (∀ tx, change.transaction id = some tx → tx.key = key) → change.takes pg = true →
      ∃ db', (Record.changed id change).apply pg db = .ok db' := by
    intro id change hopen htx htakes
    obtain ⟨job, hjob, hrow⟩ := h.openRow hopen
    have hfind : ∃ job, (db.updateJobs (openJob id) change.row change.row_id).jobs.find? id =
        some job := by
      rw [find?_updateOpenJob, hjob]
      exact ⟨_, rfl⟩
    have htxjob : ∀ t, change.transaction id = some t → t.job = id := by
      intro t ht
      cases change <;> cases ht <;> rfl
    obtain ⟨db', hdb'⟩ := insertDeposit_of_fresh
      (db.updateJobs (openJob id) change.row change.row_id) (change.transaction id)
      (fun t ht => htxjob t ht ▸ hfind) fun t ht => htx t ht ▸ hfresh
    refine ⟨db', ?_⟩
    rw [Record.apply, if_pos htakes, updateOpenJob_ok.2 ⟨⟨job, hjob, hrow⟩, rfl⟩, ok_bind, hdb']
  cases hadmits with
  | @providerAdded provider cp hinactive =>
    obtain ⟨hone, -⟩ := upsertProvider_of_inactive cp (h.noActive hinactive)
    simp only [Record.takes] at htakes
    exact ⟨_, by rw [Record.apply, if_pos htakes, if_pos hone]⟩
  | providerRemoved hactive =>
    exact ⟨_, updateActiveProvider_of_active ((h.providers _).1 hactive)⟩
  | providerUpdatedWithCp hactive =>
    simp only [Record.takes] at htakes
    exact ⟨_, by
      rw [Record.apply, if_pos htakes, updateActiveProvider_of_active ((h.providers _).1 hactive)]⟩
  | @opened job block idx hash hnone hopen hplace =>
    have hjob := h.jobs job.id
    rw [hnone] at hjob
    obtain ⟨db₁, hdb₁⟩ := Db.insertJob_isSome (Option.map_eq_none_iff.1 hjob.symm)
    obtain ⟨hjobs, -, -, htx⟩ := Db.insertJob_eq hdb₁
    have hfind : ∃ row, db₁.jobs.find? job.id = some row := by
      rw [Table.find?_insert hjobs]
      exact ⟨job, if_pos rfl⟩
    obtain ⟨db', hdb'⟩ := insertDeposit_of_fresh db₁
      (some ⟨block, idx, hash, job.id, job.balance, true⟩)
      (fun t ht => by cases ht; exact hfind)
      (fun t ht => by
        cases ht
        rw [htx]
        show (block, idx) ∉ _
        rw [hplace]
        exact hfresh)
    simp only [Record.takes] at htakes
    refine ⟨db', ?_⟩
    rw [Record.apply, if_pos htakes, hdb₁]
    exact hdb'
  | closed hopen => exact hchanged hopen nofun htakes
  | changed hopen htx _ => exact hchanged hopen htx htakes
  | @requested request hopen hfree =>
    have hrow := h.openRow hopen
    have hrequest : db.requests.find? request.id = none := by
      have hreq := h.requests request.id
      rw [hfree] at hreq
      exact Option.isSome_eq_false_iff.1 hreq.symm |> Option.isNone_iff_eq_none.1
    obtain ⟨job, hjob, -⟩ := hrow
    obtain ⟨db', hdb'⟩ := Db.insertRequest_isSome (Table.mem_keys.2 ⟨job, hjob⟩) hrequest
    simp only [Record.takes] at htakes
    refine ⟨db', ?_⟩
    dsimp only [Record.apply, insertRequestOfOpenJob]
    rw [if_neg (by simp [htakes]), if_neg (not_not.2 (count_openJob.2 (h.openRow hopen))), hdb']
  | unrequested => exact ⟨_, rfl⟩
  | nothing => exact ⟨_, rfl⟩

theorem takes_of_apply (h : r.apply pg db = .ok db') : r.takes pg = true := by
  cases r with
  | providerAdded provider cp =>
    rw [Record.apply] at h
    split at h
    next htakes => exact htakes
    next => cases h
  | providerUpdatedWithCp provider cp =>
    rw [Record.apply] at h
    split at h
    next htakes => exact htakes
    next => cases h
  | opened job block idx hash =>
    rw [Record.apply] at h
    split at h
    next htakes => exact htakes
    next => cases h
  | changed id change =>
    rw [Record.apply] at h
    split at h
    next htakes => exact htakes
    next => cases h
  | requested request =>
    rw [Record.apply, insertRequestOfOpenJob] at h
    split at h
    next => cases h
    next htakes => simpa [Record.takes] using htakes
  | _ => rfl

theorem changed_frame {id : B256} {change : JobChange}
    (h : (Record.changed id change).apply pg db = .ok db') :
    db'.providers = db.providers ∧ db'.requests = db.requests := by
  rw [Record.apply] at h
  split at h
  · obtain ⟨db₁, hdb₁, h⟩ := bind_ok.1 h
    obtain ⟨-, rfl⟩ := updateOpenJob_ok.1 hdb₁
    obtain ⟨-, hrequests, hproviders, -⟩ := Record.insertDeposit_ok h
    exact ⟨hproviders, hrequests⟩
  · cases h

theorem opened_frame {job : Job} {block idx : ℤ} {hash : B256}
    (h : (Record.opened job block idx hash).apply pg db = .ok db') :
    db'.providers = db.providers ∧ db'.requests = db.requests := by
  rw [Record.apply] at h
  split at h
  · split at h
    · cases h
    next db₁ hins =>
      obtain ⟨-, hproviders, hrequests, -⟩ := Db.insertJob_eq hins
      obtain ⟨-, hrequests', hproviders', -⟩ := Record.insertDeposit_ok h
      exact ⟨hproviders'.trans hproviders, hrequests'.trans hrequests⟩
  · cases h

theorem insertRequestOfOpenJob_providers {request : ReviseRateRequest}
    (h : insertRequestOfOpenJob pg db request = .ok db') : db'.providers = db.providers := by
  unfold insertRequestOfOpenJob at h
  split at h
  · cases h
  · split at h
    · cases h
    · split at h
      · cases h
      next db₁ hins =>
        cases h
        exact (Db.insertRequest_eq hins).2.1

/-- The tables follow the contract through every record that is stored. -/
theorem Tracks.step (h : Tracks c done db) (hadmits : c.Admits key r c')
    (happly : r.apply pg db = .ok db') : Tracks c' (done ++ [key]) db' := by
  have htransactions : ∀ tx ∈ db'.transactions.rows, tx.key ∈ done ++ [key] := by
    intro tx htx
    rw [Record.apply_transactions happly, List.mem_append] at htx
    rw [List.mem_append, List.mem_singleton]
    rcases htx with htx | htx
    · exact .inl (h.transactions tx htx)
    · right
      cases hadmits with
      | opened _ _ hplace =>
        cases Option.mem_toList.1 htx
        exact hplace
      | changed _ hplace _ => exact hplace tx (Option.mem_toList.1 htx)
      | _ => cases htx
  cases hadmits with
  | @providerAdded provider cp hinactive =>
    have hdb : db' = (upsertProvider db provider cp).1 := by
      rw [Record.apply] at happly
      split at happly
      · split at happly
        · cases happly
          rfl
        · cases happly
      · cases happly
    obtain ⟨-, providers, hupsert, hfind⟩ := upsertProvider_of_inactive cp
      (h.noActive hinactive)
    rw [hdb, hupsert] at htransactions ⊢
    refine ⟨fun p => ?_, h.jobs, h.requests, htransactions⟩
    show (if p = provider then true else c.active p) = true ↔
      ∃ row, providers.find? p = some row ∧ row.isActive = true
    rw [hfind, ← h.providers]
    by_cases hp : p = provider <;> simp [hp]
  | @providerRemoved provider hactive =>
    have hdb := Record.updateActiveProvider_ok happly
    rw [hdb] at htransactions ⊢
    refine ⟨fun p => ?_, h.jobs, h.requests, htransactions⟩
    show (if p = provider then false else c.active p) = true ↔ _
    rw [find?_updateActiveProvider]
    by_cases hp : p = provider
    · cases db.providers.find? p with
      | none => simp [hp]
      | some row => cases hrow : row.isActive <;> simp [hp, hrow]
    · simp [hp, h.providers]
  | @providerUpdatedWithCp provider cp hactive =>
    have hdb : db' = db.setProviders (db.providers.update (activeProvider provider)
        (fun row => { row with cp := cp }) fun _ => rfl) := by
      rw [Record.apply] at happly
      split at happly
      · exact Record.updateActiveProvider_ok happly
      · cases happly
    rw [hdb] at htransactions ⊢
    refine ⟨fun p => ?_, h.jobs, h.requests, htransactions⟩
    show c.active p = true ↔ _
    rw [find?_updateActiveProvider, h.providers]
    cases db.providers.find? p with
    | none => simp
    | some row => by_cases hp : p = provider <;> cases hrow : row.isActive <;> simp [hp, hrow]
  | @opened job block idx hash hnone hopen hplace =>
    obtain ⟨hproviders, hrequests⟩ := opened_frame happly
    refine ⟨hproviders ▸ h.providers, fun id => ?_, hrequests ▸ h.requests, htransactions⟩
    show (if id = job.id then some false else c.closed id) = _
    rw [Table.find?_insert (Record.opened_ok happly).1, h.jobs]
    by_cases hid : id = job.id
    · simp [hid, hopen]
    · simp [hid, Ne.symm hid]
  | @closed id hopen =>
    obtain ⟨hproviders, hrequests⟩ := changed_frame happly
    refine ⟨hproviders ▸ h.providers, fun k => ?_, hrequests ▸ h.requests, htransactions⟩
    obtain ⟨⟨job, hjob, hrow⟩, hjobs, -⟩ := Record.changed_ok happly
    show (if k = id then some true else c.closed k) = _
    rw [hjobs, find?_updateOpenJob, h.jobs]
    by_cases hk : k = id
    · simp [hk, hjob, hrow, JobChange.row]
    · simp [hk]
  | @changed id change hopen hplace hkeeps =>
    obtain ⟨hproviders, hrequests⟩ := changed_frame happly
    refine ⟨hproviders ▸ h.providers, fun k => ?_, hrequests ▸ h.requests, htransactions⟩
    obtain ⟨-, hjobs, -⟩ := Record.changed_ok happly
    rw [hjobs, find?_updateOpenJob, h.jobs, Option.map_map]
    apply Option.map_congr
    intro job _
    simp only [Function.comp_apply]
    split
    · exact (hkeeps job).symm
    · rfl
  | @requested request hopen hfree =>
    obtain ⟨-, hrequests, hjobs, -⟩ := Record.insertRequestOfOpenJob_ok happly
    refine ⟨insertRequestOfOpenJob_providers happly ▸ h.providers, hjobs ▸ h.jobs, fun id => ?_,
      htransactions⟩
    show (if id = request.id then true else c.locked id) = _
    rw [Table.find?_insert hrequests, h.requests]
    by_cases hid : id = request.id
    · simp [hid]
    · simp [hid, Ne.symm hid]
  | @unrequested id =>
    cases happly
    refine ⟨h.providers, h.jobs, fun k => ?_, htransactions⟩
    show (if k = id then false else c.locked k) = _
    rw [h.requests, Db.deleteRequests, Table.find?_delete_key]
    by_cases hk : k = id <;> simp [hk]
  | nothing =>
    cases happly
    exact h.mono key

/-- Every log of a run is stored exactly if every event of it is readable. -/
theorem Tracks.run {codec : Codec} (hcodec : DecodesAbi codec) {es : List Emitted}
    (h : Tracks c done db) (hrun : (es.map Emitted.event).foldlM Contract.next c = some c')
    (hplaces : (done ++ es.map Emitted.key).Nodup) :
    (∃ db', handleLogs codec pg db (es.map Emitted.log) = .ok db') ↔
      ∀ e ∈ es, e.event.Readable pg := by
  -- the contract and the tables move on together, one event at a time
  induction es generalizing c done db with
  | nil => exact ⟨fun _ => nofun, fun _ => ⟨db, rfl⟩⟩
  | cons e es ih =>
    rw [List.map_cons, List.foldlM_cons] at hrun
    obtain ⟨c₁, hnext, hrun⟩ := Option.bind_eq_some_iff.1 hrun
    rw [List.map_cons, List.append_cons] at hplaces
    -- the place of the event is new, so its transaction is no duplicate
    have hkey : e.key ∉ done := by
      have h := (List.nodup_append.1 (List.nodup_append.1 hplaces).1).2.2
      intro hmem
      exact h _ hmem _ (List.mem_singleton_self _) rfl
    rw [List.forall_mem_cons, readable_iff]
    have hlog : ∀ db₁, handleLog codec pg db e.log = .ok db₁ ↔
        ∃ r, e.record = some r ∧ r.apply pg db = .ok db₁ := by
      intro db₁
      rw [handleLog_ok]
      simp only [← toOption_eq_some (x := readLog codec e.log), readLog_toOption hcodec]
    constructor
    · rintro ⟨db', hall⟩
      obtain ⟨db₁, hone, hrest⟩ := foldlM_cons_ok.1 hall
      obtain ⟨r, hr, happly⟩ := (hlog db₁).1 hone
      have hnow := h.step (Contract.admits hnext hr) happly
      exact ⟨⟨r, hr, takes_of_apply happly⟩, (ih hnow hrun hplaces).1 ⟨db', hrest⟩⟩
    · rintro ⟨⟨r, hr, htakes⟩, hreadable⟩
      have hadmits := Contract.admits hnext hr
      obtain ⟨db₁, happly⟩ := h.applies hadmits hkey htakes
      obtain ⟨db', hrest⟩ := (ih (h.step hadmits happly) hrun hplaces).2 hreadable
      exact ⟨db', foldlM_cons_ok.2 ⟨db₁, (hlog db₁).2 ⟨r, hr, happly⟩, hrest⟩⟩

end Step

/-- No log is one that a handler fails on, and no range of them holds the event loop up. -/
structure Advances (codec : Codec) (pg : Postgres) (logs : List Log) : Prop where
  handled : ∀ before log after, logs = before ++ log :: after →
    ∃ db db', handleLogs codec pg .empty before = .ok db ∧ handleLog codec pg db log = .ok db'
  loop : ∀ before range after, logs = before ++ range ++ after → ∀ (s : Deployment) stop,
    handleLogs codec pg .empty before = .ok s.db →
    (s.commit codec pg stop range).process = .looping stop

theorem advances_iff {codec : Codec} {logs : List Log} :
    Advances codec pg logs ↔ ∃ db, handleLogs codec pg .empty logs = .ok db := by
  constructor
  · intro h
    -- the last log is handled, and so are those before it
    cases logs using List.reverseRecOn with
    | nil => exact ⟨.empty, rfl⟩
    | append_singleton before log =>
      obtain ⟨db, db', hbefore, hlog⟩ := h.handled before log [] rfl
      exact ⟨db', foldlM_concat_ok.2 ⟨db, hbefore, hlog⟩⟩
  · rintro ⟨db, hall⟩
    refine ⟨?_, ?_⟩
    · rintro before log after rfl
      obtain ⟨db₁, hbefore, hrest⟩ := foldlM_append_ok.1 hall
      obtain ⟨db₂, hlog, -⟩ := foldlM_cons_ok.1 hrest
      exact ⟨db₁, db₂, hbefore, hlog⟩
    · rintro before range after rfl s stop hbefore
      obtain ⟨db₁, hrange, -⟩ := foldlM_append_ok.1 hall
      obtain ⟨db₂, hbefore', hrange⟩ := foldlM_append_ok.1 hrange
      have hdb : s.db = db₂ := Except.ok.inj (hbefore.symm.trans hbefore')
      have hcommit : handleLogs codec pg s.db range = .ok db₁ := hdb ▸ hrange
      rw [Deployment.commit_ok hcommit]

/-- The indexer gets past the logs of the contract exactly if every string in them is UTF-8
and PostgreSQL takes the strings and the times. -/
theorem advances_iff_readable {codec : Codec} (hcodec : DecodesAbi codec) {es : List Emitted}
    (hes : Emits .init es c) :
    Advances codec pg (es.map Emitted.log) ↔ ∀ e ∈ es, e.event.Readable pg := by
  rw [advances_iff]
  exact Tracks.init.run hcodec hes.run (by simpa using hes.places)

namespace Sample

def decodeOpened (data : Bytes) : Option (String × U256 × U256 × U256) :=
  match Abi.decodeStringThen 3 data with
  | some (metadata, [rate, balance, timestamp]) =>
    (String.fromUTF8? ⟨metadata.toArray⟩).map fun metadata => (metadata, rate, balance, timestamp)
  | _ => none

def decodePair (data : Bytes) : Option (U256 × U256) :=
  match Abi.decodeWords 2 data with
  | some [a, b] => some (a, b)
  | _ => none

def decodeU256 (data : Bytes) : Option U256 := (Abi.decodeWords 1 data).bind List.head?

def decodeString (data : Bytes) : Option String :=
  (Abi.decodeStringThen 0 data).bind fun s => String.fromUTF8? ⟨s.1.toArray⟩

def abiCodec : Codec where
  openedData := decodeOpened
  settledData := decodePair
  u256Data := decodeU256
  stringData := decodeString
  parseJson _ := none

theorem decodesAbi : DecodesAbi abiCodec where
  stringData s := by
    dsimp only [abiCodec]
    rw [decodeString, Abi.decodeStringThen_stringThen List.length_nil s.short, Option.bind_some,
      SolidityString.utf8?]
  openedData s rate balance timestamp := by
    have hlen : [rate, balance, timestamp].length = 3 := List.length_cons
    dsimp only [abiCodec]
    rw [decodeOpened, Abi.decodeStringThen_stringThen hlen s.short, SolidityString.utf8?]
  settledData a b := by
    have hlen : [a, b].length = 2 := List.length_cons
    dsimp only [abiCodec]
    rw [decodePair, Abi.decodeWords_words hlen]
  u256Data a := by
    dsimp only [abiCodec]
    rw [decodeU256, Abi.decodeWords_words List.length_singleton, Option.bind_some, List.head?_cons]

def event (event : Event) (idx : BitVec 64) : Emitted := ⟨event, 5, idx, 7⟩

def added : Emitted := event (.providerAdded 1 ⟨[0x63, 0x70], by decide⟩) 0
def openedReadable : Emitted := event (.jobOpened 2 ⟨[0x7b, 0x7d], by decide⟩ 3 1 4 5 6) 1
def depositedTwo : Emitted := event (.jobDeposited 2 3 2) 2
def closedJob : Emitted := event (.jobClosed 2) 3

def openedUnreadable : Emitted := event (.jobOpened 2 ⟨[0xff], by decide⟩ 3 1 4 5 6) 1

def unreadableContract : Contract := (Contract.init.setActive 1 true).setClosed 2 false

theorem emits_unreadable : Emits .init [added, openedUnreadable] unreadableContract where
  run := rfl
  places := by decide

theorem emits_readable :
    Emits .init [added, openedReadable, depositedTwo, closedJob]
      (((Contract.init.setActive 1 true).setClosed 2 false).setClosed 2 true) where
  run := rfl
  places := by decide

theorem readable :
    ∀ e ∈ [added, openedReadable, depositedTwo, closedJob], e.event.Readable Sample.pg := by
  simp only [List.forall_mem_cons, List.not_mem_nil, false_implies, implies_true, and_true]
  refine ⟨?_, ?_, ?_, ?_⟩
  · exact (readable_iff added).2 ⟨_, rfl, by decide⟩
  · exact (readable_iff openedReadable).2 ⟨_, rfl, by decide⟩
  · exact (readable_iff depositedTwo).2 ⟨_, rfl, rfl⟩
  · exact (readable_iff closedJob).2 ⟨_, rfl, rfl⟩

end Sample

theorem advances_sample : Advances Sample.abiCodec Sample.pg
    ([Sample.added, Sample.openedReadable, Sample.depositedTwo, Sample.closedJob].map
      Emitted.log) :=
  (advances_iff_readable Sample.decodesAbi Sample.emits_readable).2 Sample.readable

/-- A job whose metadata is the byte ff: no handler gets past it, and every round that fetches it
ends the process with `sync` where it was. -/
theorem not_advances_unreadable :
    Emits .init [Sample.added, Sample.openedUnreadable] Sample.unreadableContract ∧
      ¬Advances Sample.abiCodec Sample.pg
        ([Sample.added, Sample.openedUnreadable].map Emitted.log) ∧
      ∀ stop, Deployment.fresh.commit Sample.abiCodec Sample.pg stop
          ([Sample.added, Sample.openedUnreadable].map Emitted.log) =
        { Deployment.fresh with process := .down } := by
  -- the string of the metadata does not decode
  have hfails : (handleLogs Sample.abiCodec Sample.pg .empty
      ([Sample.added, Sample.openedUnreadable].map Emitted.log)).toOption.isSome = false := by
    decide +kernel
  refine ⟨Sample.emits_unreadable, ?_, fun stop => ?_⟩
  · rw [advances_iff]
    rintro ⟨db, hdb⟩
    rw [hdb] at hfails
    cases hfails
  · obtain ⟨e, he⟩ := error_of_isSome_eq_false hfails
    exact Deployment.commit_error he

end Oyster.Indexer
