import Mathlib.Data.Finset.Insert
import Mathlib.Data.Finset.Erase

/-!
The three arms of `handle_event_logs` in the serverless executor, with the part of `AppState` that
they share. An arm returns the tasks that it spawns. A decoded field that the source drops is left
out of the log.
-/

namespace Oyster.Executor

def executionEnvId : ℕ := 1

/-- One more than the largest `u64`. -/
def u64Bound : ℕ := 18446744073709551616

/-- `as_u64`, which panics where the value does not fit. -/
def asU64 (n : ℕ) : Option ℕ := if n < u64Bound then some n else none

/-- What `JobCreated` carries as data. -/
structure JobData where
  codeHash : List UInt8
  codeInputs : List UInt8
  userDeadline : ℕ
  selectedExecutors : List ℕ
deriving DecidableEq

/-- A `JobCreated` log; the data is `none` where it cannot be decoded. -/
structure JobCreatedLog where
  removed : Option Bool
  blockNumber : Option ℕ
  jobId : ℕ
  envId : ℕ
  data : Option JobData
deriving DecidableEq

structure JobRespondedLog where
  removed : Option Bool
  blockNumber : Option ℕ
  jobId : ℕ
  outputCount : Option ℕ
deriving DecidableEq

/-- The block of a log that was not removed. -/
def JobCreatedLog.block (event : JobCreatedLog) : Option ℕ :=
  if event.removed = some false then event.blockNumber else none

def JobRespondedLog.block (event : JobRespondedLog) : Option ℕ :=
  if event.removed = some false then event.blockNumber else none

/-- The fields of `AppState` that stay as they are. -/
structure Config where
  executionBufferTime : ℕ
  numSelectedExecutors : ℕ
  enclaveAddress : ℕ

structure Listener where
  lastBlockSeen : ℕ
  jobRequestsRunning : Finset ℕ := ∅
  enclaveRegistered : Bool := true

/-- What a handled `JobCreated` log does: an entry in `job_requests_running` and the tasks. -/
inductive Action where
  | enter (jobId : ℕ)
  | handleTimeout (jobId userDeadline : ℕ)
  | handleJob (jobId : ℕ) (codeHash : String) (codeInputs : List UInt8) (userDeadline : ℕ)
deriving DecidableEq

def hexText (bs : List UInt8) : String :=
  "0x" ++ String.ofList
    (bs.flatMap fun b => [Nat.digitChar (b.toNat / 16), Nat.digitChar (b.toNat % 16)])

/-- What this enclave does for a job. -/
def actionsFor (c : Config) (jobId : ℕ) (d : JobData) : List Action :=
  .enter jobId :: .handleTimeout jobId d.userDeadline ::
    if c.enclaveAddress ∈ d.selectedExecutors then
      [.handleJob jobId (hexText d.codeHash) d.codeInputs d.userDeadline]
    else []

def handleJobCreated (c : Config) (s : Listener) (event : JobCreatedLog) :
    Listener × List Action :=
  if event.removed.getD true then (s, [])
  else match event.blockNumber with
    | none => (s, [])
    | some currentBlock =>
      if currentBlock < s.lastBlockSeen then (s, [])
      else
        let s := { s with lastBlockSeen := currentBlock }
        if event.envId ≠ executionEnvId then (s, [])
        else match event.data with
          | none => (s, [])
          | some d =>
            ({ s with jobRequestsRunning := insert event.jobId s.jobRequestsRunning },
              actionsFor c event.jobId d)

/-- A complete number of outputs marks the job as completed. -/
def handleJobResponded (c : Config) (s : Listener) (event : JobRespondedLog) : Listener :=
  if event.removed.getD true then s
  else match event.blockNumber with
    | none => s
    | some currentBlock =>
      if currentBlock < s.lastBlockSeen then s
      else
        let s := { s with lastBlockSeen := currentBlock }
        match event.outputCount with
        | none => s
        | some outputCount =>
          if outputCount = c.numSelectedExecutors then
            { s with jobRequestsRunning := s.jobRequestsRunning.erase event.jobId }
          else s

/-- The listener stops unless the log is a removed one. -/
def handleDeregistered (s : Listener) (removed : Option Bool) : Listener :=
  if removed.getD true then s else { s with enclaveRegistered := false }

/-- The block and the data of a log that asks this kind of enclave for a job. -/
def JobCreatedLog.request (event : JobCreatedLog) : Option (ℕ × JobData) :=
  if event.removed = some false ∧ event.envId = executionEnvId then
    event.blockNumber.bind fun b => event.data.map fun d => (b, d)
  else none

/-- The response completes the job where it is handled. -/
def JobRespondedLog.Completes (c : Config) (s : Listener) (event : JobRespondedLog) : Prop :=
  event.removed = some false ∧ event.outputCount = some c.numSelectedExecutors ∧
    ∃ b, event.blockNumber = some b ∧ s.lastBlockSeen ≤ b

instance (c : Config) (s : Listener) (event : JobRespondedLog) :
    Decidable (event.Completes c s) :=
  decidable_of_iff (event.removed = some false ∧ event.outputCount = some c.numSelectedExecutors ∧
    event.blockNumber.any (s.lastBlockSeen ≤ ·)) <| by
      unfold JobRespondedLog.Completes
      simp [Option.any_eq_true]

variable {c : Config} {s : Listener}

theorem removed_getD {removed : Option Bool} :
    removed.getD true = false ↔ removed = some false := by
  cases removed <;> simp

theorem JobCreatedLog.request_eq {event : JobCreatedLog} {b : ℕ} {d : JobData}
    (h : event.request = some (b, d)) :
    event.removed = some false ∧ event.envId = executionEnvId ∧ event.blockNumber = some b ∧
      event.data = some d := by
  unfold JobCreatedLog.request at h
  split at h
  next hp =>
    obtain ⟨b', hb, h⟩ := Option.bind_eq_some_iff.1 h
    obtain ⟨d', hd, h⟩ := Option.map_eq_some_iff.1 h
    cases h
    exact ⟨hp.1, hp.2, hb, hd⟩
  · cases h

theorem handleJobCreated_request {event : JobCreatedLog} {b : ℕ} {d : JobData}
    (h : event.request = some (b, d)) :
    handleJobCreated c s event =
      if b < s.lastBlockSeen then (s, [])
      else ({ s with
          lastBlockSeen := b
          jobRequestsRunning := insert event.jobId s.jobRequestsRunning },
        actionsFor c event.jobId d) := by
  obtain ⟨hr, he, hb, hd⟩ := JobCreatedLog.request_eq h
  unfold handleJobCreated
  rw [removed_getD.2 hr, hb, hd]
  simp [he]

theorem handleJobCreated_other {event : JobCreatedLog} (h : event.request = none) :
    (handleJobCreated c s event).2 = [] ∧
      (handleJobCreated c s event).1.jobRequestsRunning = s.jobRequestsRunning := by
  unfold handleJobCreated
  split
  · exact ⟨rfl, rfl⟩
  next hr =>
    have hr := removed_getD.1 (Bool.eq_false_iff.2 hr)
    split
    · exact ⟨rfl, rfl⟩
    next b hb =>
      split
      · exact ⟨rfl, rfl⟩
      · dsimp only
        split
        · exact ⟨rfl, rfl⟩
        next he =>
          split
          · exact ⟨rfl, rfl⟩
          next d hd =>
            rw [JobCreatedLog.request, if_pos ⟨hr, not_not.1 he⟩, hb, hd] at h
            cases h

theorem handleJobCreated_lastBlockSeen (event : JobCreatedLog) :
    (handleJobCreated c s event).1.lastBlockSeen = max (event.block.getD 0) s.lastBlockSeen := by
  unfold handleJobCreated JobCreatedLog.block
  by_cases hr : event.removed = some false
  · rw [if_neg (by rw [removed_getD.2 hr]; exact Bool.false_ne_true), if_pos hr]
    cases hb : event.blockNumber with
    | none => exact (Nat.zero_max _).symm
    | some b =>
      dsimp only [Option.getD_some]
      split
      next hlt => exact (max_eq_right hlt.le).symm
      next hge =>
        rw [max_eq_left (Nat.le_of_not_lt hge)]
        split
        · rfl
        · split
          · rfl
          · rfl
  · rw [if_pos (by rwa [← Bool.not_eq_false, removed_getD]), if_neg hr]
    exact (Nat.zero_max _).symm

theorem handleJobResponded_lastBlockSeen (event : JobRespondedLog) :
    (handleJobResponded c s event).lastBlockSeen = max (event.block.getD 0) s.lastBlockSeen := by
  unfold handleJobResponded JobRespondedLog.block
  by_cases hr : event.removed = some false
  · rw [if_neg (by rw [removed_getD.2 hr]; exact Bool.false_ne_true), if_pos hr]
    cases hb : event.blockNumber with
    | none => exact (Nat.zero_max _).symm
    | some b =>
      dsimp only [Option.getD_some]
      split
      next hlt => exact (max_eq_right hlt.le).symm
      next hge =>
        rw [max_eq_left (Nat.le_of_not_lt hge)]
        split
        · rfl
        · split
          · rfl
          · rfl
  · rw [if_pos (by rwa [← Bool.not_eq_false, removed_getD]), if_neg hr]
    exact (Nat.zero_max _).symm

theorem handleJobResponded_running (event : JobRespondedLog) :
    (handleJobResponded c s event).jobRequestsRunning =
      if event.Completes c s then s.jobRequestsRunning.erase event.jobId
      else s.jobRequestsRunning := by
  unfold handleJobResponded
  by_cases hr : event.removed = some false
  · rw [if_neg (by rw [removed_getD.2 hr]; exact Bool.false_ne_true)]
    cases hb : event.blockNumber with
    | none =>
      rw [if_neg]
      rintro ⟨-, -, b, hb', -⟩
      cases hb.symm.trans hb'
    | some b =>
      dsimp only
      by_cases hlt : b < s.lastBlockSeen
      · rw [if_pos hlt, if_neg]
        rintro ⟨-, -, b', hb', hle⟩
        cases hb.symm.trans hb'
        omega
      · rw [if_neg hlt]
        cases ho : event.outputCount with
        | none =>
          rw [if_neg]
          rintro ⟨-, ho', -⟩
          cases ho.symm.trans ho'
        | some n =>
          dsimp only
          by_cases hn : n = c.numSelectedExecutors
          · have hall : event.Completes c s := ⟨hr, ho.trans (congrArg some hn), b, hb, by omega⟩
            rw [if_pos hn, if_pos hall]
          · rw [if_neg hn, if_neg]
            rintro ⟨-, ho', -⟩
            exact hn (Option.some.inj (ho.symm.trans ho'))
  · rw [if_pos, if_neg fun h => hr h.1]
    exact Bool.not_eq_false _ ▸ fun h => hr (removed_getD.1 h)

end Oyster.Executor
