import Oyster.Lib.Run
import Oyster.ControlPlane.Provider

/-!
One step of `job_manager_once` is one branch of its `select!`, taken whenever its guard holds:
the timers are not modelled, so the runs include every order in which the branches can fire.
The world is what the provider manages; `env` says how it answers.
-/

namespace Oyster.ControlPlane

open Prog

inductive Status where
  | running
  | returned (res : ℤ)
  | panicked
deriving DecidableEq

structure Manager (σ : Type) where
  state : JobState
  world : σ
  status : Status
  /-- The logs taken from the stream so far. -/
  logs : List Log

inductive Branch where
  | log (log : Option Log)
  | heartbeat
  | insolvency
  | infraChange

abbrev ProviderEvent (σ : Type) := Event ProviderOp ProviderAns σ

/-- A branch, the clock it reads and the provider calls it makes. -/
structure Label (σ : Type) where
  branch : Branch
  now : Instant
  calls : List (ProviderEvent σ)

variable {σ : Type}

namespace Manager

def start (nowTimestamp : Duration) (now : Instant) (jobId : JobId) (launchDelay : ℕ)
    (allowedRegions : List String) (w : σ) : Manager σ where
  state := .new nowTimestamp now jobId launchDelay allowedRegions
  world := w
  status := .running
  logs := []

def afterLog (m : Manager σ) (log : Option Log) : Option (JobState × ℤ) → Manager σ
  | none => { m with status := .panicked }
  | some (s, res) => { m with
      state := s
      status := if res = -2 ∨ res = -1 then .returned res else .running
      logs := m.logs ++ log.toList }

def afterState (m : Manager σ) (w : σ) : Option JobState → Manager σ
  | none => { m with world := w, status := .panicked }
  | some s => { m with state := s, world := w }

def afterInfraChange (m : Manager σ) (w : σ) : Option (Bool × JobState) → Manager σ
  | none => { m with world := w, status := .panicked }
  | some (res, s) => { m with
      state := s
      world := w
      -- successful termination, exit
      status := if res ∧ ¬s.infraState then .returned 0 else .running }

@[simp] theorem afterLog_world (m : Manager σ) (log : Option Log) (r : Option (JobState × ℤ)) :
    (m.afterLog log r).world = m.world := by
  cases r <;> rfl

@[simp] theorem afterState_world (m : Manager σ) (w : σ) (r : Option JobState) :
    (m.afterState w r).world = w := by
  cases r <;> rfl

@[simp] theorem afterInfraChange_world (m : Manager σ) (w : σ) (r : Option (Bool × JobState)) :
    (m.afterInfraChange w r).world = w := by
  cases r <;> rfl

theorem afterLog_returned {m : Manager σ} {log : Option Log} {r : Option (JobState × ℤ)} {c : ℤ}
    (h : (m.afterLog log r).status = .returned c) : ∃ s, r = some (s, c) := by
  match r with
  | none => simp [afterLog] at h
  | some (s, res) =>
    simp only [afterLog] at h
    split at h
    · exact ⟨s, by rw [Status.returned.inj h]⟩
    · cases h

theorem afterLog_running {m : Manager σ} {log : Option Log} {r : Option (JobState × ℤ)}
    (h : (m.afterLog log r).status = .running) :
    ∃ s res, r = some (s, res) ∧ res ≠ -2 ∧ res ≠ -1 ∧
      m.afterLog log r = ⟨s, m.world, .running, m.logs ++ log.toList⟩ := by
  match r with
  | none => simp [afterLog] at h
  | some (s, res) =>
    simp only [afterLog] at h ⊢
    split at h
    · cases h
    next hres =>
      obtain ⟨h2, h1⟩ := not_or.1 hres
      exact ⟨s, res, rfl, h2, h1, by rw [if_neg hres]⟩

theorem afterState_running {m : Manager σ} {w : σ} {r : Option JobState}
    (h : (m.afterState w r).status = .running) : ∃ s, r = some s := by
  cases r with
  | none => simp [afterState] at h
  | some s => exact ⟨s, rfl⟩

theorem afterInfraChange_running {m : Manager σ} {w : σ} {r : Option (Bool × JobState)}
    (h : (m.afterInfraChange w r).status = .running) : ∃ b s, r = some (b, s) := by
  match r with
  | none => simp [afterInfraChange] at h
  | some (b, s) => exact ⟨b, s, rfl⟩

theorem afterState_returned {m : Manager σ} {w : σ} {r : Option JobState} {c : ℤ}
    (h : (m.afterState w r).status = .returned c) : m.status = .returned c := by
  cases r with
  | none => simp [afterState] at h
  | some s => exact h

theorem afterInfraChange_returned {m : Manager σ} {w : σ} {r : Option (Bool × JobState)} {c : ℤ}
    (h : (m.afterInfraChange w r).status = .returned c) :
    c = 0 ∧ ∃ s, r = some (true, s) ∧ s.infraState = false := by
  match r with
  | none => simp [afterInfraChange] at h
  | some (b, s) =>
    simp only [afterInfraChange] at h
    split at h
    next hb =>
      refine ⟨(Status.returned.inj h).symm, s, by rw [hb.1], by simpa using hb.2⟩
    · cases h

end Manager

inductive Step (market : Market) (env : Env ProviderOp ProviderAns σ) :
    Manager σ → Label σ → Manager σ → Prop
  | log {m : Manager σ} (log : Option Log) (now : Instant) :
      m.status = .running →
      Step market env m ⟨.log log, now, []⟩ (m.afterLog log (m.state.processLog market log now))
  | heartbeat {m : Manager σ} {now : Instant} {t : List (ProviderEvent σ)}
      {r : Option JobState} {w : σ} :
      m.status = .running → m.state.instanceId ≠ "" →
      Exec env (m.state.heartbeatCheck now) m.world t r w →
      Step market env m ⟨.heartbeat, now, t⟩ (m.afterState w r)
  | insolvency {m : Manager σ} (now : Instant) :
      m.status = .running → (¬m.state.infraChangeScheduled ∨ m.state.infraState) →
      Step market env m ⟨.insolvency, now, []⟩
        (m.afterState m.world (m.state.handleInsolvency now))
  | infraChange {m : Manager σ} {now : Instant} {t : List (ProviderEvent σ)}
      {r : Option (Bool × JobState)} {w : σ} :
      m.status = .running → m.state.infraChangeScheduled →
      Exec env (m.state.changeInfra now) m.world t r w →
      Step market env m ⟨.infraChange, now, t⟩ (m.afterInfraChange w r)

theorem Step.mono {market : Market} {env env' : Env ProviderOp ProviderAns σ} {m m' : Manager σ}
    {e : Label σ} (henv : ∀ op w x w', env op w x w' → env' op w x w')
    (h : Step market env m e m') : Step market env' m e m' := by
  cases h with
  | log log now hrun => exact .log log now hrun
  | heartbeat hrun hid hx => exact .heartbeat hrun hid (hx.mono henv)
  | insolvency now hrun hon => exact .insolvency now hrun hon
  | infraChange hrun hsched hx => exact .infraChange hrun hsched (hx.mono henv)

theorem step_log {market : Market} {env : Env ProviderOp ProviderAns σ} {m : Manager σ}
    {log : Option Log} {now : Instant} {r : Option (JobState × ℤ)} (hrun : m.status = .running)
    (hp : m.state.processLog market log now = r) :
    Step market env m ⟨.log log, now, []⟩ (m.afterLog log r) :=
  hp ▸ .log log now hrun

namespace Sample

def start (w : σ) : Manager σ := .start 0 0 jobId 300 ["ap-south-1"] w

def openLabel : Label σ := ⟨.log (some openLog), 0, []⟩
def closeAtOnceLabel : Label σ := ⟨.log (some closeLog), 0, []⟩

variable {env : Env ProviderOp ProviderAns σ} {w : σ}

theorem step_open :
    Step (market []) env (start w) openLabel ⟨opened, w, .running, [openLog]⟩ := by
  have h : Step (market []) env (start w) openLabel
      ((start w).afterLog (some openLog) (some (opened, 0))) := step_log rfl processLog_open
  exact h

theorem step_closeAtOnce :
    Step (market []) env ⟨opened, w, .running, [openLog]⟩ closeAtOnceLabel
      ⟨closedAtOnce, w, .running, [openLog, closeLog]⟩ := by
  have h : Step (market []) env ⟨opened, w, .running, [openLog]⟩ closeAtOnceLabel
      (Manager.afterLog ⟨opened, w, .running, [openLog]⟩ (some closeLog)
        (some (closedAtOnce, 0))) := step_log rfl processLog_closeAtOnce
  exact h

end Sample

end Oyster.ControlPlane
