import Oyster.Lib.Prog
import Oyster.ControlPlane.JobState

/-!
`heartbeat_check` and `change_infra` of `market.rs`, as programs over the operations of the
`InfraProvider` trait. An `Err` answer is `none`: its text is only logged.
-/

namespace Oyster.ControlPlane

open Prog

inductive ProviderOp where
  | spinUp (job : JobId) (instanceType family region : String) (reqMem reqVcpu : ℤ)
      (bandwidth : ℕ)
  | spinDown (instanceId : String) (job : JobId) (region : String)
  | getJobInstance (job : JobId) (region : String)
  | checkInstanceRunning (instanceId region : String)
  | checkEnclaveRunning (instanceId region : String)
  | runEnclave (job : JobId) (instanceId family region imageUrl : String) (reqVcpu reqMem : ℤ)
      (bandwidth : ℕ) (debug : Bool)
  | updateEnclaveImage (instanceId region eifUrl : String) (reqVcpu reqMem : ℤ)
deriving DecidableEq

/-- The `Ok` values: the id of a launched instance, and for `get_job_instance` whether one
exists, its id and its state. -/
abbrev ProviderAns : ProviderOp → Type
  | .spinUp .. => Option String
  | .spinDown .. => Option Unit
  | .getJobInstance .. => Option (Bool × String × String)
  | .checkInstanceRunning .. => Option Bool
  | .checkEnclaveRunning .. => Option Bool
  | .runEnclave .. => Option Unit
  | .updateEnclaveImage .. => Option Unit

abbrev ProviderProg := Prog ProviderOp ProviderAns

def provider (op : ProviderOp) : ProviderProg (ProviderAns op) := perform op

@[simp] theorem provider_bind {β : Type} (op : ProviderOp) (f : ProviderAns op → ProviderProg β) :
    (provider op >>= f) = .call op f := rfl

def ProviderOp.isSpinUp : ProviderOp → Bool
  | spinUp .. => true
  | _ => false

def ProviderOp.region : ProviderOp → String
  | spinUp _ _ _ region _ _ _ => region
  | spinDown _ _ region => region
  | getJobInstance _ region => region
  | checkInstanceRunning _ region => region
  | checkEnclaveRunning _ region => region
  | runEnclave _ _ _ region _ _ _ _ _ => region
  | updateEnclaveImage _ region _ _ _ => region

namespace JobState

abbrev spinUpOp (s : JobState) : ProviderOp :=
  .spinUp s.jobId s.instanceType s.family s.region s.reqMem s.reqVcpus s.bandwidth

abbrev runEnclaveOp (s : JobState) : ProviderOp :=
  .runEnclave s.jobId s.instanceId s.family s.region s.eifUrl s.reqVcpus s.reqMem s.bandwidth
    s.debug

/-- Start the enclave of a running instance; a failure is left to the next heartbeat. -/
def restartEnclave (s : JobState) : ProviderProg (Option JobState) := do
  match ← provider (.checkEnclaveRunning s.instanceId s.region) with
  | some false => do
    let _ ← provider s.runEnclaveOp
    return some s
  | _ => return some s

def heartbeatCheck (s : JobState) (now : Instant) : ProviderProg (Option JobState) := do
  match ← provider (.checkInstanceRunning s.instanceId s.region) with
  | none => return some s
  | some true => s.restartEnclave
  | some false =>
    if s.minRate ≤ s.rate then return s.scheduleLaunch now 0
    else return some s

/-- Either no old instance or old instance was not enough, launch new one. -/
def launchNew (s : JobState) : ProviderProg (Bool × JobState) := do
  match ← provider s.spinUpOp with
  | none => return (false, s)
  | some inst => do
    let s := { s with instanceId := inst }
    -- try to run the enclave, ignore errors
    let _ ← provider s.runEnclaveOp
    return (true, s)

/-- A pending or running instance is kept, with its image updated if that was asked for. -/
def useExisting (s : JobState) (inst : String) : ProviderProg (Bool × JobState) :=
  let s := { s with instanceId := inst }
  if s.eifUpdate then do
    match ← provider (.updateEnclaveImage s.instanceId s.region s.eifUrl s.reqVcpus s.reqMem) with
    | none => return (false, s)
    | some () => return (true, { s with eifUpdate := false })
  else return (true, s)

def launchMode (s : JobState) (exist : Bool) (inst state : String) :
    ProviderProg (Bool × JobState) :=
  if exist then
    if state = "pending" ∨ state = "running" then s.useExisting inst
    else if state = "stopping" ∨ state = "stopped" then do
      -- instance unhealthy, terminate
      match ← provider (.spinDown inst s.jobId s.region) with
      | none => return (false, s)
      | some () => s.launchNew
    else s.launchNew
  else s.launchNew

def terminateMode (s : JobState) (exist : Bool) (inst state : String) :
    ProviderProg (Bool × JobState) :=
  if !exist ∨ state = "shutting-down" ∨ state = "terminated" then return (true, s)
  else do
    match ← provider (.spinDown inst s.jobId s.region) with
    | none => return (false, s)
    | some () => return (true, s)

def changeInfraImpl (s : JobState) : ProviderProg (Bool × JobState) := do
  match ← provider (.getJobInstance s.jobId s.region) with
  | none => return (false, s)
  | some (exist, inst, state) =>
    if s.infraState then s.launchMode exist inst state else s.terminateMode exist inst state

/-- What `change_infra` does with the result: a failure is rescheduled with a small delay. -/
def afterChange (now : Instant) : Bool × JobState → Option (Bool × JobState)
  | (true, s) => some (true, { s with infraChangeScheduled := false })
  | (false, s) => (now.checkedAdd (fromSecs 2)).map fun t =>
      (false, { s with infraChangeTime := t })

def changeInfra (s : JobState) (now : Instant) : ProviderProg (Option (Bool × JobState)) := do
  let res ← s.changeInfraImpl
  return afterChange now res

/-- `s'` differs from `s` only in the fields that `change_infra` writes. -/
def InfraFrame (s s' : JobState) : Prop :=
  s' = { s with
    instanceId := s'.instanceId
    eifUpdate := s'.eifUpdate
    infraChangeTime := s'.infraChangeTime
    infraChangeScheduled := s'.infraChangeScheduled }

theorem InfraFrame.refl (s : JobState) : InfraFrame s s := rfl

theorem InfraFrame.trans {s s' s'' : JobState} (h : InfraFrame s s') (h' : InfraFrame s' s'') :
    InfraFrame s s'' := by
  unfold InfraFrame at *
  rw [h', h]

theorem InfraFrame.infraState {s s' : JobState} (h : InfraFrame s s') :
    s'.infraState = s.infraState := by rw [h]

/-- Calls are made in the region of the state, and `spin_up` only in launch mode, with the
arguments of the state. -/
def MayCall (s : JobState) (op : ProviderOp) : Prop :=
  op.region = s.region ∧ (op.isSpinUp = true → s.infraState = true ∧ op = s.spinUpOp)

section Wp

variable {σ : Type} (env : Env ProviderOp ProviderAns σ)

theorem launchNew_wp (s : JobState) (w : σ) (h : s.infraState = true) :
    s.launchNew.wp env (fun op _ => MayCall s op) (fun r _ => InfraFrame s r.2) w := by
  unfold launchNew
  refine ⟨⟨rfl, fun _ => ⟨h, rfl⟩⟩, fun x w' _ => ?_⟩
  cases x with
  | none => exact .refl s
  | some inst => exact ⟨⟨rfl, nofun⟩,
      fun _ _ _ => rfl⟩

theorem useExisting_wp (s : JobState) (inst : String) (w : σ) :
    (s.useExisting inst).wp env (fun op _ => MayCall s op)
      (fun r _ => InfraFrame s r.2) w := by
  unfold useExisting
  dsimp only
  split
  · refine ⟨⟨rfl, nofun⟩, fun x w' _ => ?_⟩
    cases x <;> rfl
  · rfl

theorem launchMode_wp (s : JobState) (exist : Bool) (inst state : String) (w : σ)
    (h : s.infraState = true) :
    (s.launchMode exist inst state).wp env (fun op _ => MayCall s op)
      (fun r _ => InfraFrame s r.2) w := by
  unfold launchMode
  split_ifs
  · exact s.useExisting_wp env inst w
  · refine ⟨⟨rfl, nofun⟩, fun x w' _ => ?_⟩
    cases x with
    | none => exact .refl s
    | some _ => exact s.launchNew_wp env w' h
  · exact s.launchNew_wp env w h
  · exact s.launchNew_wp env w h

theorem terminateMode_wp (s : JobState) (exist : Bool) (inst state : String) (w : σ) :
    (s.terminateMode exist inst state).wp env (fun op _ => MayCall s op)
      (fun r _ => InfraFrame s r.2) w := by
  unfold terminateMode
  split_ifs
  · exact .refl s
  · refine ⟨⟨rfl, nofun⟩, fun x w' _ => ?_⟩
    cases x <;> exact .refl s

theorem changeInfraImpl_wp (s : JobState) (w : σ) :
    s.changeInfraImpl.wp env (fun op _ => MayCall s op)
      (fun r _ => InfraFrame s r.2) w := by
  unfold changeInfraImpl
  rw [provider_bind]
  refine ⟨⟨rfl, nofun⟩, fun x w' _ => ?_⟩
  match x with
  | none => exact .refl s
  | some (exist, inst, state) =>
    by_cases h : s.infraState = true
    · simpa only [h, if_true] using s.launchMode_wp env exist inst state w' h
    · simpa only [h, Bool.false_eq_true, if_false] using
        s.terminateMode_wp env exist inst state w'

theorem afterChange_eq {now : Instant} {r : Bool × JobState} {b : Bool} {s' : JobState}
    (h : afterChange now r = some (b, s')) : b = r.1 ∧ InfraFrame r.2 s' := by
  obtain ⟨b', s⟩ := r
  cases b' with
  | true =>
    obtain ⟨rfl, rfl⟩ := Prod.mk.inj (Option.some.inj h)
    exact ⟨rfl, rfl⟩
  | false =>
    unfold afterChange at h
    obtain ⟨t, -, ht⟩ := Option.map_eq_some_iff.1 h
    cases ht
    exact ⟨rfl, rfl⟩

theorem afterChange_instanceId {now : Instant} {r : Bool × JobState} {b : Bool} {s' : JobState}
    (h : afterChange now r = some (b, s')) : s'.instanceId = r.2.instanceId := by
  obtain ⟨b', s⟩ := r
  cases b' with
  | true =>
    obtain ⟨rfl, rfl⟩ := Prod.mk.inj (Option.some.inj h)
    rfl
  | false =>
    unfold afterChange at h
    obtain ⟨t, -, ht⟩ := Option.map_eq_some_iff.1 h
    cases ht
    rfl

theorem changeInfra_wp (s : JobState) (now : Instant) (w : σ) :
    (s.changeInfra now).wp env (fun op _ => MayCall s op)
      (fun r _ => ∀ b s', r = some (b, s') → InfraFrame s s') w := by
  unfold changeInfra
  rw [wp_bind]
  refine wp_mono (fun _ _ h => h) ?_ (s.changeInfraImpl_wp env w)
  intro r w' hr b s' h
  exact hr.trans (afterChange_eq h).2

theorem restartEnclave_wp (s : JobState) (w : σ) :
    s.restartEnclave.wp env (fun op _ => op.isSpinUp = false) (fun r _ => r = some s) w := by
  unfold restartEnclave
  refine ⟨rfl, fun x w' _ => ?_⟩
  match x with
  | none => rfl
  | some true => rfl
  | some false => exact ⟨rfl, fun _ _ _ => rfl⟩

variable {env} in
/-- A heartbeat calls no `spin_up`. It changes the state only when the instance is reported not
running while the rate is not below `min_rate`: then it schedules a launch. -/
theorem heartbeatCheck_exec {s : JobState} {now : Instant} {w w' : σ}
    {t : List (Event ProviderOp ProviderAns σ)} {r : Option JobState}
    (h : Exec env (s.heartbeatCheck now) w t r w') :
    (∀ e ∈ t, e.op.isSpinUp = false) ∧ (r = some s ∨
      ⟨w, .checkInstanceRunning s.instanceId s.region, some false⟩ ∈ t ∧ s.minRate ≤ s.rate ∧
        r = s.scheduleLaunch now 0) := by
  unfold heartbeatCheck at h
  cases h with
  | @call _ _ _ w₁ _ x t₁ _ _ h =>
    match x, h with
    | none, .ret _ _ => exact ⟨by simp [ProviderOp.isSpinUp], .inl rfl⟩
    | some true, h =>
      obtain ⟨ht, hr⟩ := Exec.sound h (s.restartEnclave_wp env w₁)
      exact ⟨List.forall_mem_cons.2 ⟨rfl, ht⟩, .inl hr⟩
    | some false, h =>
      dsimp only at h
      split at h
      next hrate =>
        cases h
        exact ⟨by simp [ProviderOp.isSpinUp], .inr ⟨List.mem_cons_self, hrate, rfl⟩⟩
      next =>
        cases h
        exact ⟨by simp [ProviderOp.isSpinUp], .inl rfl⟩

end Wp

end JobState

end Oyster.ControlPlane
