import Oyster.Executor.Deadline
import Oyster.Executor.JobHandler
import Oyster.Executor.Workerd

/-!
`execute_job` and the clean-up of `handle_job` with what they leave to each other: the files of
the runtime directory, the workers and what these answer. A worker reads its files at some time
after it was spawned. No two jobs draw the same slug for the same code.
-/

namespace Oyster.Executor

open ControlPlane (Json)
open Workerd (ServerlessError createCodeFile)

/-- The RPC, and the workerd runtime: what it takes for code, and what it may answer. -/
structure Runtime where
  workerdRuntimePath : String
  codeContractAddr : String
  answers : String → Except Unit Json → Prop
  parses : List UInt8 → Bool
  serves : List UInt8 → List UInt8 → List UInt8 → Prop

structure Request where
  codeHash : String
  /-- four random bytes -/
  slug : Vector UInt8 4
  codeInputs : List UInt8
  userDeadline : ℕ

namespace Request

def key (r : Request) : String × Vector UInt8 4 := (r.codeHash, r.slug)

def fileName (r : Request) : String := r.codeHash ++ "-" ++ Hex.encodeToString r.slug.toList

def module (r : Request) : String := r.fileName ++ ".js"

def config (r : Request) : String := r.fileName ++ ".capnp"

end Request

def Runtime.path (rt : Runtime) (name : String) : String := rt.workerdRuntimePath ++ "/" ++ name

/-- What a file holds. -/
inductive Content where
  /-- created, and not written to the end -/
  | incomplete
  | code (code : List UInt8)
  /-- the port of the socket and the file of the module -/
  | config (port : UInt16) (module : String)

inductive Worker where
  /-- it has not read its config yet -/
  | starting (config : String)
  | serving (port : UInt16) (code : List UInt8)
  /-- it ends with "SyntaxError" in its stderr: code that throws one as it starts counts as not
  parsed -/
  | broken (code : List UInt8)
  | failed

structure Machine where
  cgroups : Cgroups
  files : String → Option Content := fun _ => none
  /-- the worker of a cgroup -/
  workers : String → Option Worker := fun _ => none
  keys : List (String × Vector UInt8 4) := []

namespace Machine

def setFile (m : Machine) (path : String) (content : Option Content) : Machine :=
  { m with files := Function.update m.files path content }

def setWorker (m : Machine) (cgroup : String) (worker : Option Worker) : Machine :=
  { m with workers := Function.update m.workers cgroup worker }

/-- What becomes of a worker that reads its files. -/
def started (m : Machine) (rt : Runtime) (config : String) : Worker :=
  match m.files config with
  | some (.config port module) =>
    match m.files (rt.path module) with
    | some (.code code) => if rt.parses code then .serving port code else .broken code
    | _ => .failed
  | _ => .failed

end Machine

inductive Stage where
  | createCodeFile
  | reserve
  | getPort (cgroup : String)
  | createConfigFile (cgroup : String) (port : UInt16)
  | execute (cgroup : String) (port : UInt16)
  | waitForPort (port : UInt16)
  | readStderr
  | getWorkerdResponse (port : UInt16)
  /-- `execute_job` is over or dropped: its guards run -/
  | leave
  -- `handle_job` again
  | cleanupConfigFile
  | cleanupCodeFile
  | over

structure Execution where
  request : Request
  /-- what was written to the code file -/
  code : List UInt8 := []
  stage : Stage := .createCodeFile
  guards : List Guard := []
  /-- what the job is found to have given -/
  output : Option JobOutput := none

inductive JobTask where
  | new
  | exec (e : Execution)

def Stage.point : Stage → Point
  | .createCodeFile => .createCodeFile
  | .reserve => .reserve
  | .getPort cgroup => .getPort cgroup
  | .createConfigFile cgroup port => .createConfigFile cgroup port
  | .execute cgroup port => .execute cgroup port
  | .waitForPort port => .waitForPort port
  | .readStderr => .readStderr
  | .getWorkerdResponse port => .getWorkerdResponse port
  | .leave | .cleanupConfigFile | .cleanupCodeFile | .over => .leave

def Execution.job (e : Execution) : Job := ⟨e.stage.point, e.guards⟩

def JobTask.job : JobTask → Job
  | .new => .first
  | .exec e => e.job

namespace Execution

/-- `execute_job` returns. -/
def exit (e : Execution) (output : Option JobOutput) : Execution :=
  { e with stage := .leave, output := output }

def goTo (e : Execution) (stage : Stage) : Execution := { e with stage := stage }

end Execution

/-- The output of a job whose code file could not be created. -/
def codeFileOutput (totalTime : ℕ) : ServerlessError → Option JobOutput
  | .txNotFound | .invalidTxToType | .invalidTxToValue _ _ =>
    some { output := [], errorCode := 1, totalTime := totalTime }
  | .invalidTxCalldata | .invalidTxCalldataType | .invalidTxCalldataLength | .badCalldata _ =>
    some { output := [], errorCode := 2, totalTime := totalTime }
  | .txDataRetrieve | .codeFileCreate => none

inductive JobTask.Step (rt : Runtime) :
    Machine → JobTask → Option JobAction → Machine → JobTask → Prop
  | arrive {m : Machine} {r : Request} : r.key ∉ m.keys →
      JobTask.Step rt m .new none { m with keys := r.key :: m.keys } (.exec { request := r })
  -- an attempt to write the file that does not get to its end
  | touchCodeFile {m : Machine} {e : Execution} : e.stage = .createCodeFile →
      JobTask.Step rt m (.exec e) none
        (m.setFile (rt.path e.request.module) (some .incomplete)) (.exec e)
  | createCodeFile {m : Machine} {e : Execution} {answer : Except Unit Json} {code : List UInt8} :
      e.stage = .createCodeFile → rt.answers e.request.codeHash answer →
      createCodeFile answer rt.codeContractAddr true = some (.ok code) →
      JobTask.Step rt m (.exec e) none
        (m.setFile (rt.path e.request.module) (some (.code code)))
        (.exec { e with stage := .reserve, code := code })
  | createCodeFileFailed {m : Machine} {e : Execution} {answer : Except Unit Json} {write : Bool}
      {err : ServerlessError} {totalTime : ℕ} :
      e.stage = .createCodeFile → rt.answers e.request.codeHash answer →
      createCodeFile answer rt.codeContractAddr write = some (.error err) →
      JobTask.Step rt m (.exec e) none m (.exec (e.exit (codeFileOutput totalTime err)))
  | createCodeFilePanics {m : Machine} {e : Execution} {answer : Except Unit Json} :
      e.stage = .createCodeFile → rt.answers e.request.codeHash answer →
      createCodeFile answer rt.codeContractAddr true = none →
      JobTask.Step rt m (.exec e) none m (.exec (e.goTo .over))
  | reserve {m : Machine} {e : Execution} {g : Cgroups} {cgroup : String} : e.stage = .reserve →
      m.cgroups.reserve = .ok (cgroup, g) →
      JobTask.Step rt m (.exec e) (some (.reserve cgroup)) { m with cgroups := g }
        (.exec { e with stage := .getPort cgroup, guards := .release cgroup :: e.guards })
  | reserveFailed {m : Machine} {e : Execution} {err : String} : e.stage = .reserve →
      m.cgroups.reserve = .error err → JobTask.Step rt m (.exec e) none m (.exec (e.exit none))
  | getPort {m : Machine} {e : Execution} {cgroup : String} {port : UInt16} :
      e.stage = .getPort cgroup → Executor.getPort cgroup = .ok port →
      JobTask.Step rt m (.exec e) none m (.exec (e.goTo (.createConfigFile cgroup port)))
  | getPortFailed {m : Machine} {e : Execution} {cgroup : String} {err : IntErrorKind} :
      e.stage = .getPort cgroup → Executor.getPort cgroup = .error err →
      JobTask.Step rt m (.exec e) none m (.exec (e.exit none))
  | touchConfigFile {m : Machine} {e : Execution} {cgroup : String} {port : UInt16} :
      e.stage = .createConfigFile cgroup port →
      JobTask.Step rt m (.exec e) none
        (m.setFile (rt.path e.request.config) (some .incomplete)) (.exec e)
  | createConfigFile {m : Machine} {e : Execution} {cgroup : String} {port : UInt16} :
      e.stage = .createConfigFile cgroup port →
      JobTask.Step rt m (.exec e) none
        (m.setFile (rt.path e.request.config) (some (.config port e.request.module)))
        (.exec (e.goTo (.execute cgroup port)))
  | createConfigFileFailed {m : Machine} {e : Execution} {cgroup : String} {port : UInt16} :
      e.stage = .createConfigFile cgroup port →
      JobTask.Step rt m (.exec e) none m (.exec (e.exit none))
  | execute {m : Machine} {e : Execution} {cgroup : String} {port : UInt16} :
      e.stage = .execute cgroup port →
      JobTask.Step rt m (.exec e) (some (.spawn cgroup))
        (m.setWorker cgroup (some (.starting (rt.path e.request.config))))
        (.exec { e with stage := .waitForPort port, guards := .kill cgroup :: e.guards })
  | executeFailed {m : Machine} {e : Execution} {cgroup : String} {port : UInt16} :
      e.stage = .execute cgroup port → JobTask.Step rt m (.exec e) none m (.exec (e.exit none))
  -- the worker of the job reads its files
  | workerStarts {m : Machine} {e : Execution} {cgroup config : String} :
      .kill cgroup ∈ e.guards → m.workers cgroup = some (.starting config) →
      JobTask.Step rt m (.exec e) none (m.setWorker cgroup (some (m.started rt config))) (.exec e)
  -- whichever worker it is that listens on the port
  | waitForPort {m : Machine} {e : Execution} {port : UInt16} {cgroup : String}
      {code : List UInt8} : e.stage = .waitForPort port →
      m.workers cgroup = some (.serving port code) →
      JobTask.Step rt m (.exec e) none m (.exec (e.goTo (.getWorkerdResponse port)))
  | waitForPortFailed {m : Machine} {e : Execution} {port : UInt16} : e.stage = .waitForPort port →
      JobTask.Step rt m (.exec e) none m (.exec (e.goTo .readStderr))
  | readSyntaxError {m : Machine} {e : Execution} {cgroup : String} {code : List UInt8}
      {totalTime : ℕ} : e.stage = .readStderr → .kill cgroup ∈ e.guards →
      m.workers cgroup = some (.broken code) →
      JobTask.Step rt m (.exec e) none m
        (.exec (e.exit (some { output := [], errorCode := 3, totalTime := totalTime })))
  | readStderr {m : Machine} {e : Execution} : e.stage = .readStderr →
      JobTask.Step rt m (.exec e) none m (.exec (e.exit none))
  | getWorkerdResponse {m : Machine} {e : Execution} {port : UInt16} {cgroup : String}
      {code response : List UInt8} {totalTime : ℕ} : e.stage = .getWorkerdResponse port →
      m.workers cgroup = some (.serving port code) →
      rt.serves code e.request.codeInputs response →
      JobTask.Step rt m (.exec e) none m
        (.exec (e.exit (some { output := response, errorCode := 0, totalTime := totalTime })))
  | getWorkerdResponseFailed {m : Machine} {e : Execution} {port : UInt16} :
      e.stage = .getWorkerdResponse port → JobTask.Step rt m (.exec e) none m (.exec (e.exit none))
  | timeout {m : Machine} {e : Execution} : e.stage.point.isAwait = true →
      JobTask.Step rt m (.exec e) none m
        (.exec (e.exit (finalOutput e.request.userDeadline none)))
  | kill {m : Machine} {e : Execution} {cgroup : String} {gs : List Guard} : e.stage = .leave →
      e.guards = .kill cgroup :: gs →
      JobTask.Step rt m (.exec e) (some (.kill cgroup)) (m.setWorker cgroup none)
        (.exec { e with guards := gs })
  | release {m : Machine} {e : Execution} {cgroup : String} {gs : List Guard} : e.stage = .leave →
      e.guards = .release cgroup :: gs →
      JobTask.Step rt m (.exec e) (some (.release cgroup))
        { m with cgroups := m.cgroups.release cgroup } (.exec { e with guards := gs })
  | returned {m : Machine} {e : Execution} : e.stage = .leave → e.guards = [] →
      JobTask.Step rt m (.exec e) none m (.exec (e.goTo .cleanupConfigFile))
  -- the file is removed, or stays where that fails
  | cleanupConfigFile {m m' : Machine} {e : Execution} : e.stage = .cleanupConfigFile →
      m' = m.setFile (rt.path e.request.config) none ∨ m' = m →
      JobTask.Step rt m (.exec e) none m' (.exec (e.goTo .cleanupCodeFile))
  | cleanupCodeFile {m m' : Machine} {e : Execution} : e.stage = .cleanupCodeFile →
      m' = m.setFile (rt.path e.request.module) none ∨ m' = m →
      JobTask.Step rt m (.exec e) none m' (.exec (e.goTo .over))

abbrev Executions := Interleave.System Machine JobTask

abbrev Executions.Step (rt : Runtime) :
    Executions → Interleave.Label (Option JobAction) → Executions → Prop :=
  Interleave.Step .new (JobTask.Step rt)

variable {rt : Runtime} {m m' : Machine} {t t' : JobTask} {action : Option JobAction}

theorem job_of_stage {e : Execution} {stage : Stage} (h : e.stage = stage) :
    e.job = ⟨stage.point, e.guards⟩ := by rw [Execution.job, h]

/-- A step of a job is one of `execute_job`, or one that only the files and the workers know. -/
theorem JobTask.Step.job (h : JobTask.Step rt m t action m' t') :
    (∃ action', Job.Step m.cgroups t.job action' m'.cgroups t'.job) ∨
      m'.cgroups = m.cgroups ∧ t'.job = t.job := by
  cases h with
  | arrive | touchCodeFile | touchConfigFile | workerStarts => exact .inr ⟨rfl, rfl⟩
  | createCodeFile hs =>
    exact .inl ⟨_, by rw [JobTask.job, job_of_stage hs]; exact .createCodeFile⟩
  | createCodeFileFailed hs | createCodeFilePanics hs =>
    exact .inl ⟨_, by rw [JobTask.job, job_of_stage hs]; exact .createCodeFileFailed⟩
  | reserve hs hres => exact .inl ⟨_, by rw [JobTask.job, job_of_stage hs]; exact .reserve hres⟩
  | reserveFailed hs hres =>
    exact .inl ⟨_, by rw [JobTask.job, job_of_stage hs]; exact .reserveFailed hres⟩
  | getPort hs hport => exact .inl ⟨_, by rw [JobTask.job, job_of_stage hs]; exact .getPort hport⟩
  | getPortFailed hs hport =>
    exact .inl ⟨_, by rw [JobTask.job, job_of_stage hs]; exact .getPortFailed hport⟩
  | createConfigFile hs =>
    exact .inl ⟨_, by rw [JobTask.job, job_of_stage hs]; exact .createConfigFile⟩
  | createConfigFileFailed hs =>
    exact .inl ⟨_, by rw [JobTask.job, job_of_stage hs]; exact .createConfigFileFailed⟩
  | execute hs => exact .inl ⟨_, by rw [JobTask.job, job_of_stage hs]; exact .execute⟩
  | executeFailed hs => exact .inl ⟨_, by rw [JobTask.job, job_of_stage hs]; exact .executeFailed⟩
  | waitForPort hs => exact .inl ⟨_, by rw [JobTask.job, job_of_stage hs]; exact .waitForPort⟩
  | waitForPortFailed hs =>
    exact .inl ⟨_, by rw [JobTask.job, job_of_stage hs]; exact .waitForPortFailed⟩
  | readSyntaxError hs | readStderr hs =>
    exact .inl ⟨_, by rw [JobTask.job, job_of_stage hs]; exact .readStderr⟩
  | getWorkerdResponse hs | getWorkerdResponseFailed hs =>
    exact .inl ⟨_, by rw [JobTask.job, job_of_stage hs]; exact .getWorkerdResponse⟩
  | timeout hawait => exact .inl ⟨_, .timeout hawait⟩
  | @kill _ cgroup gs hs hg =>
    refine .inl ⟨some (.kill cgroup), ?_⟩
    rw [JobTask.job, job_of_stage hs, hg, JobTask.job, Execution.job, hs]
    exact .kill
  | @release _ cgroup gs hs hg =>
    refine .inl ⟨some (.release cgroup), ?_⟩
    rw [JobTask.job, job_of_stage hs, hg, JobTask.job, Execution.job, hs]
    exact .release
  | returned hs => exact .inr ⟨rfl, by rw [JobTask.job, JobTask.job, job_of_stage hs]; rfl⟩
  | cleanupConfigFile hs hm | cleanupCodeFile hs hm =>
    refine .inr ⟨?_, by rw [JobTask.job, JobTask.job, job_of_stage hs]; rfl⟩
    rcases hm with rfl | rfl <;> rfl

end Oyster.Executor
