import Mathlib.Data.List.ReduceOption
import Oyster.Executor.Cgroups
import Oyster.Lib.Interleave

/-!
`execute_job` under the timeout of `handle_job`, any number of them at once. A job that returns,
or that its timeout drops at an await, runs the drop guards it has set up, the last one first;
other jobs go on between any two of its steps.
-/

namespace Oyster.Executor

/-- What is deferred with `defer!`. -/
inductive Guard where
  | release (cgroup : String)
  | kill (cgroup : String)
deriving DecidableEq, Repr

/-- Where `execute_job` is, with the variables it still reads. -/
inductive Point where
  | createCodeFile
  | reserve
  | getPort (cgroup : String)
  | createConfigFile (cgroup : String) (port : UInt16)
  | execute (cgroup : String) (port : UInt16)
  | waitForPort (port : UInt16)
  | readStderr
  | getWorkerdResponse (port : UInt16)
  /-- it returns, or it is dropped: the guards run -/
  | leave
deriving DecidableEq, Repr

/-- The points at which the timeout may drop the job. -/
def Point.isAwait : Point → Bool
  | .createCodeFile | .createConfigFile _ _ | .execute _ _ | .waitForPort _
  | .getWorkerdResponse _ => true
  | .reserve | .getPort _ | .readStderr | .leave => false

structure Job where
  point : Point
  /-- the guards that are set up, the last one first -/
  guards : List Guard
deriving DecidableEq, Repr

inductive JobAction where
  | reserve (cgroup : String)
  | spawn (cgroup : String)
  | kill (cgroup : String)
  | release (cgroup : String)
deriving DecidableEq, Repr

namespace Job

def first : Job := ⟨.createCodeFile, []⟩

def held (job : Job) : List String :=
  job.guards.filterMap fun
    | .release cgroup => some cgroup
    | .kill _ => none

def port (job : Job) : Option UInt16 :=
  match job.point with
  | .createConfigFile _ port | .execute _ port | .waitForPort port
  | .getWorkerdResponse port => some port
  | .createCodeFile | .reserve | .getPort _ | .readStderr | .leave => none

inductive Step : Cgroups → Job → Option JobAction → Cgroups → Job → Prop
  | createCodeFile {g : Cgroups} {gs : List Guard} :
      Step g ⟨.createCodeFile, gs⟩ none g ⟨.reserve, gs⟩
  | createCodeFileFailed {g : Cgroups} {gs : List Guard} :
      Step g ⟨.createCodeFile, gs⟩ none g ⟨.leave, gs⟩
  | reserve {g g' : Cgroups} {gs : List Guard} {cgroup : String} :
      g.reserve = .ok (cgroup, g') →
      Step g ⟨.reserve, gs⟩ (some (.reserve cgroup)) g' ⟨.getPort cgroup, .release cgroup :: gs⟩
  | reserveFailed {g : Cgroups} {gs : List Guard} {err : String} :
      g.reserve = .error err → Step g ⟨.reserve, gs⟩ none g ⟨.leave, gs⟩
  | getPort {g : Cgroups} {gs : List Guard} {cgroup : String} {port : UInt16} :
      Executor.getPort cgroup = .ok port →
      Step g ⟨.getPort cgroup, gs⟩ none g ⟨.createConfigFile cgroup port, gs⟩
  | getPortFailed {g : Cgroups} {gs : List Guard} {cgroup : String} {err : IntErrorKind} :
      Executor.getPort cgroup = .error err → Step g ⟨.getPort cgroup, gs⟩ none g ⟨.leave, gs⟩
  | createConfigFile {g : Cgroups} {gs : List Guard} {cgroup : String} {port : UInt16} :
      Step g ⟨.createConfigFile cgroup port, gs⟩ none g ⟨.execute cgroup port, gs⟩
  | createConfigFileFailed {g : Cgroups} {gs : List Guard} {cgroup : String} {port : UInt16} :
      Step g ⟨.createConfigFile cgroup port, gs⟩ none g ⟨.leave, gs⟩
  | execute {g : Cgroups} {gs : List Guard} {cgroup : String} {port : UInt16} :
      Step g ⟨.execute cgroup port, gs⟩ (some (.spawn cgroup)) g
        ⟨.waitForPort port, .kill cgroup :: gs⟩
  | executeFailed {g : Cgroups} {gs : List Guard} {cgroup : String} {port : UInt16} :
      Step g ⟨.execute cgroup port, gs⟩ none g ⟨.leave, gs⟩
  | waitForPort {g : Cgroups} {gs : List Guard} {port : UInt16} :
      Step g ⟨.waitForPort port, gs⟩ none g ⟨.getWorkerdResponse port, gs⟩
  | waitForPortFailed {g : Cgroups} {gs : List Guard} {port : UInt16} :
      Step g ⟨.waitForPort port, gs⟩ none g ⟨.readStderr, gs⟩
  -- with a syntax error in the output or without, the job returns
  | readStderr {g : Cgroups} {gs : List Guard} : Step g ⟨.readStderr, gs⟩ none g ⟨.leave, gs⟩
  | getWorkerdResponse {g : Cgroups} {gs : List Guard} {port : UInt16} :
      Step g ⟨.getWorkerdResponse port, gs⟩ none g ⟨.leave, gs⟩
  | timeout {g : Cgroups} {point : Point} {gs : List Guard} :
      point.isAwait = true → Step g ⟨point, gs⟩ none g ⟨.leave, gs⟩
  | kill {g : Cgroups} {gs : List Guard} {cgroup : String} :
      Step g ⟨.leave, .kill cgroup :: gs⟩ (some (.kill cgroup)) g ⟨.leave, gs⟩
  | release {g : Cgroups} {gs : List Guard} {cgroup : String} :
      Step g ⟨.leave, .release cgroup :: gs⟩ (some (.release cgroup)) (g.release cgroup)
        ⟨.leave, gs⟩

theorem held_release (point : Point) (cgroup : String) (gs : List Guard) :
    held ⟨point, .release cgroup :: gs⟩ = cgroup :: held ⟨point, gs⟩ := rfl

theorem held_point (point point' : Point) (gs : List Guard) :
    held ⟨point, gs⟩ = held ⟨point', gs⟩ := rfl

/-- A step moves cgroups between the pool and the job, and nothing else. -/
theorem conserves : Interleave.Conserves Step Cgroups.free held := by
  intro g job action g' job' h
  cases h with
  | @reserve _ gs cgroup hres =>
    have hmoved := (Cgroups.reserve_perm hres).append_right (held ⟨.reserve, gs⟩)
    rw [held_release, held_point _ .reserve]
    simpa using hmoved
  | @release gs cgroup =>
    rw [held_release, Cgroups.release]
    simp
  | _ => exact .refl _

/-- What a job has done to the pool and to the workers, for where it is now. -/
inductive Past : List JobAction → Job → Prop
  | start : Past [] first
  | reserve : Past [] ⟨.reserve, []⟩
  | getPort (cgroup : String) :
      Past [.reserve cgroup] ⟨.getPort cgroup, [.release cgroup]⟩
  | createConfigFile (cgroup : String) (port : UInt16) : Executor.getPort cgroup = .ok port →
      Past [.reserve cgroup] ⟨.createConfigFile cgroup port, [.release cgroup]⟩
  | execute (cgroup : String) (port : UInt16) : Executor.getPort cgroup = .ok port →
      Past [.reserve cgroup] ⟨.execute cgroup port, [.release cgroup]⟩
  | waitForPort (cgroup : String) (port : UInt16) : Executor.getPort cgroup = .ok port →
      Past [.reserve cgroup, .spawn cgroup] ⟨.waitForPort port, [.kill cgroup, .release cgroup]⟩
  | readStderr (cgroup : String) :
      Past [.reserve cgroup, .spawn cgroup] ⟨.readStderr, [.kill cgroup, .release cgroup]⟩
  | getWorkerdResponse (cgroup : String) (port : UInt16) : Executor.getPort cgroup = .ok port →
      Past [.reserve cgroup, .spawn cgroup]
        ⟨.getWorkerdResponse port, [.kill cgroup, .release cgroup]⟩
  | leaveUnreserved : Past [] ⟨.leave, []⟩
  | leaveReserved (cgroup : String) : Past [.reserve cgroup] ⟨.leave, [.release cgroup]⟩
  | leaveSpawned (cgroup : String) :
      Past [.reserve cgroup, .spawn cgroup] ⟨.leave, [.kill cgroup, .release cgroup]⟩
  | leaveKilled (cgroup : String) :
      Past [.reserve cgroup, .spawn cgroup, .kill cgroup] ⟨.leave, [.release cgroup]⟩
  | released (cgroup : String) : Past [.reserve cgroup, .release cgroup] ⟨.leave, []⟩
  | killedReleased (cgroup : String) :
      Past [.reserve cgroup, .spawn cgroup, .kill cgroup, .release cgroup] ⟨.leave, []⟩

theorem past_step {hist : List JobAction} {g g' : Cgroups} {job job' : Job}
    {action : Option JobAction} (h : Past hist job) (hst : Step g job action g' job') :
    Past (hist ++ action.toList) job' := by
  cases h <;> cases hst <;>
    first
    | (constructor; done)
    | (constructor; assumption)

/-- The steps that `execute_job` still takes at most. -/
def remaining (job : Job) : ℕ :=
  match job.point with
  | .createCodeFile => 9
  | .reserve => 8
  | .getPort _ => 7
  | .createConfigFile _ _ => 6
  | .execute _ _ => 5
  | .waitForPort _ => 4
  | .readStderr | .getWorkerdResponse _ => 3
  | .leave => job.guards.length

theorem remaining_step {hist : List JobAction} {g g' : Cgroups} {job job' : Job}
    {action : Option JobAction} (h : Past hist job) (hst : Step g job action g' job') :
    job'.remaining < job.remaining := by
  cases h <;> cases hst <;>
    first
    | (rename_i hawait; cases hawait; done)
    | simp [remaining, first]

theorem Past.port {hist : List JobAction} {job : Job} (h : Past hist job) {port : UInt16}
    (hp : job.port = some port) : ∃ cgroup ∈ job.held, Executor.getPort cgroup = .ok port := by
  cases h with
  | start | reserve | getPort | readStderr | leaveUnreserved | leaveReserved | leaveSpawned
  | leaveKilled | released | killedReleased => cases hp
  | createConfigFile cgroup p hport | execute cgroup p hport | waitForPort cgroup p hport
  | getWorkerdResponse cgroup p hport =>
    cases hp
    exact ⟨cgroup, by simp [held], hport⟩

end Job

/-- The jobs of the executor over its pool. -/
abbrev Jobs := Interleave.System Cgroups Job

abbrev Jobs.Step : Jobs → Interleave.Label (Option JobAction) → Jobs → Prop :=
  Interleave.Step Job.first Job.Step

def jobHistory (i : ℕ) (es : List (Interleave.Label (Option JobAction))) : List JobAction :=
  (Interleave.history i es).reduceOption

theorem past_run {g : Cgroups} {es : List (Interleave.Label (Option JobAction))} {s : Jobs}
    (h : Run Jobs.Step ⟨g, []⟩ es s) {i : ℕ} {job : Job} (hi : s.tasks[i]? = some job) :
    Job.Past (jobHistory i es) job ∧ (Interleave.history i es).length + job.remaining ≤ 9 := by
  refine Interleave.history_invariant (fun hist job =>
    Job.Past hist.reduceOption job ∧ hist.length + job.remaining ≤ 9)
      ⟨.start, Nat.le_refl 9⟩ ?_ h hi
  intro hist g job action g' job' hinv hst
  obtain ⟨hpast, hlen⟩ := hinv
  have hfewer := Job.remaining_step hpast hst
  refine ⟨?_, ?_⟩
  · rw [List.reduceOption_append]
    cases action <;> exact Job.past_step hpast hst
  · simp only [List.length_append, List.length_singleton]
    omega

end Oyster.Executor
