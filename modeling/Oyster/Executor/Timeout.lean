import Oyster.Executor.Events
import Oyster.Lib.Run

namespace Oyster.Executor

/-- How long `handle_timeout` sleeps. The `u64` arithmetic of a release build wraps around. -/
def timeoutWait (c : Config) (timeout : ℕ) : ℕ :=
  (timeout + c.executionBufferTime * 1000 + 1000) % u64Bound

/-- In seconds. -/
def timeoutTxnResendDeadline : ℕ := 20

inductive TimeoutPc where
  | spawned
  | sleeping (wake : ℕ)
  /-- the check has passed; whether the job was completed then -/
  | sending (retryDeadline : ℕ) (completed : Bool)
  | removing
  | done
deriving DecidableEq

/-- A `handle_timeout` task, and when its log was handled. -/
structure TimeoutTask where
  jobId : ℕ
  userDeadline : ℕ
  handledAt : ℕ
  pc : TimeoutPc
deriving DecidableEq

/-- A `TIMEOUT` on the channel, with the task that sent it. -/
structure TimeoutTxn where
  jobId : ℕ
  retryDeadline : ℕ
  handledAt : ℕ
  userDeadline : ℕ
  sentAt : ℕ
  /-- whether a complete response had been handled at the check -/
  completed : Bool
deriving DecidableEq

structure Session where
  listener : Listener
  now : ℕ := 0
  tasks : List TimeoutTask := []
  channel : List TimeoutTxn := []
  /-- the jobs for which a complete response was handled -/
  completed : List ℕ := []

inductive TimeoutEvent where
  | poll
  | wake
  | sent
  | sendFailed
  | remove
deriving DecidableEq

namespace TimeoutTask

def step (c : Config) (s : Session) (t : TimeoutTask) (e : TimeoutEvent) :
    Option (Session × TimeoutTask) :=
  match t.pc, e with
  | .spawned, .poll =>
    match asU64 t.userDeadline with
    | none => some (s, { t with pc := .done })
    | some timeout => some (s, { t with pc := .sleeping (s.now + timeoutWait c timeout) })
  | .sleeping wake, .wake =>
    if wake ≤ s.now then
      if t.jobId ∈ s.listener.jobRequestsRunning then
        let retryDeadline := s.now + timeoutTxnResendDeadline * 1000
        some (s, { t with pc := .sending retryDeadline (t.jobId ∈ s.completed) })
      else some (s, { t with pc := .done })
    else none
  | .sending retryDeadline completed, .sent =>
    some ({ s with channel := s.channel ++
      [⟨t.jobId, retryDeadline, t.handledAt, t.userDeadline, s.now, completed⟩] },
      { t with pc := .removing })
  | .sending _ _, .sendFailed => some (s, { t with pc := .removing })
  | .removing, .remove =>
    some ({ s with listener := { s.listener with
      jobRequestsRunning := s.listener.jobRequestsRunning.erase t.jobId } },
      { t with pc := .done })
  | _, _ => none

end TimeoutTask

inductive SessionEvent where
  | created (log : JobCreatedLog)
  | responded (log : JobRespondedLog)
  | deregistered (removed : Option Bool)
  | tick (ms : ℕ)
  | task (i : ℕ) (e : TimeoutEvent)

/-- The timeout tasks among what a log does. -/
def timeoutTasks (now : ℕ) (actions : List Action) : List TimeoutTask :=
  actions.filterMap fun
    | .handleTimeout jobId userDeadline => some ⟨jobId, userDeadline, now, .spawned⟩
    | _ => none

namespace Session

variable (c : Config)

def step (s : Session) : SessionEvent → Option Session
  | .created log =>
    if s.listener.enclaveRegistered then
      let (listener, actions) := handleJobCreated c s.listener log
      some { s with listener := listener, tasks := s.tasks ++ timeoutTasks s.now actions }
    else none
  | .responded log =>
    if s.listener.enclaveRegistered then
      some { s with
        listener := handleJobResponded c s.listener log
        completed := if log.Completes c s.listener then log.jobId :: s.completed else s.completed }
    else none
  | .deregistered removed =>
    if s.listener.enclaveRegistered then
      some { s with listener := handleDeregistered s.listener removed }
    else none
  | .tick ms => some { s with now := s.now + ms }
  | .task i e =>
    match s.tasks[i]? with
    | none => none
    | some t => (t.step c s e).map fun (s, t) => { s with tasks := s.tasks.set i t }

abbrev Step (s : Session) (e : SessionEvent) (s' : Session) : Prop := s.step c e = some s'

/-- The wait does not wrap around, or is never begun; and the job was not completed before. -/
def Punctual (s : Session) : SessionEvent → Prop
  | .created log => ∀ b d, log.request = some (b, d) → s.listener.lastBlockSeen ≤ b →
      (u64Bound ≤ d.userDeadline ∨
        d.userDeadline + c.executionBufferTime * 1000 + 1000 < u64Bound) ∧
      log.jobId ∉ s.completed
  | _ => True

/-- The user deadline and the execution buffer have passed since the log was handled, and the job
was not completed at the check. -/
structure Rightful (x : TimeoutTxn) : Prop where
  waited : x.handledAt + x.userDeadline + c.executionBufferTime * 1000 ≤ x.sentAt
  uncompleted : x.completed = false

/-- A task sleeps until it is due, and is due once its check has passed. -/
def Due (due now : ℕ) : TimeoutPc → Prop
  | .sleeping wake => due ≤ wake
  | .sending _ completed => due ≤ now ∧ completed = false
  | _ => True

theorem Due.later {due now now' : ℕ} {pc : TimeoutPc} (h : Due due now pc) (hle : now ≤ now') :
    Due due now' pc := by
  cases pc with
  | sending => exact ⟨h.1.trans hle, h.2⟩
  | sleeping => exact h
  | spawned => exact True.intro
  | removing => exact True.intro
  | done => exact True.intro

structure TaskGood (now : ℕ) (t : TimeoutTask) : Prop where
  fits : u64Bound ≤ t.userDeadline ∨
    t.userDeadline + c.executionBufferTime * 1000 + 1000 < u64Bound
  handled : t.handledAt ≤ now
  due : Due (t.handledAt + t.userDeadline + c.executionBufferTime * 1000) now t.pc

structure Inv (s : Session) : Prop where
  tasks : ∀ t ∈ s.tasks, TaskGood c s.now t
  running : ∀ jobId ∈ s.listener.jobRequestsRunning, jobId ∉ s.completed
  channel : ∀ x ∈ s.channel, Rightful c x

variable {c} {s s' : Session} {e : SessionEvent}

theorem TaskGood.later {now now' : ℕ} {t : TimeoutTask} (h : TaskGood c now t) (hle : now ≤ now') :
    TaskGood c now' t :=
  ⟨h.fits, h.handled.trans hle, h.due.later hle⟩

structure TaskFrame (s s' : Session) : Prop where
  now : s'.now = s.now
  tasks : s'.tasks = s.tasks
  completed : s'.completed = s.completed
  running : s'.listener.jobRequestsRunning ⊆ s.listener.jobRequestsRunning

theorem TaskFrame.refl (s : Session) : TaskFrame s s := ⟨rfl, rfl, rfl, fun _ h => h⟩

theorem TaskGood.step {t t' : TimeoutTask} {ev : TimeoutEvent} (h : TaskGood c s.now t)
    (hs : t.step c s ev = some (s', t')) (hi : Inv c s) :
    TaskFrame s s' ∧ TaskGood c s.now t' ∧ ∀ x ∈ s'.channel, Rightful c x := by
  have hdue := h.due
  unfold TimeoutTask.step at hs
  split at hs
  next hpc =>
    split at hs
    · cases hs
      exact ⟨.refl s, ⟨h.fits, h.handled, True.intro⟩, hi.channel⟩
    next timeout htimeout =>
      cases hs
      refine ⟨.refl s, ⟨h.fits, h.handled, ?_⟩, hi.channel⟩
      unfold asU64 at htimeout
      split at htimeout
      next hlt =>
        cases htimeout
        -- the wait does not wrap around, and is a second longer than it has to be
        have hfits := h.fits.resolve_left (Nat.not_le.2 hlt)
        have hhandled := h.handled
        dsimp only [Due]
        unfold timeoutWait
        rw [Nat.mod_eq_of_lt hfits]
        omega
      · cases htimeout
  next wake hpc =>
    rw [hpc] at hdue
    split at hs
    next hwake =>
      split at hs
      next hrunning =>
        -- a running job has not been completed
        cases hs
        refine ⟨.refl s, ⟨h.fits, h.handled, Nat.le_trans hdue hwake, ?_⟩, hi.channel⟩
        exact decide_eq_false (hi.running _ hrunning)
      · cases hs
        exact ⟨.refl s, ⟨h.fits, h.handled, True.intro⟩, hi.channel⟩
    · cases hs
  next retryDeadline completed hpc =>
    rw [hpc] at hdue
    cases hs
    refine ⟨⟨rfl, rfl, rfl, fun _ h => h⟩, ⟨h.fits, h.handled, True.intro⟩, fun x hx => ?_⟩
    rcases List.mem_append.1 hx with hx | hx
    · exact hi.channel x hx
    · cases List.mem_singleton.1 hx
      exact ⟨hdue.1, hdue.2⟩
  next hpc =>
    cases hs
    exact ⟨.refl s, ⟨h.fits, h.handled, True.intro⟩, hi.channel⟩
  next hpc =>
    cases hs
    exact ⟨⟨rfl, rfl, rfl, Finset.erase_subset _ _⟩, ⟨h.fits, h.handled, True.intro⟩, hi.channel⟩
  · cases hs

theorem Inv.task (h : Inv c s) {i : ℕ} {ev : TimeoutEvent}
    (hs : Session.step c s (.task i ev) = some s') : Inv c s' := by
  simp only [Session.step] at hs
  split at hs
  · cases hs
  next t ht =>
    obtain ⟨⟨s₁, t'⟩, hstep, rfl⟩ := Option.map_eq_some_iff.1 hs
    obtain ⟨hframe, hgood, hchannel⟩ := (h.tasks t (List.mem_of_getElem? ht)).step hstep h
    refine ⟨?_, ?_, hchannel⟩
    · intro u hu
      dsimp only at hu ⊢
      rw [hframe.now]
      rcases List.mem_or_eq_of_mem_set hu with hu | rfl
      · exact h.tasks u (hframe.tasks ▸ hu)
      · exact hgood
    · intro jobId hj
      dsimp only at hj ⊢
      rw [hframe.completed]
      exact h.running jobId (hframe.running hj)

theorem timeoutTasks_actionsFor (now jobId : ℕ) (d : JobData) :
    timeoutTasks now (actionsFor c jobId d) = [⟨jobId, d.userDeadline, now, .spawned⟩] := by
  unfold actionsFor timeoutTasks
  split <;> rfl

theorem created_cases (log : JobCreatedLog) :
    (∃ b d, log.request = some (b, d) ∧ s.listener.lastBlockSeen ≤ b ∧
      (handleJobCreated c s.listener log).1.jobRequestsRunning =
        insert log.jobId s.listener.jobRequestsRunning ∧
      timeoutTasks s.now (handleJobCreated c s.listener log).2 =
        [⟨log.jobId, d.userDeadline, s.now, .spawned⟩]) ∨
    (handleJobCreated c s.listener log).1.jobRequestsRunning = s.listener.jobRequestsRunning ∧
      (handleJobCreated c s.listener log).2 = [] := by
  cases hreq : log.request with
  | none =>
    obtain ⟨hactions, hrunning⟩ := handleJobCreated_other (c := c) (s := s.listener) hreq
    exact .inr ⟨hrunning, hactions⟩
  | some r =>
    obtain ⟨b, d⟩ := r
    rw [handleJobCreated_request hreq]
    by_cases hlt : b < s.listener.lastBlockSeen
    · rw [if_pos hlt]
      exact .inr ⟨rfl, rfl⟩
    · rw [if_neg hlt]
      exact .inl ⟨b, d, rfl, Nat.le_of_not_lt hlt, rfl, timeoutTasks_actionsFor _ _ _⟩

theorem Inv.created (h : Inv c s) (log : JobCreatedLog) (hc : Punctual c s (.created log)) :
    Inv c { s with
      listener := (handleJobCreated c s.listener log).1
      tasks := s.tasks ++ timeoutTasks s.now (handleJobCreated c s.listener log).2 } := by
  obtain ⟨b, d, hreq, hb, hrunning, htasks⟩ | ⟨hrunning, hactions⟩ :=
    created_cases (c := c) (s := s) log
  · obtain ⟨hfits, hopen⟩ := hc b d hreq hb
    rw [htasks]
    refine ⟨?_, ?_, h.channel⟩
    · intro t ht
      rcases List.mem_append.1 ht with ht | ht
      · exact h.tasks t ht
      · cases List.mem_singleton.1 ht
        exact ⟨hfits, Nat.le_refl _, True.intro⟩
    · intro jobId hj
      dsimp only at hj
      rw [hrunning] at hj
      rcases Finset.mem_insert.1 hj with rfl | hj
      · exact hopen
      · exact h.running jobId hj
  · rw [hactions]
    refine ⟨?_, ?_, h.channel⟩
    · intro t ht
      exact h.tasks t ((List.append_nil s.tasks) ▸ ht)
    · intro jobId hj
      dsimp only at hj
      rw [hrunning] at hj
      exact h.running jobId hj

theorem Inv.responded (h : Inv c s) (log : JobRespondedLog) :
    Inv c { s with
      listener := handleJobResponded c s.listener log
      completed := if log.Completes c s.listener then log.jobId :: s.completed
        else s.completed } := by
  refine ⟨h.tasks, ?_, h.channel⟩
  intro jobId hj
  dsimp only at hj ⊢
  rw [handleJobResponded_running] at hj
  by_cases hcomplete : log.Completes c s.listener
  · rw [if_pos hcomplete] at hj ⊢
    obtain ⟨hne, hj⟩ := Finset.mem_erase.1 hj
    exact fun hm => (List.mem_cons.1 hm).elim hne (h.running jobId hj)
  · rw [if_neg hcomplete] at hj ⊢
    exact h.running jobId hj

theorem Inv.step (h : Inv c s) (hs : Step c s e s') (hc : Punctual c s e) : Inv c s' := by
  cases e with
  | created log =>
    simp only [Step, Session.step] at hs
    split at hs
    · cases hs
      exact h.created log hc
    · cases hs
  | responded log =>
    simp only [Step, Session.step] at hs
    split at hs
    · cases hs
      exact h.responded log
    · cases hs
  | deregistered removed =>
    simp only [Step, Session.step] at hs
    split at hs
    · cases hs
      refine ⟨h.tasks, ?_, h.channel⟩
      unfold handleDeregistered
      split <;> exact h.running
    · cases hs
  | tick ms =>
    cases hs
    exact ⟨fun t ht => (h.tasks t ht).later (Nat.le_add_right _ _), h.running, h.channel⟩
  | task i ev => exact h.task hs

end Session

open Session

/-- In every session whose steps are punctual, each timeout on the channel is rightful. -/
theorem no_wrongful_timeout {c : Config} {block : ℕ} {s : Session} {es : List SessionEvent}
    (h : Along (Step c) (Punctual c) { listener := { lastBlockSeen := block } } es s) :
    ∀ x ∈ s.channel, Rightful c x := by
  have hstart : Inv c { listener := { lastBlockSeen := block } } :=
    ⟨nofun, fun jobId hj => absurd hj (Finset.notMem_empty jobId), nofun⟩
  refine Inv.channel (h.invariant ?_ hstart)
  intro s e s' hi hc hs
  exact hi.step hs hc

def tenSeconds : Config := ⟨10, 3, 7⟩

def requestWith (userDeadline : ℕ) : JobCreatedLog :=
  ⟨some false, some 5, 1, 1, some ⟨[], [], userDeadline, []⟩⟩

def sendAfter (ms : ℕ) : List SessionEvent :=
  [.task 0 .poll, .tick ms, .task 0 .wake, .task 0 .sent]

theorem punctual_sendAfter (c : Config) (ms : ℕ) (s : Session) : ∀ e ∈ sendAfter ms, Punctual c s e
  | _, .head _ => True.intro
  | _, .tail _ (.head _) => True.intro
  | _, .tail _ (.tail _ (.head _)) => True.intro
  | _, .tail _ (.tail _ (.tail _ (.head _))) => True.intro

def channelAfter (es : List SessionEvent) : Option (List TimeoutTxn) :=
  (es.foldlM (Session.step tenSeconds) { listener := { lastBlockSeen := 5 } }).map (·.channel)

theorem run_of_channelAfter {es : List SessionEvent} {channel : List TimeoutTxn}
    (h : channelAfter es = some channel) : ∃ s,
      Run (Step tenSeconds) { listener := { lastBlockSeen := 5 } } es s ∧ s.channel = channel := by
  obtain ⟨s, hs, hchannel⟩ := Option.map_eq_some_iff.1 h
  exact ⟨s, Run.of_foldlM hs, hchannel⟩

/-- A timeout in time, after sixteen seconds. -/
theorem no_wrongful_timeout_unanswered : ∃ s : Session,
    s.channel = [⟨1, 36000, 0, 5000, 16000, false⟩] ∧ ∀ x ∈ s.channel, Rightful tenSeconds x := by
  obtain ⟨s, hrun, hchannel⟩ := run_of_channelAfter
    (show channelAfter (.created (requestWith 5000) :: sendAfter 16000) =
      some [⟨1, 36000, 0, 5000, 16000, false⟩] by rfl)
  refine ⟨s, hchannel, ?_⟩
  cases hrun with
  | cons hs hrun =>
    refine no_wrongful_timeout (.cons ?_ hs (.of_run hrun (punctual_sendAfter _ _)))
    intro b d hreq _
    cases hreq
    exact ⟨.inr (by decide), List.not_mem_nil⟩

/-- A huge deadline ends after eleven seconds; and a job is slashed although its last response was
taken before its request, from the same block. -/
theorem wrongful_timeouts :
    (∃ s : Session, ∃ x, Run (Step tenSeconds) { listener := { lastBlockSeen := 5 } }
      (.created (requestWith 18446744073709551615) :: sendAfter 10999) s ∧ x ∈ s.channel ∧
        ¬Rightful tenSeconds x) ∧
    ∃ s : Session, ∃ x, Run (Step tenSeconds) { listener := { lastBlockSeen := 5 } }
      (.responded ⟨some false, some 5, 1, some 3⟩ :: .created (requestWith 5000) ::
        sendAfter 16000) s ∧ x ∈ s.channel ∧ ¬Rightful tenSeconds x := by
  constructor
  · obtain ⟨s, hrun, hchannel⟩ := run_of_channelAfter
      (show channelAfter (.created (requestWith 18446744073709551615) :: sendAfter 10999) =
        some [⟨1, 30999, 0, 18446744073709551615, 10999, false⟩] by rfl)
    refine ⟨s, _, hrun, hchannel ▸ List.mem_cons_self, fun h => ?_⟩
    exact absurd h.waited (by decide)
  · obtain ⟨s, hrun, hchannel⟩ := run_of_channelAfter
      (show channelAfter (.responded ⟨some false, some 5, 1, some 3⟩ ::
          .created (requestWith 5000) :: sendAfter 16000) =
        some [⟨1, 36000, 0, 5000, 16000, true⟩] by rfl)
    refine ⟨s, _, hrun, hchannel ▸ List.mem_cons_self, fun h => ?_⟩
    exact absurd h.uncompleted Bool.noConfusion

end Oyster.Executor
