import Mathlib.Data.List.Nodup
import Oyster.ControlPlane.Types
import Oyster.Lib.Run

/-!
`run`, `run_once` and `new_jobs` of `market.rs`. A connection counts the jobs of its stream and
the next one skips as many: the stream of every connection has to begin with the jobs that have
a manager, in the same order. The RPC sends what a reorganisation drops as removal notices and
then the logs of the new branch.
-/

namespace Oyster.ControlPlane

/-- The jobs that the blocks of the canonical chain open at the provider, from block 1 on. -/
structure Chain where
  blocks : List (List B256)
  nodup : blocks.flatten.Nodup

namespace Chain

def head (c : Chain) : ℕ := c.blocks.length

def jobs (c : Chain) : List B256 := c.blocks.flatten

/-- The jobs in the blocks up to a cutoff, which are those that `get_logs` returns. -/
def upTo (c : Chain) (cutoff : ℕ) : List B256 := (c.blocks.take cutoff).flatten

def above (c : Chain) (cutoff : ℕ) : List B256 := (c.blocks.drop cutoff).flatten

end Chain

structure JobLog where
  block : ℕ
  job : B256
  removed : Bool

def logsOf (removed : Bool) (first : ℕ) : List (List B256) → List JobLog
  | [] => []
  | jobs :: blocks => jobs.map (⟨first, ·, removed⟩) ++ logsOf removed (first + 1) blocks

inductive Connection where
  | down
  /-- the subscription is registered, at the head `since` -/
  | subscribed (since : ℕ) (queue : List JobLog)
  | cutoffKnown (cutoff : ℕ) (queue : List JobLog)
  /-- `run_once` reads the old logs and then the stream, and skips the next `toSkip` items -/
  | streaming (oldLogs : List (B256 × Bool)) (cutoff : ℕ) (queue : List JobLog)
      (toSkip jobCount : ℕ)

namespace Connection

/-- The subscription sends logs. -/
def push (logs : List JobLog) : Connection → Connection
  | down => down
  | subscribed since queue => subscribed since (queue ++ logs)
  | cutoffKnown cutoff queue => cutoffKnown cutoff (queue ++ logs)
  | streaming oldLogs cutoff queue toSkip jobCount =>
    streaming oldLogs cutoff (queue ++ logs) toSkip jobCount

def jobCount : Connection → ℕ
  | streaming _ _ _ _ jobCount => jobCount
  | _ => 0

end Connection

structure NewJobs where
  chain : Chain
  conn : Connection
  /-- the count of the connections that have ended -/
  jobCount : ℕ
  /-- the jobs for which a manager was spawned -/
  spawned : List B256
  /-- the jobs that the stream of some connection has yielded -/
  delivered : List B256

namespace NewJobs

inductive Event where
  /-- from block `keep` on the chain goes on with `blocks`: the head has moved on, or the blocks
  that `removed` is about are dropped -/
  | branch (keep : ℕ) (blocks : List (List B256)) (removed : List JobLog)
  | subscribe
  | getBlockNumber (cutoff : ℕ)
  | getLogs
  | next
  /-- the stream or a call of `new_jobs` fails -/
  | disconnect

/-- The stream yields a job. -/
def yielded (s : NewJobs) (job : B256) (oldLogs : List (B256 × Bool)) (cutoff : ℕ)
    (queue : List JobLog) (toSkip jobCount : ℕ) : NewJobs :=
  match toSkip with
  | 0 => { s with
      conn := .streaming oldLogs cutoff queue 0 (jobCount + 1)
      spawned := s.spawned ++ [job]
      delivered := s.delivered ++ [job] }
  | toSkip + 1 => { s with
      conn := .streaming oldLogs cutoff queue toSkip jobCount
      delivered := s.delivered ++ [job] }

inductive Step : NewJobs → Event → NewJobs → Prop
  | branch {s : NewJobs} {keep : ℕ} {blocks : List (List B256)} {removed : List JobLog}
      {chain : Chain} : keep ≤ s.chain.head →
    chain.blocks = s.chain.blocks.take keep ++ blocks →
    removed.Perm (logsOf true (keep + 1) (s.chain.blocks.drop keep)) →
    Step s (.branch keep blocks removed) { s with
      chain := chain
      conn := s.conn.push (removed ++ logsOf false (keep + 1) blocks) }
  | subscribe {s : NewJobs} : s.conn = .down →
    Step s .subscribe { s with conn := .subscribed s.chain.head [] }
  | getBlockNumber {s : NewJobs} {since cutoff : ℕ} {queue : List JobLog} :
    s.conn = .subscribed since queue →
    Step s (.getBlockNumber cutoff) { s with conn := .cutoffKnown cutoff queue }
  | getLogs {s : NewJobs} {cutoff : ℕ} {queue : List JobLog} : s.conn = .cutoffKnown cutoff queue →
    Step s .getLogs { s with
      conn := .streaming ((s.chain.upTo cutoff).map (·, false)) cutoff queue s.jobCount 0 }
  | nextOld {s : NewJobs} {item : B256 × Bool} {oldLogs : List (B256 × Bool)}
      {queue : List JobLog} {cutoff toSkip jobCount : ℕ} :
    s.conn = .streaming (item :: oldLogs) cutoff queue toSkip jobCount →
    Step s .next (s.yielded item.1 oldLogs cutoff queue toSkip jobCount)
  | nextFiltered {s : NewJobs} {log : JobLog} {queue : List JobLog}
      {cutoff toSkip jobCount : ℕ} :
    s.conn = .streaming [] cutoff (log :: queue) toSkip jobCount → log.block ≤ cutoff →
    Step s .next { s with conn := .streaming [] cutoff queue toSkip jobCount }
  | nextLive {s : NewJobs} {log : JobLog} {queue : List JobLog} {cutoff toSkip jobCount : ℕ} :
    s.conn = .streaming [] cutoff (log :: queue) toSkip jobCount → cutoff < log.block →
    Step s .next (s.yielded log.job [] cutoff queue toSkip jobCount)
  | disconnect {s : NewJobs} :
    Step s .disconnect { s with conn := .down, jobCount := s.jobCount + s.conn.jobCount }

/-- Every job of the chain that a stream has yielded has one manager. -/
def OneManager (s : NewJobs) : Prop :=
  ∀ job ∈ s.chain.jobs, job ∈ s.delivered → s.spawned.count job = 1

def counted (s : NewJobs) : ℕ := s.jobCount + s.conn.jobCount

/-- A reorganisation keeps the jobs counted so far and, on a connection that has its cutoff,
touches no job above the cutoff, none below it once the old logs are queried, and leaves the head
above it. The cutoff is a block between the one of the subscription and the head, and no removal
notice above it is waiting. -/
def Consistent (s : NewJobs) : Event → Prop
  | .branch keep blocks removed =>
    let chain := s.chain.blocks.take keep ++ blocks
    chain.flatten.take s.counted = s.chain.jobs.take s.counted ∧
      match s.conn with
      | .down | .subscribed _ _ => True
      | .cutoffKnown cutoff _ => cutoff ≤ chain.length ∧ ∀ log ∈ removed, log.block ≤ cutoff
      | .streaming _ cutoff _ _ _ => cutoff ≤ chain.length ∧
          (∀ log ∈ removed, log.block ≤ cutoff) ∧
          (chain.take cutoff).flatten = s.chain.upTo cutoff
  | .getBlockNumber cutoff =>
    match s.conn with
    | .subscribed since queue => since ≤ cutoff ∧ cutoff ≤ s.chain.head ∧
        ∀ log ∈ queue, log.removed = true → log.block ≤ cutoff
    | _ => True
  | _ => True

structure Fresh (s : NewJobs) : Prop where
  conn : s.conn = .down
  jobCount : s.jobCount = 0
  spawned : s.spawned = []
  delivered : s.delivered = []

def stream (cutoff : ℕ) (queue : List JobLog) : List (B256 × Bool) :=
  (queue.filter fun log => cutoff < log.block).map fun log => (log.job, log.removed)

def items (removed : Bool) (jobs : List B256) : List (B256 × Bool) := jobs.map (·, removed)

theorem stream_append (cutoff : ℕ) (queue logs : List JobLog) :
    stream cutoff (queue ++ logs) = stream cutoff queue ++ stream cutoff logs := by
  simp [stream]

theorem items_append (removed : Bool) (jobs jobs' : List B256) :
    items removed (jobs ++ jobs') = items removed jobs ++ items removed jobs' :=
  List.map_append

theorem stream_of_le {cutoff : ℕ} {logs : List JobLog} (h : ∀ log ∈ logs, log.block ≤ cutoff) :
    stream cutoff logs = [] := by
  have hnone : logs.filter (fun log => cutoff < log.block) = [] := by
    rw [List.filter_eq_nil_iff]
    intro log hlog
    have hle := h log hlog
    simpa using hle
  rw [stream, hnone, List.map_nil]

theorem stream_logsOf (cutoff first : ℕ) (removed : Bool) (blocks : List (List B256)) :
    stream cutoff (logsOf removed first blocks) =
      items removed (blocks.drop (cutoff + 1 - first)).flatten := by
  induction blocks generalizing first with
  | nil => simp [logsOf, stream, items]
  | cons jobs blocks ih =>
    rw [logsOf, stream_append, ih]
    by_cases hlt : cutoff < first
    · have hpass : stream cutoff (jobs.map (⟨first, ·, removed⟩)) = items removed jobs := by
        simp [stream, items, hlt, List.filter_map, Function.comp_def]
      have hzero : cutoff + 1 - first = 0 := by omega
      have hzero' : cutoff + 1 - (first + 1) = 0 := by omega
      rw [hpass, hzero, hzero', List.drop_zero, List.drop_zero, List.flatten_cons, items_append]
    · have hstop : stream cutoff (jobs.map (⟨first, ·, removed⟩)) = [] := by
        apply stream_of_le
        intro log hlog
        obtain ⟨job, -, rfl⟩ := List.mem_map.1 hlog
        exact not_lt.1 hlt
      have hsucc : cutoff + 1 - first = cutoff + 1 - (first + 1) + 1 := by omega
      rw [hstop, hsucc, List.drop_succ_cons, List.nil_append]

theorem stream_perm (cutoff : ℕ) {logs logs' : List JobLog} (h : logs.Perm logs') :
    (stream cutoff logs).Perm (stream cutoff logs') :=
  (h.filter _).map _

/-- A branch that drops no log above a cutoff lengthens what is above it. -/
theorem above_branch {chain chain' : Chain} {keep cutoff : ℕ} {blocks : List (List B256)}
    {removed : List JobLog} (hkeep : keep ≤ chain.head)
    (hblocks : chain'.blocks = chain.blocks.take keep ++ blocks)
    (hremoved : removed.Perm (logsOf true (keep + 1) (chain.blocks.drop keep)))
    (hle : ∀ log ∈ removed, log.block ≤ cutoff) :
    items false (chain'.above cutoff) =
      items false (chain.above cutoff) ++
        stream cutoff (removed ++ logsOf false (keep + 1) blocks) := by
  have hlength : (chain.blocks.take keep).length = keep := by
    rw [List.length_take]
    exact min_eq_left hkeep
  -- the dropped blocks above the cutoff open no job
  have hdropped : ((chain.blocks.drop keep).drop (cutoff - keep)).flatten = [] := by
    have hperm := stream_perm cutoff hremoved
    rw [stream_of_le hle, stream_logsOf, Nat.add_sub_add_right] at hperm
    have hnil := List.nil_perm.1 hperm
    exact List.map_eq_nil_iff.1 hnil
  have hold : chain.above cutoff = ((chain.blocks.take keep).drop cutoff).flatten := by
    have hsplit : chain.blocks.drop cutoff =
        (chain.blocks.take keep).drop cutoff ++ (chain.blocks.drop keep).drop (cutoff - keep) := by
      conv_lhs => rw [← List.take_append_drop keep chain.blocks]
      rw [List.drop_append, hlength]
    rw [Chain.above, hsplit, List.flatten_append, hdropped, List.append_nil]
  rw [Chain.above, hblocks, List.drop_append, hlength, List.flatten_append, ← hold, items_append,
    stream_append, stream_of_le hle, List.nil_append, stream_logsOf, Nat.add_sub_add_right]

/-- A connection will yield the jobs of the chain, in their order. -/
def Aligned (s : NewJobs) : Prop :=
  match s.conn with
  | .down => True
  | .subscribed since queue => ∀ cutoff, since ≤ cutoff →
      (∀ log ∈ queue, log.removed = true → log.block ≤ cutoff) →
      stream cutoff queue = items false (s.chain.above cutoff)
  | .cutoffKnown cutoff queue =>
      cutoff ≤ s.chain.head ∧ stream cutoff queue = items false (s.chain.above cutoff)
  | .streaming oldLogs cutoff queue toSkip jobCount => cutoff ≤ s.chain.head ∧
      -- `k` items have been yielded
      ∃ k ≤ s.chain.jobs.length, toSkip = s.jobCount - k ∧ jobCount = k - s.jobCount ∧
        oldLogs ++ stream cutoff queue = items false (s.chain.jobs.drop k)

structure Inv (s : NewJobs) : Prop where
  spawned : s.spawned = s.chain.jobs.take s.counted
  counted_le : s.counted ≤ s.chain.jobs.length
  delivered : ∀ job ∈ s.delivered, job ∈ s.spawned
  aligned : s.Aligned

variable {s s' : NewJobs} {e : Event}

theorem Inv.oneManager (h : s.Inv) : s.OneManager := by
  intro job _ hdelivered
  have hmem := h.delivered job hdelivered
  rw [h.spawned] at hmem ⊢
  have hnodup : (s.chain.jobs.take s.counted).Nodup :=
    s.chain.nodup.sublist (List.take_sublist _ _)
  exact List.count_eq_one_of_mem hnodup hmem

theorem Inv.fresh (h : s.Fresh) : s.Inv where
  spawned := by
    have hcounted : s.counted = 0 := by
      rw [counted, h.conn, h.jobCount]
      rfl
    rw [h.spawned, hcounted, List.take_zero]
  counted_le := by
    have hcounted : s.counted = 0 := by
      rw [counted, h.conn, h.jobCount]
      rfl
    omega
  delivered := by
    intro job hjob
    rw [h.delivered] at hjob
    cases hjob
  aligned := by
    rw [Aligned, h.conn]
    trivial

theorem Inv.quiet {conn : Connection} (h : s.Inv) (hcount : conn.jobCount = s.conn.jobCount)
    (haligned : Aligned { s with conn := conn }) : Inv { s with conn := conn } := by
  have hcounted : counted { s with conn := conn } = s.counted := by
    show s.jobCount + conn.jobCount = s.jobCount + s.conn.jobCount
    rw [hcount]
  exact {
    spawned := by
      rw [hcounted]
      exact h.spawned
    counted_le := by
      rw [hcounted]
      exact h.counted_le
    delivered := h.delivered
    aligned := haligned }

theorem jobs_eq (chain : Chain) (cutoff : ℕ) :
    chain.jobs = chain.upTo cutoff ++ chain.above cutoff := by
  rw [Chain.upTo, Chain.above, ← List.flatten_append, List.take_append_drop]
  rfl

theorem Inv.yielded (item : B256 × Bool) {oldLogs : List (B256 × Bool)} {queue : List JobLog}
    {cutoff toSkip jobCount k : ℕ} (h : s.Inv) (hcount : s.conn.jobCount = jobCount)
    (hcutoff : cutoff ≤ s.chain.head) (htoSkip : toSkip = s.jobCount - k)
    (hjobCount : jobCount = k - s.jobCount)
    (hitems : item :: (oldLogs ++ stream cutoff queue) = items false (s.chain.jobs.drop k)) :
    Inv (s.yielded item.1 oldLogs cutoff queue toSkip jobCount) := by
  have hlt : k < s.chain.jobs.length := by
    have hlen := congrArg List.length hitems
    rw [items, List.length_map, List.length_drop, List.length_cons] at hlen
    omega
  rw [List.drop_eq_getElem_cons hlt, items, List.map_cons] at hitems
  obtain ⟨hitem, hrest⟩ := List.cons.inj hitems
  have hjob : item.1 = s.chain.jobs[k] := by rw [hitem]
  have hcounted : s.counted = s.jobCount + jobCount := by rw [counted, hcount]
  have hspawned := h.spawned
  have hle := h.counted_le
  rw [hcounted] at hspawned hle
  unfold NewJobs.yielded
  cases htoSkip' : toSkip with
  | zero =>
    have hk : s.jobCount + jobCount = k := by omega
    refine {
      spawned := ?_
      counted_le := ?_
      delivered := ?_
      aligned := ⟨hcutoff, k + 1, hlt, ?_, ?_, hrest⟩ }
    · show s.spawned ++ [item.1] = s.chain.jobs.take (s.jobCount + (jobCount + 1))
      rw [hspawned, hk, ← Nat.add_assoc, hk, hjob, List.take_append_getElem hlt]
    · show s.jobCount + (jobCount + 1) ≤ s.chain.jobs.length
      omega
    · intro job hmem
      rcases List.mem_append.1 hmem with hmem | hmem
      · exact List.mem_append_left _ (h.delivered job hmem)
      · exact List.mem_append_right _ hmem
    · show 0 = s.jobCount - (k + 1)
      omega
    · show jobCount + 1 = k + 1 - s.jobCount
      omega
  | succ n =>
    have hk : k < s.jobCount := by omega
    refine {
      spawned := hspawned
      counted_le := hle
      delivered := ?_
      aligned := ⟨hcutoff, k + 1, hlt, ?_, ?_, hrest⟩ }
    · -- a job that is skipped is one of those counted before
      intro job hmem
      rcases List.mem_append.1 hmem with hmem | hmem
      · exact h.delivered job hmem
      · show job ∈ s.spawned
        rw [List.mem_singleton.1 hmem, hjob, hspawned]
        apply List.mem_take_iff_getElem.2
        exact ⟨k, by omega, rfl⟩
    · show n = s.jobCount - (k + 1)
      omega
    · show jobCount = k + 1 - s.jobCount
      omega

theorem removed_of_logsOf {removed : Bool} {first : ℕ} {blocks : List (List B256)} :
    ∀ log ∈ logsOf removed first blocks, log.removed = removed := by
  induction blocks generalizing first with
  | nil => nofun
  | cons jobs blocks ih =>
    intro log hlog
    rcases List.mem_append.1 hlog with hlog | hlog
    · obtain ⟨job, -, rfl⟩ := List.mem_map.1 hlog
      rfl
    · exact ih log hlog

theorem Inv.branch {keep : ℕ} {blocks : List (List B256)} {removed : List JobLog} {chain : Chain}
    (h : s.Inv) (hcons : s.Consistent (.branch keep blocks removed)) (hkeep : keep ≤ s.chain.head)
    (hblocks : chain.blocks = s.chain.blocks.take keep ++ blocks)
    (hremoved : removed.Perm (logsOf true (keep + 1) (s.chain.blocks.drop keep))) :
    Inv { s with
      chain := chain
      conn := s.conn.push (removed ++ logsOf false (keep + 1) blocks) } := by
  obtain ⟨htake, hconn⟩ := hcons
  rw [← hblocks] at htake
  have hcounted : counted { s with
      chain := chain
      conn := s.conn.push (removed ++ logsOf false (keep + 1) blocks) } = s.counted := by
    show s.jobCount + (s.conn.push _).jobCount = s.jobCount + s.conn.jobCount
    cases s.conn <;> rfl
  have habove := fun cutoff (hle : ∀ log ∈ removed, log.block ≤ cutoff) =>
    above_branch hkeep hblocks hremoved hle
  have haligned := h.aligned
  refine {
    spawned := ?_
    counted_le := ?_
    delivered := h.delivered
    aligned := ?_ }
  · rw [hcounted]
    exact h.spawned.trans htake.symm
  · rw [hcounted]
    have hlen := congrArg List.length htake
    rw [List.length_take, List.length_take, min_eq_left h.counted_le] at hlen
    show s.counted ≤ chain.blocks.flatten.length
    omega
  · unfold Aligned at haligned ⊢
    dsimp only
    cases hc : s.conn with
    | down => trivial
    | subscribed since queue =>
      rw [hc] at haligned
      intro cutoff hsince hqueue
      have hold : ∀ log ∈ queue, log.removed = true → log.block ≤ cutoff :=
        fun log hlog => hqueue log (List.mem_append_left _ hlog)
      have hnew : ∀ log ∈ removed, log.block ≤ cutoff := by
        intro log hlog
        have htrue := removed_of_logsOf log (hremoved.mem_iff.1 hlog)
        exact hqueue log (List.mem_append_right _ (List.mem_append_left _ hlog)) htrue
      rw [stream_append, haligned cutoff hsince hold, habove cutoff hnew]
    | cutoffKnown cutoff queue =>
      rw [hc] at haligned hconn
      obtain ⟨hcutoff, hle⟩ := hconn
      refine ⟨?_, ?_⟩
      · show cutoff ≤ chain.blocks.length
        rw [hblocks]
        exact hcutoff
      · rw [stream_append, haligned.2, habove cutoff hle]
    | streaming oldLogs cutoff queue toSkip jobCount =>
      rw [hc] at haligned hconn
      obtain ⟨hcutoff, hle, hupTo⟩ := hconn
      obtain ⟨-, k, hk, htoSkip, hjobCount, hitems⟩ := haligned
      -- the chain has only grown
      have hjobs : items false chain.jobs =
          items false s.chain.jobs ++
            stream cutoff (removed ++ logsOf false (keep + 1) blocks) := by
        have hsame : chain.upTo cutoff = s.chain.upTo cutoff := by
          rw [Chain.upTo, hblocks, hupTo]
        rw [jobs_eq chain cutoff, jobs_eq s.chain cutoff, hsame, items_append, items_append,
          habove cutoff hle, List.append_assoc]
      have hlen : s.chain.jobs.length ≤ chain.jobs.length := by
        have hlen := congrArg List.length hjobs
        rw [List.length_append, items, items, List.length_map, List.length_map] at hlen
        omega
      refine ⟨?_, k, hk.trans hlen, htoSkip, hjobCount, ?_⟩
      · show cutoff ≤ chain.blocks.length
        rw [hblocks]
        exact hcutoff
      · have hdrop : k ≤ (items false s.chain.jobs).length := by
          rw [items, List.length_map]
          exact hk
        have hmap : ∀ jobs : List B256, items false (jobs.drop k) = (items false jobs).drop k :=
          fun _ => List.map_drop
        rw [stream_append, ← List.append_assoc, hitems, hmap, hmap, hjobs,
          List.drop_append_of_le_length hdrop]

theorem Inv.step (h : s.Inv) (hcons : s.Consistent e) (hstep : Step s e s') : s'.Inv := by
  have haligned := h.aligned
  cases hstep with
  | branch hkeep hblocks hremoved => exact h.branch hcons hkeep hblocks hremoved
  | subscribe hc =>
    apply h.quiet
    · rw [hc]
      rfl
    · intro cutoff hsince _
      have hnil : s.chain.above cutoff = [] := by
        rw [Chain.above, List.drop_eq_nil_of_le hsince, List.flatten_nil]
      rw [hnil]
      rfl
  | getBlockNumber hc =>
    unfold Consistent at hcons
    unfold Aligned at haligned
    rw [hc] at hcons haligned
    obtain ⟨hsince, hhead, hqueue⟩ := hcons
    apply h.quiet
    · rw [hc]
      rfl
    · exact ⟨hhead, haligned _ hsince hqueue⟩
  | getLogs hc =>
    unfold Aligned at haligned
    rw [hc] at haligned
    apply h.quiet
    · rw [hc]
      rfl
    · refine ⟨haligned.1, 0, Nat.zero_le _, rfl, (Nat.zero_sub _).symm, ?_⟩
      rw [haligned.2, List.drop_zero, jobs_eq s.chain, items_append]
      rfl
  | nextOld hc =>
    unfold Aligned at haligned
    rw [hc] at haligned
    obtain ⟨hcutoff, k, -, htoSkip, hjobCount, hitems⟩ := haligned
    exact h.yielded _ (by rw [hc]; rfl) hcutoff htoSkip hjobCount hitems
  | nextFiltered hc hle =>
    unfold Aligned at haligned
    rw [hc] at haligned
    obtain ⟨hcutoff, k, hk, htoSkip, hjobCount, hitems⟩ := haligned
    apply h.quiet
    · rw [hc]
      rfl
    · refine ⟨hcutoff, k, hk, htoSkip, hjobCount, ?_⟩
      rw [← hitems, stream, stream, List.filter_cons_of_neg (by simpa using hle)]
  | nextLive hc hlt =>
    unfold Aligned at haligned
    rw [hc] at haligned
    obtain ⟨hcutoff, k, -, htoSkip, hjobCount, hitems⟩ := haligned
    rw [List.nil_append, stream, List.filter_cons_of_pos (by simpa using hlt)] at hitems
    exact h.yielded (_, _) (by rw [hc]; rfl) hcutoff htoSkip hjobCount hitems
  | disconnect => exact ⟨h.spawned, h.counted_le, h.delivered, trivial⟩

/-- In every run that is consistent, each job of the chain that a stream has yielded has one
manager. -/
theorem one_job_manager {es : List Event} (hfresh : s.Fresh)
    (h : Along Step Consistent s es s') : s'.OneManager := by
  have hstep : ∀ s e s', Inv s → Consistent s e → Step s e s' → Inv s' :=
    fun _ _ _ hs hcons hstep => hs.step hcons hstep
  exact (h.invariant hstep (.fresh hfresh)).oneManager

namespace Sample

def oneJob : Chain := ⟨[[1]], by decide⟩

def twoJobs : Chain := ⟨[[1], [2]], by decide⟩

def start : NewJobs := ⟨oneJob, .down, 0, [], []⟩

theorem fresh_start : start.Fresh := ⟨rfl, rfl, rfl, rfl⟩

def events : List Event :=
  [.subscribe, .getBlockNumber 1, .getLogs, .next, .branch 1 [[2]] [], .next]

def bothSpawned : NewJobs := ⟨twoJobs, .streaming [] 1 [] 0 2, 0, [1, 2], [1, 2]⟩

theorem along_bothSpawned : Along Step Consistent start events bothSpawned := by
  have hcutoff : Consistent ⟨oneJob, .subscribed 1 [], 0, [], []⟩ (.getBlockNumber 1) :=
    ⟨le_refl 1, le_refl 1, nofun⟩
  have hgrows : Consistent ⟨oneJob, .streaming [] 1 [] 0 1, 0, [1], [1]⟩ (.branch 1 [[2]] []) :=
    ⟨rfl, by decide, nofun, rfl⟩
  have hbranch : Step ⟨oneJob, .streaming [] 1 [] 0 1, 0, [1], [1]⟩ (.branch 1 [[2]] [])
      ⟨twoJobs, .streaming [] 1 [⟨2, 2, false⟩] 0 1, 0, [1], [1]⟩ :=
    .branch (by decide) rfl (.refl _)
  have hlive : Step ⟨twoJobs, .streaming [] 1 [⟨2, 2, false⟩] 0 1, 0, [1], [1]⟩ .next
      bothSpawned := by
    have hlt : 1 < (⟨2, 2, false⟩ : JobLog).block := by decide
    have hnext := Step.nextLive
      (s := ⟨twoJobs, .streaming [] 1 [⟨2, 2, false⟩] 0 1, 0, [1], [1]⟩) rfl hlt
    exact hnext
  exact .cons trivial (.subscribe rfl) (.cons hcutoff (.getBlockNumber rfl)
    (.cons trivial (.getLogs rfl) (.cons trivial (.nextOld rfl)
      (.cons hgrows hbranch (.cons trivial hlive (.nil _))))))

end Sample

theorem one_job_manager_sample : Sample.bothSpawned.OneManager :=
  one_job_manager Sample.fresh_start Sample.along_bothSpawned

/-- The block of the second job is dropped, and the new one has the job again: the removal notice
gets it a second manager. -/
theorem removal_spawns_again : ∃ es s', Sample.start.Fresh ∧ Run Step Sample.start es s' ∧
    ¬s'.OneManager := by
  have hreorg : Step Sample.bothSpawned (.branch 1 [[2]] [⟨2, 2, true⟩])
      { Sample.bothSpawned with
        conn := .streaming [] 1 [⟨2, 2, true⟩, ⟨2, 2, false⟩] 0 2 } :=
    .branch (by decide) rfl (.refl _)
  have hagain : Step { Sample.bothSpawned with
        conn := .streaming [] 1 [⟨2, 2, true⟩, ⟨2, 2, false⟩] 0 2 } .next
      ⟨Sample.twoJobs, .streaming [] 1 [⟨2, 2, false⟩] 0 3, 0, [1, 2, 2], [1, 2, 2]⟩ := by
    have hlt : 1 < (⟨2, 2, true⟩ : JobLog).block := by decide
    have hnext := Step.nextLive (s := { Sample.bothSpawned with
      conn := .streaming [] 1 [⟨2, 2, true⟩, ⟨2, 2, false⟩] 0 2 }) rfl hlt
    exact hnext
  refine ⟨_, _, Sample.fresh_start,
    Sample.along_bothSpawned.run.append (.cons hreorg (.cons hagain (.nil _))), fun h => ?_⟩
  have hone := h 2 (by decide) (by decide)
  revert hone
  decide

end NewJobs

end Oyster.ControlPlane
