import Oyster.ControlPlane.Types
import Oyster.Lib.Cutoff
import Oyster.Lib.Run

/-!
`new_jobs` and `job_logs` of `market.rs` make the same three calls: they subscribe, ask for a
cutoff block and query the logs up to it, and their stream is the old logs followed by what the
subscription sends above the cutoff. Blocks are produced between any two steps.
-/

namespace Oyster.ControlPlane

open Cutoff

abbrev EthAddress := BitVec 160

structure Emitted where
  address : EthAddress
  log : Log
deriving DecidableEq

structure Filter where
  address : EthAddress
  eventSignature : List B256
  topic1 : Option B256
  topic3 : Option B256

namespace Filter

def topicMatches (asked : Option B256) (topic : Option B256) : Bool :=
  asked.all fun t => topic = some t

def accepts (f : Filter) (e : Emitted) : Bool :=
  e.address = f.address && (e.log.topics[0]?.any fun t => f.eventSignature.contains t) &&
    topicMatches f.topic1 e.log.topics[1]? && topicMatches f.topic3 e.log.topics[3]?

end Filter

structure MinedLog where
  block : ℕ
  emitted : Emitted
deriving DecidableEq

/-- A log as the RPC sends it. -/
structure RpcLog where
  blockNumber : Option ℕ
  emitted : Emitted
  removed : Bool
deriving DecidableEq

def MinedLog.item (l : MinedLog) : RpcLog := ⟨some l.block, l.emitted, false⟩

/-- The logs of all blocks up to the head, in the order of the chain. -/
structure LogChain where
  head : ℕ
  logs : List MinedLog
  inOrder : InOrder MinedLog.block logs
  le_head : ∀ l ∈ logs, l.block ≤ head

namespace LogChain

def newLogs (chain : LogChain) (logs : List Emitted) : List MinedLog :=
  logs.map fun e => ⟨chain.head + 1, e⟩

theorem block_of_newLogs {chain : LogChain} {logs : List Emitted} {l : MinedLog}
    (h : l ∈ chain.newLogs logs) : l.block = chain.head + 1 := by
  obtain ⟨e, -, rfl⟩ := List.mem_map.1 h
  rfl

def mine (chain : LogChain) (logs : List Emitted) : LogChain where
  head := chain.head + 1
  logs := chain.logs ++ chain.newLogs logs
  inOrder := by
    have hnew : InOrder MinedLog.block (chain.newLogs logs) := by
      apply List.pairwise_of_forall_mem_list
      intro x hx y hy
      rw [block_of_newLogs hx, block_of_newLogs hy]
    refine chain.inOrder.append hnew ?_
    intro x hx y hy
    have hle := chain.le_head x hx
    rw [block_of_newLogs hy]
    omega
  le_head := by
    intro l hl
    rcases List.mem_append.1 hl with hl | hl
    · have hle := chain.le_head l hl
      omega
    · rw [block_of_newLogs hl]

/-- The logs that a filter asks for. -/
def matching (chain : LogChain) (f : Filter) : List MinedLog :=
  chain.logs.filter fun l => f.accepts l.emitted

theorem matching_inOrder (chain : LogChain) (f : Filter) :
    InOrder MinedLog.block (chain.matching f) :=
  chain.inOrder.filter _

theorem matching_mine (chain : LogChain) (logs : List Emitted) (f : Filter) :
    (chain.mine logs).matching f =
      chain.matching f ++ (chain.newLogs logs).filter fun l => f.accepts l.emitted :=
  List.filter_append _ _

end LogChain

/-- What a caller asks for, and what its stream makes of a log; `none` is a panic. -/
structure Call (β : Type) where
  filter : Filter
  extract : RpcLog → Option β

def newJobs (address provider : EthAddress) : Call (B256 × Bool) where
  filter := {
    address := address
    eventSignature := [MarketEvent.jobOpened.topic]
    topic1 := none
    topic3 := some (provider.setWidth 256) }
  extract item := item.emitted.log.topics[1]?.map (·, item.removed)

def jobLogs (contract : EthAddress) (job : B256) : Call RpcLog where
  filter := {
    address := contract
    eventSignature := MarketEvent.all.map MarketEvent.topic
    topic1 := some job
    topic3 := none }
  extract item := some item

/-- How far the calls have come. `queue` is what the subscription has sent and nobody has read. -/
inductive Phase where
  | idle
  /-- registered at the head `since` -/
  | subscribed (since : ℕ) (queue : List RpcLog)
  | cutoffKnown (cutoff : ℕ) (queue : List RpcLog)
  | streaming (oldLogs : List RpcLog) (cutoff : ℕ) (queue : List RpcLog)
  | panicked

def Phase.push (logs : List RpcLog) : Phase → Phase
  | subscribed since queue => subscribed since (queue ++ logs)
  | cutoffKnown cutoff queue => cutoffKnown cutoff (queue ++ logs)
  | streaming oldLogs cutoff queue => streaming oldLogs cutoff (queue ++ logs)
  | phase => phase

structure LogStream (β : Type) where
  chain : LogChain
  phase : Phase
  yielded : List β

namespace LogStream

variable {β : Type}

def yieldItem (c : Call β) (s : LogStream β) (item : RpcLog) (rest : Phase) : LogStream β :=
  match c.extract item with
  | none => { s with phase := .panicked }
  | some x => { s with phase := rest, yielded := s.yielded ++ [x] }

/-- The next item of `old_logs.chain(stream)`, or of the stream before its filter. -/
def next (c : Call β) (s : LogStream β) : Option (LogStream β) :=
  match s.phase with
  | .streaming (item :: oldLogs) cutoff queue =>
    some (s.yieldItem c item (.streaming oldLogs cutoff queue))
  | .streaming [] cutoff (item :: queue) =>
    some <| match item.blockNumber with
      | none => { s with phase := .panicked }
      | some number =>
        if number > cutoff then s.yieldItem c item (.streaming [] cutoff queue)
        else { s with phase := .streaming [] cutoff queue }
  | _ => none

inductive Event where
  | mine (logs : List Emitted)
  | subscribe (earlier : List MinedLog)
  | getBlockNumber (cutoff : ℕ)
  | getLogs
  | next

/-- The subscription may begin with logs of earlier blocks; the cutoff is not below the block of
the registration, and the node that is asked for the logs has it. -/
inductive Step (c : Call β) : LogStream β → Event → LogStream β → Prop
  | mine {s : LogStream β} (logs : List Emitted) :
    Step c s (.mine logs) { s with
      chain := s.chain.mine logs
      phase := s.phase.push
        (((s.chain.newLogs logs).filter fun l => c.filter.accepts l.emitted).map MinedLog.item) }
  | subscribe {s : LogStream β} {earlier : List MinedLog} : s.phase = .idle →
    (∀ l ∈ earlier, l ∈ s.chain.matching c.filter) →
    Step c s (.subscribe earlier) { s with
      phase := .subscribed s.chain.head (earlier.map MinedLog.item) }
  | getBlockNumber {s : LogStream β} {since cutoff : ℕ} {queue : List RpcLog} :
    s.phase = .subscribed since queue → since ≤ cutoff →
    Step c s (.getBlockNumber cutoff) { s with phase := .cutoffKnown cutoff queue }
  | getLogs {s : LogStream β} {cutoff : ℕ} {queue : List RpcLog} :
    s.phase = .cutoffKnown cutoff queue → cutoff ≤ s.chain.head →
    Step c s .getLogs { s with
      phase := .streaming
        ((upTo MinedLog.block cutoff (s.chain.matching c.filter)).map MinedLog.item) cutoff queue }
  | next {s s' : LogStream β} : s.next c = some s' → Step c s .next s'

structure Fresh (s : LogStream β) : Prop where
  phase : s.phase = .idle
  yielded : s.yielded = []

def expected (c : Call β) (chain : LogChain) : List (Option β) :=
  (chain.matching c.filter).map fun l => c.extract l.item

/-- The queue is made of matching logs, and what it has above a cutoff is what the chain has. -/
def Follows (c : Call β) (chain : LogChain) (cutoff : ℕ) (queue : List RpcLog) : Prop :=
  ∃ logs : List MinedLog, queue = logs.map MinedLog.item ∧
    (∀ l ∈ logs, c.filter.accepts l.emitted = true) ∧
    above MinedLog.block cutoff logs = above MinedLog.block cutoff (chain.matching c.filter)

def Spliced (c : Call β) (s : LogStream β) (oldLogs : List RpcLog) (cutoff : ℕ)
    (queue : List RpcLog) : Prop :=
  ∃ done old live : List MinedLog,
    oldLogs = old.map MinedLog.item ∧ queue = live.map MinedLog.item ∧
    (∀ l ∈ live, c.filter.accepts l.emitted = true) ∧
    s.yielded.map some = done.map (fun l => c.extract l.item) ∧
    done ++ old ++ above MinedLog.block cutoff live = s.chain.matching c.filter

def Inv (c : Call β) (s : LogStream β) : Prop :=
  match s.phase with
  | .idle => s.yielded = []
  | .subscribed since queue => s.yielded = [] ∧ since ≤ s.chain.head ∧
      ∀ cutoff, since ≤ cutoff → Follows c s.chain cutoff queue
  | .cutoffKnown cutoff queue => s.yielded = [] ∧ Follows c s.chain cutoff queue
  | .streaming oldLogs cutoff queue => cutoff ≤ s.chain.head ∧ Spliced c s oldLogs cutoff queue
  | .panicked => False

variable {c : Call β} {s s' : LogStream β}

theorem Follows.mine {chain : LogChain} {cutoff : ℕ} {queue : List RpcLog}
    (h : Follows c chain cutoff queue) (logs : List Emitted) :
    Follows c (chain.mine logs) cutoff (queue ++
      ((chain.newLogs logs).filter fun l => c.filter.accepts l.emitted).map MinedLog.item) := by
  obtain ⟨sent, rfl, haccepts, habove⟩ := h
  refine ⟨sent ++ (chain.newLogs logs).filter fun l => c.filter.accepts l.emitted,
    (List.map_append).symm, ?_, ?_⟩
  · intro l hl
    rcases List.mem_append.1 hl with hl | hl
    · exact haccepts l hl
    · exact (List.mem_filter.1 hl).2
  · rw [above_append, habove, LogChain.matching_mine, above_append]

theorem Spliced.mine {oldLogs queue : List RpcLog} {cutoff : ℕ}
    (h : Spliced c s oldLogs cutoff queue) (hcutoff : cutoff ≤ s.chain.head) (phase : Phase)
    (logs : List Emitted) :
    Spliced c { s with chain := s.chain.mine logs, phase := phase } oldLogs cutoff (queue ++
      ((s.chain.newLogs logs).filter fun l => c.filter.accepts l.emitted).map MinedLog.item) := by
  obtain ⟨done, old, live, rfl, rfl, haccepts, hyielded, hall⟩ := h
  have hnew : above MinedLog.block cutoff
      ((s.chain.newLogs logs).filter fun l => c.filter.accepts l.emitted) =
      (s.chain.newLogs logs).filter fun l => c.filter.accepts l.emitted := by
    apply above_of_lt
    intro l hl
    rw [LogChain.block_of_newLogs (List.mem_filter.1 hl).1]
    omega
  refine ⟨done, old, live ++ (s.chain.newLogs logs).filter fun l => c.filter.accepts l.emitted,
    rfl, (List.map_append).symm, ?_, hyielded, ?_⟩
  · intro l hl
    rcases List.mem_append.1 hl with hl | hl
    · exact haccepts l hl
    · exact (List.mem_filter.1 hl).2
  · rw [above_append, hnew, LogChain.matching_mine, ← hall]
    simp only [List.append_assoc]

/-- Every log that the filter asks for can be read. -/
def Readable (c : Call β) : Prop :=
  ∀ l : MinedLog, c.filter.accepts l.emitted = true → ∃ x, c.extract l.item = some x

theorem accepts_of_mem {chain : LogChain} {l : MinedLog} (h : l ∈ chain.matching c.filter) :
    c.filter.accepts l.emitted = true :=
  (List.mem_filter.1 h).2

theorem inv_of_fresh (h : s.Fresh) : s.Inv c := by
  unfold Inv
  rw [h.phase]
  exact h.yielded

theorem yieldItem_eq {item : RpcLog} {x : β} (h : c.extract item = some x) (rest : Phase) :
    s.yieldItem c item rest = { s with phase := rest, yielded := s.yielded ++ [x] } := by
  unfold yieldItem
  rw [h]

theorem map_some_append {xs : List β} {x : β} {done : List MinedLog} {l : MinedLog}
    (h : xs.map some = done.map fun l => c.extract l.item) (hx : c.extract l.item = some x) :
    (xs ++ [x]).map some = (done ++ [l]).map fun l => c.extract l.item := by
  rw [List.map_append, List.map_append, h, List.map_singleton, List.map_singleton, hx]

theorem Spliced.next_old (hc : Readable c) {item : RpcLog} {oldLogs queue : List RpcLog}
    {cutoff : ℕ} (hphase : s.phase = .streaming (item :: oldLogs) cutoff queue)
    (h : Spliced c s (item :: oldLogs) cutoff queue) :
    ∃ x, s.next c = some { s with
        phase := .streaming oldLogs cutoff queue
        yielded := s.yielded ++ [x] } ∧
      Spliced c { s with
        phase := .streaming oldLogs cutoff queue
        yielded := s.yielded ++ [x] } oldLogs cutoff queue := by
  obtain ⟨done, old, live, hold, hqueue, haccepts, hyielded, hall⟩ := h
  cases old with
  | nil => cases hold
  | cons l old =>
    obtain ⟨rfl, rfl⟩ := List.cons.inj hold
    have hmem : l ∈ s.chain.matching c.filter := by
      rw [← hall]
      simp
    obtain ⟨x, hx⟩ := hc l (accepts_of_mem hmem)
    refine ⟨x, ?_, done ++ [l], old, live, rfl, hqueue, haccepts, map_some_append hyielded hx, ?_⟩
    · unfold next
      rw [hphase]
      dsimp only
      rw [yieldItem_eq hx]
    · rw [← hall]
      simp

theorem Spliced.next_live (hc : Readable c) {item : RpcLog} {queue : List RpcLog} {cutoff : ℕ}
    (hphase : s.phase = .streaming [] cutoff (item :: queue))
    (h : Spliced c s [] cutoff (item :: queue)) :
    ∃ xs, s.next c = some { s with
        phase := .streaming [] cutoff queue
        yielded := xs } ∧
      Spliced c { s with
        phase := .streaming [] cutoff queue
        yielded := xs } [] cutoff queue := by
  obtain ⟨done, old, live, hold, hqueue, haccepts, hyielded, hall⟩ := h
  rw [List.map_eq_nil_iff.1 hold.symm, List.append_nil] at hall
  cases live with
  | nil => cases hqueue
  | cons l live =>
    obtain ⟨rfl, rfl⟩ := List.cons.inj hqueue
    have haccepts' : ∀ l ∈ live, c.filter.accepts l.emitted = true := fun l hl =>
      haccepts l (List.mem_cons_of_mem _ hl)
    by_cases hlt : cutoff < l.block
    · obtain ⟨x, hx⟩ := hc l (haccepts l List.mem_cons_self)
      rw [above_cons_of_lt hlt] at hall
      refine ⟨s.yielded ++ [x], ?_, done ++ [l], [], live, rfl, rfl, haccepts',
        map_some_append hyielded hx, ?_⟩
      · unfold next
        rw [hphase]
        dsimp only [MinedLog.item]
        rw [if_pos hlt]
        exact congrArg some (yieldItem_eq hx _)
      · rw [← hall]
        simp
    · rw [above_cons_of_le (not_lt.1 hlt)] at hall
      refine ⟨s.yielded, ?_, done, [], live, rfl, rfl, haccepts', hyielded, ?_⟩
      · unfold next
        rw [hphase]
        dsimp only [MinedLog.item]
        rw [if_neg hlt]
      · rw [List.append_nil, hall]

theorem phase_of_next (h : s.next c = some s') : ∃ oldLogs cutoff queue,
    s.phase = .streaming oldLogs cutoff queue ∧ (oldLogs = [] → queue ≠ []) := by
  cases hphase : s.phase with
  | streaming oldLogs cutoff queue =>
    refine ⟨oldLogs, cutoff, queue, rfl, ?_⟩
    rintro rfl rfl
    simp only [next, hphase] at h
    cases h
  | _ =>
    simp only [next, hphase] at h
    cases h

theorem Inv.next (hc : Readable c) {oldLogs queue : List RpcLog} {cutoff : ℕ} (hs : s.Inv c)
    (hphase : s.phase = .streaming oldLogs cutoff queue) (hne : oldLogs = [] → queue ≠ []) :
    ∃ s' oldLogs' queue', s.next c = some s' ∧ s'.Inv c ∧ s'.chain = s.chain ∧
      s'.phase = .streaming oldLogs' cutoff queue' ∧
      oldLogs'.length + queue'.length + 1 = oldLogs.length + queue.length := by
  unfold Inv at hs
  rw [hphase] at hs
  obtain ⟨hhead, hspliced⟩ := hs
  cases oldLogs with
  | cons item oldLogs =>
    obtain ⟨x, hnext, hspliced'⟩ := hspliced.next_old hc hphase
    refine ⟨_, oldLogs, queue, hnext, ⟨hhead, hspliced'⟩, rfl, rfl, ?_⟩
    simp only [List.length_cons]
    omega
  | nil =>
    cases queue with
    | nil => exact absurd rfl (hne rfl)
    | cons item queue =>
      obtain ⟨xs, hnext, hspliced'⟩ := hspliced.next_live hc hphase
      refine ⟨_, [], queue, hnext, ⟨hhead, hspliced'⟩, rfl, rfl, ?_⟩
      simp only [List.length_cons]
      omega

/-- Every step keeps the invariant. -/
theorem Inv.step {e : Event} (hc : Readable c) (hs : s.Inv c) (h : Step c s e s') : s'.Inv c := by
  unfold Inv at hs
  cases h with
  | mine logs =>
    cases hphase : s.phase with
    | idle =>
      rw [hphase] at hs
      exact hs
    | subscribed since queue =>
      rw [hphase] at hs
      obtain ⟨hyielded, hsince, hfollows⟩ := hs
      exact ⟨hyielded, Nat.le_succ_of_le hsince,
        fun cutoff hle => (hfollows cutoff hle).mine logs⟩
    | cutoffKnown cutoff queue =>
      rw [hphase] at hs
      exact ⟨hs.1, hs.2.mine logs⟩
    | streaming oldLogs cutoff queue =>
      rw [hphase] at hs
      exact ⟨Nat.le_succ_of_le hs.1, hs.2.mine hs.1 _ logs⟩
    | panicked =>
      rw [hphase] at hs
      exact hs
  | subscribe hphase hearlier =>
    rw [hphase] at hs
    refine ⟨hs, Nat.le_refl _, ?_⟩
    intro cutoff hle
    have hblock : ∀ l ∈ s.chain.matching c.filter, l.block ≤ cutoff := fun l hl =>
      Nat.le_trans (s.chain.le_head l (List.mem_filter.1 hl).1) hle
    refine ⟨_, rfl, fun l hl => accepts_of_mem (hearlier l hl), ?_⟩
    rw [above_of_le hblock, above_of_le fun l hl => hblock l (hearlier l hl)]
  | getBlockNumber hphase hle =>
    rw [hphase] at hs
    exact ⟨hs.1, hs.2.2 _ hle⟩
  | @getLogs cutoff queue hphase hhead =>
    rw [hphase] at hs
    obtain ⟨hyielded, live, hqueue, haccepts, habove⟩ := hs
    refine ⟨hhead, [], _, live, rfl, hqueue, haccepts, ?_, ?_⟩
    · rw [hyielded]
      rfl
    · rw [habove, List.nil_append]
      exact (s.chain.matching_inOrder c.filter).upTo_append_above
  | next hnext =>
    obtain ⟨oldLogs, cutoff, queue, hphase, hne⟩ := phase_of_next hnext
    obtain ⟨s₁, -, -, hnext', hinv, -⟩ := Inv.next hc (by unfold Inv; exact hs) hphase hne
    rw [Option.some.inj (hnext.symm.trans hnext')]
    exact hinv

theorem Inv.yielded_isPrefix (hs : s.Inv c) :
    s.phase ≠ .panicked ∧ s.yielded.map some <+: expected c s.chain := by
  unfold Inv at hs
  unfold expected
  cases hphase : s.phase with
  | idle =>
    rw [hphase] at hs
    rw [hs]
    exact ⟨nofun, List.nil_prefix⟩
  | subscribed since queue =>
    rw [hphase] at hs
    rw [hs.1]
    exact ⟨nofun, List.nil_prefix⟩
  | cutoffKnown cutoff queue =>
    rw [hphase] at hs
    rw [hs.1]
    exact ⟨nofun, List.nil_prefix⟩
  | streaming oldLogs cutoff queue =>
    rw [hphase] at hs
    obtain ⟨-, done, old, live, -, -, -, hyielded, hall⟩ := hs
    rw [hyielded, ← hall, List.append_assoc, List.map_append]
    exact ⟨nofun, List.prefix_append _ _⟩
  | panicked =>
    rw [hphase] at hs
    exact hs.elim

/-- Reading on without a new block yields all that the chain has. -/
theorem Inv.drain (hc : Readable c) {n : ℕ} {oldLogs queue : List RpcLog} {cutoff : ℕ}
    (hs : s.Inv c) (hphase : s.phase = .streaming oldLogs cutoff queue)
    (hn : oldLogs.length + queue.length = n) :
    ∃ s', Run (Step c) s (List.replicate n .next) s' ∧ s'.chain = s.chain ∧
      s'.yielded.map some = expected c s.chain := by
  -- on what is left to read; a `next` keeps the invariant and takes one log
  induction n generalizing s oldLogs queue with
  | zero =>
    have hold : oldLogs = [] := List.eq_nil_of_length_eq_zero (by omega)
    have hqueue : queue = [] := List.eq_nil_of_length_eq_zero (by omega)
    unfold Inv at hs
    rw [hphase] at hs
    obtain ⟨-, done, old, live, hold', hqueue', -, hyielded, hall⟩ := hs
    rw [hold] at hold'
    rw [hqueue] at hqueue'
    rw [List.map_eq_nil_iff.1 hold'.symm, List.map_eq_nil_iff.1 hqueue'.symm] at hall
    refine ⟨s, .nil s, rfl, ?_⟩
    rw [hyielded, expected, ← hall]
    simp [above]
  | succ n ih =>
    have hne : oldLogs = [] → queue ≠ [] := by
      rintro rfl rfl
      simp at hn
    obtain ⟨s₁, old₁, queue₁, hnext, hinv, hchain, hphase₁, hlen⟩ := hs.next hc hphase hne
    obtain ⟨s', hrun, hchain', hyielded⟩ := ih hinv hphase₁ (by omega)
    rw [hchain] at hchain' hyielded
    exact ⟨s', .cons (.next hnext) hrun, hchain', hyielded⟩

theorem topicMatches_some {asked : B256} {topic : Option B256}
    (h : Filter.topicMatches (some asked) topic = true) : topic = some asked := by
  simpa [Filter.topicMatches] using h

theorem newJobs_readable (address provider : EthAddress) : Readable (newJobs address provider) := by
  intro l h
  unfold Filter.accepts newJobs at h
  simp only [Bool.and_eq_true] at h
  have htopic := topicMatches_some h.2
  obtain ⟨hlen, -⟩ := List.getElem?_eq_some_iff.1 htopic
  have hlen' : 1 < l.emitted.log.topics.length := by omega
  refine ⟨(l.emitted.log.topics[1], false), ?_⟩
  show l.item.emitted.log.topics[1]?.map _ = _
  rw [MinedLog.item, List.getElem?_eq_getElem hlen']
  rfl

theorem jobLogs_readable (contract : EthAddress) (job : B256) : Readable (jobLogs contract job) :=
  fun l _ => ⟨l.item, rfl⟩

/-- The stream yields every matching log once and in the order of the chain, and no other: what
it has yielded is an initial part of them, it never panics, and once it is read to its end all
of them have been yielded. -/
def Faithful (c : Call β) (s : LogStream β) : Prop :=
  s.phase ≠ .panicked ∧ s.yielded.map some <+: expected c s.chain ∧
    ∀ oldLogs cutoff queue, s.phase = .streaming oldLogs cutoff queue →
      ∃ s', Run (Step c) s (List.replicate (oldLogs.length + queue.length) .next) s' ∧
        s'.chain = s.chain ∧ s'.yielded.map some = expected c s.chain

theorem Inv.faithful (hc : Readable c) (hs : s.Inv c) : s.Faithful c := by
  obtain ⟨hphase, hyielded⟩ := hs.yielded_isPrefix
  exact ⟨hphase, hyielded, fun _ _ _ hstreaming => hs.drain hc hstreaming rfl⟩

theorem faithful_of_run (hc : Readable c) {start : LogStream β} {es : List Event}
    (hstart : start.Fresh) (h : Run (Step c) start es s) : s.Faithful c :=
  (h.invariant (fun _ _ _ hs hstep => hs.step hc hstep) (inv_of_fresh hstart)).faithful hc

/-- Whatever blocks are produced between and after the calls, the streams of `new_jobs` and
`job_logs` yield every matching log exactly once and in the order of the chain. -/
theorem logs_spliced (contract provider : EthAddress) (job : B256) :
    (∀ start s es, start.Fresh → Run (Step (newJobs contract provider)) start es s →
      s.Faithful (newJobs contract provider)) ∧
    (∀ start s es, start.Fresh → Run (Step (jobLogs contract job)) start es s →
      s.Faithful (jobLogs contract job)) :=
  ⟨fun _ _ _ hstart h => faithful_of_run (newJobs_readable contract provider) hstart h,
    fun _ _ _ hstart h => faithful_of_run (jobLogs_readable contract job) hstart h⟩

end LogStream

namespace Sample

def genesis : LogChain where
  head := 0
  logs := []
  inOrder := .nil
  le_head := nofun

def idleStream (β : Type) : LogStream β := ⟨genesis, .idle, []⟩

def emittedOpen : Emitted :=
  ⟨0xabc, ⟨[MarketEvent.jobOpened.topic, 1, 0x123, 0xdef], []⟩⟩

def emittedClose : Emitted := ⟨0xabc, ⟨[MarketEvent.jobClosed.topic, 1], []⟩⟩

def spliceEvents : List LogStream.Event :=
  [.mine [emittedOpen], .subscribe [], .mine [emittedClose], .getBlockNumber 1, .getLogs, .next]

theorem logs_spliced_sample :
    (∃ s, Run (LogStream.Step (newJobs 0xabc 0xdef)) (idleStream (B256 × Bool)) spliceEvents s ∧
      s.yielded = [(1, false)] ∧ s.Faithful (newJobs 0xabc 0xdef)) ∧
    (∃ s, Run (LogStream.Step (jobLogs 0xabc 1)) (idleStream RpcLog) (spliceEvents ++ [.next]) s ∧
      s.yielded = [⟨some 1, emittedOpen, false⟩, ⟨some 2, emittedClose, false⟩] ∧
      s.Faithful (jobLogs 0xabc 1)) := by
  have hspliced := LogStream.logs_spliced 0xabc 0xdef 1
  constructor
  · have hrun : ∃ s, Run (LogStream.Step (newJobs 0xabc 0xdef)) (idleStream (B256 × Bool))
        spliceEvents s ∧ s.yielded = [(1, false)] :=
      ⟨_, .cons (.mine _) (.cons (.subscribe rfl nofun) (.cons (.mine _)
        (.cons (.getBlockNumber rfl (by decide)) (.cons (.getLogs rfl (by decide))
        (.cons (.next rfl) (.nil _)))))), rfl⟩
    obtain ⟨s, hrun, hyielded⟩ := hrun
    exact ⟨s, hrun, hyielded, hspliced.1 _ s _ ⟨rfl, rfl⟩ hrun⟩
  · have hrun : ∃ s, Run (LogStream.Step (jobLogs 0xabc 1)) (idleStream RpcLog)
        (spliceEvents ++ [.next]) s ∧
        s.yielded = [⟨some 1, emittedOpen, false⟩, ⟨some 2, emittedClose, false⟩] :=
      ⟨_, .cons (.mine _) (.cons (.subscribe rfl nofun) (.cons (.mine _)
        (.cons (.getBlockNumber rfl (by decide)) (.cons (.getLogs rfl (by decide))
        (.cons (.next rfl) (.cons (.next rfl) (.nil _))))))), rfl⟩
    obtain ⟨s, hrun, hyielded⟩ := hrun
    exact ⟨s, hrun, hyielded, hspliced.2 _ s _ ⟨rfl, rfl⟩ hrun⟩

end Sample

end Oyster.ControlPlane
