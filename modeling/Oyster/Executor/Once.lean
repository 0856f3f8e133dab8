import Mathlib.Data.List.Nodup
import Mathlib.Data.List.Range
import Oyster.Executor.Events
import Oyster.Lib.Run

namespace Oyster.Executor

/-- The logs of the chain, each known by its position. -/
structure Chain where
  created : List JobCreatedLog
  responded : List JobRespondedLog

/-- The positions of the logs that a subscription from the block `start` delivers. -/
def subscribe {α : Type} (block : α → Option ℕ) (logs : List α) (start : ℕ) : List ℕ :=
  (List.range logs.length).filter fun i => (logs[i]?.bind block).any (start ≤ ·)

theorem mem_subscribe {α : Type} {block : α → Option ℕ} {logs : List α} {start i : ℕ} {log : α}
    {b : ℕ} (hlog : logs[i]? = some log) (hb : block log = some b) :
    i ∈ subscribe block logs start ↔ start ≤ b := by
  have hi := (List.getElem?_eq_some_iff.1 hlog).1
  unfold subscribe
  rw [List.mem_filter, List.mem_range, hlog, Option.bind_some, hb]
  simp [hi]

theorem nodup_subscribe {α : Type} (block : α → Option ℕ) (logs : List α) (start : ℕ) :
    (subscribe block logs start).Nodup :=
  List.nodup_range.filter _

/-- A connection, and what has happened. -/
structure Watch where
  listener : Listener
  /-- what the current subscriptions have not delivered yet -/
  created : List ℕ
  responded : List ℕ
  /-- the logs of either stream that were taken in any connection -/
  taken : List ℕ := []
  answered : List ℕ := []
  /-- what was done, with the log that it was done for -/
  actions : List (ℕ × Action) := []

inductive WatchEvent where
  | created
  | responded
  | deregistered (removed : Option Bool)
  | reconnect
deriving DecidableEq

/-- A spawned task reads `user_deadline.as_u64()` before it calls anything. -/
def Action.happens : Action → Bool
  | .enter _ => true
  | .handleTimeout _ userDeadline => (asU64 userDeadline).isSome
  | .handleJob _ _ _ userDeadline => (asU64 userDeadline).isSome

namespace Watch

def connect (chain : Chain) (s : Watch) : Watch :=
  { s with
    created := subscribe JobCreatedLog.blockNumber chain.created s.listener.lastBlockSeen
    responded := subscribe JobRespondedLog.blockNumber chain.responded s.listener.lastBlockSeen }

/-- The first connection starts at the block of the registration. -/
def start (chain : Chain) (block : ℕ) : Watch :=
  connect chain { listener := { lastBlockSeen := block }, created := [], responded := [] }

variable (c : Config) (chain : Chain)

def step (s : Watch) (e : WatchEvent) : Option Watch :=
  if s.listener.enclaveRegistered then
    match e with
    | .created =>
      match s.created with
      | [] => none
      | i :: rest => chain.created[i]?.map fun log =>
        let (listener, actions) := handleJobCreated c s.listener log
        { s with
          listener := listener
          created := rest
          taken := i :: s.taken
          actions := s.actions ++ (actions.filter Action.happens).map fun a => (i, a) }
    | .responded =>
      match s.responded with
      | [] => none
      | i :: rest => chain.responded[i]?.map fun log =>
        { s with
          listener := handleJobResponded c s.listener log
          responded := rest
          answered := i :: s.answered }
    | .deregistered removed => some { s with listener := handleDeregistered s.listener removed }
    | .reconnect => some (connect chain s)
  else none

abbrev Step (s : Watch) (e : WatchEvent) (s' : Watch) : Prop := s.step c chain e = some s'

/-- What was done for a log. -/
def actionsOf (s : Watch) (i : ℕ) : List Action := (s.actions.filter (·.1 = i)).map Prod.snd

/-- The log at `i` is a request of the block `b`, which is not before the registration. -/
def Request (first i : ℕ) (log : JobCreatedLog) (b : ℕ) (d : JobData) : Prop :=
  chain.created[i]? = some log ∧ log.request = some (b, d) ∧ first ≤ b

/-- One entry, one timeout, and one execution if this enclave is selected. -/
def HandledOnce (jobId : ℕ) (d : JobData) (actions : List Action) : Prop :=
  actions.Perm <| [.enter jobId, .handleTimeout jobId d.userDeadline] ++
    if c.enclaveAddress ∈ d.selectedExecutors then
      [.handleJob jobId (hexText d.codeHash) d.codeInputs d.userDeadline]
    else []

/-- Every request has been handled exactly once, or is still to come and has not been handled. -/
def Once (first : ℕ) (s : Watch) : Prop :=
  ∀ i log b d, Request chain first i log b d →
    HandledOnce c log.jobId d (s.actionsOf i) ∨ (i ∈ s.created ∧ s.actionsOf i = [])

/-- The blocks of the logs that were taken, removed ones apart. -/
def blocks (s : Watch) : List ℕ :=
  (s.taken.filterMap fun i => chain.created[i]?.bind JobCreatedLog.block) ++
    s.answered.filterMap fun i => chain.responded[i]?.bind JobRespondedLog.block

/-- A request is taken for the first time before any log of a later block, with a deadline that
fits; it is taken again only after such a log; and a connection is lost only while no log of a
later block than that of a request to come has been taken. -/
def Timely (first : ℕ) (s : Watch) : WatchEvent → Prop
  | .created => ∀ i rest log b d, s.created = i :: rest → Request chain first i log b d →
      if i ∈ s.taken then ∃ b' ∈ s.blocks chain, b < b'
      else d.userDeadline < u64Bound ∧ ∀ b' ∈ s.blocks chain, b' ≤ b
  | .reconnect => ∀ i log b d, i ∉ s.taken → Request chain first i log b d →
      ∀ b' ∈ s.blocks chain, b' ≤ b
  | _ => True

structure Inv (first : ℕ) (s : Watch) : Prop where
  nodup : s.created.Nodup
  /-- `last_block_seen` is the latest of the block of the registration and those of the logs -/
  seen : ∀ b, b < s.listener.lastBlockSeen ↔ b < first ∨ ∃ b' ∈ s.blocks chain, b < b'
  /-- nothing is done for a log that was not taken -/
  untaken : ∀ i, i ∉ s.taken → s.actionsOf i = []
  handled : ∀ i log b d, Request chain first i log b d → i ∈ s.taken →
    s.actionsOf i = actionsFor c log.jobId d
  waiting : ∀ i log b d, Request chain first i log b d → i ∉ s.taken → i ∈ s.created

variable {c chain} {first : ℕ} {s s' : Watch} {e : WatchEvent}

theorem handledOnce_actionsFor (jobId : ℕ) (d : JobData) :
    HandledOnce c jobId d (actionsFor c jobId d) := .refl _

theorem HandledOnce.length {jobId : ℕ} {d : JobData} {actions : List Action}
    (h : HandledOnce c jobId d actions) : actions.length = (actionsFor c jobId d).length :=
  List.Perm.length_eq h

theorem Inv.once (h : Inv c chain first s) : Once c chain first s := by
  intro i log b d hi
  by_cases ht : i ∈ s.taken
  · exact .inl (h.handled i log b d hi ht ▸ handledOnce_actionsFor _ _)
  · exact .inr ⟨h.waiting i log b d hi ht, h.untaken i ht⟩

theorem Inv.start : Inv c chain first (start chain first) where
  nodup := nodup_subscribe _ _ _
  seen _ := ⟨.inl, fun h => h.resolve_right fun ⟨_, hb, _⟩ => List.not_mem_nil hb⟩
  untaken _ _ := rfl
  handled := nofun
  waiting _ _ _ _ hi _ :=
    (mem_subscribe hi.1 (JobCreatedLog.request_eq hi.2.1).2.2.1).2 hi.2.2

theorem Inv.behind {i : ℕ} {log : JobCreatedLog} {b : ℕ} {d : JobData} (h : Inv c chain first s)
    (hi : Request chain first i log b d) :
    b < s.listener.lastBlockSeen ↔ ∃ b' ∈ s.blocks chain, b < b' := by
  rw [h.seen]
  exact or_iff_right (Nat.not_lt.2 hi.2.2)

theorem Inv.notBehind {i : ℕ} {log : JobCreatedLog} {b : ℕ} {d : JobData}
    (h : Inv c chain first s) (hi : Request chain first i log b d) :
    s.listener.lastBlockSeen ≤ b ↔ ∀ b' ∈ s.blocks chain, b' ≤ b := by
  rw [← Nat.not_lt, h.behind hi]
  simp only [not_exists, not_and, Nat.not_lt]

theorem happens_actionsFor (jobId : ℕ) (d : JobData) :
    (actionsFor c jobId d).filter Action.happens =
      if d.userDeadline < u64Bound then actionsFor c jobId d else [.enter jobId] := by
  unfold actionsFor
  by_cases hfits : d.userDeadline < u64Bound
  · have hsome : asU64 d.userDeadline = some d.userDeadline := if_pos hfits
    rw [if_pos hfits]
    split <;> simp [Action.happens, hsome]
  · have hnone : asU64 d.userDeadline = none := if_neg hfits
    rw [if_neg hfits]
    split <;> simp only [List.filter_cons, List.filter_nil, Action.happens, hnone, if_true,
      Option.isSome_none, Bool.false_eq_true, if_false]

theorem happens_ne_nil (jobId : ℕ) (d : JobData) :
    (actionsFor c jobId d).filter Action.happens ≠ [] := by
  rw [happens_actionsFor]
  split
  · exact List.cons_ne_nil _ _
  · exact List.cons_ne_nil _ _

theorem fits_of_handledOnce {jobId : ℕ} {d : JobData}
    (h : HandledOnce c jobId d ((actionsFor c jobId d).filter Action.happens)) :
    d.userDeadline < u64Bound := by
  by_contra hfits
  have hlen := h.length
  rw [happens_actionsFor, if_neg hfits] at hlen
  simp [actionsFor] at hlen

def take (c : Config) (s : Watch) (i : ℕ) (rest : List ℕ) (log : JobCreatedLog) : Watch :=
  { s with
    listener := (handleJobCreated c s.listener log).1
    created := rest
    taken := i :: s.taken
    actions := s.actions ++
      ((handleJobCreated c s.listener log).2.filter Action.happens).map fun a => (i, a) }

theorem step_created (hs : Step c chain s .created s') :
    ∃ i rest log, s.created = i :: rest ∧ chain.created[i]? = some log ∧
      s' = take c s i rest log := by
  simp only [Step, step] at hs
  split at hs
  · split at hs
    · cases hs
    next i rest hcreated =>
      obtain ⟨log, hlog, hs⟩ := Option.map_eq_some_iff.1 hs
      exact ⟨i, rest, log, hcreated, hlog, hs.symm⟩
  · cases hs

/-- What a step other than taking a `JobCreated` log does: a response may move `last_block_seen`
on, and only a reconnection changes what is still to come. -/
theorem step_other (hs : Step c chain s e s') (he : e ≠ .created) :
    (∃ i rest log, chain.responded[i]? = some log ∧ e = .responded ∧
      s' = { s with
        listener := handleJobResponded c s.listener log
        responded := rest
        answered := i :: s.answered }) ∨
    (∃ removed, e = .deregistered removed ∧
      s' = { s with listener := handleDeregistered s.listener removed }) ∨
    e = .reconnect ∧ s' = connect chain s := by
  simp only [Step, step] at hs
  split at hs
  · cases e with
    | created => exact absurd rfl he
    | responded =>
      dsimp only at hs
      split at hs
      · cases hs
      next i rest _ =>
        obtain ⟨log, hlog, rfl⟩ := Option.map_eq_some_iff.1 hs
        exact .inl ⟨i, rest, log, hlog, rfl, rfl⟩
    | deregistered removed =>
      cases hs
      exact .inr (.inl ⟨removed, rfl, rfl⟩)
    | reconnect =>
      cases hs
      exact .inr (.inr ⟨rfl, rfl⟩)
  · cases hs

theorem actionsOf_append {i j : ℕ} {actions : List Action}
    (h : s'.actions = s.actions ++ actions.map fun a => (i, a)) :
    s'.actionsOf j = s.actionsOf j ++ if i = j then actions else [] := by
  unfold actionsOf
  rw [h, List.filter_append, List.map_append]
  congr 1
  by_cases hij : i = j
  · rw [if_pos hij, List.filter_eq_self.2, List.map_map]
    · exact List.map_id'' (fun _ => rfl) _
    · intro a ha
      obtain ⟨_, _, rfl⟩ := List.mem_map.1 ha
      exact decide_eq_true hij
  · rw [if_neg hij, List.filter_eq_nil_iff.2, List.map_nil]
    intro a ha
    obtain ⟨_, _, rfl⟩ := List.mem_map.1 ha
    simpa using hij

theorem seen_max {bs bs' : List ℕ} {last last' : ℕ} {block : Option ℕ}
    (h : ∀ b, b < last ↔ b < first ∨ ∃ b' ∈ bs, b < b') (hlast : last' = max (block.getD 0) last)
    (hbs : ∀ b', b' ∈ bs' ↔ block = some b' ∨ b' ∈ bs) (b : ℕ) :
    b < last' ↔ b < first ∨ ∃ b' ∈ bs', b < b' := by
  rw [hlast, lt_max_iff, h]
  simp only [hbs, or_and_right, exists_or]
  cases block with
  | none => simp
  | some x =>
    simp only [Option.getD_some, Option.some.injEq, exists_eq_left']
    exact or_left_comm

section Created

variable {i : ℕ} {rest : List ℕ} {log : JobCreatedLog}

theorem mem_blocks_take (hlog : chain.created[i]? = some log) (b : ℕ) :
    b ∈ (take c s i rest log).blocks chain ↔ log.block = some b ∨ b ∈ s.blocks chain := by
  simp [blocks, take, hlog, or_assoc]

theorem take_other {j : ℕ} (hij : i ≠ j) : (take c s i rest log).actionsOf j = s.actionsOf j := by
  rw [actionsOf_append (s := s) rfl, if_neg hij, List.append_nil]

theorem take_request {b : ℕ} {d : JobData} (h : log.request = some (b, d)) :
    (take c s i rest log).actionsOf i = s.actionsOf i ++ if b < s.listener.lastBlockSeen then []
      else (actionsFor c log.jobId d).filter Action.happens := by
  rw [actionsOf_append (s := s) rfl, if_pos rfl, handleJobCreated_request h]
  split <;> rfl

theorem Inv.take (h : Inv c chain first s) (hcreated : s.created = i :: rest)
    (hlog : chain.created[i]? = some log) (hc : Timely chain first s .created) :
    Inv c chain first (take c s i rest log) := by
  have hnodup := h.nodup
  rw [hcreated] at hnodup
  obtain ⟨hi, hrest⟩ := List.nodup_cons.1 hnodup
  refine ⟨hrest, ?_, ?_, ?_, ?_⟩
  · exact seen_max h.seen (handleJobCreated_lastBlockSeen log) (mem_blocks_take hlog)
  · intro j hj
    obtain ⟨hij, hj⟩ := not_or.1 fun hm => hj (List.mem_cons.2 hm)
    rw [take_other (Ne.symm hij)]
    exact h.untaken j hj
  · intro j log' b d hj hm
    by_cases hij : i = j
    · subst hij
      have hsame : log = log' := Option.some.inj (hlog.symm.trans hj.1)
      subst hsame
      have ht := hc i rest log b d hcreated hj
      rw [take_request hj.2.1]
      by_cases htaken : i ∈ s.taken
      · rw [if_pos htaken, ← h.behind hj] at ht
        rw [if_pos ht, List.append_nil]
        exact h.handled i log b d hj htaken
      · rw [if_neg htaken, ← h.notBehind hj] at ht
        rw [if_neg (Nat.not_lt.2 ht.2), h.untaken i htaken, List.nil_append]
        rw [happens_actionsFor, if_pos ht.1]
    · rw [take_other hij]
      exact h.handled j log' b d hj ((List.mem_cons.1 hm).resolve_left (Ne.symm hij))
  · intro j log' b d hj hm
    obtain ⟨hij, hm⟩ := not_or.1 fun h => hm (List.mem_cons.2 h)
    have hwait := h.waiting j log' b d hj hm
    rw [hcreated] at hwait
    exact (List.mem_cons.1 hwait).resolve_left hij

theorem Inv.timely_of_take (h : Inv c chain first s) (hcreated : s.created = i :: rest)
    (hlog : chain.created[i]? = some log) (ho : Once c chain first (Watch.take c s i rest log)) :
    Timely chain first s .created := by
  intro i' rest' log' b d hcreated' hreq
  obtain ⟨rfl, rfl⟩ := List.cons.inj (hcreated.symm.trans hcreated')
  have hsame : log = log' := Option.some.inj (hlog.symm.trans hreq.1)
  subst hsame
  have hnodup := h.nodup
  rw [hcreated] at hnodup
  -- the log does not come again in this connection, so it has been handled once
  have hdone : HandledOnce c log.jobId d ((Watch.take c s i rest log).actionsOf i) :=
    (ho i log b d hreq).resolve_right fun hm => (List.nodup_cons.1 hnodup).1 hm.1
  rw [take_request hreq.2.1] at hdone
  by_cases htaken : i ∈ s.taken
  · rw [if_pos htaken, ← h.behind hreq]
    by_contra hlt
    have hlen := hdone.length
    rw [if_neg hlt, h.handled i log b d hreq htaken, List.length_append] at hlen
    exact happens_ne_nil _ _ (List.length_eq_zero_iff.1 (Nat.add_eq_left.1 hlen))
  · rw [if_neg htaken, ← h.notBehind hreq]
    rw [h.untaken i htaken, List.nil_append] at hdone
    have hge : ¬b < s.listener.lastBlockSeen := by
      intro hlt
      have hlen := hdone.length
      rw [if_pos hlt] at hlen
      exact absurd hlen (by simp [actionsFor])
    rw [if_neg hge] at hdone
    exact ⟨fits_of_handledOnce hdone, Nat.le_of_not_lt hge⟩

end Created

section Other

theorem Inv.answer {i : ℕ} {rest : List ℕ} {log : JobRespondedLog} (h : Inv c chain first s)
    (hlog : chain.responded[i]? = some log) : Inv c chain first { s with
      listener := handleJobResponded c s.listener log
      responded := rest
      answered := i :: s.answered } := by
  refine ⟨h.nodup, ?_, h.untaken, h.handled, h.waiting⟩
  refine seen_max h.seen (handleJobResponded_lastBlockSeen log) fun b => ?_
  simp [blocks, hlog, or_left_comm]

theorem Inv.deregister (h : Inv c chain first s) (removed : Option Bool) :
    Inv c chain first { s with listener := handleDeregistered s.listener removed } := by
  refine ⟨h.nodup, fun b => ?_, h.untaken, h.handled, h.waiting⟩
  unfold handleDeregistered
  split
  · exact h.seen b
  · exact h.seen b

theorem Inv.connect (h : Inv c chain first s) (hc : Timely chain first s .reconnect) :
    Inv c chain first (connect chain s) := by
  refine ⟨nodup_subscribe _ _ _, h.seen, h.untaken, h.handled, ?_⟩
  intro i log b d hi hm
  have hb := (JobCreatedLog.request_eq hi.2.1).2.2.1
  exact (mem_subscribe hi.1 hb).2 ((h.notBehind hi).2 (hc i log b d hm hi))

theorem Inv.timely_of_connect (h : Inv c chain first s)
    (ho : Once c chain first (Watch.connect chain s)) : Timely chain first s .reconnect := by
  intro i log b d hm hi
  have hb := (JobCreatedLog.request_eq hi.2.1).2.2.1
  rw [← h.notBehind hi]
  rcases ho i log b d hi with hdone | ⟨hcome, -⟩
  · have hdone : HandledOnce c log.jobId d (s.actionsOf i) := hdone
    have hlen := hdone.length
    rw [h.untaken i hm] at hlen
    exact absurd hlen (by simp [actionsFor])
  · exact (mem_subscribe hi.1 hb).1 hcome

end Other

/-- A step keeps the invariant if it is timely, and only then is every request handled once. -/
theorem Inv.step (h : Inv c chain first s) (hs : Step c chain s e s') :
    (Timely chain first s e → Inv c chain first s') ∧
      (Once c chain first s' → Timely chain first s e) := by
  by_cases he : e = .created
  · -- only here is anything handled
    subst he
    obtain ⟨i, rest, log, hcreated, hlog, rfl⟩ := step_created hs
    exact ⟨h.take hcreated hlog, h.timely_of_take hcreated hlog⟩
  obtain ⟨i, rest, log, hlog, rfl, rfl⟩ | ⟨removed, rfl, rfl⟩ | ⟨rfl, rfl⟩ := step_other hs he
  · exact ⟨fun _ => h.answer hlog, fun _ => True.intro⟩
  · exact ⟨fun _ => h.deregister removed, fun _ => True.intro⟩
  · exact ⟨h.connect, h.timely_of_connect⟩

end Watch

open Watch

/-- The runs whose steps are timely are those in which, after every step, each request has been
handled exactly once or is still to come. -/
theorem handled_once_iff (c : Config) (chain : Chain) (first : ℕ) (es : List WatchEvent)
    (s : Watch) :
    Along (Step c chain) (Timely chain first) (start chain first) es s ↔
      Along (Step c chain) (fun s e => ∀ s', Step c chain s e s' → Once c chain first s')
        (start chain first) es s := by
  constructor
  · intro h
    refine h.of_invariant ?_ ?_ (Inv.start (c := c))
    · intro s e s' hi hc hs
      exact (hi.step hs).1 hc
    · intro s e _ hi hc _ s' hs
      exact ((hi.step hs).1 hc).once
  · intro h
    refine h.of_invariant ?_ ?_ (Inv.start (c := c))
    · intro s e s' hi ho hs
      exact (hi.step hs).1 ((hi.step hs).2 (ho s' hs))
    · intro s e s' hi ho hs
      exact (hi.step hs).2 (ho s' hs)

def twoLogs : Chain where
  created := [⟨some false, some 10, 1, 1, some ⟨[], [], 5000, [7]⟩⟩]
  responded := [⟨some false, some 11, 2, some 3⟩]

def threeExecutors : Config := ⟨10, 3, 7⟩

def lateLog : Chain where
  created := [⟨some false, some 10, 1, 1, some ⟨[], [], 18446744073709551616, [7]⟩⟩]
  responded := []

/-- The request is skipped where the response is taken first, and is handled twice where the
connection is lost after it. One whose deadline does not fit is entered, and no task handles it. -/
theorem request_skipped_or_repeated :
    (∃ s, Run (Step threeExecutors twoLogs) (start twoLogs 9) [.responded, .created] s ∧
      s.actionsOf 0 = [] ∧ ¬Once threeExecutors twoLogs 9 s) ∧
    (∃ s, Run (Step threeExecutors twoLogs) (start twoLogs 9) [.created, .reconnect, .created] s ∧
      (s.actionsOf 0).length = 6 ∧ ¬Once threeExecutors twoLogs 9 s) ∧
    ∃ s, Run (Step threeExecutors lateLog) (start lateLog 9) [.created] s ∧
      s.actionsOf 0 = [.enter 1] ∧ ¬Once threeExecutors lateLog 9 s := by
  have hreq : Request twoLogs 9 0 ⟨some false, some 10, 1, 1, some ⟨[], [], 5000, [7]⟩⟩ 10
      ⟨[], [], 5000, [7]⟩ := ⟨rfl, rfl, by decide⟩
  have hlate : Request lateLog 9 0
      ⟨some false, some 10, 1, 1, some ⟨[], [], 18446744073709551616, [7]⟩⟩ 10
      ⟨[], [], 18446744073709551616, [7]⟩ := ⟨rfl, rfl, by decide⟩
  refine ⟨⟨_, Run.of_foldlM (f := Watch.step threeExecutors twoLogs) rfl, rfl, fun h => ?_⟩,
    ⟨_, Run.of_foldlM (f := Watch.step threeExecutors twoLogs) rfl, rfl, fun h => ?_⟩,
    ⟨_, Run.of_foldlM (f := Watch.step threeExecutors lateLog) rfl, rfl, fun h => ?_⟩⟩
  · rcases h 0 _ _ _ hreq with h | h
    · exact absurd h.length (by decide)
    · exact absurd h.1 (by decide)
  · rcases h 0 _ _ _ hreq with h | h
    · exact absurd h.length (by decide)
    · exact absurd h.1 (by decide)
  · rcases h 0 _ _ _ hlate with h | h
    · exact absurd h.length (by decide)
    · exact absurd h.1 (by decide)

end Oyster.Executor
