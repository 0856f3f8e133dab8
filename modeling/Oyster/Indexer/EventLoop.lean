import Oyster.Indexer.Ledger
import Oyster.Lib.Run

/-!
`event_loop` and `start_from` of `lib.rs`, run by `main` again and again: a process may end
between any two steps and be started anew. A `u64` wraps, as in a release build.
-/

namespace Oyster.Indexer

open Fallible

abbrev BlockNumber := BitVec 64

inductive Round where
  /-- `rpc is behind the db`: the loop returns an error -/
  | behind
  | upToDate
  | fetch (start stop : BlockNumber)
deriving DecidableEq

def round (rangeSize lastUpdated latest : BlockNumber) : Round :=
  if latest < lastUpdated then .behind
  else if latest = lastUpdated then .upToDate
  else
    let start := lastUpdated + 1
    let capped := start + rangeSize - 1
    .fetch start (if capped ≤ latest then capped else latest)

/-- `start_from`: the row of `sync` after `UPDATE sync SET block = .. WHERE block < ..`. -/
def startFrom (start : BlockNumber) (sync : ℤ) : ℤ :=
  if sync < (start - 1).toInt then (start - 1).toInt else sync

inductive Process where
  | down
  /-- `start_from` has returned -/
  | started
  | looping (lastUpdated : BlockNumber)
deriving DecidableEq

/-- The database, the process on it and the RPC. -/
structure Deployment where
  db : Db
  /-- the row of `sync` -/
  sync : ℤ
  process : Process
  /-- the highest block that the RPC has reported -/
  latest : BlockNumber
  /-- the logs whose effects are committed -/
  applied : List Log

/-- What the migrations leave. -/
def Deployment.fresh : Deployment where
  db := .empty
  sync := -1
  process := .down
  latest := 0
  applied := []

inductive Tick where
  | startFrom
  | load
  /-- a round with this latest block and, if it fetches a range, these logs -/
  | poll (latest : BlockNumber) (logs : List Log)
  /-- an RPC or database call that fails, or the end of the process -/
  | crash

section Loop

variable (codec : ControlPlane.Codec) (pg : Postgres) (chain : ℕ → List Log)
  (start rangeSize : BlockNumber)

/-- The logs of `n` blocks. -/
def logsFrom (block n : ℕ) : List Log := (List.range' block n).flatMap chain

/-- The transaction of a round, which is rolled back where a handler fails. -/
def Deployment.commit (s : Deployment) (stop : BlockNumber) (logs : List Log) : Deployment :=
  match handleLogs codec pg s.db logs with
  | .ok db => { s with
      db := db
      sync := stop.toInt
      process := .looping stop
      applied := s.applied ++ logs }
  | .error _ => { s with process := .down }

def Deployment.poll (s : Deployment) (lastUpdated latest : BlockNumber) (logs : List Log) :
    Deployment :=
  match round rangeSize lastUpdated latest with
  | .behind => { s with latest := latest, process := .down }
  | .upToDate => { s with latest := latest }
  | .fetch _ stop => { s with latest := latest }.commit codec pg stop logs

inductive Step : Deployment → Tick → Deployment → Prop
  | startFrom {s : Deployment} : s.process = .down →
    Step s .startFrom { s with sync := startFrom start s.sync, process := .started }
  | load {s : Deployment} : s.process = .started →
    Step s .load { s with process := .looping (BitVec.ofInt 64 s.sync) }
  | poll {s : Deployment} {lastUpdated latest : BlockNumber} {logs : List Log} :
    s.process = .looping lastUpdated → s.latest ≤ latest →
    (∀ first last, round rangeSize lastUpdated latest = .fetch first last → first ≤ last →
      logs = logsFrom chain first.toNat (last.toNat + 1 - first.toNat)) →
    Step s (.poll latest logs) (s.poll codec pg rangeSize lastUpdated latest logs)
  | crash {s : Deployment} : Step s .crash { s with process := .down }

/-- The committed effects are those of the logs of the blocks from `start` to `sync`. -/
structure Covers (s : Deployment) : Prop where
  applied : s.applied = logsFrom chain start.toNat (s.sync + 1 - start.toNat).toNat
  tables : handleLogs codec pg .empty s.applied = .ok s.db

/-- No round finds the RPC behind while it is neither behind the start nor behind `sync`. -/
def NotBehind (s : Deployment) : Tick → Prop
  | .poll latest _ => ∀ lastUpdated, s.process = .looping lastUpdated → start ≤ latest →
      s.sync ≤ latest.toNat → round rangeSize lastUpdated latest ≠ .behind
  | _ => True

/-- The step does not turn `sync` back. -/
def NotBack (s : Deployment) (e : Tick) : Prop :=
  ∀ s', Step codec pg chain start rangeSize s e s' → s.sync ≤ s'.sync

/-- Block numbers fit the `BIGINT` column, and the end of a range does not wrap. -/
def InRange (s : Deployment) : Tick → Prop
  | .poll latest _ => latest.toNat < 2 ^ 63 ∧
      ∀ lastUpdated first last, s.process = .looping lastUpdated →
        round rangeSize lastUpdated latest = .fetch first last →
        lastUpdated.toNat + rangeSize.toNat < 2 ^ 64
  | _ => True

variable {codec pg chain start rangeSize}

theorem round_fetch {lastUpdated latest first last : BlockNumber} (hsize : 1 ≤ rangeSize)
    (h : round rangeSize lastUpdated latest = .fetch first last)
    (hwrap : lastUpdated.toNat + rangeSize.toNat < 2 ^ 64) :
    first.toNat = lastUpdated.toNat + 1 ∧ lastUpdated.toNat < last.toNat ∧
      last.toNat ≤ latest.toNat := by
  unfold round at h
  dsimp only at h
  split at h
  · cases h
  next hbehind =>
    split at h
    · cases h
    next hne =>
      cases h
      have hlt : lastUpdated.toNat < latest.toNat := by bv_omega
      have hfirst : (lastUpdated + 1).toNat = lastUpdated.toNat + 1 := by bv_omega
      have hcapped : (lastUpdated + 1 + rangeSize - 1).toNat =
          lastUpdated.toNat + rangeSize.toNat := by bv_omega
      refine ⟨hfirst, ?_, ?_⟩
      · split <;> bv_omega
      · split <;> bv_omega

theorem round_behind {lastUpdated latest : BlockNumber} :
    round rangeSize lastUpdated latest = .behind ↔ latest < lastUpdated := by
  unfold round
  dsimp only
  split
  next h => simp [h]
  next h =>
    split
    · simp [h]
    · simp [h]

theorem logsFrom_append (block m n : ℕ) :
    logsFrom chain block m ++ logsFrom chain (block + m) n = logsFrom chain block (m + n) := by
  unfold logsFrom
  rw [← List.flatMap_append, List.range'_append_1]

theorem Deployment.commit_ok {s : Deployment} {stop : BlockNumber} {logs : List Log} {db : Db}
    (h : handleLogs codec pg s.db logs = .ok db) :
    s.commit codec pg stop logs = {
      db := db
      sync := stop.toInt
      process := .looping stop
      latest := s.latest
      applied := s.applied ++ logs } := by
  unfold commit
  rw [h]

theorem Deployment.commit_error {s : Deployment} {stop : BlockNumber} {logs : List Log} {e : Error}
    (h : handleLogs codec pg s.db logs = .error e) :
    s.commit codec pg stop logs = { s with process := .down } := by
  unfold commit
  rw [h]

theorem Deployment.poll_cases (codec : ControlPlane.Codec) (pg : Postgres)
    (rangeSize : BlockNumber) (s : Deployment) (lastUpdated latest : BlockNumber)
    (logs : List Log) :
    (∃ process, (process = .down ∨ process = s.process) ∧
        s.poll codec pg rangeSize lastUpdated latest logs =
          { s with latest := latest, process := process }) ∨
      ∃ first last db, round rangeSize lastUpdated latest = .fetch first last ∧
        handleLogs codec pg s.db logs = .ok db ∧
        s.poll codec pg rangeSize lastUpdated latest logs = {
          db := db
          sync := last.toInt
          process := .looping last
          latest := latest
          applied := s.applied ++ logs } := by
  unfold poll
  cases hround : round rangeSize lastUpdated latest with
  | behind => exact .inl ⟨.down, .inl rfl, rfl⟩
  | upToDate => exact .inl ⟨s.process, .inr rfl, rfl⟩
  | fetch first last =>
    dsimp only
    cases hlogs : handleLogs codec pg s.db logs with
    | error e => exact .inl ⟨.down, .inl rfl, commit_error hlogs⟩
    | ok db => exact .inr ⟨first, last, db, rfl, rfl, commit_ok hlogs⟩

/-- What holds after any steps that are in range. -/
structure Inv (codec : ControlPlane.Codec) (pg : Postgres) (chain : ℕ → List Log)
    (start : BlockNumber) (s : Deployment) : Prop where
  covers : Covers codec pg chain start s
  low : -1 ≤ s.sync
  high : s.sync < 2 ^ 63
  started : s.process ≠ .down → (start - 1).toInt ≤ s.sync
  looping : ∀ lastUpdated, s.process = .looping lastUpdated →
    lastUpdated = BitVec.ofInt 64 s.sync
  /-- a start that is no `i64` is never set -/
  unset : 2 ^ 63 < start.toNat → s.sync = -1

theorem toInt_of_lt {n : BlockNumber} (h : n.toNat < 2 ^ 63) : n.toInt = n.toNat := by
  rw [BitVec.toInt_eq_toNat_cond]
  omega

theorem toInt_start (hstart : 1 ≤ start) :
    (start - 1).toInt = if start.toNat ≤ 2 ^ 63 then (start.toNat : ℤ) - 1
      else (start.toNat : ℤ) - 1 - 2 ^ 64 := by
  have hpos : 1 ≤ start.toNat := by bv_omega
  have hsub : (start - 1).toNat = start.toNat - 1 := by bv_omega
  rw [BitVec.toInt_eq_toNat_cond, hsub]
  have hlt := start.isLt
  split <;> split <;> omega

theorem Inv.fresh : Inv codec pg chain start .fresh where
  covers := {
    applied := by simp [Deployment.fresh, logsFrom]
    tables := rfl }
  low := le_refl _
  high := by decide
  started := fun h => absurd rfl h
  looping := nofun
  unset := fun _ => rfl

theorem Inv.startFrom {s : Deployment} (hstart : 1 ≤ start) (hs : Inv codec pg chain start s) :
    Inv codec pg chain start { s with
      sync := Indexer.startFrom start s.sync
      process := .started } := by
  have hint := toInt_start hstart
  have hlt := start.isLt
  have hlow := hs.low
  have hhigh := hs.high
  have hunset := hs.unset
  have hset : s.sync ≤ Indexer.startFrom start s.sync ∧
      (start - 1).toInt ≤ Indexer.startFrom start s.sync ∧
      Indexer.startFrom start s.sync < 2 ^ 63 := by
    unfold Indexer.startFrom
    split <;> split at hint <;> omega
  -- moving up to just before the start adds no block
  have hcount : (Indexer.startFrom start s.sync + 1 - start.toNat).toNat =
      (s.sync + 1 - start.toNat).toNat := by
    unfold Indexer.startFrom
    split <;> split at hint <;> omega
  refine {
    covers := ⟨hcount ▸ hs.covers.applied, hs.covers.tables⟩
    low := hlow.trans hset.1
    high := hset.2.2
    started := fun _ => hset.2.1
    looping := nofun
    unset := fun hbig => ?_ }
  show Indexer.startFrom start s.sync = -1
  unfold Indexer.startFrom
  rw [hunset hbig]
  split <;> split at hint <;> omega

theorem Inv.load {s : Deployment} (hs : Inv codec pg chain start s) (h : s.process = .started) :
    Inv codec pg chain start { s with process := .looping (BitVec.ofInt 64 s.sync) } where
  covers := ⟨hs.covers.applied, hs.covers.tables⟩
  low := hs.low
  high := hs.high
  started := fun _ => hs.started (by simp [h])
  looping := fun _ hl => by
    cases hl
    rfl
  unset := hs.unset

theorem Inv.idle {s : Deployment} {latest : BlockNumber} {process : Process}
    (hs : Inv codec pg chain start s) (hp : process = .down ∨ process = s.process) :
    Inv codec pg chain start { s with latest := latest, process := process } where
  covers := ⟨hs.covers.applied, hs.covers.tables⟩
  low := hs.low
  high := hs.high
  started := fun hne => by
    rcases hp with rfl | rfl
    · exact absurd rfl hne
    · exact hs.started hne
  looping := fun last hl => by
    rcases hp with rfl | rfl
    · cases hl
    · exact hs.looping last hl
  unset := hs.unset

/-- The block in memory is the one of `sync`; a `sync` of -1 is read as the highest `u64`. -/
theorem Inv.lastUpdated {s : Deployment} {last : BlockNumber} (hs : Inv codec pg chain start s)
    (h : s.process = .looping last) :
    (last.toNat : ℤ) = if s.sync = -1 then 2 ^ 64 - 1 else s.sync := by
  rw [hs.looping last h, BitVec.toNat_ofInt]
  have hlow := hs.low
  have hhigh := hs.high
  split <;> omega

theorem Inv.commit {s : Deployment} {lastUpdated latest first last : BlockNumber}
    {logs : List Log} {db : Db} (hstart : 1 ≤ start) (hsize : 1 ≤ rangeSize)
    (hs : Inv codec pg chain start s) (hloop : s.process = .looping lastUpdated)
    (hlatest : latest.toNat < 2 ^ 63)
    (hround : round rangeSize lastUpdated latest = .fetch first last)
    (hwrap : lastUpdated.toNat + rangeSize.toNat < 2 ^ 64)
    (hlogs : logs = logsFrom chain first.toNat (last.toNat + 1 - first.toNat))
    (hdb : handleLogs codec pg s.db logs = .ok db) :
    Inv codec pg chain start {
      db := db
      sync := last.toInt
      process := .looping last
      latest := latest
      applied := s.applied ++ logs } := by
  obtain ⟨hfirst, hlt, hle⟩ := round_fetch hsize hround hwrap
  have hlast := hs.lastUpdated hloop
  have hint : last.toInt = last.toNat := toInt_of_lt (by omega)
  have hpos : 1 ≤ start.toNat := by bv_omega
  have hunset := hs.unset
  have hlow := hs.low
  -- the RPC is ahead of the block in memory, so `sync` is not -1
  have hsync : (lastUpdated.toNat : ℤ) = s.sync := by
    split at hlast <;> omega
  have hstarted : (start.toNat : ℤ) - 1 ≤ s.sync := by
    have h := hs.started (by simp [hloop])
    rw [toInt_start hstart] at h
    split at h <;> omega
  have hblock : first.toNat = start.toNat + (s.sync + 1 - start.toNat).toNat := by omega
  have hcount : (s.sync + 1 - start.toNat).toNat + (last.toNat + 1 - first.toNat) =
      (last.toInt + 1 - start.toNat).toNat := by omega
  refine {
    covers := {
      applied := ?_
      tables := ?_ }
    low := by
      show -1 ≤ last.toInt
      omega
    high := by
      show last.toInt < 2 ^ 63
      omega
    started := fun _ => by
      show (start - 1).toInt ≤ last.toInt
      rw [toInt_start hstart]
      split <;> omega
    looping := fun l hl => by
      cases hl
      exact (BitVec.ofInt_toInt).symm
    unset := fun hbig => by
      have := hunset hbig
      omega }
  · show s.applied ++ logs = logsFrom chain start.toNat (last.toInt + 1 - start.toNat).toNat
    rw [hs.covers.applied, hlogs, ← hcount, ← logsFrom_append, ← hblock]
  · exact foldlM_append_ok.2 ⟨s.db, hs.covers.tables, hdb⟩

theorem Inv.step {s s' : Deployment} {e : Tick} (hstart : 1 ≤ start) (hsize : 1 ≤ rangeSize)
    (hs : Inv codec pg chain start s) (hin : InRange rangeSize s e)
    (h : Step codec pg chain start rangeSize s e s') : Inv codec pg chain start s' := by
  cases h with
  | startFrom _ => exact hs.startFrom hstart
  | load hp => exact hs.load hp
  | @poll lastUpdated latest logs hloop _ hlogs =>
    rcases s.poll_cases codec pg rangeSize lastUpdated latest logs with
      ⟨process, hp, heq⟩ | ⟨first, last, db, hround, hdb, heq⟩
    · rw [heq]
      exact hs.idle hp
    · rw [heq]
      have hwrap := hin.2 lastUpdated first last hloop hround
      obtain ⟨hfirst, hlt, -⟩ := round_fetch hsize hround hwrap
      have hle : first ≤ last := by bv_omega
      exact hs.commit hstart hsize hloop hin.1 hround hwrap (hlogs first last hround hle) hdb
  | crash => exact hs.idle (.inl rfl)

theorem Inv.notBehind {s : Deployment} {e : Tick} (hstart : 1 ≤ start)
    (hs : Inv codec pg chain start s) (hin : InRange rangeSize s e) :
    NotBehind start rangeSize s e := by
  cases e with
  | poll latest logs =>
    intro lastUpdated hloop hle hsync hbehind
    have hlast := hs.lastUpdated hloop
    have hlt : latest.toNat < lastUpdated.toNat := by
      have := round_behind.1 hbehind
      bv_omega
    have hlatest : latest.toNat < 2 ^ 63 := hin.1
    have hstarted : (start - 1).toInt ≤ s.sync := hs.started (by simp [hloop])
    rw [toInt_start hstart] at hstarted
    have hpos : 1 ≤ start.toNat := by bv_omega
    have hge : start.toNat ≤ latest.toNat := by bv_omega
    -- the start has been set, so the block in memory is the one of `sync`
    split at hlast <;> split at hstarted <;> omega
  | _ => trivial

theorem Inv.notBack {s : Deployment} {e : Tick} (hsize : 1 ≤ rangeSize)
    (hs : Inv codec pg chain start s) (hin : InRange rangeSize s e) :
    NotBack codec pg chain start rangeSize s e := by
  intro s' h
  cases h with
  | startFrom _ =>
    show s.sync ≤ Indexer.startFrom start s.sync
    unfold Indexer.startFrom
    split <;> omega
  | load _ => exact le_refl _
  | @poll lastUpdated latest logs hloop _ _ =>
    rcases s.poll_cases codec pg rangeSize lastUpdated latest logs with
      ⟨process, hp, heq⟩ | ⟨first, last, db, hround, hdb, heq⟩
    · rw [heq]
    · rw [heq]
      have hlatest : latest.toNat < 2 ^ 63 := hin.1
      obtain ⟨-, hlt, hle⟩ := round_fetch hsize hround (hin.2 lastUpdated first last hloop hround)
      have hlast := hs.lastUpdated hloop
      have hint : last.toInt = last.toNat := toInt_of_lt (by omega)
      show s.sync ≤ last.toInt
      split at hlast <;> omega
  | crash => exact le_refl _

theorem round_unset : round rangeSize (BitVec.ofInt 64 (-1)) 0 = .behind := by
  rw [round_behind]
  decide

/-- On a freshly migrated database a start of 0 leaves `sync` at -1. -/
def Deployment.unset : Deployment :=
  { Deployment.fresh with process := .looping (BitVec.ofInt 64 (-1)) }

theorem Step.load_zero {s s' : Deployment} (h : Step codec pg chain 0 rangeSize .fresh .startFrom s)
    (h' : Step codec pg chain 0 rangeSize s .load s') : s' = .unset := by
  cases h
  cases h'
  rfl

theorem Step.run_zero (codec : ControlPlane.Codec) (pg : Postgres) (chain : ℕ → List Log)
    (rangeSize : BlockNumber) :
    Along (Step codec pg chain 0 rangeSize) (InRange rangeSize) .fresh
      [.startFrom, .load, .poll 0 []] { Deployment.unset with process := .down } := by
  have hround : round rangeSize (BitVec.ofInt 64 (-1)) 0 = .behind := round_unset
  have hpoll : Deployment.unset.poll codec pg rangeSize (BitVec.ofInt 64 (-1)) 0 [] =
      { Deployment.unset with process := .down } := by
    unfold Deployment.poll
    rw [hround]
    rfl
  have hstep : Step codec pg chain 0 rangeSize .unset (.poll 0 [])
      { Deployment.unset with process := .down } := by
    rw [← hpoll]
    apply Step.poll rfl (by decide)
    intro first last hfetch
    rw [hround] at hfetch
    cases hfetch
  have hrange : InRange rangeSize .unset (.poll 0 []) := by
    refine ⟨by decide, fun lastUpdated first last hloop hfetch => ?_⟩
    cases hloop
    rw [hround] at hfetch
    cases hfetch
  exact .cons trivial (.startFrom rfl) (.cons trivial (.load rfl) (.cons hrange hstep (.nil _)))

theorem behind_of_zero : ¬NotBehind 0 rangeSize .unset (.poll 0 []) := by
  intro hbehind
  exact hbehind _ rfl (by decide) (by decide) round_unset

/-- In all runs whose rounds are in range: the committed effects are those of the blocks from
the start to `sync`, `sync` is never turned back, and no RPC is wrongly found behind. -/
def CoversEveryBlock (codec : ControlPlane.Codec) (pg : Postgres) (chain : ℕ → List Log)
    (start rangeSize : BlockNumber) : Prop :=
  ∀ es s, Along (Step codec pg chain start rangeSize) (InRange rangeSize) .fresh es s →
    Covers codec pg chain start s ∧
      Along (Step codec pg chain start rangeSize)
        (fun s e => NotBehind start rangeSize s e ∧ NotBack codec pg chain start rangeSize s e)
        .fresh es s

/-- From block 0 the first round of a deployment fails, whatever the RPC reports. -/
theorem not_coversEveryBlock_zero : ¬CoversEveryBlock codec pg chain 0 rangeSize := by
  intro h
  have hall := (h _ _ (Step.run_zero codec pg chain rangeSize)).2
  cases hall with
  | cons _ hstart hall =>
    cases hall with
    | cons _ hload hall =>
      cases hall with
      | cons hgood _ _ =>
        rw [Step.load_zero hstart hload] at hgood
        exact behind_of_zero hgood.1

/-- Every start but block 0 is covered. -/
theorem covers_every_block_iff (hsize : 1 ≤ rangeSize) :
    CoversEveryBlock codec pg chain start rangeSize ↔ 1 ≤ start := by
  constructor
  · intro h
    by_contra hzero
    have hstart : start = 0 := by bv_omega
    subst hstart
    exact not_coversEveryBlock_zero h
  · intro hstart es s hrun
    have hstep : ∀ s e s', Inv codec pg chain start s → InRange rangeSize s e →
        Step codec pg chain start rangeSize s e s' → Inv codec pg chain start s' :=
      fun _ _ _ hs hin h => hs.step hstart hsize hin h
    have hgood : ∀ s e s', Inv codec pg chain start s → InRange rangeSize s e →
        Step codec pg chain start rangeSize s e s' →
        NotBehind start rangeSize s e ∧ NotBack codec pg chain start rangeSize s e :=
      fun _ _ _ hs hin _ => ⟨hs.notBehind hstart hin, hs.notBack hsize hin⟩
    exact ⟨(hrun.invariant hstep .fresh).covers, hrun.of_invariant hstep hgood .fresh⟩

theorem covers_every_block_sample :
    CoversEveryBlock ControlPlane.Sample.codec Sample.pg
      (fun block => if block = 5 then [Sample.opened, Sample.deposited, Sample.closed] else [])
      1 2000 :=
  (covers_every_block_iff (by decide)).2 (by decide)

/-- On an empty chain read from block 0 in ranges of 2000. -/
theorem not_covers_every_block_from_zero :
    ¬CoversEveryBlock ControlPlane.Sample.codec Sample.pg (fun _ => []) 0 2000 :=
  not_coversEveryBlock_zero

end Loop

end Oyster.Indexer
