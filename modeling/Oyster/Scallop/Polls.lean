import Oyster.Lib.Loop
import Oyster.Scallop.Stream

/-!
The poll functions of `ScallopStream` over a base stream with a state of its own, with the loops,
the slices and the subtractions of `scallop.rs`: where one of these is out of range, a round of a
loop is `none`.
-/

namespace Oyster.Scallop

open Loop

def slice (xs : Bytes) (i j : ℕ) : Option Bytes :=
  if i ≤ j ∧ j ≤ xs.length then some ((xs.take j).drop i) else none

/-- `a - b` of a `usize`. -/
def checkedSub (a b : ℕ) : Option ℕ := if b ≤ a then some (a - b) else none

/-- `ReadBuf::put_slice` with `remaining` bytes left. -/
def putSlice (remaining : ℕ) (bs : Bytes) : Option Bytes :=
  if bs.length ≤ remaining then some bs else none

/-- A base stream. It fills no more than the buffer it is given and accepts no more than it is
offered. -/
structure Base (B : Type) where
  pollRead : B → ℕ → ReadAnswer × B
  pollWrite : B → Bytes → WriteAnswer × B
  pollFlush : B → Poll Unit × B
  pollShutdown : B → Poll Unit × B
  read_le : ∀ {b b' room bs}, pollRead b room = (.data bs, b') → bs.length ≤ room
  write_le : ∀ {b b' out n}, pollWrite b out = (.accepted n, b') → n ≤ out.length

/-- The noise state of a stream. Its results fit the room for them, and `failedRead` is the buffer
and the state that a read in place leaves when it fails. -/
structure TransportState (S : Type) extends Noiser S where
  failedRead : S → Bytes → Bytes × S
  read_le : ∀ {s s' msg room plain}, readMessage s msg room = some (plain, s') →
    plain.length ≤ room
  write_le : ∀ {s s' payload room msg}, writeMessage s payload room = some (msg, s') →
    msg.length ≤ room
  failedRead_length : ∀ s msg, (failedRead s msg).1.length = msg.length

inductive IoError where
  | base
  | noise
deriving DecidableEq

inductive PollResult (α : Type) where
  | pending
  | error (e : IoError)
  | ready (a : α)
deriving DecidableEq

def PollResult.ofPoll {α : Type} (e : IoError) : Poll α → PollResult α
  | .pending => .pending
  | .error => .error e
  | .ready a => .ready a

structure Polled (B S α : Type) where
  result : PollResult α
  base : B
  stream : ScallopStream S

namespace Loops

variable {B S : Type} (base : Base B) (n : TransportState S)

/-- `while pending != 0`: one more read of the base stream. -/
def fillRound (b : B) (s : ScallopStream S) :
    Option (Round (B × ScallopStream S) (Polled B S Bytes)) := do
  let start ← checkedSub s.rbuf.length s.pending
  let room ← slice s.rbuf start s.rbuf.length
  match base.pollRead b room.length with
  | (.pending, b) => return .done ⟨.pending, b, s⟩
  | (.error, b) => return .done ⟨.error .base, b, s⟩
  | (.data bs, b) =>
    if bs = [] then return .done ⟨.ready [], b, s⟩
    else do
      let pending ← checkedSub s.pending bs.length
      return .next (b, { s.put bs with pending := pending })

/-- We have read the length. -/
def parseRound (b : B) (s : ScallopStream S) :
    Option (Round (B × ScallopStream S) (Polled B S Bytes)) := do
  let record ← slice s.rbuf 0 2
  let recordLength := u16FromBe record
  return .next (b, { s with
    pending := recordLength
    mode := .body
    rbuf := List.replicate recordLength 0 })

/-- We have the data: process it as noise message. -/
def openRound (b : B) (s : ScallopStream S) :
    Option (Round (B × ScallopStream S) (Polled B S Bytes)) :=
  match n.readMessage s.noise s.rbuf s.rbuf.length with
  | none =>
    let (rbuf, noise) := n.failedRead s.noise s.rbuf
    some (.done ⟨.error .noise, b, { s with noise := noise, rbuf := rbuf }⟩)
  | some (plain, noise) => some (.next (b, { s with
      noise := noise
      rbuf := plain ++ s.rbuf.drop plain.length
      readStart := 0
      readEnd := plain.length
      mode := .read }))

/-- Send the body upstream. -/
def serveRound (capacity : ℕ) (b : B) (s : ScallopStream S) :
    Option (Round (B × ScallopStream S) (Polled B S Bytes)) := do
  let left ← checkedSub s.readEnd s.readStart
  if capacity < left then do
    -- can transmit only partial
    let body ← slice s.rbuf s.readStart (s.readStart + capacity)
    let out ← putSlice capacity body
    return .done ⟨.ready out, b, { s with readStart := s.readStart + capacity }⟩
  else do
    let body ← slice s.rbuf s.readStart s.readEnd
    let out ← putSlice capacity body
    return .done ⟨.ready out, b, { s with rbuf := [0, 0], pending := 2, mode := .length }⟩

/-- One round of `poll_read`. The inner `while` and the `loop` around it are one loop here, which
fills the buffer as long as something is pending. -/
def readRound (capacity : ℕ) :
    B × ScallopStream S → Option (Round (B × ScallopStream S) (Polled B S Bytes))
  | (b, s) =>
    if s.pending ≠ 0 then fillRound base b s
    else match s.mode with
      | .length => parseRound b s
      | .body => openRound n b s
      | .read => serveRound capacity b s

/-- A read into a buffer with room for `capacity` bytes; a result is what was put there. -/
def pollRead (capacity fuel : ℕ) (b : B) (s : ScallopStream S) : Except Stop (Polled B S Bytes) :=
  run (readRound base n capacity) fuel (b, s)

/-- One round of `poll_flush`: try to send existing messages first. -/
def flushRound :
    B × ScallopStream S → Option (Round (B × ScallopStream S) (Polled B S Unit))
  | (b, s) =>
    if s.writeStart ≠ s.writeEnd then do
      let out ← slice s.wbuf s.writeStart s.writeEnd
      match base.pollWrite b out with
      | (.pending, b) => return .done ⟨.pending, b, s⟩
      | (.error, b) => return .done ⟨.error .base, b, s⟩
      | (.accepted size, b) => return .next (b, { s with writeStart := s.writeStart + size })
    else
      -- flush data after write since base could be buffered
      let (flushed, b) := base.pollFlush b
      some (.done ⟨.ofPoll .base flushed, b, s⟩)

def pollFlush (fuel : ℕ) (b : B) (s : ScallopStream S) : Except Stop (Polled B S Unit) :=
  run (flushRound base) fuel (b, s)

/-- Queues up to 64000 bytes as one record. The length is cut to 16 bits by `u16ToBe`, as by
`as u16`. -/
def queue (b : B) (s : ScallopStream S) (buf : Bytes) : Option (Polled B S ℕ) := do
  let len := min buf.length 64000
  let newBuf := List.replicate (len + 1000) 0
  let payload ← slice buf 0 len
  let room ← slice newBuf 2 newBuf.length
  match n.writeMessage s.noise payload room.length with
  | none => return ⟨.error .noise, b, s⟩
  | some (msg, noise) => do
    let _ ← slice newBuf 0 2
    return ⟨.ready len, b, { s with
      noise := noise
      wbuf := u16ToBe msg.length ++ msg ++ newBuf.drop (msg.length + 2)
      writeStart := 0
      writeEnd := msg.length + 2 }⟩

/-- Flush existing data first. -/
def pollWrite (buf : Bytes) (fuel : ℕ) (b : B) (s : ScallopStream S) :
    Except Stop (Polled B S ℕ) := do
  let flushed ← pollFlush base fuel b s
  match flushed.result with
  | .pending => return ⟨.pending, flushed.base, flushed.stream⟩
  | .error e => return ⟨.error e, flushed.base, flushed.stream⟩
  | .ready () => ofOption (queue n flushed.base flushed.stream buf)

/-- Flush data for graceful shutdowns. -/
def pollShutdown (fuel : ℕ) (b : B) (s : ScallopStream S) : Except Stop (Polled B S Unit) := do
  let flushed ← pollFlush base fuel b s
  match flushed.result with
  | .pending => return ⟨.pending, flushed.base, flushed.stream⟩
  | .error e => return ⟨.error e, flushed.base, flushed.stream⟩
  | .ready () =>
    let (closed, b) := base.pollShutdown flushed.base
    return ⟨.ofPoll .base closed, b, flushed.stream⟩

end Loops

section Checked

variable {xs : Bytes} {i j a b : ℕ}

theorem slice_of_le (hij : i ≤ j) (hj : j ≤ xs.length) : slice xs i j = some ((xs.take j).drop i) :=
  if_pos ⟨hij, hj⟩

theorem checkedSub_of_le (h : b ≤ a) : checkedSub a b = some (a - b) := if_pos h

theorem putSlice_of_le (h : xs.length ≤ a) : putSlice a xs = some xs := if_pos h

theorem length_take_drop (hj : j ≤ xs.length) : ((xs.take j).drop i).length = j - i := by
  rw [List.length_drop, List.length_take, Nat.min_eq_left hj]

end Checked

namespace Loops

variable {B S : Type} {base : Base B} {n : TransportState S} {b : B} {s : ScallopStream S}

theorem fillRound_eq (h : s.pending ≤ s.rbuf.length) :
    fillRound base b s = some (match base.pollRead b s.pending with
      | (.pending, b) => .done ⟨.pending, b, s⟩
      | (.error, b) => .done ⟨.error .base, b, s⟩
      | (.data bs, b) => if bs = [] then .done ⟨.ready [], b, s⟩ else .next (b, s.put bs)) := by
  have hlen : ((s.rbuf.take s.rbuf.length).drop (s.rbuf.length - s.pending)).length =
      s.pending := by
    rw [length_take_drop (Nat.le_refl _)]
    omega
  simp only [fillRound, checkedSub_of_le h, slice_of_le (Nat.sub_le _ _) (Nat.le_refl _),
    Option.bind_eq_bind, Option.bind_some, hlen]
  cases hread : base.pollRead b s.pending with
  | mk answer b' =>
    cases answer with
    | pending => rfl
    | error => rfl
    | data bs =>
      dsimp only
      split
      · rfl
      · rw [checkedSub_of_le (base.read_le hread)]
        rfl

theorem parseRound_eq (h : s.rbuf.length = 2) :
    parseRound b s = (some (.next (b, s.parseLength)) : Option (Round _ (Polled B S Bytes))) := by
  unfold parseRound
  rw [slice_of_le (Nat.zero_le 2) (Nat.le_of_eq h.symm)]
  rfl

theorem serveRound_eq {capacity : ℕ} (hstart : s.readStart ≤ s.readEnd)
    (hend : s.readEnd ≤ s.rbuf.length) :
    serveRound capacity b s =
      some (.done ⟨.ready (s.serve capacity []).out, b, (s.serve capacity []).stream⟩) := by
  unfold ScallopStream.serve
  simp only [serveRound, checkedSub_of_le hstart, Option.bind_eq_bind, Option.bind_some]
  split
  next hpartial =>
    have hslice : s.readStart + capacity ≤ s.rbuf.length := by omega
    have hlen := length_take_drop (i := s.readStart) hslice
    rw [slice_of_le (Nat.le_add_right _ _) hslice, Option.bind_some, putSlice_of_le (by omega),
      Option.bind_some, List.drop_take, Nat.add_sub_cancel_left]
    rfl
  next hfull =>
    have hlen := length_take_drop (i := s.readStart) hend
    rw [slice_of_le hstart hend, Option.bind_some, putSlice_of_le (by omega), Option.bind_some,
      List.drop_take]
    rfl

theorem flushRound_eq (hstart : s.writeStart ≤ s.writeEnd) (hroom : s.writeEnd ≤ s.wbuf.length) :
    flushRound base (b, s) = some (if s.writeStart = s.writeEnd then
        .done ⟨.ofPoll .base (base.pollFlush b).1, (base.pollFlush b).2, s⟩
      else match base.pollWrite b s.queued with
        | (.pending, b) => .done ⟨.pending, b, s⟩
        | (.error, b) => .done ⟨.error .base, b, s⟩
        | (.accepted size, b) => .next (b, { s with writeStart := s.writeStart + size })) := by
  unfold flushRound
  dsimp only
  by_cases hdone : s.writeStart = s.writeEnd
  · rw [if_neg (not_not.2 hdone), if_pos hdone]
  · rw [if_pos hdone, if_neg hdone, slice_of_le hstart hroom]
    simp only [Option.bind_eq_bind, Option.bind_some]
    have hqueued : (s.wbuf.take s.writeEnd).drop s.writeStart = s.queued := rfl
    rw [hqueued]
    cases base.pollWrite b s.queued with
    | mk answer b' => cases answer <;> rfl

theorem queue_eq (buf : Bytes) :
    queue n b s buf = some ⟨.ofPoll .noise (s.queue n.toNoiser buf []).poll, b,
      (s.queue n.toNoiser buf []).stream⟩ := by
  have hlen : min buf.length 64000 ≤ buf.length := Nat.min_le_left _ _
  unfold queue ScallopStream.queue
  dsimp only
  generalize min buf.length 64000 = len at hlen ⊢
  have hnew : (List.replicate (len + 1000) (0 : UInt8)).length = len + 1000 :=
    List.length_replicate
  have hroom : (((List.replicate (len + 1000) (0 : UInt8)).take (len + 1000)).drop 2).length =
      len + 998 := by
    rw [length_take_drop (Nat.le_of_eq hnew.symm)]
    omega
  rw [hnew, slice_of_le (Nat.zero_le _) hlen, slice_of_le (by omega) (by omega),
    slice_of_le (Nat.zero_le 2) (by omega)]
  simp only [Option.bind_eq_bind, Option.bind_some, hroom, List.drop_zero]
  cases n.writeMessage s.noise (buf.take len) (len + 998) with
  | none => rfl
  | some r =>
    obtain ⟨msg, noise⟩ := r
    simp only [List.drop_replicate, List.length_append, u16ToBe_length, Nat.add_comm 2]
    rfl

end Loops

/-- The answers to reads and to writes, in order, and those to a flush and a shutdown. -/
structure Script where
  reads : List ReadAnswer
  writes : List WriteAnswer
  flush : Poll Unit
  shutdown : Poll Unit

/-- The base stream answers from the script, as far as its contract lets it, and pends where the
script ends. -/
def scriptBase : Base Script where
  pollRead b room := match b.reads with
    | [] => (.pending, b)
    | .pending :: reads => (.pending, { b with reads := reads })
    | .error :: reads => (.error, { b with reads := reads })
    | .data bs :: reads => (.data (bs.take room), { b with reads := reads })
  pollWrite b out := match b.writes with
    | [] => (.pending, b)
    | .pending :: writes => (.pending, { b with writes := writes })
    | .error :: writes => (.error, { b with writes := writes })
    | .accepted size :: writes => (.accepted (min size out.length), { b with writes := writes })
  pollFlush b := (b.flush, b)
  pollShutdown b := (b.shutdown, b)
  read_le := by
    intro b b' room bs h
    split at h <;> cases h
    exact List.length_take_le _ _
  write_le := by
    intro b b' out n h
    split at h <;> cases h
    exact Nat.min_le_right _ _

end Oyster.Scallop
