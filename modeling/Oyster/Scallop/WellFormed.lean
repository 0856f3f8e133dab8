import Oyster.Lib.Run
import Oyster.Scallop.EndOfStream
import Oyster.Scallop.Handshake
import Oyster.Scallop.Polls

namespace Oyster.Scallop

open Loop

section Handshakes

variable {σ : Type} {env : Prog.Env (Pipe.Op SideOp) (Pipe.Ans SideAns) σ} {w w' : σ}
  {t : List (Prog.Event (Pipe.Op SideOp) (Pipe.Ans SideAns) σ)} {N : Noise} {secret : Bytes}
  {authStore auther : Bool} {stream : ScallopStream N.Transport}

theorem eq_new_of_ensures {call : Handshaking (ScallopStream N.Transport)}
    (h : Prog.Ensures env (fun _ => True) call (fun stream _ => ∃ noise, stream = .new noise) w)
    (hx : Prog.Exec env call.run w t (.ok stream) w') : ∃ noise, stream = .new noise :=
  (h.exec hx).2 stream rfl

theorem newClient_new
    (h : Prog.Exec env (newClient N secret authStore auther).run w t (.ok stream) w') :
    ∃ noise, stream = .new noise := by
  refine eq_new_of_ensures ?_ h
  repeat refine Prog.Ensures.last fun _ _ => ?_
  exact .pure trivial ⟨_, rfl⟩

theorem newServer_new
    (h : Prog.Exec env (newServer N secret authStore auther).run w t (.ok stream) w') :
    ∃ noise, stream = .new noise := by
  refine eq_new_of_ensures ?_ h
  repeat refine Prog.Ensures.last fun _ _ => ?_
  exact .pure trivial ⟨_, rfl⟩

end Handshakes

namespace ScallopStream

/-- What holds of a stream between two polls: its read side is shaped, what is queued is in the
buffer, and the buffer holds one record whose length fits its 16 bits. -/
structure WellFormed {S : Type} (s : ScallopStream S) : Prop where
  shaped : s.Shaped
  start : s.writeStart ≤ s.writeEnd
  room : s.writeEnd ≤ s.wbuf.length
  record : s.writeEnd = 0 ∨ ∃ msg : Bytes, msg.length < 65536 ∧
    s.wbuf.take s.writeEnd = u16ToBe msg.length ++ msg

theorem WellFormed.new {S : Type} (noise : S) : (new noise).WellFormed where
  shaped := {
    pending := Nat.le_refl 2
    length := fun _ => rfl
    body := nofun
    read := nofun }
  start := Nat.le_refl 0
  room := Nat.le_refl 0
  record := .inl rfl

/-- What is left for a poll of the read side: each of its rounds lowers this. -/
def toRead {S : Type} (s : ScallopStream S) : ℕ :=
  match s.mode with
  | .length => s.pending + 65537
  | .body => s.pending + 1
  | .read => s.pending

theorem WellFormed.serve {S : Type} {s : ScallopStream S} {capacity : ℕ} {taken : Bytes}
    (hs : s.WellFormed) (hm : s.mode = .read) : (s.serve capacity taken).stream.WellFormed := by
  have hshaped : (s.serve capacity taken).stream.Shaped := (serve_returns hs.shaped hm).shaped
  unfold ScallopStream.serve at hshaped ⊢
  split at hshaped
  next hpartial =>
    rw [if_pos hpartial]
    exact ⟨hshaped, hs.start, hs.room, hs.record⟩
  next hfull =>
    rw [if_neg hfull]
    exact ⟨hshaped, hs.start, hs.room, hs.record⟩

def Rejected {S : Type} (n : TransportState S) (s : ScallopStream S) : Prop :=
  s.mode = .body ∧ s.pending = 0 ∧ ∃ noise msg, n.readMessage noise msg msg.length = none ∧
    n.failedRead noise msg = (s.rbuf, s.noise)

end ScallopStream

namespace Loops

variable {B S : Type} {base : Base B} {n : TransportState S} {b : B} {s : ScallopStream S}

def ReadPost (n : TransportState S) (r : Polled B S Bytes) : Prop :=
  r.stream.WellFormed ∧ (r.result = .error .noise → r.stream.Rejected n)

def ReadKeeps (n : TransportState S) (s : ScallopStream S) :
    Option (Round (B × ScallopStream S) (Polled B S Bytes)) → Prop :=
  Keeps (fun x => x.2.WellFormed ∧ x.2.toRead < s.toRead) (ReadPost n)

theorem fillRound_keeps (hs : s.WellFormed) :
    ReadKeeps n s (fillRound base b s) := by
  rw [fillRound_eq hs.shaped.pending]
  cases hread : base.pollRead b s.pending with
  | mk answer b' =>
    cases answer with
    | pending => exact ⟨hs, nofun⟩
    | error => exact ⟨hs, nofun⟩
    | data bs =>
      dsimp only
      split
      · exact ⟨hs, nofun⟩
      next hbs =>
        have hle := base.read_le hread
        have hpos := List.length_pos_iff.2 hbs
        refine ⟨⟨hs.shaped.put hle, hs.start, hs.room, hs.record⟩, ?_⟩
        show (s.put bs).toRead < s.toRead
        unfold ScallopStream.toRead ScallopStream.put
        cases s.mode <;> dsimp only <;> omega

theorem parseRound_keeps (hs : s.WellFormed) (hm : s.mode = .length) :
    ReadKeeps n s (parseRound b s : Option (Round _ (Polled B S Bytes))) := by
  rw [parseRound_eq (hs.shaped.length hm)]
  have hlt := u16FromBe_lt (s.rbuf.take 2)
  refine ⟨⟨.parseLength s, hs.start, hs.room, hs.record⟩, ?_⟩
  show u16FromBe (s.rbuf.take 2) + 1 < s.toRead
  unfold ScallopStream.toRead
  rw [hm]
  dsimp only
  omega

theorem openRound_keeps (hs : s.WellFormed) (hp : s.pending = 0) (hm : s.mode = .body) :
    ReadKeeps n s (openRound n b s) := by
  unfold openRound
  split
  next hnone =>
    -- the early return of `?`: the mode is still `body`, with nothing pending
    have hlen := n.failedRead_length s.noise s.rbuf
    refine ⟨⟨⟨?_, ?_, ?_, ?_⟩, hs.start, hs.room, hs.record⟩, ?_⟩
    · exact hp.symm ▸ Nat.zero_le _
    · exact fun h => nomatch hm.symm.trans h
    · exact fun _ => hlen.symm ▸ hs.shaped.body hm
    · exact fun h => nomatch hm.symm.trans h
    · exact fun _ => ⟨hm, hp, s.noise, s.rbuf, hnone, rfl⟩
  next plain noise hsome =>
    refine ⟨⟨⟨?_, nofun, nofun, ?_⟩, hs.start, hs.room, hs.record⟩, ?_⟩
    · exact hp.symm ▸ Nat.zero_le _
    · refine fun _ => ⟨hp, Nat.zero_le _, ?_⟩
      rw [List.length_append]
      exact Nat.le_add_right _ _
    · show s.pending < s.toRead
      unfold ScallopStream.toRead
      rw [hm]
      exact Nat.lt_succ_self _

theorem serveRound_keeps {capacity : ℕ} (hs : s.WellFormed) (hm : s.mode = .read) :
    ReadKeeps n s (serveRound capacity b s) := by
  obtain ⟨-, hstart, hend⟩ := hs.shaped.read hm
  rw [serveRound_eq hstart hend]
  exact ⟨hs.serve hm, nofun⟩

theorem readRound_keeps {capacity : ℕ} (hs : s.WellFormed) :
    ReadKeeps n s (readRound base n capacity (b, s)) := by
  unfold readRound
  dsimp only
  by_cases hp : s.pending = 0
  · rw [if_neg (not_not.2 hp)]
    cases hm : s.mode with
    | length => exact parseRound_keeps hs hm
    | body => exact openRound_keeps hs hp hm
    | read => exact serveRound_keeps hs hm
  · rw [if_pos hp]
    exact fillRound_keeps hs

theorem pollRead_safe {capacity fuel : ℕ} (hs : s.WellFormed) :
    Safe (ReadPost n) (pollRead base n capacity fuel b s) :=
  run_safe (fun x => x.2.WellFormed)
    (fun _ hx => (readRound_keeps hx).mono (fun _ h => h.1) fun _ h => h) hs fuel

/-- A poll of the read side always ends: an empty read of the base stream is taken for its end,
and any other lowers what is pending. -/
theorem pollRead_returns {capacity : ℕ} (hs : s.WellFormed) :
    Loop.Returns fun fuel => pollRead base n capacity fuel b s :=
  run_returns (fun x => x.2.WellFormed) (fun x => x.2.toRead)
    (fun _ hx => (readRound_keeps hx).mono (fun _ h => h) fun _ _ => trivial) hs

structure Advanced (s s' : ScallopStream S) : Prop where
  frame : s' = { s with writeStart := s'.writeStart }
  start : s'.writeStart ≤ s.writeEnd

theorem Advanced.wellFormed {s' : ScallopStream S} (h : Advanced s s') (hs : s.WellFormed) :
    s'.WellFormed := by
  obtain ⟨hframe, hstart⟩ := h
  have hsame : s.SameRead { s with writeStart := s'.writeStart } := ⟨rfl, rfl, rfl, rfl, rfl⟩
  rw [hframe]
  exact ⟨hsame.shaped hs.shaped, hstart, hs.room, hs.record⟩

theorem flushRound_keeps {x : B × ScallopStream S} (hroom : s.writeEnd ≤ s.wbuf.length)
    (hx : Advanced s x.2) :
    Keeps (fun x => Advanced s x.2) (fun r => Advanced s r.stream) (flushRound base x) := by
  obtain ⟨b, u⟩ := x
  obtain ⟨hframe, hstart⟩ := hx
  dsimp only at hframe hstart
  have hend : u.writeEnd = s.writeEnd := by rw [hframe]
  have hroom' : u.writeEnd ≤ u.wbuf.length := by
    rw [hframe]
    exact hroom
  rw [flushRound_eq (hend.symm ▸ hstart) hroom']
  split
  · exact ⟨hframe, hstart⟩
  · cases hwrite : base.pollWrite b u.queued with
    | mk answer b' =>
      cases answer with
      | pending => exact ⟨hframe, hstart⟩
      | error => exact ⟨hframe, hstart⟩
      | accepted size =>
        have hle := base.write_le hwrite
        rw [ScallopStream.queued_length hroom'] at hle
        refine ⟨?_, ?_⟩
        · dsimp only
          rw [hframe]
        · show u.writeStart + size ≤ s.writeEnd
          omega

theorem pollFlush_safe {fuel : ℕ} (hstart : s.writeStart ≤ s.writeEnd)
    (hroom : s.writeEnd ≤ s.wbuf.length) :
    Safe (fun r => Advanced s r.stream) (pollFlush base fuel b s) :=
  run_safe (fun x => Advanced s x.2) (fun _ hx => flushRound_keeps hroom hx) ⟨rfl, hstart⟩ fuel

structure WriteFrame (n : TransportState S) (s s' : ScallopStream S) : Prop where
  sameRead : s.SameRead s'
  noise : s'.noise = s.noise ∨ ∃ payload room msg,
    n.writeMessage s.noise payload room = some (msg, s'.noise)

theorem Advanced.writeFrame {s' : ScallopStream S} (h : Advanced s s') : WriteFrame n s s' := by
  rw [h.frame]
  exact ⟨⟨rfl, rfl, rfl, rfl, rfl⟩, .inl rfl⟩

theorem WriteFrame.of_advanced {s' u : ScallopStream S} (h : Advanced s s')
    (hu : WriteFrame n s' u) : WriteFrame n s u := by
  obtain ⟨⟨hrbuf, hpending, hmode, hend, hstart⟩, hnoise⟩ := hu
  rw [h.frame] at hrbuf hpending hmode hend hstart hnoise
  exact ⟨⟨hrbuf, hpending, hmode, hend, hstart⟩, hnoise⟩

theorem queue_writeFrame (s : ScallopStream S) (buf : Bytes) :
    WriteFrame n s (s.queue n.toNoiser buf []).stream := by
  unfold ScallopStream.queue
  dsimp only
  split
  · exact ⟨.refl s, .inl rfl⟩
  next msg noise hwrite => exact ⟨⟨rfl, rfl, rfl, rfl, rfl⟩, .inr ⟨_, _, msg, hwrite⟩⟩

theorem queue_wellFormed (hs : s.WellFormed) (buf : Bytes) :
    (s.queue n.toNoiser buf []).stream.WellFormed := by
  have hshaped := (queue_writeFrame (n := n) s buf).sameRead.shaped hs.shaped
  have hmax : min buf.length 64000 ≤ 64000 := Nat.min_le_right _ _
  unfold ScallopStream.queue at hshaped ⊢
  dsimp only at hshaped ⊢
  generalize min buf.length 64000 = len at hshaped hmax ⊢
  cases hwrite : n.writeMessage s.noise (buf.take len) (len + 998) with
  | none => exact hs
  | some r =>
    obtain ⟨msg, noise⟩ := r
    rw [hwrite] at hshaped
    have hle := n.write_le hwrite
    have hrecord : (u16ToBe msg.length ++ msg).length = msg.length + 2 := by
      rw [List.length_append, u16ToBe_length, Nat.add_comm]
    refine ⟨hshaped, Nat.zero_le _, ?_, .inr ⟨msg, by omega, ?_⟩⟩
    · dsimp only
      rw [List.length_append, hrecord]
      exact Nat.le_add_right _ _
    · dsimp only
      rw [← hrecord, List.take_left]

/-- What a poll of the write side returns. -/
def WritePost {α : Type} (n : TransportState S) (s : ScallopStream S) (r : Polled B S α) : Prop :=
  r.stream.WellFormed ∧ WriteFrame n s r.stream

theorem Advanced.writePost {α : Type} {r : Polled B S α} (hs : s.WellFormed)
    (h : Advanced s r.stream) : WritePost n s r :=
  ⟨h.wellFormed hs, h.writeFrame⟩

theorem pollWrite_safe {buf : Bytes} {fuel : ℕ} (hs : s.WellFormed) :
    Safe (WritePost n s) (pollWrite base n buf fuel b s) := by
  apply (pollFlush_safe hs.start hs.room).bind
  rintro ⟨result, b', s'⟩ hflushed
  cases result with
  | pending => exact hflushed.writePost hs
  | error e => exact hflushed.writePost hs
  | ready _ =>
    exact .ofOption (queue_eq buf) ⟨queue_wellFormed (hflushed.wellFormed hs) buf,
      .of_advanced hflushed (queue_writeFrame s' buf)⟩

theorem pollShutdown_safe {fuel : ℕ} (hs : s.WellFormed) :
    Safe (WritePost n s) (pollShutdown base fuel b s) := by
  apply (pollFlush_safe hs.start hs.room).bind
  rintro ⟨result, b', s'⟩ hflushed
  cases result with
  | pending => exact hflushed.writePost hs
  | error e => exact hflushed.writePost hs
  | ready _ => exact hflushed.writePost hs

inductive PollEvent where
  | read (capacity : ℕ) (result : PollResult Bytes)
  | write (buf : Bytes) (result : PollResult ℕ)
  | flush (result : PollResult Unit)
  | shutdown (result : PollResult Unit)

inductive PollStep (base : Base B) (n : TransportState S) :
    ScallopStream S → PollEvent → ScallopStream S → Prop
  | read {s : ScallopStream S} {b : B} {capacity fuel : ℕ} {r : Polled B S Bytes} :
      pollRead base n capacity fuel b s = .ok r →
      PollStep base n s (.read capacity r.result) r.stream
  | write {s : ScallopStream S} {b : B} {buf : Bytes} {fuel : ℕ} {r : Polled B S ℕ} :
      pollWrite base n buf fuel b s = .ok r → PollStep base n s (.write buf r.result) r.stream
  | flush {s : ScallopStream S} {b : B} {fuel : ℕ} {r : Polled B S Unit} :
      pollFlush base fuel b s = .ok r → PollStep base n s (.flush r.result) r.stream
  | shutdown {s : ScallopStream S} {b : B} {fuel : ℕ} {r : Polled B S Unit} :
      pollShutdown base fuel b s = .ok r → PollStep base n s (.shutdown r.result) r.stream

/-- No slice and no subtraction of a poll is out of range, however far the poll has come. -/
def InRange (base : Base B) (n : TransportState S) (s : ScallopStream S) : Prop :=
  ∀ fuel b, (∀ capacity, pollRead base n capacity fuel b s ≠ .error .panic) ∧
    (∀ buf, pollWrite base n buf fuel b s ≠ .error .panic) ∧
    pollFlush base fuel b s ≠ .error .panic ∧ pollShutdown base fuel b s ≠ .error .panic

theorem inRange (hs : s.WellFormed) : InRange base n s := fun _ _ =>
  ⟨fun _ => (pollRead_safe hs).ne_panic, fun _ => (pollWrite_safe hs).ne_panic,
    (pollFlush_safe hs.start hs.room).ne_panic, (pollShutdown_safe (n := n) hs).ne_panic⟩

theorem PollStep.wellFormed {s' : ScallopStream S} {e : PollEvent} (hs : s.WellFormed)
    (h : PollStep base n s e s') : s'.WellFormed := by
  cases h with
  | read h => exact ((pollRead_safe hs).of_ok h).1
  | write h => exact ((pollWrite_safe hs).of_ok h).1
  | flush h => exact ((pollFlush_safe hs.start hs.room).of_ok h).wellFormed hs
  | shutdown h => exact ((pollShutdown_safe (n := n) hs).of_ok h).1

theorem wellFormed_of_run {noise : S} {es : List PollEvent}
    (h : Run (PollStep base n) (.new noise) es s) : s.WellFormed :=
  h.invariant (fun _ _ _ hs hstep => hstep.wellFormed hs) (.new noise)

/-- A message that cannot be read changes neither the buffer nor the state, and writing does not
make it readable: the two directions have keys of their own. -/
structure FailsForGood (n : TransportState S) : Prop where
  unchanged : ∀ noise msg, n.readMessage noise msg msg.length = none →
    n.failedRead noise msg = (msg, noise)
  write : ∀ {noise noise' payload room out},
    n.writeMessage noise payload room = some (out, noise') → ∀ {msg room'},
    n.readMessage noise msg room' = none → n.readMessage noise' msg room' = none

/-- The buffer holds a whole message that cannot be read. -/
structure Stuck (n : TransportState S) (s : ScallopStream S) : Prop where
  mode : s.mode = .body
  pending : s.pending = 0
  unreadable : n.readMessage s.noise s.rbuf s.rbuf.length = none

theorem stuck_of_rejected (hn : FailsForGood n) (h : s.Rejected n) : Stuck n s := by
  obtain ⟨hm, hp, noise, msg, hnone, hfailed⟩ := h
  obtain ⟨rfl, rfl⟩ := Prod.mk.inj ((hn.unchanged noise msg hnone).symm.trans hfailed)
  exact ⟨hm, hp, hnone⟩

theorem Stuck.writeFrame {s' : ScallopStream S} (hn : FailsForGood n) (hs : Stuck n s)
    (h : WriteFrame n s s') : Stuck n s' := by
  refine ⟨h.sameRead.mode.trans hs.mode, h.sameRead.pending.trans hs.pending, ?_⟩
  rw [h.sameRead.rbuf]
  obtain hnoise | ⟨payload, room, msg, hwrite⟩ := h.noise
  · rw [hnoise]
    exact hs.unreadable
  · exact hn.write hwrite hs.unreadable

theorem Stuck.read {capacity fuel : ℕ} (hn : FailsForGood n) (hs : Stuck n s) :
    Safe (fun r => r.result = .error .noise ∧ Stuck n r.stream)
      (pollRead base n capacity fuel b s) := by
  refine run_safe (fun x => Stuck n x.2) ?_ hs fuel
  rintro ⟨b, s⟩ hs
  unfold readRound
  dsimp only at hs ⊢
  rw [if_neg (not_not.2 hs.pending), hs.mode]
  dsimp only
  unfold openRound
  rw [hs.unreadable, hn.unchanged _ _ hs.unreadable]
  exact ⟨rfl, hs.mode, hs.pending, hs.unreadable⟩

theorem Stuck.step {s' : ScallopStream S} {e : PollEvent} (hn : FailsForGood n)
    (hwell : s.WellFormed) (hs : Stuck n s) (h : PollStep base n s e s') :
    Stuck n s' ∧ ∀ capacity r, e = .read capacity r → r = .error .noise := by
  cases h with
  | read h =>
    obtain ⟨hresult, hs'⟩ := (hs.read hn).of_ok h
    refine ⟨hs', ?_⟩
    rintro _ _ ⟨⟩
    exact hresult
  | write h => exact ⟨hs.writeFrame hn ((pollWrite_safe hwell).of_ok h).2, nofun⟩
  | flush h =>
    have hadvanced := (pollFlush_safe hwell.start hwell.room).of_ok h
    exact ⟨hs.writeFrame hn hadvanced.writeFrame, nofun⟩
  | shutdown h => exact ⟨hs.writeFrame hn ((pollShutdown_safe hwell).of_ok h).2, nofun⟩

theorem Stuck.run {s' : ScallopStream S} {es : List PollEvent} (hn : FailsForGood n)
    (hwell : s.WellFormed) (hs : Stuck n s) (h : Run (PollStep base n) s es s') :
    ∀ capacity r, PollEvent.read capacity r ∈ es → r = .error .noise := by
  induction h with
  | nil => exact fun _ _ h => absurd h List.not_mem_nil
  | cons hstep _ ih =>
    obtain ⟨hs', hread⟩ := hs.step hn hwell hstep
    intro capacity r hmem
    rcases List.mem_cons.1 hmem with rfl | hmem
    · exact hread capacity r rfl
    · exact ih (hstep.wellFormed hwell) hs' capacity r hmem

/-- A stream that a handshake returned stays well formed over every sequence of polls, none of
which is out of range; and once a message could not be read, every later read fails alike. -/
theorem stream_wellFormed {noise : S} {es : List PollEvent}
    (h : Run (PollStep base n) (.new noise) es s) :
    s.WellFormed ∧ InRange base n s ∧
      (FailsForGood n → ∀ before capacity later,
        es = before ++ .read capacity (.error .noise) :: later →
        ∀ capacity' r, PollEvent.read capacity' r ∈ later → r = .error .noise) := by
  have hwell := wellFormed_of_run h
  refine ⟨hwell, inRange hwell, ?_⟩
  rintro hn before capacity later rfl
  obtain ⟨s₁, hbefore, hafter⟩ := h.of_append
  have hwell₁ := wellFormed_of_run hbefore
  generalize hfailed : PollEvent.read capacity (.error .noise) = e at hafter
  cases hafter with
  | @cons _ s₂ _ _ _ hstep hlater =>
    -- the message stays in the buffer, where every later read finds it again
    have hstuck : Stuck n s₂ := by
      cases hstep with
      | read hread =>
        obtain ⟨-, hresult⟩ := PollEvent.read.inj hfailed
        exact stuck_of_rejected hn (((pollRead_safe hwell₁).of_ok hread).2 hresult.symm)
      | write => cases hfailed
      | flush => cases hfailed
      | shutdown => cases hfailed
    exact hstuck.run hn (hstep.wellFormed hwell₁) hlater

namespace Sample

def zeroTagNoise : TransportState Unit where
  readMessage noise msg room :=
    if 16 ≤ msg.length ∧ msg.drop (msg.length - 16) = List.replicate 16 0 ∧
        msg.length - 16 ≤ room then
      some (msg.take (msg.length - 16), noise)
    else none
  writeMessage noise payload room :=
    if payload.length + 16 ≤ room then some (payload ++ List.replicate 16 0, noise) else none
  failedRead noise msg := (msg, noise)
  read_le := by
    intro s s' msg room plain h
    split_ifs at h with hmsg
    cases h
    rw [List.length_take]
    omega
  write_le := by
    intro s s' payload room msg h
    split_ifs at h with hroom
    cases h
    rw [List.length_append, List.length_replicate]
    exact hroom
  failedRead_length _ _ := rfl

theorem zeroTagNoise_failsForGood : FailsForGood zeroTagNoise where
  unchanged _ _ _ := rfl
  write := by
    intro noise noise' payload room out h msg room' hnone
    exact hnone

def shortRecord : ScallopStream Unit := { ScallopStream.new () with
  rbuf := [7]
  pending := 0
  mode := .body }

def script (reads : List ReadAnswer) : Script := ⟨reads, [], .ready (), .ready ()⟩

theorem run_shortRecord : Run (PollStep scriptBase zeroTagNoise) (.new ())
    [.read 8 (.error .noise), .flush (.ready ()), .read 8 (.error .noise)] shortRecord := by
  have hfirst : pollRead scriptBase zeroTagNoise 8 4 (script [.data [0, 1], .data [7]]) (.new ()) =
      .ok ⟨.error .noise, script [], shortRecord⟩ := rfl
  have hflush : pollFlush scriptBase 1 (script []) shortRecord =
      .ok ⟨.ready (), script [], shortRecord⟩ := rfl
  have hagain : pollRead scriptBase zeroTagNoise 8 1 (script []) shortRecord =
      .ok ⟨.error .noise, script [], shortRecord⟩ := rfl
  exact .cons (.read hfirst) (.cons (.flush hflush) (.cons (.read hagain) (.nil _)))

theorem shortRecord_wellFormed :
    shortRecord.WellFormed ∧ InRange scriptBase zeroTagNoise shortRecord ∧
      ∀ capacity r,
        PollEvent.read capacity r ∈ [.flush (.ready ()), .read 8 (.error .noise)] →
        r = .error .noise := by
  obtain ⟨hwell, hrange, hfails⟩ := stream_wellFormed run_shortRecord
  exact ⟨hwell, hrange, hfails zeroTagNoise_failsForGood [] 8 _ rfl⟩

end Sample

end Loops

end Oyster.Scallop
