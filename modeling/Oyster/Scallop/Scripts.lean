import Oyster.Scallop.WellFormed

namespace Oyster.Scallop

open Loop

namespace ScallopStream

variable {S : Type}

theorem queue_sent (n : Noiser S) (s : ScallopStream S) (buf sent : Bytes) :
    (s.queue n buf sent).poll = (s.queue n buf []).poll ∧
      (s.queue n buf sent).stream = (s.queue n buf []).stream := by
  unfold ScallopStream.queue
  dsimp only
  split <;> exact ⟨rfl, rfl⟩

theorem serve_eq (s : ScallopStream S) (capacity : ℕ) (taken : Bytes) :
    s.serve capacity taken = { s.serve capacity [] with taken := taken } := by
  unfold ScallopStream.serve
  split <;> rfl

theorem drain_done {s : ScallopStream S} (h : s.writeStart = s.writeEnd) (sent : Bytes)
    (script : List WriteAnswer) : s.drain sent script = ⟨.ready (), s, sent⟩ := by
  cases script with
  | nil =>
    unfold ScallopStream.drain
    rw [if_pos h]
  | cons answer script =>
    unfold ScallopStream.drain
    rw [if_pos h]

def ReadResult.result (r : ReadResult S) : PollResult Bytes :=
  match r.poll with
  | .pending => .pending
  | .error => .error (if r.stopped then .base else .noise)
  | .ready _ => .ready r.out

end ScallopStream

namespace Loops

variable {S : Type} {n : TransportState S} {s : ScallopStream S}

def flushed (flush : Poll Unit) : Poll Unit → Poll Unit
  | .ready _ => flush
  | poll => poll

theorem pollFlush_drain (b : Script) (writes : List WriteAnswer) (sent : Bytes)
    (hstart : s.writeStart ≤ s.writeEnd) (hroom : s.writeEnd ≤ s.wbuf.length) :
    ∃ b', pollFlush scriptBase (writes.length + 1) { b with writes := writes } s =
      .ok ⟨.ofPoll .base (flushed b.flush (s.drain sent writes).poll), b',
        (s.drain sent writes).stream⟩ := by
  unfold pollFlush
  induction writes generalizing s sent with
  | nil =>
    refine ⟨{ b with writes := [] }, run_done ?_ _⟩
    rw [flushRound_eq hstart hroom]
    unfold ScallopStream.drain
    split <;> rfl
  | cons answer writes ih =>
    by_cases hdone : s.writeStart = s.writeEnd
    · refine ⟨{ b with writes := answer :: writes }, run_done ?_ _⟩
      rw [flushRound_eq hstart hroom, if_pos hdone, ScallopStream.drain_done hdone]
      rfl
    · unfold ScallopStream.drain
      rw [if_neg hdone]
      cases answer with
      | pending =>
        refine ⟨{ b with writes := writes }, run_done ?_ _⟩
        rw [flushRound_eq hstart hroom, if_neg hdone]
        rfl
      | error =>
        refine ⟨{ b with writes := writes }, run_done ?_ _⟩
        rw [flushRound_eq hstart hroom, if_neg hdone]
        rfl
      | accepted size =>
        have hround : flushRound scriptBase ({ b with writes := .accepted size :: writes }, s) =
            some (.next ({ b with writes := writes },
              { s with writeStart := s.writeStart + min size s.queued.length })) := by
          rw [flushRound_eq hstart hroom, if_neg hdone]
          rfl
        have hle : s.writeStart + min size s.queued.length ≤ s.writeEnd := by
          rw [ScallopStream.queued_length hroom]
          omega
        rw [List.length_cons, run_next hround]
        exact ih _ hle hroom

theorem pollFlush_script (b : Script) (hstart : s.writeStart ≤ s.writeEnd)
    (hroom : s.writeEnd ≤ s.wbuf.length) :
    ∃ b', pollFlush scriptBase (b.writes.length + 1) b s =
      .ok ⟨.ofPoll .base (s.pollFlush b.writes b.flush).poll, b',
        (s.pollFlush b.writes b.flush).stream⟩ := by
  obtain ⟨b', h⟩ := pollFlush_drain b b.writes [] hstart hroom
  refine ⟨b', h.trans ?_⟩
  unfold ScallopStream.pollFlush
  cases s.drain [] b.writes with
  | mk poll stream sent => cases poll <;> rfl

theorem pollWrite_script (b : Script) (buf : Bytes) (hstart : s.writeStart ≤ s.writeEnd)
    (hroom : s.writeEnd ≤ s.wbuf.length) :
    ∃ b' e, pollWrite scriptBase n buf (b.writes.length + 1) b s =
      .ok ⟨.ofPoll e (s.pollWrite n.toNoiser buf b.writes b.flush).poll, b',
        (s.pollWrite n.toNoiser buf b.writes b.flush).stream⟩ := by
  obtain ⟨b', h⟩ := pollFlush_script b hstart hroom
  unfold ScallopStream.pollWrite pollWrite
  rw [h]
  cases s.pollFlush b.writes b.flush with
  | mk poll stream sent =>
    cases poll with
    | pending => exact ⟨b', .base, rfl⟩
    | error => exact ⟨b', .base, rfl⟩
    | ready _ =>
      obtain ⟨hpoll, hstream⟩ := stream.queue_sent n.toNoiser buf sent
      refine ⟨b', .noise, ?_⟩
      dsimp only
      rw [hpoll, hstream]
      exact congrArg ofOption (queue_eq buf)

theorem pollShutdown_script (b : Script) (hstart : s.writeStart ≤ s.writeEnd)
    (hroom : s.writeEnd ≤ s.wbuf.length) :
    ∃ b' poll, pollShutdown scriptBase (b.writes.length + 1) b s =
      .ok ⟨poll, b', (s.pollShutdown b.writes b.flush b.shutdown).stream⟩ := by
  obtain ⟨b', h⟩ := pollFlush_script b hstart hroom
  unfold ScallopStream.pollShutdown pollShutdown
  rw [h]
  cases s.pollFlush b.writes b.flush with
  | mk poll stream sent => cases poll <;> exact ⟨_, _, rfl⟩

def ReadsTo (base : Base Script) (n : TransportState S) (capacity : ℕ)
    (x : Script × ScallopStream S) (r : ScallopStream.ReadResult S) : Prop :=
  ∃ fuel b, run (readRound base n capacity) fuel x = .ok ⟨r.result, b, r.stream⟩

section Reads

variable {base : Base Script} {capacity : ℕ} {x y : Script × ScallopStream S}
  {r : ScallopStream.ReadResult S}

theorem ReadsTo.next (hround : readRound base n capacity x = some (.next y))
    (h : ReadsTo base n capacity y r) : ReadsTo base n capacity x r := by
  obtain ⟨fuel, b, h⟩ := h
  exact ⟨fuel + 1, b, (run_next hround fuel).trans h⟩

theorem ReadsTo.done {b : Script}
    (hround : readRound base n capacity x = some (.done ⟨r.result, b, r.stream⟩)) :
    ReadsTo base n capacity x r :=
  ⟨1, b, run_done hround 0⟩

theorem readsTo_fill (b : Script) (reads : List ReadAnswer) (taken : Bytes)
    (hle : s.pending ≤ s.rbuf.length) :
    match s.fill taken reads with
    | .stop s' poll taken' =>
      ReadsTo scriptBase n capacity ({ b with reads := reads }, s) ⟨poll, [], s', taken', true⟩
    | .full s' reads' _ => ∀ r,
      ReadsTo scriptBase n capacity ({ b with reads := reads' }, s') r →
        ReadsTo scriptBase n capacity ({ b with reads := reads }, s) r := by
  induction reads generalizing s taken with
  | nil =>
    unfold ScallopStream.fill
    by_cases hp : s.pending = 0
    · rw [if_pos hp]
      exact fun _ h => h
    · rw [if_neg hp]
      have hround : readRound scriptBase n capacity ({ b with reads := [] }, s) = _ :=
        (if_pos hp).trans (fillRound_eq hle)
      exact .done hround
  | cons answer reads ih =>
    unfold ScallopStream.fill
    by_cases hp : s.pending = 0
    · rw [if_pos hp]
      exact fun _ h => h
    · rw [if_neg hp]
      have hround : readRound scriptBase n capacity
          ({ b with reads := answer :: reads }, s) = _ := (if_pos hp).trans (fillRound_eq hle)
      cases answer with
      | pending => exact .done hround
      | error => exact .done hround
      | data bs =>
        dsimp only
        by_cases hbs : bs.take s.pending = []
        · rw [if_pos hbs]
          exact .done (hround.trans (congrArg some (if_pos hbs)))
        · rw [if_neg hbs]
          have hput := ScallopStream.length_put (List.length_take_le s.pending bs) hle
          have hle' : (s.put (bs.take s.pending)).pending ≤
              (s.put (bs.take s.pending)).rbuf.length := by
            rw [hput]
            exact Nat.le_trans (Nat.sub_le _ _) hle
          have hnext := hround.trans (congrArg some (if_neg hbs))
          have hrest := ih (taken ++ bs.take s.pending) hle'
          split
          next s' poll taken' heq =>
            rw [heq] at hrest
            exact hrest.next hnext
          next s' reads' taken' heq =>
            rw [heq] at hrest
            exact fun r hr => (hrest r hr).next hnext

theorem readsTo_serve {b : Script} {taken : Bytes} (hs : s.Shaped) (hm : s.mode = .read) :
    ReadsTo base n capacity (b, s) (s.serve capacity taken) := by
  obtain ⟨hp, hstart, hend⟩ := hs.read hm
  have hround : readRound base n capacity (b, s) = serveRound capacity b s := by
    unfold readRound
    dsimp only
    rw [if_neg (not_not.2 hp), hm]
  refine .done (b := b) ?_
  rw [hround, serveRound_eq hstart hend, s.serve_eq capacity taken]
  unfold ScallopStream.serve
  split <;> rfl

theorem readsTo_openBody {b : Script} {taken : Bytes} (hn : FailsForGood n) (hp : s.pending = 0)
    (hm : s.mode = .body) :
    ReadsTo base n capacity (b, s) (s.openBody n.toNoiser capacity taken) := by
  have hround : readRound base n capacity (b, s) = openRound n b s := by
    unfold readRound
    dsimp only
    rw [if_neg (not_not.2 hp), hm]
  unfold ScallopStream.openBody
  unfold openRound at hround
  cases hread : n.readMessage s.noise s.rbuf s.rbuf.length with
  | none =>
    rw [hread, hn.unchanged _ _ hread] at hround
    exact .done hround
  | some opened =>
    obtain ⟨plain, noise⟩ := opened
    rw [hread] at hround
    refine .next hround (readsTo_serve ⟨?_, nofun, nofun, ?_⟩ rfl)
    · exact hp.symm ▸ Nat.zero_le _
    · refine fun _ => ⟨hp, Nat.zero_le _, ?_⟩
      rw [List.length_append]
      exact Nat.le_add_right _ _

theorem pollRead_script (hn : FailsForGood n) (hs : s.Shaped) (b : Script) :
    ReadsTo scriptBase n capacity (b, s) (s.pollRead n.toNoiser capacity b.reads) := by
  have hfill := @readsTo_fill _ n s capacity b b.reads [] hs.pending
  unfold ScallopStream.pollRead
  rw [ScallopStream.fill_supply hs.pending] at hfill ⊢
  cases hsupply : supply s.pending b.reads with
  | pends bs | fails bs | ends bs =>
    rw [hsupply] at hfill
    exact hfill
  | all bs rest =>
    rw [hsupply] at hfill
    have hlen := ScallopStream.length_supply hsupply
    have hpending := (ScallopStream.put_full hs.pending hlen).2
    have hshaped := hs.put (Nat.le_of_eq hlen)
    apply hfill
    dsimp only
    cases hm : (s.put bs).mode with
    | read => exact readsTo_serve hshaped hm
    | body => exact readsTo_openBody hn hpending hm
    | length =>
      have hround : readRound scriptBase n capacity ({ b with reads := rest }, s.put bs) =
          some (.next ({ b with reads := rest }, (s.put bs).parseLength)) := by
        unfold readRound
        dsimp only
        rw [if_neg (not_not.2 hpending), hm]
        exact parseRound_eq (hshaped.length hm)
      refine .next hround ?_
      have hbody := ScallopStream.Shaped.parseLength (s.put bs)
      have hfill' := @readsTo_fill _ n (s.put bs).parseLength capacity b rest ([] ++ bs)
        hbody.pending
      dsimp only
      rw [ScallopStream.fill_supply hbody.pending] at hfill' ⊢
      cases hsupply' : supply (s.put bs).parseLength.pending rest with
      | pends bs' | fails bs' | ends bs' =>
        rw [hsupply'] at hfill'
        exact hfill'
      | all bs' rest' =>
        rw [hsupply'] at hfill'
        have hlen' := ScallopStream.length_supply hsupply'
        exact hfill' _ (readsTo_openBody hn (ScallopStream.put_full hbody.pending hlen').2 rfl)

/-- Whatever the fuel, a read over a script that returns has the result of the scripted read. -/
theorem pollRead_script_of_ok (hn : FailsForGood n) (hs : s.Shaped) {b : Script} {fuel : ℕ}
    {p : Polled Script S Bytes} (h : pollRead scriptBase n capacity fuel b s = .ok p) :
    p.result = (s.pollRead n.toNoiser capacity b.reads).result ∧
      p.stream = (s.pollRead n.toNoiser capacity b.reads).stream := by
  obtain ⟨fuel', b', h'⟩ := @pollRead_script _ n s capacity hn hs b
  rw [run_unique h h']
  exact ⟨rfl, rfl⟩

end Reads

/-- Every stream that scripted polls lead to is one that polls over some base stream lead to. -/
theorem run_of_reachable (hn : FailsForGood n) (h : ScallopStream.Reachable n.toNoiser s) :
    ∃ noise es, Run (PollStep scriptBase n) (.new noise) es s := by
  induction h with
  | new noise => exact ⟨noise, [], .nil _⟩
  | @read s capacity script h ih =>
    obtain ⟨noise, es, hrun⟩ := ih
    obtain ⟨fuel, b', hread⟩ : ReadsTo scriptBase n capacity (⟨script, [], .pending, .pending⟩, s)
        (s.pollRead n.toNoiser capacity script) := pollRead_script hn h.shaped _
    exact ⟨noise, _, hrun.append (.cons (.read hread) (.nil _))⟩
  | write buf script flush _ ih =>
    obtain ⟨noise, es, hrun⟩ := ih
    have hwell := wellFormed_of_run hrun
    obtain ⟨b', e, hwrite⟩ := pollWrite_script (n := n) ⟨[], script, flush, .pending⟩ buf
      hwell.start hwell.room
    exact ⟨noise, _, hrun.append (.cons (.write hwrite) (.nil _))⟩
  | flush script flush _ ih =>
    obtain ⟨noise, es, hrun⟩ := ih
    have hwell := wellFormed_of_run hrun
    obtain ⟨b', hflush⟩ := pollFlush_script ⟨[], script, flush, .pending⟩ hwell.start hwell.room
    exact ⟨noise, _, hrun.append (.cons (.flush hflush) (.nil _))⟩
  | shutdown script flush shutdown _ ih =>
    obtain ⟨noise, es, hrun⟩ := ih
    have hwell := wellFormed_of_run hrun
    obtain ⟨b', poll, hshutdown⟩ := pollShutdown_script ⟨[], script, flush, shutdown⟩ hwell.start
      hwell.room
    exact ⟨noise, _, hrun.append (.cons (.shutdown hshutdown) (.nil _))⟩

end Loops

end Oyster.Scallop
