import Oyster.Scallop.StreamIntegrity

namespace Oyster.Scallop

/-- What the base stream supplies to a reader that wants some bytes: all of them, with the answers
that are left, or the ones before it pends, fails or ends. -/
inductive Supply where
  | all (bs : Bytes) (script : List ReadAnswer)
  | pends (bs : Bytes)
  | fails (bs : Bytes)
  | ends (bs : Bytes)

def Supply.bytes : Supply → Bytes
  | .all bs _ | .pends bs | .fails bs | .ends bs => bs

def Supply.before (bs : Bytes) : Supply → Supply
  | .all bs' script => .all (bs ++ bs') script
  | .pends bs' => .pends (bs ++ bs')
  | .fails bs' => .fails (bs ++ bs')
  | .ends bs' => .ends (bs ++ bs')

def supply (wanted : ℕ) (script : List ReadAnswer) : Supply :=
  if wanted = 0 then .all [] script
  else match script with
    | [] | .pending :: _ => .pends []
    | .error :: _ => .fails []
    | .data bs :: script =>
      if bs = [] then .ends []
      else (supply (wanted - bs.length) script).before (bs.take wanted)

/-- What a poll comes to. -/
inductive Outcome where
  | pends
  | fails
  /-- the base stream ends between two records -/
  | ends
  /-- the base stream ends inside a length or a body -/
  | truncated
  /-- what is left of the payload of a record -/
  | payload (plain : Bytes)
deriving DecidableEq

/-- What is returned and what is given to a caller with room for `capacity` bytes. -/
def Outcome.result (capacity : ℕ) : Outcome → Poll Unit × Bytes
  | .pends => (.pending, [])
  | .fails => (.error, [])
  | .ends | .truncated => (.ready (), [])
  | .payload plain => (.ready (), plain.take capacity)

namespace ScallopStream

variable {S : Type}

/-- The payload of a record. -/
def opened (n : Noiser S) (noise : S) (body : Bytes) : Outcome :=
  match n.readMessage noise body body.length with
  | none => .fails
  | some (plain, _) => .payload plain

/-- What a poll comes to once a length is there. -/
def bodyOutcome (n : Noiser S) (noise : S) (recordLength : ℕ) (script : List ReadAnswer) :
    Outcome :=
  match supply recordLength script with
  | .pends _ => .pends
  | .fails _ => .fails
  | .ends _ => .truncated
  | .all body _ => opened n noise body

def outcome (n : Noiser S) (s : ScallopStream S) (script : List ReadAnswer) : Outcome :=
  match supply s.pending script with
  | .pends _ => .pends
  | .fails _ => .fails
  | .ends bs => if s.mode = .length ∧ s.filled ++ bs = [] then .ends else .truncated
  | .all bs script =>
    match s.mode with
    | .read => .payload s.held
    | .body => opened n s.noise (s.filled ++ bs)
    | .length => bodyOutcome n s.noise (u16FromBe (s.filled ++ bs)) script

section Fill

variable {s : ScallopStream S} {bs bs' taken : Bytes}

theorem put_nil (s : ScallopStream S) : s.put [] = s := by
  simp [ScallopStream.put]

theorem length_put (hbs : bs.length ≤ s.pending) (h : s.pending ≤ s.rbuf.length) :
    (s.put bs).rbuf.length = s.rbuf.length := by
  simp only [ScallopStream.put, List.length_append, List.length_take, List.length_drop]
  omega

theorem put_put (h : s.pending ≤ s.rbuf.length) (hbs : bs.length ≤ s.pending) :
    (s.put bs).put bs' = s.put (bs ++ bs') := by
  have hlen := length_put hbs h
  have hstart : (s.rbuf.take (s.rbuf.length - s.pending) ++ bs).length =
      s.rbuf.length - s.pending + bs.length := by
    rw [List.length_append, List.length_take]
    omega
  have hend : s.rbuf.length - (s.pending - bs.length) =
      s.rbuf.length - s.pending + bs.length := by omega
  unfold ScallopStream.put at hlen ⊢
  dsimp only at hlen ⊢
  rw [hlen, hend, ← hstart, List.take_left, List.drop_append, List.drop_of_length_le (by omega),
    List.nil_append, Nat.add_sub_cancel_left, List.drop_drop, List.length_append, Nat.sub_sub,
    Nat.add_assoc, List.append_assoc _ bs bs', List.length_take, Nat.min_eq_left (Nat.sub_le _ _),
    List.length_append]

theorem fill_supply (h : s.pending ≤ s.rbuf.length) (script : List ReadAnswer) :
    s.fill taken script = match supply s.pending script with
      | .all bs script => .full (s.put bs) script (taken ++ bs)
      | .pends bs => .stop (s.put bs) .pending (taken ++ bs)
      | .fails bs => .stop (s.put bs) .error (taken ++ bs)
      | .ends bs => .stop (s.put bs) (.ready ()) (taken ++ bs) := by
  induction script generalizing s taken with
  | nil =>
    unfold ScallopStream.fill supply
    split
    · simp [put_nil]
    · simp [put_nil]
  | cons answer script ih =>
    unfold ScallopStream.fill supply
    by_cases hp : s.pending = 0
    · simp [hp, put_nil]
    · rw [if_neg hp, if_neg hp]
      cases answer with
      | pending => simp [put_nil]
      | error => simp [put_nil]
      | data bs =>
        dsimp only
        by_cases hbs : bs = []
        · simp [hbs, put_nil]
        · have htake : bs.take s.pending ≠ [] := by
            simp [hp, hbs]
          have hle := List.length_take_le s.pending bs
          have hrest : (s.put (bs.take s.pending)).pending = s.pending - bs.length := by
            simp only [ScallopStream.put, List.length_take]
            omega
          rw [if_neg htake, if_neg hbs, ih (by rw [hrest, length_put hle h]; omega), hrest]
          cases supply (s.pending - bs.length) script with
          | all | pends | fails | ends =>
            simp only [Supply.before, put_put h hle, List.append_assoc]

theorem put_full (h : s.pending ≤ s.rbuf.length) (hbs : bs.length = s.pending) :
    (s.put bs).rbuf = s.filled ++ bs ∧ (s.put bs).pending = 0 := by
  constructor
  · unfold ScallopStream.put ScallopStream.filled
    dsimp only
    rw [List.drop_of_length_le (by omega), List.append_nil]
  · simp only [ScallopStream.put]
    omega

theorem length_before (bs : Bytes) (r : Supply) :
    (r.before bs).bytes.length = bs.length + r.bytes.length := by
  cases r with
  | all | pends | fails | ends => exact List.length_append

theorem length_supply_le (wanted : ℕ) (script : List ReadAnswer) :
    (supply wanted script).bytes.length ≤ wanted := by
  induction script generalizing wanted with
  | nil =>
    unfold supply
    split
    · exact Nat.zero_le _
    · exact Nat.zero_le _
  | cons answer script ih =>
    unfold supply
    split
    · exact Nat.zero_le _
    · cases answer with
      | pending => exact Nat.zero_le _
      | error => exact Nat.zero_le _
      | data bs =>
        dsimp only
        split
        · exact Nat.zero_le _
        · have hrest := ih (wanted - bs.length)
          rw [length_before, List.length_take]
          omega

theorem length_supply {wanted : ℕ} {script script' : List ReadAnswer}
    (h : supply wanted script = .all bs script') : bs.length = wanted := by
  induction script generalizing wanted bs with
  | nil =>
    unfold supply at h
    split at h
    · rename_i hzero
      cases h
      exact hzero.symm
    · cases h
  | cons answer script ih =>
    unfold supply at h
    split at h
    · rename_i hzero
      cases h
      exact hzero.symm
    · cases answer with
      | pending => cases h
      | error => cases h
      | data bs' =>
        dsimp only at h
        split at h
        · cases h
        · cases hrest : supply (wanted - bs'.length) script with
          | all bs'' script'' =>
            rw [hrest] at h
            cases h
            have hlen := ih hrest
            rw [List.length_append, List.length_take, hlen]
            omega
          | pends | fails | ends =>
            rw [hrest] at h
            cases h

end Fill

inductive Reachable (n : Noiser S) : ScallopStream S → Prop
  | new (noise : S) : Reachable n (.new noise)
  | read {s : ScallopStream S} (capacity : ℕ) (script : List ReadAnswer) :
      Reachable n s → Reachable n (s.pollRead n capacity script).stream
  | write {s : ScallopStream S} (buf : Bytes) (script : List WriteAnswer) (flush : Poll Unit) :
      Reachable n s → Reachable n (s.pollWrite n buf script flush).stream
  | flush {s : ScallopStream S} (script : List WriteAnswer) (flush : Poll Unit) :
      Reachable n s → Reachable n (s.pollFlush script flush).stream
  | shutdown {s : ScallopStream S} (script : List WriteAnswer) (flush shutdown : Poll Unit) :
      Reachable n s → Reachable n (s.pollShutdown script flush shutdown).stream

structure SameRead (s s' : ScallopStream S) : Prop where
  rbuf : s'.rbuf = s.rbuf
  pending : s'.pending = s.pending
  mode : s'.mode = s.mode
  readEnd : s'.readEnd = s.readEnd
  readStart : s'.readStart = s.readStart

variable {s s' : ScallopStream S}

theorem SameRead.refl (s : ScallopStream S) : SameRead s s := ⟨rfl, rfl, rfl, rfl, rfl⟩

theorem SameRead.shaped (h : SameRead s s') (hs : s.Shaped) : s'.Shaped := by
  obtain ⟨hpending, hlength, hbody, hread⟩ := hs
  refine ⟨?_, ?_, ?_, ?_⟩
  · rw [h.pending, h.rbuf]
    exact hpending
  · rw [h.mode, h.rbuf]
    exact hlength
  · rw [h.mode, h.rbuf]
    exact hbody
  · rw [h.mode, h.pending, h.rbuf, h.readEnd, h.readStart]
    exact hread

theorem drain_sameRead (s : ScallopStream S) (sent : Bytes) (script : List WriteAnswer) :
    SameRead s (s.drain sent script).stream := by
  induction script generalizing s sent with
  | nil => exact .refl s
  | cons answer script ih =>
    unfold ScallopStream.drain
    split
    · exact .refl s
    · cases answer with
      | pending => exact .refl s
      | error => exact .refl s
      | accepted size =>
        have hrest := ih { s with writeStart := s.writeStart + min size s.queued.length }
          (sent ++ s.queued.take (min size s.queued.length))
        exact ⟨hrest.rbuf, hrest.pending, hrest.mode, hrest.readEnd, hrest.readStart⟩

theorem pollFlush_sameRead (s : ScallopStream S) (script : List WriteAnswer) (flush : Poll Unit) :
    SameRead s (s.pollFlush script flush).stream := by
  have hdrain := drain_sameRead s [] script
  unfold ScallopStream.pollFlush
  split
  · rename_i heq
    rw [heq] at hdrain
    exact hdrain
  · exact hdrain

theorem pollShutdown_sameRead (s : ScallopStream S) (script : List WriteAnswer)
    (flush shutdown : Poll Unit) :
    SameRead s (s.pollShutdown script flush shutdown).stream := by
  have hflush := pollFlush_sameRead s script flush
  unfold ScallopStream.pollShutdown
  split
  · rename_i heq
    rw [heq] at hflush
    exact hflush
  · exact hflush

theorem pollWrite_sameRead (n : Noiser S) (s : ScallopStream S) (buf : Bytes)
    (script : List WriteAnswer) (flush : Poll Unit) :
    SameRead s (s.pollWrite n buf script flush).stream := by
  have hflush := pollFlush_sameRead s script flush
  unfold ScallopStream.pollWrite
  split
  · rename_i s' sent heq
    rw [heq] at hflush
    unfold ScallopStream.queue
    dsimp only
    split
    · exact hflush
    · exact ⟨hflush.rbuf, hflush.pending, hflush.mode, hflush.readEnd, hflush.readStart⟩
  · rename_i heq
    rw [heq] at hflush
    exact hflush
  · rename_i heq
    rw [heq] at hflush
    exact hflush

structure Returns (r : ReadResult S) (capacity : ℕ) (outcome : Outcome) : Prop where
  result : (r.poll, r.out) = outcome.result capacity
  shaped : r.stream.Shaped

variable {n : Noiser S} {capacity : ℕ} {bs taken : Bytes}

theorem Shaped.put (h : s.Shaped) (hbs : bs.length ≤ s.pending) : (s.put bs).Shaped := by
  have hlen := length_put hbs h.pending
  have hpending := h.pending
  refine ⟨?_, ?_, ?_, ?_⟩
  · rw [hlen]
    simp only [ScallopStream.put]
    omega
  · rw [hlen]
    exact h.length
  · rw [hlen]
    exact h.body
  · intro hread
    obtain ⟨hp, hstart, hend⟩ := h.read hread
    rw [hlen]
    exact ⟨by simp only [ScallopStream.put]; omega, hstart, hend⟩

theorem serve_returns (h : s.Shaped) (hm : s.mode = .read) :
    Returns (s.serve capacity taken) capacity (.payload s.held) := by
  obtain ⟨hp, hstart, hend⟩ := h.read hm
  have hheld : s.held = (s.rbuf.drop s.readStart).take (s.readEnd - s.readStart) := by
    simp only [ScallopStream.held, hm]
  rw [hheld]
  unfold ScallopStream.serve
  split
  · rename_i hpart
    refine ⟨?_, ⟨h.pending, h.length, h.body, fun _ => ⟨hp, ?_, hend⟩⟩⟩
    · simp only [Outcome.result, List.take_take, Nat.min_eq_left (Nat.le_of_lt hpart)]
    · dsimp only
      omega
  · rename_i hall
    refine ⟨?_, ⟨Nat.le_refl 2, fun _ => rfl, fun hbody => ?_, fun hread => ?_⟩⟩
    rotate_left
    · cases hbody
    · cases hread
    have hlen : ((s.rbuf.drop s.readStart).take (s.readEnd - s.readStart)).length ≤ capacity :=
      Nat.le_trans (List.length_take_le _ _) (Nat.not_lt.1 hall)
    rw [Outcome.result, List.take_of_length_le hlen]

theorem openBody_returns (h : s.Shaped) (hp : s.pending = 0) :
    Returns (s.openBody n capacity taken) capacity (opened n s.noise s.rbuf) := by
  unfold ScallopStream.openBody opened
  cases n.readMessage s.noise s.rbuf s.rbuf.length with
  | none => exact ⟨rfl, h⟩
  | some r =>
    obtain ⟨plain, noise⟩ := r
    have hshaped : ({ s with
        noise := noise
        rbuf := plain ++ s.rbuf.drop plain.length
        readStart := 0
        readEnd := plain.length
        mode := .read } : ScallopStream S).Shaped := by
      refine ⟨?_, nofun, nofun, fun _ => ⟨hp, Nat.zero_le _, ?_⟩⟩
      · dsimp only
        omega
      · dsimp only
        rw [List.length_append]
        omega
    have hserve := @serve_returns _ _ capacity taken hshaped rfl
    simpa only [ScallopStream.held, List.drop_zero, Nat.sub_zero, List.take_left] using hserve

theorem Shaped.parseLength (s : ScallopStream S) : s.parseLength.Shaped where
  pending := by simp [ScallopStream.parseLength]
  length := nofun
  body := fun _ => by
    simp only [ScallopStream.parseLength, List.length_replicate]
    exact u16FromBe_lt _
  read := nofun

theorem pollRead_returns (h : s.Shaped) (script : List ReadAnswer) :
    Returns (s.pollRead n capacity script) capacity (outcome n s script) := by
  unfold ScallopStream.pollRead outcome
  rw [fill_supply h.pending]
  have hle := length_supply_le s.pending script
  cases hs : supply s.pending script with
  | pends bs | fails bs =>
    rw [hs] at hle
    exact ⟨rfl, h.put hle⟩
  | ends bs =>
    rw [hs] at hle
    refine ⟨?_, h.put hle⟩
    dsimp only
    split
    · rfl
    · rfl
  | all bs rest =>
    have hlen := length_supply hs
    obtain ⟨hrbuf, hpending⟩ := put_full h.pending hlen
    have hshaped := h.put (Nat.le_of_eq hlen)
    have hmode : (s.put bs).mode = s.mode := rfl
    dsimp only
    rw [hmode]
    cases hm : s.mode with
    | read =>
      -- nothing is pending, so that nothing comes in
      have hnil : bs = [] := List.eq_nil_of_length_eq_zero (hlen.trans (h.read hm).1)
      rw [hnil, put_nil]
      exact serve_returns h hm
    | body =>
      dsimp only
      rw [← hrbuf]
      exact openBody_returns hshaped hpending
    | length =>
      have htake : (s.put bs).rbuf.take 2 = s.filled ++ bs := by
        rw [hrbuf, List.take_of_length_le]
        exact Nat.le_of_eq (hrbuf ▸ hshaped.length hm)
      have hbody := Shaped.parseLength (s.put bs)
      have hwanted : (s.put bs).parseLength.pending = u16FromBe (s.filled ++ bs) := by
        rw [← htake]
        rfl
      dsimp only
      rw [fill_supply hbody.pending, hwanted, bodyOutcome]
      have hle' := length_supply_le (u16FromBe (s.filled ++ bs)) rest
      cases hs' : supply (u16FromBe (s.filled ++ bs)) rest with
      | pends bs' | fails bs' | ends bs' =>
        rw [hs', ← hwanted] at hle'
        exact ⟨rfl, hbody.put hle'⟩
      | all body rest' =>
        have hlen' := (length_supply hs').trans hwanted.symm
        obtain ⟨hrbuf', hpending'⟩ := put_full hbody.pending hlen'
        have hnil : (s.put bs).parseLength.filled = [] := by
          simp [ScallopStream.filled, ScallopStream.parseLength]
        rw [hnil, List.nil_append] at hrbuf'
        have hreturns := @openBody_returns _ _ n capacity ([] ++ bs ++ body)
          (hbody.put (Nat.le_of_eq hlen')) hpending'
        rw [hrbuf'] at hreturns
        exact hreturns

theorem Reachable.shaped (h : Reachable n s) : s.Shaped := by
  induction h with
  | new noise => exact ⟨Nat.le_refl 2, fun _ => rfl, nofun, nofun⟩
  | read capacity script _ ih => exact (@pollRead_returns _ _ n capacity ih script).shaped
  | write buf script flush _ ih => exact (pollWrite_sameRead n _ buf script flush).shaped ih
  | flush script flush _ ih => exact (pollFlush_sameRead _ script flush).shaped ih
  | shutdown script flush shutdown _ ih =>
    exact (pollShutdown_sameRead _ script flush shutdown).shaped ih

/-- Only the end of the base stream between two records looks like the end of the stream, and the
end inside one is an error. -/
def Honest (n : Noiser S) (s : ScallopStream S) (capacity : ℕ) (script : List ReadAnswer) : Prop :=
  ((s.pollRead n capacity script).poll = .ready () → (s.pollRead n capacity script).out = [] →
      outcome n s script = .ends) ∧
    (outcome n s script = .truncated → (s.pollRead n capacity script).poll = .error)

/-- The base stream does not end inside a record, and what it serves is not empty. -/
theorem honest_iff (h : Reachable n s) (hcapacity : 0 < capacity) (script : List ReadAnswer) :
    Honest n s capacity script ↔
      outcome n s script ≠ .truncated ∧ outcome n s script ≠ .payload [] := by
  have hresult := (@pollRead_returns _ _ n capacity h.shaped script).result
  have hpoll : (s.pollRead n capacity script).poll = ((outcome n s script).result capacity).1 :=
    congrArg Prod.fst hresult
  have hout : (s.pollRead n capacity script).out = ((outcome n s script).result capacity).2 :=
    congrArg Prod.snd hresult
  have hne : capacity ≠ 0 := by omega
  unfold Honest
  rw [hpoll, hout]
  cases outcome n s script with
  | pends | fails | ends | truncated => simp [Outcome.result]
  | payload plain => simp [Outcome.result, hne]

def clear : Noiser Unit where
  readMessage _ msg _ := some (msg, ())
  writeMessage _ payload _ := some (payload, ())

theorem honest_iff_sample : Honest clear (.new ()) 8 [.data [0, 1], .data [7]] :=
  (honest_iff (.new ()) (by decide) _).2 (by decide)

/-- The base stream ends after one byte of a length, and a record is empty. -/
theorem not_honest_sample : ¬Honest clear (.new ()) 8 [.data [0], .data []] ∧
    ¬Honest clear (.new ()) 8 [.data [0, 0]] := by
  constructor
  · intro h
    have herror := h.2 (by decide)
    cases herror
  · intro h
    have hends := h.1 rfl rfl
    cases hends

end ScallopStream

end Oyster.Scallop
