import Oyster.Scallop.Stream

namespace Oyster.Scallop

/-- The ciphertext of the `i`-th message. It is longer than the plaintext by the tag. -/
structure Aead where
  encrypt : ℕ → Bytes → Bytes
  length_encrypt : ∀ i p, (encrypt i p).length = p.length + 16

/-- The plaintexts and ciphertexts written so far. -/
abbrev Messages := List (Bytes × Bytes)

namespace Aead

def sealer (a : Aead) : Noiser Messages where
  writeMessage log payload room :=
    let msg := a.encrypt log.length payload
    if msg.length ≤ room then some (msg, log ++ [(payload, msg)]) else none
  readMessage _ _ _ := none

/-- The receiving side has read as many messages as its state says. -/
def opener (log : Messages) : Noiser ℕ where
  readMessage i msg room :=
    match log[i]? with
    | none => none
    | some (payload, sent) =>
      if msg = sent ∧ payload.length ≤ room then some (payload, i + 1) else none
  writeMessage _ _ _ := none

end Aead

def plaintext (log : Messages) : Bytes := (log.map Prod.fst).flatten

/-- A record is the length of its ciphertext and the ciphertext. -/
def recordBytes (m : Bytes × Bytes) : Bytes := u16ToBe m.2.length ++ m.2

def wireBytes (log : Messages) : Bytes := (log.map recordBytes).flatten

@[simp] theorem plaintext_append (log log' : Messages) :
    plaintext (log ++ log') = plaintext log ++ plaintext log' := by
  simp [plaintext]

@[simp] theorem wireBytes_append (log log' : Messages) :
    wireBytes (log ++ log') = wireBytes log ++ wireBytes log' := by
  simp [wireBytes]

theorem plaintext_take_succ {log : Messages} {i : ℕ} {m : Bytes × Bytes} (h : log[i]? = some m) :
    plaintext (log.take (i + 1)) = plaintext (log.take i) ++ m.1 := by
  rw [List.take_add_one, h]
  simp [plaintext]

theorem wireBytes_take_succ {log : Messages} {i : ℕ} {m : Bytes × Bytes} (h : log[i]? = some m) :
    wireBytes (log.take (i + 1)) = wireBytes (log.take i) ++ recordBytes m := by
  rw [List.take_add_one, h]
  simp [wireBytes]

theorem plaintext_take_isPrefix (log : Messages) (i : ℕ) :
    plaintext (log.take i) <+: plaintext log := by
  refine ⟨plaintext (log.drop i), ?_⟩
  rw [← plaintext_append, List.take_append_drop]

namespace ScallopStream

/-- What the sender has written is what it accepted; what it gave to its base stream and what is
queued are the records of it. -/
structure Sends (s : ScallopStream Messages) (accepted sent : Bytes) : Prop where
  accepted : plaintext s.noise = accepted
  wire : sent ++ s.queued = wireBytes s.noise
  short : ∀ m ∈ s.noise, m.2.length < 65536
  start : s.writeStart ≤ s.writeEnd
  room : s.writeEnd ≤ s.wbuf.length

section Send

variable {s : ScallopStream Messages} {accepted sent : Bytes}

theorem queued_length {S : Type} {s : ScallopStream S} (h : s.writeEnd ≤ s.wbuf.length) :
    s.queued.length = s.writeEnd - s.writeStart := by
  simp only [queued, List.length_drop, List.length_take]
  omega

theorem queued_eq_nil {S : Type} {s : ScallopStream S} (h : s.writeStart = s.writeEnd) :
    s.queued = [] := by
  unfold queued
  rw [h, List.drop_eq_nil_iff]
  exact List.length_take_le _ _

theorem queued_advance {S : Type} (s : ScallopStream S) (size : ℕ) :
    ({ s with writeStart := s.writeStart + size } : ScallopStream S).queued =
      s.queued.drop size := by
  simp only [queued, List.drop_drop]

theorem Sends.advance (h : s.Sends accepted sent) {size : ℕ} (hsize : size ≤ s.queued.length) :
    ({ s with writeStart := s.writeStart + size } : ScallopStream Messages).Sends accepted
      (sent ++ s.queued.take size) := by
  rw [queued_length h.room] at hsize
  have hstart := h.start
  refine ⟨h.accepted, ?_, h.short, by simp only; omega, h.room⟩
  rw [queued_advance, List.append_assoc, List.take_append_drop]
  exact h.wire

theorem Sends.drain {before : Bytes} (h : s.Sends accepted (before ++ sent))
    (script : List WriteAnswer) :
    (s.drain sent script).stream.Sends accepted (before ++ (s.drain sent script).sent) := by
  induction script generalizing s sent with
  | nil => exact h
  | cons answer script ih =>
    unfold ScallopStream.drain
    split
    · exact h
    · cases answer with
      | pending => exact h
      | error => exact h
      | accepted size =>
        apply ih
        rw [← List.append_assoc]
        exact h.advance (Nat.min_le_right _ _)

theorem drain_ready {S : Type} (s : ScallopStream S) (sent : Bytes) (script : List WriteAnswer)
    (h : (s.drain sent script).poll = .ready ()) :
    (s.drain sent script).stream.writeStart = (s.drain sent script).stream.writeEnd := by
  induction script generalizing s sent with
  | nil =>
    by_cases hs : s.writeStart = s.writeEnd
    · exact hs
    · simp [ScallopStream.drain, hs] at h
  | cons answer script ih =>
    unfold ScallopStream.drain at h ⊢
    split at h
    next hs => rw [if_pos hs]; exact hs
    next hs =>
      rw [if_neg hs]
      cases answer with
      | pending => cases h
      | error => cases h
      | accepted size => exact ih _ _ h

theorem Sends.pollFlush (h : s.Sends accepted sent) (script : List WriteAnswer)
    (flush : Poll Unit) :
    (s.pollFlush script flush).stream.Sends accepted
      (sent ++ (s.pollFlush script flush).sent) := by
  have h₀ : s.Sends accepted (sent ++ []) := (List.append_nil sent).symm ▸ h
  have hd := h₀.drain script
  unfold ScallopStream.pollFlush
  split
  next heq => rw [heq] at hd; exact hd
  next => exact hd

/-- Once a flush is reported done, nothing is queued. -/
theorem pollFlush_ready {S : Type} (s : ScallopStream S) (script : List WriteAnswer)
    (flush : Poll Unit) (h : (s.pollFlush script flush).poll = .ready ()) :
    (s.pollFlush script flush).stream.writeStart = (s.pollFlush script flush).stream.writeEnd := by
  have hd := drain_ready s [] script
  unfold ScallopStream.pollFlush at h ⊢
  split
  next s' sent heq =>
    rw [heq] at hd
    exact hd rfl
  next r hr =>
    split at h
    next heq => exact absurd heq (hr _ _ _)
    next => exact hd h

theorem pollShutdown_ready {S : Type} (s : ScallopStream S) (script : List WriteAnswer)
    (flush shutdown : Poll Unit) (h : (s.pollShutdown script flush shutdown).poll = .ready ()) :
    (s.pollShutdown script flush shutdown).stream.writeStart =
      (s.pollShutdown script flush shutdown).stream.writeEnd := by
  have hf := pollFlush_ready s script flush
  unfold ScallopStream.pollShutdown at h ⊢
  split
  next heq =>
    rw [heq] at hf
    exact hf rfl
  next r hr =>
    split at h
    next heq => exact absurd heq (hr _ _ _)
    next => exact hf h

theorem drain_flushed {S : Type} {s : ScallopStream S} (h : s.writeStart = s.writeEnd)
    (sent : Bytes) (script : List WriteAnswer) : s.drain sent script = ⟨.ready (), s, sent⟩ := by
  cases script <;> simp [ScallopStream.drain, h]

theorem pollFlush_flushed {S : Type} {s : ScallopStream S} (h : s.writeStart = s.writeEnd)
    (script : List WriteAnswer) (flush : Poll Unit) :
    s.pollFlush script flush = ⟨flush, s, []⟩ := by
  rw [ScallopStream.pollFlush, drain_flushed h]

theorem pollShutdown_flushed {S : Type} {s : ScallopStream S} (h : s.writeStart = s.writeEnd)
    (script : List WriteAnswer) (flush shutdown : Poll Unit) :
    (s.pollShutdown script flush shutdown).stream = s := by
  rw [ScallopStream.pollShutdown, pollFlush_flushed h]
  cases flush <;> rfl

theorem drain_noise {S : Type} (s : ScallopStream S) (sent : Bytes) (script : List WriteAnswer) :
    (s.drain sent script).stream.noise = s.noise := by
  induction script generalizing s sent with
  | nil => rfl
  | cons answer script ih =>
    unfold ScallopStream.drain
    split
    · rfl
    · cases answer with
      | pending => rfl
      | error => rfl
      | accepted size => exact ih _ _

theorem pollFlush_noise {S : Type} (s : ScallopStream S) (script : List WriteAnswer)
    (flush : Poll Unit) : (s.pollFlush script flush).stream.noise = s.noise := by
  have hd := drain_noise s [] script
  unfold ScallopStream.pollFlush
  split
  next heq =>
    rw [heq] at hd
    exact hd
  next => exact hd

theorem pollShutdown_noise {S : Type} (s : ScallopStream S) (script : List WriteAnswer)
    (flush shutdown : Poll Unit) :
    (s.pollShutdown script flush shutdown).stream.noise = s.noise := by
  have hf := pollFlush_noise s script flush
  unfold ScallopStream.pollShutdown
  split
  next heq =>
    rw [heq] at hf
    exact hf
  next => exact hf

theorem pollWrite_noise (a : Aead) (s : ScallopStream Messages) (buf : Bytes)
    (script : List WriteAnswer) (flush : Poll Unit) :
    s.noise <+: (s.pollWrite a.sealer buf script flush).stream.noise := by
  have hf := pollFlush_noise s script flush
  unfold ScallopStream.pollWrite
  split
  next s₁ extra heq =>
    rw [heq] at hf
    rw [← hf]
    unfold ScallopStream.queue Aead.sealer
    dsimp only
    split
    next => exact List.prefix_rfl
    next heq =>
      split at heq
      · cases heq
        exact List.prefix_append _ _
      · cases heq
  next s₁ extra heq =>
    rw [heq] at hf
    exact hf ▸ List.prefix_rfl
  next s₁ extra heq =>
    rw [heq] at hf
    exact hf ▸ List.prefix_rfl

/-- The bytes of `buf` that a write has accepted. -/
def acceptedOf (buf : Bytes) : Poll ℕ → Bytes
  | .ready n => buf.take n
  | _ => []

theorem Sends.queue (a : Aead) (buf extra : Bytes) (h : s.Sends accepted (sent ++ extra))
    (hempty : s.queued = []) :
    (s.queue a.sealer buf extra).stream.Sends
      (accepted ++ acceptedOf buf (s.queue a.sealer buf extra).poll)
      (sent ++ (s.queue a.sealer buf extra).sent) := by
  have hlen : (buf.take (min buf.length 64000)).length = min buf.length 64000 := by
    rw [List.length_take]
    omega
  have hmsg := a.length_encrypt s.noise.length (buf.take (min buf.length 64000))
  rw [hlen] at hmsg
  unfold ScallopStream.queue Aead.sealer
  dsimp only
  rw [if_pos (by omega)]
  refine ⟨?_, ?_, ?_, Nat.zero_le _, ?_⟩
  · rw [plaintext_append, h.accepted]
    simp [plaintext, acceptedOf]
  · -- the old queue is gone, so the new record follows what was sent
    have hwire := h.wire
    rw [hempty, List.append_nil] at hwire
    rw [wireBytes_append, ← hwire]
    congr 1
    unfold queued
    dsimp only
    rw [List.drop_zero, List.take_left' (by simp only [List.length_append, u16ToBe_length]; omega)]
    simp [wireBytes, recordBytes]
  · intro m hm
    rcases List.mem_append.1 hm with hm | hm
    · exact h.short m hm
    · rw [List.mem_singleton.1 hm]
      dsimp only
      omega
  · dsimp only
    simp only [List.length_append, u16ToBe_length, List.length_replicate]
    omega

theorem Sends.pollWrite (a : Aead) (h : s.Sends accepted sent) (buf : Bytes)
    (script : List WriteAnswer) (flush : Poll Unit) :
    (s.pollWrite a.sealer buf script flush).stream.Sends
      (accepted ++ acceptedOf buf (s.pollWrite a.sealer buf script flush).poll)
      (sent ++ (s.pollWrite a.sealer buf script flush).sent) := by
  have hf := h.pollFlush script flush
  have hready := pollFlush_ready s script flush
  unfold ScallopStream.pollWrite
  split
  next s₁ extra heq =>
    rw [heq] at hf hready
    exact Sends.queue a buf extra hf (queued_eq_nil (hready rfl))
  next s₁ extra heq =>
    rw [heq] at hf
    simpa only [acceptedOf, List.append_nil] using hf
  next s₁ extra heq =>
    rw [heq] at hf
    simpa only [acceptedOf, List.append_nil] using hf

theorem Sends.pollShutdown (h : s.Sends accepted sent) (script : List WriteAnswer)
    (flush shutdown : Poll Unit) :
    (s.pollShutdown script flush shutdown).stream.Sends accepted
      (sent ++ (s.pollShutdown script flush shutdown).sent) := by
  have hf := h.pollFlush script flush
  unfold ScallopStream.pollShutdown
  split
  next heq =>
    rw [heq] at hf
    exact hf
  next => exact hf

end Send

/-- The part of the read buffer that the base stream has filled. -/
def filled {S : Type} (s : ScallopStream S) : Bytes := s.rbuf.take (s.rbuf.length - s.pending)

/-- The start of a record that has arrived. -/
def partialRecord {S : Type} (s : ScallopStream S) : Bytes :=
  match s.mode with
  | .length => s.filled
  | .body => u16ToBe s.rbuf.length ++ s.filled
  | .read => []

/-- Plaintext that the caller has not been given yet. -/
def held {S : Type} (s : ScallopStream S) : Bytes :=
  match s.mode with
  | .read => (s.rbuf.drop s.readStart).take (s.readEnd - s.readStart)
  | _ => []

structure Shaped {S : Type} (s : ScallopStream S) : Prop where
  pending : s.pending ≤ s.rbuf.length
  length : s.mode = .length → s.rbuf.length = 2
  body : s.mode = .body → s.rbuf.length < 65536
  read : s.mode = .read → s.pending = 0 ∧ s.readStart ≤ s.readEnd ∧ s.readEnd ≤ s.rbuf.length

/-- What the receiver took from its base stream are the records of the messages it opened and
the start of one more; what it returned is their plaintext, except for what it holds. -/
structure Receives (log : Messages) (s : ScallopStream ℕ) (handed got : Bytes) : Prop where
  opened : s.noise ≤ log.length
  got : got ++ s.held = plaintext (log.take s.noise)
  handed : handed = wireBytes (log.take s.noise) ++ s.partialRecord
  shaped : s.Shaped

section Receive

variable {log : Messages} {s s' : ScallopStream ℕ} {handed got bs : Bytes}

/-- `s'` is `s` with `bs` put into its buffer. -/
structure Grown (s s' : ScallopStream ℕ) (bs : Bytes) : Prop where
  same : s' = { s with rbuf := s'.rbuf, pending := s'.pending }
  length : s'.rbuf.length = s.rbuf.length
  pending : s'.pending ≤ s'.rbuf.length
  filled : s'.filled = s.filled ++ bs

theorem Grown.refl (h : s.pending ≤ s.rbuf.length) : Grown s s [] :=
  ⟨rfl, rfl, h, (List.append_nil _).symm⟩

theorem Grown.trans {s'' : ScallopStream ℕ} {bs' : Bytes} (h : Grown s s' bs)
    (h' : Grown s' s'' bs') : Grown s s'' (bs ++ bs') := by
  refine ⟨?_, h'.length.trans h.length, h'.pending, ?_⟩
  · rw [h'.same, h.same]
  · rw [h'.filled, h.filled, List.append_assoc]

theorem Grown.put (h : s.pending ≤ s.rbuf.length) (hbs : bs.length ≤ s.pending) :
    Grown s (s.put bs) bs := by
  have hlen : (s.put bs).rbuf.length = s.rbuf.length := by
    simp only [ScallopStream.put, List.length_append, List.length_take, List.length_drop]
    omega
  refine ⟨rfl, hlen, by rw [hlen]; simp only [ScallopStream.put]; omega, ?_⟩
  have hstart : (s.rbuf.take (s.rbuf.length - s.pending)).length = s.rbuf.length - s.pending := by
    rw [List.length_take]
    omega
  have hend : s.rbuf.length - (s.pending - bs.length) =
      (s.rbuf.length - s.pending) + bs.length := by omega
  unfold ScallopStream.filled
  rw [hlen]
  simp only [ScallopStream.put]
  rw [hend, List.append_assoc, List.take_append, hstart, List.take_of_length_le (by omega)]
  congr 1
  simp

theorem filled_length {S : Type} (s : ScallopStream S) :
    s.filled.length = s.rbuf.length - s.pending := by
  unfold ScallopStream.filled
  rw [List.length_take]
  omega

theorem filled_eq {S : Type} {s : ScallopStream S} (h : s.pending = 0) : s.filled = s.rbuf := by
  unfold ScallopStream.filled
  rw [h, Nat.sub_zero, List.take_length]

theorem Grown.eq_of_full (hg : Grown s s' bs) (hp : s.pending = 0) : s' = s ∧ bs = [] := by
  have hlen := congrArg List.length hg.filled
  rw [List.length_append, filled_length, filled_length, hg.length] at hlen
  have hpending := hg.pending
  rw [hg.length] at hpending
  have hbs : bs = [] := List.eq_nil_of_length_eq_zero (by omega)
  have hp' : s'.pending = 0 := by omega
  have hrbuf := hg.filled
  rw [filled_eq hp, filled_eq hp', hbs, List.append_nil] at hrbuf
  refine ⟨?_, hbs⟩
  rw [hg.same, hrbuf, hp', ← hp]

theorem fill_grown (h : s.pending ≤ s.rbuf.length) (taken : Bytes) (script : List ReadAnswer) :
    match s.fill taken script with
    | .full s' _ taken' => ∃ bs, taken' = taken ++ bs ∧ Grown s s' bs ∧ s'.pending = 0
    | .stop s' _ taken' => ∃ bs, taken' = taken ++ bs ∧ Grown s s' bs ∧ s'.pending ≠ 0 := by
  induction script generalizing s taken with
  | nil =>
    unfold ScallopStream.fill
    by_cases hp : s.pending = 0
    · rw [if_pos hp]
      exact ⟨[], (List.append_nil _).symm, .refl h, hp⟩
    · rw [if_neg hp]
      exact ⟨[], (List.append_nil _).symm, .refl h, hp⟩
  | cons answer script ih =>
    unfold ScallopStream.fill
    by_cases hp : s.pending = 0
    · rw [if_pos hp]
      exact ⟨[], (List.append_nil _).symm, .refl h, hp⟩
    · rw [if_neg hp]
      cases answer with
      | pending => exact ⟨[], (List.append_nil _).symm, .refl h, hp⟩
      | error => exact ⟨[], (List.append_nil _).symm, .refl h, hp⟩
      | data bs =>
        dsimp only
        by_cases hbs : bs.take s.pending = []
        · rw [if_pos hbs]
          exact ⟨[], (List.append_nil _).symm, .refl h, hp⟩
        · rw [if_neg hbs]
          have hput := Grown.put h (List.length_take_le s.pending bs)
          have hrest := ih hput.pending (taken ++ bs.take s.pending)
          cases hf : (s.put (bs.take s.pending)).fill (taken ++ bs.take s.pending) script with
          | full s' rest taken' =>
            rw [hf] at hrest
            obtain ⟨more, rfl, hg, h0⟩ := hrest
            exact ⟨_, List.append_assoc _ _ _, hput.trans hg, h0⟩
          | stop s' poll taken' =>
            rw [hf] at hrest
            obtain ⟨more, rfl, hg, h0⟩ := hrest
            exact ⟨_, List.append_assoc _ _ _, hput.trans hg, h0⟩

theorem Receives.log_append (h : s.Receives log handed got) (more : Messages) :
    s.Receives (log ++ more) handed got := by
  have hlen := h.opened
  refine ⟨by rw [List.length_append]; omega, ?_, ?_, h.shaped⟩
  · rw [List.take_append_of_le_length hlen]
    exact h.got
  · rw [List.take_append_of_le_length hlen]
    exact h.handed

theorem held_eq_nil (h : s.mode ≠ .read) : s.held = [] := by
  unfold ScallopStream.held
  split
  next hm => exact absurd hm h
  next => rfl

theorem Grown.partialRecord (hg : Grown s s' bs) (hm : s.mode ≠ .read) :
    s'.partialRecord = s.partialRecord ++ bs := by
  have hmode : s'.mode = s.mode := by rw [hg.same]
  unfold ScallopStream.partialRecord
  rw [hmode]
  cases hs : s.mode with
  | length => exact hg.filled
  | body =>
    dsimp only
    rw [hg.length, hg.filled, List.append_assoc]
  | read => exact absurd hs hm

theorem Receives.grow (h : s.Receives log handed got) (hg : Grown s s' bs) :
    s'.Receives log (handed ++ bs) got := by
  by_cases hm : s.mode = .read
  · obtain ⟨rfl, rfl⟩ := hg.eq_of_full (h.shaped.read hm).1
    rwa [List.append_nil]
  have hmode : s'.mode = s.mode := by rw [hg.same]
  have hnoise : s'.noise = s.noise := by rw [hg.same]
  refine ⟨hnoise ▸ h.opened, ?_, ?_, ⟨hg.pending, ?_, ?_, ?_⟩⟩
  · rw [held_eq_nil (hmode ▸ hm), hnoise, ← h.got, held_eq_nil hm]
  · rw [hg.partialRecord hm, hnoise, h.handed, List.append_assoc]
  · intro hlen
    rw [hg.length]
    exact h.shaped.length (hmode ▸ hlen)
  · intro hbody
    rw [hg.length]
    exact h.shaped.body (hmode ▸ hbody)
  · intro hread
    exact absurd (hmode ▸ hread) hm

theorem Receives.serve (h : s.Receives log handed got) (hm : s.mode = .read) (capacity : ℕ)
    (taken : Bytes) :
    (s.serve capacity taken).stream.Receives log handed (got ++ (s.serve capacity taken).out) := by
  obtain ⟨hp, hstart, hend⟩ := h.shaped.read hm
  have hgot := h.got
  have hhanded := h.handed
  simp only [ScallopStream.held, ScallopStream.partialRecord, hm] at hgot hhanded
  unfold ScallopStream.serve
  split
  next hpart =>
    refine ⟨h.opened, ?_, ?_, ⟨h.shaped.pending, h.shaped.length, h.shaped.body, ?_⟩⟩
    · simp only [ScallopStream.held, hm]
      rw [← hgot, List.append_assoc, ← List.drop_drop]
      congr 1
      have hsplit : s.readEnd - s.readStart =
          capacity + (s.readEnd - (s.readStart + capacity)) := by omega
      rw [hsplit, List.take_add]
    · simpa only [ScallopStream.partialRecord, hm] using hhanded
    · intro _
      exact ⟨hp, by dsimp only; omega, hend⟩
  next =>
    refine ⟨h.opened, ?_, ?_, ⟨Nat.le_refl 2, fun _ => rfl, nofun, nofun⟩⟩
    · simpa only [ScallopStream.held, List.append_nil] using hgot
    · exact hhanded

/-- Only the next message of the peer is opened, and it is the record that has arrived. -/
theorem Receives.openBody (h : s.Receives log handed got) (hm : s.mode = .body)
    (hp : s.pending = 0) (capacity : ℕ) (taken : Bytes) :
    (s.openBody (Aead.opener log) capacity taken).stream.Receives log handed
      (got ++ (s.openBody (Aead.opener log) capacity taken).out) := by
  have hgot := h.got
  have hhanded := h.handed
  simp only [ScallopStream.held, ScallopStream.partialRecord, ScallopStream.filled, hm, hp,
    Nat.sub_zero, List.take_length, List.append_nil] at hgot hhanded
  unfold ScallopStream.openBody Aead.opener
  dsimp only
  cases hmsg : log[s.noise]? with
  | none =>
    dsimp only
    rw [List.append_nil]
    exact h
  | some m =>
    obtain ⟨payload, sent⟩ := m
    dsimp only
    by_cases hok : s.rbuf = sent ∧ payload.length ≤ s.rbuf.length
    · obtain ⟨rfl, hlen⟩ := hok
      rw [if_pos ⟨rfl, hlen⟩]
      dsimp only
      refine Receives.serve ⟨?_, ?_, ?_, ⟨?_, ReadMode.noConfusion, ReadMode.noConfusion, ?_⟩⟩ rfl
        capacity taken
      · exact (List.getElem?_eq_some_iff.1 hmsg).1
      · simp only [ScallopStream.held, List.drop_zero, Nat.sub_zero, List.take_left]
        rw [plaintext_take_succ hmsg, ← hgot]
      · rw [wireBytes_take_succ hmsg, hhanded]
        simp only [ScallopStream.partialRecord, recordBytes, List.append_nil]
      · dsimp only
        omega
      · intro _
        refine ⟨hp, Nat.zero_le _, ?_⟩
        dsimp only
        rw [List.length_append]
        omega
    · rw [if_neg hok]
      dsimp only
      rw [List.append_nil]
      exact h

theorem Receives.parseLength (h : s.Receives log handed got) (hm : s.mode = .length)
    (hp : s.pending = 0) : s.parseLength.Receives log handed got := by
  have hlen := h.shaped.length hm
  have hgot := h.got
  have hhanded := h.handed
  simp only [ScallopStream.held, ScallopStream.partialRecord, ScallopStream.filled, hm, hp,
    Nat.sub_zero, List.take_length] at hgot hhanded
  refine ⟨h.opened, hgot, ?_, ⟨?_, nofun, ?_, nofun⟩⟩
  · rw [hhanded]
    simp only [ScallopStream.parseLength, ScallopStream.partialRecord, ScallopStream.filled,
      List.length_replicate, Nat.sub_self, List.take_zero, List.append_nil]
    have htake : s.rbuf.take 2 = s.rbuf := List.take_of_length_le (Nat.le_of_eq hlen)
    rw [htake, u16ToBe_fromBe hlen]
  · simp only [ScallopStream.parseLength, List.length_replicate]
    exact Nat.le_refl _
  · intro _
    simp only [ScallopStream.parseLength, List.length_replicate]
    exact u16FromBe_lt _

theorem serve_taken {S : Type} (s : ScallopStream S) (capacity : ℕ) (taken : Bytes) :
    (s.serve capacity taken).taken = taken ∧ (s.serve capacity taken).stopped = false := by
  unfold ScallopStream.serve
  split <;> exact ⟨rfl, rfl⟩

theorem openBody_taken {S : Type} (n : Noiser S) (s : ScallopStream S) (capacity : ℕ)
    (taken : Bytes) :
    (s.openBody n capacity taken).taken = taken ∧
      (s.openBody n capacity taken).stopped = false := by
  unfold ScallopStream.openBody
  split
  · exact ⟨rfl, rfl⟩
  · exact serve_taken _ capacity taken

/-- One poll keeps the receiver in step, and one that stops at the base stream waits for it. -/
theorem Receives.pollRead (h : s.Receives log handed got) (capacity : ℕ)
    (script : List ReadAnswer) :
    (s.pollRead (Aead.opener log) capacity script).stream.Receives log
        (handed ++ (s.pollRead (Aead.opener log) capacity script).taken)
        (got ++ (s.pollRead (Aead.opener log) capacity script).out) ∧
      ((s.pollRead (Aead.opener log) capacity script).stopped = true →
        (s.pollRead (Aead.opener log) capacity script).stream.pending ≠ 0) := by
  have hfill := fill_grown h.shaped.pending [] script
  unfold ScallopStream.pollRead
  cases hf : s.fill [] script with
  | stop s₁ poll taken₁ =>
    rw [hf] at hfill
    obtain ⟨bs, rfl, hg, hp⟩ := hfill
    exact ⟨(List.append_nil got).symm ▸ h.grow hg, fun _ => hp⟩
  | full s₁ rest taken₁ =>
    rw [hf] at hfill
    obtain ⟨bs, rfl, hg, hp⟩ := hfill
    have h₁ := h.grow hg
    dsimp only
    cases hm : s₁.mode with
    | read =>
      obtain ⟨htaken, hstop⟩ := serve_taken s₁ capacity taken₁
      refine ⟨?_, fun hs => absurd (hstop.symm.trans hs) Bool.false_ne_true⟩
      rw [htaken]
      exact h₁.serve hm capacity taken₁
    | body =>
      obtain ⟨htaken, hstop⟩ := openBody_taken (Aead.opener log) s₁ capacity taken₁
      refine ⟨?_, fun hs => absurd (hstop.symm.trans hs) Bool.false_ne_true⟩
      rw [htaken]
      exact h₁.openBody hm hp capacity taken₁
    | length =>
      -- the loop goes on with the body, which may not have arrived either
      have h₂ := h₁.parseLength hm hp
      have hfill := fill_grown h₂.shaped.pending taken₁ rest
      cases hf : s₁.parseLength.fill taken₁ rest with
      | stop s₂ poll taken₂ =>
        rw [hf] at hfill
        obtain ⟨more, rfl, hg, hp⟩ := hfill
        refine ⟨?_, fun _ => hp⟩
        dsimp only
        rw [List.append_nil, ← List.append_assoc]
        exact h₂.grow hg
      | full s₂ rest' taken₂ =>
        rw [hf] at hfill
        obtain ⟨more, rfl, hg, hp⟩ := hfill
        have hm₂ : s₂.mode = .body := by rw [hg.same]; rfl
        obtain ⟨htaken, hstop⟩ := openBody_taken (Aead.opener log) s₂ capacity (taken₁ ++ more)
        refine ⟨?_, fun hs => absurd (hstop.symm.trans hs) Bool.false_ne_true⟩
        dsimp only
        rw [htaken, ← List.append_assoc]
        exact (h₂.grow hg).openBody hm₂ hp capacity (taken₁ ++ more)

theorem partialRecord_ne {S : Type} {s : ScallopStream S} (hshaped : s.Shaped)
    (hp : s.pending ≠ 0) {log : Messages} (hshort : ∀ m ∈ log, m.2.length < 65536)
    (h : s.partialRecord = wireBytes log) : log = [] := by
  cases log with
  | nil => rfl
  | cons m log =>
    have hm := hshort m List.mem_cons_self
    have hfilled := s.filled_length
    have hpending := hshaped.pending
    simp only [wireBytes, List.map_cons, List.flatten_cons, recordBytes] at h
    unfold ScallopStream.partialRecord at h
    cases hmode : s.mode with
    | length =>
      -- less than the two bytes of a length have arrived
      rw [hmode] at h
      have hlen := congrArg List.length h
      simp only [List.length_append, u16ToBe_length, hfilled, hshaped.length hmode] at hlen
      omega
    | body =>
      -- the lengths are the same, and the body is not full
      rw [hmode, List.append_assoc] at h
      obtain ⟨hhead, htail⟩ := List.append_inj h rfl
      have hsame := congrArg u16FromBe hhead
      rw [u16FromBe_toBe (hshaped.body hmode), u16FromBe_toBe hm] at hsame
      have hlen := congrArg List.length htail
      rw [List.length_append, hfilled] at hlen
      omega
    | read => exact absurd (hshaped.read hmode).1 hp

end Receive

end ScallopStream

/-- Calls on the two streams, with what the base streams and the callers give to each. -/
inductive Call where
  | write (buf : Bytes) (script : List WriteAnswer) (flush : Poll Unit)
  | flush (script : List WriteAnswer) (flush : Poll Unit)
  | shutdown (script : List WriteAnswer) (flush shutdown : Poll Unit)
  | read (capacity : ℕ) (script : List ReadAnswer)

def Call.isWrite : Call → Bool
  | .write .. => true
  | _ => false

/-- A sender and a receiver, with all that went in and out of each. -/
structure Session where
  sender : ScallopStream Messages := .new []
  accepted : Bytes := []
  sent : Bytes := []
  receiver : ScallopStream ℕ := .new 0
  handed : Bytes := []
  got : Bytes := []
  /-- the last read ended at the base stream -/
  readToEnd : Bool := false

namespace Session

def step (a : Aead) (s : Session) : Call → Session
  | .write buf script flush =>
    let r := s.sender.pollWrite a.sealer buf script flush
    { s with
      sender := r.stream
      accepted := s.accepted ++ ScallopStream.acceptedOf buf r.poll
      sent := s.sent ++ r.sent }
  | .flush script flush =>
    let r := s.sender.pollFlush script flush
    { s with sender := r.stream, sent := s.sent ++ r.sent }
  | .shutdown script flush shutdown =>
    let r := s.sender.pollShutdown script flush shutdown
    { s with sender := r.stream, sent := s.sent ++ r.sent }
  | .read capacity script =>
    let r := s.receiver.pollRead (Aead.opener s.sender.noise) capacity script
    { s with
      receiver := r.stream
      handed := s.handed ++ r.taken
      got := s.got ++ r.out
      readToEnd := r.stopped }

def run (a : Aead) (calls : List Call) : Session := calls.foldl (step a) {}

/-- The sender has nothing left to give to its base stream. -/
def Flushed (s : Session) : Prop := s.sender.writeStart = s.sender.writeEnd

/-- A `poll_flush` or a `poll_shutdown` that returns `Ready`. -/
def Completes (s : Session) : Call → Prop
  | .flush script flush => (s.sender.pollFlush script flush).poll = .ready ()
  | .shutdown script flush shutdown =>
    (s.sender.pollShutdown script flush shutdown).poll = .ready ()
  | _ => False

theorem Completes.flushed {a : Aead} {s : Session} {call : Call} (h : s.Completes call) :
    (s.step a call).Flushed := by
  cases call with
  | flush script flush => exact ScallopStream.pollFlush_ready s.sender script flush h
  | shutdown script flush shutdown =>
    exact ScallopStream.pollShutdown_ready s.sender script flush shutdown h
  | write | read => exact h.elim

theorem Flushed.foldl {a : Aead} {s : Session} (h : s.Flushed) {calls : List Call}
    (hcalls : ∀ call ∈ calls, call.isWrite = false) : (calls.foldl (step a) s).Flushed := by
  induction calls generalizing s with
  | nil => exact h
  | cons call calls ih =>
    obtain ⟨hcall, hcalls⟩ := List.forall_mem_cons.1 hcalls
    refine ih ?_ hcalls
    cases call with
    | write => cases hcall
    | flush script flush =>
      change (s.sender.pollFlush script flush).stream.writeStart =
        (s.sender.pollFlush script flush).stream.writeEnd
      rw [ScallopStream.pollFlush_flushed h]
      exact h
    | shutdown script flush shutdown =>
      change (s.sender.pollShutdown script flush shutdown).stream.writeStart =
        (s.sender.pollShutdown script flush shutdown).stream.writeEnd
      rw [ScallopStream.pollShutdown_flushed h]
      exact h
    | read => exact h

structure Good (s : Session) : Prop where
  sends : s.sender.Sends s.accepted s.sent
  receives : s.receiver.Receives s.sender.noise s.handed s.got
  waits : s.readToEnd = true → s.receiver.pending ≠ 0

theorem Good.start : Good {} where
  sends := ⟨rfl, rfl, nofun, Nat.le_refl 0, Nat.le_refl 0⟩
  receives := ⟨Nat.le_refl 0, rfl, rfl, ⟨Nat.le_refl 2, fun _ => rfl, nofun, nofun⟩⟩
  waits := nofun

theorem Good.step (a : Aead) {s : Session} (h : s.Good) (call : Call) : (s.step a call).Good := by
  cases call with
  | write buf script flush =>
    obtain ⟨more, hlog⟩ := ScallopStream.pollWrite_noise a s.sender buf script flush
    refine ⟨h.sends.pollWrite a buf script flush, ?_, h.waits⟩
    dsimp only [Session.step]
    rw [← hlog]
    exact h.receives.log_append more
  | flush script flush =>
    refine ⟨h.sends.pollFlush script flush, ?_, h.waits⟩
    dsimp only [Session.step]
    rw [ScallopStream.pollFlush_noise]
    exact h.receives
  | shutdown script flush shutdown =>
    refine ⟨h.sends.pollShutdown script flush shutdown, ?_, h.waits⟩
    dsimp only [Session.step]
    rw [ScallopStream.pollShutdown_noise]
    exact h.receives
  | read capacity script =>
    obtain ⟨hr, hstop⟩ := h.receives.pollRead capacity script
    exact ⟨h.sends, hr, hstop⟩

theorem Good.foldl (a : Aead) {s : Session} (h : s.Good) (calls : List Call) :
    (calls.foldl (Session.step a) s).Good := by
  induction calls generalizing s with
  | nil => exact h
  | cons call calls ih => exact ih (h.step a call)

theorem good_run (a : Aead) (calls : List Call) : (run a calls).Good :=
  Good.start.foldl a calls

theorem Good.got_accepted {s : Session} (h : s.Good) : s.got <+: s.accepted := by
  have hheld := List.prefix_append s.got s.receiver.held
  rw [h.receives.got] at hheld
  rw [← h.sends.accepted]
  exact hheld.trans (plaintext_take_isPrefix _ _)

theorem Good.got_all {s : Session} (h : s.Good) (hflushed : s.Flushed) (hhanded : s.handed = s.sent)
    (hread : s.readToEnd = true) : s.got = s.accepted := by
  have hwaits := h.waits hread
  have hwire := h.sends.wire
  rw [ScallopStream.queued_eq_nil hflushed, List.append_nil, ← hhanded, h.receives.handed] at hwire
  -- the messages that are not opened make up the part of a record that has arrived
  nth_rewrite 2 [← List.take_append_drop s.receiver.noise s.sender.noise] at hwire
  rw [wireBytes_append] at hwire
  have hrest : s.sender.noise.drop s.receiver.noise = [] := by
    have hpart := List.append_cancel_left hwire
    refine ScallopStream.partialRecord_ne h.receives.shaped hwaits ?_ hpart
    intro m hm
    exact h.sends.short m (List.mem_of_mem_drop hm)
  have hheld : s.receiver.held = [] :=
    ScallopStream.held_eq_nil fun hm => hwaits (h.receives.shaped.read hm).1
  have hgot := h.receives.got
  rw [hheld, List.append_nil] at hgot
  rw [hgot, ← h.sends.accepted]
  nth_rewrite 2 [← List.take_append_drop s.receiver.noise s.sender.noise]
  rw [hrest, List.append_nil]

end Session

open Session

/-- The receiver returns a part of what the sender accepted, from its start, and all of it once
the sender is flushed and what it sent has arrived and been read to the end. The sender is flushed
once a `poll_flush` or a `poll_shutdown` has returned `Ready` and nothing is written after that. -/
theorem stream_integrity (a : Aead) (calls : List Call) :
    (run a calls).got <+: (run a calls).accepted ∧
      ((run a calls).Flushed → (run a calls).handed = (run a calls).sent →
        (run a calls).readToEnd = true → (run a calls).got = (run a calls).accepted) ∧
      ∀ before call after, calls = before ++ call :: after → (run a before).Completes call →
        (∀ later ∈ after, later.isWrite = false) → (run a calls).handed = (run a calls).sent →
        (run a calls).readToEnd = true → (run a calls).got = (run a calls).accepted := by
  have hgood := good_run a calls
  refine ⟨hgood.got_accepted, hgood.got_all, fun before call after hcalls hcall hafter => ?_⟩
  refine hgood.got_all ?_
  have hflushed : (after.foldl (step a) ((run a before).step a call)).Flushed :=
    hcall.flushed.foldl hafter
  rwa [hcalls, run, List.foldl_append, List.foldl_cons]

def zeroTag : Aead where
  encrypt _ p := p ++ List.replicate 16 0
  length_encrypt _ _ := by simp

def threeBytes : List Call :=
  let wire := u16ToBe 19 ++ [7, 8, 9] ++ List.replicate 16 0
  [.write [7, 8, 9] [] (.ready ()), .flush [.accepted 1, .pending] (.ready ()),
    .flush [.accepted 40] (.ready ()), .read 5 [.data (wire.take 2), .data ((wire.drop 2).take 4)],
    .read 2 [.data (wire.drop 6)], .read 2 [], .read 2 [.pending]]

/-- The second flush of them returns `Ready`. -/
theorem stream_integrity_threeBytes :
    (run zeroTag threeBytes).got = [7, 8, 9] ∧
      (run zeroTag threeBytes).got = (run zeroTag threeBytes).accepted :=
  ⟨by rfl, (stream_integrity zeroTag threeBytes).2.2 (threeBytes.take 2) _ (threeBytes.drop 3) rfl
    (by rfl) (by decide) (by rfl) (by rfl)⟩

end Oyster.Scallop
