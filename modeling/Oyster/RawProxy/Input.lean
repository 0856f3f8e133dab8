import Oyster.Lib.Run
import Oyster.RawProxy.Receiver

namespace Oyster.RawProxy

/-- Bytes that `handle_conn` takes for a packet. -/
structure IsFrame (p : List UInt8) : Prop where
  length : p.length = totalLength p
  head : 4 ≤ p.length

theorem IsFrame.length_le {p : List UInt8} (h : IsFrame p) : p.length ≤ 65535 := by
  rw [h.length]
  exact totalLength_le p

theorem IsFrame.totalLength_append {p : List UInt8} (h : IsFrame p) (rest : List UInt8) :
    totalLength (p ++ rest) = p.length := by
  rw [h.length]
  apply totalLength_congr
  rw [List.take_append_of_le_length h.head]

/-- Bytes are frames in one way only. -/
theorem frames_unique {ps qs : List (List UInt8)} {p q : List UInt8} (hps : ∀ p ∈ ps, IsFrame p)
    (hqs : ∀ q ∈ qs, IsFrame q) (hp : IsFrame p) (hq : IsFrame q)
    (h : ps.flatten ++ p = qs.flatten ++ q) : ps = qs ∧ p = q := by
  -- the first frame of either side is as long as the total length of all the bytes says
  have hfirst {a b x y : List UInt8} (ha : IsFrame a) (hb : IsFrame b) (hab : a ++ x = b ++ y) :
      a = b ∧ x = y := by
    have hlen := ha.totalLength_append x
    rw [hab, hb.totalLength_append] at hlen
    exact List.append_inj hab hlen.symm
  have hne {a : List UInt8} (ha : IsFrame a) : a ≠ [] := by
    intro hnil
    have hhead := ha.head
    simp [hnil] at hhead
  induction ps generalizing qs with
  | nil =>
    cases qs with
    | nil => exact ⟨rfl, h⟩
    | cons b qs =>
      have hb := hqs b List.mem_cons_self
      rw [List.flatten_nil, List.nil_append, List.flatten_cons, List.append_assoc,
        ← List.append_nil p] at h
      have hrest := (hfirst hp hb h).2
      exact absurd (List.append_eq_nil_iff.1 hrest.symm).2 (hne hq)
  | cons a ps ih =>
    have ha := hps a List.mem_cons_self
    cases qs with
    | nil =>
      rw [List.flatten_nil, List.nil_append, List.flatten_cons, List.append_assoc,
        ← List.append_nil q] at h
      have hrest := (hfirst ha hq h).2
      exact absurd (List.append_eq_nil_iff.1 hrest).2 (hne hp)
    | cons b qs =>
      have hb := hqs b List.mem_cons_self
      rw [List.flatten_cons, List.flatten_cons, List.append_assoc, List.append_assoc] at h
      obtain ⟨rfl, hrest⟩ := hfirst ha hb h
      obtain ⟨rfl, rfl⟩ := ih (fun p hp => hps p (List.mem_cons_of_mem _ hp))
        (fun q hq => hqs q (List.mem_cons_of_mem _ hq)) hrest
      exact ⟨rfl, rfl⟩

/-- The buffer after some frames. -/
def leftIn (ps : List (List UInt8)) : List UInt8 :=
  ps.foldl (fun buf p => p ++ buf.drop p.length) (List.replicate 65535 0)

theorem leftIn_concat (ps : List (List UInt8)) (p : List UInt8) :
    leftIn (ps ++ [p]) = p ++ (leftIn ps).drop p.length := by
  rw [leftIn, List.foldl_append]
  rfl

def ReceiverAction.received : ReceiverAction → List UInt8
  | .receive chunk _ => chunk
  | .silent | .accept | .sendTo _ => []

def received (es : List ReceiverAction) : List UInt8 := es.flatMap ReceiverAction.received

theorem received_append (es es' : List ReceiverAction) :
    received (es ++ es') = received es ++ received es' :=
  List.flatMap_append

theorem received_concat (es : List ReceiverAction) (e : ReceiverAction) :
    received (es ++ [e]) = received es ++ e.received := by
  rw [received_append]
  simp [received]

def ReceiverAction.isAccept : ReceiverAction → Bool
  | .accept => true
  | .silent | .receive _ _ | .sendTo _ => false

structure Connected (d : Direction) (es : List ReceiverAction) (s : ReceiverPoint) : Prop where
  run : Run (Receiver.Step d) handleConn es s
  same : ∀ e ∈ es, e.isAccept = false

/-- Frames have come in, and the bytes `part` of one more; `buf` has these over what was there. -/
structure Filled (d : Direction) (es : List ReceiverAction) (ps : List (List UInt8))
    (part buf : List UInt8) : Prop where
  frames : ∀ p ∈ ps, IsFrame p
  received : received es = ps.flatten ++ part
  length : buf.length = 65535
  buffer : buf.take part.length = part
  /-- only an error on the raw socket clears the buffer -/
  behind : ∀ ifaddr, d = .outgoing ifaddr → buf = part ++ (leftIn ps).drop part.length

def Located (d : Direction) (es : List ReceiverAction) : ReceiverPoint → Prop
  | .read buf got => ∃ ps part, part.length = got ∧ Filled d es ps part buf ∧
      (4 ≤ got → 4 ≤ totalLength buf ∧ got < totalLength buf)
  | .send buf size totalSent => ∃ ps p, (∀ p ∈ ps, IsFrame p) ∧ IsFrame p ∧
      received es = ps.flatten ++ p ∧ buf.length = 65535 ∧ size = p.length ∧ totalSent < size ∧
      buf.take size = p ∧ d.forwards buf = true ∧
      ∀ ifaddr, d = .outgoing ifaddr → buf = leftIn (ps ++ [p])
  | .openIp => (∃ ip, d = .incoming ip) ∧ ∃ ps, (∀ p ∈ ps, IsFrame p) ∧
    received es = List.flatten ps
  | .accept | .panicked => True

section

variable {d : Direction} {es : List ReceiverAction} {ps : List (List UInt8)}
  {part buf chunk : List UInt8} {n : ℕ}

theorem Filled.receive (h : Filled d es ps part buf) (packet : Option (List UInt8))
    (hle : part.length + chunk.length ≤ 65535) :
    Filled d (es ++ [.receive chunk packet]) ps (part ++ chunk)
      (readInto buf part.length chunk) where
  frames := h.frames
  received := by
    rw [received_concat, h.received, List.append_assoc]
    rfl
  length := by
    have hlen := h.length
    rw [length_readInto (by omega), h.length]
  buffer := by
    have hlen := h.length
    rw [List.length_append, take_readInto (by omega), h.buffer]
  behind := fun ifaddr hd => by
    have hbehind := h.behind ifaddr hd
    rw [readInto, h.buffer, List.length_append]
    congr 1
    rw [hbehind, List.drop_append, List.drop_drop, List.drop_eq_nil_of_le (Nat.le_add_right _ _),
      List.nil_append]
    congr 1
    omega

theorem Filled.totalLength (h : Filled d es ps part buf) (hfour : 4 ≤ part.length) :
    totalLength buf = totalLength part := by
  apply totalLength_congr
  rw [← h.buffer, List.take_take, Nat.min_eq_left hfour]

theorem Filled.concat (h : Filled d es ps part buf) (hpart : IsFrame part) :
    Filled d es (ps ++ [part]) [] buf where
  frames := by
    intro p hp
    rcases List.mem_append.1 hp with hp | hp
    · exact h.frames p hp
    · rwa [List.mem_singleton.1 hp]
  received := by
    rw [h.received, List.flatten_append, List.flatten_singleton, List.append_nil]
  length := h.length
  buffer := rfl
  behind := fun ifaddr hd => by
    rw [leftIn_concat, ← h.behind ifaddr hd]
    rfl

theorem Filled.advance (h : Filled d es ps part buf)
    (hle : 4 ≤ part.length → 4 ≤ RawProxy.totalLength buf →
      part.length ≤ RawProxy.totalLength buf) :
    Located d es (advance d buf part.length).1 := by
  unfold RawProxy.advance
  dsimp only
  by_cases hfour : part.length < 4
  · rw [if_pos hfour]
    exact ⟨ps, part, rfl, h, fun hge => by omega⟩
  · rw [if_neg hfour]
    by_cases hshort : RawProxy.totalLength buf < 4
    · rw [if_pos hshort]
      trivial
    · rw [if_neg hshort]
      by_cases hmore : part.length < RawProxy.totalLength buf
      · rw [if_pos hmore]
        exact ⟨ps, part, rfl, h, fun _ => ⟨by omega, hmore⟩⟩
      · rw [if_neg hmore]
        have hend : RawProxy.totalLength buf = part.length := by
          have := hle (by omega) (by omega)
          omega
        have hframe : IsFrame part :=
          ⟨by rw [← h.totalLength (by omega), hend], by omega⟩
        by_cases hf : d.forwards buf = true
        · rw [if_pos hf, sendToLoop, if_pos (by omega)]
          refine ⟨ps, part, h.frames, hframe, h.received, h.length, hend, by omega, ?_, hf, ?_⟩
          · rw [hend, h.buffer]
          · intro ifaddr hd
            rw [leftIn_concat, h.behind ifaddr hd]
        · rw [if_neg hf]
          exact ⟨ps ++ [part], [], rfl, h.concat hframe, fun hge => by simp at hge⟩

/-- What one step does to where the receiver is. -/
theorem located_step {s s' : ReceiverPoint} {e : ReceiverAction} (h : Located d es s)
    (hst : Receiver.Step d s e s') (he : e.isAccept = false) : Located d (es ++ [e]) s' := by
  cases hst with
  | accept => cases he
  | openIp =>
    obtain ⟨⟨ip, rfl⟩, ps, hps, hreceived⟩ := h
    refine ⟨ps, [], rfl, ⟨hps, ?_, List.length_replicate, rfl, nofun⟩, fun hge => by simp at hge⟩
    rw [received_concat, hreceived]
    rfl
  | @receive buf got chunk hne hwanted =>
    obtain ⟨ps, part, rfl, hfilled, hgot⟩ := h
    have hmax := totalLength_le buf
    have hle : part.length + chunk.length ≤ 65535 := by
      unfold wanted at hwanted
      split at hwanted
      · omega
      · omega
    have hfilled' := hfilled.receive 
      (advance d (readInto buf part.length chunk) (part.length + chunk.length)).2 hle
    rw [← List.length_append] at hfilled' ⊢
    refine hfilled'.advance fun hfour hsize => ?_
    rw [List.length_append] at hfour ⊢
    unfold wanted at hwanted
    split at hwanted
    · omega
    · -- the total length is in the part already
      have hsame : totalLength (readInto buf part.length chunk) = totalLength buf := by
        rw [hfilled'.totalLength (by rw [List.length_append]; omega),
          hfilled.totalLength (by omega)]
        apply totalLength_congr
        rw [List.take_append_of_le_length (by omega)]
      have hlt := (hgot (by omega)).2
      omega
  | readFailed => trivial
  | @send buf size totalSent sent hsent =>
    obtain ⟨ps, p, hps, hp, hreceived, hlen, hsize, hlt, hbuf, hf, hbehind⟩ := h
    have hreceived' : received (es ++ [.sendTo ((buf.take size).drop totalSent)]) =
        ps.flatten ++ p := by
      rw [received_concat, hreceived]
      exact List.append_nil _
    unfold sendToLoop
    split
    · rename_i hmore
      exact ⟨ps, p, hps, hp, hreceived', hlen, hsize, hmore, hbuf, hf, hbehind⟩
    · refine ⟨ps ++ [p], [], rfl, ⟨?_, ?_, hlen, rfl, hbehind⟩, fun hge => by simp at hge⟩
      · exact List.forall_mem_append.2 ⟨hps, List.forall_mem_singleton.2 hp⟩
      · rw [hreceived', List.flatten_append, List.flatten_singleton, List.append_nil]
  | @sendFailed buf size totalSent =>
    obtain ⟨ps, p, hps, hp, hreceived, _⟩ := h
    cases d with
    | outgoing ifaddr => trivial
    | incoming ip =>
      refine ⟨⟨ip, rfl⟩, ps ++ [p], ?_, ?_⟩
      · exact List.forall_mem_append.2 ⟨hps, List.forall_mem_singleton.2 hp⟩
      · rw [received_concat, hreceived, List.flatten_append, List.flatten_singleton]
        exact List.append_nil _

theorem located_start (d : Direction) : Located d [] handleConn :=
  ⟨[], [], rfl, ⟨nofun, rfl, List.length_replicate, rfl, fun _ _ => rfl⟩, fun hge => by simp at hge⟩

def LocatedHere (d : Direction) (es : List ReceiverAction) (s : ReceiverPoint) : Prop :=
  (∀ e ∈ es, e.isAccept = false) → Located d es s

theorem Connected.located {s : ReceiverPoint} (h : Connected d es s) : Located d es s := by
  have hstep (hist : List ReceiverAction) (s : ReceiverPoint) (e : ReceiverAction)
      (s' : ReceiverPoint) (hs : LocatedHere d hist s) (hst : Receiver.Step d s e s') :
      LocatedHere d (hist ++ [e]) s' := by
    intro hall
    have hbefore := hs fun e' he' => hall e' (List.mem_append_left _ he')
    exact located_step hbefore hst (hall e (List.mem_append_right _ List.mem_cons_self))
  have hstart : LocatedHere d [] handleConn := fun _ => located_start d
  exact h.run.history hstep hstart h.same

theorem Connected.append {es' : List ReceiverAction} {s s' : ReceiverPoint}
    (h : Connected d es s) (hrun : Run (Receiver.Step d) s es' s')
    (hsame : ∀ e ∈ es', e.isAccept = false) : Connected d (es ++ es') s' :=
  ⟨h.run.append hrun, List.forall_mem_append.2 ⟨h.same, hsame⟩⟩

def judged (d : Direction) (p buf : List UInt8) : ReceiverPoint :=
  if d.forwards buf then .send buf p.length 0 else .read buf 0

theorem advance_frame {p : List UInt8} (hp : IsFrame p) (rest : List UInt8) :
    (advance d (p ++ rest) p.length).1 = judged d p (p ++ rest) := by
  have hhead := hp.head
  unfold advance
  dsimp only
  have hpos : 0 < p.length := by omega
  rw [hp.totalLength_append, if_neg (by omega), if_neg (by omega), if_neg (Nat.lt_irrefl _),
    sendToLoop, if_pos hpos]
  rfl

theorem readInto_append {x y c : List UInt8} (hx : x.length = n) :
    readInto (x ++ y) n c = x ++ c ++ y.drop c.length := by
  subst hx
  rw [readInto, List.take_left, List.drop_append, List.drop_of_length_le (Nat.le_add_right _ _),
    List.nil_append, Nat.add_sub_cancel_left]

theorem receive_frame {p : List UInt8} (hp : IsFrame p) :
    ∃ es, Run (Receiver.Step d) (.read buf 0) es (judged d p (p ++ buf.drop p.length)) ∧
      received es = p ∧ ∀ e ∈ es, e.isAccept = false := by
  have hhead := hp.head
  have hfour : (p.take 4).length = 4 := by
    rw [List.length_take]
    omega
  have hne : p.take 4 ≠ [] := by
    intro hnil
    rw [hnil] at hfour
    cases hfour
  have hfirst : readInto buf 0 (p.take 4) = p.take 4 ++ buf.drop 4 := by
    rw [readInto, hfour]
    rfl
  have hwanted : (p.take 4).length ≤ wanted buf 0 := hfour.le
  have hst₁ := Receiver.Step.receive (d := d) hne hwanted
  rw [hfirst, hfour] at hst₁
  by_cases hall : p.length = 4
  · -- the frame is its header
    have htake : p.take 4 = p := List.take_of_length_le hall.le
    rw [htake, ← hall, Nat.zero_add, advance_frame hp] at hst₁
    exact ⟨_, .cons hst₁ (.nil _), List.append_nil p, by simp [ReceiverAction.isAccept]⟩
  · have hsize : totalLength (p.take 4 ++ buf.drop 4) = p.length := by
      rw [hp.length]
      apply totalLength_congr
      rw [List.take_append_of_le_length (by omega), List.take_take, Nat.min_self]
    have hadvance : (advance d (p.take 4 ++ buf.drop 4) 4).1 =
        .read (p.take 4 ++ buf.drop 4) 4 := by
      unfold advance
      dsimp only
      rw [hsize, if_neg (by omega), if_neg (by omega), if_pos (by omega)]
    rw [Nat.zero_add, hadvance] at hst₁
    have hrest : (p.drop 4).length ≤ wanted (p.take 4 ++ buf.drop 4) 4 := by
      rw [wanted, if_neg (by omega), hsize, List.length_drop]
    have hne' : p.drop 4 ≠ [] := by
      intro hnil
      have hlen := List.drop_eq_nil_iff.1 hnil
      omega
    have hst₂ := Receiver.Step.receive (d := d) hne' hrest
    have hsecond : readInto (p.take 4 ++ buf.drop 4) 4 (p.drop 4) = p ++ buf.drop p.length := by
      rw [readInto_append hfour, List.take_append_drop, List.length_drop, List.drop_drop]
      congr 2
      omega
    have hlen : 4 + (p.drop 4).length = p.length := by
      rw [List.length_drop]
      omega
    rw [hsecond, hlen, advance_frame hp] at hst₂
    refine ⟨_, .cons hst₁ (.cons hst₂ (.nil _)), ?_, by simp [ReceiverAction.isAccept]⟩
    show p.take 4 ++ (p.drop 4 ++ []) = p
    rw [List.append_nil, List.take_append_drop]

/-- Every sequence of frames can come in, with all of those that pass sent. -/
theorem receive_frames {ps : List (List UInt8)} (hps : ∀ p ∈ ps, IsFrame p) :
    ∃ es, Connected d es (.read (leftIn ps) 0) ∧ received es = ps.flatten := by
  induction ps using List.reverseRecOn with
  | nil => exact ⟨[], ⟨.nil _, nofun⟩, rfl⟩
  | append_singleton ps p ih =>
    obtain ⟨hps, hp⟩ := List.forall_mem_append.1 hps
    obtain ⟨es, hconn, hreceived⟩ := ih hps
    have hframe := hp p List.mem_cons_self
    obtain ⟨es', hrun, hp', hsame⟩ := @receive_frame d (leftIn ps) p hframe
    have hboth := hconn.append hrun hsame
    rw [← leftIn_concat] at hboth
    have hreceived' : received (es ++ es') = (ps ++ [p]).flatten := by
      rw [received_append, hreceived, hp', List.flatten_append, List.flatten_singleton]
    by_cases hf : d.forwards (leftIn (ps ++ [p])) = true
    · rw [judged, if_pos hf] at hboth
      have hsend := @Receiver.Step.send d (leftIn (ps ++ [p])) p.length 0 _ (Nat.le_refl _)
      rw [sendToLoop, if_neg (by omega)] at hsend
      refine ⟨_, hboth.append (.cons hsend (.nil _)) (by simp [ReceiverAction.isAccept]), ?_⟩
      rw [received_append, hreceived']
      exact List.append_nil _
    · rw [judged, if_neg hf] at hboth
      exact ⟨_, hboth, hreceived'⟩

end

end Oyster.RawProxy
