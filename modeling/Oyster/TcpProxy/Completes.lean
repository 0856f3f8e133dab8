import Oyster.TcpProxy.Integrity

namespace Oyster.TcpProxy

open Oyster.Flow

variable {A : Type} {c : Conn A} {n n' : Net A} {e : Event}

/-- The connection can be made: there is an address to dial, something to write first that is as
long as what is read first, and room everywhere. -/
structure Conn.Ready (c : Conn A) : Prop where
  dial : ∃ addr, c.outer.dial c.origDst = some addr
  header : ∃ header, c.outer.header c.origDst = some header
  matched : c.Matched
  upRoom : ∀ i, 0 < c.upRoom i
  downRoom : ∀ i, 0 < c.downRoom i
  hand : (c.inner.headerLen : ℕ∞) ≤ c.upRoom 3

def Goes (c : Conn A) (n : Net A) (e : Event) (n' : Net A) : Prop := e = .goes ∧ Step c n e n'

/-- All that was sent has been received, and the ends as well; both transfers are done once both
ends have finished. -/
structure Delivered (n : Net A) : Prop where
  server : ∃ addr, n.server = some addr
  up : received n.up = n.sentUp
  down : received n.down = n.sentDown
  endUp : closedAt 0 n.up → ended n.up = true
  endDown : closedAt 0 n.down → ended n.down = true
  done : closedAt 0 n.up → closedAt 0 n.down → n.outer = .done ∧ n.inner = .done

structure Caps (c : Conn A) (n : Net A) : Prop where
  up : n.up.map Place.cap =
    [c.upRoom 0, c.upRoom 1, c.upRoom 2, c.upRoom 3, c.upRoom 4, ⊤].take n.up.length
  down : n.down.map Place.cap =
    [c.downRoom 0, c.downRoom 1, c.downRoom 2, c.downRoom 3, c.downRoom 4, ⊤]

theorem caps_start : Caps c c.start := ⟨rfl, rfl⟩

theorem Step.caps (h : Step c n e n') (hs : n'.Sound) (hshape : Shape n) (hcaps : Caps c n) :
    Caps c n' := by
  obtain ⟨hup, hdown⟩ := hcaps
  have hlen := hshape.up
  cases h with
  | clientSends | clientFinishes => exact ⟨by simpa using hup, hdown⟩
  | serverSends | serverFinishes => exact ⟨hup, by simpa using hdown⟩
  | serverReads h | writeHeader _ h | outerUp _ _ h | readHeader _ h | innerUp _ _ h =>
    exact ⟨by rw [h.caps, hup, h.length], hdown⟩
  | clientReads h | outerDown _ _ h | innerDown _ _ h => exact ⟨hup, h.caps.trans hdown⟩
  | headerRead _ h => exact ⟨by rw [h.caps, hup, h.length], hdown⟩
  | dial hout =>
    have hnone := hshape.accepted hout
    rw [hnone, hshape.early (.inl (hshape.undialled hnone))] at hlen
    refine ⟨?_, hdown⟩
    rw [hlen] at hup
    simp [hup, hlen, fresh]
  | connect hin =>
    obtain ⟨addr, haddr⟩ := Option.ne_none_iff_exists'.1 fun hnone => by
      cases hin.symm.trans (hshape.undialled hnone)
    rw [haddr, hshape.early (.inr (.inr ⟨_, hin⟩))] at hlen
    refine ⟨?_, hdown⟩
    rw [hlen] at hup
    simp [hup, hlen, fresh]
  | outerRefused | outerFails => exact absurd rfl hs.1
  | innerRefused | innerFails => exact absurd rfl hs.2
  | _ => exact ⟨hup, hdown⟩

/-- The header is not all written. -/
def Outer.early : Outer → Bool
  | .accepted | .header => true
  | _ => false

def Outer.late : Outer → Bool
  | .copying | .done => true
  | _ => false

def Inner.early : Inner A → Bool
  | .waiting | .header => true
  | _ => false

/-- Before the header has been read, all of it is in the hand of the ip side or behind that, and
once it has been written, behind that. A transfer that is done has shut both of its sockets. -/
structure Placed (c : Conn A) (n : Net A) : Prop where
  undialled : n.dialled = none → n.outer = .accepted ∨ n.outer = .failed
  unread : n.outer.early → n.inner.early → content (n.up.drop 1) = c.first
  written : n.outer.late → n.inner.early → c.first.length ≤ (content (n.up.drop 2)).length
  hand : n.inner.early → n.dialled ≠ none →
    ended n.up = false ∧ (received n.up).length ≤ c.inner.headerLen
  outerDone : n.outer = .done → closedAt 2 n.up ∧ closedAt 4 n.down
  innerDone : n.inner = .done → closedAt 4 n.up ∧ closedAt 2 n.down

theorem placed_start : Placed c c.start where
  undialled _ := .inl rfl
  unread _ _ := rfl
  written := nofun
  hand _ h := absurd rfl h
  outerDone := nofun
  innerDone := nofun

theorem Shape.four (hs : Shape n) (hin : n.inner.early) (hdialled : n.dialled ≠ none) :
    n.up.length = 4 := by
  obtain ⟨addr, haddr⟩ := Option.ne_none_iff_exists'.1 hdialled
  have hserver : n.server = none := by
    refine hs.early ?_
    cases hinner : n.inner with
    | waiting => exact .inl rfl
    | header => exact .inr (.inl rfl)
    | _ => simp [hinner, Inner.early] at hin
  rw [hs.up, haddr, hserver]
  rfl

theorem Step.unread (h : Step c n e n') (hshape : Shape n) (hp : Placed c n)
    (hout : n'.outer.early) (hin : n'.inner.early) : content (n'.up.drop 1) = c.first := by
  cases h with
  | clientSends | clientFinishes => simpa using hp.unread hout hin
  | serverReads h | writeHeader _ h | readHeader _ h =>
    exact (h.content_drop_eq (by decide)).trans (hp.unread hout hin)
  | dial hout' =>
    have hlen := hshape.up
    obtain ⟨p, l, hup⟩ : ∃ p l, n.up = p :: l := List.exists_cons_of_length_pos (by omega)
    have hunread := hp.unread (by rw [hout']; rfl) hin
    rw [hup] at hunread
    dsimp only
    rw [hup, List.cons_append, List.drop_one, List.tail_cons, content_append]
    exact hunread
  | headerWritten | outerDone | outerRefused | outerFails => exact nomatch hout
  | outerUp hout' => simp [hout', Outer.early] at hout
  | accept hin' => exact hp.unread hout (by rw [hin']; rfl)
  | headerRead | connect | innerDone | innerRefused | innerFails => exact nomatch hin
  | innerUp hin' => simp [hin', Inner.early] at hin
  | _ => exact hp.unread hout hin

theorem Step.written (h : Step c n e n') (hp : Placed c n) (hout : n'.outer.late)
    (hin : n'.inner.early) : c.first.length ≤ (content (n'.up.drop 2)).length := by
  cases h with
  | clientSends | clientFinishes => simpa using hp.written hout hin
  | serverReads h | outerUp _ _ h | readHeader _ h =>
    exact (hp.written hout hin).trans (h.content_drop 2).length_le
  | headerWritten hout' _ hup hhand =>
    -- all of the header has left the hand
    have hunread := hp.unread (by rw [hout']; rfl) hin
    dsimp only
    rw [hup, List.drop_one, List.tail_cons, content, hhand, List.append_nil] at hunread
    rw [hup, List.drop_succ_cons, List.drop_one, List.tail_cons, hunread]
  | outerDone hout' => exact hp.written (by rw [hout']; rfl) hin
  | dial | outerRefused | outerFails => cases hout
  | writeHeader hout' => simp [hout', Outer.late] at hout
  | accept hin' => exact hp.written hout (by rw [hin']; rfl)
  | headerRead | connect | innerDone | innerRefused | innerFails => cases hin
  | innerUp hin' => simp [hin', Inner.early] at hin
  | _ => exact hp.written hout hin

theorem Step.hand (h : Step c n e n') (hs : n'.Sound) (hshape : Shape n) (hp : Placed c n)
    (hin : n'.inner.early) (hdialled : n'.dialled ≠ none) :
    ended n'.up = false ∧ (received n'.up).length ≤ c.inner.headerLen := by
  -- what moves before the hand of the vsock side leaves it alone
  have hflows : ∀ {i : ℕ} {l : Line UInt8}, Flows i n.up l → i ≠ 2 → n.inner.early →
      n.dialled ≠ none → ended l = false ∧ (received l).length ≤ c.inner.headerLen := by
    intro i l h hi hin hdialled
    have hlen := hshape.four hin hdialled
    have hlt := h.index_lt
    obtain ⟨hreceived, hended⟩ := h.last (by omega)
    rw [hreceived, hended]
    exact hp.hand hin hdialled
  cases h with
  | clientSends | clientFinishes =>
    have hlen := hshape.four hin hdialled
    have hhand := hp.hand hin hdialled
    match hup : n.up with
    | [] | [_] => simp [hup] at hlen
    | p :: q :: l =>
      rw [hup] at hhand
      exact hhand
  | serverReads h => exact hflows h (by decide) hin hdialled
  | dial =>
    obtain ⟨hreceived, hended⟩ := @received_append _ n.up [fresh (c.upRoom 2), fresh (c.upRoom 3)]
      (List.cons_ne_nil _ _)
    dsimp only
    rw [hreceived, hended]
    exact ⟨rfl, Nat.zero_le _⟩
  | writeHeader _ h => exact hflows h (by decide) hin hdialled
  | outerUp _ hi h => exact hflows h (by omega) hin hdialled
  | outerRefused | outerFails => exact absurd rfl hs.1
  | accept hin' => exact hp.hand (by rw [hin']; rfl) hdialled
  | readHeader _ _ hlen hopen => exact ⟨hopen, hlen⟩
  | headerRead | connect | innerDone | innerRefused | innerFails => exact nomatch hin
  | innerUp hin' => simp [hin', Inner.early] at hin
  | _ => exact hp.hand hin hdialled

theorem Step.keeps_closed (h : Step c n e n') (hs : n'.Sound) (k : ℕ) :
    (closedAt k n.up → closedAt k n'.up) ∧ (closedAt k n.down → closedAt k n'.down) := by
  constructor
  · intro hk
    rcases h.up with ⟨hmoves, -⟩ | ⟨_, -, -, -, hnot⟩ | ⟨_, -, hstrip, -⟩
    · exact hmoves.closedAt hk
    · exact absurd hs hnot
    · exact hstrip.closedAt hk
  · intro hk
    rcases h.down with hmoves | ⟨_, -, -, hnot⟩
    · exact hmoves.closedAt hk
    · exact absurd hs hnot

theorem Step.placed (h : Step c n e n') (hs : n'.Sound) (hshape : Shape n) (hp : Placed c n) :
    Placed c n' where
  undialled := by
    have hund := hp.undialled
    cases h with
    | dial => exact nofun
    | headerWritten hout | outerDone hout => simpa [hout] using hund
    | outerRefused | outerFails => exact fun _ => .inr rfl
    | _ => exact hund
  unread := h.unread hshape hp
  written := h.written hp
  hand := h.hand hs hshape hp
  outerDone := by
    intro hdone
    have hkeep := h.keeps_closed hs
    have hstays : n.outer = .done → closedAt 2 n'.up ∧ closedAt 4 n'.down := fun h =>
      ⟨(hkeep 2).1 (hp.outerDone h).1, (hkeep 4).2 (hp.outerDone h).2⟩
    cases h with
    | outerDone _ hup hdown => exact ⟨hup, hdown⟩
    | dial | headerWritten | outerRefused | outerFails => exact nomatch hdone
    | _ => exact hstays hdone
  innerDone := by
    intro hdone
    have hkeep := h.keeps_closed hs
    have hstays : n.inner = .done → closedAt 4 n'.up ∧ closedAt 2 n'.down := fun h =>
      ⟨(hkeep 4).1 (hp.innerDone h).1, (hkeep 2).2 (hp.innerDone h).2⟩
    cases h with
    | innerDone _ hup hdown => exact ⟨hup, hdown⟩
    | accept | headerRead | connect | innerRefused | innerFails => exact nomatch hdone
    | _ => exact hstays hdone

def Outer.rank : Outer → ℕ
  | .accepted => 3
  | .header => 2
  | .copying => 1
  | _ => 0

def Inner.rank : Inner A → ℕ
  | .waiting => 4
  | .header => 3
  | .connecting _ => 2
  | .copying => 1
  | _ => 0

/-- Every step of a transfer, and everything an end reads, lowers this. -/
def Net.left (n : Net A) : ℕ :=
  n.outer.rank + n.inner.rank + remaining 6 n.up + remaining 6 n.down

theorem Goes.left (h : Goes c n e n') (hshape : Shape n) : n'.left < n.left := by
  obtain ⟨he, h⟩ := h
  have hup : n.up.length ≤ 6 := by
    rw [hshape.up]
    cases n.dialled <;> cases n.server <;> simp
  have hdown := hshape.down.le
  unfold Net.left
  cases h with
  | serverReads h | writeHeader _ h | outerUp _ _ h | readHeader _ h | innerUp _ _ h =>
    exact Nat.add_lt_add_right (Nat.add_lt_add_left (h.remaining hup) _) _
  | clientReads h | outerDown _ _ h | innerDown _ _ h =>
    exact Nat.add_lt_add_left (h.remaining hdown) _
  | dial hout =>
    have hnone := hshape.accepted hout
    have hlen := hshape.up
    rw [hnone, hshape.early (.inl (hshape.undialled hnone))] at hlen
    have hgrow := @remaining_append _ n.up [fresh (c.upRoom 2), fresh (c.upRoom 3)] 6
      (by simp [Fresh, fresh]) (by simp [hlen])
    rw [hgrow, hout]
    simp only [Outer.rank]
    omega
  | headerWritten hout => simp [hout, Outer.rank]
  | outerDone hout => simp [hout, Outer.rank]
  | accept hin => simp [hin, Inner.rank]
  | headerRead hin h =>
    have hle := @Strip.remaining_le _ _ _ _ _ 6 h
    simp only [hin, Inner.rank]
    omega
  | connect hin =>
    have hlen := hshape.up
    rw [hshape.early (.inr (.inr ⟨_, hin⟩))] at hlen
    have hgrow := @remaining_append _ n.up [fresh (c.upRoom 4), fresh ⊤] 6
      (by simp [Fresh, fresh]) (by cases hdial : n.dialled <;> simp [hlen, hdial])
    rw [hgrow, hin]
    simp only [Inner.rank]
    omega
  | innerDone hin => simp [hin, Inner.rank]
  | _ => cases he

structure Alive (c : Conn A) (n : Net A) : Prop where
  sound : n.Sound
  inv : Inv c n
  kept : Kept n
  caps : Caps c n
  placed : Placed c n

theorem Step.alive (h : Step c n e n') (hc : c.Matched) (hs : n'.Sound) (ha : Alive c n) :
    Alive c n' where
  sound := hs
  inv := h.inv hc ha.inv
  kept := h.kept hc ha.inv hs ha.kept
  caps := h.caps hs ha.inv.shape ha.caps
  placed := h.placed hs ha.inv.shape ha.placed

theorem Reached.alive (h : Reached c n) (hc : c.Matched) (hs : n.Sound) : Alive c n := by
  obtain ⟨es, hrun⟩ := h
  have hstep : ∀ n e n', (n.Sound → Alive c n) → Step c n e n' → n'.Sound → Alive c n' :=
    fun n e n' ha h hs => h.alive hc hs (ha (h.sound hs))
  exact hrun.invariant hstep
    (fun hs => ⟨hs, inv_start, kept_start, caps_start, placed_start⟩) hs

theorem roomy_of_caps {l : Line UInt8} {room : ℕ → ℕ∞}
    (hl : l.map Place.cap = [room 0, room 1, room 2, room 3, room 4, ⊤])
    (hroom : ∀ i, 0 < room i) : Roomy l where
  pos := by
    rw [hl]
    simp [hroom]
  last := by rw [hl]; rfl

theorem Alive.lines (ha : Alive c n) (hc : c.Ready) (hin : n.inner = .copying ∨ n.inner = .done) :
    Roomy n.up ∧ Roomy n.down ∧ n.up.length = 6 := by
  have hdialled : n.dialled ≠ none := fun hnone => by
    have hwaiting := ha.inv.shape.undialled hnone
    rcases hin with hin | hin
    all_goals exact nomatch hin.symm.trans hwaiting
  obtain ⟨addr, haddr⟩ := Option.ne_none_iff_exists'.1 hdialled
  obtain ⟨server, hserver⟩ := Option.ne_none_iff_exists'.1 (ha.inv.shape.late hin)
  have hlen := ha.inv.shape.up
  rw [haddr, hserver] at hlen
  have hcaps := ha.caps.up
  rw [hlen] at hcaps
  exact ⟨roomy_of_caps hcaps hc.upRoom, roomy_of_caps ha.caps.down hc.downRoom, hlen⟩

theorem Alive.up_goes {i : ℕ} {l : Line UInt8} (ha : Alive c n)
    (hin : n.inner = .copying ∨ n.inner = .done) (hlen : n.up.length = 6) (h : Flows i n.up l)
    (hi : 2 ≤ i) : ∃ n', Step c n .goes n' := by
  have hlt := h.index_lt
  rcases hin with hin | hin
  · obtain hi | rfl : (i = 2 ∨ i = 3) ∨ i = 4 := by omega
    · exact ⟨_, .innerUp hin hi h⟩
    · exact ⟨_, .serverReads h⟩
  · have hle := h.le_of_closedAt ha.kept.up.ordered (ha.placed.innerDone hin).1
    obtain rfl : i = 4 := by omega
    exact ⟨_, .serverReads h⟩

theorem Alive.down_goes {i : ℕ} {l : Line UInt8} (ha : Alive c n) (hout : n.outer.late)
    (hin : n.inner = .copying ∨ n.inner = .done) (h : Flows i n.down l) :
    ∃ n', Step c n .goes n' := by
  have hlt := h.index_lt
  have hlen := ha.inv.shape.down
  have hdone : n.inner = .done → 2 ≤ i := fun hin =>
    h.le_of_closedAt ha.kept.down.ordered (ha.placed.innerDone hin).2
  have hdone' : n.outer = .done → 4 ≤ i := fun hout =>
    h.le_of_closedAt ha.kept.down.ordered (ha.placed.outerDone hout).2
  obtain hi | hi | rfl : (i = 0 ∨ i = 1) ∨ (i = 2 ∨ i = 3) ∨ i = 4 := by omega
  · rcases hin with hin | hin
    · exact ⟨_, .innerDown hin hi h⟩
    · have hle := hdone hin
      omega
  · cases houter : n.outer with
    | copying => exact ⟨_, .outerDown houter hi h⟩
    | done =>
      have hle := hdone' houter
      omega
    | _ => simp [houter, Outer.late] at hout
  · exact ⟨_, .clientReads h⟩

theorem Alive.write_goes (ha : Alive c n) (hc : c.Ready) {p q r : Place UInt8} {l : Line UInt8}
    (hout : n.outer = .header) (hup : n.up = p :: q :: r :: l)
    (hcap : 0 < r.cap) (hr : r.items = []) :
    ∃ n', Step c n .goes n' := by
  obtain ⟨first, hfirst⟩ := hc.header
  cases hq : q.items with
  | nil => exact ⟨_, .headerWritten hout hfirst hup hq⟩
  | cons x rest =>
    have hordered := ha.kept.up.ordered
    rw [hup] at hordered
    have hopen : r.closed = false := by
      refine Bool.eq_false_iff.2 fun hclosed => ?_
      have hnil := ((ordered_cons_cons.1 (ordered_cons_cons.1 hordered).2).1 hclosed).1
      exact nomatch hq.symm.trans hnil
    have hroom : ((r.items ++ [x]).length : ℕ∞) ≤ r.cap := by
      rw [hr]
      exact Order.one_le_iff_pos.2 hcap
    have hflow : Flows 1 n.up
        (p :: { q with items := rest } :: { r with items := r.items ++ [x] } :: l) := by
      rw [hup]
      exact .next (.move (List.cons_ne_nil x []) hq hopen hroom)
    exact ⟨_, .writeHeader hout hflow⟩

theorem Alive.header_goes (ha : Alive c n) (hc : c.Ready) (hin : n.inner = .header) :
    ∃ n', Step c n .goes n' := by
  have hdialled : n.dialled ≠ none := fun hnone =>
    nomatch hin.symm.trans (ha.inv.shape.undialled hnone)
  have hearly : n.inner.early := by rw [hin]; rfl
  have hlen := ha.inv.shape.four hearly hdialled
  match hup : n.up with
  | [] | [_] | [_, _] | [_, _, _] | _ :: _ :: _ :: _ :: _ :: _ => simp [hup] at hlen
  | [p, q, r, s] =>
    obtain ⟨hopen, hle⟩ := ha.placed.hand hearly hdialled
    have hcaps := ha.caps.up
    rw [hup] at hopen hle hcaps
    simp only [List.map_cons, List.map_nil, List.length_cons, List.length_nil,
      List.take_succ_cons, List.take_zero, List.cons.injEq, and_true] at hcaps
    obtain ⟨-, -, hrcap, hscap⟩ := hcaps
    by_cases hfull : s.items.length = c.inner.headerLen
    · have hstrip : Strip s.items 3 n.up [p, q, r, { s with items := [] }] := by
        rw [hup]
        exact .next (.next (.next (.here rfl rfl)))
      exact ⟨_, .headerRead hin hstrip hfull⟩
    have hlt : s.items.length < c.inner.headerLen := lt_of_le_of_ne hle hfull
    cases hr : r.items with
    | cons x rest =>
      have hlen' : (s.items ++ [x]).length ≤ c.inner.headerLen := by
        rwa [List.length_append, List.length_singleton]
      have hroom : ((s.items ++ [x]).length : ℕ∞) ≤ s.cap := by
        rw [hscap]
        exact (Nat.cast_le.2 hlen').trans hc.hand
      have hflow : Flows 2 n.up
          [p, q, { r with items := rest }, { s with items := s.items ++ [x] }] := by
        rw [hup]
        exact .next (.next (.move (List.cons_ne_nil x []) hr hopen hroom))
      exact ⟨_, .readHeader hin hflow hlen' hopen⟩
    | nil =>
      cases hout : n.outer with
      | accepted =>
        obtain ⟨addr, haddr⟩ := hc.dial
        exact ⟨_, .dial hout haddr⟩
      | header => exact ha.write_goes hc hout hup (hrcap ▸ hc.upRoom 2) hr
      | failed => exact absurd hout ha.sound.1
      | _ =>
        -- the header has been written, so what is missing is on the vsock connection
        have hwritten := ha.placed.written (by rw [hout]; rfl) hearly
        obtain ⟨first, hfirst⟩ := hc.header
        have hlength : c.first.length = c.inner.headerLen := by
          rw [Conn.first, hfirst, Option.getD_some, hc.matched first hfirst]
        rw [hup] at hwritten
        simp only [List.drop_succ_cons, List.drop_zero, content, hr, List.nil_append,
          List.append_nil] at hwritten
        omega

/-- Where nothing can go on, both sides are past the header. -/
theorem Alive.late (ha : Alive c n) (hc : c.Ready) (hno : ∀ n', ¬Step c n .goes n') :
    n.outer.late ∧ (n.inner = .copying ∨ n.inner = .done) := by
  have hacc : n.outer ≠ .accepted := fun hout => by
    obtain ⟨addr, haddr⟩ := hc.dial
    exact hno _ (.dial hout haddr)
  have hdialled : n.dialled ≠ none := fun hnone =>
    (ha.placed.undialled hnone).elim hacc ha.sound.1
  have hin : n.inner = .copying ∨ n.inner = .done := by
    cases hinner : n.inner with
    | waiting =>
      obtain ⟨addr, haddr⟩ := Option.ne_none_iff_exists'.1 hdialled
      exact absurd (.accept hinner haddr) (hno _)
    | header =>
      obtain ⟨n', h⟩ := ha.header_goes hc hinner
      exact absurd h (hno n')
    | connecting addr => exact absurd (.connect hinner) (hno _)
    | copying => exact .inl rfl
    | done => exact .inr rfl
    | failed => exact absurd hinner ha.sound.2
  refine ⟨?_, hin⟩
  cases hout : n.outer with
  | accepted => exact absurd hout hacc
  | failed => exact absurd hout ha.sound.1
  | copying => rfl
  | done => rfl
  | header =>
    obtain ⟨hroom, -, hlen⟩ := ha.lines hc hin
    match hup : n.up with
    | [] | [_] | [_, _] => simp [hup] at hlen
    | p :: q :: r :: l =>
      have hordered := ha.kept.up.ordered
      rw [hup] at hordered hroom
      by_cases hr : r.items = []
      · obtain ⟨n', h⟩ := ha.write_goes hc hout hup (hroom.tail.tail.pos _ (by simp)) hr
        exact absurd h (hno n')
      · -- the vsock side goes on with what is on the connection
        cases l with
        | nil => simp [hup] at hlen
        | cons s l =>
          have htail := (ordered_cons_cons.1 (ordered_cons_cons.1 hordered).2).2
          obtain ⟨i, l', h⟩ := exists_flows_of_items hroom.tail.tail htail hr
          have hflow : Flows (i + 2) n.up (p :: q :: l') := by
            rw [hup]
            exact h.next.next
          obtain ⟨n', h'⟩ := ha.up_goes hin hlen hflow (Nat.le_add_left 2 i)
          exact absurd h' (hno n')

/-- Whatever can go on no more has delivered everything. -/
theorem Alive.rest (ha : Alive c n) (hc : c.Ready) (hno : ∀ n', ¬Step c n .goes n') :
    Delivered n := by
  obtain ⟨hout, hin⟩ := ha.late hc hno
  obtain ⟨hroomUp, hroomDown, hlen⟩ := ha.lines hc hin
  have hquietUp : ∀ i l, ¬Flows i n.up l := by
    intro i l h
    by_cases hi : 2 ≤ i
    · obtain ⟨n', h'⟩ := ha.up_goes hin hlen h hi
      exact hno n' h'
    · cases houter : n.outer with
      | copying => exact hno _ (.outerUp houter (by omega) h)
      | done => exact hi (h.le_of_closedAt ha.kept.up.ordered (ha.placed.outerDone houter).1)
      | _ => simp [houter, Outer.late] at hout
  have hquietDown : ∀ i l, ¬Flows i n.down l := by
    intro i l h
    obtain ⟨n', h'⟩ := ha.down_goes hout hin h
    exact hno n' h'
  obtain ⟨addr, haddr⟩ := Option.ne_none_iff_exists'.1 (ha.inv.shape.late hin)
  have hup := ha.kept.up
  rw [(ha.inv.served haddr).1, List.nil_append] at hup
  obtain ⟨hreceivedUp, hendUp⟩ := hup.quiet hroomUp hquietUp
  obtain ⟨hreceivedDown, hendDown⟩ := ha.kept.down.quiet hroomDown hquietDown
  refine ⟨⟨addr, haddr⟩, hreceivedUp, hreceivedDown, hendUp, hendDown, fun hup' hdown' => ?_⟩
  have hallUp : ∀ k < 6, closedAt k n.up := fun k hk =>
    hup.ordered.closedAt_of_ended (hendUp hup') (hlen ▸ hk)
  have hallDown : ∀ k < 6, closedAt k n.down := fun k hk =>
    ha.kept.down.ordered.closedAt_of_ended (hendDown hdown') (ha.inv.shape.down ▸ hk)
  constructor
  · cases houter : n.outer with
    | copying =>
      exact absurd (.outerDone houter (hallUp 2 (by decide)) (hallDown 4 (by decide))) (hno _)
    | done => rfl
    | _ => simp [houter, Outer.late] at hout
  · rcases hin with hin | hin
    · exact absurd (.innerDone hin (hallUp 4 (by decide)) (hallDown 2 (by decide))) (hno _)
    · exact hin

theorem Goes.sound (h : Goes c n e n') (hs : n.Sound) : n'.Sound := by
  obtain ⟨he, h⟩ := h
  obtain ⟨hout, hin⟩ := hs
  cases h with
  | dial | headerWritten | outerDone => exact ⟨nofun, hin⟩
  | accept | headerRead | connect | innerDone => exact ⟨hout, nofun⟩
  | outerRefused | outerFails | innerRefused | innerFails => cases he
  | _ => exact ⟨hout, hin⟩

/-- As long as no transfer fails, whatever the ends have sent so far is delivered after finitely
many steps in whatever order, and both transfers return once both ends have finished. -/
theorem transfers_complete (hc : c.Ready) (h : Reached c n) (hs : n.Sound) :
    Finishes (Goes c) Delivered n := by
  refine Finishes.of_measure Net.left ?_ ?_ (h.alive hc.matched hs)
  · rintro n e n' ha hgoes
    exact ⟨hgoes.2.alive hc.matched (hgoes.sound ha.sound) ha, hgoes.left ha.inv.shape⟩
  · intro n ha hstuck
    exact ha.rest hc fun n' h => hstuck .goes n' ⟨rfl, h⟩

def narrow : Conn SocketAddr :=
  transparent ⟨3, 1200⟩ (some (.v4 ⟨10, 0, 0, 1⟩ 80)) (fun _ => 6) fun _ => 1

def narrowSent : Net SocketAddr :=
  let made := narrow.made ⟨3, 1200⟩ (.v4 ⟨10, 0, 0, 1⟩ 80)
  { made with
    up := finish (send [1, 2] made.up)
    down := finish (send [3] made.down)
    sentUp := [1, 2]
    sentDown := [3] }

theorem narrow_sent : Reached narrow narrowSent := by
  have hmade : Reached narrow (narrow.made ⟨3, 1200⟩ (.v4 ⟨10, 0, 0, 1⟩ 80)) :=
    transparent_made le_rfl le_rfl
  have hup := (hmade.step (@Step.clientSends _ _ _ _ _ [1, 2] rfl rfl)).step .clientFinishes
  exact (hup.step (@Step.serverSends _ _ _ _ _ [3] _ rfl rfl rfl)).step (.serverFinishes rfl)

theorem narrow_completes : Finishes (Goes narrow) Delivered narrowSent :=
  transfers_complete ⟨⟨_, rfl⟩, ⟨_, rfl⟩, transparent_matched,
    fun _ => ENat.natCast_lt_natCast.2 (Nat.succ_pos 5), fun _ => zero_lt_one, le_rfl⟩
    narrow_sent ⟨nofun, nofun⟩

end Oyster.TcpProxy
