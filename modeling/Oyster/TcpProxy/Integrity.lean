import Oyster.TcpProxy.Transfer

namespace Oyster.TcpProxy

open Oyster.Flow

variable {A : Type} {c : Conn A} {n n' : Net A} {e : Event}

/-- The vsock side reads as much as the ip side writes ahead of the data. -/
def Conn.Matched (c : Conn A) : Prop :=
  ∀ header, c.outer.header c.origDst = some header → header.length = c.inner.headerLen

def Silent (c : Conn A) (n : Net A) : Prop :=
  c.outer.header c.origDst = none →
    content n.up.tail = [] ∧ n.outer ≠ .copying ∧ n.outer ≠ .done

theorem silent_start : Silent c c.start := by
  intro hnone
  refine ⟨?_, nofun, nofun⟩
  simp [Conn.start, Conn.first, hnone, content]

theorem Step.silent (h : Step c n e n') (hshape : Shape n) (hs : Silent c n) : Silent c n' := by
  intro hnone
  obtain ⟨htail, hcopying, hdone⟩ := hs hnone
  have hflows : ∀ {i : ℕ} {l : Line UInt8}, Flows (i + 1) n.up l → content l.tail = [] :=
    fun h => h.tail.content.trans htail
  have hcut : ∀ {i : ℕ} {l : Line UInt8}, Cut (i + 1) n.up l → content l.tail = [] :=
    fun h => h.tail.content_nil htail
  have hgrow : ∀ x y : ℕ∞, content (n.up ++ [fresh x, fresh y]).tail = [] := by
    intro x y
    have hlen := hshape.up
    obtain ⟨p, l, hup⟩ : ∃ p l, n.up = p :: l := List.exists_cons_of_length_pos (by omega)
    rw [hup] at htail
    rw [hup, List.cons_append, List.tail_cons, content_append]
    exact List.append_eq_nil_iff.2 ⟨rfl, htail⟩
  cases h with
  | clientSends | clientFinishes => exact ⟨by simpa using htail, hcopying, hdone⟩
  | serverReads h | writeHeader _ h | readHeader _ h => exact ⟨hflows h, hcopying, hdone⟩
  | dial => exact ⟨hgrow _ _, nofun, nofun⟩
  | headerWritten _ hsome => exact nomatch hnone.symm.trans hsome
  | outerUp hout | outerDone hout => exact absurd hout hcopying
  | outerRefused => exact ⟨htail, nofun, nofun⟩
  | outerFails _ h => exact ⟨hcut h, nofun, nofun⟩
  | headerRead _ h =>
    have hcontent := h.tail.content
    rw [htail] at hcontent
    exact ⟨(List.append_eq_nil_iff.1 hcontent.symm).2, hcopying, hdone⟩
  | connect => exact ⟨hgrow _ _, hcopying, hdone⟩
  | innerUp _ hi h =>
    rcases hi with rfl | rfl
    all_goals exact ⟨hflows h, hcopying, hdone⟩
  | innerFails _ h => exact ⟨hcut h, hcopying, hdone⟩
  | _ => exact ⟨htail, hcopying, hdone⟩

def Stage (c : Conn A) (n : Net A) : Prop :=
  match n.inner with
  | .waiting | .header => n.ahead = c.first
  | .connecting addr => n.ahead = [] ∧ addr = c.inner.target c.first
  | _ => ∀ addr, n.server = some addr → n.ahead = [] ∧ addr = c.inner.target c.first

structure Inv (c : Conn A) (n : Net A) : Prop where
  shape : Shape n
  silent : Silent c n
  stage : Stage c n
  up : Delivers (n.ahead ++ n.sentUp) n.up
  down : Delivers n.sentDown n.down

theorem Inv.header_eq (hinv : Inv c n) (hc : c.Matched) {header : Bytes} {l : Line UInt8}
    (hin : n.inner = .header) (h : Strip header 3 n.up l)
    (hlen : header.length = c.inner.headerLen) : header = c.first := by
  cases hfirst : c.outer.header c.origDst with
  | none =>
    have hcontent := h.tail.content
    rw [(hinv.silent hfirst).1] at hcontent
    rw [(List.append_eq_nil_iff.1 hcontent.symm).1, Conn.first, hfirst, Option.getD_none]
  | some first =>
    have hstage := hinv.stage
    rw [Stage, hin] at hstage
    -- the hand of the vsock side is the last place
    have hup : n.up.length = 3 + 1 := by
      have hserver := hinv.shape.early (.inr (.inl hin))
      have hdialled : n.dialled ≠ none := fun hnone =>
        nomatch hin.symm.trans (hinv.shape.undialled hnone)
      obtain ⟨addr, haddr⟩ := Option.ne_none_iff_exists'.1 hdialled
      rw [hinv.shape.up, hserver, haddr]
      rfl
    have hprefix : header <+: c.first ++ n.sentUp := by
      rw [← h.received hup, ← hstage]
      exact hinv.up.received
    have heq : header.length = c.first.length := by
      rw [Conn.first, hfirst, Option.getD_some, hlen, hc first hfirst]
    exact (List.prefix_of_prefix_length_le hprefix (List.prefix_append _ _)
      heq.le).eq_of_length heq

theorem Step.stage (h : Step c n e n') (hc : c.Matched) (hinv : Inv c n) : Stage c n' := by
  have hstage := hinv.stage
  cases h with
  | accept hin =>
    rw [Stage, hin] at hstage
    exact hstage
  | headerRead hin h hlen => exact ⟨rfl, congrArg _ (hinv.header_eq hc hin h hlen)⟩
  | connect hin =>
    rw [Stage, hin] at hstage
    rintro _ ⟨⟩
    exact hstage
  | innerDone hin =>
    rw [Stage, hin] at hstage
    exact hstage
  | innerRefused hin =>
    intro addr haddr
    have hnone := hinv.shape.early (hin.elim (fun h => .inr (.inl h)) fun h => .inr (.inr h))
    exact nomatch hnone.symm.trans haddr
  | innerFails hin =>
    rw [Stage, hin] at hstage
    exact hstage
  | _ => exact hstage

theorem Step.inv (h : Step c n e n') (hc : c.Matched) (hinv : Inv c n) : Inv c n' where
  shape := h.shape hinv.shape
  silent := h.silent hinv.shape hinv.silent
  stage := h.stage hc hinv
  up := by
    rcases h.up with ⟨hmoves, hahead⟩ | ⟨_, hcut, hsent, hahead, -⟩ |
      ⟨header, hin, hstrip, hlen, hsent, hahead⟩
    · exact hahead ▸ (hmoves.prepend n.ahead).delivers hinv.up
    · rw [hsent, hahead]
      exact hinv.up.cut hcut
    · have hstage := hinv.stage
      have hup := hinv.up
      rw [Stage, hin] at hstage
      rw [hstage, ← hinv.header_eq hc hin hstrip hlen] at hup
      rw [hsent, hahead]
      exact hup.strip hstrip
  down := by
    rcases h.down with hmoves | ⟨_, hcut, hsent, -⟩
    · exact hmoves.delivers hinv.down
    · exact hsent ▸ hinv.down.cut hcut

theorem inv_start : Inv c c.start where
  shape := shape_start
  silent := silent_start
  stage := rfl
  up := .inl (by simp [Conn.start, content, fresh])
  down := .inl rfl

theorem Reached.inv (h : Reached c n) (hc : c.Matched) : Inv c n := by
  obtain ⟨es, hrun⟩ := h
  exact hrun.invariant (fun _ _ _ hinv h => h.inv hc hinv) inv_start

/-- Nothing is lost, and an end is seen only behind everything. -/
structure Kept (n : Net A) : Prop where
  up : Whole (n.ahead ++ n.sentUp) n.up
  down : Whole n.sentDown n.down

theorem kept_start : Kept c.start where
  up := by
    refine ⟨by simp [Conn.start, content, fresh], ?_⟩
    refine ordered_cons_cons.2 ⟨fun h => ?_, .singleton _⟩
    cases h
  down := by
    refine ⟨rfl, ?_⟩
    have hfresh : Fresh c.start.down := by
      intro p hp
      simp only [Conn.start, List.mem_append, List.mem_map, List.mem_singleton] at hp
      rcases hp with ⟨_, -, rfl⟩ | rfl
      all_goals exact ⟨rfl, rfl⟩
    exact List.nil_append c.start.down ▸ hfresh.ordered_append .nil

theorem Step.kept (h : Step c n e n') (hc : c.Matched) (hinv : Inv c n) (hs : n'.Sound)
    (hk : Kept n) : Kept n' where
  up := by
    rcases h.up with ⟨hmoves, hahead⟩ | ⟨_, -, -, -, hnot⟩ |
      ⟨header, hin, hstrip, hlen, hsent, hahead⟩
    · exact hahead ▸ (hmoves.prepend n.ahead).whole hk.up
    · exact absurd hs hnot
    · have hstage := hinv.stage
      have hup := hk.up
      rw [Stage, hin] at hstage
      rw [hstage, ← hinv.header_eq hc hin hstrip hlen] at hup
      rw [hsent, hahead]
      exact hstrip.whole hup
  down := by
    rcases h.down with hmoves | ⟨_, -, -, hnot⟩
    · exact hmoves.whole hk.down
    · exact absurd hs hnot

theorem Reached.kept (h : Reached c n) (hc : c.Matched) (hs : n.Sound) : Kept n := by
  obtain ⟨es, hrun⟩ := h
  have hstep : ∀ n e n', (Inv c n ∧ (n.Sound → Kept n)) → Step c n e n' →
      Inv c n' ∧ (n'.Sound → Kept n') := by
    rintro n e n' ⟨hinv, hk⟩ h
    exact ⟨h.inv hc hinv, fun hs => h.kept hc hinv hs (hk (h.sound hs))⟩
  exact (hrun.invariant hstep ⟨inv_start, fun _ => kept_start⟩).2 hs

theorem Inv.served (hinv : Inv c n) {addr : A} (haddr : n.server = some addr) :
    n.ahead = [] ∧ addr = c.inner.target c.first := by
  have hstage := hinv.stage
  have hearly := hinv.shape.early
  rw [haddr] at hearly
  rw [Stage] at hstage
  split at hstage
  next hin => exact nomatch hearly (.inl hin)
  next hin => exact nomatch hearly (.inr (.inl hin))
  next hin => exact nomatch hearly (.inr (.inr ⟨_, hin⟩))
  next => exact hstage addr haddr

theorem Reached.step (h : Reached c n) (hs : Step c n e n') : Reached c n' := by
  obtain ⟨es, hrun⟩ := h
  exact ⟨es ++ [e], hrun.append (.cons hs (.nil n'))⟩

def Conn.made (c : Conn A) (vsock : VsockAddr) (server : A) : Net A where
  outer := .copying
  inner := .copying
  dialled := some vsock
  server := some server
  up := (List.range 5).map (fresh ∘ c.upRoom) ++ [fresh ⊤]
  down := (List.range 5).map (fresh ∘ c.downRoom) ++ [fresh ⊤]
  ahead := []

/-- What is written ahead of the data goes from hand to hand in one piece where there is room. -/
theorem Conn.reached_made {vsock : VsockAddr} {first : Bytes}
    (hdial : c.outer.dial c.origDst = some vsock)
    (hheader : c.outer.header c.origDst = some first)
    (hlen : first.length = c.inner.headerLen) (h₂ : (first.length : ℕ∞) ≤ c.upRoom 2)
    (h₃ : (first.length : ℕ∞) ≤ c.upRoom 3) :
    Reached c (c.made vsock (c.inner.target first)) := by
  have hfirst : c.first = first := by rw [Conn.first, hheader, Option.getD_some]
  let hands (xs ys zs : Bytes) (n : Net A) : Net A := { n with
    dialled := some vsock
    up := [fresh (c.upRoom 0), ⟨c.upRoom 1, xs, false⟩, ⟨c.upRoom 2, ys, false⟩,
      ⟨c.upRoom 3, zs, false⟩] }
  -- the two sides meet, and the header is in the hand of the ip side
  have hmet : Reached c
      (hands first [] [] { c.start with outer := .header, inner := .header }) := by
    rw [← hfirst]
    exact (Reached.step ⟨[], .nil _⟩ (.dial rfl hdial)).step (.accept rfl rfl)
  have hread : Reached c
      (hands [] [] first { c.start with outer := .header, inner := .header }) := by
    by_cases hnil : first = []
    · subst hnil
      exact hmet
    have hall : first = first ++ [] := (List.append_nil first).symm
    have hwritten : Reached c
        (hands [] first [] { c.start with outer := .header, inner := .header }) :=
      hmet.step (.writeHeader rfl (.next (.move hnil hall rfl h₂)))
    exact hwritten.step
      (.readHeader rfl (.next (.next (.move hnil hall rfl h₃))) hlen.le rfl)
  have hcopying : Reached c
      (hands [] [] first { c.start with outer := .copying, inner := .header }) :=
    hread.step (.headerWritten rfl hheader rfl rfl)
  exact (hcopying.step (.headerRead rfl (.next (.next (.next (.here rfl rfl)))) hlen)).step
    (.connect rfl)

theorem Step.of_up {i : ℕ} {l : Line UInt8} (hout : n.outer = .copying)
    (hin : n.inner = .copying) (hi : i < 5) (h : Flows i n.up l) :
    Step c n .goes { n with up := l } := by
  obtain hi | hi | rfl : (i = 0 ∨ i = 1) ∨ (i = 2 ∨ i = 3) ∨ i = 4 := by omega
  · exact .outerUp hout hi h
  · exact .innerUp hin hi h
  · exact .serverReads h

theorem Step.of_down {i : ℕ} {l : Line UInt8} (hout : n.outer = .copying)
    (hin : n.inner = .copying) (hi : i < 5) (h : Flows i n.down l) :
    Step c n .goes { n with down := l } := by
  obtain hi | hi | rfl : (i = 0 ∨ i = 1) ∨ (i = 2 ∨ i = 3) ∨ i = 4 := by omega
  · exact .innerDown hin hi h
  · exact .outerDown hout hi h
  · exact .clientReads h

def passing (xs : Bytes) : ℕ → ℕ → Line UInt8
  | 0, m => ⟨⊤, xs, true⟩ :: List.replicate m (fresh ⊤)
  | k + 1, m => ⟨⊤, [], true⟩ :: passing xs k m

theorem passing_flows {xs : Bytes} (hxs : xs ≠ []) (k m : ℕ) :
    ∃ l, Flows k (passing xs k (m + 1)) l ∧ Flows k l (passing xs (k + 1) m) := by
  induction k with
  | zero => exact ⟨_, .move hxs (List.append_nil xs).symm rfl le_top, .close rfl rfl rfl⟩
  | succ k ih =>
    obtain ⟨l, h, h'⟩ := ih
    exact ⟨_, h.next, h'.next⟩

theorem Reached.up_passes {xs : Bytes} (hxs : xs ≠ []) {k m : ℕ} (h : Reached c n)
    (hout : n.outer = .copying) (hin : n.inner = .copying) (hk : k + m = 5)
    (hup : n.up = passing xs k m) : Reached c { n with up := passing xs 5 0 } := by
  induction m generalizing n k with
  | zero =>
    obtain rfl : k = 5 := hk
    rw [← hup]
    exact h
  | succ m ih =>
    obtain ⟨l, hmove, hclose⟩ := passing_flows hxs k m
    have hlt : k < 5 := by omega
    have hmoved := h.step (.of_up hout hin hlt (hup ▸ hmove))
    have hclosed := hmoved.step (.of_up hout hin hlt hclose)
    have hrest := ih hclosed hout hin (by omega : k + 1 + m = 5) rfl
    exact hrest

theorem Reached.down_passes {xs : Bytes} (hxs : xs ≠ []) {k m : ℕ} (h : Reached c n)
    (hout : n.outer = .copying) (hin : n.inner = .copying) (hk : k + m = 5)
    (hdown : n.down = passing xs k m) : Reached c { n with down := passing xs 5 0 } := by
  induction m generalizing n k with
  | zero =>
    obtain rfl : k = 5 := hk
    rw [← hdown]
    exact h
  | succ m ih =>
    obtain ⟨l, hmove, hclose⟩ := passing_flows hxs k m
    have hlt : k < 5 := by omega
    have hmoved := h.step (.of_down hout hin hlt (hdown ▸ hmove))
    have hclosed := hmoved.step (.of_down hout hin hlt hclose)
    have hrest := ih hclosed hout hin (by omega : k + 1 + m = 5) rfl
    exact hrest

theorem matched_of_plain {addr : A} (hout : c.outer.header c.origDst = some [])
    (hin : c.inner = vsockToIp addr) : c.Matched := by
  intro header hheader
  cases hout.symm.trans hheader
  rw [hin]
  rfl

def transparent (serverAddr : VsockAddr) (origDst : Option SocketAddr)
    (upRoom downRoom : ℕ → ℕ∞) : Conn SocketAddr where
  outer := ipToVsockTransparent serverAddr
  inner := vsockToIpTransparent
  origDst := origDst
  upRoom := upRoom
  downRoom := downRoom

variable {serverAddr : VsockAddr} {origDst : Option SocketAddr} {upRoom downRoom : ℕ → ℕ∞}

theorem transparent_matched : (transparent serverAddr origDst upRoom downRoom).Matched := by
  intro bs hbs
  obtain ⟨addr, -, haddr⟩ := Option.bind_eq_some_iff.1 hbs
  exact header_length haddr

theorem transparent_made {ip : Ipv4Addr} {port : UInt16} (h₂ : ((6 : ℕ) : ℕ∞) ≤ upRoom 2)
    (h₃ : ((6 : ℕ) : ℕ∞) ≤ upRoom 3) :
    Reached (transparent serverAddr (some (.v4 ip port)) upRoom downRoom)
      (Conn.made (transparent serverAddr (some (.v4 ip port)) upRoom downRoom) serverAddr
        (.v4 ip port)) := by
  have hheader : header (.v4 ip port) = some (toLe ip.toU32 4 ++ toLe port.toNat 2) := rfl
  have hlen := header_length hheader
  have htarget : vsockToIpTransparent.target (toLe ip.toU32 4 ++ toLe port.toNat 2) =
      .v4 ip port := readHeader_header hheader
  rw [← hlen] at h₂ h₃
  have hmade : Reached (transparent serverAddr (some (.v4 ip port)) upRoom downRoom) _ :=
    Conn.reached_made rfl rfl hlen h₂ h₃
  exact htarget ▸ hmade

def mapped : Conn ℕ where
  outer := portToVsockTransparent 88
  inner := vsockToIp 4000
  origDst := some (.v4 ⟨10, 0, 0, 1⟩ 4000)
  upRoom _ := ⊤
  downRoom _ := ⊤

def redirected : Conn SocketAddr :=
  transparent ⟨3, 1200⟩ (some (.v4 ⟨10, 0, 0, 1⟩ 80)) (fun _ => ⊤) fun _ => ⊤

def Conn.exchanged (c : Conn A) (vsock : VsockAddr) (server : A) : Net A :=
  { c.made vsock server with
  up := passing [1, 2] 5 0
  down := passing [3] 5 0
  sentUp := [1, 2]
  sentDown := [3] }

theorem Conn.reached_exchanged {vsock : VsockAddr} {server : A} (hup : ∀ i, c.upRoom i = ⊤)
    (hdown : ∀ i, c.downRoom i = ⊤) (hmade : Reached c (c.made vsock server)) :
    Reached c (c.exchanged vsock server) := by
  have hplaces : (c.made vsock server).up = List.replicate 6 (fresh ⊤) ∧
      (c.made vsock server).down = List.replicate 6 (fresh ⊤) := by
    simp [Conn.made, hup, hdown, List.range_succ, List.replicate]
  have hsent : Reached c { c.made vsock server with
      up := passing [1, 2] 0 5
      sentUp := [1, 2] } := by
    have h := (hmade.step (@Step.clientSends _ _ _ _ _ [1, 2] hplaces.1 rfl)).step .clientFinishes
    rwa [hplaces.1] at h
  have hread := Reached.up_passes (List.cons_ne_nil 1 [2]) hsent rfl rfl rfl rfl
  have hanswered : Reached c { c.made vsock server with
      up := passing [1, 2] 5 0
      down := passing [3] 0 5
      sentUp := [1, 2]
      sentDown := [3] } := by
    have h := (hread.step (@Step.serverSends _ _ _ _ _ [3] _ rfl hplaces.2 rfl)).step
      (.serverFinishes rfl)
    rwa [hplaces.2] at h
  exact Reached.down_passes (List.cons_ne_nil 3 []) hanswered rfl rfl rfl rfl

/-- What has been received is an initial part of what was sent, in either direction and after
any failure; where neither transfer has failed, the end comes behind all of it. -/
theorem integrity (hc : c.Matched) (h : Reached c n) :
    (∀ addr, n.server = some addr → received n.up <+: n.sentUp) ∧
      received n.down <+: n.sentDown ∧
      (n.Sound →
        (∀ addr, n.server = some addr → ended n.up = true → received n.up = n.sentUp) ∧
        (ended n.down = true → received n.down = n.sentDown)) := by
  have hinv := h.inv hc
  refine ⟨fun addr haddr => ?_, hinv.down.received, fun hs => ⟨fun addr haddr hend => ?_,
    fun hend => ?_⟩⟩
  · have hup := hinv.up
    rw [(hinv.served haddr).1] at hup
    exact hup.received
  · have hup := (h.kept hc hs).up
    rw [(hinv.served haddr).1] at hup
    exact hup.received_of_ended hend
  · exact (h.kept hc hs).down.received_of_ended hend

def mappedDone : Net ℕ := mapped.exchanged ⟨88, 4000⟩ 4000

def redirectedDone : Net SocketAddr := redirected.exchanged ⟨3, 1200⟩ (.v4 ⟨10, 0, 0, 1⟩ 80)

theorem reached_mappedDone : Reached mapped mappedDone :=
  Conn.reached_exchanged (fun _ => rfl) (fun _ => rfl)
    (@Conn.reached_made _ mapped _ [] rfl rfl rfl le_top le_top)

theorem reached_redirectedDone : Reached redirected redirectedDone :=
  Conn.reached_exchanged (fun _ => rfl) (fun _ => rfl) (transparent_made le_top le_top)

/-- Bytes of both ends through the proxies of a port, and through two transparent proxies, where
the address goes ahead of them. -/
theorem integrity_exchanged :
    (ended mappedDone.up = true ∧ mappedDone.sentUp = [1, 2] ∧
      received mappedDone.up = mappedDone.sentUp ∧ ended mappedDone.down = true ∧
      mappedDone.sentDown = [3] ∧ received mappedDone.down = mappedDone.sentDown) ∧
    ended redirectedDone.up = true ∧ redirectedDone.sentUp = [1, 2] ∧
      received redirectedDone.up = redirectedDone.sentUp ∧ ended redirectedDone.down = true ∧
      redirectedDone.sentDown = [3] ∧ received redirectedDone.down = redirectedDone.sentDown := by
  have hends := (integrity (matched_of_plain rfl rfl) reached_mappedDone).2.2 ⟨nofun, nofun⟩
  have hends' := (integrity transparent_matched reached_redirectedDone).2.2 ⟨nofun, nofun⟩
  exact ⟨⟨rfl, rfl, hends.1 _ rfl rfl, rfl, rfl, hends.2 rfl⟩,
    rfl, rfl, hends'.1 _ rfl rfl, rfl, rfl, hends'.2 rfl⟩

theorem Step.dialled (h : Step c n e n')
    (hs : ∀ addr, n.dialled = some addr → c.outer.dial c.origDst = some addr) :
    ∀ addr, n'.dialled = some addr → c.outer.dial c.origDst = some addr := by
  cases h with
  | dial _ hdial =>
    rintro _ ⟨⟩
    exact hdial
  | _ => exact hs

theorem Reached.dialled (h : Reached c n) {addr : VsockAddr} (haddr : n.dialled = some addr) :
    c.outer.dial c.origDst = some addr := by
  obtain ⟨es, hrun⟩ := h
  exact hrun.invariant (fun _ _ _ hs h => h.dialled hs) nofun addr haddr

/-- Where nothing can be written ahead of the data that the other side reads, it connects to
nothing. -/
theorem Step.unserved (h : Step c n e n') (hinv : Inv c n) (hnone : c.outer.header c.origDst = none)
    (hpos : 0 < c.inner.headerLen)
    (hs : n.server = none ∧ ∀ addr, n.inner ≠ .connecting addr) :
    n'.server = none ∧ ∀ addr, n'.inner ≠ .connecting addr := by
  cases h with
  | accept => exact ⟨hs.1, nofun⟩
  | headerRead _ h hlen =>
    have hcontent := h.tail.content
    rw [(hinv.silent hnone).1] at hcontent
    rw [(List.append_eq_nil_iff.1 hcontent.symm).1] at hlen
    exact absurd hlen hpos.ne
  | connect hin => exact absurd hin (hs.2 _)
  | innerDone => exact ⟨hs.1, nofun⟩
  | innerRefused => exact ⟨hs.1, nofun⟩
  | innerFails => exact ⟨hs.1, nofun⟩
  | _ => exact hs

theorem Reached.header (h : Reached c n) (hc : c.Matched) (hpos : 0 < c.inner.headerLen) {addr : A}
    (haddr : n.server = some addr) :
    ∃ header, c.outer.header c.origDst = some header ∧ addr = c.inner.target header := by
  cases hfirst : c.outer.header c.origDst with
  | none =>
    obtain ⟨es, hrun⟩ := h
    have hstep : ∀ n e n', (Inv c n ∧ n.server = none ∧ ∀ addr, n.inner ≠ .connecting addr) →
        Step c n e n' → Inv c n' ∧ n'.server = none ∧ ∀ addr, n'.inner ≠ .connecting addr := by
      rintro n e n' ⟨hinv, hs⟩ h
      exact ⟨h.inv hc hinv, h.unserved hinv hfirst hpos hs⟩
    have hs := hrun.invariant hstep ⟨inv_start, rfl, nofun⟩
    exact nomatch hs.2.1.symm.trans haddr
  | some header =>
    have htarget := ((h.inv hc).served haddr).2
    rw [Conn.first, hfirst, Option.getD_some] at htarget
    exact ⟨header, rfl, htarget⟩

/-- Two transparent proxies connect a client to its original destination and nowhere else, and
only where that is of the fourth version: the address that `getsockopt` has written. -/
theorem transparent_routes (serverAddr : VsockAddr) (origDst : Option SocketAddr)
    (upRoom downRoom : ℕ → ℕ∞) (n : Net SocketAddr)
    (h : Reached (transparent serverAddr origDst upRoom downRoom) n) :
    (∀ addr, n.dialled = some addr → addr = serverAddr) ∧
      (∀ addr, n.server = some addr → origDst = some addr ∧ ∃ ip port, addr = .v4 ip port) ∧
      ∀ ip port len, 16 ≤ len → origDst = getOriginalDst (some (sockaddrIn ip port, len)) →
        ∀ addr, n.server = some addr → addr = .v4 ip port := by
  have hserver : ∀ addr, n.server = some addr →
      origDst = some addr ∧ ∃ ip port, addr = .v4 ip port := by
    intro addr haddr
    obtain ⟨bs, hbs, rfl⟩ := h.header transparent_matched (Nat.succ_pos 5) haddr
    obtain ⟨dst, hdst, hdst'⟩ := Option.bind_eq_some_iff.1 hbs
    change _ = some (readHeader bs) ∧ ∃ ip port, readHeader bs = _
    rw [readHeader_header hdst']
    refine ⟨hdst, ?_⟩
    cases dst with
    | v4 ip port => exact ⟨ip, port, rfl⟩
    | v6 => cases hdst'
  refine ⟨fun addr haddr => ?_, hserver, fun ip port len hlen hdst addr haddr => ?_⟩
  · obtain ⟨_, -, heq⟩ := Option.map_eq_some_iff.1 (h.dialled haddr)
    exact heq.symm
  · rw [getOriginalDst_sockaddrIn hlen] at hdst
    exact (Option.some.inj (hdst.symm.trans (hserver addr haddr).1)).symm

theorem transparent_routes_redirected : ∃ n : Net SocketAddr,
    n.server = some (.v4 ⟨10, 0, 0, 1⟩ 80) ∧ redirected.origDst = n.server ∧
      ∀ addr, n.server = some addr → addr = .v4 ⟨10, 0, 0, 1⟩ 80 := by
  have hmade : Reached redirected (redirected.made ⟨3, 1200⟩ (.v4 ⟨10, 0, 0, 1⟩ 80)) :=
    transparent_made le_top le_top
  have hroutes := transparent_routes _ _ _ _ _ hmade
  exact ⟨redirected.made ⟨3, 1200⟩ (.v4 ⟨10, 0, 0, 1⟩ 80), rfl, (hroutes.2.1 _ rfl).1,
    hroutes.2.2 _ _ 16 le_rfl (getOriginalDst_sockaddrIn le_rfl).symm⟩

end Oyster.TcpProxy
