import Mathlib.Data.ENat.Basic
import Mathlib.Data.List.Chain

/-!
A line of places, from a source to a destination. Items move from the front of a place to the
back of the next one as far as there is room, and a place is closed once the one before it is
closed and empty: nothing overtakes, and an end is seen only behind everything else. A line that
is cut loses what was in the way and passes nothing on any more.
-/

namespace Oyster.Flow

variable {α : Type}

structure Place (α : Type) where
  cap : ℕ∞
  items : List α := []
  closed : Bool := false

/-- A line of places; the source is first. -/
abbrev Line (α : Type) := List (Place α)

/-- All that is on the way, as it comes out at the end. -/
def content : Line α → List α
  | [] => []
  | p :: l => content l ++ p.items

/-- Between the `i`-th place and the next one. -/
inductive Flows : ℕ → Line α → Line α → Prop
  | move {p q : Place α} {l : Line α} {xs rest : List α} :
      xs ≠ [] → p.items = xs ++ rest → q.closed = false →
      ((q.items ++ xs).length : ℕ∞) ≤ q.cap →
      Flows 0 (p :: q :: l) ({ p with items := rest } :: { q with items := q.items ++ xs } :: l)
  | close {p q : Place α} {l : Line α} :
      p.items = [] → p.closed = true → q.closed = false →
      Flows 0 (p :: q :: l) (p :: { q with closed := true } :: l)
  | next {i : ℕ} {p : Place α} {l l' : Line α} : Flows i l l' → Flows (i + 1) (p :: l) (p :: l')

def send (xs : List α) : Line α → Line α
  | [] => []
  | p :: l => { p with items := p.items ++ xs } :: l

def finish : Line α → Line α
  | [] => []
  | p :: l => { p with closed := true } :: l

/-- The `i`-th place is lost and closed, and the next one is closed and loses what is not kept. -/
inductive Cut : ℕ → Line α → Line α → Prop
  | here {p q : Place α} {l : Line α} {kept : List α} :
      kept <+: q.items →
      Cut 0 (p :: q :: l)
        ({ p with items := [], closed := true } :: { q with items := kept, closed := true } :: l)
  | next {i : ℕ} {p : Place α} {l l' : Line α} : Cut i l l' → Cut (i + 1) (p :: l) (p :: l')

def received : Line α → List α
  | [] => []
  | [p] => p.items
  | _ :: p :: l => received (p :: l)

def ended : Line α → Bool
  | [] => false
  | [p] => p.closed
  | _ :: p :: l => ended (p :: l)

variable {i : ℕ} {l l' : Line α} {p : Place α}

theorem Flows.length (h : Flows i l l') : l'.length = l.length := by
  induction h with
  | move => rfl
  | close => rfl
  | next _ ih => simp only [List.length_cons, ih]

theorem Cut.length (h : Cut i l l') : l'.length = l.length := by
  induction h with
  | here => rfl
  | next _ ih => simp only [List.length_cons, ih]

@[simp]
theorem send_length (xs : List α) (l : Line α) : (send xs l).length = l.length := by
  cases l <;> rfl

@[simp]
theorem finish_length (l : Line α) : (finish l).length = l.length := by
  cases l <;> rfl

theorem Flows.content (h : Flows i l l') : content l' = content l := by
  induction h with
  | move _ hitems =>
    simp only [Flow.content, hitems, List.append_assoc]
  | close => rfl
  | next _ ih => rw [Flow.content, Flow.content, ih]

theorem send_content (xs : List α) (p : Place α) (l : Line α) :
    content (send xs (p :: l)) = content (p :: l) ++ xs := by
  simp [send, content]

theorem received_initial (l : Line α) : received l <+: content l := by
  match l with
  | [] => exact List.prefix_rfl
  | [p] => exact List.prefix_rfl
  | _ :: q :: l => exact (received_initial (q :: l)).trans (List.prefix_append _ _)

/-- A place is closed only behind one that is closed and empty. -/
def Ordered (l : Line α) : Prop :=
  l.IsChain fun p q => q.closed = true → p.items = [] ∧ p.closed = true

theorem ordered_cons_cons {q : Place α} :
    Ordered (p :: q :: l) ↔
      (q.closed = true → p.items = [] ∧ p.closed = true) ∧ Ordered (q :: l) :=
  List.isChain_cons_cons

theorem Ordered.head {p' : Place α} (h : Ordered (p :: l))
    (hp : p.items = [] → p.closed = true → p'.items = [] ∧ p'.closed = true) :
    Ordered (p' :: l) := by
  cases l with
  | nil => exact .singleton _
  | cons q l =>
    obtain ⟨hpq, hl⟩ := ordered_cons_cons.1 h
    exact ordered_cons_cons.2 ⟨fun hq => hp (hpq hq).1 (hpq hq).2, hl⟩

theorem Flows.ordered (h : Flows i l l') (hl : Ordered l) : Ordered l' := by
  induction h with
  | move _ _ hq =>
    have hopen : ∀ {x : Prop}, _ = true → x := fun h => absurd (hq.symm.trans h) Bool.false_ne_true
    exact ordered_cons_cons.2 ⟨hopen, (ordered_cons_cons.1 hl).2.head fun _ => hopen⟩
  | close hitems hclosed =>
    refine ordered_cons_cons.2 ⟨fun _ => ⟨hitems, hclosed⟩, ?_⟩
    exact (ordered_cons_cons.1 hl).2.head fun h _ => ⟨h, rfl⟩
  | next h ih =>
    -- the head of what follows is closed only where it was
    cases h
    all_goals
      obtain ⟨hpq, htail⟩ := ordered_cons_cons.1 hl
      exact ordered_cons_cons.2 ⟨hpq, ih htail⟩

theorem Ordered.ended (h : Ordered (p :: l)) (hend : ended (p :: l) = true) :
    p.closed = true ∧ content (p :: l) = received (p :: l) := by
  induction l generalizing p with
  | nil => exact ⟨hend, rfl⟩
  | cons q l ih =>
    obtain ⟨hpq, hl⟩ := ordered_cons_cons.1 h
    obtain ⟨hq, hcontent⟩ := ih hl hend
    refine ⟨(hpq hq).2, ?_⟩
    rw [Flow.content, (hpq hq).1, List.append_nil, hcontent, received]

def Fresh (m : Line α) : Prop := ∀ p ∈ m, p.items = [] ∧ p.closed = false

variable {m : Line α}

theorem content_append : content (l ++ m) = content m ++ content l := by
  induction l with
  | nil => simp [content]
  | cons p l ih => rw [List.cons_append, content, ih, content, List.append_assoc]

theorem Fresh.content (h : Fresh m) : content m = [] := by
  induction m with
  | nil => rfl
  | cons p m ih =>
    rw [Flow.content, (h p List.mem_cons_self).1, ih fun q hq => h q (List.mem_cons_of_mem _ hq)]
    rfl

theorem Fresh.ordered_append (h : Fresh m) (hl : Ordered l) : Ordered (l ++ m) := by
  have hopen : ∀ p q : Place α, q ∈ m → q.closed = true → p.items = [] ∧ p.closed = true :=
    fun _ q hq hclosed => absurd ((h q hq).2.symm.trans hclosed) Bool.false_ne_true
  refine List.isChain_append.2 ⟨hl, ?_, fun p _ q hq => hopen p q (List.mem_of_mem_head? hq)⟩
  clear hl
  induction m with
  | nil => exact .nil
  | cons p m ih =>
    have hm := ih (fun q hq => h q (List.mem_cons_of_mem _ hq)) fun p q hq =>
      hopen p q (List.mem_cons_of_mem _ hq)
    cases m with
    | nil => exact .singleton _
    | cons q m => exact ordered_cons_cons.2 ⟨hopen p q (by simp), hm⟩

/-- Each flow lowers this, where the line is to have `k` places. -/
def remaining : ℕ → Line α → ℕ
  | k, [] => k
  | 0, _ :: _ => 0
  | k + 1, p :: l => p.items.length * k + (if p.closed then 0 else 1) + remaining k l

theorem Flows.remaining {k : ℕ} (h : Flows i l l') (hk : l.length ≤ k) :
    remaining k l' < remaining k l := by
  induction h generalizing k with
  | @move p q l xs rest hxs hitems hq =>
    obtain ⟨k, rfl⟩ : ∃ k', k = k' + 2 := ⟨k - 2, by simp only [List.length_cons] at hk; omega⟩
    have hpos := List.length_pos_iff.2 hxs
    simp only [Flow.remaining, hitems, hq, List.length_append, Nat.add_mul, Nat.mul_succ]
    omega
  | @close p q l _ _ hq =>
    obtain ⟨k, rfl⟩ : ∃ k', k = k' + 2 := ⟨k - 2, by simp only [List.length_cons] at hk; omega⟩
    simp only [Flow.remaining, hq]
    simp
  | @next i p l l' h ih =>
    obtain ⟨k, rfl⟩ : ∃ k', k = k' + 1 := ⟨k - 1, by simp only [List.length_cons] at hk; omega⟩
    have hlt := ih (Nat.le_of_succ_le_succ hk)
    simp only [Flow.remaining]
    omega

theorem remaining_append {k : ℕ} (hm : Fresh m) (hk : l.length + m.length ≤ k) :
    remaining k (l ++ m) = remaining k l := by
  induction l generalizing k with
  | nil =>
    rw [List.nil_append]
    induction m generalizing k with
    | nil => rfl
    | cons p m ih =>
      obtain ⟨k, rfl⟩ : ∃ k', k = k' + 1 := ⟨k - 1, by simp only [List.length_cons] at hk; omega⟩
      have hlen : ([] : Line α).length + m.length ≤ k := by
        simp only [List.length_cons] at hk
        simp only [List.length_nil] at hk ⊢
        omega
      have htail := ih (fun q hq => hm q (List.mem_cons_of_mem _ hq)) hlen
      obtain ⟨hitems, hopen⟩ := hm p List.mem_cons_self
      change p.items.length * k + (if p.closed then 0 else 1) + remaining k m = k + 1
      rw [htail, hitems, hopen, remaining, List.length_nil, Nat.zero_mul,
        if_neg Bool.false_ne_true, Nat.zero_add, Nat.add_comm]
  | cons p l ih =>
    obtain ⟨k, rfl⟩ : ∃ k', k = k' + 1 := ⟨k - 1, by simp only [List.length_cons] at hk; omega⟩
    have htail := ih (k := k) (by simp only [List.length_cons] at hk; omega)
    rw [List.cons_append, remaining, remaining, htail]

/-- Every place has room for something, and the last one for everything. -/
structure Roomy (l : Line α) : Prop where
  pos : ∀ c ∈ l.map Place.cap, 0 < c
  last : (l.map Place.cap).getLast? = some ⊤

theorem Flows.caps (h : Flows i l l') : l'.map Place.cap = l.map Place.cap := by
  induction h with
  | move => rfl
  | close => rfl
  | next _ ih => simp only [List.map_cons, ih]

theorem Roomy.tail {q : Place α} (h : Roomy (p :: q :: l)) : Roomy (q :: l) := by
  refine ⟨fun c hc => h.pos c (List.mem_cons_of_mem _ hc), ?_⟩
  have hlast := h.last
  rwa [List.map_cons, List.map_cons, List.getLast?_cons_cons] at hlast

theorem exists_flows_of_items {q : Place α} (hroom : Roomy (p :: q :: l))
    (hl : Ordered (p :: q :: l)) (hitems : p.items ≠ []) :
    ∃ i l', Flows i (p :: q :: l) l' := by
  induction l generalizing p q with
  | nil =>
    obtain ⟨x, rest, hx⟩ := List.exists_cons_of_ne_nil hitems
    have hcap : q.cap = ⊤ := Option.some.inj hroom.tail.last
    have hq : q.closed = false := by
      refine Bool.eq_false_iff.2 fun hq => hitems ?_
      exact ((ordered_cons_cons.1 hl).1 hq).1
    exact ⟨0, _, .move (List.cons_ne_nil x []) hx hq (hcap ▸ le_top)⟩
  | cons r l ih =>
    obtain ⟨x, rest, hx⟩ := List.exists_cons_of_ne_nil hitems
    have hq : q.closed = false := by
      refine Bool.eq_false_iff.2 fun hq => hitems ?_
      exact ((ordered_cons_cons.1 hl).1 hq).1
    by_cases hfull : q.items = []
    · have hpos : 0 < q.cap := hroom.tail.pos _ List.mem_cons_self
      refine ⟨0, _, .move (List.cons_ne_nil x []) hx hq ?_⟩
      rw [hfull]
      exact Order.one_le_iff_pos.2 hpos
    · -- the next place has something to hand on
      obtain ⟨i, l', h⟩ := ih hroom.tail (ordered_cons_cons.1 hl).2 hfull
      exact ⟨i + 1, _, .next h⟩

theorem exists_flows (hroom : Roomy (p :: l)) (hl : Ordered (p :: l)) (hp : p.closed = true)
    (hmore : Flow.ended (p :: l) = false) : ∃ i l', Flows i (p :: l) l' := by
  induction l generalizing p with
  | nil => exact absurd (hmore.symm.trans hp) Bool.false_ne_true
  | cons q l ih =>
    by_cases hitems : p.items = []
    · cases hq : q.closed with
      | false => exact ⟨0, _, .close hitems hp hq⟩
      | true =>
        obtain ⟨i, l', h⟩ := ih hroom.tail (ordered_cons_cons.1 hl).2 hq hmore
        exact ⟨i + 1, _, .next h⟩
    · exact exists_flows_of_items hroom hl hitems

/-- What is behind some closed place is a part of what was sent, from its start. -/
inductive Severed (sent : List α) : Line α → Prop
  | here {p : Place α} {l : Line α} :
      p.closed = true → content (p :: l) <+: sent → Severed sent (p :: l)
  | next {p : Place α} {l : Line α} : Severed sent l → Severed sent (p :: l)

/-- All that was sent is on the way, or the line is cut. -/
def Delivers (sent : List α) (l : Line α) : Prop := content l = sent ∨ Severed sent l

variable {sent : List α}

theorem Severed.initial (h : Severed sent l) : received l <+: sent := by
  induction h with
  | here _ hcontent => exact (received_initial _).trans hcontent
  | @next p l h ih =>
    cases h with
    | here => exact ih
    | next => exact ih

theorem Delivers.received (h : Delivers sent l) : received l <+: sent := by
  rcases h with rfl | h
  · exact received_initial l
  · exact h.initial

theorem Severed.flows (hs : Severed sent l) (h : Flows i l l') : Severed sent l' := by
  induction h with
  | move hxs hitems hq =>
    cases hs with
    | here hp hcontent => exact .here hp ((Flows.move hxs hitems hq ‹_›).content ▸ hcontent)
    | next hs =>
      cases hs with
      | here hq' => exact absurd (hq.symm.trans hq') Bool.false_ne_true
      | next hs => exact .next (.next hs)
  | close _ _ hq =>
    cases hs with
    | here hp hcontent => exact .here hp hcontent
    | next hs =>
      cases hs with
      | here hq' => exact absurd (hq.symm.trans hq') Bool.false_ne_true
      | next hs => exact .next (.next hs)
  | next h ih =>
    cases hs with
    | here hp hcontent => exact .here hp (h.next.content ▸ hcontent)
    | next hs => exact .next (ih hs)

theorem Delivers.flows (hs : Delivers sent l) (h : Flows i l l') : Delivers sent l' :=
  hs.imp (h.content.trans ·) (·.flows h)

theorem Severed.append (hs : Severed sent l) (xs : List α) : Severed (sent ++ xs) l := by
  induction hs with
  | here hp hcontent => exact .here hp (hcontent.trans (List.prefix_append _ _))
  | next _ ih => exact .next ih

theorem Delivers.send (hs : Delivers sent (p :: l)) (hp : p.closed = false) (xs : List α) :
    Delivers (sent ++ xs) (send xs (p :: l)) := by
  rcases hs with rfl | hs
  · exact .inl (send_content xs p l)
  · refine .inr ?_
    cases hs with
    | here hp' => exact absurd (hp.symm.trans hp') Bool.false_ne_true
    | next hs => exact .next (hs.append xs)

theorem Delivers.finish (hs : Delivers sent (p :: l)) : Delivers sent (finish (p :: l)) := by
  refine hs.imp id fun hs => ?_
  cases hs with
  | here _ hcontent => exact .here rfl hcontent
  | next hs => exact .next hs

/-- A line of which a part of what was sent was left is cut. -/
theorem Cut.severed (h : Cut i l l') (hcontent : content l <+: sent) : Severed sent l' := by
  induction h with
  | @here p q l kept hkept =>
    refine .here rfl (List.IsPrefix.trans ?_ hcontent)
    simp only [content, List.append_nil]
    exact ((List.prefix_append_right_inj _).2 hkept).trans (List.prefix_append _ _)
  | next _ ih => exact .next (ih ((List.prefix_append _ _).trans hcontent))

theorem Severed.cut (hs : Severed sent l) (h : Cut i l l') : Severed sent l' := by
  induction h with
  | here hkept =>
    cases hs with
    | here _ hcontent => exact (Cut.here hkept).severed hcontent
    | next hs =>
      cases hs with
      | here _ hcontent =>
        refine .next (.here rfl (List.IsPrefix.trans ?_ hcontent))
        exact (List.prefix_append_right_inj _).2 hkept
      | next hs => exact .next (.next hs)
  | next h ih =>
    cases hs with
    | here _ hcontent => exact h.next.severed hcontent
    | next hs => exact .next (ih hs)

theorem Delivers.cut (hs : Delivers sent l) (h : Cut i l l') : Delivers sent l' := by
  rcases hs with rfl | hs
  · exact .inr (h.severed List.prefix_rfl)
  · exact .inr (hs.cut h)

theorem Severed.grow (hs : Severed sent l) (hm : Fresh m) : Severed sent (l ++ m) := by
  induction hs with
  | here hp hcontent =>
    refine .here hp ?_
    rwa [List.append_eq, ← List.cons_append, content_append, hm.content, List.nil_append]
  | next _ ih => exact .next ih

/-- The `i`-th place holds `front` and nothing is behind it; the place gives it up. -/
inductive Strip (front : List α) : ℕ → Line α → Line α → Prop
  | here {p : Place α} {l : Line α} : p.items = front → content l = [] →
      Strip front 0 (p :: l) ({ p with items := [] } :: l)
  | next {i : ℕ} {p : Place α} {l l' : Line α} : Strip front i l l' →
      Strip front (i + 1) (p :: l) (p :: l')

variable {front : List α}

theorem Strip.content (h : Strip front i l l') : content l = front ++ content l' := by
  induction h with
  | here hitems hnil => simp [Flow.content, hitems, hnil]
  | next _ ih => rw [Flow.content, ih, Flow.content, List.append_assoc]

theorem Strip.length (h : Strip front i l l') : l'.length = l.length := by
  induction h with
  | here => rfl
  | next _ ih => simp only [List.length_cons, ih]

theorem Strip.received (h : Strip front i l l') (hlen : l.length = i + 1) : received l = front := by
  induction h with
  | @here p l hitems =>
    obtain rfl := List.length_eq_zero_iff.1 (Nat.succ.inj hlen)
    exact hitems
  | @next i p l l' h ih =>
    have hl := ih (Nat.succ.inj hlen)
    cases h <;> exact hl

theorem Flows.tail (h : Flows (i + 1) l l') : Flows i l.tail l'.tail := by
  cases h with
  | next h => exact h

theorem Cut.tail (h : Cut (i + 1) l l') : Cut i l.tail l'.tail := by
  cases h with
  | next h => exact h

theorem Strip.tail (h : Strip front (i + 1) l l') : Strip front i l.tail l'.tail := by
  cases h with
  | next h => exact h

theorem Cut.content_nil (h : Cut i l l') (hl : content l = []) : content l' = [] := by
  induction h with
  | here hkept =>
    simp only [content, List.append_eq_nil_iff] at hl ⊢
    exact ⟨⟨hl.1.1, List.prefix_nil.1 (hl.1.2 ▸ hkept)⟩, trivial⟩
  | next _ ih =>
    obtain ⟨hl, hp⟩ := List.append_eq_nil_iff.1 hl
    exact List.append_eq_nil_iff.2 ⟨ih hl, hp⟩

@[simp]
theorem send_tail (xs : List α) (l : Line α) : (send xs l).tail = l.tail := by
  cases l <;> rfl

@[simp]
theorem finish_tail (l : Line α) : (finish l).tail = l.tail := by
  cases l <;> rfl

@[simp]
theorem send_drop (xs : List α) (l : Line α) (k : ℕ) :
    (send xs l).drop (k + 1) = l.drop (k + 1) := by
  cases l <;> rfl

@[simp]
theorem finish_drop (l : Line α) (k : ℕ) : (finish l).drop (k + 1) = l.drop (k + 1) := by
  cases l <;> rfl

theorem received_append (hm : m ≠ []) :
    Flow.received (l ++ m) = Flow.received m ∧ Flow.ended (l ++ m) = Flow.ended m := by
  obtain ⟨q, m, rfl⟩ := List.exists_cons_of_ne_nil hm
  induction l with
  | nil => exact ⟨rfl, rfl⟩
  | cons p l ih =>
    cases l with
    | nil => exact ⟨rfl, rfl⟩
    | cons => exact ih

theorem Severed.of_nil {sent' : List α} (hs : Severed sent l) (hnil : content l = []) :
    Severed sent' l := by
  induction hs with
  | here hp => exact .here hp (hnil ▸ List.nil_prefix)
  | next _ ih => exact .next (ih (List.append_eq_nil_iff.1 hnil).1)

theorem Severed.strip (hs : Severed (front ++ sent) l) (h : Strip front i l l') :
    Severed sent l' := by
  induction h with
  | here hitems hnil =>
    cases hs with
    | here hp =>
      refine .here hp ?_
      rw [Flow.content, hnil]
      exact List.nil_prefix
    | next hs => exact .next (hs.of_nil hnil)
  | next h ih =>
    cases hs with
    | here hp hcontent =>
      rw [h.next.content, List.prefix_append_right_inj] at hcontent
      exact .here hp hcontent
    | next hs => exact .next (ih hs)

theorem Delivers.strip (hs : Delivers (front ++ sent) l) (h : Strip front i l l') :
    Delivers sent l' :=
  hs.imp (fun hcontent => List.append_cancel_left (h.content.symm.trans hcontent)) (·.strip h)

theorem Strip.ordered (h : Strip front i l l') (hl : Ordered l) : Ordered l' := by
  induction h with
  | here => exact hl.head fun _ hp => ⟨rfl, hp⟩
  | next h ih =>
    cases h
    all_goals
      obtain ⟨hpq, htail⟩ := ordered_cons_cons.1 hl
      exact ordered_cons_cons.2 ⟨hpq, ih htail⟩

/-- A step of a line that is not cut, with all that was sent before and after it. -/
inductive Moves : List α → Line α → List α → Line α → Prop
  | stay {sent : List α} {l : Line α} : Moves sent l sent l
  | send {sent xs : List α} {p : Place α} {l : Line α} : p.closed = false →
      Moves sent (p :: l) (sent ++ xs) (send xs (p :: l))
  | finish {sent : List α} {p : Place α} {l : Line α} :
      Moves sent (p :: l) sent (finish (p :: l))
  | flows {sent : List α} {i : ℕ} {l l' : Line α} : Flows i l l' → Moves sent l sent l'
  | grow {sent : List α} {l m : Line α} : Fresh m → Moves sent l sent (l ++ m)

/-- All that was sent is on the way, and ends are seen only behind it. -/
structure Whole (sent : List α) (l : Line α) : Prop where
  content : content l = sent
  ordered : Ordered l

variable {sent' : List α}

theorem Moves.delivers (h : Moves sent l sent' l') (hs : Delivers sent l) : Delivers sent' l' := by
  cases h with
  | stay => exact hs
  | send hp => exact hs.send hp _
  | finish => exact hs.finish
  | flows h => exact hs.flows h
  | grow hm =>
    refine hs.imp (fun hcontent => ?_) (·.grow hm)
    rw [content_append, hm.content, List.nil_append, hcontent]

theorem Moves.prepend (h : Moves sent l sent' l') (front : List α) :
    Moves (front ++ sent) l (front ++ sent') l' := by
  cases h with
  | stay => exact .stay
  | send hp => exact List.append_assoc front sent _ ▸ .send hp
  | finish => exact .finish
  | flows h => exact .flows h
  | grow hm => exact .grow hm

theorem Moves.whole (h : Moves sent l sent' l') (hs : Whole sent l) : Whole sent' l' := by
  obtain ⟨rfl, hl⟩ := hs
  cases h with
  | stay => exact ⟨rfl, hl⟩
  | send hp =>
    exact ⟨send_content _ _ _, hl.head fun _ hp' => absurd (hp.symm.trans hp') Bool.false_ne_true⟩
  | finish => exact ⟨rfl, hl.head fun hitems _ => ⟨hitems, rfl⟩⟩
  | flows h => exact ⟨h.content, h.ordered hl⟩
  | grow hm =>
    refine ⟨?_, hm.ordered_append hl⟩
    rw [content_append, hm.content, List.nil_append]

theorem Strip.whole (h : Strip front i l l') (hs : Whole (front ++ sent) l) : Whole sent l' :=
  ⟨List.append_cancel_left (h.content.symm.trans hs.content), h.ordered hs.ordered⟩

theorem Whole.received_of_ended (h : Whole sent l) (hend : ended l = true) : received l = sent := by
  cases l with
  | nil => cases hend
  | cons p l => exact (h.ordered.ended hend).2.symm.trans h.content

theorem Flows.index_lt (h : Flows i l l') : i + 1 < l.length := by
  induction h with
  | move => simp
  | close => simp
  | next _ ih => simpa only [List.length_cons] using Nat.succ_lt_succ ih

theorem Flows.content_drop (h : Flows i l l') (k : ℕ) :
    Flow.content (l.drop k) <+: Flow.content (l'.drop k) := by
  induction h generalizing k with
  | @move p q l xs rest hxs hitems hq hroom =>
    match k with
    | 0 =>
      exact (Flows.move hxs hitems hq hroom).content ▸ List.prefix_rfl
    | 1 =>
      simp only [List.drop_succ_cons, List.drop_zero, Flow.content, ← List.append_assoc]
      exact List.prefix_append _ _
    | k + 2 => exact List.prefix_rfl
  | close =>
    match k with
    | 0 => exact List.prefix_rfl
    | 1 => exact List.prefix_rfl
    | k + 2 => exact List.prefix_rfl
  | next h ih =>
    match k with
    | 0 =>
      exact h.next.content ▸ List.prefix_rfl
    | k + 1 => exact ih k

theorem Flows.content_drop_eq {k : ℕ} (h : Flows i l l') (hk : k ≤ i) :
    Flow.content (l'.drop k) = Flow.content (l.drop k) := by
  induction h generalizing k with
  | move hxs hitems hq hroom =>
    obtain rfl := Nat.le_zero.1 hk
    exact (Flows.move hxs hitems hq hroom).content
  | close => rw [Nat.le_zero.1 hk]; rfl
  | next h ih =>
    match k with
    | 0 => exact h.next.content
    | k + 1 => exact ih (Nat.le_of_succ_le_succ hk)

theorem Flows.last (h : Flows i l l') (hi : i + 2 < l.length) :
    received l' = received l ∧ Flow.ended l' = Flow.ended l := by
  induction h with
  | @move p q l =>
    cases l with
    | nil => simp at hi
    | cons => exact ⟨rfl, rfl⟩
  | @close p q l =>
    cases l with
    | nil => simp at hi
    | cons => exact ⟨rfl, rfl⟩
  | next h ih =>
    have hlast := ih (by simp only [List.length_cons] at hi; omega)
    cases h <;> exact hlast

/-- Whether the `k`-th place is closed. -/
def closedAt (k : ℕ) (l : Line α) : Prop := (l[k]?).map Place.closed = some true

theorem closedAt_succ {k : ℕ} : closedAt (k + 1) (p :: l) ↔ closedAt k l := by
  rw [closedAt, List.getElem?_cons_succ, closedAt]

theorem Flows.closedAt {k : ℕ} (h : Flows i l l') (hk : closedAt k l) : closedAt k l' := by
  induction h generalizing k with
  | move =>
    match k with
    | 0 => exact hk
    | 1 => exact hk
    | k + 2 => exact hk
  | close =>
    match k with
    | 0 => exact hk
    | 1 => exact rfl
    | k + 2 => exact hk
  | next _ ih =>
    match k with
    | 0 => exact hk
    | k + 1 => exact ih hk

theorem Moves.closedAt {k : ℕ} (h : Moves sent l sent' l') (hk : closedAt k l) :
    closedAt k l' := by
  cases h with
  | stay => exact hk
  | send =>
    match k with
    | 0 => exact hk
    | k + 1 => exact hk
  | finish =>
    match k with
    | 0 => exact rfl
    | k + 1 => exact hk
  | flows h => exact h.closedAt hk
  | grow =>
    have hlt : k < l.length := by
      by_contra hge
      rw [Flow.closedAt, List.getElem?_eq_none (Nat.le_of_not_lt hge)] at hk
      cases hk
    rwa [Flow.closedAt, List.getElem?_append_left hlt]

theorem Strip.closedAt {k : ℕ} (h : Strip front i l l') (hk : closedAt k l) : closedAt k l' := by
  induction h generalizing k with
  | here =>
    match k with
    | 0 => exact hk
    | k + 1 => exact hk
  | next _ ih =>
    match k with
    | 0 => exact hk
    | k + 1 => exact ih hk

theorem Strip.caps (h : Strip front i l l') : l'.map Place.cap = l.map Place.cap := by
  induction h with
  | here => rfl
  | next _ ih => simp only [List.map_cons, ih]

@[simp]
theorem send_caps (xs : List α) (l : Line α) : (send xs l).map Place.cap = l.map Place.cap := by
  cases l <;> rfl

@[simp]
theorem finish_caps (l : Line α) : (finish l).map Place.cap = l.map Place.cap := by
  cases l <;> rfl

theorem Strip.remaining_le {k : ℕ} (h : Strip front i l l') : remaining k l' ≤ remaining k l := by
  induction h generalizing k with
  | here =>
    cases k with
    | zero => exact le_rfl
    | succ k =>
      simp only [remaining, List.length_nil, Nat.zero_mul]
      omega
  | next _ ih =>
    cases k with
    | zero => exact le_rfl
    | succ k =>
      have hle := ih (k := k)
      simp only [remaining]
      omega

theorem Ordered.head_closed {k : ℕ} (h : Ordered (p :: l)) (hk : Flow.closedAt k (p :: l)) :
    p.closed = true := by
  induction k generalizing p l with
  | zero => exact Option.some.inj hk
  | succ k ih =>
    cases l with
    | nil => cases hk
    | cons q l =>
      obtain ⟨hpq, hl⟩ := ordered_cons_cons.1 h
      exact (hpq (ih hl hk)).2

theorem Flows.le_of_closedAt {k : ℕ} (h : Flows i l l') (hl : Ordered l) (hk : Flow.closedAt k l) :
    k ≤ i := by
  induction h generalizing k with
  | move _ _ hq =>
    match k with
    | 0 => exact le_rfl
    | k + 1 =>
      have hclosed := (ordered_cons_cons.1 hl).2.head_closed (closedAt_succ.1 hk)
      exact absurd (hq.symm.trans hclosed) Bool.false_ne_true
  | close _ _ hq =>
    match k with
    | 0 => exact le_rfl
    | k + 1 =>
      have hclosed := (ordered_cons_cons.1 hl).2.head_closed (closedAt_succ.1 hk)
      exact absurd (hq.symm.trans hclosed) Bool.false_ne_true
  | next h ih =>
    match k with
    | 0 => exact Nat.zero_le _
    | k + 1 =>
      refine Nat.succ_le_succ (ih ?_ (closedAt_succ.1 hk))
      cases h <;> exact (ordered_cons_cons.1 hl).2

theorem Ordered.closedAt_of_ended {k : ℕ} (hl : Ordered l) (hend : Flow.ended l = true)
    (hk : k < l.length) : Flow.closedAt k l := by
  induction k generalizing l with
  | zero =>
    obtain ⟨p, l, rfl⟩ := List.exists_cons_of_length_pos hk
    exact congrArg some (hl.ended hend).1
  | succ k ih =>
    match l with
    | [] => cases hend
    | [_] => simp at hk
    | p :: q :: l => exact ih (ordered_cons_cons.1 hl).2 hend (Nat.lt_of_succ_lt_succ hk)

/-- Where nothing flows any more, all there is has come out, and the end behind it. -/
theorem Ordered.quiet (hl : Ordered (p :: l)) (hroom : Roomy (p :: l))
    (hquiet : ∀ i l', ¬Flows i (p :: l) l') :
    Flow.received (p :: l) = Flow.content (p :: l) ∧
      (p.closed = true → Flow.ended (p :: l) = true) := by
  constructor
  · induction l generalizing p with
    | nil => rfl
    | cons q l ih =>
      have hitems : p.items = [] := by
        by_contra hitems
        obtain ⟨i, l', h⟩ := exists_flows_of_items hroom hl hitems
        exact hquiet i l' h
      rw [Flow.received, ih (ordered_cons_cons.1 hl).2 hroom.tail
        fun i l' h => hquiet (i + 1) _ h.next, Flow.content.eq_2 p, hitems, List.append_nil]
  · intro hp
    by_contra hmore
    obtain ⟨i, l', h⟩ := exists_flows hroom hl hp (Bool.eq_false_iff.2 hmore)
    exact hquiet i l' h

theorem Whole.quiet (h : Whole sent l) (hroom : Roomy l) (hquiet : ∀ i l', ¬Flows i l l') :
    received l = sent ∧ (closedAt 0 l → ended l = true) := by
  cases l with
  | nil => exact ⟨h.content, nofun⟩
  | cons p l =>
    obtain ⟨hreceived, hend⟩ := h.ordered.quiet hroom hquiet
    exact ⟨hreceived.trans h.content, fun hp => hend (Option.some.inj hp)⟩

end Oyster.Flow
