import Mathlib.Data.ENat.Basic
import Oyster.Lib.Prog
import Oyster.Lib.Run

/-!
Two programs that send and receive bytes over a pair of reliable, ordered pipes, each with room
for `cap` bytes: sending waits for room and receiving for a byte. What a program asks of its own
side is answered by a function. The steps of the two sides are independent, so one run from a
state tells how every run from it ends; and traces that mirror each other make up a run.
-/

namespace Oyster.Pipe

open Prog

/-- Send or receive a byte, or ask the own side. -/
inductive Op (L : Type) where
  | send (b : UInt8)
  | recv
  | loc (op : L)

/-- `none` is an error of the stream, which the pipes never give. -/
abbrev Ans {L : Type} (A : L → Type) : Op L → Type
  | .send _ => Option Unit
  | .recv => Option UInt8
  | .loc op => A op

variable {L : Type} {A : L → Type} {α β : Type}

abbrev Party (A : L → Type) (α : Type) := Prog (Op L) (Ans A) α

inductive PartyStep (cap : ℕ∞) (answer : ∀ op, A op) :
    Party A α → List UInt8 → List UInt8 → Party A α → List UInt8 → List UInt8 → Prop
  | send {b : UInt8} {k : Option Unit → Party A α} {inb out : List UInt8} :
      (out.length : ℕ∞) < cap →
      PartyStep cap answer (.call (.send b) k) inb out (k (some ())) inb (out ++ [b])
  | recv {b : UInt8} {k : Option UInt8 → Party A α} {inb out : List UInt8} :
      PartyStep cap answer (.call .recv k) (b :: inb) out (k (some b)) inb out
  | loc {op : L} {k : A op → Party A α} {inb out : List UInt8} :
      PartyStep cap answer (.call (.loc op) k) inb out (k (answer op)) inb out

section PartyStep

variable {cap : ℕ∞} {answer : ∀ op, A op} {p p' p'' : Party A α}
  {inb inb' inb'' out out' out'' : List UInt8} {b : UInt8}

theorem PartyStep.unique (h : PartyStep cap answer p inb out p' inb' out')
    (h' : PartyStep cap answer p inb out p'' inb'' out'') :
    p' = p'' ∧ inb' = inb'' ∧ out' = out'' := by
  cases h <;> cases h' <;> exact ⟨rfl, rfl, rfl⟩

end PartyStep

structure Net (A : L → Type) (α β : Type) where
  left : Party A α
  right : Party A β
  toRight : List UInt8
  toLeft : List UInt8

inductive Net.Step (cap : ℕ∞) (ansL ansR : ∀ op, A op) : Net A α β → Bool → Net A α β → Prop
  | left {p p' : Party A α} {q : Party A β} {toR toR' toL toL' : List UInt8} :
      PartyStep cap ansL p toL toR p' toL' toR' →
      Net.Step cap ansL ansR ⟨p, q, toR, toL⟩ true ⟨p', q, toR', toL'⟩
  | right {p : Party A α} {q q' : Party A β} {toR toR' toL toL' : List UInt8} :
      PartyStep cap ansR q toR toL q' toR' toL' →
      Net.Step cap ansL ansR ⟨p, q, toR, toL⟩ false ⟨p, q', toR', toL'⟩

section Net

variable {cap : ℕ∞} {ansL ansR : ∀ op, A op}

theorem lt_cap_of_cons {b : UInt8} {out : List UInt8} (h : ((b :: out).length : ℕ∞) < cap) :
    (out.length : ℕ∞) < cap :=
  lt_of_le_of_lt (by exact_mod_cast Nat.le_succ out.length) h

/-- What the parties do does not depend on who goes first. -/
theorem PartyStep.commute {p p' : Party A α} {q q' : Party A β}
    {toR toL toR₁ toL₁ toR₂ toL₂ : List UInt8}
    (hl : PartyStep cap ansL p toL toR p' toL₁ toR₁)
    (hr : PartyStep cap ansR q toR toL q' toR₂ toL₂) :
    ∃ toR₃ toL₃, PartyStep cap ansR q toR₁ toL₁ q' toR₃ toL₃ ∧
      PartyStep cap ansL p toL₂ toR₂ p' toL₃ toR₃ := by
  -- a send appends where the other side takes from the front
  cases hl with
  | send hroom =>
    cases hr with
    | send hroom' => exact ⟨_, _, .send hroom', .send hroom⟩
    | recv => exact ⟨_, _, .recv, .send (lt_cap_of_cons hroom)⟩
    | loc => exact ⟨_, _, .loc, .send hroom⟩
  | recv =>
    cases hr with
    | send hroom => exact ⟨_, _, .send (lt_cap_of_cons hroom), .recv⟩
    | recv => exact ⟨_, _, .recv, .recv⟩
    | loc => exact ⟨_, _, .loc, .recv⟩
  | loc => exact ⟨_, _, hr, .loc⟩

theorem Net.diamond :
    Diamond (Net.Step (α := α) (β := β) cap ansL ansR) := by
  intro n e e' a b ha hb
  cases ha with
  | left hl =>
    cases hb with
    | left hl' =>
      obtain ⟨rfl, rfl, rfl⟩ := hl.unique hl'
      exact .inl rfl
    | right hr =>
      obtain ⟨toR, toL, hr', hl'⟩ := hl.commute hr
      exact .inr ⟨_, .right hr', .left hl'⟩
  | right hr =>
    cases hb with
    | left hl =>
      obtain ⟨toR, toL, hr', hl'⟩ := hl.commute hr
      exact .inr ⟨_, .left hl', .right hr'⟩
    | right hr' =>
      obtain ⟨rfl, rfl, rfl⟩ := hr.unique hr'
      exact .inl rfl

theorem Net.stuck_of_ret (a : α) (b : β) (toR toL : List UInt8) :
    Stuck (Net.Step cap ansL ansR) (⟨.ret a, .ret b, toR, toL⟩ : Net A α β) := by
  intro e n h
  cases h with
  | left h => cases h
  | right h => cases h

theorem Net.right_ret {n m : Net A α β} {es : List Bool} {b : β}
    (h : Run (Net.Step cap ansL ansR) n es m) (hn : n.right = .ret b) : m.right = .ret b := by
  induction h with
  | nil => exact hn
  | cons hs _ ih =>
    apply ih
    cases hs with
    | left => exact hn
    | right hr =>
      cases hn
      cases hr

end Net

/-- What a party does to the pipes. -/
inductive Act where
  | send (b : UInt8)
  | recv (b : UInt8)

def Act.dual : Act → Act
  | send b => recv b
  | recv b => send b

/-- The party can do `t` and go on as `p'`. -/
inductive Path (answer : ∀ op, A op) : Party A α → List Act → Party A α → Prop
  | refl (p : Party A α) : Path answer p [] p
  | send {b : UInt8} {k : Option Unit → Party A α} {t : List Act} {p' : Party A α} :
      Path answer (k (some ())) t p' → Path answer (.call (.send b) k) (.send b :: t) p'
  | recv {b : UInt8} {k : Option UInt8 → Party A α} {t : List Act} {p' : Party A α} :
      Path answer (k (some b)) t p' → Path answer (.call .recv k) (.recv b :: t) p'
  | loc {op : L} {k : A op → Party A α} {t : List Act} {p' : Party A α} :
      Path answer (k (answer op)) t p' → Path answer (.call (.loc op) k) t p'

section Path

variable {answer ansL ansR : ∀ op, A op} {p p' : Party A α} {q q' : Party A β} {t t' : List Act}

theorem Path.append {p'' : Party A α} (h : Path answer p t p') (h' : Path answer p' t' p'') :
    Path answer p (t ++ t') p'' := by
  induction h with
  | refl => exact h'
  | send _ ih => exact .send (ih h')
  | recv _ ih => exact .recv (ih h')
  | loc _ ih => exact .loc (ih h')

theorem Path.bind (f : α → Party A β) (h : Path answer p t p') :
    Path answer (p >>= f) t (p' >>= f) := by
  induction h with
  | refl => exact .refl _
  | send _ ih => exact .send ih
  | recv _ ih => exact .recv ih
  | loc _ ih => exact .loc ih

theorem Path.send_inv {b : UInt8} (h : Path answer p (.send b :: t) p') :
    ∃ k, Path answer p [] (.call (.send b) k) ∧ Path answer (k (some ())) t p' := by
  generalize hs : Act.send b :: t = s at h
  induction h with
  | refl => cases hs
  | send h =>
    cases hs
    exact ⟨_, .refl _, h⟩
  | recv => cases hs
  | loc _ ih =>
    obtain ⟨k, hk, h⟩ := ih hs
    exact ⟨k, .loc hk, h⟩

theorem Path.recv_inv {b : UInt8} (h : Path answer p (.recv b :: t) p') :
    ∃ k, Path answer p [] (.call .recv k) ∧ Path answer (k (some b)) t p' := by
  generalize hs : Act.recv b :: t = s at h
  induction h with
  | refl => cases hs
  | send => cases hs
  | recv h =>
    cases hs
    exact ⟨_, .refl _, h⟩
  | loc _ ih =>
    obtain ⟨k, hk, h⟩ := ih hs
    exact ⟨k, .loc hk, h⟩

theorem Path.split (h : Path answer p (t ++ t') p') :
    ∃ p₁, Path answer p t p₁ ∧ Path answer p₁ t' p' := by
  induction t generalizing p with
  | nil => exact ⟨p, .refl p, h⟩
  | cons a t ih =>
    cases a with
    | send b =>
      obtain ⟨k, hk, h⟩ := h.send_inv
      obtain ⟨p₁, h₁, h₂⟩ := ih h
      exact ⟨p₁, hk.append (.send h₁), h₂⟩
    | recv b =>
      obtain ⟨k, hk, h⟩ := h.recv_inv
      obtain ⟨p₁, h₁, h₂⟩ := ih h
      exact ⟨p₁, hk.append (.recv h₁), h₂⟩

variable {cap : ℕ∞}

theorem Path.run_right (h : Path ansR q [] q') (p : Party A α) (toR toL : List UInt8) :
    ∃ es, Run (Net.Step cap ansL ansR) ⟨p, q, toR, toL⟩ es ⟨p, q', toR, toL⟩ := by
  generalize ht : ([] : List Act) = t at h
  induction h with
  | refl => exact ⟨[], .nil _⟩
  | send => cases ht
  | recv => cases ht
  | loc _ ih =>
    obtain ⟨es, hes⟩ := ih ht
    exact ⟨_, .cons (.right .loc) hes⟩

/-- Parties whose traces mirror each other run together: each byte is taken as soon as it is
sent, so room for one is enough. -/
theorem Path.run (hcap : 1 ≤ cap) (h : Path ansL p t p') (h' : Path ansR q (t.map .dual) q') :
    ∃ es, Run (Net.Step cap ansL ansR) ⟨p, q, [], []⟩ es ⟨p', q', [], []⟩ := by
  have hroom : (([] : List UInt8).length : ℕ∞) < cap := lt_of_lt_of_le zero_lt_one hcap
  -- on the trace of the left party; the right one first does what does not touch the pipes
  induction h generalizing q with
  | refl p => exact h'.run_right p [] []
  | send _ ih =>
    obtain ⟨k, hk, h'⟩ := h'.recv_inv
    obtain ⟨es, hes⟩ := hk.run_right _ [] []
    obtain ⟨fs, hfs⟩ := ih h'
    exact ⟨_, hes.append (.cons (.left (.send hroom)) (.cons (.right .recv) hfs))⟩
  | recv _ ih =>
    obtain ⟨k, hk, h'⟩ := h'.send_inv
    obtain ⟨es, hes⟩ := hk.run_right _ [] []
    obtain ⟨fs, hfs⟩ := ih h'
    exact ⟨_, hes.append (.cons (.right (.send hroom)) (.cons (.left .recv) hfs))⟩
  | loc _ ih =>
    obtain ⟨fs, hfs⟩ := ih h'
    exact ⟨_, .cons (.left .loc) hfs⟩

end Path

section Messages

variable {answer : ∀ op, A op}

/-- `write_all`. -/
def sendAll : List UInt8 → Party A (Option Unit)
  | [] => .ret (some ())
  | b :: bs => .call (.send b) fun
    | none => .ret none
    | some () => sendAll bs

/-- `read_exact`. -/
def recvExact : ℕ → Party A (Option (List UInt8))
  | 0 => .ret (some [])
  | n + 1 => .call .recv fun
    | none => .ret none
    | some b => do
      match ← recvExact n with
      | none => return none
      | some bs => return some (b :: bs)

theorem Path.sendAll (bs : List UInt8) :
    Path answer (sendAll bs) (bs.map .send) (.ret (some ())) := by
  induction bs with
  | nil => exact .refl _
  | cons b bs ih => exact .send ih

theorem Path.recvExact (bs : List UInt8) :
    Path answer (recvExact bs.length) (bs.map .recv) (.ret (some bs)) := by
  induction bs with
  | nil => exact .refl _
  | cons b bs ih =>
    have h := ih.bind fun
      | none => pure none
      | some bs => (pure (some (b :: bs)) : Party A (Option (List UInt8)))
    exact .recv h

end Messages

section Fail

variable {ε : Type} {answer : ∀ op, A op} {t t' : List Act}

theorem Path.bind_ok {x : ExceptT ε (Party A) α} {f : α → ExceptT ε (Party A) β} {a : α}
    {q : Party A (Except ε β)} (h : Path answer x.run t (.ret (.ok a)))
    (h' : Path answer (f a).run t' q) : Path answer (x >>= f).run (t ++ t') q :=
  (h.bind (ExceptT.bindCont f)).append h'

theorem Path.bind_error {x : ExceptT ε (Party A) α} (f : α → ExceptT ε (Party A) β) {e : ε}
    (h : Path answer x.run t (.ret (.error e))) :
    Path answer (x >>= f).run t (.ret (.error e)) :=
  h.bind (ExceptT.bindCont f)

end Fail

end Oyster.Pipe
