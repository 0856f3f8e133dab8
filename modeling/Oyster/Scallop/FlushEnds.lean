import Mathlib.Logic.Function.Iterate
import Oyster.Scallop.WellFormed

namespace Oyster.Scallop

open Loop

namespace Base

variable {B : Type}

/-- The base stream accepts the bytes, call by call, until some are left. -/
inductive Takes (base : Base B) : B → Bytes → B → Bytes → Prop
  | refl (b : B) (out : Bytes) : Takes base b out b out
  | step {b b' b'' : B} {out rest : Bytes} {size : ℕ} :
      out ≠ [] → base.pollWrite b out = (.accepted size, b') →
      Takes base b' (out.drop size) b'' rest → Takes base b out b'' rest

def offered (base : Base B) (out : Bytes) (b : B) : B := (base.pollWrite b out).2

def AcceptsNone (base : Base B) (b : B) (out : Bytes) : Prop :=
  ∀ k, (base.pollWrite ((base.offered out)^[k] b) out).1 = .accepted 0

/-- The base stream comes to accept no more of the bytes, and never says that it pends or fails. -/
def Stalls (base : Base B) (b : B) (out : Bytes) : Prop :=
  ∃ b' rest, Takes base b out b' rest ∧ rest ≠ [] ∧ AcceptsNone base b' rest

variable {base : Base B} {b : B} {out : Bytes}

theorem AcceptsNone.next (h : AcceptsNone base b out) :
    base.pollWrite b out = (.accepted 0, base.offered out b) ∧
      AcceptsNone base (base.offered out b) out :=
  ⟨Prod.ext (h 0) rfl, fun k => h (k + 1)⟩

theorem Stalls.next (h : Stalls base b out) :
    out ≠ [] ∧ ∃ size b', base.pollWrite b out = (.accepted size, b') ∧
      Stalls base b' (out.drop size) := by
  obtain ⟨b', rest, htakes, hne, hnone⟩ := h
  cases htakes with
  | refl =>
    obtain ⟨hwrite, hnone'⟩ := hnone.next
    exact ⟨hne, 0, _, hwrite, _, out, .refl _ _, hne, hnone'⟩
  | step hout hwrite htakes => exact ⟨hout, _, _, hwrite, b', rest, htakes, hne, hnone⟩

end Base

namespace Loops

variable {B S : Type} {base : Base B} {n : TransportState S} {b : B} {s : ScallopStream S}

theorem flushRound_next {x : B × ScallopStream S}
    (h : flushRound base (b, s) = some (.next x)) :
    ∃ size b', s.queued ≠ [] ∧ base.pollWrite b s.queued = (.accepted size, b') ∧
      x = (b', { s with writeStart := s.writeStart + size }) := by
  by_cases hin : s.writeStart ≤ s.writeEnd ∧ s.writeEnd ≤ s.wbuf.length
  · obtain ⟨hstart, hroom⟩ := hin
    rw [flushRound_eq hstart hroom] at h
    split at h
    · cases h
    next hne =>
      have hlen := ScallopStream.queued_length hroom
      have hqueued : s.queued ≠ [] := List.ne_nil_of_length_pos (by omega)
      cases hwrite : base.pollWrite b s.queued with
      | mk answer b' =>
        rw [hwrite] at h
        cases answer with
        | pending => cases h
        | error => cases h
        | accepted size =>
          cases h
          exact ⟨size, b', hqueued, rfl, rfl⟩
  · unfold flushRound slice at h
    dsimp only at h
    rw [if_neg hin] at h
    split at h
    · cases h
    · cases h

theorem flushRound_accepted {size : ℕ} {b' : B} (hstart : s.writeStart ≤ s.writeEnd)
    (hroom : s.writeEnd ≤ s.wbuf.length) (hqueued : s.queued ≠ [])
    (hwrite : base.pollWrite b s.queued = (.accepted size, b')) :
    flushRound base (b, s) = some (.next (b', { s with writeStart := s.writeStart + size })) := by
  have hne : s.writeStart ≠ s.writeEnd := fun h => hqueued (ScallopStream.queued_eq_nil h)
  rw [flushRound_eq hstart hroom, if_neg hne, hwrite]

theorem takes_of_reaches {x y : B × ScallopStream S} (h : Reaches (flushRound base) x y) :
    base.Takes x.1 x.2.queued y.1 y.2.queued := by
  induction h with
  | refl => exact .refl _ _
  | @next x _ _ hround _ ih =>
    obtain ⟨size, b', hqueued, hwrite, rfl⟩ := flushRound_next (b := x.1) (s := x.2) hround
    rw [ScallopStream.queued_advance] at ih
    exact .step hqueued hwrite ih

/-- A flush that spins has met a base stream that stalls: what is queued shrinks no more from some
round on. -/
theorem stalls_of_spins (h : Spins (flushRound base) (b, s)) : base.Stalls b s.queued := by
  have hshrinks : ∀ x y : B × ScallopStream S, flushRound base x = some (.next y) →
      y.2.queued.length ≤ x.2.queued.length := by
    intro x y hround
    obtain ⟨size, b', -, -, rfl⟩ := flushRound_next (b := x.1) (s := x.2) hround
    rw [ScallopStream.queued_advance, List.length_drop]
    exact Nat.sub_le _ _
  obtain ⟨⟨b', u⟩, hreach, hsame⟩ := h.settles (μ := fun x => x.2.queued.length) hshrinks
  have hspins := h.reaches hreach
  -- every further round offers the same bytes again
  have hround : ∀ b₁, Reaches (flushRound base) (b', u) (b₁, u) →
      u.queued ≠ [] ∧ (base.pollWrite b₁ u.queued).1 = .accepted 0 ∧
        flushRound base (b₁, u) = some (.next (base.offered u.queued b₁, u)) := by
    intro b₁ hr
    obtain ⟨y, hy, -⟩ := (hspins.reaches hr).next
    obtain ⟨size, b₂, hqueued, hwrite, rfl⟩ := flushRound_next hy
    have hlen := hsame _ (hr.trans (.next hy (.refl _)))
    dsimp only at hlen
    rw [ScallopStream.queued_advance, List.length_drop] at hlen
    have hpos := List.length_pos_iff.2 hqueued
    have hle := base.write_le hwrite
    -- what is left shrinks no more, so none of it was accepted
    obtain rfl : size = 0 := by omega
    have hoffered : base.offered u.queued b₁ = b₂ := by
      rw [Base.offered, hwrite]
    rw [hoffered, hwrite]
    exact ⟨hqueued, rfl, hy⟩
  have hreaches : ∀ k, Reaches (flushRound base) (b', u) ((base.offered u.queued)^[k] b', u) := by
    intro k
    induction k with
    | zero => exact .refl _
    | succ k ih =>
      rw [Function.iterate_succ_apply']
      exact ih.trans (.next (hround _ ih).2.2 (.refl _))
  exact ⟨b', u.queued, takes_of_reaches hreach, (hround b' (.refl _)).1,
    fun k => (hround _ (hreaches k)).2.1⟩

/-- Over a base stream that stalls on what is queued, a flush spins. -/
theorem spins_of_stalls (hstart : s.writeStart ≤ s.writeEnd)
    (hroom : s.writeEnd ≤ s.wbuf.length) (h : base.Stalls b s.queued) :
    Spins (flushRound base) (b, s) := by
  refine spins_of_next (fun x => x.2.writeStart ≤ x.2.writeEnd ∧
    x.2.writeEnd ≤ x.2.wbuf.length ∧ base.Stalls x.1 x.2.queued) ?_ ⟨hstart, hroom, h⟩
  rintro ⟨b, s⟩ ⟨hstart, hroom, hstalls⟩
  obtain ⟨hqueued, size, b', hwrite, hrest⟩ := hstalls.next
  have hle := base.write_le hwrite
  dsimp only at hstart hroom hle
  rw [ScallopStream.queued_length hroom] at hle
  refine ⟨_, flushRound_accepted hstart hroom hqueued hwrite, ?_, hroom, ?_⟩
  · show s.writeStart + size ≤ s.writeEnd
    omega
  · dsimp only
    rw [ScallopStream.queued_advance]
    exact hrest

theorem pollFlush_returns_iff (hstart : s.writeStart ≤ s.writeEnd)
    (hroom : s.writeEnd ≤ s.wbuf.length) :
    Loop.Returns (fun fuel => pollFlush base fuel b s) ↔ ¬base.Stalls b s.queued := by
  constructor
  · intro h hstalls
    exact (spins_of_stalls hstart hroom hstalls).not_returns h
  · intro h
    have hpanic : ∀ fuel, run (flushRound base) fuel (b, s) ≠ .error .panic := fun _ =>
      (pollFlush_safe hstart hroom).ne_panic
    obtain hreturns | hspins := returns_or_spins hpanic
    · exact hreturns
    · exact absurd (stalls_of_spins hspins) h

theorem pollWrite_returns_iff {buf : Bytes} :
    Loop.Returns (fun fuel => pollWrite base n buf fuel b s) ↔
      Loop.Returns fun fuel => pollFlush base fuel b s := by
  apply returns_bind_iff
  rintro ⟨result, b', s'⟩
  cases result with
  | pending => exact ⟨_, rfl⟩
  | error e => exact ⟨_, rfl⟩
  | ready _ => exact ⟨_, congrArg ofOption (queue_eq buf)⟩

theorem pollShutdown_returns_iff :
    Loop.Returns (fun fuel => pollShutdown base fuel b s) ↔
      Loop.Returns fun fuel => pollFlush base fuel b s := by
  apply returns_bind_iff
  rintro ⟨result, b', s'⟩
  cases result with
  | pending => exact ⟨_, rfl⟩
  | error e => exact ⟨_, rfl⟩
  | ready _ => exact ⟨_, rfl⟩

/-- Whatever is queued, flushing, writing and shutting down return after finitely many calls of
the base stream exactly when the base stream does not stall on what is queued. -/
theorem polls_return_iff (hstart : s.writeStart ≤ s.writeEnd)
    (hroom : s.writeEnd ≤ s.wbuf.length) :
    (Loop.Returns (fun fuel => pollFlush base fuel b s) ↔ ¬base.Stalls b s.queued) ∧
      (∀ buf, Loop.Returns (fun fuel => pollWrite base n buf fuel b s) ↔
        ¬base.Stalls b s.queued) ∧
      (Loop.Returns (fun fuel => pollShutdown base fuel b s) ↔ ¬base.Stalls b s.queued) := by
  have hflush : Loop.Returns (fun fuel => pollFlush base fuel b s) ↔ ¬base.Stalls b s.queued :=
    pollFlush_returns_iff hstart hroom
  exact ⟨hflush, fun _ => pollWrite_returns_iff.trans hflush,
    pollShutdown_returns_iff.trans hflush⟩

namespace Sample

def eagerBase : Base Unit where
  pollRead _ _ := (.data [], ())
  pollWrite _ out := (.accepted out.length, ())
  pollFlush _ := (.ready (), ())
  pollShutdown _ := (.ready (), ())
  read_le := by
    rintro _ _ _ _ ⟨⟩
    exact Nat.zero_le _
  write_le := by
    rintro _ _ _ _ ⟨⟩
    exact Nat.le_refl _

/-- Nothing more can be written. -/
def closedBase : Base Unit := { eagerBase with
  pollWrite := fun _ _ => (.accepted 0, ())
  write_le := by
    rintro _ _ _ _ ⟨⟩
    exact Nat.zero_le _ }

def oneRecord : ScallopStream Unit := { ScallopStream.new () with
  wbuf := [0, 1, 7]
  writeEnd := 3 }

theorem eagerBase_not_stalls (out : Bytes) : ¬eagerBase.Stalls () out := by
  rintro ⟨b', rest, -, hne, hnone⟩
  have hlen : WriteAnswer.accepted rest.length = .accepted 0 := hnone 0
  exact hne (List.length_eq_zero_iff.1 (WriteAnswer.accepted.inj hlen))

theorem oneRecord_returns :
    Loop.Returns (fun fuel => pollFlush eagerBase fuel () oneRecord) ∧
      Loop.Returns (fun fuel => pollWrite eagerBase zeroTagNoise [9] fuel () oneRecord) ∧
      Loop.Returns fun fuel => pollShutdown eagerBase fuel () oneRecord := by
  have hends := eagerBase_not_stalls oneRecord.queued
  obtain ⟨hflush, hwrite, hshutdown⟩ :=
    polls_return_iff (n := zeroTagNoise) (s := oneRecord) (by decide) (by decide)
  exact ⟨hflush.2 hends, (hwrite [9]).2 hends, hshutdown.2 hends⟩

theorem closedBase_stalls : closedBase.Stalls () oneRecord.queued :=
  ⟨(), oneRecord.queued, .refl _ _, by decide, fun _ => rfl⟩

/-- A flush of one record never returns once the base stream accepts nothing more. -/
theorem closedBase_spins :
    (∀ fuel, pollFlush closedBase fuel () oneRecord = .error .running) ∧
      ¬Loop.Returns fun fuel => pollFlush closedBase fuel () oneRecord := by
  have hspins : Spins (flushRound closedBase) ((), oneRecord) :=
    spins_of_stalls (by decide) (by decide) closedBase_stalls
  exact ⟨hspins, hspins.not_returns⟩

end Sample

end Loops

end Oyster.Scallop
