import Mathlib.Data.List.Basic

namespace Oyster

variable {α : Type}

/-- `buf[start..stop].copy_from_slice(src)`. -/
structure Copy (α : Type) where
  start : ℕ
  stop : ℕ
  src : List α

namespace Copy

def run (buf : List α) (c : Copy α) : Option (List α) :=
  if c.start ≤ c.stop ∧ c.stop ≤ buf.length ∧ c.src.length = c.stop - c.start then
    some (buf.take c.start ++ c.src ++ buf.drop c.stop)
  else none

def single (i : ℕ) (a : α) : Copy α := ⟨i, i + 1, [a]⟩

def runAll (buf : List α) (cs : List (Copy α)) : Option (List α) := cs.foldlM run buf

def written (cs : List (Copy α)) : List α := cs.flatMap src

/-- Every copy starts where the one before it stopped, and fills its range. -/
def InRow : ℕ → List (Copy α) → Prop
  | _, [] => True
  | start, c :: cs => c.start = start ∧ c.stop = start + c.src.length ∧ InRow c.stop cs

@[simp] theorem written_nil : written ([] : List (Copy α)) = [] := rfl

@[simp] theorem written_cons (c : Copy α) (cs : List (Copy α)) :
    written (c :: cs) = c.src ++ written cs := rfl

@[simp] theorem written_append (cs ds : List (Copy α)) :
    written (cs ++ ds) = written cs ++ written ds := by
  simp [written]

@[simp] theorem single_src (i : ℕ) (a : α) : (single i a).src = [a] := rfl

theorem InRow.append {start : ℕ} {cs ds : List (Copy α)} (hcs : InRow start cs)
    (hds : InRow (start + (written cs).length) ds) : InRow start (cs ++ ds) := by
  induction cs generalizing start with
  | nil => simpa using hds
  | cons c cs ih =>
    have hstop := hcs.2.1
    refine ⟨hcs.1, hstop, ih hcs.2.2 ?_⟩
    rw [written_cons, List.length_append] at hds
    rw [hstop, Nat.add_assoc]
    exact hds

theorem inRow_rounds {start width n : ℕ} {f : ℕ → List (Copy α)}
    (hrow : ∀ i, InRow (start + i * width) (f i))
    (hwidth : ∀ i, (written (f i)).length = width) :
    InRow start ((List.range n).flatMap f) ∧
      (written ((List.range n).flatMap f)).length = n * width := by
  induction n with
  | zero => exact ⟨trivial, by simp⟩
  | succ n ih =>
    rw [List.range_succ, List.flatMap_append, List.flatMap_singleton, written_append,
      List.length_append, ih.2, hwidth]
    refine ⟨ih.1.append ?_, by rw [Nat.succ_mul]⟩
    rw [ih.2]
    exact hrow n

theorem run_append {done free : List α} {c : Copy α} (hstart : c.start = done.length)
    (hstop : c.stop = done.length + c.src.length) (hfree : c.src.length ≤ free.length) :
    run (done ++ free) c = some (done ++ c.src ++ free.drop c.src.length) := by
  have hroom : c.start ≤ c.stop ∧ c.stop ≤ (done ++ free).length ∧
      c.src.length = c.stop - c.start := by
    rw [List.length_append]
    omega
  rw [run, if_pos hroom, hstart, hstop, List.take_left, List.drop_append]
  simp

/-- Copies in a row into free room come one after the other, and leave the rest as it is. -/
theorem runAll_append {done free : List α} {cs : List (Copy α)} (h : InRow done.length cs)
    (hfree : (written cs).length ≤ free.length) :
    runAll (done ++ free) cs =
      some (done ++ written cs ++ free.drop (written cs).length) := by
  induction cs generalizing done free with
  | nil => simp [runAll]
  | cons c cs ih =>
    obtain ⟨hstart, hstop, hrow⟩ := h
    rw [written_cons, List.length_append] at hfree
    have hnext : InRow (done ++ c.src).length cs := by
      rw [List.length_append, ← hstop]
      exact hrow
    have hroom : (written cs).length ≤ (free.drop c.src.length).length := by
      rw [List.length_drop]
      omega
    have hrun := run_append hstart hstop (by omega : c.src.length ≤ free.length)
    have hcs := ih hnext hroom
    rw [runAll] at hcs ⊢
    rw [List.foldlM_cons, hrun]
    show List.foldlM run _ cs = _
    rw [hcs, List.drop_drop, written_cons, List.length_append]
    simp only [List.append_assoc]

theorem InRow.initial_drop {before after : List α} {c : Copy α} {cs : List (Copy α)}
    (h : InRow before.length cs) (hc : c ∈ cs) :
    c.src <+: (before ++ written cs ++ after).drop c.start := by
  induction cs generalizing before with
  | nil => exact absurd hc List.not_mem_nil
  | cons d cs ih =>
    obtain ⟨hstart, hstop, hrow⟩ := h
    rw [written_cons, ← List.append_assoc]
    rcases List.mem_cons.1 hc with rfl | hmem
    · rw [hstart, List.append_assoc, List.append_assoc, List.drop_left]
      exact List.prefix_append ..
    · apply ih _ hmem
      rw [List.length_append, ← hstop]
      exact hrow

theorem run_over {before old after : List α} {c : Copy α} (hstart : c.start = before.length)
    (hstop : c.stop = before.length + old.length) (hlen : c.src.length = old.length) :
    run (before ++ old ++ after) c = some (before ++ c.src ++ after) := by
  have hroom : c.start ≤ c.stop ∧ c.stop ≤ (before ++ old ++ after).length ∧
      c.src.length = c.stop - c.start := by
    simp only [List.length_append]
    omega
  have hdrop : before.length + old.length = (before ++ old).length := by
    rw [List.length_append]
  rw [run, if_pos hroom, hstart, hstop, hdrop, List.drop_left, List.append_assoc before old,
    List.take_left]

end Copy

end Oyster
