import Oyster.Lib.Abi

namespace Oyster.Abi

inductive Kind where
  | uint
  | bytes
deriving DecidableEq

inductive Arg where
  | uint (w : Word)
  | bytes (bs : Bytes)
deriving DecidableEq

namespace Arg

def kind : Arg → Kind
  | .uint _ => .uint
  | .bytes _ => .bytes

def tail : Arg → Bytes
  | .uint _ => []
  | .bytes bs => byteString bs

/-- The word in its place, where its tail begins at `offset`. -/
def head (offset : ℕ) : Arg → Word
  | .uint w => w
  | .bytes _ => BitVec.ofNat 256 offset

end Arg

def tails (args : List Arg) : Bytes := args.flatMap Arg.tail

def heads (offset : ℕ) : List Arg → List Word
  | [] => []
  | a :: args => a.head offset :: heads (offset + a.tail.length) args

def encodeArgs (args : List Arg) : Bytes := words (heads (32 * args.length) args) ++ tails args

/-- The byte string at an offset, if all of it is there. -/
def bytesAt (data : Bytes) (offset : ℕ) : Option Bytes :=
  let length := (wordAt (data.drop offset) 0).toNat
  if offset + 32 + length ≤ data.length then some ((data.drop (offset + 32)).take length)
  else none

def decodeArg (data : Bytes) (i : ℕ) : Kind → Option Arg
  | .uint => if 32 * (i + 1) ≤ data.length then some (.uint (wordAt data i)) else none
  | .bytes =>
    if 32 * (i + 1) ≤ data.length then (bytesAt data (wordAt data i).toNat).map .bytes else none

def decodeArgs (data : Bytes) : ℕ → List Kind → Option (List Arg)
  | _, [] => some []
  | i, kind :: kinds => do
    let a ← decodeArg data i kind
    let args ← decodeArgs data (i + 1) kinds
    return a :: args

variable {a : Arg} {pre args : List Arg}

theorem tails_cons (a : Arg) (args : List Arg) : tails (a :: args) = a.tail ++ tails args :=
  List.flatMap_cons

@[simp] theorem length_heads (offset : ℕ) (args : List Arg) :
    (heads offset args).length = args.length := by
  induction args generalizing offset with
  | nil => rfl
  | cons a args ih => rw [heads, List.length_cons, List.length_cons, ih]

theorem heads_append (offset : ℕ) (pre args : List Arg) :
    heads offset (pre ++ args) = heads offset pre ++ heads (offset + (tails pre).length) args := by
  induction pre generalizing offset with
  | nil => rfl
  | cons a pre ih =>
    rw [List.cons_append, heads, ih, heads, List.cons_append, tails_cons, List.length_append,
      Nat.add_assoc]

theorem tails_append (pre args : List Arg) : tails (pre ++ args) = tails pre ++ tails args :=
  List.flatMap_append

theorem length_encodeArgs (args : List Arg) :
    (encodeArgs args).length = 32 * args.length + (tails args).length := by
  rw [encodeArgs, List.length_append, length_words, length_heads]

def tailAt (pre args : List Arg) : ℕ := 32 * (pre ++ args).length + (tails pre).length

theorem wordAt_encodeArgs (pre args : List Arg) (a : Arg) :
    wordAt (encodeArgs (pre ++ a :: args)) pre.length = a.head (tailAt pre (a :: args)) := by
  have hlt : pre.length < (heads (32 * (pre ++ a :: args).length) (pre ++ a :: args)).length := by
    rw [length_heads, List.length_append, List.length_cons]
    omega
  rw [encodeArgs, wordAt_words _ _ hlt]
  simp only [heads_append, heads]
  rw [List.getElem_append_right (by rw [length_heads])]
  simp [tailAt]

theorem drop_encodeArgs (pre args : List Arg) :
    (encodeArgs (pre ++ args)).drop (tailAt pre args) = tails args := by
  rw [encodeArgs, tails_append, ← List.append_assoc, tailAt]
  refine List.drop_left' ?_
  rw [List.length_append, length_words, length_heads]

theorem bytesAt_drop {data rest bs : Bytes} {offset : ℕ}
    (h : data.drop offset = byteString bs ++ rest) (hlt : bs.length < 2 ^ 256) :
    bytesAt data offset = some bs := by
  have hlength : (wordAt (data.drop offset) 0).toNat = bs.length := by
    rw [h, byteString, List.append_assoc, List.append_assoc, wordAt_word, BitVec.toNat_ofNat,
      Nat.mod_eq_of_lt hlt]
  have hdrop : data.drop (offset + 32) = bs ++ (List.replicate ((32 - bs.length % 32) % 32) 0 ++
      rest) := by
    rw [← List.drop_drop, h, byteString, List.append_assoc, List.append_assoc]
    exact List.drop_left' (length_word _)
  have hle : offset + 32 + bs.length ≤ data.length := by
    have hlen := congrArg List.length hdrop
    rw [List.length_drop, List.length_append] at hlen
    have hall := congrArg List.length h
    rw [List.length_drop, byteString, List.length_append, List.length_append, List.length_append,
      length_word] at hall
    omega
  unfold bytesAt
  dsimp only
  rw [hlength, if_pos hle, hdrop, List.take_left]

theorem decodeArg_encodeArgs (h : (encodeArgs (pre ++ a :: args)).length < 2 ^ 256) :
    decodeArg (encodeArgs (pre ++ a :: args)) pre.length a.kind = some a := by
  have hlen := length_encodeArgs (pre ++ a :: args)
  have htails := congrArg List.length (tails_append pre (a :: args))
  rw [List.length_append] at htails
  have hin : 32 * (pre.length + 1) ≤ (encodeArgs (pre ++ a :: args)).length := by
    rw [hlen, List.length_append, List.length_cons]
    omega
  have hword := wordAt_encodeArgs pre args a
  cases a with
  | uint w =>
    rw [Arg.kind, decodeArg, if_pos hin, hword]
    rfl
  | bytes bs =>
    have hdrop := drop_encodeArgs pre (.bytes bs :: args)
    rw [tails_cons] at hdrop
    have hbs : bs.length ≤ (tails (.bytes bs :: args)).length := by
      rw [tails_cons, List.length_append, Arg.tail, byteString, List.length_append,
        List.length_append]
      omega
    have hoffset : (wordAt (encodeArgs (pre ++ .bytes bs :: args)) pre.length).toNat =
        tailAt pre (.bytes bs :: args) := by
      rw [hword, Arg.head, BitVec.toNat_ofNat, Nat.mod_eq_of_lt]
      rw [tailAt]
      omega
    rw [Arg.kind, decodeArg, if_pos hin, hoffset, bytesAt_drop hdrop (by omega)]
    rfl

/-- A contract reads the arguments that were encoded. -/
theorem decodeArgs_encodeArgs (h : (encodeArgs (pre ++ args)).length < 2 ^ 256) :
    decodeArgs (encodeArgs (pre ++ args)) pre.length (args.map Arg.kind) = some args := by
  -- over the arguments that are left, with those before them in the data
  induction args generalizing pre with
  | nil => rfl
  | cons a args ih =>
    have happend : pre ++ a :: args = (pre ++ [a]) ++ args := by simp
    have hrest := @ih (pre ++ [a]) (happend ▸ h)
    rw [← happend, List.length_append, List.length_singleton] at hrest
    rw [List.map_cons, decodeArgs, decodeArg_encodeArgs h, Option.bind_eq_bind, Option.bind_some,
      hrest]
    rfl

end Oyster.Abi
