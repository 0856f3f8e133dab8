import Mathlib.Data.BitVec
import Oyster.Lib.BigEndian

namespace Oyster.Abi

abbrev Word := BitVec 256
abbrev Bytes := List UInt8

def word (w : Word) : Bytes := BigEndian.encode 32 w.toNat

def words (ws : List Word) : Bytes := ws.flatMap word

/-- The length of a byte string, and its bytes padded with zeros. -/
def byteString (bs : Bytes) : Bytes :=
  word (BitVec.ofNat 256 bs.length) ++ bs ++ List.replicate ((32 - bs.length % 32) % 32) 0

/-- A sequence of a byte string and words. -/
def stringThen (bs : Bytes) (ws : List Word) : Bytes :=
  word (BitVec.ofNat 256 (32 * (ws.length + 1))) ++ words ws ++ byteString bs

def wordAt (data : Bytes) (i : ℕ) : Word :=
  BitVec.ofNat 256 (BigEndian.decode ((data.drop (32 * i)).take 32))

def decodeWords (n : ℕ) (data : Bytes) : Option (List Word) :=
  let ws := (List.range n).map (wordAt data)
  if words ws = data then some ws else none

def decodeStringThen (n : ℕ) (data : Bytes) : Option (Bytes × List Word) :=
  let ws := (List.range n).map fun i => wordAt data (i + 1)
  let bs := (data.drop (32 * (n + 2))).take (wordAt data (n + 1)).toNat
  if stringThen bs ws = data then some (bs, ws) else none

variable {bs rest : Bytes} {ws : List Word}

@[simp] theorem length_word (w : Word) : (word w).length = 32 := BigEndian.length_encode 32 _

@[simp] theorem length_words (ws : List Word) : (words ws).length = 32 * ws.length := by
  induction ws with
  | nil => rfl
  | cons w ws ih =>
    rw [words, List.flatMap_cons, List.length_append, length_word, ← words, ih, List.length_cons]
    omega

theorem wordAt_word (w : Word) (rest : Bytes) : wordAt (word w ++ rest) 0 = w := by
  have htake : (word w ++ rest).take 32 = word w := by
    rw [List.take_append_of_le_length (by simp), List.take_of_length_le (by simp)]
  have hlt : w.toNat < 256 ^ 32 := w.isLt
  rw [wordAt, Nat.mul_zero, List.drop_zero, htake, word, BigEndian.decode_encode,
    Nat.mod_eq_of_lt hlt, BitVec.ofNat_toNat, BitVec.setWidth_eq]

theorem wordAt_append (ws : List Word) (rest : Bytes) (i : ℕ) :
    wordAt (words ws ++ rest) (ws.length + i) = wordAt rest i := by
  have hdrop : (words ws ++ rest).drop (32 * (ws.length + i)) = rest.drop (32 * i) := by
    have hlen : 32 * (ws.length + i) = (words ws).length + 32 * i := by
      rw [length_words]
      omega
    rw [hlen, List.drop_append]
    simp
  rw [wordAt, hdrop, wordAt]

theorem words_append_cons (ws ws' : List Word) (w : Word) :
    words (ws ++ w :: ws') = words ws ++ (word w ++ words ws') := by
  simp [words]

theorem wordAt_words (ws : List Word) (rest : Bytes) {i : ℕ} (h : i < ws.length) :
    wordAt (words ws ++ rest) i = ws[i] := by
  have hsplit : words ws ++ rest =
      words (ws.take i) ++ (word ws[i] ++ (words (ws.drop (i + 1)) ++ rest)) := by
    have hws : ws = ws.take i ++ ws[i] :: ws.drop (i + 1) := by
      rw [← List.drop_eq_getElem_cons h, List.take_append_drop]
    have hwords := congrArg words hws
    rw [hwords, words_append_cons, List.append_assoc, List.append_assoc]
  have hlen : (ws.take i).length + 0 = i := by
    rw [List.length_take]
    omega
  have hat := wordAt_append (ws.take i) (word ws[i] ++ (words (ws.drop (i + 1)) ++ rest)) 0
  rw [hlen] at hat
  rw [hsplit, hat, wordAt_word]

theorem map_wordAt (ws : List Word) (rest : Bytes) (k : ℕ) :
    ((List.range (ws.length - k)).map fun i => wordAt (words ws ++ rest) (i + k)) = ws.drop k := by
  apply List.ext_getElem
  · simp
  · intro i hi hi'
    have hlt : i + k < ws.length := by
      rw [List.length_drop] at hi'
      omega
    rw [List.getElem_map, List.getElem_range, wordAt_words ws rest hlt, List.getElem_drop]
    congr 1
    omega

theorem decodeWords_words {n : ℕ} (h : ws.length = n) : decodeWords n (words ws) = some ws := by
  subst h
  have hws : (List.range ws.length).map (wordAt (words ws)) = ws := by
    have h := map_wordAt ws [] 0
    rwa [List.append_nil] at h
  unfold decodeWords
  dsimp only
  rw [hws, if_pos rfl]

theorem decodeStringThen_stringThen {n : ℕ} (hn : ws.length = n) (h : bs.length < 2 ^ 256) :
    decodeStringThen n (stringThen bs ws) = some (bs, ws) := by
  subst hn
  let offset : Word := BitVec.ofNat 256 (32 * (ws.length + 1))
  have hdata : stringThen bs ws = words (offset :: ws) ++ byteString bs := by
    simp [stringThen, words, offset]
  have hws : ((List.range ws.length).map fun i => wordAt (stringThen bs ws) (i + 1)) = ws := by
    rw [hdata]
    exact map_wordAt (offset :: ws) (byteString bs) 1
  have hlength : (wordAt (stringThen bs ws) (ws.length + 1)).toNat = bs.length := by
    have hat := wordAt_append (offset :: ws) (byteString bs) 0
    rw [Nat.add_zero, List.length_cons] at hat
    rw [hdata, hat, byteString, List.append_assoc, wordAt_word, BitVec.toNat_ofNat,
      Nat.mod_eq_of_lt h]
  have hbs : ((stringThen bs ws).drop (32 * (ws.length + 2))).take bs.length = bs := by
    have hsplit : stringThen bs ws =
        (words (offset :: ws) ++ word (BitVec.ofNat 256 bs.length)) ++
          (bs ++ List.replicate ((32 - bs.length % 32) % 32) 0) := by
      rw [hdata, byteString]
      simp
    have hlen : 32 * (ws.length + 2) =
        (words (offset :: ws) ++ word (BitVec.ofNat 256 bs.length)).length := by
      simp
      omega
    rw [hsplit, hlen, List.drop_left, List.take_left]
  unfold decodeStringThen
  dsimp only
  rw [hws, hlength, hbs, if_pos rfl]

end Oyster.Abi
