import Oyster.Lib.Abi

namespace Oyster.Abi

def ascii (text : String) : Bytes := text.toList.map fun c => UInt8.ofNat c.toNat

def domainType : Bytes := ascii "EIP712Domain(string name,string version)"

/-- A struct with its type, under a domain. A field of bytes is its hash. -/
@[ext]
structure TypedData where
  name : Bytes
  version : Bytes
  type : Bytes
  fields : List Word

section

variable (keccak256 : Bytes → Word)

/-- No two of these have the same hash. -/
def Separates (bss : List Bytes) : Prop := ∀ a ∈ bss, ∀ b ∈ bss, keccak256 a = keccak256 b → a = b

instance (bss : List Bytes) : Decidable (Separates keccak256 bss) :=
  inferInstanceAs (Decidable (∀ a ∈ bss, ∀ b ∈ bss, keccak256 a = keccak256 b → a = b))

def hashedStruct (typeHash : Word) (fields : List Word) : Bytes := words (typeHash :: fields)

/-- What is signed of a struct under a domain, of both of which the hashes are known. -/
def messageOf (separator hashStruct : Word) : Bytes :=
  [0x19, 0x01] ++ word separator ++ word hashStruct

def digestOf (separator typeHash : Word) (fields : List Word) : Word :=
  keccak256 (messageOf separator (keccak256 (hashedStruct typeHash fields)))

namespace TypedData

def domain (d : TypedData) : Bytes :=
  words [keccak256 domainType, keccak256 d.name, keccak256 d.version]

def struct (d : TypedData) : Bytes := hashedStruct (keccak256 d.type) d.fields

def message (d : TypedData) : Bytes :=
  messageOf (keccak256 (d.domain keccak256)) (keccak256 (d.struct keccak256))

def digest (d : TypedData) : Word := keccak256 (d.message keccak256)

def hashed (d : TypedData) : List Bytes :=
  [d.name, d.version, d.domain keccak256, d.type, d.struct keccak256, d.message keccak256]

end TypedData

end

variable {keccak256 : Bytes → Word} {as bs : List Bytes} {d d' : TypedData}

theorem word_injective : Function.Injective word := by
  intro w w' h
  have hw := wordAt_word w []
  rw [h, wordAt_word] at hw
  exact hw.symm

theorem words_injective : Function.Injective words := by
  intro ws ws' h
  have hlen := congrArg List.length h
  rw [length_words, length_words] at hlen
  have hws := @decodeWords_words ws _ rfl
  rw [h, decodeWords_words (by omega)] at hws
  exact (Option.some.inj hws).symm

theorem Separates.subset (h : Separates keccak256 bs) (hsub : as ⊆ bs) : Separates keccak256 as :=
  fun a ha b hb => h a (hsub ha) b (hsub hb)

theorem messageOf_inj {separator separator' hashStruct hashStruct' : Word}
    (h : messageOf separator hashStruct = messageOf separator' hashStruct') :
    separator = separator' ∧ hashStruct = hashStruct' := by
  unfold messageOf at h
  rw [List.append_assoc, List.append_assoc] at h
  obtain ⟨hdomain, hstruct⟩ := List.append_inj (List.append_cancel_left h) (by simp)
  exact ⟨word_injective hdomain, word_injective hstruct⟩

/-- Of a struct and the message that is made of it, one digest has one list of fields. -/
theorem digestOf_inj {separator typeHash : Word} {fields fields' : List Word}
    (hsep : Separates keccak256 [hashedStruct typeHash fields, hashedStruct typeHash fields',
      messageOf separator (keccak256 (hashedStruct typeHash fields)),
      messageOf separator (keccak256 (hashedStruct typeHash fields'))])
    (h : digestOf keccak256 separator typeHash fields =
      digestOf keccak256 separator typeHash fields') : fields = fields' := by
  have hmessage := hsep _ (by simp) _ (by simp) h
  have hstruct := hsep _ (by simp) _ (by simp) (messageOf_inj hmessage).2
  exact (List.cons.inj (words_injective hstruct)).2

/-- Data that is not the same has not the same digest. -/
theorem TypedData.digest_inj
    (hsep : Separates keccak256 (d.hashed keccak256 ++ d'.hashed keccak256))
    (h : d.digest keccak256 = d'.digest keccak256) : d = d' := by
  have hsame : ∀ a ∈ d.hashed keccak256, ∀ b ∈ d'.hashed keccak256,
      keccak256 a = keccak256 b → a = b := fun a ha b hb =>
    hsep a (List.mem_append_left _ ha) b (List.mem_append_right _ hb)
  have hmessage := hsame _ (by simp [hashed]) _ (by simp [hashed]) h
  obtain ⟨hdomain, hstruct⟩ := messageOf_inj hmessage
  have hdomain := words_injective (hsame (d.domain keccak256) (by simp [hashed])
    (d'.domain keccak256) (by simp [hashed]) hdomain)
  have hstruct := words_injective (hsame (d.struct keccak256) (by simp [hashed])
    (d'.struct keccak256) (by simp [hashed]) hstruct)
  simp only [List.cons.injEq, and_true, true_and] at hdomain hstruct
  have hname := hsame d.name (by simp [hashed]) d'.name (by simp [hashed]) hdomain.1
  have hversion := hsame d.version (by simp [hashed]) d'.version (by simp [hashed]) hdomain.2
  have htype := hsame d.type (by simp [hashed]) d'.type (by simp [hashed]) hstruct.1
  exact TypedData.ext hname hversion htype hstruct.2

end Oyster.Abi
