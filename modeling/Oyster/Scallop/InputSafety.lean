import Oyster.Scallop.Auth

namespace Oyster.Scallop

open Pipe Prog Record

/-- The bytes end in a length that is larger than the buffer for its message; the messages before
fit theirs. -/
def Oversized : List ℕ → Bytes → Prop
  | [], _ => False
  | room :: rooms, bs =>
    (bs.length = 2 ∧ room < u16FromBe bs) ∨
      (u16FromBe (bs.take 2) ≤ room ∧ 2 + u16FromBe (bs.take 2) ≤ bs.length ∧
        Oversized rooms (bs.drop (2 + u16FromBe (bs.take 2))))

theorem not_oversized_nil (rooms : List ℕ) : ¬Oversized rooms [] := by
  cases rooms with
  | nil => exact id
  | cons room rooms =>
    rintro (⟨hlen, -⟩ | ⟨-, hlen, -⟩)
    · cases hlen
    · simp at hlen

section Reading

variable {α β S : Type}

def Reading (x : Handshaking α) (good : α → Bytes → Prop) (bad : Fail → Bytes → Prop) : Prop :=
  ∀ w, x.run.wp env (fun _ _ => True) (fun r w' => ∃ bs, w'.received = w.received ++ bs ∧
    (∀ a, r = .ok a → good a bs) ∧ ∀ e, r = .error e → bad e bs) w

variable {x : Handshaking α} {f : α → Handshaking β} {good : α → Bytes → Prop}
  {bad : Fail → Bytes → Prop} {good' : β → Bytes → Prop} {bad' : Fail → Bytes → Prop}

theorem Reading.pure {a : α} (h : good a []) : Reading (pure a) good bad := by
  refine fun w => ⟨[], (List.append_nil _).symm, fun b hb => ?_, nofun⟩
  cases hb
  exact h

theorem Reading.throw {e : Fail} (h : bad e []) : Reading (throw e : Handshaking α) good bad := by
  refine fun w => ⟨[], (List.append_nil _).symm, nofun, fun e' he => ?_⟩
  cases he
  exact h

theorem Reading.bind (hx : Reading x good bad')
    (hf : ∀ a bs, good a bs → Reading (f a) (fun b bs' => good' b (bs ++ bs'))
      fun e bs' => bad' e (bs ++ bs')) : Reading (x >>= f) good' bad' := by
  intro w
  have hrun : (x >>= f).run = x.run >>= ExceptT.bindCont f := rfl
  rw [hrun, wp_bind]
  refine wp_mono (fun _ _ h => h) ?_ (hx w)
  rintro r w' ⟨bs, hbs, hgood, hbad⟩
  cases r with
  | error e => exact ⟨bs, hbs, nofun, fun e' he => by cases he; exact hbad e rfl⟩
  | ok a =>
    refine wp_mono (fun _ _ h => h) ?_ (hf a bs (hgood a rfl) w')
    rintro r w'' ⟨bs', hbs', hok, herror⟩
    exact ⟨bs ++ bs', by rw [hbs', hbs, List.append_assoc], hok, herror⟩

theorem Reading.mono {good₁ : α → Bytes → Prop} {bad₁ : Fail → Bytes → Prop}
    (h : Reading x good bad) (hgood : ∀ a bs, good a bs → good₁ a bs)
    (hbad : ∀ e bs, bad e bs → bad₁ e bs) : Reading x good₁ bad₁ := by
  intro w
  refine wp_mono (fun _ _ h => h) ?_ (h w)
  rintro r w' ⟨bs, hbs, hok, herror⟩
  exact ⟨bs, hbs, fun a ha => hgood a bs (hok a ha), fun e he => hbad e bs (herror e he)⟩

theorem Reading.io {p : Party SideAns (Option α)}
    (h : ∀ w, p.wp env (fun _ _ => True) (fun r w' => ∃ bs, w'.received = w.received ++ bs ∧
      (∀ a, r = some a → good a bs) ∧ (r = none → bad (.error .transportError) bs)) w) :
    Reading (io p) good bad := by
  have hlift : Reading (ExceptT.lift p) (fun r bs => (∀ a, r = some a → good a bs) ∧
      (r = none → bad (.error .transportError) bs)) bad := by
    intro w
    have hrun : (ExceptT.lift p : Handshaking (Option α)).run = p >>= fun a => .ret (.ok a) := rfl
    rw [hrun, wp_bind]
    refine wp_mono (fun _ _ h => h) ?_ (h w)
    rintro r w' ⟨bs, hbs, hr⟩
    refine ⟨bs, hbs, fun a ha => ?_, nofun⟩
    cases ha
    exact hr
  refine hlift.bind fun r bs hr => ?_
  cases r with
  | none => exact .throw (by simpa using hr.2 rfl)
  | some a => exact .pure (by simpa using hr.1 a rfl)

theorem reading_recvExact (n : ℕ) : Reading (io (recvExact n))
    (fun a bs => a = bs ∧ bs.length = n)
    fun e bs => e = .error .transportError ∧ bs.length < n := by
  refine .io fun w => wp_mono (fun _ _ h => h) ?_ (wp_recvExact n w)
  rintro r w' ⟨bs, hadds, hsome, hnone⟩
  exact ⟨bs, hadds.received, hsome, fun hr => ⟨rfl, hnone hr⟩⟩

theorem reading_readU16 : Reading readU16 (fun n bs => bs.length = 2 ∧ u16FromBe bs = n)
    fun e bs => e ≠ .panic ∧ bs.length < 2 := by
  have hrecv : Reading (Scallop.io (recvExact 2)) (fun a bs => a = bs ∧ bs.length = 2)
      fun e bs => e ≠ .panic ∧ bs.length < 2 := by
    refine (reading_recvExact 2).mono (fun _ _ h => h) ?_
    rintro e bs ⟨rfl, hlen⟩
    exact ⟨Fail.noConfusion, hlen⟩
  refine hrecv.bind ?_
  rintro a bs ⟨rfl, hlen⟩
  exact .pure (by rw [List.append_nil]; exact ⟨hlen, rfl⟩)

def Fitting (room : ℕ) (bs : Bytes) : Prop :=
  bs.length < 2 ∨ u16FromBe (bs.take 2) ≤ room ∧ bs.length ≤ 2 + u16FromBe (bs.take 2)

theorem reading_noiseRead (n : Noiser S) (noise : S) (src dst : ℕ) :
    Reading (noiseRead n noise src dst)
      (fun r bs => ∃ msg, n.readMessage noise msg dst = some r ∧ u16FromBe (bs.take 2) ≤ src ∧
        bs.length = 2 + u16FromBe (bs.take 2))
      fun e bs => (e = .panic ∧ bs.length = 2 ∧ src < u16FromBe bs) ∨
        (e ≠ .panic ∧ Fitting src bs) := by
  have hlen₁ : Reading readU16 (fun n bs => bs.length = 2 ∧ u16FromBe bs = n) fun e bs =>
      (e = .panic ∧ bs.length = 2 ∧ src < u16FromBe bs) ∨ (e ≠ .panic ∧ Fitting src bs) :=
    reading_readU16.mono (fun _ _ h => h) fun e bs h => .inr ⟨h.1, .inl h.2⟩
  refine hlen₁.bind ?_
  rintro len head ⟨hhead, rfl⟩
  have htake (bs : Bytes) : (head ++ bs).take 2 = head := by
    rw [List.take_append_of_le_length (Nat.le_of_eq hhead.symm), List.take_of_length_le
      (Nat.le_of_eq hhead)]
  have hensure : Reading (Scallop.ensure (u16FromBe head ≤ src) .panic)
      (fun _ bs => bs = [] ∧ u16FromBe head ≤ src) fun e bs =>
        (e = .panic ∧ (head ++ bs).length = 2 ∧ src < u16FromBe (head ++ bs)) ∨
          (e ≠ .panic ∧ Fitting src (head ++ bs)) := by
    unfold Scallop.ensure
    split
    · rename_i hroom
      exact .pure ⟨rfl, hroom⟩
    · rename_i hroom
      refine .throw (.inl ⟨rfl, ?_⟩)
      rw [List.append_nil]
      exact ⟨hhead, Nat.lt_of_not_le hroom⟩
  refine hensure.bind ?_
  rintro _ _ ⟨rfl, hroom⟩
  have hfits {bs : Bytes} (h : bs.length ≤ u16FromBe head) : Fitting src (head ++ bs) := by
    refine .inr ?_
    rw [htake, List.length_append]
    exact ⟨hroom, by omega⟩
  have hmsg : Reading (Scallop.io (recvExact (u16FromBe head)))
      (fun a bs => a = bs ∧ bs.length = u16FromBe head) fun e bs =>
        (e = .panic ∧ (head ++ bs).length = 2 ∧ src < u16FromBe (head ++ bs)) ∨
          (e ≠ .panic ∧ Fitting src (head ++ bs)) := by
    refine (reading_recvExact _).mono (fun _ _ h => h) ?_
    rintro e bs ⟨rfl, hlen⟩
    exact .inr ⟨Fail.noConfusion, hfits (Nat.le_of_lt hlen)⟩
  refine hmsg.bind ?_
  rintro msg _ ⟨rfl, hlen⟩
  simp only [List.nil_append]
  unfold Scallop.orFail
  cases hread : n.readMessage noise msg dst with
  | none =>
    refine .throw (.inr ⟨Fail.noConfusion, ?_⟩)
    rw [List.append_nil]
    exact hfits (Nat.le_of_eq hlen)
  | some r =>
    refine .pure ⟨msg, hread, ?_, ?_⟩
    · rw [List.append_nil, htake]
      exact hroom
    · rw [List.append_nil, htake, List.length_append, hhead, hlen]

def Unread (x : Handshaking α) (good : α → Prop) : Prop :=
  Reading x (fun a bs => bs = [] ∧ good a) fun e bs => bs = [] ∧ e ≠ .panic

theorem Unread.pure {a : α} {good : α → Prop} (h : good a) : Unread (pure a) good :=
  Reading.pure ⟨rfl, h⟩

theorem Unread.bind {good : α → Prop} {good' : β → Prop} (hx : Unread x good)
    (hf : ∀ a, good a → Unread (f a) good') : Unread (x >>= f) good' := by
  refine Reading.bind hx ?_
  rintro a _ ⟨rfl, ha⟩
  exact hf a ha

theorem unread_ensure (p : Prop) [Decidable p] {e : Fail} (h : ¬p → e ≠ .panic) :
    Unread (ensure p e) fun _ => p := by
  unfold Scallop.ensure
  split
  · rename_i hp
    exact .pure hp
  · rename_i hp
    exact Reading.throw ⟨rfl, h hp⟩

theorem unread_orFail {e : Fail} (he : e ≠ .panic) (o : Option α) :
    Unread (orFail e o) fun a => o = some a := by
  cases o with
  | none => exact Reading.throw ⟨rfl, he⟩
  | some a => exact .pure rfl

theorem unread_ask (op : SideOp) : Unread (ask op) fun _ => True := by
  intro w
  refine ⟨True.intro, fun x w' hx => ?_⟩
  cases hx
  exact ⟨[], (List.append_nil _).symm, fun _ _ => ⟨rfl, True.intro⟩, nofun⟩

theorem unread_noiseWrite (n : Noiser S) (noise : S) (payload head : Bytes) (size : ℕ) :
    Unread (noiseWrite n noise payload head size) fun noise' =>
      ∃ room msg, n.writeMessage noise payload room = some (msg, noise') := by
  refine (unread_orFail Fail.noConfusion _).bind ?_
  rintro ⟨msg, noise'⟩ hwrite
  have hsend : Unread (Scallop.io (sendAll (head ++ u16ToBe msg.length ++ msg))) fun _ => True := by
    refine Reading.io fun w => wp_mono (fun _ _ h => h) ?_ (wp_sendAll _ w)
    intro r w' hadds
    exact ⟨[], hadds.received, fun _ _ => ⟨rfl, True.intro⟩, fun _ => ⟨rfl, Fail.noConfusion⟩⟩
  refine hsend.bind fun _ _ => (unread_ask .flush).bind fun flushed _ => ?_
  refine (unread_ensure _ fun _ => Fail.noConfusion).bind fun _ _ => ?_
  exact .pure ⟨_, msg, hwrite⟩

theorem unread_authPayload : Unread authPayload fun payload => payload.length ≤ 60000 := by
  refine (unread_ask .newAuth).bind fun payload _ => ?_
  refine (unread_ensure _ fun _ => Fail.noConfusion).bind fun _ hlen => ?_
  exact .pure hlen

theorem unread_verifyAuth (attestation : Bytes) (key : Key) :
    Unread (verifyAuth attestation key) fun _ => True := by
  refine (unread_ask _).bind fun pcrs _ => ?_
  exact (unread_orFail Fail.noConfusion _).bind fun pcrs _ => unread_ask _

theorem unread_shouldAskAuth (authStore : Bool) (key : Key) :
    Unread (shouldAskAuth authStore key) fun _ => True := by
  unfold shouldAskAuth
  split
  · exact (unread_ask _).bind fun _ _ => .pure True.intro
  · exact .pure True.intro

theorem unread_staticKey {o : Option Bytes} (h : ∃ key : Key, o = some key.val) :
    Unread (staticKey o) fun _ => True := by
  obtain ⟨key, rfl⟩ := h
  unfold staticKey
  dsimp only
  rw [dif_pos key.property]
  exact .pure True.intro

theorem unread_encodeClientFin (n : Noiser S) (noise : S) {size : ℕ} {payload : Bytes}
    (shouldAsk : Bool) (h : 3 + payload.length ≤ size) :
    Unread (encodeClientFin n noise size payload shouldAsk) fun _ => True := by
  refine (unread_ensure _ fun hsize => absurd h hsize).bind fun _ _ => ?_
  exact (unread_noiseWrite n noise _ _ _).mono (fun _ _ h => ⟨h.1, True.intro⟩) fun _ _ h => h

theorem unread_sendClientFin (n : Noiser S) (noise : S) (shouldSendAuth shouldAsk : Bool) :
    Unread (sendClientFin n noise shouldSendAuth shouldAsk) fun _ => True := by
  unfold sendClientFin
  split
  · refine unread_authPayload.bind fun payload hlen => ?_
    exact unread_encodeClientFin n noise shouldAsk (by omega)
  · exact unread_encodeClientFin n noise shouldAsk (by decide)

theorem unread_sendServerFin (n : Noiser S) (noise : S) (shouldSendAuth : Bool) :
    Unread (sendServerFin n noise shouldSendAuth) fun _ => True := by
  unfold sendServerFin
  split
  · refine unread_authPayload.bind fun payload _ => ?_
    exact (unread_noiseWrite n noise _ _ _).mono (fun _ _ h => ⟨h.1, True.intro⟩) fun _ _ h => h
  · exact .pure True.intro

/-- The program panics exactly where what it has read is oversized for the buffers `rooms`. -/
def Judged (rooms : List ℕ) (x : Handshaking α) : Prop :=
  Reading x (fun _ bs => ¬Oversized rooms bs) fun e bs => e = .panic ↔ Oversized rooms bs

theorem Judged.pure (rooms : List ℕ) (a : α) : Judged rooms (pure a : Handshaking α) :=
  Reading.pure (not_oversized_nil rooms)

theorem Judged.unread {rooms : List ℕ} {good : α → Prop} (hx : Unread x good)
    (hf : ∀ a, good a → Judged rooms (f a)) : Judged rooms (x >>= f) := by
  have hx' : Reading x (fun a bs => bs = [] ∧ good a) fun e bs => e = .panic ↔
      Oversized rooms bs := by
    refine Reading.mono hx (fun _ _ h => h) ?_
    rintro e _ ⟨rfl, he⟩
    exact iff_of_false he (not_oversized_nil rooms)
  refine hx'.bind ?_
  rintro a _ ⟨rfl, ha⟩
  exact hf a ha

theorem Judged.last {rooms : List ℕ} (hx : Judged rooms x)
    (hf : ∀ a, Unread (f a) fun _ => True) : Judged rooms (x >>= f) := by
  refine Reading.bind hx fun a bs ha => (hf a).mono ?_ ?_
  · rintro b _ ⟨rfl, -⟩
    rwa [List.append_nil]
  · rintro e _ ⟨rfl, he⟩
    rw [List.append_nil]
    exact iff_of_false he ha

theorem not_oversized_of_fitting {room : ℕ} {rooms : List ℕ} {bs : Bytes} (h : Fitting room bs) :
    ¬Oversized (room :: rooms) bs := by
  rintro (⟨hlen, hroom⟩ | ⟨hroom, hlen, hrest⟩)
  · rcases h with h | ⟨hle, -⟩
    · omega
    · rw [List.take_of_length_le (Nat.le_of_eq hlen)] at hle
      omega
  · rcases h with h | ⟨-, hle⟩
    · omega
    · rw [List.drop_of_length_le hle] at hrest
      exact not_oversized_nil rooms hrest

theorem Judged.noiseRead {n : Noiser S} {noise : S} {room dst : ℕ} {rooms : List ℕ}
    {g : Bytes × S → Handshaking β}
    (hg : ∀ r msg, n.readMessage noise msg dst = some r → Judged rooms (g r)) :
    Judged (room :: rooms) (noiseRead n noise room dst >>= g) := by
  have hread := (reading_noiseRead n noise room dst).mono (fun _ _ h => h) fun e bs h =>
    show e = .panic ↔ Oversized (room :: rooms) bs by
      rcases h with ⟨rfl, h⟩ | ⟨he, h⟩
      · exact iff_of_true rfl (.inl h)
      · exact iff_of_false he (not_oversized_of_fitting h)
  refine hread.bind ?_
  rintro r bs ⟨msg, hmsg, hroom, hlen⟩
  have hsame (bs' : Bytes) : Oversized (room :: rooms) (bs ++ bs') ↔ Oversized rooms bs' := by
    have htake : (bs ++ bs').take 2 = bs.take 2 :=
      List.take_append_of_le_length (by omega)
    have hdrop : (bs ++ bs').drop (2 + u16FromBe (bs.take 2)) = bs' := by
      rw [← hlen, List.drop_left]
    simp only [Oversized, htake, hdrop]
    constructor
    · rintro (⟨hshort, hover⟩ | ⟨-, -, h⟩)
      · have htwo : bs.length = 2 := by
          rw [List.length_append] at hshort
          omega
        have hnil : bs' = [] := by
          apply List.eq_nil_of_length_eq_zero
          rw [List.length_append] at hshort
          omega
        rw [hnil, List.append_nil] at hover
        rw [List.take_of_length_le (Nat.le_of_eq htwo)] at hroom
        omega
      · exact h
    · intro h
      refine .inr ⟨hroom, ?_, h⟩
      rw [List.length_append]
      omega
  refine (hg r msg hmsg).mono (fun _ bs' h => ?_) fun e bs' h => ?_
  · rwa [hsame]
  · rwa [hsame]

/-- The negotiation length comes first. -/
def Negotiated (rooms : List ℕ) (x : Handshaking α) : Prop :=
  Reading x (fun _ bs => ¬Oversized rooms (bs.drop 2)) fun e bs =>
    e = .panic ↔ Oversized rooms (bs.drop 2)

theorem Negotiated.unread {rooms : List ℕ} {good : α → Prop} (hx : Unread x good)
    (hf : ∀ a, good a → Negotiated rooms (f a)) : Negotiated rooms (x >>= f) := by
  have hx' : Reading x (fun a bs => bs = [] ∧ good a) fun e bs => e = .panic ↔
      Oversized rooms (bs.drop 2) := by
    refine Reading.mono hx (fun _ _ h => h) ?_
    rintro e _ ⟨rfl, he⟩
    exact iff_of_false he (not_oversized_nil rooms)
  refine hx'.bind ?_
  rintro a _ ⟨rfl, ha⟩
  exact hf a ha

theorem Negotiated.readU16 {rooms : List ℕ} {g : ℕ → Handshaking β}
    (hg : ∀ len, Judged rooms (g len)) : Negotiated rooms (Scallop.readU16 >>= g) := by
  have hread : Reading Scallop.readU16 (fun n bs => bs.length = 2 ∧ u16FromBe bs = n) fun e bs =>
      e = .panic ↔ Oversized rooms (bs.drop 2) := by
    refine reading_readU16.mono (fun _ _ h => h) ?_
    rintro e bs ⟨he, hlen⟩
    rw [List.drop_of_length_le (by omega)]
    exact iff_of_false he (not_oversized_nil rooms)
  refine hread.bind ?_
  rintro len bs ⟨hlen, -⟩
  have hdrop (bs' : Bytes) : (bs ++ bs').drop 2 = bs' := by
    rw [← hlen, List.drop_left]
  simp only [hdrop]
  exact hg len

/-- A side of an `IX` handshake that has read the message with the static key of the other one has
that key. -/
structure Noise.Shares (N : Noise) : Prop where
  initiator : ∀ secret st st₁ st₂ room msg room' msg' payload,
    N.buildInitiator secret prologue = some st →
    N.handshake.writeMessage st [] room = some (msg, st₁) →
    N.handshake.readMessage st₁ msg' room' = some (payload, st₂) →
      ∃ key : Key, N.remoteStatic st₂ = some key.val
  responder : ∀ secret st st₁ room msg payload,
    N.buildResponder secret prologue = some st →
    N.handshake.readMessage st msg room = some (payload, st₁) →
      ∃ key : Key, N.remoteStatic st₁ = some key.val

theorem unread_parseAuthRequest (payload : Bytes) :
    Unread (parseAuthRequest payload) fun _ => True := by
  refine (unread_ensure _ fun _ => Fail.noConfusion).bind fun _ _ => ?_
  exact (unread_ensure _ fun _ => Fail.noConfusion).bind fun _ _ => .pure True.intro

theorem judged_readServerFin (n : Noiser S) (noise : S) (key : Key) (shouldAsk : Bool) :
    Judged [65000] (readServerFin n noise key shouldAsk) := by
  unfold readServerFin
  split
  · refine .noiseRead fun r msg _ => ?_
    obtain ⟨payload, noise'⟩ := r
    refine .unread (unread_ensure _ fun _ => Fail.noConfusion) fun _ _ => ?_
    refine .unread (unread_ensure _ fun _ => Fail.noConfusion) fun _ _ => ?_
    exact .unread (unread_verifyAuth _ key) fun _ _ => .pure _ _
  · exact .pure _ _

theorem unread_verifyAsked (shouldAsk : Bool) (attestation : Bytes) (key : Key) :
    Unread (verifyAsked shouldAsk attestation key) fun _ => True := by
  unfold verifyAsked
  split
  · exact unread_verifyAuth attestation key
  · exact .pure True.intro

theorem judged_readClientFin (n : Noiser S) (noise : S) (key : Key) (shouldAsk : Bool) :
    Judged [1024] (readClientFin n noise key shouldAsk) := by
  refine .noiseRead fun r msg _ => ?_
  obtain ⟨payload, noise'⟩ := r
  refine .unread (unread_ensure _ fun _ => Fail.noConfusion) fun _ _ => ?_
  refine .unread (unread_ensure _ fun _ => Fail.noConfusion) fun _ _ => ?_
  refine .unread (unread_verifyAsked _ _ _) fun _ _ => ?_
  exact .unread (unread_ensure _ fun _ => Fail.noConfusion) fun _ _ => .pure _ _

theorem negotiated_newClient {N : Noise} (hN : N.Shares) (secret : Bytes)
    (authStore auther : Bool) :
    Negotiated [1024, 65000] (newClient N secret authStore auther) := by
  refine .unread (unread_orFail Fail.noConfusion _) fun noise hbuilt => ?_
  refine .unread (unread_noiseWrite _ _ _ _ _) fun noise₁ hwrote => ?_
  obtain ⟨room, msg, hwrote⟩ := hwrote
  -- the negotiation length is read on its own, before the two messages
  refine .readU16 fun len => ?_
  refine .unread (unread_ensure _ fun _ => Fail.noConfusion) fun _ _ => ?_
  refine .noiseRead fun r msg' hread => ?_
  obtain ⟨payload, noise₂⟩ := r
  refine .unread (unread_parseAuthRequest payload) fun shouldSendAuth _ => ?_
  refine .unread (unread_ensure _ fun _ => Fail.noConfusion) fun _ _ => ?_
  refine .unread (unread_staticKey (hN.initiator _ _ _ _ _ _ _ _ _ hbuilt hwrote hread)) ?_
  intro key _
  refine .unread (unread_shouldAskAuth authStore key) fun shouldAsk _ => ?_
  refine .unread (unread_orFail Fail.noConfusion _) fun transport _ => ?_
  refine .unread (unread_sendClientFin _ _ _ _) fun transport' _ => ?_
  -- nothing is received after the fin of the server
  exact (judged_readServerFin _ _ _ _).last fun _ => .pure True.intro

theorem negotiated_newServer {N : Noise} (hN : N.Shares) (secret : Bytes)
    (authStore auther : Bool) :
    Negotiated [1024, 1024] (newServer N secret authStore auther) := by
  refine .unread (unread_orFail Fail.noConfusion _) fun noise hbuilt => ?_
  refine .readU16 fun len => ?_
  refine .unread (unread_ensure _ fun _ => Fail.noConfusion) fun _ _ => ?_
  refine .noiseRead fun r msg hread => ?_
  obtain ⟨payload, noise₁⟩ := r
  refine .unread (unread_ensure _ fun _ => Fail.noConfusion) fun _ _ => ?_
  refine .unread (unread_staticKey (hN.responder _ _ _ _ _ _ hbuilt hread)) fun key _ => ?_
  refine .unread (unread_shouldAskAuth authStore key) fun shouldAsk _ => ?_
  refine .unread (unread_noiseWrite _ _ _ _ _) fun noise₂ _ => ?_
  refine .unread (unread_orFail Fail.noConfusion _) fun transport _ => ?_
  -- what is left is sent, not received
  refine (judged_readClientFin _ _ _ _).last fun r => ?_
  obtain ⟨shouldSendAuth, transport'⟩ := r
  refine (unread_ensure _ fun _ => Fail.noConfusion).bind fun _ _ => ?_
  exact (unread_sendServerFin _ _ _).bind fun _ _ => .pure True.intro

/-- The run of a side ends in a panic exactly if what came in after the negotiation length ends in
a length that is larger than its buffer. -/
def PanicsIffOversized (rooms : List ℕ) (x : Handshaking α) : Prop :=
  ∀ es r w, Exec env x.run {} es r w → (r = .error .panic ↔ Oversized rooms (w.received.drop 2))

theorem Negotiated.panics {rooms : List ℕ} (hx : Negotiated rooms x) :
    PanicsIffOversized rooms x := by
  intro es r w h
  obtain ⟨bs, hbs, hgood, hbad⟩ := (h.sound (hx {})).2
  -- a run starts from an empty record
  have hreceived : w.received = bs := by
    rw [hbs]
    rfl
  rw [hreceived]
  cases r with
  | ok a => exact iff_of_false nofun (hgood a rfl)
  | error e =>
    have hiff : e = .panic ↔ Oversized rooms (bs.drop 2) := hbad e rfl
    rw [← hiff, Except.error.injEq]

end Reading

/-- Both sides, whatever the remote sends and however the own side answers. -/
theorem handshake_panics_iff {N : Noise} (hN : N.Shares) (secret : Bytes)
    (authStore auther : Bool) :
    PanicsIffOversized [1024, 65000] (newClient N secret authStore auther) ∧
      PanicsIffOversized [1024, 1024] (newServer N secret authStore auther) :=
  ⟨(negotiated_newClient hN secret authStore auther).panics,
    (negotiated_newServer hN secret authStore auther).panics⟩

def checkedNoise : Noise where
  Handshake := ClearHandshake
  Transport := Bytes
  buildInitiator := clearNoise.buildInitiator
  buildResponder := clearNoise.buildResponder
  handshake :=
    { writeMessage := clearNoise.handshake.writeMessage
      readMessage := fun st msg room =>
        if msg.length < 64 then none else clearNoise.handshake.readMessage st msg room }
  transport := clearNoise.transport
  remoteStatic := clearNoise.remoteStatic
  intoTransportMode := clearNoise.intoTransportMode
  transportRemoteStatic := clearNoise.transportRemoteStatic

theorem checkedNoise_read {st st' : ClearHandshake} {msg payload : Bytes} {room : ℕ}
    (h : checkedNoise.handshake.readMessage st msg room = some (payload, st')) :
    ∃ key : Key, checkedNoise.remoteStatic st' = some key.val := by
  obtain ⟨hlen, h⟩ := Option.ite_none_left_eq_some.1 h
  obtain ⟨-, h⟩ := Option.ite_none_right_eq_some.1 h
  cases h
  have hkey : (msg.take 32).length = 32 := by
    rw [List.length_take]
    omega
  exact ⟨⟨msg.take 32, hkey⟩, rfl⟩

theorem checkedNoise_shares : checkedNoise.Shares where
  initiator _ _ _ _ _ _ _ _ _ _ _ h := checkedNoise_read h
  responder _ _ _ _ _ _ _ h := checkedNoise_read h

theorem exec_overflow : ∃ es w,
    Exec env (newServer checkedNoise (keyOf 2).val false false).run {} es (.error .panic) w := by
  have hdoes : Does (asking []).answer (newServer checkedNoise (keyOf 2).val false false)
      (received (u16ToBe 0) ++ received (u16ToBe 1025)) (.error .panic) := by
    refine Does.silent (Does.orFail _ rfl) ?_
    refine Path.bind_ok (Does.readU16 (by decide)) ?_
    refine Does.silent (Does.ensure _ rfl) ?_
    exact Path.bind_error _ (Does.noiseRead_panic (by decide) (by decide))
  exact exec_of_path hdoes rfl {}

theorem newServer_panics_sample :
    ¬∀ es w, ¬Exec env (newServer checkedNoise (keyOf 2).val false false).run {} es
      (.error .panic) w := by
  obtain ⟨es, w, h⟩ := exec_overflow
  exact fun hsafe => hsafe es w h

theorem handshake_panics_iff_sample : ∃ es w,
    Exec env (newServer checkedNoise (keyOf 2).val false false).run {} es (.error .panic) w ∧
      Oversized [1024, 1024] (w.received.drop 2) := by
  obtain ⟨es, w, h⟩ := exec_overflow
  exact ⟨es, w, h, ((handshake_panics_iff checkedNoise_shares _ _ _).2 _ _ _ h).1 rfl⟩

end Oyster.Scallop
