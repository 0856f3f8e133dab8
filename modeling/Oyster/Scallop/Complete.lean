import Oyster.Scallop.Handshake

namespace Oyster.Scallop

open Pipe

section Does

variable {answer : ∀ op, SideAns op} {α β S : Type} {t t' : List Act}

/-- The program does `t` to the pipes and ends with `r`. -/
abbrev Does (answer : ∀ op, SideAns op) (x : Handshaking α) (t : List Act) (r : Except Fail α) :
    Prop :=
  Path answer x.run t (.ret r)

def sent (bs : Bytes) : List Act := bs.map .send

def received (bs : Bytes) : List Act := bs.map .recv

@[simp] theorem sent_append (bs bs' : Bytes) : sent (bs ++ bs') = sent bs ++ sent bs' :=
  List.map_append

@[simp] theorem received_append (bs bs' : Bytes) :
    received (bs ++ bs') = received bs ++ received bs' :=
  List.map_append

@[simp] theorem dual_sent (bs : Bytes) : (sent bs).map .dual = received bs := by
  simp only [sent, received, List.map_map]
  rfl

@[simp] theorem dual_received (bs : Bytes) : (received bs).map .dual = sent bs := by
  simp only [sent, received, List.map_map]
  rfl

def frame (msg : Bytes) : Bytes := u16ToBe msg.length ++ msg

theorem Does.pure (a : α) : Does answer (pure a) [] (.ok a) := .refl _

theorem Does.silent {x : Handshaking α} {f : α → Handshaking β} {a : α} {r : Except Fail β}
    (h : Does answer x [] (.ok a)) (h' : Does answer (f a) t r) : Does answer (x >>= f) t r :=
  Path.bind_ok h h'

theorem Does.last {x : Handshaking α} {f : α → Handshaking β} {a : α} {r : Except Fail β}
    (h : Does answer x t (.ok a)) (h' : Does answer (f a) [] r) : Does answer (x >>= f) t r := by
  have hbind := Path.bind_ok h h'
  rwa [List.append_nil] at hbind

theorem Does.ensure {p : Prop} [Decidable p] (e : Fail) (h : p) :
    Does answer (ensure p e) [] (.ok ()) := by
  unfold Scallop.ensure
  rw [if_pos h]
  exact .refl _

theorem Does.ensure_error {p : Prop} [Decidable p] (e : Fail) (h : ¬p) :
    Does answer (Scallop.ensure p e) [] (.error e) := by
  unfold Scallop.ensure
  rw [if_neg h]
  exact .refl _

theorem Does.orFail (e : Fail) {x : Option α} {a : α} (h : x = some a) :
    Does answer (orFail e x) [] (.ok a) := by
  rw [h]
  exact .refl _

theorem Does.ask (op : SideOp) : Does answer (ask op) [] (.ok (answer op)) := .loc (.refl _)

theorem Does.io {x : Party SideAns (Option α)} {a : α} (h : Path answer x t (.ret (some a))) :
    Does answer (io x) t (.ok a) := by
  have hlift : Does answer (ExceptT.lift x) t (.ok (some a)) :=
    h.bind fun a => Pure.pure (Except.ok a)
  exact Does.last hlift (Does.orFail _ rfl)

theorem Does.readU16 {n : ℕ} (h : n < 65536) :
    Does answer readU16 (received (u16ToBe n)) (.ok n) := by
  have hpure : Does answer (Pure.pure (u16FromBe (u16ToBe n))) [] (.ok n) := by
    rw [u16FromBe_toBe h]
    exact .pure n
  exact Does.last (Does.io (Path.recvExact (u16ToBe n))) hpure

theorem Does.noiseRead {n : Noiser S} {noise noise' : S} {src dst : ℕ} {msg payload : Bytes}
    (hlen : msg.length < 65536) (hsrc : msg.length ≤ src)
    (h : n.readMessage noise msg dst = some (payload, noise')) :
    Does answer (noiseRead n noise src dst) (received (frame msg)) (.ok (payload, noise')) := by
  unfold frame
  rw [received_append]
  apply Path.bind_ok (Does.readU16 hlen)
  apply Does.silent (Does.ensure _ hsrc)
  exact Does.last (Does.io (Path.recvExact msg)) (Does.orFail _ h)

theorem Does.noiseRead_panic {n : Noiser S} {noise : S} {src dst len : ℕ} (hlen : len < 65536)
    (hsrc : src < len) :
    Does answer (Scallop.noiseRead n noise src dst) (received (u16ToBe len)) (.error .panic) := by
  rw [← List.append_nil (received _)]
  apply Path.bind_ok (Does.readU16 hlen)
  exact Path.bind_error _ (Does.ensure_error _ (Nat.not_le_of_gt hsrc))

theorem Does.noiseWrite (hflush : answer .flush = true) {n : Noiser S} {noise noise' : S}
    {payload msg : Bytes} {head : Bytes} {size : ℕ}
    (h : n.writeMessage noise payload (size - (head.length + 2)) = some (msg, noise')) :
    Does answer (noiseWrite n noise payload head size) (sent (head ++ frame msg))
      (.ok noise') := by
  apply Does.silent (Does.orFail _ h)
  rw [show head ++ frame msg = head ++ u16ToBe msg.length ++ msg from
    (List.append_assoc _ _ _).symm]
  apply Does.last (Does.io (Path.sendAll _))
  apply Does.silent (Does.ask .flush)
  exact Does.silent (Does.ensure _ hflush) (.pure noise')

end Does

/-- A handshake and a transport that work: what one side writes is what the other one reads. The
lengths are those of `Noise_IX_25519_ChaChaPoly_BLAKE2b`. -/
structure Noise.IX (N : Noise) (clientSecret serverSecret : Bytes) where
  initiator : N.Handshake
  initiator_built : N.buildInitiator clientSecret prologue = some initiator
  responder : N.Handshake
  responder_built : N.buildResponder serverSecret prologue = some responder
  -- `-> e, s`
  first : Bytes
  first_length : first.length = 64
  initiator₁ : N.Handshake
  write_first : ∀ room, 80 ≤ room →
    N.handshake.writeMessage initiator [] room = some (first, initiator₁)
  responder₁ : N.Handshake
  read_first : ∀ room, N.handshake.readMessage responder first room = some ([], responder₁)
  clientKey : Key
  remote_client : N.remoteStatic responder₁ = some clientKey.val
  -- `<- e, ee, se, s, es`
  second : Bytes → Bytes
  second_length : ∀ payload, (second payload).length = 96 + payload.length
  responder₂ : Bytes → N.Handshake
  write_second : ∀ payload room, 96 + payload.length ≤ room →
    N.handshake.writeMessage responder₁ payload room = some (second payload, responder₂ payload)
  initiator₂ : Bytes → N.Handshake
  read_second : ∀ payload room, payload.length ≤ room →
    N.handshake.readMessage initiator₁ (second payload) room = some (payload, initiator₂ payload)
  serverKey : Key
  remote_server : ∀ payload, N.remoteStatic (initiator₂ payload) = some serverKey.val
  -- the transport
  initiator₃ : Bytes → N.Transport
  initiator_transport : ∀ payload,
    N.intoTransportMode (initiator₂ payload) = some (initiator₃ payload)
  responder₃ : Bytes → N.Transport
  responder_transport : ∀ payload,
    N.intoTransportMode (responder₂ payload) = some (responder₃ payload)
  Linked : N.Transport → N.Transport → Prop
  linked : ∀ payload, Linked (initiator₃ payload) (responder₃ payload)
  message : ∀ a b payload, Linked a b → payload.length + 16 < 65536 → ∃ msg a' b',
    msg.length = payload.length + 16 ∧
    (∀ room, msg.length ≤ room → N.transport.writeMessage a payload room = some (msg, a')) ∧
    (∀ room, payload.length ≤ room → N.transport.readMessage b msg room = some (payload, b')) ∧
    Linked b' a'

/-- A side: whether it has an auth store and an auther, and what they answer. -/
structure Side where
  authStore : Bool
  auther : Bool
  known : Key → Bool
  verify : Bytes → Key → Option Pcrs
  payload : Bytes

namespace Side

def answer (s : Side) : ∀ op, SideAns op
  | .contains key => s.known key
  | .verify attestation key => s.verify attestation key
  | .set _ _ => ()
  | .newAuth => s.payload
  | .flush => true

/-- The side asks the remote with this key for an attestation. -/
def asks (s : Side) (key : Key) : Bool := s.authStore && !s.known key

/-- The remote can produce an attestation, and it verifies. -/
structure Accepts (s remote : Side) (key : Key) : Prop where
  auther : remote.auther = true
  length : remote.payload.length ≤ 60000
  verifies : (s.verify remote.payload key).isSome

end Side

section Sides

variable {s : Side} {key : Key} {S : Type}

theorem Does.staticKey {bs : Option Bytes} (h : bs = some key.val) :
    Does s.answer (staticKey bs) [] (.ok key) := by
  rw [h]
  unfold Scallop.staticKey
  dsimp only
  rw [dif_pos key.property]
  exact .pure _

theorem Does.shouldAskAuth :
    Does s.answer (shouldAskAuth s.authStore key) [] (.ok (s.asks key)) := by
  unfold Scallop.shouldAskAuth Side.asks
  cases s.authStore with
  | false => exact .pure _
  | true => exact Does.silent (Does.ask _) (.pure _)

theorem Does.verifyAuth {attestation : Bytes} (h : (s.verify attestation key).isSome) :
    Does s.answer (verifyAuth attestation key) [] (.ok ()) := by
  obtain ⟨pcrs, hpcrs⟩ := Option.isSome_iff_exists.1 h
  apply Does.silent (Does.ask _)
  exact Does.silent (Does.orFail _ hpcrs) (Does.ask _)

theorem Does.authPayload (h : s.payload.length ≤ 60000) :
    Does s.answer authPayload [] (.ok s.payload) := by
  apply Does.silent (Does.ask _)
  exact Does.silent (Does.ensure _ h) (.pure _)

end Sides

def flag (b : Bool) : UInt8 := if b then 1 else 0

def authRequest (b : Bool) : Bytes := [0, 1, flag b]

/-- The plaintext of `CLIENTFIN`, and what follows its flag that of `SERVERFIN`. -/
def clientFin (b : Bool) (payload : Bytes) : Bytes := flag b :: frame payload

theorem Does.parseAuthRequest {answer : ∀ op, SideAns op} (b : Bool) :
    Does answer (parseAuthRequest (authRequest b)) [] (.ok b) := by
  cases b
  · apply Does.silent (Does.ensure _ (by decide))
    exact Does.silent (Does.ensure _ (by decide)) (.pure _)
  · apply Does.silent (Does.ensure _ (by decide))
    exact Does.silent (Does.ensure _ (by decide)) (.pure _)

@[simp] theorem frame_length (msg : Bytes) : (frame msg).length = msg.length + 2 := by
  unfold frame
  rw [List.length_append, u16ToBe_length, Nat.add_comm]

theorem frame_take {payload : Bytes} (h : payload.length < 65536) :
    u16FromBe ((frame payload).take 2) = (frame payload).length - 2 := by
  rw [frame_length, Nat.add_sub_cancel]
  exact u16FromBe_toBe h

section Fin

variable {s : Side} {key : Key} {S : Type} {n : Noiser S} {noise noise' : S} {msg payload : Bytes}
  {b : Bool}

theorem Does.encodeClientFin {size : ℕ} (hsize : 3 + payload.length ≤ size)
    (h : n.writeMessage noise (clientFin b payload) (size - 2) = some (msg, noise')) :
    Does s.answer (encodeClientFin n noise size payload b) (sent (frame msg)) (.ok noise') := by
  apply Does.silent (Does.ensure _ hsize)
  exact Does.noiseWrite rfl h

/-- The attestation that the side sends, where one is asked for. -/
def Side.sends (s : Side) (asked : Bool) : Bytes := if asked then s.payload else []

theorem Does.sendClientFin {asked : Bool} (hasked : asked = true → s.payload.length ≤ 60000)
    (h : ∀ room, 1022 ≤ room → (asked = true → 64998 ≤ room) →
      n.writeMessage noise (clientFin b (s.sends asked)) room = some (msg, noise')) :
    Does s.answer (sendClientFin n noise asked b) (sent (frame msg)) (.ok noise') := by
  cases asked with
  | false => exact Does.encodeClientFin (by decide) (h _ (Nat.le_refl _) nofun)
  | true =>
    have hlen := hasked rfl
    apply Does.silent (Does.authPayload hlen)
    exact Does.encodeClientFin (by omega) (h _ (by decide) fun _ => Nat.le_refl _)

theorem Does.readServerFin {asks : Bool} (hmsg : msg.length ≤ 65000)
    (hpayload : payload.length < 65536)
    (h : n.readMessage noise msg 65000 = some (frame payload, noise'))
    (hverify : asks = true → (s.verify payload key).isSome) :
    Does s.answer (readServerFin n noise key asks) (received (if asks then frame msg else []))
      (.ok (if asks then noise' else noise)) := by
  cases asks with
  | false => exact .pure _
  | true =>
    apply Does.last (Does.noiseRead (by omega) hmsg h)
    apply Does.silent (Does.ensure _ (by rw [frame_length]; omega))
    apply Does.silent (Does.ensure _ (frame_take hpayload))
    exact Does.silent (Does.verifyAuth (hverify rfl)) (.pure _)

theorem Does.readClientFin {asks : Bool} (hmsg : msg.length ≤ 1024)
    (hpayload : payload.length < 65536)
    (h : n.readMessage noise msg 1024 = some (clientFin b payload, noise'))
    (hverify : asks = true → (s.verify payload key).isSome) :
    Does s.answer (readClientFin n noise key asks) (received (frame msg)) (.ok (b, noise')) := by
  apply Does.last (Does.noiseRead (by omega) hmsg h)
  apply Does.silent (Does.ensure _ (by unfold clientFin; simp))
  apply Does.silent (Does.ensure _ (frame_take hpayload))
  have hauth : Does s.answer (verifyAsked asks payload key) [] (.ok ()) := by
    cases asks with
    | false => exact .pure _
    | true => exact Does.verifyAuth (hverify rfl)
  apply Does.silent hauth
  cases b
  · exact Does.silent (Does.ensure _ (show flag false ≤ 1 by decide)) (.pure _)
  · exact Does.silent (Does.ensure _ (show flag true ≤ 1 by decide)) (.pure _)

theorem Does.readClientFin_panic {asks : Bool} (hmsg : 1024 < msg.length)
    (hlen : msg.length < 65536) :
    Does s.answer (Scallop.readClientFin n noise key asks) (received (u16ToBe msg.length))
      (.error .panic) :=
  Path.bind_error _ (Does.noiseRead_panic hlen hmsg)

theorem Does.sendServerFin {asked : Bool} (hasked : asked = true → s.payload.length ≤ 60000)
    (h : n.writeMessage noise (frame (s.sends asked)) 64998 = some (msg, noise')) :
    Does s.answer (sendServerFin n noise asked) (sent (if asked then frame msg else []))
      (.ok (if asked then noise' else noise)) := by
  cases asked with
  | false => exact .pure _
  | true =>
    apply Does.silent (Does.authPayload (hasked rfl))
    exact Does.noiseWrite rfl h

end Fin

section Both

variable {N : Noise} {cs ss : Bytes} (ix : N.IX cs ss) (c s : Side)

/-- The server asks the client for an attestation. -/
def Noise.IX.clientAsked : Bool := s.asks ix.clientKey

/-- The client asks the server for an attestation. -/
def Noise.IX.serverAsked : Bool := c.asks ix.serverKey

def Noise.IX.reply : Bytes := ix.second (authRequest (ix.clientAsked s))

theorem Noise.IX.reply_length : (ix.reply s).length = 99 := by
  unfold Noise.IX.reply
  rw [ix.second_length]
  rfl

/-- What the client does to the pipes. -/
def Noise.IX.clientTrace (fin serverFin : Bytes) : List Act :=
  sent ([0, 0] ++ frame ix.first) ++ (received (u16ToBe 0) ++ (received (frame (ix.reply s)) ++
    (sent (frame fin) ++ received serverFin)))

/-- The messages after the handshake that both sides can read. -/
structure Noise.IX.Fin (fin serverFin : Bytes) (client client' server server' : N.Transport) :
    Prop where
  fin_length : fin.length = 3 + (c.sends (ix.clientAsked s)).length + 16
  write_fin : ∀ room, fin.length ≤ room → N.transport.writeMessage
    (ix.initiator₃ (authRequest (ix.clientAsked s)))
    (clientFin (ix.serverAsked c) (c.sends (ix.clientAsked s))) room = some (fin, client)
  read_fin : ∀ room, fin.length ≤ room → N.transport.readMessage
    (ix.responder₃ (authRequest (ix.clientAsked s))) fin room =
      some (clientFin (ix.serverAsked c) (c.sends (ix.clientAsked s)), server)
  serverFin_length : serverFin.length = 2 + (s.sends (ix.serverAsked c)).length + 16
  write_serverFin : ∀ room, serverFin.length ≤ room →
    N.transport.writeMessage server (frame (s.sends (ix.serverAsked c))) room =
      some (serverFin, server')
  read_serverFin : ∀ room, serverFin.length ≤ room →
    N.transport.readMessage client serverFin room =
      some (frame (s.sends (ix.serverAsked c)), client')

variable {c s} {fin serverFin : Bytes} {client client' server server' : N.Transport}

theorem Side.sends_length {asked : Bool} (h : asked = true → c.payload.length ≤ 60000) :
    (c.sends asked).length ≤ 60000 := by
  cases asked with
  | false => exact Nat.zero_le _
  | true => exact h rfl

theorem Noise.IX.exists_fin (hc : ix.clientAsked s = true → c.payload.length ≤ 60000)
    (hs : ix.serverAsked c = true → s.payload.length ≤ 60000) :
    ∃ fin serverFin client client' server server',
      ix.Fin c s fin serverFin client client' server server' := by
  have hlen := Side.sends_length hc
  have hlen' := Side.sends_length hs
  have hfin : (clientFin (ix.serverAsked c) (c.sends (ix.clientAsked s))).length =
      3 + (c.sends (ix.clientAsked s)).length := by
    unfold clientFin
    rw [List.length_cons, frame_length]
    omega
  obtain ⟨fin, client, server, hl, hw, hr, hlinked⟩ :=
    ix.message _ _ (clientFin (ix.serverAsked c) (c.sends (ix.clientAsked s)))
      (ix.linked (authRequest (ix.clientAsked s))) (by omega)
  obtain ⟨serverFin, server', client', hl', hw', hr', _⟩ :=
    ix.message _ _ (frame (s.sends (ix.serverAsked c))) hlinked
      (by rw [frame_length]; omega)
  rw [frame_length] at hl' hr'
  refine ⟨fin, serverFin, client, client', server, server', by omega, hw, ?_, by omega, hw', ?_⟩
  · exact fun room hroom => hr room (by omega)
  · exact fun room hroom => hr' room (by omega)

theorem Noise.IX.client_does (hfin : ix.Fin c s fin serverFin client client' server server')
    (hc : ix.clientAsked s = true → s.Accepts c ix.clientKey)
    (hs : ix.serverAsked c = true → c.Accepts s ix.serverKey) :
    ∃ r, Does c.answer (newClient N cs c.authStore c.auther)
      (ix.clientTrace s fin (if ix.serverAsked c then frame serverFin else [])) (.ok r) := by
  have hreply : (ix.second (authRequest (ix.clientAsked s))).length = 99 := ix.reply_length s
  have hfl := hfin.fin_length
  have hsl := hfin.serverFin_length
  have hlen := Side.sends_length fun h => (hs h).length
  refine ⟨.new (if ix.serverAsked c then client' else client), ?_⟩
  unfold newClient Noise.IX.clientTrace
  -- `-> e, s`
  apply Does.silent (Does.orFail _ ix.initiator_built)
  apply Path.bind_ok (Does.noiseWrite rfl (ix.write_first _ (by decide)))
  -- `<- e, ee, se, s, es`
  apply Path.bind_ok (Does.readU16 (by decide))
  apply Does.silent (Does.ensure _ rfl)
  apply Path.bind_ok (Does.noiseRead (by omega) (by omega) (ix.read_second _ _
    (show 3 ≤ 1024 by decide)))
  apply Does.silent (Does.parseAuthRequest _)
  apply Does.silent (Does.ensure _ fun h => (hc h).auther)
  apply Does.silent (Does.staticKey (ix.remote_server _))
  apply Does.silent Does.shouldAskAuth
  apply Does.silent (Does.orFail _ (ix.initiator_transport _))
  -- `-> CLIENTFIN`: both sizes of buffers have room for the payload that they are used for
  have hwrite : ∀ room, 1022 ≤ room → (ix.clientAsked s = true → 64998 ≤ room) →
      N.transport.writeMessage (ix.initiator₃ (authRequest (ix.clientAsked s)))
        (clientFin (ix.serverAsked c) (c.sends (ix.clientAsked s))) room = some (fin, client) := by
    intro room hroom hroom'
    apply hfin.write_fin
    rw [hfl]
    cases hask : ix.clientAsked s with
    | false => exact Nat.le_trans (show 19 ≤ 1022 by decide) hroom
    | true =>
      have hmax := (hc hask).length
      have hlarge := hroom' hask
      simp only [Side.sends, if_true]
      omega
  apply Path.bind_ok (Does.sendClientFin (fun h => (hc h).length) hwrite)
  -- `<- SERVERFIN`
  have hverify : ix.serverAsked c = true →
      (c.verify (s.sends (ix.serverAsked c)) ix.serverKey).isSome := by
    intro h
    rw [h]
    exact (hs h).verifies
  apply Does.last (Does.readServerFin (by omega) (by omega) (hfin.read_serverFin _ (by omega))
    hverify)
  exact .pure _

/-- What the server does to the pipes before it reads `CLIENTFIN`, and then. -/
def Noise.IX.serverTrace (s : Side) (t : List Act) : List Act :=
  received (u16ToBe 0) ++ (received (frame ix.first) ++ (sent ([0, 0] ++ frame (ix.reply s)) ++ t))

theorem Noise.IX.server_does {t : List Act} {r : Except Fail (ScallopStream N.Transport)}
    (h : Does s.answer (do
      let (shouldSendAuth, noise) ← readClientFin N.transport
        (ix.responder₃ (authRequest (ix.clientAsked s))) ix.clientKey (ix.clientAsked s)
      ensure (shouldSendAuth = true → s.auther = true)
        (protocolError "auth requested but no auther available")
      let noise ← sendServerFin N.transport noise shouldSendAuth
      return .new noise) t r) :
    Does s.answer (newServer N ss s.authStore s.auther) (ix.serverTrace s t) r := by
  have hfirst := ix.first_length
  unfold newServer Noise.IX.serverTrace
  -- `-> e, s`
  apply Does.silent (Does.orFail _ ix.responder_built)
  apply Path.bind_ok (Does.readU16 (by decide))
  apply Does.silent (Does.ensure _ rfl)
  apply Path.bind_ok (Does.noiseRead (by omega) (by omega) (ix.read_first _))
  apply Does.silent (Does.ensure _ rfl)
  apply Does.silent (Does.staticKey ix.remote_client)
  -- `<- e, ee, se, s, es`
  apply Does.silent Does.shouldAskAuth
  apply Path.bind_ok (Does.noiseWrite rfl (ix.write_second _ _ (show 99 ≤ 1020 by decide)))
  exact Does.silent (Does.orFail _ (ix.responder_transport _)) h

theorem Noise.IX.server_ok (hfin : ix.Fin c s fin serverFin client client' server server')
    (hc : ix.clientAsked s = true → s.Accepts c ix.clientKey)
    (hs : ix.serverAsked c = true → c.Accepts s ix.serverKey) (hlen : fin.length ≤ 1024) :
    ∃ r, Does s.answer (newServer N ss s.authStore s.auther)
      (ix.serverTrace s (received (frame fin) ++
        sent (if ix.serverAsked c then frame serverFin else []))) (.ok r) := by
  have hfl := hfin.fin_length
  have hsl := hfin.serverFin_length
  have hmax := Side.sends_length fun h => (hs h).length
  refine ⟨.new (if ix.serverAsked c then server' else server), ix.server_does ?_⟩
  have hverify : ix.clientAsked s = true →
      (s.verify (c.sends (ix.clientAsked s)) ix.clientKey).isSome := by
    intro h
    rw [h]
    exact (hc h).verifies
  apply Path.bind_ok (Does.readClientFin hlen (by omega) (hfin.read_fin _ hlen) hverify)
  apply Does.silent (Does.ensure _ fun h => (hs h).auther)
  apply Does.last (Does.sendServerFin (fun h => (hs h).length) (hfin.write_serverFin _ (by omega)))
  exact .pure _

/-- A long attestation makes the server panic as soon as its length has arrived. -/
theorem Noise.IX.server_panics (s : Side) (hlen : 1024 < fin.length) (hshort : fin.length < 65536) :
    Does s.answer (newServer N ss s.authStore s.auther)
      (ix.serverTrace s (received (u16ToBe fin.length))) (.error .panic) :=
  ix.server_does (Path.bind_error _ (Does.readClientFin_panic hlen hshort))

/-- The client's trace and the server's mirror each other. -/
theorem Noise.IX.mirror (s : Side) (fin serverFin : Bytes) :
    (ix.clientTrace s fin serverFin).map .dual =
      ix.serverTrace s (received (frame fin) ++ sent serverFin) := by
  simp only [Noise.IX.clientTrace, Noise.IX.serverTrace, List.map_append, dual_sent, dual_received,
    sent_append, List.append_assoc]
  rfl

theorem Noise.IX.mirror_length (s : Side) (fin serverFin : Bytes) :
    ∃ t rest, ix.clientTrace s fin serverFin = t ++ rest ∧
      t.map .dual = ix.serverTrace s (received (u16ToBe fin.length)) := by
  refine ⟨sent ([0, 0] ++ frame ix.first) ++ (received (u16ToBe 0) ++
    (received (frame (ix.reply s)) ++ sent (u16ToBe fin.length))), sent fin ++ received serverFin,
    ?_, ?_⟩
  · simp only [Noise.IX.clientTrace, frame, sent_append, List.append_assoc]
  · simp only [Noise.IX.serverTrace, List.map_append, dual_sent, dual_received, sent_append,
      List.append_assoc]
    rfl

end Both

def connected (N : Noise) (cs ss : Bytes) (c s : Side) :
    Net SideAns (Except Fail (ScallopStream N.Transport))
      (Except Fail (ScallopStream N.Transport)) where
  left := (newClient N cs c.authStore c.auther).run
  right := (newServer N ss s.authStore s.auther).run
  toRight := []
  toLeft := []

/-- Both calls have returned a stream, and no byte is left. -/
def Complete {α β : Type} (n : Net SideAns (Except Fail α) (Except Fail β)) : Prop :=
  ∃ a b, n = ⟨.ret (.ok a), .ret (.ok b), [], []⟩

section Runs

variable {N : Noise} {cs ss : Bytes} (ix : N.IX cs ss) {c s : Side} {cap : ℕ∞}

theorem Noise.IX.completes (hcap : 1 ≤ cap)
    (hc : ix.clientAsked s = true → s.Accepts c ix.clientKey)
    (hs : ix.serverAsked c = true → c.Accepts s ix.serverKey)
    (hlen : (c.sends (ix.clientAsked s)).length ≤ 1005) :
    Finishes (Net.Step cap c.answer s.answer) Complete (connected N cs ss c s) := by
  obtain ⟨fin, serverFin, _, _, _, _, hfin⟩ :=
    ix.exists_fin (fun h => (hc h).length) fun h => (hs h).length
  have hfl := hfin.fin_length
  obtain ⟨a, hclient⟩ := ix.client_does hfin hc hs
  obtain ⟨b, hserver⟩ := ix.server_ok hfin hc hs (by omega)
  rw [← ix.mirror] at hserver
  obtain ⟨es, hrun⟩ := hclient.run hcap hserver
  exact Finishes.of_run Net.diamond hrun (Net.stuck_of_ret _ _ _ _) ⟨a, b, rfl⟩

/-- In a run where the server has panicked, the handshake does not complete any more. -/
theorem Noise.IX.not_completes (hcap : 1 ≤ cap)
    (hc : ix.clientAsked s = true → s.Accepts c ix.clientKey)
    (hs : ix.serverAsked c = true → c.Accepts s ix.serverKey)
    (hlen : 1005 < (c.sends (ix.clientAsked s)).length) :
    ¬Finishes (Net.Step cap c.answer s.answer) Complete (connected N cs ss c s) := by
  intro hfinishes
  have hmax := Side.sends_length fun h => (hc h).length
  obtain ⟨fin, serverFin, _, _, _, _, hfin⟩ :=
    ix.exists_fin (fun h => (hc h).length) fun h => (hs h).length
  have hfl := hfin.fin_length
  obtain ⟨a, hclient⟩ := ix.client_does hfin hc hs
  -- both sides run up to the length of `CLIENTFIN`, where the server panics
  obtain ⟨t, rest, ht, hdual⟩ := ix.mirror_length s fin
    (if ix.serverAsked c then frame serverFin else [])
  rw [ht] at hclient
  obtain ⟨p, hclient, -⟩ := hclient.split
  have hserver := ix.server_panics s (by omega) (by omega : fin.length < 65536)
  rw [← hdual] at hserver
  obtain ⟨es, hrun⟩ := hclient.run hcap hserver
  -- from there a run would go on to a server that has returned a stream
  obtain ⟨fs, z, hz, a, b, rfl⟩ := hfinishes.reach hrun
  cases Net.right_ret hz rfl

end Runs

/-- For honest sides, every run of the handshake ends with two streams and no byte left, exactly
when no attestation of more than 1005 bytes is asked from the client. -/
theorem handshake_completes_iff {N : Noise} {cs ss : Bytes} (ix : N.IX cs ss) (c s : Side)
    (hc : s.asks ix.clientKey = true → s.Accepts c ix.clientKey)
    (hs : c.asks ix.serverKey = true → c.Accepts s ix.serverKey) {cap : ℕ∞} (hcap : 1 ≤ cap) :
    Finishes (Net.Step cap c.answer s.answer) Complete (connected N cs ss c s) ↔
      (s.asks ix.clientKey = true → c.payload.length ≤ 1005) := by
  constructor
  · intro h hask
    by_contra hlen
    refine ix.not_completes hcap hc hs ?_ h
    unfold Noise.IX.clientAsked Side.sends
    rw [if_pos hask]
    omega
  · intro h
    refine ix.completes hcap hc hs ?_
    unfold Noise.IX.clientAsked Side.sends
    by_cases hask : s.asks ix.clientKey = true
    · rw [if_pos hask]
      exact h hask
    · rw [if_neg hask]
      exact Nat.zero_le _

structure ClearHandshake where
  initiator : Bool
  key : Bytes
  remote : Option Bytes

def clearNoise : Noise where
  Handshake := ClearHandshake
  Transport := Bytes
  buildInitiator secret _ := some ⟨true, secret, none⟩
  buildResponder secret _ := some ⟨false, secret, none⟩
  handshake :=
    { writeMessage := fun st payload room =>
        let tags : Bytes := if st.initiator then [] else List.replicate 32 0
        let msg := st.key ++ st.key ++ tags ++ payload
        if msg.length ≤ room then some (msg, st) else none
      readMessage := fun st msg room =>
        let payload := msg.drop (if st.initiator then 96 else 64)
        if payload.length ≤ room then some (payload, { st with remote := some (msg.take 32) })
        else none }
  transport :=
    { writeMessage := fun remote payload room =>
        let msg := payload ++ List.replicate 16 0
        if msg.length ≤ room then some (msg, remote) else none
      readMessage := fun remote msg room =>
        let payload := msg.take (msg.length - 16)
        if payload.length ≤ room then some (payload, remote) else none }
  remoteStatic st := st.remote
  intoTransportMode st := st.remote
  transportRemoteStatic remote := some remote

def clearIX (ck sk : Key) : clearNoise.IX ck.val sk.val where
  initiator := ⟨true, ck.val, none⟩
  initiator_built := rfl
  responder := ⟨false, sk.val, none⟩
  responder_built := rfl
  first := ck.val ++ ck.val
  first_length := by rw [List.length_append, ck.property]
  initiator₁ := ⟨true, ck.val, none⟩
  write_first room hroom := by
    have hck := ck.property
    simp only [clearNoise, if_true, List.append_nil]
    rw [if_pos (by rw [List.length_append]; omega)]
  responder₁ := ⟨false, sk.val, some ck.val⟩
  read_first room := by
    have hck := ck.property
    have hdrop : (ck.val ++ ck.val).drop 64 = [] :=
      List.drop_of_length_le (by rw [List.length_append]; omega)
    simp only [clearNoise, Bool.false_eq_true, if_false, hdrop]
    rw [List.take_left' hck]
    exact if_pos (Nat.zero_le room)
  clientKey := ck
  remote_client := rfl
  second payload := sk.val ++ sk.val ++ List.replicate 32 0 ++ payload
  second_length payload := by
    simp only [List.length_append, List.length_replicate, sk.property]
  responder₂ _ := ⟨false, sk.val, some ck.val⟩
  write_second payload room hroom := by
    have hsk := sk.property
    simp only [clearNoise, Bool.false_eq_true, if_false]
    rw [if_pos (by simp only [List.length_append, List.length_replicate]; omega)]
  initiator₂ _ := ⟨true, ck.val, some sk.val⟩
  read_second payload room hroom := by
    have hsk := sk.property
    have hdrop : (sk.val ++ sk.val ++ List.replicate 32 0 ++ payload).drop 96 = payload :=
      List.drop_left' (by simp only [List.length_append, List.length_replicate]; omega)
    simp only [clearNoise, if_true, hdrop]
    rw [if_pos hroom, List.append_assoc, List.append_assoc, List.take_left' hsk]
  serverKey := sk
  remote_server _ := rfl
  initiator₃ _ := sk.val
  initiator_transport _ := rfl
  responder₃ _ := ck.val
  responder_transport _ := rfl
  Linked _ _ := True
  linked _ := True.intro
  message a b payload _ _ := by
    have htake : (payload ++ List.replicate 16 (0 : UInt8)).take
        ((payload ++ List.replicate 16 (0 : UInt8)).length - 16) = payload :=
      List.take_left' (by rw [List.length_append, List.length_replicate]; omega)
    refine ⟨payload ++ List.replicate 16 0, a, b, ?_, ?_, ?_, True.intro⟩
    · rw [List.length_append, List.length_replicate]
    · intro room hroom
      exact if_pos hroom
    · intro room hroom
      simp only [clearNoise, htake]
      exact if_pos hroom

def keyOf (b : UInt8) : Key := ⟨List.replicate 32 b, List.length_replicate⟩

def somePcrs : Pcrs :=
  let pcr : FixedBytes 48 := ⟨List.replicate 48 0, List.length_replicate⟩
  ⟨pcr, pcr, pcr⟩

def asking (payload : Bytes) : Side where
  authStore := true
  auther := true
  known _ := false
  verify _ _ := some somePcrs
  payload := payload

theorem asking_accepts {payload payload' : Bytes} (h : payload'.length ≤ 60000) (key : Key) :
    (asking payload).Accepts (asking payload') key :=
  ⟨rfl, h, rfl⟩

/-- Both sides ask for an attestation, as long as the limit. -/
theorem handshake_completes_1005 :
    Finishes (Net.Step 1 (asking (List.replicate 1005 0)).answer (asking [7]).answer) Complete
      (connected clearNoise (keyOf 1).val (keyOf 2).val (asking (List.replicate 1005 0))
        (asking [7])) := by
  refine (handshake_completes_iff (clearIX (keyOf 1) (keyOf 2)) _ _ ?_ ?_ (le_refl 1)).2 ?_
  · intro _
    exact asking_accepts (by rw [List.length_replicate]; decide) _
  · intro _
    exact asking_accepts (by decide) _
  · intro _
    exact Nat.le_of_eq List.length_replicate

/-- An attestation of 2000 bytes is within the checked limit, and the handshake fails. -/
theorem handshake_fails_2000 :
    (asking []).Accepts (asking (List.replicate 2000 0)) (clearIX (keyOf 1) (keyOf 2)).clientKey ∧
      ¬Finishes (Net.Step ⊤ (asking (List.replicate 2000 0)).answer (asking []).answer) Complete
        (connected clearNoise (keyOf 1).val (keyOf 2).val (asking (List.replicate 2000 0))
          (asking [])) := by
  have haccepts : (asking []).Accepts (asking (List.replicate 2000 0))
      (clearIX (keyOf 1) (keyOf 2)).clientKey :=
    asking_accepts (by rw [List.length_replicate]; decide) _
  refine ⟨haccepts, (clearIX (keyOf 1) (keyOf 2)).not_completes le_top (fun _ => haccepts) ?_ ?_⟩
  · intro _
    exact asking_accepts (by decide) _
  · exact lt_of_lt_of_eq (by decide) List.length_replicate.symm

end Oyster.Scallop
