import Oyster.Indexer.Records
import Oyster.Lib.Abi

/-!
The events that the contract emits, the logs they become, and the state machine of the contract
as far as it decides which event may come next. The strings are the user's own: Solidity has any
bytes in them.
-/

namespace Oyster.Indexer

open ControlPlane Fallible

structure SolidityString where
  bytes : Bytes
  short : bytes.length < 2 ^ 256

namespace SolidityString

def utf8? (s : SolidityString) : Option String := String.fromUTF8? ⟨s.bytes.toArray⟩

end SolidityString

inductive Event where
  | providerAdded (provider : Address) (cp : SolidityString)
  | providerRemoved (provider : Address)
  | providerUpdatedWithCp (provider : Address) (cp : SolidityString)
  | jobOpened (job : B256) (metadata : SolidityString) (owner provider : Address)
      (rate balance timestamp : U256)
  | jobSettled (job : B256) (amount timestamp : U256)
  | jobClosed (job : B256)
  | jobDeposited (job : B256) (sender : Address) (amount : U256)
  | jobWithdrew (job : B256) (receiver : Address) (amount : U256)
  | jobReviseRateInitiated (job : B256) (newRate : U256)
  | jobReviseRateCancelled (job : B256)
  | jobReviseRateFinalized (job : B256) (newRate : U256)
  | jobMetadataUpdated (job : B256) (metadata : SolidityString)
  | lockCreated (selector key : B256) (iValue unlockTime : U256)
  | lockDeleted (selector key : B256) (iValue : U256)
  /-- an event that no handler is for -/
  | other (topic : B256) (topics : List B256) (data : Bytes)
      (unhandled : ∀ t, logType topic = some t → ∃ e, t = .ignored e)

def addressWord (a : Address) : B256 := a.setWidth 256

@[simp] theorem addressFromWord_addressWord (a : Address) :
    addressFromWord (addressWord a) = a := by
  simp [addressFromWord, addressWord]

namespace Event

def topics : Event → List B256
  | providerAdded provider _ => [LogType.providerAdded.topic, addressWord provider]
  | providerRemoved provider => [LogType.providerRemoved.topic, addressWord provider]
  | providerUpdatedWithCp provider _ =>
    [LogType.providerUpdatedWithCp.topic, addressWord provider]
  | jobOpened job _ owner provider _ _ _ =>
    [MarketEvent.jobOpened.topic, job, addressWord owner, addressWord provider]
  | jobSettled job _ _ => [MarketEvent.jobSettled.topic, job]
  | jobClosed job => [MarketEvent.jobClosed.topic, job]
  | jobDeposited job sender _ => [MarketEvent.jobDeposited.topic, job, addressWord sender]
  | jobWithdrew job receiver _ => [MarketEvent.jobWithdrew.topic, job, addressWord receiver]
  | jobReviseRateInitiated job _ => [MarketEvent.jobReviseRateInitiated.topic, job]
  | jobReviseRateCancelled job => [MarketEvent.jobReviseRateCancelled.topic, job]
  | jobReviseRateFinalized job _ => [MarketEvent.jobReviseRateFinalized.topic, job]
  | jobMetadataUpdated job _ => [MarketEvent.metadataUpdated.topic, job]
  | lockCreated selector key _ _ => [LogType.lockCreated.topic, selector, key]
  | lockDeleted selector key _ => [LogType.lockDeleted.topic, selector, key]
  | other topic topics _ _ => topic :: topics

def data : Event → Bytes
  | providerAdded _ cp | providerUpdatedWithCp _ cp => Abi.stringThen cp.bytes []
  | jobOpened _ metadata _ _ rate balance timestamp =>
    Abi.stringThen metadata.bytes [rate, balance, timestamp]
  | jobSettled _ amount timestamp => Abi.words [amount, timestamp]
  | jobDeposited _ _ amount | jobWithdrew _ _ amount => Abi.words [amount]
  | jobReviseRateInitiated _ newRate | jobReviseRateFinalized _ newRate => Abi.words [newRate]
  | jobMetadataUpdated _ metadata => Abi.stringThen metadata.bytes []
  | lockCreated _ _ iValue unlockTime => Abi.words [iValue, unlockTime]
  | lockDeleted _ _ iValue => Abi.words [iValue]
  | providerRemoved _ | jobClosed _ | jobReviseRateCancelled _ => []
  | other _ _ data _ => data

def strings : Event → List SolidityString
  | providerAdded _ cp | providerUpdatedWithCp _ cp => [cp]
  | jobOpened _ metadata _ _ _ _ _ | jobMetadataUpdated _ metadata => [metadata]
  | _ => []

def timestamps : Event → List U256
  | jobOpened _ _ _ _ _ _ timestamp | jobSettled _ _ timestamp => [timestamp]
  | lockCreated selector _ _ unlockTime => if selector = rateLockSelector then [unlockTime] else []
  | _ => []

end Event

/-- An event at its place in the chain. -/
structure Emitted where
  event : Event
  block : BitVec 64
  idx : BitVec 64
  hash : B256

namespace Emitted

def log (e : Emitted) : Log where
  topics := e.event.topics
  data := e.event.data
  blockNumber := some e.block
  logIndex := some e.idx
  transactionHash := some e.hash

/-- The key of the row that the event may get in `transactions`. -/
def key (e : Emitted) : ℤ × ℤ := (e.block.toInt, e.idx.toInt)

end Emitted

structure Contract where
  /-- whether a provider is registered -/
  active : Address → Bool
  /-- whether a job is closed, for the jobs there are -/
  closed : B256 → Option Bool
  /-- whether a job has a rate lock -/
  locked : B256 → Bool

namespace Contract

def init : Contract where
  active _ := false
  closed _ := none
  locked _ := false

def setActive (c : Contract) (provider : Address) (active : Bool) : Contract :=
  { c with active := fun p => if p = provider then active else c.active p }

def setClosed (c : Contract) (job : B256) (closed : Bool) : Contract :=
  { c with closed := fun id => if id = job then some closed else c.closed id }

def setLocked (c : Contract) (job : B256) (locked : Bool) : Contract :=
  { c with locked := fun id => if id = job then locked else c.locked id }

/-- The state after an event; `none` where the contract would not emit it. -/
def next (c : Contract) : Event → Option Contract
  | .providerAdded provider _ =>
    if c.active provider then none else some (c.setActive provider true)
  | .providerRemoved provider =>
    if c.active provider then some (c.setActive provider false) else none
  | .providerUpdatedWithCp provider _ => if c.active provider then some c else none
  | .jobOpened job _ _ _ _ _ _ => if c.closed job = none then some (c.setClosed job false) else none
  | .jobClosed job => if c.closed job = some false then some (c.setClosed job true) else none
  | .jobSettled job _ _ | .jobDeposited job _ _ | .jobWithdrew job _ _
  | .jobReviseRateInitiated job _ | .jobReviseRateCancelled job | .jobReviseRateFinalized job _
  | .jobMetadataUpdated job _ => if c.closed job = some false then some c else none
  | .lockCreated selector key _ _ =>
    if selector = rateLockSelector then
      if c.closed key = some false ∧ c.locked key = false then some (c.setLocked key true) else none
    else some c
  | .lockDeleted selector key _ =>
    if selector = rateLockSelector then some (c.setLocked key false) else some c
  | .other _ _ _ _ => some c

end Contract

/-- Events that the contract emits one after the other, each at its own place. -/
structure Emits (c : Contract) (es : List Emitted) (c' : Contract) : Prop where
  run : (es.map Emitted.event).foldlM Contract.next c = some c'
  places : (es.map Emitted.key).Nodup

/-- What the validating decoders of alloy make of ABI encoded arguments: a string that is not
UTF-8 is refused. -/
structure DecodesAbi (codec : Codec) : Prop where
  stringData (s : SolidityString) : codec.stringData (Abi.stringThen s.bytes []) = s.utf8?
  openedData (s : SolidityString) (rate balance timestamp : U256) :
    codec.openedData (Abi.stringThen s.bytes [rate, balance, timestamp]) =
      s.utf8?.map fun metadata => (metadata, rate, balance, timestamp)
  settledData (a b : U256) : codec.settledData (Abi.words [a, b]) = some (a, b)
  u256Data (a : U256) : codec.u256Data (Abi.words [a]) = some a

def Emitted.record (e : Emitted) : Option Record :=
  match e.event with
  | .providerAdded provider cp => cp.utf8?.map (.providerAdded provider)
  | .providerRemoved provider => some (.providerRemoved provider)
  | .providerUpdatedWithCp provider cp => cp.utf8?.map (.providerUpdatedWithCp provider)
  | .jobOpened job metadata owner provider rate balance timestamp => do
    let metadata ← metadata.utf8?
    let t ← (systemTime timestamp).toOption
    return .opened {
      id := job
      metadata := metadata
      owner := owner
      provider := provider
      rate := rate.toNat
      balance := balance.toNat
      lastSettled := t
      created := t
      isClosed := false } e.block.toInt e.idx.toInt e.hash
  | .jobSettled job amount timestamp =>
    (systemTime timestamp).toOption.map fun t => .changed job (.settled amount.toNat t)
  | .jobClosed job => some (.changed job .closed)
  | .jobDeposited job _ amount =>
    some (.changed job (.deposited e.block.toInt e.idx.toInt e.hash amount.toNat))
  | .jobWithdrew job _ amount =>
    some (.changed job (.withdrew e.block.toInt e.idx.toInt e.hash amount.toNat))
  | .jobReviseRateFinalized job newRate => some (.changed job (.rateFinalized newRate.toNat))
  | .jobMetadataUpdated job metadata =>
    metadata.utf8?.map fun metadata => .changed job (.metadataUpdated metadata)
  | .lockCreated selector key iValue unlockTime =>
    if selector = rateLockSelector then
      (systemTime unlockTime).toOption.map fun t => .requested ⟨key, iValue.toNat, t⟩
    else some .nothing
  | .lockDeleted selector key _ =>
    if selector = rateLockSelector then some (.unrequested key) else some .nothing
  | .jobReviseRateInitiated _ _ | .jobReviseRateCancelled _ | .other _ _ _ _ => some .nothing

@[simp] theorem logType_marketEvent (e : MarketEvent) : logType e.topic = some (.job e) :=
  logType_topic (.job e)

@[simp] theorem decoded_toOption {α : Type} (x : Option α) : (decoded x).toOption = x := by
  cases x <;> rfl

section Read

attribute [local simp] readLog Emitted.log Event.topics Event.data readType Emitted.record Log.topic
  Log.place readJobOpened readAmount readRateLockCreated Option.bind_map Function.comp_def

theorem readLog_toOption {codec : Codec} (hcodec : DecodesAbi codec) (e : Emitted) :
    (readLog codec e.log).toOption = e.record := by
  obtain ⟨event, block, idx, hash⟩ := e
  cases event with
  | providerAdded | providerUpdatedWithCp | jobMetadataUpdated => simp [hcodec.stringData]
  | jobOpened => simp [hcodec.openedData]
  | jobSettled => simp [hcodec.settledData]
  | jobDeposited | jobWithdrew | jobReviseRateFinalized => simp [hcodec.u256Data]
  | lockCreated selector key iValue unlockTime =>
    by_cases hsel : selector = rateLockSelector
    · simp [hcodec.settledData, hsel]
    · simp [hsel]
  | lockDeleted selector key iValue =>
    by_cases hsel : selector = rateLockSelector
    · simp [hsel]
    · simp [hsel]
  | other topic topics data unhandled =>
    have htype : readType codec ⟨⟨topic :: topics, data⟩, some block, some idx, some hash⟩
        (logType topic) = .ok .nothing := by
      cases htype : logType topic with
      | none => rfl
      | some t =>
        obtain ⟨e, rfl⟩ := unhandled t htype
        rfl
    exact congrArg Except.toOption htype
  | _ => simp

end Read

end Oyster.Indexer
