import Mathlib.Data.BitVec

/-!
What `market.rs` takes from its libraries. The decoders of alloy and `serde_json` are the
parameter `Codec`: a log carries its raw data, and everything below holds for every decoder.
-/

namespace Oyster.ControlPlane

abbrev U256 := BitVec 256
abbrev B256 := BitVec 256
abbrev Bytes := List UInt8

/-- Nanoseconds. -/
abbrev Duration := ℕ

/-- Nanoseconds on the monotonic clock, whose seconds are an `i64`. -/
abbrev Instant := ℕ

def fromSecs (secs : ℕ) : Duration := secs * 10 ^ 9

def Instant.checkedAdd (t : Instant) (d : Duration) : Option Instant :=
  if t + d < 2 ^ 63 * 10 ^ 9 then some (t + d) else none

namespace U256

def saturatingToU64 (a : U256) : ℕ := min a.toNat (2 ^ 64 - 1)

def saturatingMul (a b : U256) : U256 :=
  if a.toNat * b.toNat < 2 ^ 256 then a * b else BitVec.allOnes 256

end U256

/-- `encode_hex_with_prefix`: lower case, most significant digit first. -/
def encodeHexWithPrefix (w : B256) : String :=
  String.ofList ('0' :: 'x' :: (List.range 64).map fun i =>
    Nat.digitChar (w.toNat / 16 ^ (63 - i) % 16))

/-- `serde_json::Value`. Numbers that are not integers keep no value: nothing reads them. -/
inductive Json where
  | null
  | bool (b : Bool)
  | int (n : ℤ)
  | float
  | str (s : String)
  | arr (vs : List Json)
  | obj (fields : List (String × Json))

namespace Json

/-- `v[key]`: `Null` for a missing key and for a value that is not an object. -/
def index (v : Json) (key : String) : Json :=
  match v with
  | obj fields => (fields.lookup key).getD null
  | _ => null

def asStr : Json → Option String
  | str s => some s
  | _ => none

def asI64 : Json → Option ℤ
  | int n => if -2 ^ 63 ≤ n ∧ n < 2 ^ 63 then some n else none
  | _ => none

def asBool : Json → Option Bool
  | bool b => some b
  | _ => none

end Json

/-- `i64::try_into::<i32>`. -/
def tryIntoI32 (t : ℤ) : Option ℤ := if -2 ^ 31 ≤ t ∧ t < 2 ^ 31 then some t else none

def i32Max : ℤ := 2 ^ 31 - 1

structure Log where
  topics : List B256
  data : Bytes
deriving DecidableEq

/-- The decoders called on a log: `abi_decode_sequence` and `abi_decode` with validation, and
`serde_json::from_str`. -/
structure Codec where
  openedData : Bytes → Option (String × U256 × U256 × U256)
  settledData : Bytes → Option (U256 × U256)
  u256Data : Bytes → Option U256
  stringData : Bytes → Option String
  parseJson : String → Option Json

inductive MarketEvent where
  | jobOpened
  | jobSettled
  | jobClosed
  | jobDeposited
  | jobWithdrew
  | jobReviseRateInitiated
  | jobReviseRateCancelled
  | jobReviseRateFinalized
  | metadataUpdated
deriving DecidableEq

/-- The keccak256 hash of the event signature. -/
def MarketEvent.topic : MarketEvent → B256
  | jobOpened => 0xcaf4e46d4e6467895056ca2f41d879c0cd4f68875400a55b8e9b24c9904931b4
  | jobSettled => 0xd279a21adfe210809eb47e25b172b6b8c49f3c909ca3fe860c28ad1670ed6680
  | jobClosed => 0x87c6cc8269aa1e8b05794139b53e072d0cdd15e8bc266fb1fca4028003a7d98c
  | jobDeposited => 0x0ce27c5acd9cfe158836bbbf9751706ebe58afef872149bdf8594627924c32e3
  | jobWithdrew => 0xba29401019042047f1847a0cb0610d75686cdf6011b49edd68ffc3320c25dca8
  | jobReviseRateInitiated => 0x822e25a49fe523e2b8907a877a478c4b2686dfa71bfa434360ae0df1f2d05b60
  | jobReviseRateCancelled => 0x868233d4ed22058a3e695c5799cb9cb0f61713f6314a69099b56fac0c7aef362
  | jobReviseRateFinalized => 0x0e4af7f97161d5d3cc661d796f0d9649d696a298c6cd356d3d5ac9fad59bdeb3
  | metadataUpdated => 0xa24ecd736bba25f4e473a4b5b4e2bb685cd0ccfc87ac332fc4079943e870d59b

/-- The order in which `process_log` compares the first topic. -/
def MarketEvent.all : List MarketEvent :=
  [jobOpened, jobSettled, jobClosed, jobDeposited, jobWithdrew, jobReviseRateInitiated,
    jobReviseRateCancelled, jobReviseRateFinalized, metadataUpdated]

def marketEvent (topic : B256) : Option MarketEvent :=
  MarketEvent.all.find? fun e => e.topic = topic

@[simp] theorem marketEvent_topic (e : MarketEvent) : marketEvent e.topic = some e := by
  cases e <;> decide

theorem topic_of_marketEvent {topic : B256} {e : MarketEvent} (h : marketEvent topic = some e) :
    topic = e.topic := by
  have h' := List.find?_some h
  exact (of_decide_eq_true h').symm

/-- The event of a log, by its first topic. -/
def Log.event (log : Log) : Option MarketEvent := log.topics.head?.bind marketEvent

theorem Log.topic_of_event {log : Log} {e : MarketEvent} (h : log.event = some e) :
    log.topics.head? = some e.topic := by
  obtain ⟨topic, htopic, h⟩ := Option.bind_eq_some_iff.1 h
  rw [htopic, topic_of_marketEvent h]

structure RateCard where
  instanceType : String
  minRate : U256
deriving DecidableEq

structure RegionalRates where
  region : String
  rateCards : List RateCard
deriving DecidableEq

structure GBRateCard where
  regionCode : String
  rate : U256
deriving DecidableEq

/-- The card the loops over `rates` stop at: the first card of the instance type in the first
entry of the region. -/
def findRateCard (rates : List RegionalRates) (region instanceType : String) : Option RateCard :=
  (rates.find? fun entry => entry.region = region).bind fun entry =>
    entry.rateCards.find? fun card => card.instanceType = instanceType

/-- What every call of `process_log` is given besides the log. -/
structure Market where
  codec : Codec
  rates : List RegionalRates
  gbRates : List GBRateCard
  addressWhitelist : List String
  addressBlacklist : List String

/-- `None` is the panic of `log.topics()[2]` on a log without an owner topic. -/
def whitelistBlacklistCheck (log : Log) (addressWhitelist addressBlacklist : List String) :
    Option Bool :=
  if addressWhitelist = [] ∧ addressBlacklist = [] then some true
  else log.topics[2]?.map fun owner =>
    (addressWhitelist = [] || addressWhitelist.contains (encodeHexWithPrefix owner)) &&
      (addressBlacklist = [] || !addressBlacklist.contains (encodeHexWithPrefix owner))

structure JobId where
  id : String
  operator : String
  contract : String
  chain : String
deriving DecidableEq

end Oyster.ControlPlane
