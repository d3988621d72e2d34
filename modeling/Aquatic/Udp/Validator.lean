import Aquatic.Udp.Protocol

/-!
# Connection ids

An id holds the time at which it was made and a keyed hash of that time and of the
address it was made for. The hasher is one object that every call feeds, reads and
resets, so a validator carries the proof that it starts from scratch.
-/

namespace Aquatic.Udp
open Protocol
set_option autoImplicit false

/-- A keyed hash function, cut down to four bytes of output, and what it has been
fed with so far. -/
structure Hasher where
  keyed : List UInt8 → Vector UInt8 4
  input : List UInt8

namespace Hasher

def update (hasher : Hasher) (bytes : List UInt8) : Hasher :=
  { hasher with input := hasher.input ++ bytes }

def finalize (hasher : Hasher) : Vector UInt8 4 := hasher.keyed hasher.input

def reset (hasher : Hasher) : Hasher := { hasher with input := [] }

end Hasher

structure ConnectionValidator where
  maxConnectionAge : UInt32
  keyedHasher : Hasher
  secondsSinceStart : UInt32
  fresh : keyedHasher.input = []

namespace ConnectionValidator

/-- The machine is a little-endian one. -/
def neBytes {w : Nat} (bits : BitVec w) : List UInt8 := (beBytes bits).reverse

def fromNeBytes (w : Nat) (bytes : List UInt8) : BitVec w := beBits w bytes.reverse

def octets : IpAddr → List UInt8
  | .v4 addr => addr.octets.toList
  | .v6 addr => addr.octets.toList

def hash (validator : ConnectionValidator) (elapsed : List UInt8) (ipAddr : IpAddr) :
    List UInt8 × ConnectionValidator :=
  let hasher := (validator.keyedHasher.update elapsed).update (octets ipAddr)
  (hasher.finalize.toList, { validator with keyedHasher := hasher.reset, fresh := rfl })

def createConnectionId (validator : ConnectionValidator) (sourceAddr : CanonicalSocketAddr) :
    ConnectionId × ConnectionValidator :=
  let elapsed := neBytes validator.secondsSinceStart.toBitVec
  let (hash, validator) := validator.hash elapsed sourceAddr.addr.ip
  (⟨Int64.ofBitVec (fromNeBytes 64 (elapsed ++ hash))⟩, validator)

/-- The sums are those of `u64`, in which no `u32` overflows. -/
def connectionIdValid (validator : ConnectionValidator) (sourceAddr : CanonicalSocketAddr)
    (connectionId : ConnectionId) : Bool × ConnectionValidator :=
  let bytes := neBytes connectionId.value.toBitVec
  let elapsed := bytes.take 4
  let (hash, validator) := validator.hash elapsed sourceAddr.addr.ip
  if bytes.drop 4 != hash then (false, validator)
  else
    let secondsSinceStart := validator.secondsSinceStart.toUInt64
    let clientElapsed := (UInt32.ofBitVec (fromNeBytes 32 elapsed)).toUInt64
    let clientExpirationTime := clientElapsed + validator.maxConnectionAge.toUInt64
    let clientNotExpired : Bool := clientExpirationTime > secondsSinceStart
    let clientElapsedNotInFarFuture : Bool := clientElapsed ≤ secondsSinceStart + 60
    (clientNotExpired && clientElapsedNotInFarFuture, validator)

variable (validator : ConnectionValidator) (sourceAddr : CanonicalSocketAddr)

/-- A call leaves the hasher as it was. -/
theorem hash_snd (elapsed : List UInt8) (ipAddr : IpAddr) :
    (validator.hash elapsed ipAddr).2 = validator := by
  obtain ⟨maxConnectionAge, ⟨keyed, input⟩, secondsSinceStart, fresh⟩ := validator
  cases fresh
  rfl

theorem createConnectionId_eq : validator.createConnectionId sourceAddr =
    ((validator.createConnectionId sourceAddr).1, validator) :=
  Prod.ext rfl (hash_snd validator _ _)

theorem connectionIdValid_eq (connectionId : ConnectionId) :
    validator.connectionIdValid sourceAddr connectionId =
      ((validator.connectionIdValid sourceAddr connectionId).1, validator) := by
  refine Prod.ext rfl ?_
  have hsnd := hash_snd validator ((neBytes connectionId.value.toBitVec).take 4) sourceAddr.addr.ip
  simp only [connectionIdValid]
  split <;> exact hsnd

end ConnectionValidator

end Aquatic.Udp
