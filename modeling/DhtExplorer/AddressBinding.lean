import DhtExplorer.Library.Sampling
import DhtExplorer.NodeInfo

namespace DhtExplorer

open BigEndian (Bytes)

/-!
# Ids and tokens bound to addresses

A valid id repeats, in its first bits, a checksum of the address it is used
from.  A token proves that its bearer was recently heard from the same address.
The checksum, the key stream and the sampling come from other packages and are
parameters; the clock and the random draws are arguments.
-/

/-- The functions of other packages that ids and tokens are made with. -/
structure Crypto where
  crc32c : Bytes -> BitVec 32
  /-- The byte of the ChaCha20 stream at a position, for a key and a nonce. -/
  keystream : Bytes -> Bytes -> Nat -> UInt8

/-- What the clock and the random number generator give during one query. -/
structure Chance where
  /-- Seconds since the epoch. -/
  now : UInt64
  /-- The eight random bytes of a token, as the word they spell. -/
  randBytes : UInt64
  msRandom : BitVec 128
  lsRandom : BitVec 32
  /-- The samples that are taken of the stored hashes. -/
  sampler : Sampler U160

/-! ## Ids -/

namespace U160

def fromIpWithR (crypto : Crypto) (chance : Chance) (addr : IpAddr) (r : BitVec 8) : U160 :=
  let pfx :=
    match addr with
    | .v4 ip =>
        crypto.crc32c (BigEndian.encode 4 ((ip &&& 0x030f3fff#32) ||| (r.setWidth 32 <<< 29)).toNat)
    | .v6 ip =>
        crypto.crc32c (BigEndian.encode 8
          (((ip >>> 64).setWidth 64 &&& 0x0103070f1f3f7fff#64) ||| (r.setWidth 64 <<< 61)).toNat)
  let msbytes := (chance.msRandom &&& 0x000007ffffffffffffffffffffffffff#128) |||
    ((pfx &&& 0xfffff800#32).setWidth 128 <<< 96)
  let lsbytes := (chance.lsRandom &&& 0xfffffff8#32) ||| (r &&& 0x07#8).setWidth 32
  new msbytes lsbytes

/-- The source draws one byte for the seed. -/
def fromIp (crypto : Crypto) (chance : Chance) (addr : IpAddr) (random : BitVec 8) : U160 :=
  fromIpWithR crypto chance addr (random &&& 0x07#8)

def validate (crypto : Crypto) (chance : Chance) (self : U160) (addr : IpAddr) : Bool :=
  let r := self.lsbytes.setWidth 8 &&& 0x07#8
  let test := fromIpWithR crypto chance addr r
  let filter := new 0xfffff800000000000000000000000000#128 0x00000007#32
  self.and filter == test.and filter

end U160

def NodeInfo.validate (crypto : Crypto) (chance : Chance) (self : NodeInfo) : Bool :=
  self.id.validate crypto chance self.addr.ip

/-! ## Tokens -/

def TOKEN_VALID_SECONDS : UInt64 := 120

def u64ToBeBytes (word : UInt64) : Bytes := BigEndian.encode 8 word.toNat

def u64FromBeBytes (bytes : Bytes) : UInt64 := UInt64.ofNat (BigEndian.decode (bytes.take 8))

def u32ToBeBytes (word : BitVec 32) : Bytes := BigEndian.encode 4 word.toNat

structure TokenGenerator where
  key : Bytes

namespace TokenGenerator

/-- `apply_keystream` of a fresh cipher. -/
def applyKeystream (crypto : Crypto) (self : TokenGenerator) (nonce bytes : Bytes) : Bytes :=
  bytes.mapIdx fun position byte => byte ^^^ crypto.keystream self.key nonce position

def generate (crypto : Crypto) (chance : Chance) (self : TokenGenerator) (ip : IpAddr) : Bytes :=
  let randBytes := u64ToBeBytes chance.randBytes
  let timestamp := u64ToBeBytes chance.now
  let iphash := u32ToBeBytes (crypto.crc32c (ip.octets ++ timestamp ++ randBytes))
  let nonce := iphash ++ randBytes
  nonce ++ self.applyKeystream crypto nonce timestamp

def validate (crypto : Crypto) (chance : Chance) (self : TokenGenerator) (token : Bytes) (ip : IpAddr) : Bool :=
  if token.length ≠ 20 then false
  else
    let nonce := token.take 12
    let timestamp := self.applyKeystream crypto nonce (token.drop 12)
    let tokenTimestamp := u64FromBeBytes timestamp
    let randBytes := nonce.drop 4
    let iphash := u32ToBeBytes (crypto.crc32c (ip.octets ++ timestamp ++ randBytes))
    iphash == nonce.take 4 && decide (tokenTimestamp ≤ chance.now) &&
      decide (chance.now < tokenTimestamp + TOKEN_VALID_SECONDS)

end TokenGenerator
end DhtExplorer
