import DhtExplorer.AddressBinding
import DhtExplorer.Library.ChaCha20
import DhtExplorer.Library.Crc32c

namespace DhtExplorer

open BigEndian (Bytes)

/-!
# Tokens

A token carries a checksum of the address, the time and some random bytes, then
the random bytes, and last the time, encrypted.  Validation decrypts the time and
computes the checksum again, so a token is good for one address and two minutes.

The end of the two minutes is computed by an addition that may overflow.  It is
reached only with times that are not in the future.
-/

/-- The checksum and the cipher that the program uses. -/
def Crypto.standard : Crypto := ⟨Crc32c.crc32c, ChaCha20.keystream⟩

def checkedAdd (first second : UInt64) : Option UInt64 :=
  if first.toNat + second.toNat < 2 ^ 64 then some (first + second) else none

namespace TokenGenerator

/-- `validate` where additions are checked: nothing is returned on an overflow. -/
def validateChecked (crypto : Crypto) (chance : Chance) (self : TokenGenerator) (token : Bytes) (ip : IpAddr) :
    Option Bool :=
  if token.length ≠ 20 then some false
  else
    let nonce := token.take 12
    let timestamp := self.applyKeystream crypto nonce (token.drop 12)
    let tokenTimestamp := u64FromBeBytes timestamp
    let randBytes := nonce.drop 4
    let iphash := u32ToBeBytes (crypto.crc32c (ip.octets ++ timestamp ++ randBytes))
    if iphash == nonce.take 4 then
      if tokenTimestamp ≤ chance.now then
        (checkedAdd tokenTimestamp TOKEN_VALID_SECONDS).map fun validUntil => decide (chance.now < validUntil)
      else some false
    else some false

/-! ## The parts of a token -/

theorem length_applyKeystream (crypto : Crypto) (self : TokenGenerator) (nonce bytes : Bytes) :
    (self.applyKeystream crypto nonce bytes).length = bytes.length := List.length_mapIdx

/-- Encrypting twice gives the bytes back. -/
theorem applyKeystream_applyKeystream (crypto : Crypto) (self : TokenGenerator) (nonce bytes : Bytes) :
    self.applyKeystream crypto nonce (self.applyKeystream crypto nonce bytes) = bytes := by
  apply List.ext_getElem?
  intro position
  rw [applyKeystream, applyKeystream, List.getElem?_mapIdx, List.getElem?_mapIdx]
  cases bytes[position]? with
  | none => rfl
  | some byte =>
      change some (byte ^^^ crypto.keystream self.key nonce position ^^^ crypto.keystream self.key nonce position) = _
      rw [UInt8.xor_assoc, UInt8.xor_self, UInt8.xor_zero]

theorem length_u64ToBeBytes (word : UInt64) : (u64ToBeBytes word).length = 8 := BigEndian.length_encode _ _

theorem u64FromBeBytes_toBeBytes (word : UInt64) : u64FromBeBytes (u64ToBeBytes word) = word := by
  rw [u64FromBeBytes, List.take_of_length_le (Nat.le_of_eq (length_u64ToBeBytes word)), u64ToBeBytes,
    BigEndian.decode_encode_of_lt word.toNat_lt, UInt64.ofNat_toNat]

theorem u32ToBeBytes_injective : Function.Injective u32ToBeBytes := by
  intro first second same
  have numbers := congrArg BigEndian.decode same
  rw [u32ToBeBytes, u32ToBeBytes, BigEndian.decode_encode_of_lt first.isLt,
    BigEndian.decode_encode_of_lt second.isLt] at numbers
  exact BitVec.eq_of_toNat_eq numbers

/-- A token is opened into what it was made of. -/
theorem validate_generate (crypto : Crypto) (issue check : Chance) (self : TokenGenerator) (ip other : IpAddr) :
    self.validate crypto check (self.generate crypto issue ip) other =
      (decide (crypto.crc32c (other.octets ++ u64ToBeBytes issue.now ++ u64ToBeBytes issue.randBytes) =
          crypto.crc32c (ip.octets ++ u64ToBeBytes issue.now ++ u64ToBeBytes issue.randBytes)) &&
        decide (issue.now ≤ check.now) && decide (check.now < issue.now + TOKEN_VALID_SECONDS)) := by
  have hashLength : forall hash, (u32ToBeBytes hash).length = 4 := fun hash => BigEndian.length_encode _ _
  have nonceLength : forall hash, (u32ToBeBytes hash ++ u64ToBeBytes issue.randBytes).length = 12 := by
    intro hash
    rw [List.length_append, hashLength, length_u64ToBeBytes]
  have tokenLength : (self.generate crypto issue ip).length = 20 := by
    rw [generate, List.length_append, nonceLength, length_applyKeystream, length_u64ToBeBytes]
  have hashes : forall first second : BitVec 32,
      (u32ToBeBytes first == u32ToBeBytes second) = decide (first = second) := by
    intro first second
    rw [beq_eq_decide]
    exact decide_eq_decide.mpr u32ToBeBytes_injective.eq_iff
  rw [validate, if_neg (not_not.mpr tokenLength)]
  dsimp only
  rw [generate, List.take_left' (nonceLength _), List.drop_left' (nonceLength _), applyKeystream_applyKeystream,
    List.drop_left' (hashLength _), List.take_left' (hashLength _), u64FromBeBytes_toBeBytes, hashes]

/-! ## The two minutes -/

theorem checkedAdd_eq_some {first second : UInt64} (fits : first.toNat + second.toNat < 2 ^ 64) :
    checkedAdd first second = some (first + second) := if_pos fits

/-- Times that are not in the future do not overflow, long before the clock does. -/
theorem validateChecked_eq (crypto : Crypto) {chance : Chance} (before : chance.now.toNat ≤ 2 ^ 64 - 1 - 120)
    (self : TokenGenerator) (token : Bytes) (ip : IpAddr) :
    self.validateChecked crypto chance token ip = some (self.validate crypto chance token ip) := by
  rw [validateChecked, validate]
  by_cases length : token.length ≠ 20
  · rw [if_pos length, if_pos length]
  · rw [if_neg length, if_neg length]
    dsimp only
    generalize (u32ToBeBytes _ == _) = bound
    generalize u64FromBeBytes _ = tokenTimestamp
    cases bound with
    | false => rfl
    | true =>
        rw [if_pos rfl, Bool.true_and]
        by_cases past : tokenTimestamp ≤ chance.now
        · have order : tokenTimestamp.toNat ≤ chance.now.toNat := UInt64.le_iff_toNat_le.mp past
          have seconds : TOKEN_VALID_SECONDS.toNat = 120 := rfl
          have fits : tokenTimestamp.toNat + TOKEN_VALID_SECONDS.toNat < 2 ^ 64 := by omega
          rw [if_pos past, checkedAdd_eq_some fits, decide_eq_true past]
          rfl
        · rw [if_neg past, decide_eq_false past]
          rfl

/-- A token is accepted for its own address from the second it is made in, for two
minutes.  No token makes the check overflow. -/
theorem token_window (crypto : Crypto) {issue check : Chance} (before : check.now.toNat ≤ 2 ^ 64 - 1 - 120)
    (self : TokenGenerator) (ip : IpAddr) :
    (self.validate crypto check (self.generate crypto issue ip) ip = true <->
      issue.now.toNat ≤ check.now.toNat ∧ check.now.toNat < issue.now.toNat + 120) ∧
    forall token other,
      self.validateChecked crypto check token other = some (self.validate crypto check token other) := by
  constructor
  · rw [validate_generate, decide_eq_true rfl, Bool.true_and, Bool.and_eq_true, decide_eq_true_iff, decide_eq_true_iff,
      UInt64.le_iff_toNat_le, UInt64.lt_iff_toNat_lt, UInt64.toNat_add]
    have seconds : TOKEN_VALID_SECONDS.toNat = 120 := rfl
    omega
  · intro token other
    exact validateChecked_eq crypto before self token other

/-- A second with fixed draws. -/
def atSecond (now : UInt64) : Chance := ⟨now, 7, 0, 0, .reservoir fun _ => 0⟩

/-- A token for the address of the source's test, a minute later. -/
theorem token_window_minute :
    (mk (List.replicate 32 0)).validate .standard (atSecond 1060)
        ((mk (List.replicate 32 0)).generate .standard (atSecond 1000) (.v4 0x7f000001)) (.v4 0x7f000001) = true ∧
      (mk (List.replicate 32 0)).validateChecked .standard (atSecond 1060) (List.replicate 20 7) (.v4 0x7f000001) =
        some ((mk (List.replicate 32 0)).validate .standard (atSecond 1060) (List.replicate 20 7) (.v4 0x7f000001)) := by
  have window := @token_window .standard (atSecond 1000) (atSecond 1060) (by decide) (mk (List.replicate 32 0))
    (.v4 0x7f000001)
  exact ⟨window.1.mpr (by decide), window.2 _ _⟩

/-! ## The address -/

/-- A token for one IPv4 address is refused for every other one. -/
theorem token_binding (keystream : Bytes -> Bytes -> Nat -> UInt8) (issue check : Chance) (self : TokenGenerator)
    {first second : BitVec 32} (different : first ≠ second) :
    self.validate ⟨Crc32c.crc32c, keystream⟩ check (self.generate ⟨Crc32c.crc32c, keystream⟩ issue (.v4 first))
      (.v4 second) = false := by
  have apart : Crc32c.crc32c ((IpAddr.v4 second).octets ++ u64ToBeBytes issue.now ++ u64ToBeBytes issue.randBytes) ≠
      Crc32c.crc32c ((IpAddr.v4 first).octets ++ u64ToBeBytes issue.now ++ u64ToBeBytes issue.randBytes) := by
    intro same
    rw [List.append_assoc, List.append_assoc] at same
    have octets : (IpAddr.v4 second).octets = (IpAddr.v4 first).octets :=
      Crc32c.crc32c_append_injective (Nat.le_of_eq (BigEndian.length_encode _ _))
        ((BigEndian.length_encode _ _).trans (BigEndian.length_encode _ _).symm) _ same
    exact different (u32ToBeBytes_injective octets).symm
  rw [validate_generate, decide_eq_false apart, Bool.false_and, Bool.false_and]

/-- The addresses of the source's test. -/
theorem token_binding_loopback :
    (mk (List.replicate 32 0)).validate .standard (atSecond 1060)
      ((mk (List.replicate 32 0)).generate .standard (atSecond 1000) (.v4 0x7f000001)) (.v4 0x7f000002) = false :=
  token_binding ChaCha20.keystream (atSecond 1000) (atSecond 1060) (mk (List.replicate 32 0)) (by decide)

end TokenGenerator
end DhtExplorer
