import DhtExplorer.AddressBinding
import DhtExplorer.Library.Crc32c
import DhtExplorer.Library.Words

namespace DhtExplorer

open BigEndian (Bytes)
open Words (toNat_and_high toNat_and_low or_eq_add)

/-!
# Ids that belong to an address

The first twenty-one bits of a valid id are those of a checksum of its address, and
the last three bits are a seed of that checksum.  The bits in between are random.
Validation makes another id with the same seed and compares what is not random.
-/

namespace U160

/-! ## The id for an address -/

/-- The bytes of the masked address with the seed in their first three bits. -/
def seededBytes : IpAddr -> Nat -> Bytes
  | .v4 ip, seed => BigEndian.encode 4 (seed * 2 ^ 29 + (ip.toNat &&& 0x030f3fff))
  | .v6 ip, seed => BigEndian.encode 8 (seed * 2 ^ 61 + (ip.toNat / 2 ^ 64 &&& 0x0103070f1f3f7fff))

/-- The seed is put above the bits of a masked word. -/
theorem toNat_seeded {width low : Nat} {masked : BitVec width} {r : BitVec 8} (small : masked.toNat < 2 ^ low)
    (seed : r.toNat < 8) (fits : low + 3 ≤ width) :
    (masked ||| (r.setWidth width <<< low)).toNat = r.toNat * 2 ^ low + masked.toNat := by
  have room : 2 ^ (low + 3) ≤ 2 ^ width := Nat.pow_le_pow_right (by decide) fits
  have placed : r.toNat * 2 ^ low < 2 ^ width := by
    calc
      r.toNat * 2 ^ low < 2 ^ 3 * 2 ^ low := Nat.mul_lt_mul_of_pos_right seed (Nat.two_pow_pos low)
      _ = 2 ^ (low + 3) := by rw [Nat.pow_add, Nat.mul_comm]
      _ ≤ 2 ^ width := room
  have kept : r.toNat < 2 ^ width := Nat.lt_of_le_of_lt (Nat.le_mul_of_pos_right _ (Nat.two_pow_pos low)) placed
  rw [BitVec.toNat_or, BitVec.toNat_shiftLeft, BitVec.toNat_setWidth, Nat.mod_eq_of_lt kept, Nat.shiftLeft_eq,
    Nat.mod_eq_of_lt placed, Nat.or_comm, or_eq_add small]

theorem seededBytes_v4 (ip : BitVec 32) {r : BitVec 8} (seed : r.toNat < 8) :
    BigEndian.encode 4 ((ip &&& 0x030f3fff#32) ||| (r.setWidth 32 <<< 29)).toNat = seededBytes (.v4 ip) r.toNat := by
  have masked : (ip &&& 0x030f3fff#32).toNat < 2 ^ 29 := Nat.lt_of_le_of_lt Nat.and_le_right (by decide)
  rw [toNat_seeded masked seed (by decide)]
  rfl

theorem seededBytes_v6 (ip : BitVec 128) {r : BitVec 8} (seed : r.toNat < 8) :
    BigEndian.encode 8 (((ip >>> 64).setWidth 64 &&& 0x0103070f1f3f7fff#64) ||| (r.setWidth 64 <<< 61)).toNat =
      seededBytes (.v6 ip) r.toNat := by
  have upper : ((ip >>> 64).setWidth 64).toNat = ip.toNat / 2 ^ 64 := by
    have bound := ip.isLt
    rw [BitVec.toNat_setWidth, BitVec.toNat_ushiftRight, Nat.shiftRight_eq_div_pow]
    omega
  have masked : ((ip >>> 64).setWidth 64 &&& 0x0103070f1f3f7fff#64).toNat < 2 ^ 61 :=
    Nat.lt_of_le_of_lt Nat.and_le_right (by decide)
  rw [toNat_seeded masked seed (by decide), BitVec.toNat_and, upper]
  rfl

/-- The words of the id made from a checksum. -/
def idOfHash (pfx : BitVec 32) (chance : Chance) (r : BitVec 8) : U160 :=
  new ((chance.msRandom &&& 0x000007ffffffffffffffffffffffffff#128) ||| ((pfx &&& 0xfffff800#32).setWidth 128 <<< 96))
    ((chance.lsRandom &&& 0xfffffff8#32) ||| (r &&& 0x07#8).setWidth 32)

theorem fromIpWithR_eq (crypto : Crypto) (chance : Chance) (addr : IpAddr) {r : BitVec 8} (seed : r.toNat < 8) :
    fromIpWithR crypto chance addr r = idOfHash (crypto.crc32c (seededBytes addr r.toNat)) chance r := by
  cases addr with
  | v4 ip => rw [<- seededBytes_v4 ip seed]; rfl
  | v6 ip => rw [<- seededBytes_v6 ip seed]; rfl

theorem toNat_idOfHash (pfx : BitVec 32) (chance : Chance) {r : BitVec 8} (seed : r.toNat < 8) :
    (idOfHash pfx chance r).toNat =
      (pfx.toNat / 2 ^ 11 * 2 ^ 107 + chance.msRandom.toNat % 2 ^ 107) * 2 ^ 32 +
        (chance.lsRandom.toNat / 2 ^ 3 * 2 ^ 3 + r.toNat) := by
  have highWord : ((chance.msRandom &&& 0x000007ffffffffffffffffffffffffff#128) |||
      ((pfx &&& 0xfffff800#32).setWidth 128 <<< 96)).toNat =
        pfx.toNat / 2 ^ 11 * 2 ^ 107 + chance.msRandom.toNat % 2 ^ 107 := by
    have random : (chance.msRandom &&& 0x000007ffffffffffffffffffffffffff#128).toNat =
        chance.msRandom.toNat % 2 ^ 107 := toNat_and_low _ _ 107 rfl
    have rounded : (pfx &&& 0xfffff800#32).toNat = pfx.toNat / 2 ^ 11 * 2 ^ 11 := toNat_and_high pfx 11
    have placed : ((pfx &&& 0xfffff800#32).setWidth 128 <<< 96).toNat = pfx.toNat / 2 ^ 11 * 2 ^ 107 := by
      have bound := pfx.isLt
      rw [BitVec.toNat_shiftLeft, BitVec.toNat_setWidth, rounded, Nat.shiftLeft_eq]
      omega
    rw [BitVec.toNat_or, random, placed, Nat.or_comm, or_eq_add (Nat.mod_lt _ (by decide))]
  have lowWord : ((chance.lsRandom &&& 0xfffffff8#32) ||| (r &&& 0x07#8).setWidth 32).toNat =
      chance.lsRandom.toNat / 2 ^ 3 * 2 ^ 3 + r.toNat := by
    have rounded : (chance.lsRandom &&& 0xfffffff8#32).toNat = chance.lsRandom.toNat / 2 ^ 3 * 2 ^ 3 :=
      toNat_and_high chance.lsRandom 3
    have seedBits : (r &&& 0x07#8).toNat = r.toNat % 2 ^ 3 := toNat_and_low _ _ 3 rfl
    have kept : ((r &&& 0x07#8).setWidth 32).toNat = r.toNat := by
      rw [BitVec.toNat_setWidth, seedBits]
      omega
    rw [BitVec.toNat_or, rounded, kept, or_eq_add seed]
  rw [<- highWord, <- lowWord]
  rfl

/-! ## Validation -/

theorem toNat_div (self : U160) : self.toNat / 2 ^ 139 = self.msbytes.toNat / 2 ^ 107 := by
  have low := self.lsbytes.isLt
  rw [toNat]
  omega

theorem toNat_mod (self : U160) : self.toNat % 2 ^ 3 = self.lsbytes.toNat % 2 ^ 3 := by
  rw [toNat]
  omega

/-- The filter passes the first twenty-one bits and the last three. -/
theorem and_filter_eq_iff (first second : U160) :
    first.and (new 0xfffff800000000000000000000000000#128 0x00000007#32) =
        second.and (new 0xfffff800000000000000000000000000#128 0x00000007#32) <->
      first.toNat / 2 ^ 139 = second.toNat / 2 ^ 139 ∧ first.toNat % 2 ^ 3 = second.toNat % 2 ^ 3 := by
  have highBits : forall word : BitVec 128, (word &&& 0xfffff800000000000000000000000000#128).toNat =
      word.toNat / 2 ^ 107 * 2 ^ 107 := fun word => toNat_and_high word 107
  have lowBits : forall word : BitVec 32, (word &&& 0x00000007#32).toNat = word.toNat % 2 ^ 3 :=
    fun word => toNat_and_low word _ 3 rfl
  have positive : 0 < 2 ^ 107 := by decide
  rw [toNat_div, toNat_div, toNat_mod, toNat_mod, and, and, new, new, new, U160.mk.injEq, <- BitVec.toNat_inj,
    <- BitVec.toNat_inj, highBits, highBits, lowBits, lowBits, Nat.mul_left_inj (Nat.ne_of_gt positive)]

/-- The first bits of an id made for an address are those of the checksum, and the
last ones are its seed. -/
theorem idOfHash_bits (pfx : BitVec 32) (chance : Chance) {r : BitVec 8} (seed : r.toNat < 8) :
    (idOfHash pfx chance r).toNat / 2 ^ 139 = pfx.toNat / 2 ^ 11 ∧
      (idOfHash pfx chance r).toNat % 2 ^ 3 = r.toNat := by
  have bound := chance.lsRandom.isLt
  rw [toNat_idOfHash pfx chance seed]
  omega

/-- Whether an id belongs to an address is a matter of its first and last bits. -/
theorem validate_iff (crypto : Crypto) (chance : Chance) (self : U160) (addr : IpAddr) :
    self.validate crypto chance addr = true <->
      self.toNat / 2 ^ 139 = (crypto.crc32c (seededBytes addr (self.toNat % 2 ^ 3))).toNat / 2 ^ 11 := by
  have seedBits : (self.lsbytes.setWidth 8 &&& 0x07#8).toNat = self.toNat % 2 ^ 3 := by
    rw [toNat_and_low (self.lsbytes.setWidth 8) (0x07#8) 3 rfl, BitVec.toNat_setWidth, toNat_mod]
    omega
  have seed : (self.lsbytes.setWidth 8 &&& 0x07#8).toNat < 8 := by
    rw [seedBits]
    exact Nat.mod_lt _ (by decide)
  have test := idOfHash_bits (crypto.crc32c (seededBytes addr (self.toNat % 2 ^ 3))) chance seed
  rw [validate, beq_iff_eq, and_filter_eq_iff, fromIpWithR_eq crypto chance addr seed, seedBits, test.1, test.2,
    seedBits]
  exact and_iff_left rfl

/-- An id made for an address is valid for it, and validation compares the first
twenty-one bits with those of the checksum, whatever is drawn. -/
theorem valid_ids (crypto : Crypto) (addr : IpAddr) :
    (forall made checked random, (fromIp crypto made addr random).validate crypto checked addr = true) ∧
    forall (id : U160) (chance : Chance), id.validate crypto chance addr = true <->
      id.toNat / 2 ^ 139 = (crypto.crc32c (seededBytes addr (id.toNat % 2 ^ 3))).toNat / 2 ^ 11 := by
  constructor
  · intro made checked random
    have seed : (random &&& 0x07#8).toNat < 8 := by
      rw [toNat_and_low random (0x07#8) 3 rfl]
      exact Nat.mod_lt _ (by decide)
    have bits := idOfHash_bits (crypto.crc32c (seededBytes addr (random &&& 0x07#8).toNat)) made seed
    rw [validate_iff, fromIp, fromIpWithR_eq crypto made addr seed, bits.1, bits.2]
  · intro id chance
    exact validate_iff crypto chance id addr

/-- An id of the source's test. -/
example : (new 0x5fbfbff10c5d6a4ec8a88e4c6ab4c28b 0x95eee401).validate ⟨Crc32c.crc32c, fun _ _ _ => 0⟩
    ⟨0, 0, 0, 0, .reservoir fun _ => 0⟩ (.v4 0x7c1f4b15) = true := by
  decide +kernel

end U160
end DhtExplorer
