import Mathlib.Data.BitVec
import DhtExplorer.Library.BigEndian

/-!
# The ChaCha20 key stream

The state has sixteen words: four constants, the key, a block counter and the nonce.
A block of the stream is the state after twenty rounds, added to the state before
them.  Words are written least significant byte first.
-/

namespace ChaCha20

open BigEndian (Bytes)

abbrev State := List (BitVec 32)

def word (state : State) (index : Nat) : BitVec 32 := state.getD index 0

/-- Add one word to another, and turn a third one by the sum. -/
def mix (state : State) (sum addend turned : Nat) (count : Nat) : State :=
  let total := word state sum + word state addend
  (state.set sum total).set turned ((word state turned ^^^ total).rotateLeft count)

def quarterRound (state : State) (a b c d : Nat) : State :=
  let state := mix state a b d 16
  let state := mix state c d b 12
  let state := mix state a b d 8
  mix state c d b 7

def doubleRound (state : State) : State :=
  let state := quarterRound state 0 4 8 12
  let state := quarterRound state 1 5 9 13
  let state := quarterRound state 2 6 10 14
  let state := quarterRound state 3 7 11 15
  let state := quarterRound state 0 5 10 15
  let state := quarterRound state 1 6 11 12
  let state := quarterRound state 2 7 8 13
  quarterRound state 3 4 9 14

/-- A word of a byte string, least significant byte first. -/
def littleEndianWord (bytes : Bytes) (index : Nat) : BitVec 32 :=
  BitVec.ofNat 32 (BigEndian.decode ((bytes.drop (4 * index)).take 4).reverse)

def constants : State := [0x61707865, 0x3320646e, 0x79622d32, 0x6b206574]

def initial (key nonce : Bytes) (counter : Nat) : State :=
  constants ++ (List.range 8).map (littleEndianWord key) ++ [BitVec.ofNat 32 counter] ++
    (List.range 3).map (littleEndianWord nonce)

def block (key nonce : Bytes) (counter : Nat) : Bytes :=
  let before := initial key nonce counter
  let after := Nat.iterate doubleRound 10 before
  (List.zipWith (· + ·) after before).flatMap fun word => (BigEndian.encode 4 word.toNat).reverse

/-- The byte of the stream at a position. -/
def keystream (key nonce : Bytes) (position : Nat) : UInt8 :=
  (block key nonce (position / 64)).getD (position % 64) 0

/-- The stream of the zero key and the zero nonce. -/
example : (block (List.replicate 32 0) (List.replicate 12 0) 0).take 8 =
    [0x76, 0xb8, 0xe0, 0xad, 0xa0, 0xf1, 0x3d, 0x90] := by
  decide +kernel

end ChaCha20
