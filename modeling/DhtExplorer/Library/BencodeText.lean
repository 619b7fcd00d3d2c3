import Mathlib.Data.Nat.Digits.Lemmas
import DhtExplorer.Library.Bencode

/-!
# The bencode text form

A writer and a reader for bencode text, and the proof that the reader inverts
the writer on every value.  Numbers are decimal.  The reader takes a bound on
the nesting and the number of items; the length of the input is always enough.
-/

namespace Bencode

open BigEndian (Bytes)

/-! ## Decimal numbers -/

def decimal (number : Nat) : Bytes :=
  (if number = 0 then [0] else (Nat.digits 10 number).reverse).map fun digit => UInt8.ofNat (48 + digit)

def isDigit (byte : UInt8) : Bool := decide (48 ≤ byte.toNat) && decide (byte.toNat ≤ 57)

def digitsValue (text : Bytes) : Nat :=
  Nat.ofDigits 10 (text.map fun byte => byte.toNat - 48).reverse

/-- The leading decimal number of a text, and the rest of the text. -/
def readDecimal (text : Bytes) : Option (Nat × Bytes) :=
  let digits := text.takeWhile isDigit
  if digits = [] then none else some (digitsValue digits, text.drop digits.length)

private theorem digit_lt {number digit : Nat}
    (member : digit ∈ if number = 0 then [0] else (Nat.digits 10 number).reverse) : digit < 10 := by
  by_cases zero : number = 0
  · rw [if_pos zero, List.mem_singleton] at member
    omega
  · rw [if_neg zero, List.mem_reverse] at member
    exact Nat.digits_lt_base (by decide) member

private theorem toNat_digit {digit : Nat} (small : digit < 10) : (UInt8.ofNat (48 + digit)).toNat = 48 + digit :=
  UInt8.toNat_ofNat_of_lt' (by rw [UInt8.size]; omega)

theorem isDigit_of_mem_decimal {number : Nat} {byte : UInt8} (member : byte ∈ decimal number) :
    isDigit byte = true := by
  rcases List.mem_map.mp member with ⟨digit, digitMember, rfl⟩
  have small := digit_lt digitMember
  rw [isDigit, toNat_digit small, Bool.and_eq_true, decide_eq_true_iff, decide_eq_true_iff]
  omega

theorem decimal_ne_nil (number : Nat) : decimal number ≠ [] := by
  intro empty
  rw [decimal, List.map_eq_nil_iff] at empty
  by_cases zero : number = 0
  · rw [if_pos zero] at empty
    cases empty
  · rw [if_neg zero, List.reverse_eq_nil_iff] at empty
    exact Nat.digits_ne_nil_iff_ne_zero.mpr zero empty

theorem digitsValue_decimal (number : Nat) : digitsValue (decimal number) = number := by
  have back : (decimal number).map (fun byte => byte.toNat - 48) =
      if number = 0 then [0] else (Nat.digits 10 number).reverse := by
    rw [decimal, List.map_map]
    conv_rhs => rw [← List.map_id (if number = 0 then [0] else (Nat.digits 10 number).reverse)]
    apply List.map_congr_left
    intro digit member
    change (UInt8.ofNat (48 + digit)).toNat - 48 = digit
    rw [toNat_digit (digit_lt member), Nat.add_sub_cancel_left]
  rw [digitsValue, back]
  by_cases zero : number = 0
  · rw [if_pos zero, zero]
    rfl
  · rw [if_neg zero, List.reverse_reverse, Nat.ofDigits_digits]

/-- Nothing that follows a number continues it. -/
def Stops (rest : Bytes) : Prop := forall byte, rest.head? = some byte -> isDigit byte = false

theorem readDecimal_append (number : Nat) {rest : Bytes} (stops : Stops rest) :
    readDecimal (decimal number ++ rest) = some (number, rest) := by
  have taken : (decimal number ++ rest).takeWhile isDigit = decimal number := by
    rw [List.takeWhile_append_of_pos fun byte member => isDigit_of_mem_decimal member]
    cases rest with
    | nil => rw [List.takeWhile_nil, List.append_nil]
    | cons byte rest =>
        rw [List.takeWhile_cons_of_neg (by rw [stops byte rfl]; exact Bool.false_ne_true), List.append_nil]
  simp only [readDecimal, taken, decimal_ne_nil, if_false, digitsValue_decimal, List.drop_left]

/-! ## Writing -/

/-- Minus sign, colon, and the four letters of the format. -/
def minus : UInt8 := 45
def colon : UInt8 := 58
def letterI : UInt8 := 105
def letterL : UInt8 := 108
def letterD : UInt8 := 100
def letterE : UInt8 := 101

def encodeInt : Int -> Bytes
  | .ofNat number => decimal number
  | .negSucc number => minus :: decimal (number + 1)

def encodeBytes (text : Bytes) : Bytes := decimal text.length ++ colon :: text

mutual

def encode : Value -> Bytes
  | .int number => letterI :: (encodeInt number ++ [letterE])
  | .bytes text => encodeBytes text
  | .list items => letterL :: (encodeItems items ++ [letterE])
  | .dict entries => letterD :: (encodeEntries entries ++ [letterE])

def encodeItems : List Value -> Bytes
  | [] => []
  | item :: rest => encode item ++ encodeItems rest

def encodeEntries : List (Bytes × Value) -> Bytes
  | [] => []
  | (key, value) :: rest => encodeBytes key ++ (encode value ++ encodeEntries rest)

end

/-! ## Reading -/

def parseInt (text : Bytes) : Option (Int × Bytes) :=
  match text with
  | [] => none
  | first :: rest =>
      if first = minus then (readDecimal rest).map fun (number, rest) => (-(number : Int), rest)
      else (readDecimal (first :: rest)).map fun (number, rest) => ((number : Int), rest)

def parseBytes (text : Bytes) : Option (Bytes × Bytes) :=
  (readDecimal text).bind fun (length, rest) =>
    match rest with
    | [] => none
    | first :: rest =>
        if first = colon && decide (length ≤ rest.length) then some (rest.take length, rest.drop length)
        else none

/-- Skip the letter that closes a value. -/
def close {α : Type} (read : Option (α × Bytes)) : Option (α × Bytes) :=
  read.bind fun (value, rest) =>
    match rest with
    | [] => none
    | first :: rest => if first = letterE then some (value, rest) else none

mutual

def parse : Nat -> Bytes -> Option (Value × Bytes)
  | 0, _ => none
  | _ + 1, [] => none
  | bound + 1, first :: rest =>
      if first = letterI then close ((parseInt rest).map fun (number, rest) => (.int number, rest))
      else if first = letterL then close ((parseItems bound rest).map fun (items, rest) => (.list items, rest))
      else if first = letterD then
        close ((parseEntries bound rest).map fun (entries, rest) => (.dict entries, rest))
      else (parseBytes (first :: rest)).map fun (text, rest) => (.bytes text, rest)

/-- Items up to a closing letter, which is left in place. -/
def parseItems : Nat -> Bytes -> Option (List Value × Bytes)
  | 0, _ => none
  | bound + 1, text =>
      if text.head? = some letterE then some ([], text)
      else
        (parse bound text).bind fun (item, rest) =>
          (parseItems bound rest).map fun (items, rest) => (item :: items, rest)

def parseEntries : Nat -> Bytes -> Option (List (Bytes × Value) × Bytes)
  | 0, _ => none
  | bound + 1, text =>
      if text.head? = some letterE then some ([], text)
      else
        (parseBytes text).bind fun (key, rest) =>
          (parse bound rest).bind fun (value, rest) =>
            (parseEntries bound rest).map fun (entries, rest) => ((key, value) :: entries, rest)

end

def decode (text : Bytes) : Option Value :=
  match parse text.length text with
  | some (value, []) => some value
  | _ => none

/-! ## The reader inverts the writer -/

private theorem letter_not_digit : isDigit letterE = false := by decide

/-- A decimal number starts with a digit, so with none of the other letters. -/
private theorem decimal_cons (number : Nat) :
    Exists fun first => Exists fun digits => decimal number = first :: digits ∧ isDigit first = true := by
  cases split : decimal number with
  | nil => exact absurd split (decimal_ne_nil number)
  | cons first digits =>
      have member : first ∈ decimal number := split ▸ List.mem_cons_self
      exact ⟨first, digits, rfl, isDigit_of_mem_decimal member⟩

theorem stops_cons {byte : UInt8} {rest : Bytes} (notDigit : isDigit byte = false) :
    Stops (byte :: rest) := by
  intro first head
  cases head
  exact notDigit

theorem parseInt_encodeInt (number : Int) {rest : Bytes} (stops : Stops rest) :
    parseInt (encodeInt number ++ rest) = some (number, rest) := by
  cases number with
  | ofNat number =>
      rcases decimal_cons number with ⟨first, digits, split, digit⟩
      have read := readDecimal_append number stops
      have notMinus : first ≠ minus := by
        rintro rfl
        exact absurd digit (by decide)
      rw [split, List.cons_append] at read
      rw [encodeInt, split, List.cons_append, parseInt, if_neg notMinus, read]
      rfl
  | negSucc number =>
      rw [encodeInt, List.cons_append, parseInt, if_pos rfl, readDecimal_append (number + 1) stops]
      rfl

theorem parseBytes_encodeBytes (text rest : Bytes) :
    parseBytes (encodeBytes text ++ rest) = some (text, rest) := by
  have stops : Stops (colon :: (text ++ rest)) := stops_cons (by decide)
  rw [encodeBytes, List.append_assoc, List.cons_append, parseBytes, readDecimal_append text.length stops]
  simp only [Option.bind_some, List.length_append, Nat.le_add_right, decide_true, Bool.and_true,
    if_true, List.take_left, List.drop_left]

/-- A written value starts with one of three letters or with a digit. -/
theorem encode_cons (value : Value) :
    Exists fun first => Exists fun rest => encode value = first :: rest ∧ first ≠ letterE := by
  cases value with
  | int number => exact ⟨letterI, _, rfl, by decide⟩
  | bytes text =>
      rcases decimal_cons text.length with ⟨first, digits, split, digit⟩
      refine ⟨first, digits ++ colon :: text, ?_, ?_⟩
      · rw [encode, encodeBytes, split, List.cons_append]
      · rintro rfl
        exact absurd digit (by decide)
  | list items => exact ⟨letterL, _, rfl, by decide⟩
  | dict entries => exact ⟨letterD, _, rfl, by decide⟩

theorem encodeBytes_cons (text : Bytes) :
    Exists fun first => Exists fun rest => encodeBytes text = first :: rest ∧ isDigit first = true := by
  rcases decimal_cons text.length with ⟨first, digits, split, digit⟩
  exact ⟨first, digits ++ colon :: text, by rw [encodeBytes, split, List.cons_append], digit⟩

private theorem close_closed {α : Type} (value : α) (rest : Bytes) :
    close (some (value, letterE :: rest)) = some (value, rest) := by
  rw [close, Option.bind_some]
  exact if_pos rfl

private theorem parse_bytes (text rest : Bytes) (bound : Nat) :
    parse (bound + 1) (encodeBytes text ++ rest) = some (.bytes text, rest) := by
  have read := parseBytes_encodeBytes text rest
  rcases encodeBytes_cons text with ⟨first, tail, split, digit⟩
  have notLetter : forall letter, isDigit letter = false -> first ≠ letter := by
    rintro letter notDigit rfl
    rw [digit] at notDigit
    cases notDigit
  rw [split, List.cons_append] at read ⊢
  rw [parse, if_neg (notLetter letterI (by decide)), if_neg (notLetter letterL (by decide)),
    if_neg (notLetter letterD (by decide)), read]
  rfl

/-! The recursion follows the value, with one case for each kind of value, item
list and entry list.  The bound pays one for every letter and every item. -/

mutual

theorem parse_encode (value : Value) (bound : Nat) (rest : Bytes) (enough : (encode value).length ≤ bound) :
    parse bound (encode value ++ rest) = some (value, rest) := by
  cases bound with
  | zero =>
      rcases encode_cons value with ⟨first, tail, split, _⟩
      rw [split] at enough
      exact absurd enough (Nat.not_succ_le_zero _)
  | succ bound =>
      match value with
      | .int number =>
          have read := parseInt_encodeInt number (stops_cons letter_not_digit : Stops (letterE :: rest))
          rw [encode, List.cons_append, List.append_assoc, List.singleton_append, parse, if_pos rfl, read]
          exact close_closed _ _
      | .bytes text => exact parse_bytes text rest bound
      | .list items =>
          rw [encode, List.length_cons, List.length_append, List.length_singleton] at enough
          have read := parseItems_encodeItems items bound (letterE :: rest) (by omega) rfl
          rw [encode, List.cons_append, List.append_assoc, List.singleton_append, parse,
            if_neg (by decide), if_pos rfl, read]
          exact close_closed _ _
      | .dict entries =>
          rw [encode, List.length_cons, List.length_append, List.length_singleton] at enough
          have read := parseEntries_encodeEntries entries bound (letterE :: rest) (by omega) rfl
          rw [encode, List.cons_append, List.append_assoc, List.singleton_append, parse,
            if_neg (by decide), if_neg (by decide), if_pos rfl, read]
          exact close_closed _ _

theorem parseItems_encodeItems (items : List Value) (bound : Nat) (rest : Bytes)
    (enough : (encodeItems items).length < bound) (closed : rest.head? = some letterE) :
    parseItems bound (encodeItems items ++ rest) = some (items, rest) := by
  cases bound with
  | zero => exact absurd enough (Nat.not_lt_zero _)
  | succ bound =>
      match items with
      | [] => rw [encodeItems, List.nil_append, parseItems, if_pos closed]
      | item :: items =>
          rw [encodeItems, List.length_append] at enough
          have first := parse_encode item bound (encodeItems items ++ rest) (by omega)
          rcases encode_cons item with ⟨letter, tail, split, notEnd⟩
          have positive : 0 < (encode item).length := by
            rw [split]
            exact Nat.succ_pos _
          have others := parseItems_encodeItems items bound rest (by omega) closed
          rw [encodeItems, List.append_assoc, parseItems, if_neg]
          · simp only [first, Option.bind_some, others, Option.map_some]
          · rw [split]
            exact fun same => notEnd (Option.some.inj same)

theorem parseEntries_encodeEntries (entries : List (Bytes × Value)) (bound : Nat) (rest : Bytes)
    (enough : (encodeEntries entries).length < bound) (closed : rest.head? = some letterE) :
    parseEntries bound (encodeEntries entries ++ rest) = some (entries, rest) := by
  cases bound with
  | zero => exact absurd enough (Nat.not_lt_zero _)
  | succ bound =>
      match entries with
      | [] => rw [encodeEntries, List.nil_append, parseEntries, if_pos closed]
      | (key, value) :: entries =>
          rw [encodeEntries, List.length_append, List.length_append] at enough
          have name := parseBytes_encodeBytes key (encode value ++ (encodeEntries entries ++ rest))
          have first := parse_encode value bound (encodeEntries entries ++ rest) (by omega)
          rcases encodeBytes_cons key with ⟨letter, tail, split, digit⟩
          have positive : 0 < (encodeBytes key).length := by
            rw [split]
            exact Nat.succ_pos _
          have others := parseEntries_encodeEntries entries bound rest (by omega) closed
          rw [encodeEntries, List.append_assoc, List.append_assoc, parseEntries, if_neg]
          · simp only [name, first, Option.bind_some, others, Option.map_some]
          · rw [split]
            intro same
            rw [Option.some.inj same, letter_not_digit] at digit
            cases digit

end

theorem decode_encode (value : Value) : decode (encode value) = some value := by
  have parsed := parse_encode value (encode value).length [] (Nat.le_refl _)
  rw [List.append_nil] at parsed
  rw [decode, parsed]

/-- The text form as a codec.  A stray value is handed over as its text. -/
def textCodec : Codec where
  toVec := encode
  fromSlice := decode
  stray := fun _ _ value => some (encode value)
  faithful := fun value _ => decode_encode value

end Bencode
