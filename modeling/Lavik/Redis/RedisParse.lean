import Mathlib.Algebra.Group.Int.Defs
import Mathlib.Algebra.Group.Nat.Defs
import Mathlib.Data.List.TakeWhile
import Lavik.Base.Status
/-!
# The text of a request

Arguments are byte strings. Numbers in them are read by `std::from_chars`, which takes the longest
run of digits, or by the stricter grammar of `ParseRedisInt64`. Whatever is accepted is the decimal
value of the whole token.
-/

namespace Lavik.Redis

abbrev Text := List UInt8

def text (literal : String) : Text := literal.toUTF8.data.toList

def lowered (byte : UInt8) : UInt8 := if 65 ≤ byte ∧ byte ≤ 90 then byte + 32 else byte

def redisEqualsIgnoreCase (left right : Text) : Bool := left.map lowered == right.map lowered

def isDigit (byte : UInt8) : Bool := 48 ≤ byte && byte ≤ 57

def digitsValue (digits : Text) : Nat :=
  digits.foldl (fun value digit => value * 10 + (digit.toNat - 48)) 0

/-- `std::from_chars` into a `std::uint64_t`: the value and what is left of the input, or nothing
where it reports an error. -/
def fromCharsUInt64 (input : Text) : Option (Nat × Text) :=
  let digits := input.takeWhile isDigit
  if digits = [] ∨ 2 ^ 64 ≤ digitsValue digits then none
  else some (digitsValue digits, input.dropWhile isDigit)

def fromCharsInt64 (input : Text) : Option (Int × Text) :=
  let negative := input.head? == some 45
  let magnitude := if negative then input.tail else input
  let digits := magnitude.takeWhile isDigit
  let value : Int := if negative then -digitsValue digits else digitsValue digits
  if digits = [] ∨ value < -2 ^ 63 ∨ 2 ^ 63 ≤ value then none
  else some (value, magnitude.dropWhile isDigit)

def whole {Number : Type} (parsed : Option (Number × Text)) : Option Number :=
  parsed.bind fun (value, rest) => if rest = [] then some value else none

def parseRedisInt64 (input : Text) : Option Int :=
  if input = [] then none
  else
    let negative := input.head? == some 45
    let magnitude := if negative then input.tail else input
    if magnitude = [] ∨ (1 < magnitude.length ∧ magnitude.head? = some 48) ∨
        (negative ∧ magnitude = [48]) ∨ ¬ magnitude.head?.any
        (fun first => 49 ≤ first && first ≤ 57)
    then if input = [48] then some 0 else none
    else if magnitude.any (fun digit => !isDigit digit) then none
    else whole (fromCharsInt64 input)

/-! ## The value of a token -/

def integerOf (token : Text) : Int :=
  if token.head? = some 45 then -digitsValue token.tail else digitsValue token

theorem whole_eq_some {Number : Type} {parsed : Option (Number × Text)} {value : Number} :
    whole parsed = some value ↔ parsed = some (value, []) := by
  rcases parsed with _ | ⟨number, rest⟩
  · simp [whole]
  · simp only [whole, Option.bind_some, Option.ite_none_right_eq_some, Option.some.injEq,
      Prod.mk.injEq]
    exact and_comm

theorem takeWhile_of_dropWhile_nil {input : Text} (consumed : input.dropWhile isDigit = []) :
    input.takeWhile isDigit = input := by
  have parts := List.takeWhile_append_dropWhile (p := isDigit) (l := input)
  rwa [consumed, List.append_nil] at parts

variable {token : Text} {value : Int}

theorem whole_fromCharsInt64 (parsed : whole (fromCharsInt64 token) = some value) :
    value = integerOf token := by
  rw [whole_eq_some] at parsed
  simp only [fromCharsInt64, Option.ite_none_left_eq_some, Option.some.injEq,
    Prod.mk.injEq] at parsed
  obtain ⟨-, value_eq, consumed⟩ := parsed
  rw [takeWhile_of_dropWhile_nil consumed] at value_eq
  rw [← value_eq, integerOf]
  by_cases negative : token.head? = some 45
  · simp [negative]
  · simp [negative]

theorem whole_fromCharsUInt64 {value : Nat} (parsed : whole (fromCharsUInt64 token) = some value) :
    (value : Int) = integerOf token := by
  rw [whole_eq_some] at parsed
  simp only [fromCharsUInt64, Option.ite_none_left_eq_some, Option.some.injEq,
    Prod.mk.injEq, not_or] at parsed
  obtain ⟨⟨digits, -⟩, value_eq, consumed⟩ := parsed
  rw [takeWhile_of_dropWhile_nil consumed] at value_eq digits
  have unsigned : token.head? ≠ some 45 := by
    intro minus
    obtain ⟨rest, rfl⟩ := List.head?_eq_some_iff.mp minus
    simp [isDigit] at consumed
  rw [integerOf, if_neg unsigned, value_eq]

theorem parseRedisInt64_value (parsed : parseRedisInt64 token = some value) :
    value = integerOf token := by
  simp only [parseRedisInt64, Option.ite_none_left_eq_some] at parsed
  obtain ⟨-, parsed⟩ := parsed
  generalize (if (token.head? == some 45) = true then token.tail else token) = magnitude at parsed
  split at parsed
  · obtain ⟨rfl, zero⟩ := Option.ite_none_right_eq_some.mp parsed
    exact (Option.some.inj zero).symm
  · exact whole_fromCharsInt64 (Option.ite_none_left_eq_some.mp parsed).2

end Lavik.Redis
