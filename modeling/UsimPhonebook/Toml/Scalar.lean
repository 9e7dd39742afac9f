import UsimPhonebook.Text.Numeral
import UsimPhonebook.Toml.Value

/-! # Numbers, truth values and dates

What may stand for a value outside quotes and brackets. Each form is a predicate on the whole
literal; `Toml.scalar?` tells them apart.
-/

namespace UsimPhonebook.Toml

def isDigit (c : Char) : Bool := '0' ≤ c && c ≤ '9'

def isDigitOf (base : Nat) (c : Char) : Bool := (digitValue? c).any (· < base)

/-- Digits of a base, one underscore at most between two of them. -/
def isDigits (base : Nat) : Text → Bool
  | [] => false
  | [c] => isDigitOf base c
  | c :: '_' :: rest => isDigitOf base c && isDigits base rest
  | c :: rest => isDigitOf base c && isDigits base rest

/-- Less a sign in front. -/
def withoutSign : Text → Text
  | '+' :: rest => rest
  | '-' :: rest => rest
  | t => t

/-- Decimal digits that do not start with a needless zero. -/
def isWhole (t : Text) : Bool :=
  isDigits 10 t && match t with
    | '0' :: _ :: _ => false
    | _ => true

/-- The number of digits of a base, underscores passed over. -/
def digitsValue (base : Nat) (t : Text) : Nat :=
  t.foldl (fun acc c => if c = '_' then acc else acc * base + (digitValue? c).getD 0) 0

/-- One more than the greatest number of a signed 64-bit machine word. -/
def signedLimit : Nat := 0x8000000000000000

/-- Digits of a base for a number that a signed machine word holds. -/
def isBased (base : Nat) (t : Text) : Bool := isDigits base t && digitsValue base t < signedLimit

/-- A whole number in the range of a signed machine word. -/
def isInteger (t : Text) : Bool :=
  match t with
  | '0' :: 'x' :: rest => isBased 16 rest
  | '0' :: 'o' :: rest => isBased 8 rest
  | '0' :: 'b' :: rest => isBased 2 rest
  | '-' :: rest => isWhole rest && digitsValue 10 rest ≤ signedLimit
  | _ => isWhole (withoutSign t) && digitsValue 10 (withoutSign t) < signedLimit

/-- The part before the first character of a class, and the part from there on. -/
def splitBefore (p : Char → Bool) (t : Text) : Text × Text :=
  (t.takeWhile fun c => !p c, t.dropWhile fun c => !p c)

/-- The letter that starts an exponent. -/
def isExponentMark (c : Char) : Bool := c == 'e' || c == 'E'

/-- An exponent with its letter, or none. -/
def isExponent : Text → Bool
  | [] => true
  | _ :: rest => isDigits 10 (withoutSign rest)

/-- A fraction with its point, or none. -/
def isFraction : Text → Bool
  | [] => true
  | _ :: rest => isDigits 10 rest

/-- The least number that rounds to no finite binary64. -/
def floatLimit : Nat := Nat.pow 2 1024 - Nat.pow 2 970

/-- `value * 10 ^ power` is below `floatLimit`, where `value` has at most `digits` digits. -/
def isBelowLimit (value digits : Nat) (power : Int) : Bool :=
  if value = 0 then true
  else if 0 ≤ power then power < 400 && value * Nat.pow 10 power.toNat < floatLimit
  else digits ≤ (-power).toNat || value < floatLimit * Nat.pow 10 (-power).toNat

/-- A number of this whole part, fraction and exponent is below `floatLimit`. -/
def fitsFloat (whole fraction exponent : Text) : Bool :=
  let places := (fraction.drop 1).filter (· != '_')
  let size : Int := digitsValue 10 (withoutSign (exponent.drop 1))
  let power := (if exponent[1]? = some '-' then -size else size) - places.length
  isBelowLimit (digitsValue 10 (whole ++ places)) (whole.length + places.length) power

/-- A number with a fraction or an exponent, infinity, or no number. One that is too great to be
held is refused unless it is negative. -/
def isFloat (t : Text) : Bool :=
  let unsigned := withoutSign t
  if unsigned = "inf".toList ∨ unsigned = "nan".toList then true
  else
    let (mantissa, exponent) := splitBefore isExponentMark unsigned
    let (whole, fraction) := splitBefore (· == '.') mantissa
    !(fraction.isEmpty && exponent.isEmpty) && isWhole whole && isFraction fraction
      && isExponent exponent && (t.head? = some '-' || fitsFloat whole fraction exponent)

/-- Two digits for a number in a range. -/
def isPair (first last : Nat) : Text → Bool
  | [a, b] =>
    isDigit a && isDigit b && first ≤ digitsValue 10 [a, b] && digitsValue 10 [a, b] ≤ last
  | _ => false

def isLeap (year : Nat) : Bool := year % 4 = 0 && (year % 100 ≠ 0 || year % 400 = 0)

def daysIn (year month : Nat) : Nat :=
  if month = 2 then (if isLeap year then 29 else 28)
  else if month = 4 ∨ month = 6 ∨ month = 9 ∨ month = 11 then 30
  else 31

def isDate : Text → Bool
  | [y₁, y₂, y₃, y₄, '-', m₁, m₂, '-', d₁, d₂] =>
    [y₁, y₂, y₃, y₄].all isDigit && isPair 1 12 [m₁, m₂]
      && isPair 1 (daysIn (digitsValue 10 [y₁, y₂, y₃, y₄]) (digitsValue 10 [m₁, m₂])) [d₁, d₂]
  | _ => false

/-- A fraction of a second with its point, or none. -/
def isSecondFraction : Text → Bool
  | [] => true
  | '.' :: rest => !rest.isEmpty && rest.all isDigit
  | _ => false

/-- A time of the day with seconds; a leap second counts as one. -/
def isTime : Text → Bool
  | h₁ :: h₂ :: ':' :: m₁ :: m₂ :: ':' :: s₁ :: s₂ :: fraction =>
    isPair 0 23 [h₁, h₂] && isPair 0 59 [m₁, m₂] && isPair 0 60 [s₁, s₂]
      && isSecondFraction fraction
  | _ => false

/-- A distance from universal time, or none. -/
def isOffset : Text → Bool
  | [] => true
  | [c] => c == 'Z' || c == 'z'
  | [sign, h₁, h₂, ':', m₁, m₂] =>
    (sign == '+' || sign == '-') && isPair 0 23 [h₁, h₂] && isPair 0 59 [m₁, m₂]
  | _ => false

/-- What may follow the time of a date. -/
def startsOffset (c : Char) : Bool := c == 'Z' || c == 'z' || c == '+' || c == '-'

/-- A date, a time, or a date and a time with or without a distance from universal time. -/
def isDateTime (t : Text) : Bool :=
  isTime t || isDate (t.take 10) &&
    match t.drop 10 with
    | [] => true
    | mark :: rest =>
      let (time, offset) := splitBefore startsOffset rest
      (mark == 'T' || mark == 't' || mark == ' ') && isTime time && isOffset offset

/-- The value of a literal. -/
def scalar? (t : Text) : Option Toml :=
  if t = "true".toList ∨ t = "false".toList then some (plain t)
  else if isInteger t || isFloat t then some (plain t)
  else if isDateTime t then some (dateTime t)
  else none

/-- A character that may stand in a literal. -/
def isLiteralChar (c : Char) : Bool :=
  c.isAlphanum || c == '_' || c == '+' || c == '-' || c == '.' || c == ':'

/-- Blank and two digits with a colon: the time that belongs to a date in front of them. -/
def startsTime : Text → Bool
  | ' ' :: h₁ :: h₂ :: ':' :: _ => isPair 0 23 [h₁, h₂]
  | _ => false

/-- The literal at the front of a text, and what follows it. A blank between a date and a time is
part of the literal. -/
def splitLiteral (t : Text) : Text × Text :=
  let first := t.takeWhile isLiteralChar
  let rest := t.dropWhile isLiteralChar
  if isDate first && startsTime rest then
    (first ++ ' ' :: (rest.drop 1).takeWhile isLiteralChar,
      (rest.drop 1).dropWhile isLiteralChar)
  else (first, rest)

end UsimPhonebook.Toml
