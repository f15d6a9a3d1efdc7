import CryptoTrading.Lib.DecimalText

/-! # JSON as an on-demand parser hands it out

A document is read while it is looked at, so any place of it can turn out to be
an error.  Looking a name up in something that is not an object, or that has no
such name, is an error as well, and reading an error as a value of any kind
fails.  The names in one object are meant to be distinct. -/
set_option autoImplicit false

namespace OnDemand

inductive Node where
  | error
  | null
  | bool (value : Bool)
  | number (spelling : String)
  | text (value : String)
  | array (elements : List Node)
  | object (members : List (String × Node))

/-! ## Numbers -/

/-- The digits of a fraction, if there is one, and what follows. -/
def readFraction : List Char → Option (List Char × List Char)
  | '.' :: rest =>
      let digits := rest.takeWhile Char.isDigit
      if digits = [] then none else some (digits, rest.dropWhile Char.isDigit)
  | rest => some ([], rest)

/-- An exponent of at most 19 digits up to the end of the text, or its absence. -/
def readExponent : List Char → Option Int
  | [] => some 0
  | mark :: rest =>
      let negative := rest.head? = some '-'
      let digits := if negative ∨ rest.head? = some '+' then rest.tail else rest
      if (mark = 'e' ∨ mark = 'E') ∧ digits ≠ [] ∧ digits.all Char.isDigit ∧
          digits.length ≤ 19 then
        let value : Int := Nat.ofDigitChars 10 digits 0
        some (if negative then -value else value)
      else none

/-- A zero stands alone. -/
def IntegerDigits (digits : List Char) : Prop :=
  digits ≠ [] ∧ (digits.head? = some '0' → digits.length = 1)

instance (digits : List Char) : Decidable (IntegerDigits digits) :=
  inferInstanceAs (Decidable (_ ∧ _))

/-- A number in the notation of JSON, over rationals in place of doubles. -/
def readDouble (chars : List Char) : Option ℚ :=
  let negative := chars.head? = some '-'
  let unsigned := if negative then chars.tail else chars
  let integerDigits := unsigned.takeWhile Char.isDigit
  if IntegerDigits integerDigits then do
    let (fractionDigits, rest) ← readFraction (unsigned.dropWhile Char.isDigit)
    let exponent ← readExponent rest
    let magnitude := DecimalText.unsignedValue integerDigits fractionDigits * 10 ^ exponent
    some (if negative then -magnitude else magnitude)
  else none

def readUint64 (chars : List Char) : Option ℕ :=
  if IntegerDigits chars ∧ chars.all Char.isDigit ∧ Nat.ofDigitChars 10 chars 0 < 2 ^ 64 then
    some (Nat.ofDigitChars 10 chars 0)
  else none

def readInt64 (chars : List Char) : Option Int :=
  let negative := chars.head? = some '-'
  let digits := if negative then chars.tail else chars
  if IntegerDigits digits ∧ digits.all Char.isDigit then
    let magnitude : Int := Nat.ofDigitChars 10 digits 0
    let value := if negative then -magnitude else magnitude
    if -2 ^ 63 ≤ value ∧ value < 2 ^ 63 then some value else none
  else none

/-! ## Access -/

namespace Node

def isError : Node → Bool
  | .error => true
  | _ => false

def field (node : Node) (name : String) : Node :=
  match node with
  | .object members => ((members.find? fun member => member.1 = name).map Prod.snd).getD .error
  | _ => .error

def getArray : Node → Option (List Node)
  | .array elements => some elements
  | _ => none

def getObject : Node → Option (List (String × Node))
  | .object members => some members
  | _ => none

def getString : Node → Option String
  | .text value => some value
  | _ => none

def getInt64 : Node → Option Int
  | .number spelling => readInt64 spelling.toList
  | _ => none

def getDoubleInString : Node → Option ℚ
  | .text value => readDouble value.toList
  | _ => none

def getUint64InString : Node → Option ℕ
  | .text value => readUint64 value.toList
  | _ => none

/-- What a string variable that started empty holds after the read. -/
def string (node : Node) : String := node.getString.getD ""

example : ((Node.object [("px", .text "-0.5e1")]).field "px").getDoubleInString = some (-5) := by
  decide +kernel

end Node

end OnDemand
