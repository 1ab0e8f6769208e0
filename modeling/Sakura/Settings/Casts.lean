/-
  The value of a setting in SQL: `(value #>> '{}')::boolean` and `::integer`.

  A cast that PostgreSQL refuses is an error of its statement, and the transaction is over.

  * `booleanOf`, `integerOf`: what the types boolean and integer read of a text;
  * `Cast`, `Json.asBoolean`, `Json.asInteger`: the casts of a value.
-/
import Sakura.Settings.Service

namespace Sakura.Settings

/-! ## Texts -/

/-- `isspace`, in the C locale. -/
def isBlank (c : Char) : Bool := c = ' ' || (9 ≤ c.toNat && c.toNat ≤ 13)

def trimBlanks (cs : List Char) : List Char :=
  ((cs.dropWhile isBlank).reverse.dropWhile isBlank).reverse

/-- `boolin` -/
def booleanOf (text : String) : Option Bool :=
  let word := toLower (String.ofList (trimBlanks text.toList))
  if word ∈ ["t", "tr", "tru", "true", "y", "ye", "yes", "on", "1"] then some true
  else if word ∈ ["f", "fa", "fal", "fals", "false", "n", "no", "of", "off", "0"] then some false
  else none

def digitOf (base : Nat) (c : Char) : Option Nat :=
  let value :=
    if '0' ≤ c && c ≤ '9' then c.toNat - '0'.toNat
    else if 'a' ≤ c && c ≤ 'f' then c.toNat - 'a'.toNat + 10
    else if 'A' ≤ c && c ≤ 'F' then c.toNat - 'A'.toNat + 10
    else base
  if value < base then some value else none

/-- Digits; an underscore stands before a further digit. -/
def readDigits (base : Nat) : Nat → List Char → Option Nat
  | n, [] => some n
  | n, '_' :: c :: cs => (digitOf base c).bind fun d => readDigits base (n * base + d) cs
  | n, c :: cs => (digitOf base c).bind fun d => readDigits base (n * base + d) cs

def naturalOf : List Char → Option Nat
  | [] => none
  | '_' :: _ => none
  | '0' :: 'x' :: c :: cs | '0' :: 'X' :: c :: cs => readDigits 16 0 (c :: cs)
  | '0' :: 'o' :: c :: cs | '0' :: 'O' :: c :: cs => readDigits 8 0 (c :: cs)
  | '0' :: 'b' :: c :: cs | '0' :: 'B' :: c :: cs => readDigits 2 0 (c :: cs)
  | cs => readDigits 10 0 cs

/-- A value of type integer. -/
def inInteger (n : Int) : Option Int := if -2 ^ 31 ≤ n ∧ n < 2 ^ 31 then some n else none

/-- `int4in` -/
def integerOf (text : String) : Option Int :=
  match trimBlanks text.toList with
  | '-' :: cs => (naturalOf cs).bind fun n => inInteger (-n)
  | '+' :: cs => (naturalOf cs).bind fun n => inInteger n
  | cs => (naturalOf cs).bind fun n => inInteger n

/-! ## Values -/

/-- The outcome of a cast: NULL, a value, or an error. -/
inductive Cast (α : Type) where
  | null
  | value (a : α)
  | error
  deriving DecidableEq

def Cast.of {α : Type} (o : Option α) : Cast α := o.elim .error .value

/-- A number is written in decimal digits, and an object or an array begins with its bracket. -/
def Json.asBoolean : Json → Cast Bool
  | .null => .null
  | .boolean b => .value b
  | .number n => if n = 1 then .value true else if n = 0 then .value false else .error
  | .string s => .of (booleanOf s)
  | .object _ | .array _ => .error

def Json.asInteger : Json → Cast Int
  | .null => .null
  | .boolean _ => .error
  | .number n => if n.den = 1 then .of (inInteger n.num) else .error
  | .string s => .of (integerOf s)
  | .object _ | .array _ => .error

example : integerOf " -0x1_F " = some (-31) := by decide

end Sakura.Settings
