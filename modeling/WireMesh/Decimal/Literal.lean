import WireMesh.Decimal
import WireMesh.Text.Blank
import WireMesh.Text.DecimalDigit
import WireMesh.Text.Quoted

/-!
This module contains the integers that a setting may hold: a sign and digits of any script, with
single underscores between digits and white space around the whole.
-/

namespace WireMesh.Decimal.Literal

inductive Error where
  | tooManyDigits (cause : TooManyDigits)
  | notInteger (text : String)
deriving DecidableEq, Repr

namespace Error

def shownLength : Nat := 200

def message : Error → String
  | .tooManyDigits cause => cause.message
  | .notInteger text =>
    "invalid literal for int() with base 10: "
      ++ String.ofList ((Text.quoted text).toList.take shownLength)

end Error

def takeSign (cs : List Char) : Bool × List Char :=
  match cs with
  | '-' :: rest => (true, rest)
  | '+' :: rest => (false, rest)
  | _ => (false, cs)

def isRunChar (c : Char) : Bool :=
  c == '_' || (Text.decimalDigit? c).isSome

def runDigits? (run : List Char) : Option (List Nat) :=
  let groups := run.splitOn '_'
  if groups.any List.isEmpty then none else some (groups.flatten.filterMap Text.decimalDigit?)

def ofDigits (digits : List Nat) : Nat :=
  digits.foldl (fun n d => 10 * n + d) 0

/--
Read an integer. The digits are counted before what follows them is looked at.
-/
def read (s : String) : Except Error Int :=
  let (negative, rest) := takeSign (s.toList.dropWhile Text.isBlank)
  match runDigits? (rest.takeWhile isRunChar) with
  | none => .error (.notInteger s)
  | some digits =>
    if digitLimit < digits.length then
      .error (.tooManyDigits ⟨digits.length⟩)
    else if (rest.dropWhile isRunChar).all Text.isBlank then
      .ok (if negative then -(ofDigits digits : Int) else ofDigits digits)
    else
      .error (.notInteger s)

end WireMesh.Decimal.Literal
