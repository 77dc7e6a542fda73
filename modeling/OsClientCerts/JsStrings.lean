import Mathlib.Data.List.DropRight
import OsClientCerts.RegularExpressions

/-!
Strings of the scripts, as their UTF-16 code units, and the sets of units that their
regular expressions name. Ignoring case, a unit beyond ASCII is no letter of a pattern
that is all ASCII.
-/

namespace OsClientCerts
open RegularExpressions

abbrev JsString := List UInt16

def unitOf (letter : Char) : UInt16 := letter.val.toUInt16

/-- The units of a literal. -/
def js (literal : String) : JsString := literal.toList.map unitOf

def isUnit (letter : Char) (unit : UInt16) : Bool := unit == unitOf letter

def upperCase (unit : UInt16) : UInt16 := if 97 ≤ unit ∧ unit ≤ 122 then unit - 32 else unit

def isLetter (letter : Char) (unit : UInt16) : Bool := upperCase unit == upperCase (unitOf letter)

def isLineTerminator (unit : UInt16) : Bool :=
  unit == 0x0A || unit == 0x0D || unit == 0x2028 || unit == 0x2029

def isWhiteSpace (unit : UInt16) : Bool :=
  isLineTerminator unit || unit == 0x09 || unit == 0x0B || unit == 0x0C || unit == 0x20 ||
    unit == 0xA0 || unit == 0x1680 || decide (0x2000 ≤ unit ∧ unit ≤ 0x200A) || unit == 0x202F ||
    unit == 0x205F || unit == 0x3000 || unit == 0xFEFF

def isWordCharacter (unit : UInt16) : Bool :=
  decide (48 ≤ unit ∧ unit ≤ 57) || decide (65 ≤ unit ∧ unit ≤ 90) || unit == 95 ||
    decide (97 ≤ unit ∧ unit ≤ 122)

def isNewline : UInt16 → Bool := isUnit '\n'
def isReturn : UInt16 → Bool := isUnit '\r'

def wordOf (literal : String) : List (UInt16 → Bool) := literal.toList.map isUnit

/-- The word of a pattern with the flag `i`. -/
def anyCase (literal : String) : List (UInt16 → Bool) := literal.toList.map isLetter

def lineStart : Term UInt16 := .assertion fun previous _ => previous.all isLineTerminator

def inputStart : Term UInt16 := .assertion fun previous _ => previous.isNone

def wordBoundary : Term UInt16 := .assertion fun previous next =>
  previous.any isWordCharacter != next.any isWordCharacter

def lineBreak : List (Term UInt16) := [.optional [isReturn], .one isNewline]

/-- The lower case of a letter of Latin, and of the two letters whose lower case has ASCII in
it; other scripts stay as they are. -/
def lowerUnits (unit : UInt16) : JsString :=
  if 65 ≤ unit ∧ unit ≤ 90 ∨ 0xC0 ≤ unit ∧ unit ≤ 0xDE ∧ unit ≠ 0xD7 then [unit + 32]
  else if unit = 0x212A then js "k"
  else if unit = 0x130 then [unitOf 'i', 0x307]
  else [unit]

def JsString.toLowerCase (text : JsString) : JsString := text.flatMap lowerUnits

def JsString.includes (text : JsString) (piece : String) : Bool := test (literal (wordOf piece)) text

def JsString.trim (text : JsString) : JsString :=
  (text.dropWhile isWhiteSpace).rdropWhile isWhiteSpace

theorem trim_length_le (text : JsString) : text.trim.length ≤ text.length := by
  have back : text.trim.length ≤ (text.dropWhile isWhiteSpace).length := by
    unfold JsString.trim List.rdropWhile
    rw [List.length_reverse]
    exact (List.dropWhile_suffix _).length_le.trans_eq List.length_reverse
  exact back.trans (List.dropWhile_suffix _).length_le

end OsClientCerts
