import OsClientCerts.JsStrings

/-!
What the value of a Content-Type field says, as the mail standards have it read: a type, then
parameters between semicolons, each a name and a word or a quoted string, and comments in
parentheses anywhere between them. In quoted strings and comments a backslash takes away the
meaning of the unit after it.
-/

namespace OsClientCerts
open RegularExpressions

inductive ValueReader where
  | plain
  | quoted (escaped : Bool)
  | comment (depth : Nat) (escaped : Bool)

/-- The units of a value, each with whether it was quoted. A comment stands for a blank, and a
string that is not closed ends with the value. -/
def ValueReader.read : ValueReader → JsString → List (UInt16 × Bool)
  | _, [] => []
  | .plain, unit :: rest =>
      if isUnit '"' unit then (ValueReader.quoted false).read rest
      else if isUnit '(' unit then (unitOf ' ', false) :: (ValueReader.comment 0 false).read rest
      else (unit, false) :: ValueReader.plain.read rest
  | .quoted true, unit :: rest => (unit, true) :: (ValueReader.quoted false).read rest
  | .quoted false, unit :: rest =>
      if isUnit '"' unit then ValueReader.plain.read rest
      else if isUnit '\\' unit then (ValueReader.quoted true).read rest
      else (unit, true) :: (ValueReader.quoted false).read rest
  | .comment depth true, _ :: rest => (ValueReader.comment depth false).read rest
  | .comment depth false, unit :: rest =>
      if isUnit '\\' unit then (ValueReader.comment depth true).read rest
      else if isUnit '(' unit then (ValueReader.comment (depth + 1) false).read rest
      else if isUnit ')' unit then
        match depth with
        | 0 => ValueReader.plain.read rest
        | depth + 1 => (ValueReader.comment depth false).read rest
      else (ValueReader.comment depth false).read rest

/-- The piece is this word, in any case and with white space around it, and all of it quoted
or none. -/
def saysWord (quoted : Bool) (word : String) (piece : List (UInt16 × Bool)) : Bool :=
  let space : UInt16 × Bool → Bool := fun unit => !unit.2 && isWhiteSpace unit.1
  let units := (piece.dropWhile space).rdropWhile space
  units.all (fun unit => unit.2 == quoted) && units.length == word.length &&
    spells (anyCase word) (units.map Prod.fst)

def isParameter (name value : String) (piece : List (UInt16 × Bool)) : Bool :=
  let given := (piece.dropWhile (· != (unitOf '=', false))).drop 1
  saysWord false name (piece.takeWhile (· != (unitOf '=', false))) &&
    (saysWord false value given || saysWord true value given)

/-- The field announces an encrypted message: the type is that of S/MIME, and the parameter
`smime-type` says so. -/
def announcesEncrypted (value : JsString) : Bool :=
  match (ValueReader.plain.read value).splitOnP (· == (unitOf ';', false)) with
  | [] => false
  | type :: parameters =>
      (saysWord false "application/pkcs7-mime" type ||
        saysWord false "application/x-pkcs7-mime" type) &&
        parameters.any (isParameter "smime-type" "enveloped-data")

def Announces (value : JsString) : Prop := announcesEncrypted value = true

instance (value : JsString) : Decidable (Announces value) := inferInstanceAs (Decidable (_ = true))

example : Announces (js ("application/x-pkcs7-mime (S/MIME); name=a; " ++
    "SMIME-Type = \"enveloped-data\"")) := by
  decide +kernel

end OsClientCerts
