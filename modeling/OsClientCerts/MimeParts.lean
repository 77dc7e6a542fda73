import OsClientCerts.JsStrings

/-!
The trees of MIME parts that the mail client's parsers make, and what the script reads of
a part: its headers, its type and the name of its file. A text that is empty where the
script only asks whether there is one stands for none.
-/

namespace OsClientCerts
open RegularExpressions

/-- A header as the parsers keep it: its text, and its type if it is structured. -/
structure HeaderValue where
  text : JsString
  type : Option JsString

/-- The headers of a part: methods that may be missing and may throw, and properties. -/
structure PartHeaders where
  getRawHeader : Option (JsString → Except JsString (Option JsString))
  get : Option (JsString → Except JsString (Option HeaderValue))
  contentType : Option HeaderValue
  property : JsString → Option (List JsString)

structure PartFields where
  name : JsString
  fullContentType : JsString
  contentType : JsString
  isAttachment : Bool
  body : Option JsString
  headers : Option PartHeaders

inductive MimePart where
  | part (fields : PartFields) (subParts : List MimePart)

def MimePart.fields : MimePart → PartFields
  | .part fields _ => fields

def MimePart.subParts : MimePart → List MimePart
  | .part _ subParts => subParts

mutual
def MimePart.all : MimePart → List MimePart
  | .part fields subParts => .part fields subParts :: allParts subParts

def allParts : List MimePart → List MimePart
  | [] => []
  | part :: rest => part.all ++ allParts rest
end

def joined (separator : JsString) (texts : List JsString) : JsString :=
  separator.intercalate texts

def readHeader (headers : PartHeaders) (name : JsString) : Except JsString (Option JsString) := do
  let raw ← match headers.getRawHeader with
    | some getRawHeader => getRawHeader name
    | none => pure none
  match raw, headers.get with
  | some raw, _ => pure (some raw)
  | none, some get => do
      let value ← get name
      pure (value.map HeaderValue.text)
  | none, none =>
      let found := (headers.property name).or (headers.property (name.toLowerCase))
      pure (found.map (joined (js " ")))

def mimeHeader (node : PartFields) (name : String) : Option JsString :=
  match node.headers with
  | none => none
  | some headers =>
      match readHeader headers (js name) with
      | .ok value => value
      | .error _ => none

def structuredType (headers : PartHeaders) : Option JsString :=
  match headers.contentType, headers.get with
  | some structured, _ => structured.type
  | none, some get =>
      match get (js "content-type") with
      | .ok value => value.bind HeaderValue.type
      | .error _ => none
  | none, none => none

def beforeSemicolon (text : JsString) : JsString := text.takeWhile fun unit => !isUnit ';' unit

def mimeContentType (node : PartFields) : JsString :=
  match node.headers.bind structuredType with
  | some type => type.toLowerCase
  | none =>
      let type := if node.fullContentType.isEmpty then node.contentType else node.fullContentType
      JsString.toLowerCase (JsString.trim (beforeSemicolon type))

def groupBefore (behind : Nat) (lengths : List Nat) (text : JsString) : JsString :=
  let earlier := lengths.take (lengths.length - behind - 1)
  (text.drop earlier.sum).take (lengths.getD earlier.length 0)

/-- The leftmost match of any of the patterns, the earlier ones preferred: its group. -/
def searchAny (patterns : List (List (Term UInt16) × Nat)) :
    Option UInt16 → JsString → Option JsString
  | previous, text =>
      let here := patterns.findSome? fun (pattern, behind) =>
        (matchAt pattern previous text).map fun lengths => groupBefore behind lengths text
      match here, text with
      | some group, _ => some group
      | none, [] => none
      | none, next :: rest => searchAny patterns (some next) rest

/-- `(?:^|;)\s*parameter\s*=\s*(?:"([^"]*)"|([^;\s]*))` with the flag `i`, each alternative a
pattern of its own. -/
def parameterPatterns (parameter : String) : List (List (Term UInt16) × Nat) :=
  let assigned := .many isWhiteSpace 0 true :: (literal (anyCase parameter) ++
    [.many isWhiteSpace 0 true, .one (isUnit '='), .many isWhiteSpace 0 true])
  let quoted : List (Term UInt16) :=
    [.one (isUnit '"'), .many (fun unit => !isUnit '"' unit) 0 true, .one (isUnit '"')]
  let bare : List (Term UInt16) :=
    [.many (fun unit => !(isUnit ';' unit || isWhiteSpace unit)) 0 true]
  [(inputStart :: (assigned ++ quoted), 1), (inputStart :: (assigned ++ bare), 0),
    (.one (isUnit ';') :: (assigned ++ quoted), 1), (.one (isUnit ';') :: (assigned ++ bare), 0)]

def mimeFilename (node : PartFields) : JsString :=
  if !node.name.isEmpty then node.name
  else
    let parameters := [("content-disposition", "filename"), ("content-type", "name")]
    (parameters.findSome? fun (header, parameter) =>
      searchAny (parameterPatterns parameter) none ((mimeHeader node header).getD [])).getD []

end OsClientCerts
