import OsClientCerts.AnnouncedTypes
import OsClientCerts.HeaderUnfolding
import OsClientCerts.MimeParts

/-!
Whether a forwarded message is encrypted, as the script decides it from the raw text and
the tree of its parts. The text is unfolded as a whole before its headers are cut off, so
the first line of a body can be taken for a continuation of the last header.
-/

namespace OsClientCerts
open RegularExpressions

def isInLine (unit : UInt16) : Bool := !(isUnit '\r' unit || isUnit '\n' unit)

def contentTypeThen (pattern : List (Term UInt16)) : List (Term UInt16) :=
  lineStart :: (literal (anyCase "content-type") ++
    [.many isWhiteSpace 0 true, .one (isUnit ':'), .many isWhiteSpace 0 true] ++ pattern)

/-- `^content-type\s*:\s*([^\r\n]+)` with the flags `im`. -/
def contentTypePattern : List (Term UInt16) := contentTypeThen [.many isInLine 1 true]

/-- `application\/(?:x-)?pkcs7-mime\b[^\r\n]*\bsmime-type\s*=\s*"?enveloped-data\b` with the
flag `i`. -/
def envelopedPattern : List (Term UInt16) :=
  literal (anyCase "application/") ++ .optional (anyCase "x-") ::
    (literal (anyCase "pkcs7-mime") ++ wordBoundary :: .many isInLine 0 true :: wordBoundary ::
      (literal (anyCase "smime-type") ++ .many isWhiteSpace 0 true :: .one (isUnit '=') ::
        .many isWhiteSpace 0 true :: .optional (wordOf "\"") ::
          (literal (anyCase "enveloped-data") ++ [wordBoundary])))

def lastGroup (lengths : List Nat) (text : JsString) : JsString :=
  (text.drop lengths.dropLast.sum).take (lengths.getLastD 0)

def rootContentType (headers : JsString) : JsString :=
  match search contentTypePattern none headers with
  | some (_, lengths, rest) => lastGroup lengths rest
  | none => []

def encryptedType (contentType : JsString) : Bool :=
  test (inputStart :: envelopedPattern) contentType

def contentTypeOf (node : PartFields) : JsString :=
  let texts := [node.fullContentType, (mimeHeader node "content-type").getD []]
  JsString.toLowerCase (joined (js " ") (texts.filter fun text => !text.isEmpty))

mutual
def nodeLooksEncryptedSmime : MimePart → Bool
  | .part fields subParts =>
      let contentType := contentTypeOf fields
      contentType.includes "pkcs7-mime" && contentType.includes "enveloped-data" ||
        someLooksEncryptedSmime subParts

def someLooksEncryptedSmime : List MimePart → Bool
  | [] => false
  | part :: rest => nodeLooksEncryptedSmime part || someLooksEncryptedSmime rest
end

/-- `streamed` is what the message service answers: whether it succeeds, and the text. -/
def isEmbeddedEncryptedSmime (streamed : JsString → Bool × JsString)
    (getMimeTree : JsString → Except JsString (Option MimePart))
    (messageUri : Option JsString) : Bool :=
  match messageUri with
  | none => false
  | some messageUri =>
      let (ok, data) := streamed messageUri
      if messageUri.isEmpty || !ok || data.isEmpty then false
      else
        let unfolded := unfoldText data
        let headers := firstPiece emptyLinePattern unfolded
        if encryptedType (rootContentType headers) then true
        else
          match getMimeTree data with
          | .ok (some root) =>
              if mimeContentType root.fields ≠ js "message/rfc822" then false
              else if nodeLooksEncryptedSmime root then true
              else test (contentTypeThen envelopedPattern) unfolded
          | _ => false

structure TypeField where
  name : JsString
  gap : JsString
  lead : JsString
  value : JsString
  spelled : spells (anyCase "content-type") name = true
  exact_length : name.length = (anyCase "content-type").length
  blank : ∀ unit ∈ gap ++ lead, isWhiteSpace unit = true

def TypeField.text (field : TypeField) : JsString :=
  field.name ++ (field.gap ++ unitOf ':' :: (field.lead ++ field.value))

def startsEmpty (text : JsString) : Bool := (matchAt lineBreak none text).isSome

def headerBlock (data : JsString) : JsString :=
  if startsEmpty data then [] else firstPiece emptyLinePattern data

def IsLine (line text : JsString) : Prop :=
  ∃ front rest, text = front ++ (line ++ rest) ∧ front.getLast?.all isNewline = true ∧
    unitOf '\n' ∉ line ∧ (rest = [] ∨ startsEmpty rest = true)

/-- A field of the header block, unfolded, announces an encrypted message. -/
def HeaderAnnounces (data : JsString) : Prop :=
  ∃ field : TypeField, IsLine field.text (unfoldText (headerBlock data)) ∧ Announces field.value

def contentTypeTexts (node : PartFields) : List JsString :=
  [node.fullContentType, (mimeHeader node "content-type").getD []]

def PartAnnounces (part : MimePart) : Prop :=
  ∃ value ∈ contentTypeTexts part.fields, Announces (unfoldText value)

instance (part : MimePart) : Decidable (PartAnnounces part) :=
  inferInstanceAs (Decidable (∃ value ∈ _, Announces (unfoldText value)))

def isRfc822 (root : MimePart) : Bool := mimeContentType root.fields == js "message/rfc822"

/-- Ordinary messages are forwarded as they are, and embedded ones are redirected only for a
header in them. -/
structure OrdinaryKept (data : JsString) (root : Option MimePart) (redirected : Bool) : Prop where
  ordinary : root.any isRfc822 = false → ¬ HeaderAnnounces data → redirected = false
  embedded : ∀ whole, root = some whole → isRfc822 whole = true → redirected = true →
    ∃ part ∈ whole.all, PartAnnounces part

def IsWord (word : String) (text : JsString) : Prop :=
  spells (anyCase word) text = true ∧ text.length = (anyCase word).length

/-- What the patterns take for an announcement. The value starts with the type, or with one that
is longer; further on in its line there is the parameter or the end of one, be it in a quoted
string or in a comment; and what it is set to may go on behind the word. -/
structure Resemblance where
  application : JsString
  x : JsString
  mime : JsString
  middle : JsString
  parameter : JsString
  gap : JsString
  lead : JsString
  quote : JsString
  word : JsString
  rest : JsString
  type : IsWord "application/" application ∧ (x = [] ∨ IsWord "x-" x) ∧ IsWord "pkcs7-mime" mime
  apart : middle ≠ [] ∧ middle.head?.any isWordCharacter = false ∧
    middle.getLast?.any isWordCharacter = false
  inLine : ∀ unit ∈ middle, isInLine unit = true
  named : IsWord "smime-type" parameter
  blank : ∀ unit ∈ gap ++ lead, isWhiteSpace unit = true
  quoted : quote = [] ∨ quote = js "\""
  encrypted : IsWord "enveloped-data" word
  ended : rest.head?.any isWordCharacter = false

def Resemblance.text (found : Resemblance) : JsString :=
  found.application ++ (found.x ++ (found.mime ++ (found.middle ++ (found.parameter ++
    (found.gap ++ unitOf '=' :: (found.lead ++ (found.quote ++ (found.word ++ found.rest))))))))

def Resembles (value : JsString) : Prop := ∃ found : Resemblance, value = found.text

def lineStarts (front : JsString) : Bool := front.getLast?.all isLineTerminator

/-- The first place that reads as a field of this type, up to the end of its line. -/
structure FirstField (head front : JsString) (field : TypeField) (after : JsString) : Prop where
  split : head = front ++ (field.text ++ after)
  starts : lineStarts front = true
  inLine : ∀ unit ∈ field.value, isInLine unit = true
  ends : after.head?.any isInLine = false
  first : ∀ (earlier : JsString) (other : TypeField), head = earlier ++ other.text →
    lineStarts earlier = true → other.value.head?.any isInLine = true →
    front.length ≤ earlier.length

/-- A blank follows the first empty line. -/
def BlankBody (data : JsString) : Prop :=
  ∃ line_break other rest, data = headerBlock data ++ (line_break ++ (other ++ rest)) ∧
    IsBreak line_break ∧ IsBreak other ∧ rest.head?.any isBlank = true

/-- The field is none of the header block: the text starts with an empty line, its body with a
blank, the field in the middle of a line, or its value on another line than its name. -/
def Displaced (data front : JsString) (field : TypeField) : Prop :=
  startsEmpty data = true ∨ BlankBody data ∨ front.getLast?.all isNewline = false ∨
    unitOf '\n' ∈ field.gap ++ field.lead

/-- Up to the end of its line, the field only resembles an announcement. -/
def Overmatched (field : TypeField) (after : JsString) : Prop :=
  ∃ line rest, after = line ++ rest ∧ unitOf '\n' ∉ line ∧ (rest = [] ∨ startsEmpty rest = true) ∧
    ¬ Announces (field.value ++ line)

/-- No field of the header block announces, but the first that is read resembles one that does,
and is none of the block or says something else. -/
def Misread (data : JsString) : Prop :=
  ¬ HeaderAnnounces data ∧ ∃ front field after,
    FirstField (unfoldText (headAsCut data)) front field after ∧ Resembles field.value ∧
      (Displaced data front field ∨ Overmatched field after)

def Mention (texts : List JsString) (piece : String) : Prop :=
  ∃ text ∈ texts, (JsString.toLowerCase text).includes piece = true

def AnnounceBoth (texts : List JsString) : Prop :=
  Mention texts "pkcs7-mime" ∧ Mention texts "enveloped-data"

/-- No part announces, but a part mentions both words or a line of the text, of its bodies as
well, reads as a field that resembles an announcement. -/
def Overread (data : JsString) (root : MimePart) : Prop :=
  (∀ part ∈ root.all, ¬ PartAnnounces part) ∧
    ((∃ part ∈ root.all, AnnounceBoth (contentTypeTexts part.fields)) ∨
      ∃ front, ∃ field : TypeField, unfoldText data = front ++ field.text ∧
        lineStarts front = true ∧ Resembles field.value)

def Mistaken (data : JsString) (root : Option MimePart) : Prop :=
  (root.any isRfc822 = false ∧ Misread data) ∨
    ∃ whole, root = some whole ∧ isRfc822 whole = true ∧ Overread data whole

theorem encrypted_type_iff {value : JsString} :
    encryptedType value = true ↔ Reads envelopedPattern none value := by
  rw [encryptedType, test_iff]
  constructor
  · rintro ⟨front, later, rfl, reads⟩
    obtain ⟨start, reads⟩ := reads_assertion.mp reads
    rw [Option.isNone_iff_eq_none, List.getLast?_eq_none_iff] at start
    subst start
    exact reads
  · exact fun reads => ⟨[], value, rfl, reads_assertion.mpr ⟨rfl, reads⟩⟩

theorem word_upper (unit : UInt16) : isWordCharacter (upperCase unit) = isWordCharacter unit := by
  unfold upperCase
  split
  · rename_i lower
    obtain ⟨low, high⟩ := lower
    have back : (unit - 32).toNat = unit.toNat - 32 :=
      UInt16.toNat_sub_of_le _ _ (UInt16.le_trans (by decide) low)
    have small : unit.toNat ≤ 122 := high
    have large : 97 ≤ unit.toNat := low
    have letter : isWordCharacter unit = true := by simp [isWordCharacter, low, high]
    have capital : 65 ≤ unit - 32 ∧ unit - 32 ≤ 90 := by
      constructor
      · change 65 ≤ (unit - 32).toNat
        omega
      · change (unit - 32).toNat ≤ 90
        omega
    rw [letter]
    simp [isWordCharacter, capital]
  · rfl

theorem letter_word {letter : Char} {unit : UInt16} (same : isLetter letter unit = true) :
    isWordCharacter unit = isWordCharacter (unitOf letter) := by
  rw [← word_upper unit, beq_iff_eq.mp same, word_upper]

theorem IsWord.ends {word : String} {front : List (UInt16 → Bool)} {letter : Char}
    {text : JsString} (whole : IsWord word text) (split : anyCase word = front ++ [isLetter letter])
    (wordly : isWordCharacter (unitOf letter) = true) (previous : Option UInt16) :
    (text.getLast?.or previous).any isWordCharacter = true := by
  obtain ⟨spelled, exact_length⟩ := whole
  rw [split] at spelled exact_length
  obtain ⟨last, same, inside⟩ := spells_last spelled exact_length
  rw [same, Option.some_or, Option.any_some, letter_word inside, wordly]

theorem IsWord.starts {word : String} {back : List (UInt16 → Bool)} {letter : Char}
    {text : JsString} (whole : IsWord word text) (split : anyCase word = isLetter letter :: back)
    (wordly : isWordCharacter (unitOf letter) = true) (rest : JsString) :
    (text ++ rest).head?.any isWordCharacter = true := by
  obtain ⟨spelled, -⟩ := whole
  rw [split] at spelled
  cases text with
  | nil => cases spelled
  | cons next text =>
      rw [spells, Bool.and_eq_true] at spelled
      rw [List.cons_append, List.head?_cons, Option.any_some, letter_word spelled.1, wordly]

theorem boundary_after {previous next : Option UInt16}
    (word : previous.any isWordCharacter = true) :
    (previous.any isWordCharacter != next.any isWordCharacter) = true ↔
      next.any isWordCharacter = false := by
  rw [word]
  cases next.any isWordCharacter <;> decide

theorem boundary_before {previous next : Option UInt16} (word : next.any isWordCharacter = true) :
    (previous.any isWordCharacter != next.any isWordCharacter) = true ↔
      previous.any isWordCharacter = false := by
  rw [word]
  cases previous.any isWordCharacter <;> decide

theorem mime_ends {text : JsString} (mime : IsWord "pkcs7-mime" text)
    (previous : Option UInt16) : (text.getLast?.or previous).any isWordCharacter = true :=
  have split : anyCase "pkcs7-mime" = anyCase "pkcs7-mim" ++ [isLetter 'e'] := rfl
  mime.ends split (by decide) previous

theorem encrypted_ends {text : JsString} (word : IsWord "enveloped-data" text)
    (previous : Option UInt16) : (text.getLast?.or previous).any isWordCharacter = true :=
  have split : anyCase "enveloped-data" = anyCase "enveloped-dat" ++ [isLetter 'a'] := rfl
  word.ends split (by decide) previous

theorem parameter_starts {text : JsString} (named : IsWord "smime-type" text) (rest : JsString) :
    (text ++ rest).head?.any isWordCharacter = true :=
  have split : anyCase "smime-type" = isLetter 's' :: anyCase "mime-type" := rfl
  named.starts split (by decide) rest

theorem reads_enveloped {previous : Option UInt16} {value : JsString} :
    Reads envelopedPattern previous value ↔ Resembles value := by
  rw [envelopedPattern]
  constructor
  · intro reads
    obtain ⟨application, rest, rfl, isApplication, reads⟩ := reads_word.mp reads
    obtain ⟨x, rest, rfl, isX, reads⟩ := reads_optional.mp reads
    obtain ⟨mime, rest, rfl, isMime, reads⟩ := reads_word.mp reads
    obtain ⟨typeEnds, reads⟩ := reads_assertion.mp reads
    obtain ⟨middle, rest, rfl, ⟨-, inLine⟩, reads⟩ := reads_many.mp reads
    obtain ⟨nameStarts, reads⟩ := reads_assertion.mp reads
    obtain ⟨parameter, rest, rfl, named, reads⟩ := reads_word.mp reads
    obtain ⟨gap, rest, rfl, ⟨-, gapBlank⟩, reads⟩ := reads_many.mp reads
    obtain ⟨equals, rest, rfl, isEquals, reads⟩ := reads_one.mp reads
    obtain ⟨lead, rest, rfl, ⟨-, leadBlank⟩, reads⟩ := reads_many.mp reads
    obtain ⟨quote, rest, rfl, isQuote, reads⟩ := reads_optional.mp reads
    obtain ⟨word, rest, rfl, encrypted, reads⟩ := reads_word.mp reads
    obtain ⟨wordEnds, -⟩ := reads_assertion.mp reads
    obtain rfl : equals = unitOf '=' := beq_iff_eq.mp isEquals
    -- Both words are made of word characters, so each boundary tells what is beside its word.
    have outside := (boundary_after (mime_ends isMime _)).mp typeEnds
    have before := (boundary_before (parameter_starts named _)).mp nameStarts
    have some_middle : middle ≠ [] := by
      rintro rfl
      rw [List.getLast?_nil, Option.none_or, mime_ends isMime] at before
      cases before
    have quoted : quote = [] ∨ quote = js "\"" := by
      refine isQuote.imp id fun ⟨spelled, whole⟩ => ?_
      obtain ⟨unit, rfl⟩ := List.length_eq_one_iff.mp whole
      have same : isUnit '"' unit = true := by simpa [wordOf, spells] using spelled
      rw [beq_iff_eq.mp same]
      rfl
    have edges : middle.head?.any isWordCharacter = false ∧
        middle.getLast?.any isWordCharacter = false := by
      obtain ⟨first, others, rfl⟩ := List.exists_cons_of_ne_nil some_middle
      rw [List.getLast?_cons, Option.some_or] at before
      exact ⟨outside, by rwa [List.getLast?_cons]⟩
    exact ⟨⟨application, x, mime, middle, parameter, gap, lead, quote, word, rest,
      ⟨isApplication, isX, isMime⟩, ⟨some_middle, edges⟩, inLine, named,
      List.forall_mem_append.mpr ⟨gapBlank, leadBlank⟩, quoted, encrypted,
      (boundary_after (encrypted_ends encrypted _)).mp wordEnds⟩, rfl⟩
  · rintro ⟨found, rfl⟩
    obtain ⟨isApplication, isX, isMime⟩ := found.type
    obtain ⟨some_middle, outside, before⟩ := found.apart
    obtain ⟨gapBlank, leadBlank⟩ := List.forall_mem_append.mp found.blank
    obtain ⟨first, others, middle⟩ := List.exists_cons_of_ne_nil some_middle
    have isQuote : found.quote = [] ∨ spells (wordOf "\"") found.quote = true ∧
        found.quote.length = (wordOf "\"").length := by
      refine found.quoted.imp id fun same => ?_
      rw [same]
      exact ⟨by decide, rfl⟩
    refine reads_word.mpr ⟨found.application, _, rfl, isApplication, ?_⟩
    refine reads_optional.mpr ⟨found.x, _, rfl, isX, ?_⟩
    refine reads_word.mpr ⟨found.mime, _, rfl, isMime, ?_⟩
    refine reads_assertion.mpr ⟨(boundary_after (mime_ends isMime _)).mpr ?_, ?_⟩
    · rw [middle] at outside ⊢
      exact outside
    refine reads_many.mpr ⟨found.middle, _, rfl, ⟨Nat.zero_le _, found.inLine⟩, ?_⟩
    refine reads_assertion.mpr ⟨(boundary_before (parameter_starts found.named _)).mpr ?_, ?_⟩
    · rw [middle, List.getLast?_cons] at before ⊢
      exact before
    refine reads_word.mpr ⟨found.parameter, _, rfl, found.named, ?_⟩
    refine reads_many.mpr ⟨found.gap, _, rfl, ⟨Nat.zero_le _, gapBlank⟩, ?_⟩
    refine reads_one.mpr ⟨unitOf '=', _, rfl, beq_self_eq_true _, ?_⟩
    refine reads_many.mpr ⟨found.lead, _, rfl, ⟨Nat.zero_le _, leadBlank⟩, ?_⟩
    refine reads_optional.mpr ⟨found.quote, _, rfl, isQuote, ?_⟩
    refine reads_word.mpr ⟨found.word, found.rest, rfl, found.encrypted, ?_⟩
    exact reads_assertion.mpr
      ⟨(boundary_after (encrypted_ends found.encrypted _)).mpr found.ended, reads_end⟩

theorem mem_ways_field {pattern : List (Term UInt16)} {previous : Option UInt16}
    {rest : JsString} {lengths : List Nat} :
    lengths ∈ ways (contentTypeThen pattern) previous rest ↔
      previous.all isLineTerminator = true ∧ ∃ (field : TypeField) (others : List Nat),
        rest = field.text ∧ lengths = 0 :: (List.replicate field.name.length 1 ++
          field.gap.length :: 1 :: field.lead.length :: others) ∧
        others ∈ ways pattern (field.lead.getLast?.or (some (unitOf ':'))) field.value := by
  rw [contentTypeThen, lineStart, mem_ways_assertion]
  constructor
  · rintro ⟨lengths, rfl, starts, way⟩
    rw [List.append_assoc, mem_ways_literal] at way
    obtain ⟨name, rest, lengths, rfl, rfl, spelled, exact_length, way⟩ := way
    obtain ⟨gap, rest, lengths, rfl, rfl, ⟨-, gapBlank⟩, way⟩ := mem_ways_many.mp way
    obtain ⟨colon, rest, lengths, rfl, rfl, isColon, way⟩ := mem_ways_one.mp way
    obtain ⟨lead, value, others, rfl, rfl, ⟨-, leadBlank⟩, way⟩ := mem_ways_many.mp way
    obtain rfl : colon = unitOf ':' := beq_iff_eq.mp isColon
    let field : TypeField := ⟨name, gap, lead, value, spelled, exact_length,
      List.forall_mem_append.mpr ⟨gapBlank, leadBlank⟩⟩
    exact ⟨starts, field, others, rfl, by rw [← exact_length], way⟩
  · rintro ⟨starts, field, others, rfl, rfl, way⟩
    obtain ⟨gapBlank, leadBlank⟩ := List.forall_mem_append.mp field.blank
    refine ⟨_, rfl, starts, ?_⟩
    rw [List.append_assoc]
    refine mem_ways_literal.mpr ⟨field.name, _, _, rfl, by rw [field.exact_length],
      field.spelled, field.exact_length, ?_⟩
    refine mem_ways_many.mpr ⟨field.gap, _, _, rfl, rfl, ⟨Nat.zero_le _, gapBlank⟩, ?_⟩
    refine mem_ways_one.mpr ⟨unitOf ':', _, _, rfl, rfl, beq_self_eq_true _, ?_⟩
    exact mem_ways_many.mpr ⟨field.lead, _, _, rfl, rfl, ⟨Nat.zero_le _, leadBlank⟩, way⟩

theorem reads_field {pattern : List (Term UInt16)} {previous : Option UInt16} {rest : JsString} :
    Reads (contentTypeThen pattern) previous rest ↔
      previous.all isLineTerminator = true ∧ ∃ field : TypeField, rest = field.text ∧
        Reads pattern (field.lead.getLast?.or (some (unitOf ':'))) field.value := by
  constructor
  · rintro ⟨lengths, way⟩
    obtain ⟨starts, field, others, split, -, way⟩ := mem_ways_field.mp way
    exact ⟨starts, field, split, others, way⟩
  · rintro ⟨starts, field, split, others, way⟩
    exact ⟨_, mem_ways_field.mpr ⟨starts, field, others, split, rfl, way⟩⟩

theorem resembles_letter {value : JsString} (resembles : Resembles value) :
    ∃ first rest, value = first :: rest ∧ isLetter 'a' first = true := by
  obtain ⟨found, rfl⟩ := resembles
  have split : anyCase "application/" = isLetter 'a' :: anyCase "pplication/" := rfl
  obtain ⟨⟨spelled, -⟩, -⟩ := found.type
  rw [split] at spelled
  rw [Resemblance.text]
  cases application : found.application with
  | nil =>
      rw [application] at spelled
      cases spelled
  | cons first rest =>
      rw [application, spells, Bool.and_eq_true] at spelled
      exact ⟨first, _, rfl, spelled.1⟩

theorem not_white_letter {unit : UInt16} (letter : isLetter 'a' unit = true) :
    isWhiteSpace unit = false := by
  rw [isLetter, beq_iff_eq] at letter
  change upperCase unit = 65 at letter
  have either : unit = 97 ∨ unit = 65 := by
    unfold upperCase at letter
    split at letter
    · exact Or.inl (by rw [← UInt16.sub_add_cancel unit 32, letter]; rfl)
    · exact Or.inr letter
  rcases either with rfl | rfl <;> rfl

theorem last_group_concat (earlier : List Nat) {front taken later : JsString}
    (passed : earlier.sum = front.length) :
    lastGroup (earlier ++ [taken.length]) (front ++ (taken ++ later)) = taken := by
  rw [lastGroup, List.dropLast_concat, passed, List.drop_left, List.getLastD_concat,
    List.take_left]

theorem last_group_field {field : TypeField} {taken later : JsString}
    (split : field.value = taken ++ later) :
    lastGroup (0 :: (List.replicate field.name.length 1 ++
      [field.gap.length, 1, field.lead.length, taken.length])) field.text = taken := by
  have front : field.text = (field.name ++ (field.gap ++ unitOf ':' :: field.lead)) ++
      (taken ++ later) := by
    simp [TypeField.text, split]
  have passed : (0 :: (List.replicate field.name.length 1 ++
      [field.gap.length, 1, field.lead.length])).sum =
      (field.name ++ (field.gap ++ unitOf ':' :: field.lead)).length := by
    rw [List.sum_cons, List.sum_append, List.sum_replicate_nat]
    simp
    omega
  have grouped := @last_group_concat _ _ taken later passed
  rw [List.cons_append, List.append_assoc] at grouped
  rw [front]
  exact grouped

theorem match_field {previous : Option UInt16} {field : TypeField} {value after : JsString}
    (starts : previous.all isLineTerminator = true) (split : field.value = value ++ after)
    (some_value : value ≠ []) (black : value.head?.any isWhiteSpace = false)
    (inLine : ∀ unit ∈ value, isInLine unit = true) (ends : after.head?.any isInLine = false) :
    ∃ lengths, matchAt contentTypePattern previous field.text = some lengths ∧
      lastGroup lengths field.text = value := by
  obtain ⟨gapBlank, leadBlank⟩ := List.forall_mem_append.mp field.blank
  have head : field.value.head?.any isWhiteSpace = false := by
    obtain ⟨first, rest, same⟩ := List.exists_cons_of_ne_nil some_value
    rw [same] at black
    rw [split, same]
    exact black
  have found : matchAt contentTypePattern previous field.text =
      some (0 :: (List.replicate field.name.length 1 ++
        [field.gap.length, 1, field.lead.length, value.length])) := by
    rw [TypeField.text, contentTypePattern, contentTypeThen, List.append_assoc, field.exact_length]
    apply match_assertion starts
    apply match_word field.spelled field.exact_length
    apply match_greedy gapBlank (by rfl) (Nat.zero_le _)
    apply match_one (beq_self_eq_true _)
    apply match_greedy leadBlank head (Nat.zero_le _)
    rw [split]
    exact match_greedy inLine ends (List.length_pos_of_ne_nil some_value) rfl
  exact ⟨_, found, last_group_field split⟩

def TypeField.cut (field : TypeField) : TypeField :=
  { field with value := field.value.takeWhile isInLine }

theorem cut_text (field : TypeField) :
    field.cut.text ++ field.value.dropWhile isInLine = field.text := by
  simp only [TypeField.text, TypeField.cut, List.append_assoc, List.cons_append,
    List.takeWhile_append_dropWhile]

theorem resembles_black {value : JsString} (resembles : Resembles value) :
    value ≠ [] ∧ value.head?.any isWhiteSpace = false := by
  obtain ⟨first, rest, rfl, letter⟩ := resembles_letter resembles
  exact ⟨List.cons_ne_nil _ _, not_white_letter letter⟩

theorem reads_content_type {previous : Option UInt16} {rest : JsString} :
    Reads contentTypePattern previous rest ↔ previous.all isLineTerminator = true ∧
      ∃ field : TypeField, rest = field.text ∧ field.value.head?.any isInLine = true := by
  rw [contentTypePattern, reads_field]
  refine and_congr_right fun _ => exists_congr fun field => and_congr_right fun _ => ?_
  rw [reads_many]
  constructor
  · rintro ⟨taken, later, split, ⟨some_unit, inLine⟩, -⟩
    obtain ⟨first, others, rfl⟩ := List.exists_cons_of_ne_nil (List.length_pos_iff.mp some_unit)
    rw [split]
    exact inLine first List.mem_cons_self
  · intro inLine
    cases value : field.value with
    | nil => simp [value] at inLine
    | cons first others =>
        rw [value, List.head?_cons, Option.any_some] at inLine
        exact ⟨[first], others, rfl, ⟨Nat.le_refl 1, by simpa using inLine⟩, reads_end⟩

theorem first_field_found {head front after : JsString} {field : TypeField}
    (found : FirstField head front field after) (resembles : Resembles field.value) :
    rootContentType head = field.value := by
  obtain ⟨some_value, black⟩ := resembles_black resembles
  let whole : TypeField := { field with value := field.value ++ after }
  have same : whole.text = field.text ++ after := by simp [whole, TypeField.text]
  obtain ⟨lengths, matched, group⟩ := @match_field front.getLast? whole field.value after
    found.starts rfl some_value black found.inLine found.ends
  rw [same] at matched group
  have place : search contentTypePattern none head =
      some (front, lengths, field.text ++ after) := by
    refine search_some_iff.mpr ⟨found.split, by rwa [Option.or_none], ?_⟩
    intro earlier later split shorter
    rw [Option.or_none, reads_content_type]
    rintro ⟨starts, other, rfl, inLine⟩
    exact absurd (found.first earlier other split starts inLine) (Nat.not_le_of_lt shorter)
  rw [rootContentType, place]
  exact group

/-- The type of the root resembles an announcement exactly if the first field does. -/
theorem root_type_resembles {head : JsString} : Resembles (rootContentType head) ↔
    ∃ front field after, FirstField head front field after ∧ Resembles field.value := by
  constructor
  · intro resembles
    cases place : search contentTypePattern none head with
    | none =>
        rw [rootContentType, place] at resembles
        exact absurd rfl (resembles_black resembles).1
    | some found =>
        obtain ⟨front, lengths, rest⟩ := found
        obtain ⟨rfl, matched, leftmost⟩ := search_some_iff.mp place
        rw [Option.or_none] at matched
        obtain ⟨starts, field, others, rfl, rfl, way⟩ := mem_ways_field.mp (match_reads matched)
        obtain ⟨taken, later, none, split, rfl, ⟨-, taken_in⟩, last⟩ := mem_ways_many.mp way
        obtain rfl := List.mem_singleton.mp last
        have group : rootContentType (front ++ field.text) = taken := by
          rw [rootContentType, place]
          exact last_group_field split
        -- The group starts with a letter, so it is all of the value in this line.
        obtain ⟨first, rest, rfl, letter⟩ := resembles_letter (group ▸ resembles)
        have cut : field.value.takeWhile isInLine =
            first :: (rest ++ later).takeWhile isInLine := by
          rw [split, List.cons_append, List.takeWhile_cons, taken_in first List.mem_cons_self,
            if_pos rfl]
        have some_value : field.value.takeWhile isInLine ≠ [] := cut ▸ List.cons_ne_nil _ _
        have black : (field.value.takeWhile isInLine).head?.any isWhiteSpace = false := by
          rw [cut]
          exact not_white_letter letter
        obtain ⟨lengths, again, whole⟩ := match_field starts
          (List.takeWhile_append_dropWhile (p := isInLine)).symm some_value black
          (fun _ => List.mem_takeWhile_imp) (drop_while_ends isInLine field.value)
        have value : rootContentType (front ++ field.text) = field.cut.value := by
          rw [matched, Option.some.injEq] at again
          rw [group, ← last_group_field split, again, whole]
          rfl
        refine ⟨front, field.cut, field.value.dropWhile isInLine, ?_, value ▸ resembles⟩
        refine ⟨by rw [cut_text], starts, fun _ => List.mem_takeWhile_imp,
          drop_while_ends isInLine field.value, ?_⟩
        intro earlier other split starts inLine
        by_contra shorter
        have silent := leftmost earlier _ split (Nat.lt_of_not_le shorter)
        rw [Option.or_none] at silent
        exact silent (reads_content_type.mpr ⟨starts, other, rfl, inLine⟩)
  · rintro ⟨front, field, after, found, resembles⟩
    rwa [first_field_found found resembles]

theorem starts_empty_iff {text : JsString} : startsEmpty text = true ↔
    ∃ line_break rest, text = line_break ++ rest ∧ IsBreak line_break := by
  rw [startsEmpty, Option.isSome_iff_exists, match_some_iff, ← List.append_nil lineBreak,
    reads_break]
  constructor
  · rintro ⟨line_break, rest, split, breaks, -⟩
    exact ⟨line_break, rest, split, breaks⟩
  · rintro ⟨line_break, rest, split, breaks⟩
    exact ⟨line_break, rest, split, breaks, [], List.mem_singleton.mpr rfl⟩

theorem line_of (text : JsString) : ∃ line rest, text = line ++ rest ∧ unitOf '\n' ∉ line ∧
    (rest = [] ∨ startsEmpty rest = true) := by
  -- Every text starts with a line.
  induction text with
  | nil => exact ⟨[], [], rfl, List.not_mem_nil, Or.inl rfl⟩
  | cons next text ih =>
      cases here : startsEmpty (next :: text) with
      | true => exact ⟨[], next :: text, rfl, List.not_mem_nil, Or.inr here⟩
      | false =>
          obtain ⟨line, rest, rfl, outside, ends⟩ := ih
          refine ⟨next :: line, rest, rfl, ?_, ends⟩
          intro member
          rcases List.mem_cons.mp member with rfl | inside
          · exact Bool.false_ne_true (here.symm.trans
              (starts_empty_iff.mpr ⟨js "\n", line ++ rest, rfl, Or.inl rfl⟩))
          · exact outside inside

theorem not_word_outside {text : JsString} (ends : text.head?.any isInLine = false) :
    text.head?.any isWordCharacter = false := by
  cases text with
  | nil => rfl
  | cons first rest =>
      rw [List.head?_cons, Option.any_some, isInLine, Bool.not_eq_false', Bool.or_eq_true] at ends
      rcases ends with back | newline
      · obtain rfl : first = unitOf '\r' := beq_iff_eq.mp back
        rfl
      · obtain rfl : first = unitOf '\n' := beq_iff_eq.mp newline
        rfl

theorem resembles_extends {value tail : JsString} (ends : tail.head?.any isInLine = false)
    (resembles : Resembles value) : Resembles (value ++ tail) := by
  obtain ⟨found, rfl⟩ := resembles
  have ended : (found.rest ++ tail).head?.any isWordCharacter = false := by
    cases rest : found.rest with
    | nil => exact not_word_outside ends
    | cons first others =>
        have own := found.ended
        rwa [rest] at own
  exact ⟨{ found with rest := found.rest ++ tail, ended }, by simp [Resemblance.text]⟩

theorem field_of_block {data front after : JsString} {field : TypeField}
    (found : FirstField (unfoldText (headerBlock data)) front field after)
    (starts : front.getLast?.all isNewline = true)
    (same_line : unitOf '\n' ∉ field.gap ++ field.lead) {line rest : JsString}
    (split : after = line ++ rest) (outside : unitOf '\n' ∉ line)
    (ends : rest = [] ∨ startsEmpty rest = true) (announces : Announces (field.value ++ line)) :
    HeaderAnnounces data := by
  let whole : TypeField := { field with value := field.value ++ line }
  refine ⟨whole, ⟨front, rest, ?_, starts, ?_, ends⟩, announces⟩
  · rw [found.split, split]
    simp [whole, TypeField.text]
  · have name : unitOf '\n' ∉ field.name :=
      spells_excludes (avoids_iff.mp (by decide)) field.spelled field.exact_length
    have value : unitOf '\n' ∉ field.value := fun member => by cases found.inLine _ member
    have colon : unitOf '\n' ≠ unitOf ':' := by decide
    simp only [List.mem_append, not_or] at same_line
    simp [whole, TypeField.text, name, value, same_line, outside, colon]

def Unspaced (piece : String) : Prop :=
  wordOf piece ≠ [] ∧ ∀ set ∈ wordOf piece, set (unitOf ' ') = false

theorem unspaced_pkcs7 : Unspaced "pkcs7-mime" :=
  ⟨by decide, avoids_iff.mp (by decide)⟩

theorem unspaced_enveloped : Unspaced "enveloped-data" :=
  ⟨by decide, avoids_iff.mp (by decide)⟩

theorem lower_append (front back : JsString) : JsString.toLowerCase (front ++ back) =
    JsString.toLowerCase front ++ JsString.toLowerCase back :=
  List.flatMap_append

theorem includes_around {piece : String} (unspaced : Unspaced piece) (front back : JsString) :
    (front ++ (js " " ++ back)).includes piece = true ↔
      front.includes piece = true ∨ back.includes piece = true := by
  simp only [JsString.includes, test_literal]
  exact occurs_around unspaced.1 unspaced.2 front back

theorem includes_joined {piece : String} (unspaced : Unspaced piece) (texts : List JsString) :
    (JsString.toLowerCase (joined (js " ") texts)).includes piece = true ↔ Mention texts piece := by
  have absent : ¬ JsString.includes [] piece = true := by
    rw [JsString.includes, test_literal]
    exact not_occurs_nil unspaced.1
  induction texts with
  | nil => simpa [Mention, joined, JsString.toLowerCase] using absent
  | cons text rest ih =>
      cases rest with
      | nil => simp [Mention, joined]
      | cons second rest =>
          have split : joined (js " ") (text :: second :: rest) =
              text ++ (js " " ++ joined (js " ") (second :: rest)) := by
            rw [joined, List.intercalate_cons_cons, List.append_assoc]
            rfl
          have space : JsString.toLowerCase (js " ") = js " " := by decide
          rw [split, lower_append, lower_append, space, includes_around unspaced]
          exact (or_congr Iff.rfl ih).trans (by simp [Mention])

theorem mentions_both_iff (node : PartFields) :
    ((contentTypeOf node).includes "pkcs7-mime" && (contentTypeOf node).includes "enveloped-data") =
      true ↔ AnnounceBoth (contentTypeTexts node) := by
  have filtered : ∀ piece, Unspaced piece → ((contentTypeOf node).includes piece = true ↔
      Mention (contentTypeTexts node) piece) := by
    intro piece unspaced
    have absent : ¬ JsString.includes [] piece = true := by
      rw [JsString.includes, test_literal]
      exact not_occurs_nil unspaced.1
    rw [contentTypeOf, includes_joined unspaced]
    constructor
    · rintro ⟨text, member, found⟩
      exact ⟨text, (List.mem_filter.mp member).1, found⟩
    · rintro ⟨text, member, found⟩
      refine ⟨text, List.mem_filter.mpr ⟨member, ?_⟩, found⟩
      cases text with
      | nil => exact absurd found absent
      | cons next rest => rfl
  rw [Bool.and_eq_true, filtered _ unspaced_pkcs7, filtered _ unspaced_enveloped]
  rfl

mutual
theorem node_looks (root : MimePart) : nodeLooksEncryptedSmime root = true ↔
    ∃ part ∈ root.all, AnnounceBoth (contentTypeTexts part.fields) := by
  cases root with
  | part fields subParts =>
      rw [nodeLooksEncryptedSmime, Bool.or_eq_true, mentions_both_iff, some_looks subParts]
      simp [MimePart.all, MimePart.fields]

theorem some_looks (parts : List MimePart) : someLooksEncryptedSmime parts = true ↔
    ∃ part ∈ allParts parts, AnnounceBoth (contentTypeTexts part.fields) := by
  cases parts with
  | nil => simp [someLooksEncryptedSmime, allParts]
  | cons part rest =>
      rw [someLooksEncryptedSmime, Bool.or_eq_true, node_looks part, some_looks rest]
      simp only [allParts, List.mem_append, or_and_right, exists_or]
end

theorem text_resembles {text : JsString} : test (contentTypeThen envelopedPattern) text = true ↔
    ∃ front, ∃ field : TypeField, text = front ++ field.text ∧ lineStarts front = true ∧
      Resembles field.value := by
  rw [test_iff]
  constructor
  · rintro ⟨front, later, rfl, reads⟩
    obtain ⟨starts, field, rfl, value⟩ := reads_field.mp reads
    exact ⟨front, field, rfl, starts, reads_enveloped.mp value⟩
  · rintro ⟨front, field, rfl, starts, resembles⟩
    exact ⟨front, field.text, rfl, reads_field.mpr
      ⟨starts, field, rfl, reads_enveloped.mpr resembles⟩⟩

theorem root_type_in_text {text : JsString}
    (resembles : Resembles (rootContentType (firstPiece emptyLinePattern text))) :
    test (contentTypeThen envelopedPattern) text = true := by
  obtain ⟨front, field, after, found, resembles⟩ := root_type_resembles.mp resembles
  obtain ⟨later, split, ends⟩ := first_piece_split emptyLinePattern text
  have outside : (after ++ later).head?.any isInLine = false := by
    cases after with
    | cons first after => exact found.ends
    | nil =>
        rcases ends with rfl | ⟨previous, empty⟩
        · rfl
        · obtain ⟨line_break, other, rest, rfl, breaks, -⟩ := reads_empty_line.mp empty
          rcases breaks with rfl | rfl <;> rfl
  let whole : TypeField := { field with value := field.value ++ (after ++ later) }
  refine text_resembles.mpr ⟨front, whole, ?_, found.starts, resembles_extends outside resembles⟩
  rw [split, found.split]
  simp [whole, TypeField.text]

def parsedRoot (tree : Except JsString (Option MimePart)) : Option MimePart :=
  match tree with
  | .ok root => root
  | .error _ => none

section Decision
variable {streamed : JsString → Bool × JsString}
  {getMimeTree : JsString → Except JsString (Option MimePart)} {messageUri data : JsString}

theorem redirected_iff (some_uri : messageUri ≠ []) (answer : streamed messageUri = (true, data))
    (some_text : data ≠ []) :
    isEmbeddedEncryptedSmime streamed getMimeTree (some messageUri) = true ↔
      Resembles (rootContentType (unfoldText (headAsCut data))) ∨
        ∃ whole, parsedRoot (getMimeTree data) = some whole ∧ isRfc822 whole = true ∧
          (nodeLooksEncryptedSmime whole = true ∨
            test (contentTypeThen envelopedPattern) (unfoldText data) = true) := by
  rw [isEmbeddedEncryptedSmime, answer]
  dsimp only
  rw [first_piece_unfold, if_neg (by simp [some_uri, some_text]), ← reads_enveloped,
    ← encrypted_type_iff]
  cases first : encryptedType (rootContentType (unfoldText (headAsCut data))) with
  | true => simp
  | false =>
      rw [if_neg Bool.false_ne_true, or_iff_right Bool.false_ne_true]
      cases getMimeTree data with
      | error thrown => simp [parsedRoot]
      | ok root =>
          cases root with
          | none => simp [parsedRoot]
          | some whole => simp [parsedRoot, isRfc822]

end Decision

theorem cut_at_header_block {data : JsString} (starts : startsEmpty data = false)
    (black : ¬ BlankBody data) : headAsCut data = headerBlock data := by
  have header : headerBlock data = firstPiece emptyLinePattern data := by
    rw [headerBlock, starts, if_neg Bool.false_ne_true]
  rw [header]
  apply first_piece_less
  · intro previous rest left
    obtain ⟨line_break, other, later, split, breaks, again, -⟩ := reads_left_line.mp left
    exact reads_empty_line.mpr ⟨line_break, other, later, split, breaks, again⟩
  · intro front lengths later place
    obtain ⟨split, matched, -⟩ := search_some_iff.mp place
    obtain ⟨line_break, other, rest, rfl, breaks, again⟩ :=
      reads_empty_line.mp (match_some_iff.mp ⟨_, matched⟩)
    refine reads_left_line.mpr ⟨line_break, other, rest, rfl, breaks, again, ?_⟩
    rw [Bool.eq_false_iff]
    intro blank
    have block : headerBlock data = front := header.trans (first_piece_some place)
    exact black ⟨line_break, other, rest, block ▸ split, breaks, again, blank⟩

section Verdict
variable {streamed : JsString → Bool × JsString}
  {getMimeTree : JsString → Except JsString (Option MimePart)} {messageUri data : JsString}

theorem misread_iff : Misread data ↔
    ¬ HeaderAnnounces data ∧ Resembles (rootContentType (unfoldText (headAsCut data))) := by
  rw [root_type_resembles]
  constructor
  · rintro ⟨silent, front, field, after, found, resembles, -⟩
    exact ⟨silent, front, field, after, found, resembles⟩
  · rintro ⟨silent, front, field, after, found, resembles⟩
    refine ⟨silent, front, field, after, found, resembles, ?_⟩
    by_cases displaced : Displaced data front field
    · exact Or.inl displaced
    · have regular := displaced
      simp only [Displaced, not_or, Bool.not_eq_true, Bool.not_eq_false] at regular
      obtain ⟨starts, black, newline, same_line⟩ := regular
      rw [cut_at_header_block starts black] at found
      obtain ⟨line, rest, split, outside, ends⟩ := line_of after
      refine Or.inr ⟨line, rest, split, outside, ends, fun announces => silent ?_⟩
      exact field_of_block found newline same_line split outside ends announces

theorem overread_iff {whole : MimePart} : Overread data whole ↔
    (∀ part ∈ whole.all, ¬ PartAnnounces part) ∧ (nodeLooksEncryptedSmime whole = true ∨
      test (contentTypeThen envelopedPattern) (unfoldText data) = true) := by
  rw [Overread, node_looks, text_resembles]

theorem bare_redirected_iff (some_uri : messageUri ≠ [])
    (answer : streamed messageUri = (true, data)) (some_text : data ≠ [])
    (bare : (parsedRoot (getMimeTree data)).any isRfc822 = false) :
    isEmbeddedEncryptedSmime streamed getMimeTree (some messageUri) = true ↔
      Resembles (rootContentType (unfoldText (headAsCut data))) := by
  -- Unless the root wraps a message, the first test decides.
  rw [redirected_iff some_uri answer some_text, or_iff_left]
  rintro ⟨whole, same, embedded, -⟩
  rw [same, Option.any_some, embedded] at bare
  cases bare

/-- If it does, the two later tests decide. -/
theorem wrapped_redirected_iff (some_uri : messageUri ≠ [])
    (answer : streamed messageUri = (true, data)) (some_text : data ≠ []) {whole : MimePart}
    (root : parsedRoot (getMimeTree data) = some whole) (embedded : isRfc822 whole = true) :
    isEmbeddedEncryptedSmime streamed getMimeTree (some messageUri) = true ↔
      nodeLooksEncryptedSmime whole = true ∨
        test (contentTypeThen envelopedPattern) (unfoldText data) = true := by
  rw [redirected_iff some_uri answer some_text, ← first_piece_unfold]
  constructor
  · rintro (resembles | ⟨other, same, -, found⟩)
    · exact Or.inr (root_type_in_text resembles)
    · rwa [Option.some.inj (root.symm.trans same)]
  · exact fun found => Or.inr ⟨whole, root, embedded, found⟩

/-- An ordinary message keeps its Forward, and an embedded one is redirected for a header in it,
unless it is one of these. -/
theorem ordinary_kept_iff (some_uri : messageUri ≠ []) (answer : streamed messageUri = (true, data))
    (some_text : data ≠ []) :
    OrdinaryKept data (parsedRoot (getMimeTree data))
        (isEmbeddedEncryptedSmime streamed getMimeTree (some messageUri)) ↔
      ¬ Mistaken data (parsedRoot (getMimeTree data)) := by
  constructor
  · rintro kept (⟨bare, misread⟩ | ⟨whole, root, embedded, overread⟩)
    · obtain ⟨silent, resembles⟩ := misread_iff.mp misread
      have redirected := (bare_redirected_iff some_uri answer some_text bare).mpr resembles
      rw [kept.ordinary bare silent] at redirected
      cases redirected
    · obtain ⟨silent, found⟩ := overread_iff.mp overread
      have redirected := (wrapped_redirected_iff some_uri answer some_text root embedded).mpr found
      obtain ⟨part, member, announces⟩ := kept.embedded whole root embedded redirected
      exact silent part member announces
  · intro right
    refine ⟨fun bare silent => ?_, fun whole root embedded redirected => ?_⟩
    · rw [Bool.eq_false_iff, ne_eq, bare_redirected_iff some_uri answer some_text bare]
      exact fun resembles => right (Or.inl ⟨bare, misread_iff.mpr ⟨silent, resembles⟩⟩)
    · have found := (wrapped_redirected_iff some_uri answer some_text root embedded).mp redirected
      by_contra silent
      refine right (Or.inr ⟨whole, root, embedded, overread_iff.mpr ⟨?_, found⟩⟩)
      exact fun part member announces => silent ⟨part, member, announces⟩

end Verdict

def textPart : MimePart := .part ⟨[], js "text/plain", [], false, none, none⟩ []

def wrapperPart : MimePart := .part ⟨[], js "message/rfc822", [], false, none, none⟩ [textPart]

theorem plain_note_not_mistaken : ¬ Mistaken (js "Subject: x\r\n\r\nnote") (some textPart) := by
  have kept : OrdinaryKept (js "Subject: x\r\n\r\nnote") (some textPart)
      (isEmbeddedEncryptedSmime (fun _ => (true, js "Subject: x\r\n\r\nnote"))
        (fun _ => .ok (some textPart)) (some (js "mailbox://message/1"))) := by
    refine ⟨fun _ _ => by decide +kernel, fun whole same embedded => ?_⟩
    obtain rfl := Option.some.inj same
    cases embedded
  exact (@ordinary_kept_iff (fun _ => (true, js "Subject: x\r\n\r\nnote"))
    (fun _ => .ok (some textPart)) (js "mailbox://message/1") _ (by decide) rfl (by decide)).mp kept

def indentedNote : JsString := js ("Subject: x\r\n\r\n note\r\n" ++
  "Content-Type: application/pkcs7-mime; smime-type=enveloped-data\r\n")

def wrappedNote : JsString := js ("Content-Type: message/rfc822\r\n\r\nSubject: x\r\n\r\n" ++
  "Content-Type: application/pkcs7-mime; smime-type=enveloped-data\r\n")

theorem indented_note_silent : ¬ HeaderAnnounces indentedNote := by
  rintro ⟨field, ⟨front, rest, split, -⟩, -⟩
  have block : (unfoldText (headerBlock indentedNote)).length = 10 := by decide +kernel
  have name : field.name.length = 12 := field.exact_length
  rw [split, TypeField.text] at block
  simp only [List.length_append, List.length_cons] at block
  omega

def signedType : JsString := js ("application/pkcs7-mime; smime-type=signed-data; " ++
  "name=\"smime-type=enveloped-data\"")

def signedField : JsString := js "Content-Type" ++ (unitOf ':' :: unitOf ' ' :: signedType)

def signedMessage : JsString := signedField ++ js "\r\n\r\nsigned"

def signedPart : MimePart := .part ⟨[], signedType, [], false, none, none⟩ []

theorem only_line {line text : JsString} (single : unitOf '\n' ∉ text) (within : IsLine line text) :
    text = line := by
  obtain ⟨front, rest, rfl, starts, -, ends⟩ := within
  have no_front : front = [] := by
    rcases List.eq_nil_or_concat front with none | ⟨earlier, last, rfl⟩
    · exact none
    · rw [List.concat_eq_append, List.getLast?_concat, Option.all_some] at starts
      have newline : last = unitOf '\n' := beq_iff_eq.mp starts
      exact absurd (by simp [newline]) single
  have no_rest : rest = [] := by
    refine ends.resolve_right fun empty => ?_
    obtain ⟨line_break, later, rfl, breaks⟩ := starts_empty_iff.mp empty
    rcases breaks with rfl | rfl <;> simp [js] at single
  rw [no_front, no_rest, List.nil_append, List.append_nil]

theorem signed_value {field : TypeField} (text : signedField = field.text) :
    field.value = signedType ∨ field.value = unitOf ' ' :: signedType := by
  have lengths : (js "Content-Type").length = (anyCase "content-type").length := by
    decide +kernel
  have names := lengths.trans field.exact_length.symm
  obtain ⟨-, rest⟩ := List.append_inj text names
  obtain ⟨gapBlank, leadBlank⟩ := List.forall_mem_append.mp field.blank
  have colon : isWhiteSpace (unitOf ':') = false := by decide
  have letter : isWhiteSpace (unitOf 'a') = false := by decide
  have front : signedType = unitOf 'a' :: signedType.tail := by decide +kernel
  cases gap : field.gap with
  | cons first others =>
      rw [gap] at rest gapBlank
      rw [← (List.cons.inj rest).1] at gapBlank
      rw [gapBlank _ List.mem_cons_self] at colon
      cases colon
  | nil =>
      rw [gap] at rest
      have value := (List.cons.inj rest).2
      cases lead : field.lead with
      | nil =>
          rw [lead] at value
          exact Or.inr value.symm
      | cons blank others =>
          rw [lead] at value leadBlank
          have later := (List.cons.inj value).2
          cases others with
          | nil => exact Or.inl later.symm
          | cons second others =>
              rw [front] at later
              rw [← (List.cons.inj later).1] at leadBlank
              rw [leadBlank _ (List.mem_cons_of_mem _ List.mem_cons_self)] at letter
              cases letter

theorem signed_message_silent : ¬ HeaderAnnounces signedMessage := by
  rintro ⟨field, line, announces⟩
  have block : unfoldText (headerBlock signedMessage) = signedField := by decide +kernel
  rw [block] at line
  rcases signed_value (only_line (by decide +kernel) line) with value | value
  · rw [value] at announces
    exact absurd announces (by decide +kernel)
  · rw [value] at announces
    exact absurd announces (by decide +kernel)

/-- Both notes are redirected, and so is the signed message. -/
theorem notes_redirected :
    ¬ OrdinaryKept indentedNote (some textPart)
      (isEmbeddedEncryptedSmime (fun _ => (true, indentedNote)) (fun _ => .ok (some textPart))
        (some (js "mailbox://message/1"))) ∧
    ¬ OrdinaryKept wrappedNote (some wrapperPart)
      (isEmbeddedEncryptedSmime (fun _ => (true, wrappedNote)) (fun _ => .ok (some wrapperPart))
        (some (js "mailbox://message/2"))) ∧
    ¬ OrdinaryKept signedMessage (some signedPart)
      (isEmbeddedEncryptedSmime (fun _ => (true, signedMessage)) (fun _ => .ok (some signedPart))
        (some (js "mailbox://message/3"))) := by
  refine ⟨?_, ?_, ?_⟩
  · intro kept
    have redirected : isEmbeddedEncryptedSmime (fun _ => (true, indentedNote))
        (fun _ => .ok (some textPart)) (some (js "mailbox://message/1")) = true := by
      decide +kernel
    rw [kept.ordinary (by decide +kernel) indented_note_silent] at redirected
    cases redirected
  · intro kept
    have silent : ∀ part ∈ wrapperPart.all, ¬ PartAnnounces part := by decide +kernel
    obtain ⟨part, member, announces⟩ := kept.embedded _ rfl (by decide +kernel) (by decide +kernel)
    exact silent part member announces
  · intro kept
    have redirected : isEmbeddedEncryptedSmime (fun _ => (true, signedMessage))
        (fun _ => .ok (some signedPart)) (some (js "mailbox://message/3")) = true := by
      decide +kernel
    rw [kept.ordinary (by decide +kernel) signed_message_silent] at redirected
    cases redirected

end OsClientCerts
