import OsClientCerts.DecryptedFiles
import OsClientCerts.EnvelopeGuard
import OsClientCerts.HeaderUnfolding
import OsClientCerts.MarkupReadings
import OsClientCerts.TextConversion

/-!
The rebuilding of a forward from the decrypted message: a header of the fields, the text in
the format of the window, encryption, and the decrypted attachments. Any of the calls may
fail, and the others are made all the same.
-/

namespace OsClientCerts.ForwardDecrypt
open RegularExpressions MarkupReadings

/-- A message as `messages.get` describes it. A field that is not there is empty, and the
date is as the locale shows it. -/
structure MessageHeader where
  subject : JsString
  author : JsString
  date : JsString
  recipients : List JsString
  ccList : List JsString

def MessageHeader.empty : MessageHeader := ⟨[], [], [], [], []⟩

def isFilled (text : JsString) : Bool := !text.isEmpty

def MessageHeader.toList (msg : MessageHeader) : JsString :=
  joined (js ", ") (msg.recipients.filter isFilled)

def MessageHeader.ccText (msg : MessageHeader) : JsString :=
  joined (js ", ") (msg.ccList.filter isFilled)

def truthy (lines : List (Option JsString)) : List JsString :=
  lines.filterMap fun line => line.filter isFilled

def esc (text : JsString) : JsString := replaceWord (wordOf "\"") (js "&quot;") (escape text)

def plainLine (label : String) (value : JsString) : Option JsString :=
  if value.isEmpty then none else some (js label ++ js ": " ++ value)

def htmlLine (label : String) (value : JsString) : Option JsString :=
  if value.isEmpty then none
  else some (js "<tr><td style=\"padding:0 6px 0 0;font-weight:bold\">" ++ js label ++
    js ":</td><td>" ++ esc value ++ js "</td></tr>")

structure ForwardHeader where
  plain : JsString
  html : JsString

def buildForwardHeader (msg : MessageHeader) : ForwardHeader :=
  let plainLines := truthy [some (js "-------- Forwarded Message --------"),
    plainLine "Subject" msg.subject, plainLine "Date" msg.date, plainLine "From" msg.author,
    plainLine "To" msg.toList, plainLine "Cc" msg.ccText, some (js "--------"), some []]
  let htmlLines := truthy [some (js "<table style=\"border-collapse:collapse;border:none;margin:4px 0\">"),
    htmlLine "Subject" msg.subject, htmlLine "Date" msg.date, htmlLine "From" msg.author,
    htmlLine "To" msg.toList, htmlLine "Cc" msg.ccText, some (js "</table>")]
  ⟨joined (js "\n") plainLines, joined (js "\n") htmlLines⟩

structure InlinePart where
  contentType : JsString
  content : JsString

/-- The first part of each type, as far as the loop has come. -/
def pickPart (picked : Option InlinePart × Option InlinePart) (part : InlinePart) :
    Option InlinePart × Option InlinePart :=
  (if part.contentType == js "text/plain" && picked.1.isNone then some part else picked.1,
    if part.contentType == js "text/html" && picked.2.isNone then some part else picked.2)

def rebuildHtmlBody (headerHtml : JsString) (plainPart htmlPart : Option JsString) : JsString :=
  let content := match htmlPart, plainPart with
    | some html, _ => html
    | none, some plain => js "<pre style=\"white-space:pre-wrap;word-wrap:break-word\">" ++
        plainToHtml plain ++ js "</pre>"
    | none, none => []
  headerHtml ++ if content.isEmpty then [] else js "<br><br>" ++ content

structure EncryptionTechnology where
  name : JsString
  encryptBody : Bool
  signMessage : Bool
  deriving DecidableEq

structure ComposeFile where
  name : JsString
  bytes : List UInt8
  deriving DecidableEq

structure Draft where
  plainTextBody : JsString
  body : JsString
  selectedEncryptionTechnology : Option EncryptionTechnology
  attachments : List ComposeFile

structure ListedAttachment where
  name : JsString
  contentDisposition : JsString
  contentType : JsString

/-- How the calls are answered; those about an attachment, by its place in its list. -/
structure RebuildAnswers where
  message : Option MessageHeader
  inlineTextParts : Option (List InlinePart)
  listsWindow : Bool
  removes : Nat → Bool
  setsDetails : Bool
  attachments : Option (List ListedAttachment)
  getAttachmentFile : Nat → Option ComposeFile
  adds : Nat → Bool

def removeSmimeAttachments (removes : Nat → Bool) : Nat → List ComposeFile → List ComposeFile
  | _, [] => []
  | place, att :: rest =>
      let left := removeSmimeAttachments removes (place + 1) rest
      if isP7mAttachment att.name && removes place then left else att :: left

def isInlineImage (att : ListedAttachment) : Bool :=
  att.contentDisposition == js "inline" && !att.contentType.isEmpty && isImage att.contentType

def addDecrypted (answers : RebuildAnswers) : Nat → List ListedAttachment → Draft → Draft
  | _, [], draft => draft
  | place, att :: rest, draft =>
      if isP7mAttachment att.name || isInlineImage att then
        addDecrypted answers (place + 1) rest draft
      else match answers.getAttachmentFile place with
        | none => addDecrypted answers (place + 1) rest draft
        | some file =>
            let name := if att.name.isEmpty then file.name else att.name
            addDecrypted answers (place + 1) rest
              (if answers.adds place then
                { draft with attachments := draft.attachments ++ [⟨name, file.bytes⟩] }
              else draft)

def rebuildForwardCompose (answers : RebuildAnswers) (isPlainText : Bool) (draft : Draft) :
    Draft :=
  let msgHeader := answers.message.getD .empty
  let header := buildForwardHeader msgHeader
  let (plainPart, htmlPart) := (answers.inlineTextParts.getD []).foldl pickPart (none, none)
  let plain := plainPart.map InlinePart.content
  let html := htmlPart.map InlinePart.content
  let draft :=
    if answers.listsWindow then
      { draft with attachments := removeSmimeAttachments answers.removes 0 draft.attachments }
    else draft
  let draft :=
    if answers.setsDetails then
      let encryption : EncryptionTechnology := ⟨js "S/MIME", true, true⟩
      if isPlainText then
        { draft with
          plainTextBody := rebuildPlainBody header.plain plain html
          selectedEncryptionTechnology := some encryption }
      else
        { draft with
          body := rebuildHtmlBody header.html plain html
          selectedEncryptionTechnology := some encryption }
    else draft
  addDecrypted answers 0 (answers.attachments.getD []) draft

/-- What the page writes, as a reader of HTML takes it. -/
def htmlMarkup : Markup UInt16 :=
  ⟨less, greater, ampersand, [(js "amp;", ampersand), (js "lt;", less), (js "gt;", greater),
    (js "quot;", unitOf '"')]⟩

def escUnit (unit : UInt16) : JsString :=
  if unit = unitOf '"' then js "&quot;" else escapeUnit unit

theorem esc_units (text : JsString) : esc text = text.flatMap escUnit := by
  have word : wordOf "\"" = [isUnit '"'] := rfl
  rw [esc, word, replace_unit, escape_units, List.flatMap_assoc]
  congr 1
  funext unit
  rcases letter_cases unit with rfl | rfl | rfl | plain
  · decide
  · decide
  · decide
  · rw [escape_plain plain, List.flatMap_singleton, escUnit, escape_plain plain]

theorem plain_unit {unit : UInt16} (notLess : unit ≠ less) (notAmpersand : unit ≠ ampersand) :
    htmlMarkup.Plain unit :=
  ⟨notLess, notAmpersand⟩

theorem escape_read (unit : UInt16) : htmlMarkup.ReadAs (escapeUnit unit) [.letter unit] := by
  have apart : htmlMarkup.mark ≠ htmlMarkup.opening := by decide
  rcases letter_cases unit with rfl | rfl | rfl | plain
  · exact fun rest => Markup.read_reference apart rest rfl
  · exact fun rest => Markup.read_reference apart rest rfl
  · exact fun rest => Markup.read_reference apart rest rfl
  · rw [escape_plain plain]
    exact fun rest => Markup.read_plain (plain_unit plain.2.1 plain.1) rest

theorem esc_read (text : JsString) : htmlMarkup.ReadAs (esc text) (text.map .letter) := by
  rw [esc_units]
  refine Markup.ReadAs.text (fun unit => ?_) text
  unfold escUnit
  split
  · rename_i quote
    subst quote
    exact fun rest => Markup.read_reference (by decide) rest rfl
  · exact escape_read unit

theorem joined_cons (separator first : JsString) (rest : List JsString) :
    joined separator (first :: rest) = first ++ rest.flatMap fun line => separator ++ line := by
  induction rest generalizing first with
  | nil => simp [joined, List.intercalate, List.intersperse]
  | cons second rest ih =>
      have next := ih second
      simp only [joined, List.intercalate] at next ⊢
      simp [List.intersperse, next]

def headerFields (msg : MessageHeader) : List (String × JsString) :=
  [("Subject", msg.subject), ("Date", msg.date), ("From", msg.author), ("To", msg.toList),
    ("Cc", msg.ccText)]

def shownFields (msg : MessageHeader) : List (String × JsString) :=
  (headerFields msg).filter fun field => isFilled field.2

theorem truthy_filled {text : JsString} (filled : isFilled text = true)
    (rest : List (Option JsString)) : truthy (some text :: rest) = text :: truthy rest := by
  simp [truthy, filled, Option.filter]

theorem truthy_fields {line : String → JsString → Option JsString}
    {made : String → JsString → JsString}
    (lines : ∀ label value, line label value = if value.isEmpty then none else some (made label value))
    (filled : ∀ label value, isFilled (made label value) = true)
    (fields : List (String × JsString)) (rest : List (Option JsString)) :
    truthy (fields.map (fun field => line field.1 field.2) ++ rest) =
      (fields.filter fun field => isFilled field.2).map (fun field => made field.1 field.2) ++
        truthy rest := by
  induction fields with
  | nil => rfl
  | cons field fields ih =>
      rw [List.map_cons, List.cons_append, lines, List.filter_cons]
      cases empty : field.2.isEmpty with
      | true =>
          rw [if_pos rfl, if_neg (by simp [isFilled, empty]), ← ih]
          rfl
      | false =>
          rw [if_neg Bool.false_ne_true, if_pos (by simp [isFilled, empty]),
            truthy_filled (filled _ _), ih]
          rfl

theorem header_lines (line : String → JsString → Option JsString)
    (made : String → JsString → JsString) {first last : JsString}
    (lines : ∀ label value, line label value = if value.isEmpty then none else some (made label value))
    (filled : ∀ label value, isFilled (made label value) = true) (opens : isFilled first = true)
    (closes : isFilled last = true) (fields : List (String × JsString))
    (rest : List (Option JsString)) (blank : truthy rest = []) :
    joined (js "\n") (truthy (some first :: fields.map (fun field => line field.1 field.2) ++
      some last :: rest)) =
        first ++ (fields.filter fun field => isFilled field.2).flatMap
          (fun field => js "\n" ++ made field.1 field.2) ++ (js "\n" ++ last) := by
  rw [List.cons_append, truthy_filled opens, truthy_fields lines filled, truthy_filled closes,
    blank, joined_cons, List.flatMap_append, List.flatMap_map, List.flatMap_singleton,
    List.append_assoc]

theorem plain_header (msg : MessageHeader) : (buildForwardHeader msg).plain =
    js "-------- Forwarded Message --------" ++
      (shownFields msg).flatMap (fun field => js "\n" ++ (js field.1 ++ js ": " ++ field.2)) ++
        (js "\n" ++ js "--------") :=
  header_lines plainLine (fun label value => js label ++ js ": " ++ value) (fun _ _ => rfl)
    (fun label value => by simp [isFilled, js]) rfl rfl (headerFields msg) [some []] rfl

def letters (text : JsString) : List (Piece UInt16) := text.map .letter

def rowPieces (field : String × JsString) : List (Piece UInt16) :=
  [.tag (js "tr"), .tag (js "td style=\"padding:0 6px 0 0;font-weight:bold\"")] ++
    letters (js field.1 ++ js ":") ++ [.tag (js "/td"), .tag (js "td")] ++ letters field.2 ++
      [.tag (js "/td"), .tag (js "/tr")]

def headerPieces (msg : MessageHeader) : List (Piece UInt16) :=
  [.tag (js "table style=\"border-collapse:collapse;border:none;margin:4px 0\"")] ++
    (shownFields msg).flatMap (fun field => letters (js "\n") ++ rowPieces field) ++
      letters (js "\n") ++ [.tag (js "/table")]

def isTag (text inside : JsString) : Prop :=
  text = less :: inside ++ [greater] ∧ greater ∉ inside

theorem tag_read {text inside : JsString} (tag : isTag text inside) :
    htmlMarkup.ReadAs text [.tag inside] := by
  rw [tag.1]
  exact Markup.ReadAs.tag tag.2

instance (text inside : JsString) : Decidable (isTag text inside) :=
  inferInstanceAs (Decidable (text = less :: inside ++ [greater] ∧ greater ∉ inside))

theorem letters_read {text : JsString} (noLess : less ∉ text) (noAmpersand : ampersand ∉ text) :
    htmlMarkup.ReadAs text (letters text) :=
  Markup.ReadAs.plain fun _ member => plain_unit (fun same => noLess (same ▸ member))
    fun same => noAmpersand (same ▸ member)

def rowText (label : String) (value : JsString) : JsString :=
  js "<tr><td style=\"padding:0 6px 0 0;font-weight:bold\">" ++ js label ++ js ":</td><td>" ++
    esc value ++ js "</td></tr>"

theorem row_read {label : String} (noLess : less ∉ js label) (noAmpersand : ampersand ∉ js label)
    (value : JsString) : htmlMarkup.ReadAs (rowText label value) (rowPieces (label, value)) := by
  have opens : htmlMarkup.ReadAs (js "<tr><td style=\"padding:0 6px 0 0;font-weight:bold\">")
      [.tag (js "tr"), .tag (js "td style=\"padding:0 6px 0 0;font-weight:bold\"")] :=
    (@tag_read (js "<tr>") (js "tr") (by decide)).append
      (@tag_read (js "<td style=\"padding:0 6px 0 0;font-weight:bold\">") _ (by decide))
  have between : htmlMarkup.ReadAs (js ":</td><td>")
      (letters (js ":") ++ [.tag (js "/td"), .tag (js "td")]) :=
    (@letters_read (js ":") (by decide) (by decide)).append
      ((@tag_read (js "</td>") (js "/td") (by decide)).append
        (@tag_read (js "<td>") (js "td") (by decide)))
  have closes : htmlMarkup.ReadAs (js "</td></tr>") [.tag (js "/td"), .tag (js "/tr")] :=
    (@tag_read (js "</td>") (js "/td") (by decide)).append
      (@tag_read (js "</tr>") (js "/tr") (by decide))
  have whole := ((((opens.append (letters_read noLess noAmpersand)).append between).append
    (esc_read value)).append closes)
  simpa [rowText, rowPieces, letters, js] using whole

theorem html_header (msg : MessageHeader) : (buildForwardHeader msg).html =
    js "<table style=\"border-collapse:collapse;border:none;margin:4px 0\">" ++
      (shownFields msg).flatMap (fun field => js "\n" ++ rowText field.1 field.2) ++
        (js "\n" ++ js "</table>") :=
  header_lines htmlLine rowText (fun _ _ => rfl) (fun label value => by simp [isFilled, rowText, js])
    rfl rfl (headerFields msg) [] rfl

/-- Whatever is in the fields, the tags of the header are those of the table. -/
theorem header_read (msg : MessageHeader) :
    htmlMarkup.ReadAs (buildForwardHeader msg).html (headerPieces msg) := by
  have newline : htmlMarkup.ReadAs (js "\n") (letters (js "\n")) :=
    letters_read (by decide) (by decide)
  have labels : ∀ field ∈ headerFields msg, less ∉ js field.1 ∧ ampersand ∉ js field.1 := by
    simp only [headerFields, List.forall_mem_cons]
    decide
  have rows : htmlMarkup.ReadAs
      ((shownFields msg).flatMap fun field => js "\n" ++ rowText field.1 field.2)
      ((shownFields msg).flatMap fun field => letters (js "\n") ++ rowPieces field) := by
    refine Markup.ReadAs.flat_map fun field member => newline.append ?_
    obtain ⟨noLess, noAmpersand⟩ := labels field (List.mem_filter.mp member).1
    exact row_read noLess noAmpersand field.2
  have opens := @tag_read
    (js "<table style=\"border-collapse:collapse;border:none;margin:4px 0\">")
    (js "table style=\"border-collapse:collapse;border:none;margin:4px 0\"") (by decide)
  have closes := @tag_read (js "</table>") (js "/table") (by decide)
  rw [html_header]
  simpa [headerPieces] using (opens.append rows).append (newline.append closes)

def carriage : UInt16 := unitOf '\r'
def feed : UInt16 := unitOf '\n'

def breakText (made : JsString) : JsString → JsString
  | [] => []
  | unit :: rest =>
      if unit = carriage ∧ rest.head? = some feed then breakText made rest
      else if unit = feed then made ++ breakText made rest
      else unit :: breakText made rest

def textPieces : JsString → List (Piece UInt16)
  | [] => []
  | unit :: rest =>
      if unit = carriage ∧ rest.head? = some feed then textPieces rest
      else if unit = feed then .tag (js "br") :: .letter feed :: textPieces rest
      else .letter unit :: textPieces rest

theorem replace_break {line_break : JsString} (breaks : IsBreak line_break) (made rest : JsString) :
    replaceAll lineBreak made (line_break ++ rest) = made ++ replaceAll lineBreak made rest := by
  obtain ⟨lengths, found, whole⟩ : ∃ lengths,
      matchAt lineBreak none (line_break ++ rest) = some lengths ∧
        lengths.sum = line_break.length := by
    have ended : matchAt [] (some (unitOf '\n')) rest = some [] := rfl
    obtain ⟨lengths, found, whole⟩ := @match_break [] none rest line_break [] breaks ended
    exact ⟨lengths, found, whole⟩
  refine replace_hit (break_blind []) found whole ?_
  rcases breaks with rfl | rfl <;> exact List.cons_ne_nil _ _

theorem replace_breaks (made text : JsString) :
    replaceAll lineBreak made text = breakText made text := by
  fun_induction breakText made text with
  | case1 => rfl
  | case2 unit rest ended ih =>
      obtain ⟨rfl, head⟩ := ended
      obtain ⟨later, rfl⟩ : ∃ later, rest = feed :: later := by
        cases rest with
        | nil => cases head
        | cons next later => exact ⟨later, congrArg (· :: later) (Option.some.inj head)⟩
      rw [← ih]
      exact (replace_break (Or.inr rfl) made later).trans (replace_break (Or.inl rfl) made later).symm
  | case3 rest _ ih =>
      rw [← ih]
      exact replace_break (Or.inl rfl) made rest
  | case4 unit rest alone other ih =>
      rw [← ih]
      apply replace_miss (break_blind [])
      rw [match_none_reads]
      intro reads
      obtain ⟨line_break, later, split, breaks, _⟩ :=
        (@reads_break [] none (unit :: rest)).mp reads
      rcases breaks with rfl | rfl
      · exact other (List.cons.inj split).1
      · obtain ⟨first, rfl⟩ := List.cons.inj split
        exact alone ⟨first, rfl⟩

theorem escape_head (text : JsString) :
    (text.flatMap escapeUnit).head? = some feed ↔ text.head? = some feed := by
  cases text with
  | nil => rfl
  | cons unit rest =>
      have escaped : some ampersand ≠ some feed := by decide
      rcases letter_cases unit with rfl | rfl | rfl | plain
      · exact Iff.rfl
      · exact iff_of_false escaped (show some less ≠ some feed by decide)
      · exact iff_of_false escaped (show some greater ≠ some feed by decide)
      · rw [List.flatMap_cons, escape_plain plain]
        rfl

theorem break_text_front (made : JsString) {front : JsString} (noCarriage : carriage ∉ front)
    (noFeed : feed ∉ front) (rest : JsString) :
    breakText made (front ++ rest) = front ++ breakText made rest := by
  induction front with
  | nil => rfl
  | cons unit front ih =>
      have notCarriage : unit ≠ carriage := fun same => noCarriage (same ▸ List.mem_cons_self)
      have notFeed : unit ≠ feed := fun same => noFeed (same ▸ List.mem_cons_self)
      rw [List.cons_append, breakText, if_neg fun both => notCarriage both.1, if_neg notFeed,
        ih (fun member => noCarriage (List.mem_cons_of_mem unit member))
          fun member => noFeed (List.mem_cons_of_mem unit member), List.cons_append]

theorem escape_unit_front {unit : UInt16} (notCarriage : unit ≠ carriage) (notFeed : unit ≠ feed) :
    carriage ∉ escapeUnit unit ∧ feed ∉ escapeUnit unit := by
  rcases letter_cases unit with rfl | rfl | rfl | plain
  · decide
  · decide
  · decide
  · rw [escape_plain plain]
    exact ⟨fun member => notCarriage (List.mem_singleton.mp member).symm,
      fun member => notFeed (List.mem_singleton.mp member).symm⟩

theorem plain_to_html_read (text : JsString) :
    htmlMarkup.ReadAs (plainToHtml text) (textPieces text) := by
  have brTag : htmlMarkup.ReadAs (js "<br>\n") [.tag (js "br"), .letter feed] :=
    (@tag_read (js "<br>") (js "br") (by decide)).append
      (@letters_read (js "\n") (by decide) (by decide))
  rw [plainToHtml, replace_breaks, escape_units]
  fun_induction textPieces text with
  | case1 => exact Markup.ReadAs.nil
  | case2 unit rest ended ih =>
      obtain ⟨rfl, head⟩ := ended
      have same : breakText (js "<br>\n") ((carriage :: rest).flatMap escapeUnit) =
          breakText (js "<br>\n") (rest.flatMap escapeUnit) := by
        change breakText _ (carriage :: rest.flatMap escapeUnit) = _
        rw [breakText, if_pos ⟨rfl, (escape_head rest).mpr head⟩]
      rw [same]
      exact ih
  | case3 rest _ ih =>
      change htmlMarkup.ReadAs (breakText _ (feed :: rest.flatMap escapeUnit)) _
      rw [breakText, if_neg fun both => absurd both.1 (by decide), if_pos rfl]
      exact brTag.append ih
  | case4 unit rest alone other ih =>
      have same : breakText (js "<br>\n") ((unit :: rest).flatMap escapeUnit) =
          escapeUnit unit ++ breakText (js "<br>\n") (rest.flatMap escapeUnit) := by
        rw [List.flatMap_cons]
        by_cases isCarriage : unit = carriage
        · subst isCarriage
          change breakText _ (carriage :: rest.flatMap escapeUnit) = carriage :: _
          rw [breakText, if_neg fun both => alone ⟨rfl, (escape_head rest).mp both.2⟩, if_neg other]
          rfl
        · obtain ⟨noCarriage, noFeed⟩ := escape_unit_front isCarriage other
          exact break_text_front _ noCarriage noFeed _
      rw [same]
      exact (escape_read unit).append ih

def firstOf (contentType : String) (parts : List InlinePart) : Option InlinePart :=
  parts.find? fun part => part.contentType == js contentType

theorem pick_parts (parts : List InlinePart) (picked : Option InlinePart × Option InlinePart) :
    parts.foldl pickPart picked =
      (picked.1.or (firstOf "text/plain" parts), picked.2.or (firstOf "text/html" parts)) := by
  induction parts generalizing picked with
  | nil => simp [firstOf]
  | cons part rest ih =>
      rw [List.foldl_cons, ih]
      obtain ⟨plain, html⟩ := picked
      have one : ∀ (found : Option InlinePart) (contentType : String),
          (if part.contentType == js contentType && found.isNone then some part else found).or
            (firstOf contentType rest) = found.or (firstOf contentType (part :: rest)) := by
        intro found contentType
        rw [firstOf, firstOf, List.find?_cons]
        cases found <;> cases part.contentType == js contentType <;> rfl
      exact Prod.ext (one plain "text/plain") (one html "text/html")

/-- What the page shows of the decrypted text, its source being the HTML part, if there is
one, and the plain part otherwise. An HTML part that is empty hides the plain part. -/
def contentPieces (plainPart htmlPart : Option JsString) : List (Piece UInt16) :=
  match htmlPart, plainPart with
  | some html, _ => if html.isEmpty then [] else
      [.tag (js "br"), .tag (js "br")] ++ htmlMarkup.read html
  | none, some plain => [.tag (js "br"), .tag (js "br"),
      .tag (js "pre style=\"white-space:pre-wrap;word-wrap:break-word\"")] ++ textPieces plain ++
        [.tag (js "/pre")]
  | none, none => []

theorem html_body_read (msg : MessageHeader) (plainPart htmlPart : Option JsString) :
    htmlMarkup.read (rebuildHtmlBody (buildForwardHeader msg).html plainPart htmlPart) =
      headerPieces msg ++ contentPieces plainPart htmlPart := by
  have breaks : htmlMarkup.ReadAs (js "<br><br>") [.tag (js "br"), .tag (js "br")] :=
    (@tag_read (js "<br>") (js "br") (by decide)).append
      (@tag_read (js "<br>") (js "br") (by decide))
  unfold rebuildHtmlBody contentPieces
  rw [header_read msg]
  congr 1
  cases htmlPart with
  | some html =>
      cases empty : html.isEmpty with
      | true => simp [empty]
      | false =>
          simp only [empty, Bool.false_eq_true, if_false]
          exact breaks html
  | none =>
      cases plainPart with
      | none => rfl
      | some plain =>
          have opens := @tag_read
            (js "<pre style=\"white-space:pre-wrap;word-wrap:break-word\">")
            (js "pre style=\"white-space:pre-wrap;word-wrap:break-word\"") (by decide)
          have closes := @tag_read (js "</pre>") (js "/pre") (by decide)
          have whole := (opens.append (plain_to_html_read plain)).append closes
          have filled : (js "<pre style=\"white-space:pre-wrap;word-wrap:break-word\">" ++
              plainToHtml plain ++ js "</pre>").isEmpty = false := rfl
          simp only [filled, Bool.false_eq_true, if_false]
          rw [breaks, whole.whole]
          simp

def keptFiles (answers : RebuildAnswers) (files : List ComposeFile) : List ComposeFile :=
  if answers.listsWindow then
    (files.zipIdx.filter fun (file, place) =>
      !(isP7mAttachment file.name && answers.removes place)).map Prod.fst
  else files

def addedFile (answers : RebuildAnswers) : ListedAttachment × Nat → Option ComposeFile
  | (att, place) =>
      if isP7mAttachment att.name || isInlineImage att || !answers.adds place then none
      else (answers.getAttachmentFile place).map fun file =>
        ⟨if att.name.isEmpty then file.name else att.name, file.bytes⟩

theorem remove_smime (removes : Nat → Bool) (place : Nat) (files : List ComposeFile) :
    removeSmimeAttachments removes place files =
      ((files.zipIdx place).filter fun (file, place) =>
        !(isP7mAttachment file.name && removes place)).map Prod.fst := by
  induction files generalizing place with
  | nil => rfl
  | cons file rest ih =>
      simp only [removeSmimeAttachments, List.zipIdx_cons, List.filter_cons, ih]
      cases isP7mAttachment file.name && removes place <;> rfl

theorem add_decrypted (answers : RebuildAnswers) (place : Nat) (listed : List ListedAttachment)
    (draft : Draft) : addDecrypted answers place listed draft =
      { draft with attachments :=
          draft.attachments ++ (listed.zipIdx place).filterMap (addedFile answers) } := by
  induction listed generalizing place draft with
  | nil => simp [addDecrypted]
  | cons att rest ih =>
      rw [addDecrypted, List.zipIdx_cons, List.filterMap_cons]
      by_cases skipped : (isP7mAttachment att.name || isInlineImage att) = true
      · rw [if_pos skipped, ih, addedFile, skipped, Bool.true_or, if_pos rfl]
      · rw [if_neg skipped]
        have open_ := Bool.eq_false_iff.mpr skipped
        cases fetched : answers.getAttachmentFile place with
        | none =>
            have nothing : addedFile answers (att, place) = none := by
              simp [addedFile, fetched]
            rw [nothing]
            exact ih (place + 1) draft
        | some file =>
            cases adds : answers.adds place with
            | false => simp [ih, addedFile, open_, adds]
            | true => simp [ih, addedFile, open_, adds, fetched]

def RebuildAnswers.header (answers : RebuildAnswers) : MessageHeader :=
  answers.message.getD .empty

def RebuildAnswers.text (answers : RebuildAnswers) (contentType : String) : Option JsString :=
  (firstOf contentType (answers.inlineTextParts.getD [])).map InlinePart.content

theorem rebuild_eq (answers : RebuildAnswers) (isPlainText : Bool) (draft : Draft) :
    rebuildForwardCompose answers isPlainText draft =
      { plainTextBody := if answers.setsDetails && isPlainText then
          rebuildPlainBody (buildForwardHeader answers.header).plain (answers.text "text/plain")
            (answers.text "text/html") else draft.plainTextBody
        body := if answers.setsDetails && !isPlainText then
          rebuildHtmlBody (buildForwardHeader answers.header).html (answers.text "text/plain")
            (answers.text "text/html") else draft.body
        selectedEncryptionTechnology := if answers.setsDetails then
          some ⟨js "S/MIME", true, true⟩ else draft.selectedEncryptionTechnology
        attachments := keptFiles answers draft.attachments ++
          (answers.attachments.getD []).zipIdx.filterMap (addedFile answers) } := by
  simp only [rebuildForwardCompose, pick_parts, add_decrypted, Option.none_or, keptFiles,
    remove_smime]
  cases answers.setsDetails <;> cases isPlainText <;> cases answers.listsWindow <;> rfl

/-- An envelope that is left was there, and was not taken off; or it was listed without a name. -/
theorem envelope_left {answers : RebuildAnswers} {isPlainText : Bool} {draft : Draft}
    {file : ComposeFile} (member : file ∈ (rebuildForwardCompose answers isPlainText draft).attachments)
    (envelope : isP7mAttachment file.name = true) :
    (∃ place : Nat, draft.attachments[place]? = some file ∧
      (answers.listsWindow = true → answers.removes place = false)) ∨
    ∃ (place : Nat) (att : ListedAttachment), (answers.attachments.getD [])[place]? = some att ∧
      att.name = [] ∧ answers.getAttachmentFile place = some file := by
  rw [rebuild_eq] at member
  rcases List.mem_append.mp member with kept | added
  · left
    unfold keptFiles at kept
    split at kept
    · obtain ⟨⟨other, place⟩, listed, rfl⟩ := List.mem_map.mp kept
      obtain ⟨inside, stays⟩ := List.mem_filter.mp listed
      refine ⟨place, List.mem_zipIdx_iff_getElem?.mp inside, fun _ => ?_⟩
      simpa [envelope] using stays
    · rename_i unlisted
      obtain ⟨place, found⟩ := List.mem_iff_getElem?.mp kept
      exact ⟨place, found, fun listed => absurd listed unlisted⟩
  · right
    obtain ⟨⟨att, place⟩, inside, made⟩ := List.mem_filterMap.mp added
    refine ⟨place, att, List.mem_zipIdx_iff_getElem?.mp inside, ?_⟩
    by_cases closed : (isP7mAttachment att.name || isInlineImage att || !answers.adds place) = true
    · rw [addedFile, if_pos closed] at made
      cases made
    · rw [addedFile, if_neg closed] at made
      obtain ⟨fetched, found, rfl⟩ := Option.map_eq_some_iff.mp made
      cases name : att.name with
      | nil =>
          simp only [List.isEmpty_nil, if_true]
          exact ⟨trivial, found⟩
      | cons first rest =>
          simp only [name, List.isEmpty_cons, Bool.false_eq_true, if_false] at envelope
          simp [name, envelope] at closed

/-- The forward that is rebuilt, whichever of the calls fail: its attachments, its body, and
what a reader of HTML makes of the header in front of it. -/
theorem rebuilt_forward (answers : RebuildAnswers) (draft : Draft) :
    (∀ isPlainText, (rebuildForwardCompose answers isPlainText draft).attachments =
      keptFiles answers draft.attachments ++
        (answers.attachments.getD []).zipIdx.filterMap (addedFile answers)) ∧
    (∀ isPlainText, ∀ file ∈ (rebuildForwardCompose answers isPlainText draft).attachments,
      isP7mAttachment file.name = true →
        (∃ place : Nat, draft.attachments[place]? = some file ∧
          (answers.listsWindow = true → answers.removes place = false)) ∨
        ∃ (place : Nat) (att : ListedAttachment), (answers.attachments.getD [])[place]? = some att ∧
          att.name = [] ∧ answers.getAttachmentFile place = some file) ∧
    (∀ isPlainText, (rebuildForwardCompose answers isPlainText draft).selectedEncryptionTechnology =
      if answers.setsDetails then some ⟨js "S/MIME", true, true⟩
      else draft.selectedEncryptionTechnology) ∧
    (if answers.setsDetails then
      htmlMarkup.read (rebuildForwardCompose answers false draft).body =
        headerPieces answers.header ++
          contentPieces (answers.text "text/plain") (answers.text "text/html") ∧
      (rebuildForwardCompose answers true draft).plainTextBody =
        rebuildPlainBody (js "-------- Forwarded Message --------" ++
          (shownFields answers.header).flatMap
            (fun field => js "\n" ++ (js field.1 ++ js ": " ++ field.2)) ++
          (js "\n" ++ js "--------")) (answers.text "text/plain") (answers.text "text/html")
    else ∀ isPlainText,
      (rebuildForwardCompose answers isPlainText draft).body = draft.body ∧
      (rebuildForwardCompose answers isPlainText draft).plainTextBody = draft.plainTextBody) := by
  refine ⟨fun isPlainText => by rw [rebuild_eq], fun isPlainText file member envelope =>
    envelope_left member envelope, fun isPlainText => by rw [rebuild_eq], ?_⟩
  cases sets : answers.setsDetails with
  | true =>
      simp only [if_true]
      constructor
      · simp only [rebuild_eq, sets, Bool.not_false, Bool.and_true, if_true]
        exact html_body_read answers.header _ _
      · simp only [rebuild_eq, sets, Bool.and_true, if_true, plain_header]
  | false =>
      simp only [Bool.false_eq_true, if_false]
      intro isPlainText
      simp [rebuild_eq, sets]

end OsClientCerts.ForwardDecrypt
