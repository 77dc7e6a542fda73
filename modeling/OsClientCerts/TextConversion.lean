import OsClientCerts.JsStrings

/-!
Plain text to HTML and back, as forwarded messages are converted. What a text loses on
the way back is what looks like an entity in it: the ampersand is decoded first, so one
level of escaping too much is undone.
-/

namespace OsClientCerts
open RegularExpressions

def escape (text : JsString) : JsString :=
  replaceWord (wordOf ">") (js "&gt;")
    (replaceWord (wordOf "<") (js "&lt;") (replaceWord (wordOf "&") (js "&amp;") text))

def plainToHtml (text : JsString) : JsString := replaceAll lineBreak (js "<br>\n") (escape text)

def notGreater (unit : UInt16) : Bool := !isUnit '>' unit

/-- `<name[^>]*>[\s\S]*?</name>` with the flags `gi`. -/
def elementPattern (opening closing : String) : List (Term UInt16) :=
  literal (anyCase opening) ++ [.many notGreater 0 true, .one (isUnit '>')] ++
    [.many (fun _ => true) 0 false] ++ literal (anyCase closing)

/-- `<br\s*\/?>` with the flags `gi`. -/
def breakPattern : List (Term UInt16) :=
  literal (anyCase "<br") ++
    [.many isWhiteSpace 0 true, .optional (wordOf "/"), .one (isUnit '>')]

def tagPattern : List (Term UInt16) :=
  [.one (isUnit '<'), .many notGreater 1 true, .one (isUnit '>')]

def stripTags (html : JsString) : JsString :=
  let html := replaceAll (elementPattern "<style" "</style>") [] html
  let html := replaceAll (elementPattern "<script" "</script>") [] html
  let html := replaceAll breakPattern (js "\n") html
  let html := replaceWord (anyCase "</p>") (js "\n\n") html
  replaceAll tagPattern [] html

def decodeEntities (html : JsString) : JsString :=
  let html := replaceWord (anyCase "&nbsp;") (js " ") html
  let html := replaceWord (anyCase "&amp;") (js "&") html
  let html := replaceWord (anyCase "&lt;") (js "<") html
  let html := replaceWord (anyCase "&gt;") (js ">") html
  replaceWord (anyCase "&quot;") (js "\"") html

def blankLinesPattern : List (Term UInt16) := [.many isNewline 3 true]

def htmlToPlain (html : JsString) : JsString :=
  JsString.trim (replaceAll blankLinesPattern (js "\n\n") (decodeEntities (stripTags html)))

/-- The plain text body of step 3 of `rebuildForwardCompose`, with a chain of its own. -/
def rebuildPlainBody (headerPlain : JsString) (plainPart htmlPart : Option JsString) : JsString :=
  let content := match plainPart, htmlPart with
    | some plain, _ => plain
    | none, some html =>
        JsString.trim (replaceAll blankLinesPattern (js "\n\n") (decodeEntities (stripTags html)))
    | none, none => []
  headerPlain ++ if content.isEmpty then [] else js "\n\n" ++ content

def ampersand : UInt16 := unitOf '&'
def less : UInt16 := unitOf '<'
def greater : UInt16 := unitOf '>'

def escapeUnit (unit : UInt16) : JsString :=
  if unit = ampersand then js "&amp;"
  else if unit = less then js "&lt;"
  else if unit = greater then js "&gt;"
  else [unit]

def escapeAngle (unit : UInt16) : JsString :=
  if unit = less then js "&lt;" else if unit = greater then js "&gt;" else [unit]

def escapeGreater (unit : UInt16) : JsString := if unit = greater then js "&gt;" else [unit]

theorem replace_unit (letter : Char) (made text : JsString) :
    replaceWord [isUnit letter] made text =
      text.flatMap fun unit => if unit = unitOf letter then made else [unit] := by
  rw [replace_letter]
  congr 1
  funext unit
  simp [isUnit]

theorem escape_units (text : JsString) : escape text = text.flatMap escapeUnit := by
  have words : wordOf ">" = [isUnit '>'] ∧ wordOf "<" = [isUnit '<'] ∧ wordOf "&" = [isUnit '&'] :=
    ⟨rfl, rfl, rfl⟩
  rw [escape, words.1, words.2.1, words.2.2, replace_unit, replace_unit, replace_unit,
    List.flatMap_assoc, List.flatMap_assoc]
  congr 1
  funext unit
  unfold escapeUnit
  by_cases isAmpersand : unit = ampersand
  · subst isAmpersand
    decide
  · by_cases isLess : unit = less
    · subst isLess
      decide
    · have notAmpersand : ¬ unit = unitOf '&' := isAmpersand
      have notLess : ¬ unit = unitOf '<' := isLess
      rw [if_neg isAmpersand, if_neg isLess, if_neg notAmpersand, List.flatMap_singleton,
        if_neg notLess, List.flatMap_singleton]
      rfl

def decodeNamed (text : JsString) : JsString :=
  replaceWord (anyCase "&quot;") (js "\"") (replaceWord (anyCase "&gt;") (js ">")
    (replaceWord (anyCase "&lt;") (js "<") text))

theorem letter_cases (unit : UInt16) : unit = ampersand ∨ unit = less ∨ unit = greater ∨
    (unit ≠ ampersand ∧ unit ≠ less ∧ unit ≠ greater) := by
  by_cases isAmpersand : unit = ampersand
  · exact Or.inl isAmpersand
  · by_cases isLess : unit = less
    · exact Or.inr (Or.inl isLess)
    · by_cases isGreater : unit = greater
      · exact Or.inr (Or.inr (Or.inl isGreater))
      · exact Or.inr (Or.inr (Or.inr ⟨isAmpersand, isLess, isGreater⟩))

theorem escape_plain {unit : UInt16}
    (plain : unit ≠ ampersand ∧ unit ≠ less ∧ unit ≠ greater) : escapeUnit unit = [unit] := by
  rw [escapeUnit, if_neg plain.1, if_neg plain.2.1, if_neg plain.2.2]

theorem is_letter_mark {mark : Char} (below : (unitOf mark).toNat < 65) (unit : UInt16) :
    isLetter mark unit = isUnit mark unit := by
  -- Case does not matter to a mark.
  have own : upperCase (unitOf mark) = unitOf mark := by
    refine if_neg fun lower => ?_
    have large := UInt16.le_iff_toNat_le.mp lower.1
    change 97 ≤ _ at large
    omega
  have same : upperCase unit = unitOf mark ↔ unit = unitOf mark := by
    unfold upperCase
    by_cases lower : 97 ≤ unit ∧ unit ≤ 122
    · have large := UInt16.le_iff_toNat_le.mp lower.1
      change 97 ≤ _ at large
      rw [if_pos lower]
      constructor
      · intro shifted
        have less : (unit - 32).toNat = unit.toNat - 32 :=
          UInt16.toNat_sub_of_le _ _ (UInt16.le_iff_toNat_le.mpr (show 32 ≤ _ by omega))
        rw [shifted] at less
        omega
      · rintro rfl
        omega
    · rw [if_neg lower]
  rw [Bool.eq_iff_iff, isLetter, isUnit, beq_iff_eq, beq_iff_eq, own]
  exact same

theorem clear_plain {unit : UInt16} (other : unit ≠ ampersand) (name : String)
    (entity : anyCase name = isLetter '&' :: (anyCase name).tail) : clear (anyCase name) [unit] = true := by
  -- An entity starts with an ampersand.
  have apart : isLetter '&' unit = false := by
    rw [is_letter_mark (by decide), isUnit, beq_eq_false_iff_ne]
    exact other
  rw [entity, clear, clashes, apart]
  rfl

theorem clear_escape {name : String} (entity : anyCase name = isLetter '&' :: (anyCase name).tail)
    (pieces : ∀ piece ∈ [js "&amp;", js "&lt;", js "&gt;"], clear (anyCase name) piece = true)
    (unit : UInt16) : clear (anyCase name) (escapeUnit unit) = true := by
  rcases letter_cases unit with rfl | rfl | rfl | plain
  · exact pieces _ (List.mem_cons_self)
  · exact pieces _ (List.mem_cons_of_mem _ List.mem_cons_self)
  · exact pieces _ (List.mem_cons_of_mem _ (List.mem_cons_of_mem _ List.mem_cons_self))
  · rw [escape_plain plain]
    exact clear_plain plain.1 name entity

theorem decode_ampersand (text : JsString) :
    replaceWord (anyCase "&amp;") (js "&") (text.flatMap escapeUnit) =
      text.flatMap escapeAngle := by
  induction text with
  | nil => rfl
  | cons unit rest ih =>
      rw [List.flatMap_cons, List.flatMap_cons, ← ih]
      rcases letter_cases unit with rfl | rfl | rfl | plain
      · have spelled : spells (anyCase "&amp;") (js "&amp;") = true := by decide
        exact replace_word_hit (List.cons_ne_nil _ _) spelled rfl _
      · have passes : clear (anyCase "&amp;") (js "&lt;") = true := by decide
        exact replace_word_pass passes _
      · have passes : clear (anyCase "&amp;") (js "&gt;") = true := by decide
        exact replace_word_pass passes _
      · have same : escapeAngle unit = [unit] := by
          rw [escapeAngle, if_neg plain.2.1, if_neg plain.2.2]
        rw [escape_plain plain, same]
        exact replace_word_pass (clear_plain plain.1 _ rfl) _

theorem unescapes_less : Unescapes (anyCase "&lt;") less escapeAngle escapeGreater where
  some_letter := List.cons_ne_nil _ _
  spelled := by decide
  exact_length := by decide
  undone := by decide
  kept := by
    intro other notLess
    rw [escapeAngle, if_neg notLess, escapeGreater]
    refine ⟨rfl, ?_⟩
    by_cases isGreater : other = greater
    · subst isGreater
      exact Or.inr (by decide)
    · exact Or.inl (if_neg isGreater)
  plain := by
    intro other
    by_cases isLess : other = less
    · subst isLess
      exact Or.inr (avoids_iff.mp (by decide))
    · by_cases isGreater : other = greater
      · subst isGreater
        exact Or.inr (avoids_iff.mp (by decide))
      · exact Or.inl (by rw [escapeAngle, if_neg isLess, if_neg isGreater])
  starts := by
    intro other
    by_cases isLess : other = less
    · subst isLess
      exact Or.inr ⟨ampersand, (js "&lt;").tail, rfl, avoids_iff.mp (by decide)⟩
    · by_cases isGreater : other = greater
      · subst isGreater
        exact Or.inr ⟨ampersand, (js "&gt;").tail, rfl, avoids_iff.mp (by decide)⟩
      · exact Or.inl (by rw [escapeAngle, if_neg isLess, if_neg isGreater])

theorem unescapes_greater : Unescapes (anyCase "&gt;") greater escapeGreater fun unit => [unit] where
  some_letter := List.cons_ne_nil _ _
  spelled := by decide
  exact_length := by decide
  undone := rfl
  kept := by
    intro other notGreater
    rw [escapeGreater, if_neg notGreater]
    exact ⟨rfl, Or.inl rfl⟩
  plain := by
    intro other
    by_cases isGreater : other = greater
    · subst isGreater
      exact Or.inr (avoids_iff.mp (by decide))
    · exact Or.inl (if_neg isGreater)
  starts := by
    intro other
    by_cases isGreater : other = greater
    · subst isGreater
      exact Or.inr ⟨ampersand, (js "&gt;").tail, rfl, avoids_iff.mp (by decide)⟩
    · exact Or.inl (if_neg isGreater)

/-- Decoding what was escaped undoes the escape, and decodes once more what looks like an
entity in the text. -/
theorem decode_escape (text : JsString) : decodeEntities (escape text) = decodeNamed text := by
  have spaces : replaceWord (anyCase "&nbsp;") (js " ") (text.flatMap escapeUnit) =
      text.flatMap escapeUnit :=
    replace_word_pieces (List.cons_ne_nil _ _) fun unit _ =>
      @clear_escape "&nbsp;" rfl (by decide) unit
  have lesser := undo_escape unescapes_less text
  have greaters := undo_escape unescapes_greater (replaceWord (anyCase "&lt;") (js "<") text)
  unfold decodeEntities decodeNamed
  rw [escape_units]
  dsimp only
  rw [spaces, decode_ampersand]
  rw [show js "<" = [less] from rfl, show js ">" = [greater] from rfl] at *
  rw [lesser, greaters, List.flatMap_singleton']

def NamesEntity (text : JsString) : Prop :=
  ∃ name ∈ ["&lt;", "&gt;", "&quot;"], Occurs (anyCase name) text

theorem less_letters : anyCase "&lt;" ≠ [] := List.cons_ne_nil _ _
theorem greater_letters : anyCase "&gt;" ≠ [] := List.cons_ne_nil _ _
theorem quote_letters : anyCase "&quot;" ≠ [] := List.cons_ne_nil _ _

theorem decode_named_absent {text : JsString} (absent : ¬ NamesEntity text) :
    decodeNamed text = text := by
  have never (name : String) (listed : name ∈ ["&lt;", "&gt;", "&quot;"]) :
      ¬ Occurs (anyCase name) text := fun occurs => absent ⟨name, listed, occurs⟩
  rw [decodeNamed, replace_word_absent less_letters (never "&lt;" (by decide)),
    replace_word_absent greater_letters (never "&gt;" (by decide)),
    replace_word_absent quote_letters (never "&quot;" (by decide))]

theorem decode_named_shorter {text : JsString} (names : NamesEntity text) :
    (decodeNamed text).length < text.length := by
  -- An entity makes what comes back shorter.
  have less_made : (js "<").length < (anyCase "&lt;").length := by decide
  have greater_made : (js ">").length < (anyCase "&gt;").length := by decide
  have quote_made : (js "\"").length < (anyCase "&quot;").length := by decide
  have lesser := replace_word_length less_letters less_made text
  have greaters := replace_word_length greater_letters greater_made
  have quotes := replace_word_length quote_letters quote_made
  unfold decodeNamed
  -- The first of the three that is in the text is replaced by less.
  by_cases hasLess : Occurs (anyCase "&lt;") text
  · have shorter := replace_word_shorter less_letters less_made hasLess
    exact (quotes _).trans_lt ((greaters _).trans_lt shorter)
  rw [replace_word_absent less_letters hasLess]
  by_cases hasGreater : Occurs (anyCase "&gt;") text
  · have shorter := replace_word_shorter greater_letters greater_made hasGreater
    exact (quotes _).trans_lt shorter
  rw [replace_word_absent greater_letters hasGreater]
  obtain ⟨name, listed, occurs⟩ := names
  simp only [List.mem_cons, List.not_mem_nil, or_false] at listed
  rcases listed with rfl | rfl | rfl
  · exact absurd occurs hasLess
  · exact absurd occurs hasGreater
  · exact replace_word_shorter quote_letters quote_made occurs

theorem decode_escape_iff (text : JsString) :
    decodeEntities (escape text) = text ↔ ¬ NamesEntity text := by
  rw [decode_escape]
  constructor
  · intro same names
    have shorter := decode_named_shorter names
    rw [same] at shorter
    exact Nat.lt_irrefl _ shorter
  · exact decode_named_absent

theorem mem_decode_named {text : JsString} {unit : UInt16} (member : unit ∈ decodeNamed text) :
    unit ∈ js "<>\"" ∨ unit ∈ text := by
  rcases mem_replace_word quote_letters member with new | member
  · exact Or.inl (List.mem_cons_of_mem _ (List.mem_cons_of_mem _ new))
  rcases mem_replace_word greater_letters member with new | member
  · exact Or.inl (List.mem_cons_of_mem _ (List.mem_append_left _ new))
  rcases mem_replace_word less_letters member with new | member
  · exact Or.inl (List.mem_append_left (js ">\"") new)
  · exact Or.inr member

theorem mem_escape {text : JsString} {unit : UInt16} (member : unit ∈ escape text) :
    unit ∈ js "&amp;&lt;&gt;" ∨ (unit ∈ text ∧ unit ≠ less) := by
  rw [escape_units, List.mem_flatMap] at member
  obtain ⟨letter, inside, member⟩ := member
  rcases letter_cases letter with rfl | rfl | rfl | plain
  · exact Or.inl (List.mem_append_left (js "&lt;&gt;") member)
  · exact Or.inl (List.mem_append_left (js "&gt;") (List.mem_append_right (js "&amp;") member))
  · exact Or.inl (List.mem_append_right (js "&amp;&lt;") member)
  · rw [escape_plain plain, List.mem_singleton] at member
    exact Or.inr ⟨member ▸ inside, member ▸ plain.2.1⟩

theorem absent_unit {letter : Char} {text : JsString} (absent : unitOf letter ∉ text) :
    ∀ unit ∈ text, isUnit letter unit = false := by
  intro unit member
  rw [isUnit, beq_eq_false_iff_ne]
  rintro rfl
  exact absent member

theorem escape_no_break {text : JsString} (noBreak : unitOf '\n' ∉ text) :
    unitOf '\n' ∉ escape text := by
  intro member
  rcases mem_escape member with marks | inside
  · exact absurd marks (by decide)
  · exact noBreak inside.1

theorem plain_to_html {text : JsString} (noBreak : unitOf '\n' ∉ text) :
    plainToHtml text = escape text :=
  replace_absent ⟨.one isNewline, List.mem_cons_of_mem _ List.mem_cons_self, rfl⟩
    (absent_unit (escape_no_break noBreak)) _ _

theorem strip_tags {html : JsString} (noTag : less ∉ html) : stripTags html = html := by
  -- No tag starts without a less sign.
  have absent := @absent_unit '<' html noTag
  have letter (unit : UInt16) (member : unit ∈ html) : isLetter '<' unit = false :=
    (is_letter_mark (by decide) unit).trans (absent unit member)
  have tags (pattern : List (Term UInt16)) (made : JsString)
      (starts : Term.one (isLetter '<') ∈ pattern) : replaceAll pattern made html = html :=
    replace_absent ⟨_, starts, rfl⟩ letter made none
  have paragraph : replaceWord (anyCase "</p>") (js "\n\n") html = html :=
    tags (literal (anyCase "</p>")) _ List.mem_cons_self
  unfold stripTags
  dsimp only
  rw [tags (elementPattern "<style" "</style>") _ List.mem_cons_self,
    tags (elementPattern "<script" "</script>") _ List.mem_cons_self,
    tags breakPattern _ List.mem_cons_self, paragraph]
  exact replace_absent ⟨.one (isUnit '<'), List.mem_cons_self, rfl⟩ absent _ _

theorem decode_no_break {text : JsString} (noBreak : unitOf '\n' ∉ text) :
    replaceAll blankLinesPattern (js "\n\n") (decodeNamed text) = decodeNamed text := by
  apply replace_absent ⟨.many isNewline 3 true, List.mem_cons_self, rfl, by decide⟩
  apply absent_unit
  intro member
  rcases mem_decode_named member with marks | inside
  · exact absurd marks (by decide)
  · exact noBreak inside

theorem html_to_plain {text : JsString} (noBreak : unitOf '\n' ∉ text) :
    htmlToPlain (plainToHtml text) = (decodeNamed text).trim := by
  have noTag : less ∉ escape text := by
    intro member
    rcases mem_escape member with marks | inside
    · exact absurd marks (by decide)
    · exact inside.2 rfl
  rw [htmlToPlain, plain_to_html noBreak, strip_tags noTag, decode_escape, decode_no_break noBreak]

/-- Escaped once, a text over these names an entity exactly if it has an angle bracket. -/
theorem escaped_names_iff (text : JsString) :
    NamesEntity (escape text) ↔ less ∈ text ∨ greater ∈ text := by
  rw [escape_units]
  constructor
  · rintro ⟨name, listed, occurs⟩
    by_contra noAngle
    obtain ⟨noLess, noGreater⟩ := not_or.mp noAngle
    have only (unit : UInt16) (inside : unit ∈ text) : unit = ampersand ∨
        (unit ≠ ampersand ∧ unit ≠ less ∧ unit ≠ greater) := by
      rcases letter_cases unit with isAmpersand | rfl | rfl | plain
      · exact Or.inl isAmpersand
      · exact absurd inside noLess
      · exact absurd inside noGreater
      · exact Or.inr plain
    have passes (entity : anyCase name = isLetter '&' :: (anyCase name).tail)
        (apart : clear (anyCase name) (js "&amp;") = true) (unit : UInt16)
        (inside : unit ∈ text) : clear (anyCase name) (escapeUnit unit) = true := by
      rcases only unit inside with rfl | plain
      · exact apart
      · rw [escape_plain plain]
        exact clear_plain plain.1 name entity
    simp only [List.mem_cons, List.not_mem_nil, or_false] at listed
    rcases listed with rfl | rfl | rfl
    · exact not_occurs_pieces less_letters (passes rfl (by decide)) occurs
    · exact not_occurs_pieces greater_letters (passes rfl (by decide)) occurs
    · exact not_occurs_pieces quote_letters (passes rfl (by decide)) occurs
  · have occurs {unit : UInt16} (inside : unit ∈ text) {name : String}
        (spelled : spells (anyCase name) (escapeUnit unit) = true) :
        Occurs (anyCase name) (text.flatMap escapeUnit) := by
      obtain ⟨front, rest, rfl⟩ := List.append_of_mem inside
      refine ⟨front.flatMap escapeUnit, escapeUnit unit ++ rest.flatMap escapeUnit, ?_,
        spells_append spelled _⟩
      rw [List.flatMap_append, List.flatMap_cons]
    rintro (inside | inside)
    · exact ⟨"&lt;", by decide, occurs inside (by decide)⟩
    · exact ⟨"&gt;", by decide, occurs inside (by decide)⟩

theorem names_semicolon {text : JsString} (names : NamesEntity text) : unitOf ';' ∈ text := by
  -- Every entity ends in a semicolon.
  have ends {word : List (UInt16 → Bool)} (closed : isLetter ';' ∈ word) {rest : JsString}
      (spelled : spells word rest = true) : unitOf ';' ∈ rest := by
    induction word generalizing rest with
    | nil => cases closed
    | cons set word ih =>
        cases rest with
        | nil => cases spelled
        | cons unit rest =>
            rw [spells, Bool.and_eq_true] at spelled
            rcases List.mem_cons.mp closed with rfl | below
            · rw [is_letter_mark (by decide), isUnit, beq_iff_eq] at spelled
              rw [spelled.1]
              exact List.mem_cons_self
            · exact List.mem_cons_of_mem _ (ih below spelled.2)
  obtain ⟨name, listed, front, rest, rfl, spelled⟩ := names
  apply List.mem_append_right
  simp only [List.mem_cons, List.not_mem_nil, or_false] at listed
  rcases listed with rfl | rfl | rfl <;> exact ends (by simp [anyCase]) spelled

/-- Text survives the conversion exactly if nothing in it looks like an entity of an angle
bracket or a quote; one level of escaping is undone where there was only one. -/
theorem text_survives_iff (text : JsString) :
    (unitOf '\n' ∉ text → text.trim = text →
      (htmlToPlain (plainToHtml text) = text ↔ ¬ NamesEntity text)) ∧
    (∀ headerPlain html, rebuildPlainBody headerPlain none (some html) =
      rebuildPlainBody headerPlain (some (htmlToPlain html)) none) ∧
    (unitOf ';' ∉ text → decodeEntities (escape text) = text) ∧
    (decodeEntities (escape text) = text ↔ ¬ NamesEntity text) ∧
    (decodeEntities (escape (escape text)) = escape text ↔ less ∉ text ∧ greater ∉ text) := by
  refine ⟨fun noBreak trimmed => ?_, fun _ _ => rfl, fun closed => ?_, decode_escape_iff text, ?_⟩
  · rw [html_to_plain noBreak]
    constructor
    · intro same names
      have shorter := decode_named_shorter names
      have trimming := trim_length_le (decodeNamed text)
      rw [same] at trimming
      omega
    · intro absent
      rw [decode_named_absent absent, trimmed]
  · exact (decode_escape_iff text).mpr fun names => closed (names_semicolon names)
  · rw [decode_escape_iff, escaped_names_iff, not_or]

/-- A text about an entity comes back as a less sign, and so does a less sign escaped twice. -/
theorem entity_text_lost :
    (unitOf '\n' ∉ js "&lt;" ∧ (js "&lt;").trim = js "&lt;" ∧
      htmlToPlain (plainToHtml (js "&lt;")) = js "<") ∧
    decodeEntities (escape (escape (js "<"))) = js "<" ∧ escape (js "<") = js "&lt;" ∧
    js "&lt;" ≠ js "<" := by
  decide +kernel

end OsClientCerts
