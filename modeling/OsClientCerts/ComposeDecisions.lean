import OsClientCerts.ComposeTabs
import OsClientCerts.EncryptedForwards
import OsClientCerts.EnvelopeGuard

/-!
What the background page does with a compose tab, from the answers to its questions: the
details of the tab, the marker of a redirected Forward, and the parts of the message, which
are walked to any depth.
-/

namespace OsClientCerts.ForwardDecrypt
open RegularExpressions

/-- What the page reads of a part that the messages API shows. -/
structure ShownFields where
  contentType : Option JsString
  /-- The values of the header of the same name. -/
  contentTypeHeader : Option (List JsString)
  decryptionStatus : Option JsString

inductive MessagePart where
  | part (fields : ShownFields) (parts : List MessagePart)

def MessagePart.fields : MessagePart → ShownFields
  | .part fields _ => fields

def MessagePart.parts : MessagePart → List MessagePart
  | .part _ parts => parts

def subPath (path : JsString) (i : Nat) : JsString :=
  if path.isEmpty then decimal (i + 1) else path ++ (js "." ++ decimal (i + 1))

mutual
def walkParts (path : JsString) : MessagePart → List (MessagePart × JsString)
  | .part fields parts => (.part fields parts, path) :: walkSubs path 0 parts

def walkSubs (path : JsString) (i : Nat) : List MessagePart → List (MessagePart × JsString)
  | [] => []
  | sub :: rest => walkParts (subPath path i) sub ++ walkSubs path (i + 1) rest
end

def partLooksSmimeEncrypted (part : ShownFields) : Bool :=
  let ct := JsString.toLowerCase (part.contentType.getD [])
  let hdr := JsString.toLowerCase (joined (js " ") (part.contentTypeHeader.getD []))
  let blob := ct ++ (js " " ++ hdr)
  blob.includes "pkcs7-mime" && blob.includes "enveloped-data"

/-! What `messages.getFull` answers: no part if it fails. -/

def isSmimeEncrypted (raw : Option MessagePart) : Bool :=
  raw.any fun root => (walkParts [] root).any fun visit => partLooksSmimeEncrypted visit.1.fields

/-- The copy of the function in `lib.js`, which the tests run; it looks at the root only. -/
def Lib.isSmimeEncrypted (raw : Option MessagePart) : Bool :=
  raw.any fun root => partLooksSmimeEncrypted root.fields

def getRootContentType (raw : Option MessagePart) : Option JsString :=
  (raw.bind fun root => root.fields.contentType).filter fun type => !type.isEmpty

def canDecrypt (full : Option MessagePart) : Bool :=
  full.any fun root => root.fields.decryptionStatus == some (js "success")

def isEmbeddedContainer (raw : Option MessagePart) : Bool :=
  JsString.toLowerCase ((getRootContentType raw).getD []) == js "message/rfc822"

structure ComposeDetails where
  type : JsString
  relatedMessageId : Option Nat

structure TabAnswers where
  selfOpened : Bool
  details : Option ComposeDetails
  /-- The marker, if the privileged script is there to ask. -/
  marker : Option Bool
  rootRead : Option MessagePart
  raw : Option MessagePart
  full : Option MessagePart
  /-- Whether `handleExperimentReplyTab` succeeds. -/
  handled : Bool

/-- What the page does: it takes the marker, hands the tab to `handleExperimentReplyTab`,
calls `rebuildForwardCompose`, and sets sweeps. -/
structure TabEffects where
  takesMarker : Bool
  handed : Bool
  rebuilt : Bool
  sweeps : Nat
  deriving DecidableEq

namespace TabAnswers

/-- The part of `processComposeTab` that a reply comes to only if its cleaning failed. -/
def processForward (answers : TabAnswers) (details : ComposeDetails) (effects : TabEffects) :
    TabEffects :=
  if !(details.type == js "forward") then effects
  else if !isSmimeEncrypted answers.raw then effects
  else if !canDecrypt answers.full then effects
  else if isEmbeddedContainer answers.rootRead then effects
  else { effects with rebuilt := true, sweeps := 2 }

def processComposeTab (answers : TabAnswers) : TabEffects :=
  let untouched : TabEffects := ⟨false, false, false, 0⟩
  if answers.selfOpened then untouched
  else match answers.details with
    | none => untouched
    | some details =>
        if details.relatedMessageId.isNone then untouched
        else if details.type == js "reply" then
          let taken := { untouched with takesMarker := answers.marker.isSome }
          if !answers.marker.getD false then taken
          else if !isEmbeddedContainer answers.rootRead || !isSmimeEncrypted answers.raw ||
              !canDecrypt answers.full then taken
          else
            let handed := { taken with handed := true }
            if answers.handled then handed else answers.processForward details handed
        else answers.processForward details untouched

def Opened (answers : TabAnswers) (type : String) : Prop :=
  answers.selfOpened = false ∧ ∃ related, answers.details = some ⟨js type, some related⟩

end TabAnswers

def MessagePart.partAt : MessagePart → List Nat → Option MessagePart
  | root, [] => some root
  | root, i :: rest =>
      match root.parts[i]? with
      | some sub => sub.partAt rest
      | none => none

def extendPath : JsString → List Nat → JsString
  | path, [] => path
  | path, i :: rest => extendPath (subPath path i) rest

mutual
theorem walk_iff (root : MessagePart) (path : JsString) (part : MessagePart) (shown : JsString) :
    (part, shown) ∈ walkParts path root ↔
      ∃ place, root.partAt place = some part ∧ shown = extendPath path place := by
  cases root with
  | part fields parts =>
      rw [walkParts, List.mem_cons, walk_subs_iff]
      constructor
      · rintro (same | ⟨i, sub, place, held, found, rfl⟩)
        · obtain ⟨rfl, rfl⟩ := Prod.mk.inj same
          exact ⟨[], rfl, rfl⟩
        · refine ⟨i :: place, ?_, by rw [extendPath, Nat.zero_add]⟩
          simp [MessagePart.partAt, MessagePart.parts, held, found]
      · rintro ⟨place, found, rfl⟩
        cases place with
        | nil =>
            left
            cases found
            rfl
        | cons i place =>
            right
            simp only [MessagePart.partAt, MessagePart.parts] at found
            cases held : parts[i]? with
            | none => simp [held] at found
            | some sub =>
                rw [held] at found
                exact ⟨i, sub, place, held, found, by rw [extendPath, Nat.zero_add]⟩

theorem walk_subs_iff (parts : List MessagePart) (path : JsString) (first : Nat)
    (part : MessagePart) (shown : JsString) :
    (part, shown) ∈ walkSubs path first parts ↔
      ∃ (i : Nat) (sub : MessagePart) (place : List Nat), parts[i]? = some sub ∧
        sub.partAt place = some part ∧ shown = extendPath (subPath path (first + i)) place := by
  cases parts with
  | nil => simp [walkSubs]
  | cons sub rest =>
      rw [walkSubs, List.mem_append, walk_iff sub, walk_subs_iff rest]
      constructor
      · rintro (⟨place, found, rfl⟩ | ⟨i, other, place, held, found, rfl⟩)
        · exact ⟨0, sub, place, rfl, found, rfl⟩
        · exact ⟨i + 1, other, place, held, found, by rw [Nat.add_right_comm, Nat.add_assoc]⟩
      · rintro ⟨i, other, place, held, found, rfl⟩
        cases i with
        | zero =>
            obtain rfl : sub = other := by simpa using held
            exact Or.inl ⟨place, found, rfl⟩
        | succ i =>
            exact Or.inr ⟨i, other, place, held, found, by rw [Nat.add_right_comm, Nat.add_assoc]⟩
end

def dotted (place : List Nat) : JsString :=
  place.flatMap fun i => unitOf '.' :: decimal (i + 1)

theorem decimal_nonempty (number : Nat) : decimal number ≠ [] := by
  intro empty
  have zero : number = 0 := by rw [← Guarded.decimal_back number, empty]; rfl
  subst zero
  cases empty

theorem dot_not_decimal (number : Nat) : unitOf '.' ∉ decimal number := by
  intro member
  exact absurd (Guarded.decimal_digit member).1 (by decide)

theorem split_dot (number : Nat) (rest : List Nat) :
    (decimal number ++ dotted rest).takeWhile (fun unit => unit ≠ unitOf '.') = decimal number ∧
      (decimal number ++ dotted rest).dropWhile (fun unit => unit ≠ unitOf '.') = dotted rest := by
  have digits : ∀ unit ∈ decimal number, decide (unit ≠ unitOf '.') = true := by
    intro unit member
    refine decide_eq_true fun dot => dot_not_decimal number ?_
    exact dot ▸ member
  rw [List.takeWhile_append_of_pos digits, List.dropWhile_append_of_pos digits]
  cases rest with
  | nil => simp [dotted]
  | cons i rest => simp [dotted]

theorem split_dot_injective {first second : Nat} {rest later : List Nat}
    (same : decimal first ++ dotted rest = decimal second ++ dotted later) :
    first = second ∧ dotted rest = dotted later := by
  have numbers := (split_dot first rest).1
  have paths := (split_dot first rest).2
  rw [same, (split_dot second later).1] at numbers
  rw [same, (split_dot second later).2] at paths
  exact ⟨(Guarded.decimal_injective numbers).symm, paths.symm⟩

theorem dotted_injective {first second : List Nat} (same : dotted first = dotted second) :
    first = second := by
  induction first generalizing second with
  | nil =>
      cases second with
      | nil => rfl
      | cons i rest => cases same
  | cons i rest ih =>
      cases second with
      | nil => cases same
      | cons j later =>
          obtain ⟨numbers, paths⟩ := split_dot_injective (List.cons.inj same).2
          rw [Nat.succ.inj numbers, ih paths]

theorem extend_nonempty (place : List Nat) {path : JsString} (some_letter : path ≠ []) :
    extendPath path place = path ++ dotted place := by
  induction place generalizing path with
  | nil => simp [extendPath, dotted]
  | cons i rest ih =>
      have below : subPath path i = path ++ (js "." ++ decimal (i + 1)) := by
        simp [subPath, some_letter]
      rw [extendPath, below, ih (by simp [some_letter])]
      simp [dotted, js]

theorem extend_root (i : Nat) (rest : List Nat) :
    extendPath [] (i :: rest) = decimal (i + 1) ++ dotted rest :=
  extend_nonempty rest (decimal_nonempty (i + 1))

theorem extend_injective {path : JsString} {first second : List Nat}
    (same : extendPath path first = extendPath path second) : first = second := by
  by_cases root : path = []
  · subst root
    cases first with
    | nil =>
        cases second with
        | nil => rfl
        | cons i rest =>
            rw [extend_root] at same
            exact absurd (List.append_eq_nil_iff.mp same.symm).1 (decimal_nonempty _)
    | cons i rest =>
        cases second with
        | nil =>
            rw [extend_root] at same
            exact absurd (List.append_eq_nil_iff.mp same).1 (decimal_nonempty _)
        | cons j later =>
            rw [extend_root, extend_root] at same
            obtain ⟨numbers, paths⟩ := split_dot_injective same
            rw [Nat.succ.inj numbers, dotted_injective paths]
  · rw [extend_nonempty first root, extend_nonempty second root] at same
    exact dotted_injective (List.append_cancel_left same)

mutual
theorem walk_nodup (root : MessagePart) (path : JsString) :
    ((walkParts path root).map Prod.snd).Nodup := by
  cases root with
  | part fields parts =>
      rw [walkParts, List.map_cons, List.nodup_cons]
      refine ⟨?_, walk_subs_nodup parts path 0⟩
      intro member
      obtain ⟨⟨part, shown⟩, visited, same⟩ := List.mem_map.mp member
      obtain ⟨i, sub, place, -, -, rfl⟩ := (walk_subs_iff parts path 0 part shown).mp visited
      have places : (0 + i) :: place = [] := @extend_injective path _ _ same
      cases places

theorem walk_subs_nodup (parts : List MessagePart) (path : JsString) (first : Nat) :
    ((walkSubs path first parts).map Prod.snd).Nodup := by
  cases parts with
  | nil => exact List.nodup_nil
  | cons sub rest =>
      rw [walkSubs, List.map_append, List.nodup_append]
      refine ⟨walk_nodup sub _, walk_subs_nodup rest path (first + 1), ?_⟩
      intro shown here other there
      rintro rfl
      obtain ⟨⟨part, shown⟩, visited, rfl⟩ := List.mem_map.mp here
      obtain ⟨⟨other, _⟩, later, same⟩ := List.mem_map.mp there
      obtain ⟨place, -, rfl⟩ := (walk_iff sub _ part shown).mp visited
      obtain ⟨i, _, below, -, -, rfl⟩ := (walk_subs_iff rest path (first + 1) other _).mp later
      have places : (first + 1 + i) :: below = first :: place :=
        @extend_injective path _ _ same
      have indices := (List.cons.inj places).1
      omega
end

def ShownFields.texts (part : ShownFields) : List JsString :=
  part.contentType.getD [] :: part.contentTypeHeader.getD []

theorem looks_iff (part : ShownFields) :
    partLooksSmimeEncrypted part = true ↔ AnnounceBoth part.texts := by
  have either : ∀ piece, Unspaced piece →
      ((JsString.toLowerCase (part.contentType.getD []) ++ (js " " ++
        JsString.toLowerCase (joined (js " ") (part.contentTypeHeader.getD [])))).includes piece =
          true ↔ Mention part.texts piece) := by
    intro piece unspaced
    rw [includes_around unspaced, includes_joined unspaced]
    simp [Mention, ShownFields.texts]
  rw [partLooksSmimeEncrypted, Bool.and_eq_true, either _ unspaced_pkcs7,
    either _ unspaced_enveloped]
  rfl

def EncryptedBelow (root : MessagePart) : Prop :=
  ∃ place part, root.partAt place = some part ∧ AnnounceBoth part.fields.texts

theorem smime_encrypted_iff (raw : Option MessagePart) :
    isSmimeEncrypted raw = true ↔ ∃ root, raw = some root ∧ EncryptedBelow root := by
  rw [isSmimeEncrypted, Option.any_eq_true]
  refine exists_congr fun root => and_congr_right fun _ => ?_
  rw [List.any_eq_true]
  constructor
  · rintro ⟨⟨part, shown⟩, visited, looks⟩
    obtain ⟨place, found, -⟩ := (walk_iff root [] part shown).mp visited
    exact ⟨place, part, found, (looks_iff part.fields).mp looks⟩
  · rintro ⟨place, part, found, both⟩
    exact ⟨(part, extendPath [] place), (walk_iff root [] part _).mpr ⟨place, found, rfl⟩,
      (looks_iff part.fields).mpr both⟩

/-- The page finds what the tested copy finds, and what is announced below the root. -/
theorem tested_copy_iff (root : MessagePart) : isSmimeEncrypted (some root) = true ↔
    Lib.isSmimeEncrypted (some root) = true ∨
      ∃ i place part, root.partAt (i :: place) = some part ∧ AnnounceBoth part.fields.texts := by
  rw [smime_encrypted_iff, Lib.isSmimeEncrypted, Option.any_some, looks_iff]
  simp only [Option.some.injEq, exists_eq_left']
  constructor
  · rintro ⟨place, part, found, both⟩
    cases place with
    | nil =>
        obtain rfl : root = part := Option.some.inj found
        exact Or.inl both
    | cons i place => exact Or.inr ⟨i, place, part, found, both⟩
  · rintro (both | ⟨i, place, part, found, both⟩)
    · exact ⟨[], root, rfl, both⟩
    · exact ⟨i :: place, part, found, both⟩

structure SameTypes (node : MimePart) (root : MessagePart) : Prop where
  shown : ∀ sub ∈ node.all, ∃ place part, root.partAt place = some part ∧
    ∀ piece, Mention (contentTypeTexts sub.fields) piece ↔ Mention part.fields.texts piece
  parsed : ∀ place part, root.partAt place = some part → ∃ sub ∈ node.all,
    ∀ piece, Mention (contentTypeTexts sub.fields) piece ↔ Mention part.fields.texts piece

theorem scripts_agree {node : MimePart} {root : MessagePart} (same : SameTypes node root) :
    isSmimeEncrypted (some root) = nodeLooksEncryptedSmime node := by
  rw [Bool.eq_iff_iff, node_looks, smime_encrypted_iff]
  simp only [Option.some.injEq, exists_eq_left']
  constructor
  · rintro ⟨place, part, found, pkcs7, enveloped⟩
    obtain ⟨sub, member, mention⟩ := same.parsed place part found
    exact ⟨sub, member, (mention _).mpr pkcs7, (mention _).mpr enveloped⟩
  · rintro ⟨sub, member, pkcs7, enveloped⟩
    obtain ⟨place, part, found, mention⟩ := same.shown sub member
    exact ⟨place, part, found, (mention _).mp pkcs7, (mention _).mp enveloped⟩

namespace TabAnswers

def passes (answers : TabAnswers) : Check → Bool
  | .details => !answers.selfOpened && answers.details.any fun details =>
      details.relatedMessageId.isSome && details.type == js "forward"
  | .smimeEncrypted => isSmimeEncrypted answers.raw
  | .decryptable => canDecrypt answers.full
  | .rootType => !isEmbeddedContainer answers.rootRead

def checks : List Check := [.details, .smimeEncrypted, .decryptable, .rootType]

variable (answers : TabAnswers)

theorem process_forward (details : ComposeDetails) (effects : TabEffects) :
    answers.processForward details effects =
      if details.type == js "forward" && (answers.passes .smimeEncrypted &&
          (answers.passes .decryptable && answers.passes .rootType)) then
        { effects with rebuilt := true, sweeps := 2 }
      else effects := by
  unfold processForward passes
  cases details.type == js "forward" <;> cases isSmimeEncrypted answers.raw <;>
    cases canDecrypt answers.full <;> cases isEmbeddedContainer answers.rootRead <;> rfl

def Readable : Prop :=
  isEmbeddedContainer answers.rootRead = true ∧
    (∃ root, answers.raw = some root ∧ EncryptedBelow root) ∧ canDecrypt answers.full = true

variable {answers}

theorem readable_iff : answers.Readable ↔ (!isEmbeddedContainer answers.rootRead ||
    !isSmimeEncrypted answers.raw || !canDecrypt answers.full) = false := by
  rw [Readable, ← smime_encrypted_iff]
  cases isEmbeddedContainer answers.rootRead <;> cases isSmimeEncrypted answers.raw <;>
    cases canDecrypt answers.full <;> simp

theorem process_reply (opened : answers.Opened "reply") :
    answers.processComposeTab.takesMarker = answers.marker.isSome ∧
      (answers.processComposeTab.handed = true ↔ answers.marker = some true ∧ answers.Readable) ∧
      answers.processComposeTab.rebuilt = false ∧ answers.processComposeTab.sweeps = 0 := by
  obtain ⟨page, related, details⟩ := opened
  have failed : ∀ effects, answers.processForward ⟨js "reply", some related⟩ effects = effects := by
    intro effects
    rw [process_forward]
    rfl
  have same : (js "reply" == js "reply") = true := by decide
  simp only [processComposeTab, page, details, failed, ite_self, same, readable_iff]
  cases marked : answers.marker with
  | none => simp
  | some pending =>
      cases pending with
      | false => simp
      | true =>
          cases !isEmbeddedContainer answers.rootRead || !isSmimeEncrypted answers.raw ||
            !canDecrypt answers.full <;> simp

theorem process_other {type : JsString} {related : Nat} (page : answers.selfOpened = false)
    (found : answers.details = some ⟨type, some related⟩) (notReply : type ≠ js "reply") :
    answers.processComposeTab.takesMarker = false ∧ answers.processComposeTab.handed = false ∧
      (answers.processComposeTab.rebuilt = true ↔ type = js "forward" ∧
        (∃ root, answers.raw = some root ∧ EncryptedBelow root) ∧
          canDecrypt answers.full = true ∧ isEmbeddedContainer answers.rootRead = false) ∧
      answers.processComposeTab.sweeps = if answers.processComposeTab.rebuilt then 2 else 0 := by
  have same : answers.processComposeTab =
      answers.processForward ⟨type, some related⟩ ⟨false, false, false, 0⟩ := by
    simp [processComposeTab, page, found, beq_eq_false_iff_ne.mpr notReply]
  rw [same, process_forward, ← smime_encrypted_iff]
  unfold passes
  by_cases forward : type = js "forward"
  · rw [beq_iff_eq.mpr forward]
    cases isSmimeEncrypted answers.raw <;> cases canDecrypt answers.full <;>
      cases isEmbeddedContainer answers.rootRead <;> simp [forward]
  · rw [beq_eq_false_iff_ne.mpr forward]
    simp [forward]

theorem process_untouched (unopened : ∀ type related, answers.selfOpened = false →
    answers.details ≠ some ⟨type, some related⟩) :
    answers.processComposeTab = ⟨false, false, false, 0⟩ := by
  cases page : answers.selfOpened with
  | true => simp [processComposeTab, page]
  | false =>
      cases found : answers.details with
      | none => simp [processComposeTab, page, found]
      | some details =>
          obtain ⟨type, relatedMessageId⟩ := details
          cases relatedMessageId with
          | none => simp [processComposeTab, page, found]
          | some related => exact absurd found (unopened type related page)

/-- A forward is rebuilt, and a reply handed on, on conditions that exclude each other; a
reply takes the marker in any case, and nothing else is done. -/
structure Decided (answers : TabAnswers) : Prop where
  rebuilt : answers.processComposeTab.rebuilt = true ↔ answers.Opened "forward" ∧
    (∃ root, answers.raw = some root ∧ EncryptedBelow root) ∧ canDecrypt answers.full = true ∧
      isEmbeddedContainer answers.rootRead = false
  handed : answers.processComposeTab.handed = true ↔
    answers.Opened "reply" ∧ answers.marker = some true ∧ answers.Readable
  takesMarker : answers.processComposeTab.takesMarker = true ↔
    answers.Opened "reply" ∧ answers.marker.isSome = true
  sweeps : answers.processComposeTab.sweeps = if answers.processComposeTab.rebuilt then 2 else 0

theorem opened_iff {type : JsString} {related : Nat} (page : answers.selfOpened = false)
    (found : answers.details = some ⟨type, some related⟩) (expected : String) :
    answers.Opened expected ↔ type = js expected := by
  constructor
  · rintro ⟨-, other, details⟩
    rw [found] at details
    exact (ComposeDetails.mk.inj (Option.some.inj details)).1
  · rintro rfl
    exact ⟨page, related, found⟩

theorem decided (answers : TabAnswers) : Decided answers := by
  by_cases opened : ∃ type related, answers.selfOpened = false ∧
    answers.details = some ⟨type, some related⟩
  · obtain ⟨type, related, page, details⟩ := opened
    have asForward := opened_iff page details "forward"
    have asReply := opened_iff page details "reply"
    by_cases reply : type = js "reply"
    · have notForward : type ≠ js "forward" := by rw [reply]; decide
      obtain ⟨marker, handed, rebuilt, sweeps⟩ := process_reply (asReply.mpr reply)
      refine ⟨?_, ?_, ?_, ?_⟩
      · simp [rebuilt, asForward, notForward]
      · simp [handed, asReply, reply]
      · simp [marker, asReply, reply]
      · simp [sweeps, rebuilt]
    · obtain ⟨marker, handed, rebuilt, sweeps⟩ := process_other page details reply
      refine ⟨?_, ?_, ?_, sweeps⟩
      · rw [rebuilt, asForward]
      · simp [handed, asReply, reply]
      · simp [marker, asReply, reply]
  · have untouched := process_untouched fun type related page found =>
      opened ⟨type, related, page, found⟩
    have unopened : ∀ type, ¬answers.Opened type := by
      rintro type ⟨page, related, found⟩
      exact opened ⟨js type, related, page, found⟩
    refine ⟨?_, ?_, ?_, ?_⟩ <;> simp [untouched, unopened]

end TabAnswers

def Check.Follow : Check → List Check → Prop
  | check, [] => check.next = none
  | check, next :: rest => check.next = some next ∧ Follow next rest

namespace Background
variable {state : Background} {page : Page} {index tab : Nat}

theorem answer_stops {check : Check} (current : state.page = some page)
    (held : page.tasks[index]? = some ⟨tab, some check⟩) :
    step (.answered index false) state =
      { state with page := some (page.setTask index ⟨tab, none⟩) } := by
  simp [step, current, answer, held]

theorem returned_stays (current : state.page = some page)
    (held : page.tasks[index]? = some ⟨tab, none⟩) (answers : List Bool) :
    LocalAutomata.after step (answers.map (.answered index ·)) state = state := by
  induction answers with
  | nil => rfl
  | cons passes rest ih =>
      have same : step (.answered index passes) state = state := by
        simp [step, current, answer, held]
      rw [List.map_cons, LocalAutomata.after_cons, same, ih]

theorem checks_answered (passes : Check → Bool) {check : Check} {rest : List Check}
    (follow : check.Follow rest) (current : state.page = some page)
    (held : page.tasks[index]? = some ⟨tab, some check⟩) (live : tab ∉ page.closedTabIds) :
    (LocalAutomata.after step (((check :: rest).map passes).map (.answered index ·)) state).tabs =
      if (check :: rest).all passes then (state.rebuild tab).tabs else state.tabs := by
  have inside : index < page.tasks.length := (List.getElem?_eq_some_iff.mp held).1
  induction rest generalizing check state page with
  | nil =>
      obtain rfl : check = .rootType := by
        cases check with
        | rootType => rfl
        | details | smimeEncrypted | decryptable => cases follow
      simp only [List.map_cons, List.map_nil, LocalAutomata.after_cons, LocalAutomata.after_nil,
        List.all_cons, List.all_nil, Bool.and_true]
      cases passes .rootType with
      | true => exact answer_rebuilds current held
      | false => rw [answer_stops current held]; rfl
  | cons next rest ih =>
      rw [List.map_cons, List.map_cons, LocalAutomata.after_cons, List.all_cons]
      cases passes check with
      | true =>
          rw [answer_passes current held live follow.1, Bool.true_and]
          exact ih follow.2 rfl (by simp [Page.setTask, inside]) live (by simpa [Page.setTask])
      | false =>
          rw [answer_stops current held, Bool.false_and]
          have moved : (page.setTask index ⟨tab, none⟩).tasks[index]? = some ⟨tab, none⟩ := by
            simp [Page.setTask, inside]
          rw [returned_stays rfl moved]
          rfl

end Background

theorem rebuilt_iff_passes (answers : TabAnswers) :
    answers.processComposeTab.rebuilt = TabAnswers.checks.all answers.passes := by
  rw [Bool.eq_iff_iff, (TabAnswers.decided answers).rebuilt, ← smime_encrypted_iff]
  have opened : answers.Opened "forward" ↔ answers.passes .details = true := by
    unfold TabAnswers.Opened TabAnswers.passes
    cases answers.selfOpened with
    | true => simp
    | false =>
        cases answers.details with
        | none => simp
        | some details =>
            obtain ⟨type, relatedMessageId⟩ := details
            cases relatedMessageId <;> simp
  rw [opened]
  simp [TabAnswers.checks, TabAnswers.passes]

/-- What becomes of a tab, whatever the answers; it is what the task of the tab comes to. The
message is walked part by part, each with a path of its own, and both scripts judge it alike. -/
theorem tab_processed (answers : TabAnswers) :
    answers.Decided ∧
    (∀ state page tab index, state.page = some page →
      page.tasks[index]? = some ⟨tab, some .details⟩ → tab ∉ page.closedTabIds →
      (LocalAutomata.after Background.step
        ((TabAnswers.checks.map answers.passes).map (.answered index ·)) state).tabs =
          if answers.processComposeTab.rebuilt then (state.rebuild tab).tabs else state.tabs) ∧
    (∀ root, ((walkParts [] root).map Prod.snd).Nodup ∧ ∀ part path,
      (part, path) ∈ walkParts [] root ↔
        ∃ place, root.partAt place = some part ∧ path = extendPath [] place) ∧
    ∀ node root, SameTypes node root →
      isSmimeEncrypted (some root) = nodeLooksEncryptedSmime node := by
  refine ⟨answers.decided, ?_, ?_, ?_⟩
  · intro state page tab index current held live
    rw [rebuilt_iff_passes]
    exact Background.checks_answered answers.passes ⟨rfl, rfl, rfl, rfl⟩ current held live
  · intro root
    exact ⟨walk_nodup root [], walk_iff root []⟩
  · intro node root same
    exact scripts_agree same

end OsClientCerts.ForwardDecrypt
