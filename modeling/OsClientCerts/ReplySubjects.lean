import OsClientCerts.MimeParts
import OsClientCerts.PatternReadings

/-!
The subject of a reply that stands for a forward: the first mark of a reply becomes one of a
forward, and what is made is no subject of a reply.
-/

namespace OsClientCerts.ForwardDecrypt
open RegularExpressions

def inputEnd : Term UInt16 := .assertion fun _ next => next.isNone

def isInText (unit : UInt16) : Bool := !isLineTerminator unit

def replyPattern : List (Term UInt16) :=
  inputStart :: .many isWhiteSpace 0 true :: (literal (anyCase "re:") ++
    [.many isWhiteSpace 0 true, .many isInText 0 true, inputEnd])

/-- The pattern can only match at the start. -/
def retitleReplyToForward (subject : JsString) : JsString :=
  let s := subject.trim
  match matchAt replyPattern none s with
  | none => []
  | some lengths =>
      let rest := (groupBefore 1 lengths s).trim
      JsString.trim (groupBefore 6 lengths s ++ js "Fwd:" ++
        if rest.isEmpty then [] else js " " ++ rest)

/-- What comes after the mark of a reply, if the subject has one and no second line. -/
def afterReplyMark (subject : JsString) : Option JsString :=
  let rest := (subject.drop 3).dropWhile isWhiteSpace
  if spells (anyCase "re:") subject && rest.all isInText then some rest else none

def forwardOf (rest : JsString) : JsString :=
  js "Fwd:" ++ if rest.isEmpty then [] else js " " ++ rest

def IsTrimmed (text : JsString) : Prop :=
  text.head?.any isWhiteSpace = false ∧ text.getLast?.any isWhiteSpace = false

theorem last_any {text : JsString} (filled : text ≠ []) :
    text.getLast?.any isWhiteSpace = isWhiteSpace (text.getLast filled) := by
  rw [List.getLast?_eq_some_getLast filled, Option.any_some]

theorem trim_trimmed (text : JsString) : IsTrimmed text.trim := by
  constructor
  · have front := drop_while_ends isWhiteSpace text
    obtain ⟨taken, whole⟩ := List.rdropWhile_prefix isWhiteSpace (text.dropWhile isWhiteSpace)
    unfold JsString.trim
    cases trimmed : (text.dropWhile isWhiteSpace).rdropWhile isWhiteSpace with
    | nil => rfl
    | cons first rest =>
        rw [trimmed] at whole
        rw [← whole] at front
        exact front
  · by_cases filled : text.trim = []
    · rw [filled]
      rfl
    · rw [last_any filled]
      exact Bool.eq_false_iff.mpr (List.rdropWhile_last_not isWhiteSpace _ filled)

theorem trim_of_trimmed {text : JsString} (trimmed : IsTrimmed text) : text.trim = text := by
  have front : text.dropWhile isWhiteSpace = text := by
    cases text with
    | nil => rfl
    | cons first rest => exact List.dropWhile_cons_of_neg (Bool.eq_false_iff.mp trimmed.1)
  rw [JsString.trim, front, List.rdropWhile_eq_self_iff]
  intro filled
  rw [← last_any filled]
  exact Bool.eq_false_iff.mp trimmed.2

theorem IsTrimmed.later {front later : JsString} (trimmed : IsTrimmed (front ++ later))
    (starts : later.head?.any isWhiteSpace = false) : IsTrimmed later := by
  refine ⟨starts, ?_⟩
  cases later with
  | nil => rfl
  | cons next rest =>
      have last := trimmed.2
      rwa [List.getLast?_append_of_ne_nil _ (List.cons_ne_nil next rest)] at last

theorem forward_trimmed {rest : JsString} (trimmed : IsTrimmed rest) : IsTrimmed (forwardOf rest) := by
  cases rest with
  | nil => exact ⟨rfl, rfl⟩
  | cons next rest =>
      have joined : forwardOf (next :: rest) = js "Fwd: " ++ (next :: rest) := rfl
      refine ⟨rfl, ?_⟩
      rw [joined, List.getLast?_append_of_ne_nil _ (List.cons_ne_nil next rest)]
      exact trimmed.2

theorem spelled_letter {letter : Char} {unit : UInt16} (spelled : isLetter letter unit = true) :
    unit = upperCase (unitOf letter) + 32 ∨ unit = upperCase (unitOf letter) := by
  rw [isLetter, beq_iff_eq] at spelled
  rw [← spelled]
  unfold upperCase
  split
  · exact Or.inl (UInt16.sub_add_cancel unit 32).symm
  · exact Or.inr rfl

theorem mark_starts {mark later : JsString} (spelled : spells (anyCase "re:") mark = true) :
    (mark ++ later).head?.any isWhiteSpace = false := by
  cases mark with
  | nil => cases spelled
  | cons first rest =>
      have word : anyCase "re:" = [isLetter 'r', isLetter 'e', isLetter ':'] := rfl
      rw [word, spells, Bool.and_eq_true] at spelled
      rcases spelled_letter spelled.1 with rfl | rfl <;> rfl

/-- How a trimmed subject of a reply is matched. -/
theorem reply_match {mark space rest : JsString} (spelled : spells (anyCase "re:") mark = true)
    (marked : mark.length = 3) (white : ∀ unit ∈ space, isWhiteSpace unit = true)
    (starts : rest.head?.any isWhiteSpace = false) (single : ∀ unit ∈ rest, isInText unit = true) :
    matchAt replyPattern none (mark ++ (space ++ rest)) =
      some [0, 0, 1, 1, 1, space.length, rest.length, 0] := by
  have last : matchAt [inputEnd] (rest.getLast?.or (space.getLast?.or (mark.getLast?.or none))) [] =
      some [0] := match_assertion rfl rfl
  have text := match_greedy single rfl (Nat.zero_le _) last
  rw [List.append_nil] at text
  have blank := match_greedy white starts (Nat.zero_le _) text
  have word := match_word spelled marked blank
  have front := @match_greedy _ _ none _ isWhiteSpace 0 [] _ nofun (mark_starts spelled)
    (Nat.zero_le _) word
  exact match_assertion rfl front

theorem reply_reads {subject : JsString} (trimmed : IsTrimmed subject)
    (reads : Reads replyPattern none subject) : ∃ mark space rest,
      subject = mark ++ (space ++ rest) ∧ spells (anyCase "re:") mark = true ∧ mark.length = 3 ∧
      (∀ unit ∈ space, isWhiteSpace unit = true) ∧ ∀ unit ∈ rest, isInText unit = true := by
  -- A trimmed subject that the pattern matches is one of a reply, in one line.
  obtain ⟨lengths, way⟩ := reads
  obtain ⟨_, -, -, way⟩ := mem_ways_assertion.mp way
  obtain ⟨lead, later, _, rfl, -, ⟨-, leading⟩, way⟩ := mem_ways_many.mp way
  obtain ⟨mark, later, _, rfl, -, spelled, marked, way⟩ := mem_ways_literal.mp way
  obtain ⟨space, later, _, rfl, -, ⟨-, white⟩, way⟩ := mem_ways_many.mp way
  obtain ⟨rest, later, _, rfl, -, ⟨-, single⟩, way⟩ := mem_ways_many.mp way
  obtain ⟨_, -, ended, -⟩ := mem_ways_assertion.mp way
  have none_left : later = [] := List.head?_eq_none_iff.mp (Option.isNone_iff_eq_none.mp ended)
  have none_before : lead = [] := by
    cases lead with
    | nil => rfl
    | cons first lead =>
        have starts := trimmed.1
        rw [List.cons_append, List.head?_cons, Option.any_some,
          leading first List.mem_cons_self] at starts
        cases starts
  exact ⟨mark, space, rest, by rw [none_before, none_left, List.append_nil]; rfl, spelled, marked,
    white, single⟩

theorem reply_rest {subject rest : JsString} (found : afterReplyMark subject = some rest) :
    ∃ mark space, subject = mark ++ (space ++ rest) ∧ spells (anyCase "re:") mark = true ∧
      mark.length = 3 ∧ (∀ unit ∈ space, isWhiteSpace unit = true) ∧
      rest.head?.any isWhiteSpace = false ∧ ∀ unit ∈ rest, isInText unit = true := by
  unfold afterReplyMark at found
  dsimp only at found
  split at found
  · rename_i fits
    obtain rfl := Option.some.inj found
    rw [Bool.and_eq_true, List.all_eq_true] at fits
    have taken := spells_take fits.1
    refine ⟨subject.take 3, (subject.drop 3).takeWhile isWhiteSpace, ?_, taken.1, taken.2,
      fun unit member => List.mem_takeWhile_imp member, drop_while_ends _ _, fits.2⟩
    rw [List.takeWhile_append_dropWhile, List.take_append_drop]
  · cases found

theorem reply_rest_none {mark space rest : JsString} (spelled : spells (anyCase "re:") mark = true)
    (marked : mark.length = 3) (white : ∀ unit ∈ space, isWhiteSpace unit = true)
    (single : ∀ unit ∈ rest, isInText unit = true) :
    afterReplyMark (mark ++ (space ++ rest)) ≠ none := by
  have dropped : (mark ++ (space ++ rest)).drop 3 = space ++ rest := by
    rw [← marked, List.drop_left]
  have passed : ((space ++ rest).dropWhile isWhiteSpace).all isInText = true := by
    rw [List.dropWhile_append_of_pos white, List.all_eq_true]
    exact fun unit member => single unit ((List.dropWhile_suffix _).subset member)
  unfold afterReplyMark
  dsimp only
  rw [dropped, passed, spells_append spelled]
  exact Option.some_ne_none _

/-- A subject that is one of a reply, in one line, gets the mark of a forward in place of its
first one; any other is left as it is. -/
theorem retitle_spec (subject : JsString) : retitleReplyToForward subject =
    (afterReplyMark subject.trim).elim [] forwardOf := by
  have trimmed := trim_trimmed subject
  unfold retitleReplyToForward
  dsimp only
  cases found : afterReplyMark subject.trim with
  | none =>
      have absent : matchAt replyPattern none subject.trim = none := by
        rw [match_none_reads]
        intro reads
        obtain ⟨mark, space, rest, same, spelled, marked, white, single⟩ :=
          reply_reads trimmed reads
        rw [same] at found
        exact reply_rest_none spelled marked white single found
      rw [absent]
      rfl
  | some rest =>
      obtain ⟨mark, space, same, spelled, marked, white, starts, single⟩ := reply_rest found
      rw [same, ← List.append_assoc] at trimmed
      have ends := trimmed.later starts
      have group : groupBefore 1 [0, 0, 1, 1, 1, space.length, rest.length, 0]
          (mark ++ (space ++ rest)) = rest := by
        have passed : [0, 0, 1, 1, 1, space.length].sum = (mark ++ space).length := by
          rw [List.length_append, marked]
          simp
          omega
        rw [← List.append_assoc]
        change ((mark ++ space ++ rest).drop [0, 0, 1, 1, 1, space.length].sum).take rest.length = _
        rw [passed, List.drop_left, List.take_length]
      rw [same, reply_match spelled marked white starts single]
      dsimp only
      rw [group, trim_of_trimmed ends]
      exact trim_of_trimmed (forward_trimmed ends)

theorem retitled {subject : JsString} (filled : retitleReplyToForward subject ≠ []) :
    ∃ rest, afterReplyMark subject.trim = some rest ∧
      retitleReplyToForward subject = forwardOf rest := by
  rw [retitle_spec] at filled ⊢
  cases found : afterReplyMark subject.trim with
  | none =>
      rw [found] at filled
      exact absurd rfl filled
  | some rest => exact ⟨rest, rfl, rfl⟩

theorem retitled_once {subject rest : JsString} (found : afterReplyMark subject.trim = some rest) :
    retitleReplyToForward (forwardOf rest) = [] := by
  -- What is made is no subject of a reply.
  have trimmed := trim_trimmed subject
  obtain ⟨mark, space, same, -, -, -, starts, -⟩ := reply_rest found
  rw [same, ← List.append_assoc] at trimmed
  rw [retitle_spec, trim_of_trimmed (forward_trimmed (trimmed.later starts))]
  rfl

example : retitleReplyToForward (js " RE:  Re: plan ") = js "Fwd: Re: plan" ∧
    retitleReplyToForward (js "Re: ") = js "Fwd:" ∧ retitleReplyToForward (js "plan") = [] := by
  decide +kernel

end OsClientCerts.ForwardDecrypt
