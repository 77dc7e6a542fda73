import OsClientCerts.JsStrings
import OsClientCerts.PatternReadings

/-!
Unfolding the header lines of a message, and where its first empty line is afterwards: an
empty line that a blank follows is gone.
-/

namespace OsClientCerts
open RegularExpressions

def isBlank (unit : UInt16) : Bool := isUnit ' ' unit || isUnit '\t' unit

def foldPattern : List (Term UInt16) := lineBreak ++ [.many isBlank 1 true]

def emptyLinePattern : List (Term UInt16) := lineBreak ++ lineBreak

/-- `\r?\n\r?\n(?![ \t])`: an empty line that unfolding leaves. -/
def leftLinePattern : List (Term UInt16) :=
  lineBreak ++ (lineBreak ++ [.assertion fun _ next => !next.any isBlank])

def unfoldText (data : JsString) : JsString := replaceAll foldPattern (js " ") data

def headAsCut (data : JsString) : JsString := firstPiece leftLinePattern data

def IsBreak (text : JsString) : Prop := text = js "\n" ∨ text = js "\r\n"

section Breaks
variable {pattern : List (Term UInt16)} {previous : Option UInt16} {text rest line_break : JsString}

theorem reads_break : Reads (lineBreak ++ pattern) previous text ↔
    ∃ line_break rest, text = line_break ++ rest ∧ IsBreak line_break ∧
      Reads pattern (some (unitOf '\n')) rest := by
  constructor
  · rintro ⟨lengths, way⟩
    obtain ⟨taken, later, others, rfl, rfl, member, way⟩ := mem_ways_taken.mp way
    obtain ⟨next, rest, others, rfl, rfl, newline, below⟩ := mem_ways_one.mp way
    obtain rfl : next = unitOf '\n' := beq_iff_eq.mp newline
    rcases mem_optional.mp member with none | ⟨one, spelled⟩
    · obtain rfl := List.length_eq_zero_iff.mp none
      exact ⟨js "\n", rest, rfl, Or.inl rfl, others, below⟩
    · obtain ⟨letter, rfl⟩ := List.length_eq_one_iff.mp one
      rw [List.singleton_append, spells, Bool.and_eq_true] at spelled
      obtain rfl : letter = unitOf '\r' := beq_iff_eq.mp spelled.1
      exact ⟨js "\r\n", rest, rfl, Or.inr rfl, others, below⟩
  · rintro ⟨line_break, rest, rfl, breaks, others, way⟩
    have newline (previous : Option UInt16) : 1 :: others ∈
        ways (.one isNewline :: pattern) previous (unitOf '\n' :: rest) :=
      mem_ways_one.mpr ⟨_, rest, others, rfl, rfl, beq_self_eq_true _, way⟩
    rcases breaks with rfl | rfl
    · exact ⟨_, mem_ways_taken.mpr ⟨[], _, _, rfl, rfl, mem_optional.mpr (Or.inl rfl), newline _⟩⟩
    · exact ⟨_, mem_ways_taken.mpr ⟨js "\r", _, _, rfl, rfl,
        mem_optional.mpr (Or.inr ⟨rfl, rfl⟩), newline _⟩⟩

theorem match_break {lengths : List Nat} (breaks : IsBreak line_break)
    (found : matchAt pattern (some (unitOf '\n')) rest = some lengths) :
    ∃ all, matchAt (lineBreak ++ pattern) previous (line_break ++ rest) = some all ∧
      all.sum = line_break.length + lengths.sum := by
  rcases breaks with rfl | rfl
  · refine ⟨0 :: 1 :: lengths, ?_, by simp [js]⟩
    apply match_first
    · rfl
    · exact match_one rfl found
  · refine ⟨1 :: 1 :: lengths, ?_, by simp [js]; omega⟩
    apply match_first
    · rfl
    · exact match_one rfl found

theorem break_blind (pattern : List (Term UInt16)) : Blind (lineBreak ++ pattern) := by
  intro previous other rest
  change (ways (.optional [isReturn] :: .one isNewline :: pattern) previous rest).head? =
    (ways (.optional [isReturn] :: .one isNewline :: pattern) other rest).head?
  rw [ways, ways, Term.lengths, Term.lengths]
  have same (count : Nat) :
      ways (.one isNewline :: pattern) (behind previous rest count) (rest.drop count) =
        ways (.one isNewline :: pattern) (behind other rest count) (rest.drop count) :=
    ways_one_anywhere _
  simp only [same]

end Breaks

section Places
variable {previous : Option UInt16} {text rest line_break : JsString}

theorem reads_fold : Reads foldPattern previous text ↔
    ∃ line_break blank rest, text = line_break ++ blank :: rest ∧ IsBreak line_break ∧
      isBlank blank = true := by
  rw [foldPattern, reads_break]
  constructor
  · rintro ⟨line_break, rest, rfl, breaks, lengths, way⟩
    obtain ⟨taken, later, others, rfl, -, ⟨some_blank, blanks⟩, -⟩ := mem_ways_many.mp way
    obtain ⟨blank, taken, rfl⟩ := List.exists_cons_of_ne_nil (List.length_pos_iff.mp some_blank)
    exact ⟨line_break, blank, taken ++ later, rfl, breaks, blanks blank List.mem_cons_self⟩
  · rintro ⟨line_break, blank, rest, rfl, breaks, isBlank⟩
    refine ⟨line_break, blank :: rest, rfl, breaks, [1], mem_ways_many.mpr
      ⟨[blank], rest, [], rfl, rfl, ⟨Nat.le_refl 1, ?_⟩, List.mem_singleton.mpr rfl⟩⟩
    intro next member
    rwa [List.mem_singleton.mp member]

theorem reads_empty_line : Reads emptyLinePattern previous text ↔
    ∃ line_break other rest, text = line_break ++ (other ++ rest) ∧ IsBreak line_break ∧
      IsBreak other := by
  rw [emptyLinePattern, reads_break]
  constructor
  · rintro ⟨line_break, rest, rfl, breaks, reads⟩
    rw [← List.append_nil lineBreak, reads_break] at reads
    obtain ⟨other, rest, rfl, again, -⟩ := reads
    exact ⟨line_break, other, rest, rfl, breaks, again⟩
  · rintro ⟨line_break, other, rest, rfl, breaks, again⟩
    refine ⟨line_break, other ++ rest, rfl, breaks, ?_⟩
    rw [← List.append_nil lineBreak, reads_break]
    exact ⟨other, rest, rfl, again, [], List.mem_singleton.mpr rfl⟩

theorem reads_left_line : Reads leftLinePattern previous text ↔
    ∃ line_break other rest, text = line_break ++ (other ++ rest) ∧ IsBreak line_break ∧
      IsBreak other ∧ rest.head?.any isBlank = false := by
  rw [leftLinePattern, reads_break]
  constructor
  · rintro ⟨line_break, rest, rfl, breaks, reads⟩
    obtain ⟨other, rest, rfl, again, lengths, way⟩ := reads_break.mp reads
    obtain ⟨_, -, ahead, -⟩ := mem_ways_assertion.mp way
    exact ⟨line_break, other, rest, rfl, breaks, again, by simpa using ahead⟩
  · rintro ⟨line_break, other, rest, rfl, breaks, again, ahead⟩
    refine ⟨line_break, other ++ rest, rfl, breaks, reads_break.mpr ⟨other, rest, rfl, again, ?_⟩⟩
    exact ⟨[0], mem_ways_assertion.mpr ⟨[], rfl, by simpa using ahead, List.mem_singleton.mpr rfl⟩⟩

theorem unfold_nil : unfoldText [] = [] := rfl

theorem unfold_fold {blanks later : JsString} (breaks : IsBreak line_break)
    (some_blank : blanks ≠ []) (all : ∀ unit ∈ blanks, isBlank unit = true)
    (ends : later.head?.any isBlank = false) :
    unfoldText (line_break ++ (blanks ++ later)) = unitOf ' ' :: unfoldText later := by
  have taken : matchAt [.many isBlank 1 true] (some (unitOf '\n')) (blanks ++ later) =
      some [blanks.length] :=
    match_greedy all ends (List.length_pos_of_ne_nil some_blank) rfl
  obtain ⟨lengths, found, sum⟩ : ∃ all, matchAt foldPattern none (line_break ++ (blanks ++ later)) =
      some all ∧ all.sum = line_break.length + [blanks.length].sum := match_break breaks taken
  rw [← List.append_assoc] at found ⊢
  apply replace_hit (break_blind _) found
  · rw [sum, List.length_append]
    rfl
  · simp [some_blank]

theorem unfold_keep {next : UInt16} (kept : ¬ Reads foldPattern none (next :: rest)) :
    unfoldText (next :: rest) = next :: unfoldText rest :=
  replace_miss (break_blind _) (match_none_reads.mpr kept)

end Places

section Cut
variable {text rest line_break : JsString} {next : UInt16}

theorem break_letter {letter : UInt16} (breaks : IsBreak line_break)
    (member : letter ∈ line_break) : letter = unitOf '\n' ∨ letter = unitOf '\r' := by
  rcases breaks with rfl | rfl
  · exact Or.inl (List.mem_singleton.mp member)
  · exact (List.mem_pair.mp member).symm

theorem not_blank_break {letter : UInt16} (blank : isBlank letter = true)
    (breaks : letter = unitOf '\n' ∨ letter = unitOf '\r') : False := by
  rcases breaks with rfl | rfl <;> cases blank

theorem break_not_nil (breaks : IsBreak line_break) : line_break ≠ [] := by
  rcases breaks with rfl | rfl <;> exact List.cons_ne_nil _ _

theorem break_unique {other later : JsString} (breaks : IsBreak line_break) (again : IsBreak other)
    (same : line_break ++ rest = other ++ later) : line_break = other ∧ rest = later := by
  -- A text that starts with a line break starts with one line break only.
  rcases breaks with rfl | rfl <;> rcases again with rfl | rfl <;> simp_all [js, unitOf]

theorem not_folded (breaks : IsBreak line_break) :
    ¬ Reads foldPattern none (line_break ++ rest) ↔ rest.head?.any isBlank = false := by
  rw [reads_fold, Bool.eq_false_iff]
  apply not_congr
  constructor
  · rintro ⟨other, blank, later, same, again, isBlank⟩
    obtain ⟨-, rfl⟩ := break_unique breaks again same
    exact isBlank
  · intro ahead
    cases rest with
    | nil => cases ahead
    | cons blank rest => exact ⟨line_break, blank, rest, rfl, breaks, ahead⟩

theorem fold_split (folded : Reads foldPattern none text) :
    ∃ line_break blanks later, text = line_break ++ (blanks ++ later) ∧ IsBreak line_break ∧
      blanks ≠ [] ∧ (∀ unit ∈ blanks, isBlank unit = true) ∧
      later.head?.any isBlank = false := by
  obtain ⟨line_break, blank, rest, rfl, breaks, first⟩ := reads_fold.mp folded
  refine ⟨line_break, blank :: rest.takeWhile isBlank, rest.dropWhile isBlank, ?_, breaks,
    List.cons_ne_nil _ _, ?_, drop_while_ends isBlank rest⟩
  · rw [List.cons_append, List.takeWhile_append_dropWhile]
  · exact List.forall_mem_cons.mpr ⟨first, fun _ => List.mem_takeWhile_imp⟩

theorem unfold_break (breaks : IsBreak line_break) (ahead : rest.head?.any isBlank = false) :
    unfoldText (line_break ++ rest) = line_break ++ unfoldText rest := by
  have newline : unfoldText (unitOf '\n' :: rest) = unitOf '\n' :: unfoldText rest :=
    unfold_keep ((@not_folded rest (js "\n") (Or.inl rfl)).mpr ahead)
  have kept := (not_folded breaks).mpr ahead
  rcases breaks with rfl | rfl
  · exact newline
  · exact (unfold_keep kept).trans (congrArg (unitOf '\r' :: ·) newline)

theorem unfold_letter {unfolded : JsString} (letter : next ≠ unitOf ' ')
    (same : unfoldText text = next :: unfolded) :
    ∃ rest, text = next :: rest ∧ unfolded = unfoldText rest ∧ ¬ Reads foldPattern none text := by
  by_cases folded : Reads foldPattern none text
  · obtain ⟨line_break, blanks, later, rfl, breaks, some_blank, all, ends⟩ := fold_split folded
    rw [unfold_fold breaks some_blank all ends, List.cons.injEq] at same
    exact absurd same.1.symm letter
  · cases text with
    | nil => cases same
    | cons first rest =>
        rw [unfold_keep folded, List.cons.injEq] at same
        obtain ⟨rfl, rfl⟩ := same
        exact ⟨rest, rfl, rfl, folded⟩

theorem unfolded_break {unfolded : JsString} (breaks : IsBreak line_break)
    (same : unfoldText text = line_break ++ unfolded) :
    ∃ rest, text = line_break ++ rest ∧ unfolded = unfoldText rest ∧
      rest.head?.any isBlank = false := by
  have newline {text : JsString} (same : unfoldText text = unitOf '\n' :: unfolded) :
      ∃ rest, text = unitOf '\n' :: rest ∧ unfolded = unfoldText rest ∧
        rest.head?.any isBlank = false := by
    obtain ⟨rest, rfl, below, kept⟩ := unfold_letter (by decide) same
    exact ⟨rest, rfl, below, (@not_folded rest (js "\n") (Or.inl rfl)).mp kept⟩
  rcases breaks with rfl | rfl
  · exact newline same
  · obtain ⟨rest, rfl, below, -⟩ := unfold_letter (by decide) same
    obtain ⟨rest, rfl, others⟩ := newline below.symm
    exact ⟨rest, rfl, others⟩

theorem empty_line_unfolded : Reads emptyLinePattern none (unfoldText text) ↔
    Reads leftLinePattern none text := by
  -- The empty lines after unfolding are those that no blank follows.
  rw [reads_empty_line, reads_left_line]
  constructor
  · rintro ⟨line_break, other, unfolded, same, breaks, again⟩
    obtain ⟨rest, rfl, below, -⟩ := unfolded_break breaks same
    obtain ⟨rest, rfl, -, ahead⟩ := unfolded_break again below.symm
    exact ⟨line_break, other, rest, rfl, breaks, again, ahead⟩
  · rintro ⟨line_break, other, rest, rfl, breaks, again, ahead⟩
    have inner : (other ++ rest).head?.any isBlank = false := by
      obtain ⟨letter, others, rfl⟩ := List.exists_cons_of_ne_nil (break_not_nil again)
      rw [List.cons_append, List.head?_cons, Option.any_some, Bool.eq_false_iff]
      exact fun blank => not_blank_break blank (break_letter again List.mem_cons_self)
    exact ⟨line_break, other, unfoldText rest,
      by rw [unfold_break breaks inner, unfold_break again ahead], breaks, again⟩

theorem left_line_breaks (left : Reads leftLinePattern none text) :
    ¬ Reads foldPattern none text ∧ text.head?.any isBlank = false := by
  obtain ⟨line_break, other, rest, rfl, breaks, again, -⟩ := reads_left_line.mp left
  have starts {text later : JsString} (breaks : IsBreak text) :
      (text ++ later).head?.any isBlank = false := by
    rcases breaks with rfl | rfl <;> rfl
  exact ⟨(not_folded breaks).mpr (starts again), starts breaks⟩

theorem cut_blanks {blanks : JsString} (all : ∀ unit ∈ blanks, isBlank unit = true)
    (later : JsString) : headAsCut (blanks ++ later) = blanks ++ headAsCut later := by
  induction blanks with
  | nil => rfl
  | cons blank blanks ih =>
      obtain ⟨first, others⟩ := List.forall_mem_cons.mp all
      have missed : ¬ Reads leftLinePattern none (blank :: (blanks ++ later)) := by
        intro left
        have starts := (left_line_breaks left).2
        rw [List.head?_cons, Option.any_some, first] at starts
        cases starts
      have passed : headAsCut (blank :: (blanks ++ later)) = blank :: headAsCut (blanks ++ later) :=
        first_piece_miss (break_blind _) (match_none_reads.mpr missed)
      rw [List.cons_append, passed, ih others, List.cons_append]

theorem cut_fold {blanks later : JsString} (breaks : IsBreak line_break) (some_blank : blanks ≠ [])
    (all : ∀ unit ∈ blanks, isBlank unit = true) :
    headAsCut (line_break ++ (blanks ++ later)) = line_break ++ (blanks ++ headAsCut later) := by
  have missed {line_break : JsString} (breaks : IsBreak line_break) :
      matchAt leftLinePattern none (line_break ++ (blanks ++ later)) = none := by
    obtain ⟨blank, others, rfl⟩ := List.exists_cons_of_ne_nil some_blank
    refine match_none_reads.mpr fun left => (left_line_breaks left).1 ?_
    exact reads_fold.mpr ⟨line_break, blank, others ++ later, rfl, breaks, all _ List.mem_cons_self⟩
  have newline : headAsCut (unitOf '\n' :: (blanks ++ later)) =
      unitOf '\n' :: (blanks ++ headAsCut later) := by
    rw [← cut_blanks all]
    exact first_piece_miss (break_blind _) (@missed (js "\n") (Or.inl rfl))
  rcases breaks with rfl | rfl
  · exact newline
  · have back := @missed (js "\r\n") (Or.inr rfl)
    exact (first_piece_miss (break_blind _) back).trans (congrArg (unitOf '\r' :: ·) newline)

theorem cut_head {later : JsString} (ends : later.head?.any isBlank = false) :
    (headAsCut later).head?.any isBlank = false := by
  obtain ⟨rest, split, -⟩ := first_piece_split leftLinePattern later
  rw [← headAsCut] at split
  cases cut : headAsCut later with
  | nil => rfl
  | cons first others =>
      rw [cut] at split
      rw [split] at ends
      exact ends

theorem first_piece_unfold (text : JsString) :
    firstPiece emptyLinePattern (unfoldText text) = unfoldText (headAsCut text) := by
  induction size : text.length using Nat.strongRecOn generalizing text with
  | ind size ih =>
      subst size
      have blind : Blind emptyLinePattern := break_blind _
      by_cases folded : Reads foldPattern none text
      · obtain ⟨line_break, blanks, later, rfl, breaks, some_blank, all, ends⟩ :=
          fold_split folded
        have missed : ¬ Reads emptyLinePattern none (unitOf ' ' :: unfoldText later) := by
          rw [← unfold_fold breaks some_blank all ends, empty_line_unfolded]
          exact fun left => (left_line_breaks left).1 folded
        have shorter : later.length < (line_break ++ (blanks ++ later)).length := by
          have := List.length_pos_of_ne_nil some_blank
          rw [List.length_append, List.length_append]
          omega
        rw [unfold_fold breaks some_blank all ends,
          first_piece_miss blind (match_none_reads.mpr missed), ih _ shorter later rfl,
          cut_fold breaks some_blank all, unfold_fold breaks some_blank all (cut_head ends)]
      · by_cases left : Reads leftLinePattern none text
        · obtain ⟨_, found⟩ := match_some_iff.mpr left
          obtain ⟨_, unfolded⟩ := match_some_iff.mpr (empty_line_unfolded.mpr left)
          rw [headAsCut, first_piece_hit found, first_piece_hit unfolded, unfold_nil]
        · cases text with
          | nil => rfl
          | cons next rest =>
              have missed : ¬ Reads emptyLinePattern none (next :: unfoldText rest) := by
                rwa [← unfold_keep folded, empty_line_unfolded]
              have cut : headAsCut (next :: rest) = next :: headAsCut rest :=
                first_piece_miss (break_blind _) (match_none_reads.mpr left)
              have kept : ¬ Reads foldPattern none (next :: headAsCut rest) := by
                intro again
                obtain ⟨later, split, -⟩ := first_piece_split leftLinePattern rest
                obtain ⟨line_break, blank, others, same, breaks, isBlank⟩ := reads_fold.mp again
                refine folded (reads_fold.mpr ⟨line_break, blank, others ++ later, ?_, breaks, isBlank⟩)
                rw [split, ← headAsCut, ← List.cons_append, same, List.append_assoc,
                  List.cons_append]
              rw [unfold_keep folded, first_piece_miss blind (match_none_reads.mpr missed),
                ih _ (Nat.lt_succ_self _) rest rfl, cut, unfold_keep kept]

end Cut

end OsClientCerts
