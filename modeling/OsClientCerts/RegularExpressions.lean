import Mathlib.Algebra.GroupWithZero.Nat
import Mathlib.Algebra.Order.BigOperators.Group.List
import Mathlib.Algebra.Order.Group.Nat

/-!
Regular expressions that are sequences of terms, matched as a backtracking matcher does:
each term offers the lengths it can take in the order it prefers them, and the first
choice that lets all terms match is the match. What is searched for, replaced and split
by them.
-/

namespace OsClientCerts.RegularExpressions
variable {α : Type}

/-- A term looks at what comes next; an assertion also at the character before. -/
inductive Term (α : Type) where
  | one (set : α → Bool)
  | many (set : α → Bool) (least : Nat) (greedy : Bool)
  | optional (word : List (α → Bool))
  | assertion (holds : Option α → Option α → Bool)

def spells : List (α → Bool) → List α → Bool
  | [], _ => true
  | _ :: _, [] => false
  | set :: word, next :: rest => set next && spells word rest

def Term.lengths (previous : Option α) (rest : List α) : Term α → List Nat
  | .one set => if rest.head?.any set then [1] else []
  | .many set least greedy =>
      let taken := (List.range ((rest.takeWhile set).length + 1)).filter (least ≤ ·)
      if greedy then taken.reverse else taken
  | .optional word => if spells word rest then [word.length, 0] else [0]
  | .assertion holds => if holds previous rest.head? then [0] else []

def behind (previous : Option α) (rest : List α) : Nat → Option α
  | 0 => previous
  | count + 1 => rest[count]?

/-- All choices of lengths that match here, the preferred ones first. -/
def ways : List (Term α) → Option α → List α → List (List Nat)
  | [], _, _ => [[]]
  | term :: terms, previous, rest => (term.lengths previous rest).flatMap fun count =>
      (ways terms (behind previous rest count) (rest.drop count)).map (count :: ·)

def matchAt (pattern : List (Term α)) (previous : Option α) (rest : List α) : Option (List Nat) :=
  (ways pattern previous rest).head?

def search (pattern : List (Term α)) : Option α → List α → Option (List α × List Nat × List α)
  | previous, [] => (matchAt pattern previous []).map fun lengths => ([], lengths, [])
  | previous, next :: rest =>
      match matchAt pattern previous (next :: rest) with
      | some lengths => some ([], lengths, next :: rest)
      | none => (search pattern (some next) rest).map fun (front, found) => (next :: front, found)

def test (pattern : List (Term α)) (text : List α) : Bool := (search pattern none text).isSome

def firstPiece (pattern : List (Term α)) (text : List α) : List α :=
  match search pattern none text with
  | some (front, _) => front
  | none => text

/-- Every match is replaced; `skip` characters of the last one are still to be passed. -/
def replaceFrom (pattern : List (Term α)) (made : List α) : Nat → Option α → List α → List α
  | 0, previous, [] =>
      match matchAt pattern previous [] with
      | some _ => made
      | none => []
  | 0, previous, next :: rest =>
      match matchAt pattern previous (next :: rest) with
      | some lengths =>
          match lengths.sum with
          | 0 => made ++ next :: replaceFrom pattern made 0 (some next) rest
          | skip + 1 => made ++ replaceFrom pattern made skip (some next) rest
      | none => next :: replaceFrom pattern made 0 (some next) rest
  | _ + 1, _, [] => []
  | skip + 1, _, next :: rest => replaceFrom pattern made skip (some next) rest

def replaceAll (pattern : List (Term α)) (made text : List α) : List α :=
  replaceFrom pattern made 0 none text

section Taking
variable {previous : Option α} {rest : List α}

theorem mem_many {set : α → Bool} {least count : Nat} {greedy : Bool} :
    count ∈ (Term.many set least greedy).lengths previous rest ↔
      least ≤ count ∧ count ≤ (rest.takeWhile set).length := by
  have within : count < (rest.takeWhile set).length + 1 ↔ count ≤ (rest.takeWhile set).length :=
    Nat.lt_succ_iff
  have taken : count ∈ (List.range ((rest.takeWhile set).length + 1)).filter (least ≤ ·) ↔
      least ≤ count ∧ count ≤ (rest.takeWhile set).length := by
    rw [List.mem_filter, List.mem_range, within, decide_eq_true_eq, and_comm]
  cases greedy with
  | true => exact List.mem_reverse.trans taken
  | false => exact taken

theorem mem_one {set : α → Bool} {count : Nat} :
    count ∈ (Term.one set).lengths previous rest ↔ rest.head?.any set = true ∧ count = 1 := by
  unfold Term.lengths
  split <;> simp_all

theorem mem_ways_cons {term : Term α} {terms : List (Term α)} {lengths : List Nat} :
    lengths ∈ ways (term :: terms) previous rest ↔
      ∃ count others, lengths = count :: others ∧ count ∈ term.lengths previous rest ∧
        others ∈ ways terms (behind previous rest count) (rest.drop count) := by
  simp only [ways, List.mem_flatMap, List.mem_map]
  constructor
  · rintro ⟨count, member, others, way, rfl⟩
    exact ⟨count, others, rfl, member, way⟩
  · rintro ⟨count, others, rfl, member, way⟩
    exact ⟨count, member, others, way, rfl⟩

theorem match_none_iff {pattern : List (Term α)} :
    matchAt pattern previous rest = none ↔ ways pattern previous rest = [] := by
  rw [matchAt, List.head?_eq_none_iff]

end Taking

def Term.Needs (set : α → Bool) : Term α → Prop
  | .one own => own = set
  | .many own least _ => own = set ∧ 0 < least
  | _ => False

section Absent
variable {set : α → Bool}

theorem lengths_absent {term : Term α} (needs : term.Needs set) {rest : List α}
    (absent : ∀ next ∈ rest, set next = false) (previous : Option α) :
    term.lengths previous rest = [] := by
  have first : rest.head?.any set = false := by
    cases rest with
    | nil => rfl
    | cons next rest => exact absent next List.mem_cons_self
  cases term with
  | one own =>
      rw [Term.Needs] at needs
      rw [Term.lengths, needs, first]
      rfl
  | many own least greedy =>
      obtain ⟨rfl, positive⟩ := needs
      have none : rest.takeWhile own = [] := by
        cases rest with
        | nil => rfl
        | cons next rest => exact List.takeWhile_cons_of_neg (by simpa using first)
      rw [List.eq_nil_iff_forall_not_mem]
      intro count member
      obtain ⟨enough, few⟩ := mem_many.mp member
      rw [none, List.length_nil] at few
      omega
  | optional word => cases needs
  | assertion holds => cases needs

theorem no_match_absent {pattern : List (Term α)} (needed : ∃ term ∈ pattern, term.Needs set)
    {rest : List α} (absent : ∀ next ∈ rest, set next = false) (previous : Option α) :
    matchAt pattern previous rest = none := by
  rw [match_none_iff]
  induction pattern generalizing previous rest with
  | nil =>
      obtain ⟨_, member, _⟩ := needed
      cases member
  | cons term terms ih =>
      obtain ⟨which, member, needs⟩ := needed
      rw [ways]
      rcases List.mem_cons.mp member with rfl | below
      · rw [lengths_absent needs absent]
        rfl
      · rw [List.flatMap_eq_nil_iff]
        intro count _
        rw [ih ⟨which, below, needs⟩ fun next there => absent next (List.mem_of_mem_drop there)]
        rfl

theorem replace_absent {pattern : List (Term α)} (needed : ∃ term ∈ pattern, term.Needs set)
    {text : List α} (absent : ∀ next ∈ text, set next = false) (made : List α)
    (previous : Option α) : replaceFrom pattern made 0 previous text = text := by
  induction text generalizing previous with
  | nil => rw [replaceFrom, no_match_absent needed absent]
  | cons next rest ih =>
      rw [replaceFrom, no_match_absent needed absent]
      dsimp only
      rw [ih fun other member => absent other (List.mem_cons_of_mem _ member)]

end Absent

def Blind (pattern : List (Term α)) : Prop :=
  ∀ previous other rest, matchAt pattern previous rest = matchAt pattern other rest

section LookingBack
variable {pattern : List (Term α)} {made : List α}

theorem replace_anywhere (blind : Blind pattern) (text : List α) (skip : Nat)
    (previous other : Option α) :
    replaceFrom pattern made skip previous text = replaceFrom pattern made skip other text := by
  cases text with
  | nil =>
      cases skip with
      | zero => rw [replaceFrom, replaceFrom, blind previous other]
      | succ skip => rw [replaceFrom, replaceFrom]
  | cons next rest =>
      cases skip with
      | zero => rw [replaceFrom, replaceFrom, blind previous other]
      | succ skip => rw [replaceFrom, replaceFrom]

theorem replace_skip (blind : Blind pattern) {front rest : List α} (previous : Option α) :
    replaceFrom pattern made front.length previous (front ++ rest) =
      replaceAll pattern made rest := by
  induction front generalizing previous with
  | nil => exact replace_anywhere blind rest 0 previous none
  | cons next front ih =>
      rw [List.length_cons, List.cons_append, replaceFrom]
      exact ih _

theorem replace_hit (blind : Blind pattern) {front rest : List α} {lengths : List Nat}
    (found : matchAt pattern none (front ++ rest) = some lengths)
    (whole : lengths.sum = front.length) (some_letter : front ≠ []) :
    replaceAll pattern made (front ++ rest) = made ++ replaceAll pattern made rest := by
  obtain ⟨next, front, rfl⟩ := List.exists_cons_of_ne_nil some_letter
  rw [List.cons_append] at found
  rw [replaceAll, List.cons_append, replaceFrom, found]
  dsimp only
  rw [whole, List.length_cons]
  dsimp only
  rw [replace_skip blind]

theorem replace_miss (blind : Blind pattern) {next : α} {rest : List α}
    (miss : matchAt pattern none (next :: rest) = none) :
    replaceAll pattern made (next :: rest) = next :: replaceAll pattern made rest := by
  rw [replaceAll, replaceFrom, miss]
  dsimp only
  rw [replace_anywhere blind rest 0 (some next) none]
  rfl

theorem search_anywhere (blind : Blind pattern) (text : List α) (previous other : Option α) :
    search pattern previous text = search pattern other text := by
  cases text with
  | nil => rw [search, search, blind previous other]
  | cons next rest => rw [search, search, blind previous other]

theorem first_piece_hit {text : List α} {lengths : List Nat}
    (found : matchAt pattern none text = some lengths) : firstPiece pattern text = [] := by
  unfold firstPiece
  cases text with
  | nil =>
      rw [search, found]
      rfl
  | cons next rest =>
      rw [search, found]

theorem first_piece_miss (blind : Blind pattern) {next : α} {rest : List α}
    (miss : matchAt pattern none (next :: rest) = none) :
    firstPiece pattern (next :: rest) = next :: firstPiece pattern rest := by
  unfold firstPiece
  rw [search, miss, search_anywhere blind rest none (some next)]
  cases search pattern (some next) rest with
  | none => rfl
  | some found => rfl

end LookingBack

def avoids (word : List (α → Bool)) (letter : α) : Bool := word.all fun set => !set letter

theorem avoids_iff {word : List (α → Bool)} {letter : α} :
    avoids word letter = true ↔ ∀ set ∈ word, set letter = false := by
  simp [avoids]

def literal (word : List (α → Bool)) : List (Term α) := word.map .one

section Words
variable {word : List (α → Bool)} {made : List α}

theorem ways_literal (word : List (α → Bool)) (previous : Option α) (rest : List α) :
    ways (literal word) previous rest =
      if spells word rest then [List.replicate word.length 1] else [] := by
  induction word generalizing previous rest with
  | nil => rfl
  | cons set word ih =>
      cases rest with
      | nil => rfl
      | cons next rest =>
          rw [literal, List.map_cons, ways, Term.lengths, spells]
          change ((if set next then [1] else []).flatMap fun count =>
            (ways (literal word) (behind previous (next :: rest) count)
              ((next :: rest).drop count)).map (count :: ·)) = _
          cases set next with
          | false => rfl
          | true =>
              rw [if_pos rfl, List.flatMap_singleton, ih, Bool.true_and]
              change List.map _ (if spells word rest then _ else _) = _
              split <;> rfl

theorem match_literal (word : List (α → Bool)) (previous : Option α) (rest : List α) :
    matchAt (literal word) previous rest =
      if spells word rest then some (List.replicate word.length 1) else none := by
  rw [matchAt, ways_literal]
  split <;> rfl

theorem literal_blind (word : List (α → Bool)) : Blind (literal word) := by
  intro previous other rest
  rw [match_literal, match_literal]

def replaceWord (word : List (α → Bool)) (made text : List α) : List α :=
  replaceAll (literal word) made text

theorem replace_word_nil (some_letter : word ≠ []) : replaceWord word made [] = [] := by
  obtain ⟨set, word, rfl⟩ := List.exists_cons_of_ne_nil some_letter
  rfl

theorem replace_word_miss {next : α} {rest : List α} (miss : spells word (next :: rest) = false) :
    replaceWord word made (next :: rest) = next :: replaceWord word made rest := by
  apply replace_miss (literal_blind word)
  rw [match_literal, miss, if_neg Bool.false_ne_true]

theorem spells_append {front : List α} (spelled : spells word front = true) (rest : List α) :
    spells word (front ++ rest) = true := by
  induction word generalizing front with
  | nil => rfl
  | cons set word ih =>
      cases front with
      | nil => cases spelled
      | cons next front =>
          rw [spells, Bool.and_eq_true] at spelled
          rw [List.cons_append, spells, spelled.1, ih spelled.2]
          rfl

theorem replace_word_hit (some_letter : word ≠ []) {front : List α}
    (spelled : spells word front = true) (exact_length : front.length = word.length)
    (rest : List α) : replaceWord word made (front ++ rest) = made ++ replaceWord word made rest := by
  have found : matchAt (literal word) none (front ++ rest) =
      some (List.replicate word.length 1) := by
    rw [match_literal, spells_append spelled, if_pos rfl]
  have whole : (List.replicate word.length 1).sum = front.length := by
    rw [List.sum_replicate_nat, exact_length, Nat.mul_one]
  have some_front : front ≠ [] := by
    rw [← List.length_pos_iff, exact_length]
    exact List.length_pos_of_ne_nil some_letter
  exact replace_hit (literal_blind word) found whole some_front

theorem spells_take {text : List α} (spelled : spells word text = true) :
    spells word (text.take word.length) = true ∧ (text.take word.length).length = word.length := by
  induction word generalizing text with
  | nil => exact ⟨rfl, rfl⟩
  | cons set word ih =>
      cases text with
      | nil => cases spelled
      | cons next text =>
          rw [spells, Bool.and_eq_true] at spelled
          obtain ⟨rest, exact_length⟩ := ih spelled.2
          rw [List.length_cons, List.take_succ_cons, spells, spelled.1, rest, List.length_cons,
            exact_length]
          exact ⟨rfl, rfl⟩

theorem word_induction {motive : List α → Prop} (some_letter : word ≠ []) (nil : motive [])
    (miss : ∀ next rest, spells word (next :: rest) = false → motive rest → motive (next :: rest))
    (hit : ∀ front rest, spells word front = true → front.length = word.length → motive rest →
      motive (front ++ rest)) (text : List α) : motive text := by
  -- A text is read as the replacement reads it: a character where no word starts, or a word.
  induction size : text.length using Nat.strongRecOn generalizing text with
  | ind size ih =>
      subst size
      cases text with
      | nil => exact nil
      | cons next rest =>
          cases starts : spells word (next :: rest) with
          | false => exact miss next rest starts (ih _ (Nat.lt_succ_self _) rest rfl)
          | true =>
              obtain ⟨spelled, exact_length⟩ := spells_take starts
              have shorter : ((next :: rest).drop word.length).length < (next :: rest).length := by
                have := List.length_pos_of_ne_nil some_letter
                rw [List.length_drop, List.length_cons]
                omega
              have whole := hit _ _ spelled exact_length (ih _ shorter _ rfl)
              rwa [List.take_append_drop] at whole

def Occurs (word : List (α → Bool)) (text : List α) : Prop :=
  ∃ earlier later, text = earlier ++ later ∧ spells word later = true

theorem occurs_cons {next : α} {rest : List α} : Occurs word (next :: rest) ↔
    spells word (next :: rest) = true ∨ Occurs word rest := by
  constructor
  · rintro ⟨earlier, later, split, spelled⟩
    cases earlier with
    | nil =>
        rw [List.nil_append] at split
        exact Or.inl (split ▸ spelled)
    | cons first earlier =>
        rw [List.cons_append, List.cons.injEq] at split
        exact Or.inr ⟨earlier, later, split.2, spelled⟩
  · rintro (spelled | ⟨earlier, later, rfl, spelled⟩)
    · exact ⟨[], _, rfl, spelled⟩
    · exact ⟨next :: earlier, later, rfl, spelled⟩

theorem replace_word_absent (some_letter : word ≠ []) {text : List α}
    (absent : ¬ Occurs word text) : replaceWord word made text = text := by
  induction text with
  | nil => exact replace_word_nil some_letter
  | cons next rest ih =>
      rw [occurs_cons, not_or, Bool.not_eq_true] at absent
      rw [replace_word_miss absent.1, ih absent.2]

theorem replace_word_length (some_letter : word ≠ []) (less : made.length < word.length)
    (text : List α) : (replaceWord word made text).length ≤ text.length := by
  induction text using word_induction some_letter with
  | nil =>
      exact Nat.le_of_eq (congrArg List.length (replace_word_nil some_letter))
  | miss next rest starts ih =>
      rw [replace_word_miss starts]
      exact Nat.succ_le_succ ih
  | hit front rest spelled exact_length ih =>
      rw [replace_word_hit some_letter spelled exact_length, List.length_append,
        List.length_append, exact_length]
      omega

theorem replace_word_shorter (some_letter : word ≠ []) (less : made.length < word.length)
    {text : List α} (occurs : Occurs word text) :
    (replaceWord word made text).length < text.length := by
  induction text using word_induction some_letter with
  | nil =>
      obtain ⟨earlier, later, split, spelled⟩ := occurs
      rw [(List.append_eq_nil_iff.mp split.symm).2] at spelled
      obtain ⟨set, others, rfl⟩ := List.exists_cons_of_ne_nil some_letter
      cases spelled
  | miss next rest starts ih =>
      rw [replace_word_miss starts]
      rcases occurs_cons.mp occurs with spelled | below
      · rw [starts] at spelled
        cases spelled
      · exact Nat.succ_lt_succ (ih below)
  | hit front rest spelled exact_length ih =>
      have others := replace_word_length some_letter less rest
      rw [replace_word_hit some_letter spelled exact_length, List.length_append,
        List.length_append, exact_length]
      omega

end Words

section Pieces
variable {word : List (α → Bool)} {made : List α}

def clashes : List (α → Bool) → List α → Bool
  | set :: word, next :: rest => !set next || clashes word rest
  | _, _ => false

def clear (word : List (α → Bool)) : List α → Bool
  | [] => true
  | next :: rest => clashes word (next :: rest) && clear word rest

theorem clashes_spells {piece : List α} (apart : clashes word piece = true) (rest : List α) :
    spells word (piece ++ rest) = false := by
  induction word generalizing piece with
  | nil => cases piece <;> cases apart
  | cons set word ih =>
      cases piece with
      | nil => cases apart
      | cons next piece =>
          rw [List.cons_append, spells]
          rw [clashes, Bool.or_eq_true, Bool.not_eq_true'] at apart
          rcases apart with first | later
          · rw [first]
            rfl
          · rw [ih later, Bool.and_false]

theorem replace_word_pass {piece : List α} (passes : clear word piece = true) (rest : List α) :
    replaceWord word made (piece ++ rest) = piece ++ replaceWord word made rest := by
  induction piece with
  | nil => rfl
  | cons next piece ih =>
      rw [clear, Bool.and_eq_true] at passes
      have miss : spells word (next :: (piece ++ rest)) = false := clashes_spells passes.1 rest
      rw [List.cons_append, replace_word_miss miss, ih passes.2, List.cons_append]

theorem occurs_pass {piece : List α} (passes : clear word piece = true) (rest : List α) :
    Occurs word (piece ++ rest) ↔ Occurs word rest := by
  induction piece with
  | nil => rfl
  | cons next piece ih =>
      rw [clear, Bool.and_eq_true] at passes
      have miss : spells word (next :: (piece ++ rest)) = false := clashes_spells passes.1 rest
      rw [List.cons_append, occurs_cons, miss, ih passes.2]
      simp

theorem replace_word_pieces {pieces : α → List α} (some_letter : word ≠ []) {text : List α}
    (passes : ∀ next ∈ text, clear word (pieces next) = true) :
    replaceWord word made (text.flatMap pieces) = text.flatMap pieces := by
  induction text with
  | nil => exact replace_word_nil some_letter
  | cons next rest ih =>
      rw [List.flatMap_cons, replace_word_pass (passes next List.mem_cons_self),
        ih fun other member => passes other (List.mem_cons_of_mem _ member)]

theorem not_occurs_pieces {pieces : α → List α} (some_letter : word ≠ []) {text : List α}
    (passes : ∀ next ∈ text, clear word (pieces next) = true) :
    ¬ Occurs word (text.flatMap pieces) := by
  induction text with
  | nil =>
      rintro ⟨earlier, later, split, spelled⟩
      rw [(List.append_eq_nil_iff.mp split.symm).2] at spelled
      obtain ⟨set, others, rfl⟩ := List.exists_cons_of_ne_nil some_letter
      cases spelled
  | cons next rest ih =>
      rw [List.flatMap_cons, occurs_pass (passes next List.mem_cons_self)]
      exact ih fun other member => passes other (List.mem_cons_of_mem _ member)

theorem replace_letter (letter : α → Bool) (text : List α) : replaceWord [letter] made text =
    text.flatMap fun next => if letter next then made else [next] := by
  induction text with
  | nil => rfl
  | cons next rest ih =>
      rw [List.flatMap_cons, ← ih]
      cases found : letter next with
      | false =>
          have miss : spells [letter] (next :: rest) = false := by
            rw [spells, found]
            rfl
          rw [replace_word_miss miss]
          rfl
      | true =>
          have hit : spells [letter] [next] = true := by
            rw [spells, found]
            rfl
          exact replace_word_hit (List.cons_ne_nil _ _) hit rfl rest

theorem mem_replace_word (some_letter : word ≠ []) {text : List α} {letter : α}
    (member : letter ∈ replaceWord word made text) : letter ∈ made ∨ letter ∈ text := by
  induction text using word_induction some_letter with
  | nil =>
      rw [replace_word_nil some_letter] at member
      exact Or.inr member
  | miss next rest starts ih =>
      rw [replace_word_miss starts] at member
      rcases List.mem_cons.mp member with rfl | below
      · exact Or.inr List.mem_cons_self
      · exact (ih below).imp_right (List.mem_cons_of_mem _)
  | hit front rest spelled exact_length ih =>
      rw [replace_word_hit some_letter spelled exact_length] at member
      rcases List.mem_append.mp member with new | below
      · exact Or.inl new
      · exact (ih below).imp_right (List.mem_append_right _)

end Pieces

section Escapes
variable {word : List (α → Bool)}

theorem spells_escaped {escape : α → List α}
    (starts : ∀ letter, escape letter = [letter] ∨
      ∃ first rest, escape letter = first :: rest ∧ ∀ set ∈ word, set first = false)
    {text : List α} (spelled : spells word (text.flatMap escape) = true) :
    spells word text = true := by
  -- A word is not made by escaping.
  induction word generalizing text with
  | nil => rfl
  | cons set word ih =>
      cases text with
      | nil => cases spelled
      | cons next rest =>
          rcases starts next with same | ⟨first, others, escaped, outside⟩
          · rw [List.flatMap_cons, same, List.singleton_append, spells, Bool.and_eq_true] at spelled
            rw [spells, spelled.1, Bool.true_and]
            apply ih (fun letter => (starts letter).imp_right ?_) spelled.2
            rintro ⟨first, others, escaped, outside⟩
            exact ⟨first, others, escaped, fun set member =>
              outside set (List.mem_cons_of_mem _ member)⟩
          · rw [List.flatMap_cons, escaped, List.cons_append, spells,
              outside set List.mem_cons_self] at spelled
            cases spelled

/-- `word` reads back what `letter` is escaped to; other escapes are out of its way, and
none of them starts with what the word goes on with. -/
structure Unescapes (word : List (α → Bool)) (letter : α) (escape left : α → List α) : Prop where
  some_letter : word ≠ []
  spelled : spells word (escape letter) = true
  exact_length : (escape letter).length = word.length
  undone : left letter = [letter]
  kept : ∀ other, other ≠ letter → left other = escape other ∧
    (escape other = [other] ∨ clear word (escape other) = true)
  plain : ∀ other, escape other = [other] ∨ ∀ set ∈ word, set other = false
  starts : ∀ other, escape other = [other] ∨
    ∃ first rest, escape other = first :: rest ∧ ∀ set ∈ word.tail, set first = false

theorem flat_map_spelled {escape : α → List α} {front : List α}
    (plain : ∀ other, escape other = [other] ∨ ∀ set ∈ word, set other = false)
    (spelled : spells word front = true) (exact_length : front.length = word.length) :
    front.flatMap escape = front := by
  induction word generalizing front with
  | nil =>
      rw [List.length_eq_zero_iff.mp exact_length]
      rfl
  | cons set word ih =>
      cases front with
      | nil => rfl
      | cons next front =>
          rw [spells, Bool.and_eq_true] at spelled
          have same : escape next = [next] := by
            refine (plain next).resolve_right fun outside => ?_
            rw [outside set List.mem_cons_self] at spelled
            cases spelled.1
          have others := ih (fun other => (plain other).imp_right fun outside set member =>
            outside set (List.mem_cons_of_mem _ member)) spelled.2 (Nat.succ.inj exact_length)
          rw [List.flatMap_cons, same, others, List.singleton_append]

/-- One escape is undone; what looks like one in the text itself is read as one as well. -/
theorem undo_escape {letter : α} {escape left : α → List α}
    (unescapes : Unescapes word letter escape left) (text : List α) :
    replaceWord word [letter] (text.flatMap escape) =
      (replaceWord word [letter] text).flatMap left := by
  have some_letter := unescapes.some_letter
  induction text using word_induction some_letter with
  | nil =>
      rw [List.flatMap_nil, replace_word_nil some_letter, List.flatMap_nil]
  | miss next rest starts ih =>
      rw [List.flatMap_cons, replace_word_miss starts, List.flatMap_cons]
      by_cases own : next = letter
      · rw [own, unescapes.undone, replace_word_hit some_letter unescapes.spelled
          unescapes.exact_length, ih]
      · obtain ⟨same, untouched | passes⟩ := unescapes.kept next own
        · have still : spells word (next :: rest.flatMap escape) = false := by
            obtain ⟨set, others, rfl⟩ := List.exists_cons_of_ne_nil some_letter
            rw [Bool.eq_false_iff]
            intro spelled
            rw [spells, Bool.and_eq_true] at spelled
            have below : spells others rest = true :=
              spells_escaped unescapes.starts spelled.2
            rw [spells, spelled.1, below] at starts
            cases starts
          rw [same, untouched, List.singleton_append, List.singleton_append,
            replace_word_miss still, ih]
        · rw [same, replace_word_pass passes, ih]
  | hit front rest spelled exact_length ih =>
      rw [List.flatMap_append, flat_map_spelled unescapes.plain spelled exact_length,
        replace_word_hit some_letter spelled exact_length,
        replace_word_hit some_letter spelled exact_length, ih, List.flatMap_append,
        List.flatMap_singleton, unescapes.undone]

end Escapes

end OsClientCerts.RegularExpressions
