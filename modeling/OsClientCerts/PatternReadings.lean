import OsClientCerts.RegularExpressions

/-!
What a pattern reads at a place: which texts its terms take there, which of them it prefers,
and where a search finds it.
-/

namespace OsClientCerts.RegularExpressions
variable {α : Type}

/-- The pattern matches at this place. -/
def Reads (pattern : List (Term α)) (previous : Option α) (rest : List α) : Prop :=
  ∃ lengths, lengths ∈ ways pattern previous rest

section Reading
variable {pattern : List (Term α)} {previous : Option α} {rest : List α} {lengths : List Nat}

theorem match_reads (found : matchAt pattern previous rest = some lengths) :
    lengths ∈ ways pattern previous rest :=
  List.mem_of_mem_head? (Option.mem_def.mpr found)

theorem match_some_iff :
    (∃ lengths, matchAt pattern previous rest = some lengths) ↔ Reads pattern previous rest := by
  constructor
  · rintro ⟨lengths, found⟩
    exact ⟨lengths, match_reads found⟩
  · rintro ⟨lengths, way⟩
    cases found : matchAt pattern previous rest with
    | some first => exact ⟨first, rfl⟩
    | none =>
        rw [match_none_iff.mp found] at way
        cases way

theorem match_none_reads : matchAt pattern previous rest = none ↔ ¬ Reads pattern previous rest := by
  rw [← match_some_iff, Option.eq_none_iff_forall_ne_some, not_exists]

theorem last_or_cons (next : α) (front : List α) (previous : Option α) :
    (next :: front).getLast?.or previous = front.getLast?.or (some next) := by
  rw [List.getLast?_cons]
  cases front.getLast? <;> rfl

theorem behind_append (taken later : List α) (previous : Option α) :
    behind previous (taken ++ later) taken.length = taken.getLast?.or previous := by
  rcases taken.eq_nil_or_concat with rfl | ⟨front, last, rfl⟩
  · rfl
  · rw [List.concat_eq_append, List.length_append, List.length_singleton, behind]
    simp

theorem spells_length {word : List (α → Bool)} (spelled : spells word rest = true) :
    word.length ≤ rest.length := by
  have whole := (spells_take spelled).2
  rw [List.length_take] at whole
  omega

theorem mem_optional {word : List (α → Bool)} {count : Nat} :
    count ∈ (Term.optional word).lengths previous rest ↔
      count = 0 ∨ (count = word.length ∧ spells word rest = true) := by
  rw [Term.lengths]
  cases spells word rest <;> simp [or_comm]

theorem mem_assertion {holds : Option α → Option α → Bool} {count : Nat} :
    count ∈ (Term.assertion holds).lengths previous rest ↔
      holds previous rest.head? = true ∧ count = 0 := by
  rw [Term.lengths]
  cases holds previous rest.head? <;> simp

theorem lengths_le {term : Term α} {count : Nat} (member : count ∈ term.lengths previous rest) :
    count ≤ rest.length := by
  cases term with
  | one set =>
      obtain ⟨first, rfl⟩ := mem_one.mp member
      cases rest with
      | nil => cases first
      | cons next rest => exact Nat.succ_le_succ (Nat.zero_le _)
  | many set least greedy =>
      exact Nat.le_trans (mem_many.mp member).2 (List.takeWhile_prefix _).length_le
  | optional word =>
      rcases mem_optional.mp member with rfl | ⟨rfl, spelled⟩
      · exact Nat.zero_le _
      · exact spells_length spelled
  | assertion holds => exact (mem_assertion.mp member).2 ▸ Nat.zero_le _

/-- A term takes what the text starts with. -/
theorem mem_ways_taken {term : Term α} : lengths ∈ ways (term :: pattern) previous rest ↔
    ∃ taken later others, rest = taken ++ later ∧ lengths = taken.length :: others ∧
      taken.length ∈ term.lengths previous (taken ++ later) ∧
      others ∈ ways pattern (taken.getLast?.or previous) later := by
  rw [mem_ways_cons]
  constructor
  · rintro ⟨count, others, rfl, member, way⟩
    have whole : (rest.take count).length = count := List.length_take_of_le (lengths_le member)
    have same : rest = rest.take count ++ rest.drop count := (List.take_append_drop _ _).symm
    have back := behind_append (rest.take count) (rest.drop count) previous
    rw [whole, ← same] at back
    refine ⟨rest.take count, rest.drop count, others, same, by rw [whole], ?_, ?_⟩
    · rwa [← same, whole]
    · rwa [← back]
  · rintro ⟨taken, later, others, rfl, rfl, member, way⟩
    refine ⟨taken.length, others, rfl, member, ?_⟩
    rwa [behind_append, List.drop_left]

theorem takes_iff {set : α → Bool} {taken later : List α} :
    taken.length ≤ ((taken ++ later).takeWhile set).length ↔ ∀ next ∈ taken, set next = true := by
  induction taken with
  | nil => simp
  | cons next taken ih =>
      rw [List.cons_append, List.takeWhile_cons, List.forall_mem_cons]
      cases set next with
      | false => simp
      | true =>
          rw [if_pos rfl, List.length_cons, List.length_cons, Nat.add_le_add_iff_right, ih]
          simp

theorem mem_ways_many {set : α → Bool} {least : Nat} {greedy : Bool} :
    lengths ∈ ways (.many set least greedy :: pattern) previous rest ↔
      ∃ taken later others, rest = taken ++ later ∧ lengths = taken.length :: others ∧
        (least ≤ taken.length ∧ ∀ next ∈ taken, set next = true) ∧
        others ∈ ways pattern (taken.getLast?.or previous) later := by
  simp only [mem_ways_taken, mem_many, takes_iff]

theorem mem_ways_one {set : α → Bool} : lengths ∈ ways (.one set :: pattern) previous rest ↔
    ∃ next later others, rest = next :: later ∧ lengths = 1 :: others ∧ set next = true ∧
      others ∈ ways pattern (some next) later := by
  rw [mem_ways_cons]
  constructor
  · rintro ⟨count, others, rfl, member, way⟩
    obtain ⟨first, rfl⟩ := mem_one.mp member
    cases rest with
    | nil => cases first
    | cons next later => exact ⟨next, later, others, rfl, rfl, first, way⟩
  · rintro ⟨next, later, others, rfl, rfl, inside, way⟩
    exact ⟨1, others, rfl, mem_one.mpr ⟨inside, rfl⟩, way⟩

theorem mem_ways_assertion {holds : Option α → Option α → Bool} :
    lengths ∈ ways (.assertion holds :: pattern) previous rest ↔
      ∃ others, lengths = 0 :: others ∧ holds previous rest.head? = true ∧
        others ∈ ways pattern previous rest := by
  rw [mem_ways_cons]
  constructor
  · rintro ⟨count, others, rfl, member, way⟩
    obtain ⟨held, rfl⟩ := mem_assertion.mp member
    exact ⟨others, rfl, held, way⟩
  · rintro ⟨others, rfl, held, way⟩
    exact ⟨0, others, rfl, mem_assertion.mpr ⟨held, rfl⟩, way⟩

theorem mem_ways_literal {word : List (α → Bool)} :
    lengths ∈ ways (literal word ++ pattern) previous rest ↔
      ∃ taken later others, rest = taken ++ later ∧
        lengths = List.replicate word.length 1 ++ others ∧ spells word taken = true ∧
        taken.length = word.length ∧ others ∈ ways pattern (taken.getLast?.or previous) later := by
  induction word generalizing previous rest lengths with
  | nil =>
      constructor
      · intro way
        exact ⟨[], rest, lengths, rfl, rfl, rfl, rfl, way⟩
      · rintro ⟨taken, later, others, rfl, rfl, _, empty, way⟩
        obtain rfl := List.length_eq_zero_iff.mp empty
        exact way
  | cons set word ih =>
      change lengths ∈ ways (.one set :: (literal word ++ pattern)) previous rest ↔ _
      rw [mem_ways_one]
      constructor
      · rintro ⟨next, later, others, rfl, rfl, inside, way⟩
        obtain ⟨taken, rest, left, rfl, rfl, spelled, exact_length, way⟩ := ih.mp way
        refine ⟨next :: taken, rest, left, rfl, rfl, ?_, congrArg Nat.succ exact_length, ?_⟩
        · rw [spells, inside, spelled]
          rfl
        · rwa [last_or_cons]
      · rintro ⟨taken, rest, left, rfl, rfl, spelled, exact_length, way⟩
        cases taken with
        | nil => cases exact_length
        | cons next taken =>
            rw [spells, Bool.and_eq_true] at spelled
            refine ⟨next, taken ++ rest, _, rfl, rfl, spelled.1, ih.mpr ⟨taken, rest, left, rfl, rfl,
              spelled.2, Nat.succ.inj exact_length, ?_⟩⟩
            rwa [last_or_cons] at way

theorem match_first {term : Term α} {count : Nat} {others : List Nat}
    (preferred : (term.lengths previous rest).head? = some count)
    (found : matchAt pattern (behind previous rest count) (rest.drop count) = some others) :
    matchAt (term :: pattern) previous rest = some (count :: others) := by
  -- The first choice of a term that lets the others match is the match.
  obtain ⟨left, choices⟩ := List.head?_eq_some_iff.mp preferred
  obtain ⟨more, all⟩ := List.head?_eq_some_iff.mp found
  rw [matchAt, ways, choices, List.flatMap_cons, all]
  rfl

theorem match_assertion {holds : Option α → Option α → Bool} (held : holds previous rest.head? = true)
    (found : matchAt pattern previous rest = some lengths) :
    matchAt (.assertion holds :: pattern) previous rest = some (0 :: lengths) := by
  apply match_first
  · rw [Term.lengths, if_pos held]
    rfl
  · exact found

theorem drop_while_ends (set : α → Bool) (text : List α) :
    (text.dropWhile set).head?.any set = false := by
  cases split : text.dropWhile set with
  | nil => rfl
  | cons first rest =>
      have stopped := List.head_dropWhile_not set (l := text) (split ▸ List.cons_ne_nil _ _)
      simpa [split] using stopped

theorem match_one {set : α → Bool} {next : α} (inside : set next = true)
    (found : matchAt pattern (some next) rest = some lengths) :
    matchAt (.one set :: pattern) previous (next :: rest) = some (1 :: lengths) := by
  apply match_first
  · rw [Term.lengths, List.head?_cons, Option.any_some, if_pos inside]
    rfl
  · exact found

theorem match_greedy {set : α → Bool} {least : Nat} {taken later : List α}
    (all : ∀ next ∈ taken, set next = true) (ends : later.head?.any set = false)
    (enough : least ≤ taken.length)
    (found : matchAt pattern (taken.getLast?.or previous) later = some lengths) :
    matchAt (.many set least true :: pattern) previous (taken ++ later) =
      some (taken.length :: lengths) := by
  have stops : later.takeWhile set = [] := by
    cases later with
    | nil => rfl
    | cons next later => exact List.takeWhile_cons_of_neg (by simpa using ends)
  have run : (taken ++ later).takeWhile set = taken := by
    rw [List.takeWhile_append_of_pos all, stops, List.append_nil]
  apply match_first
  · rw [Term.lengths, run, if_pos rfl, List.head?_reverse, List.range_succ, List.filter_append,
      List.filter_cons_of_pos (by simpa using enough), List.filter_nil, List.getLast?_concat]
  · rwa [behind_append, List.drop_left]

theorem match_word {word : List (α → Bool)} {taken later : List α}
    (spelled : spells word taken = true) (exact_length : taken.length = word.length)
    (found : matchAt pattern (taken.getLast?.or previous) later = some lengths) :
    matchAt (literal word ++ pattern) previous (taken ++ later) =
      some (List.replicate word.length 1 ++ lengths) := by
  induction word generalizing taken previous with
  | nil =>
      obtain rfl := List.length_eq_zero_iff.mp exact_length
      exact found
  | cons set word ih =>
      cases taken with
      | nil => cases exact_length
      | cons next taken =>
          rw [spells, Bool.and_eq_true] at spelled
          rw [last_or_cons] at found
          exact match_one spelled.1 (ih spelled.2 (Nat.succ.inj exact_length) found)

theorem ways_one_anywhere {set : α → Bool} (other : Option α) :
    ways (.one set :: pattern) previous rest = ways (.one set :: pattern) other rest := by
  rw [ways, ways, Term.lengths, Term.lengths]
  split
  · rw [List.flatMap_singleton, List.flatMap_singleton]
    rfl
  · rfl

/-- The leftmost place is found, and what the pattern prefers there. -/
theorem search_some_iff {text front later : List α} :
    search pattern previous text = some (front, lengths, later) ↔
      text = front ++ later ∧ matchAt pattern (front.getLast?.or previous) later = some lengths ∧
        ∀ earlier rest, text = earlier ++ rest → earlier.length < front.length →
          ¬ Reads pattern (earlier.getLast?.or previous) rest := by
  induction text generalizing previous front with
  | nil =>
      rw [search, Option.map_eq_some_iff]
      constructor
      · rintro ⟨_, found, same⟩
        cases same
        exact ⟨rfl, found, fun _ _ _ shorter => absurd shorter (Nat.not_lt_zero _)⟩
      · rintro ⟨split, found, _⟩
        obtain ⟨rfl, rfl⟩ := List.append_eq_nil_iff.mp split.symm
        exact ⟨lengths, found, rfl⟩
  | cons next text ih =>
      rw [search]
      cases here : matchAt pattern previous (next :: text) with
      | some first =>
          constructor
          · intro same
            cases same
            exact ⟨rfl, here, fun _ _ _ shorter => absurd shorter (Nat.not_lt_zero _)⟩
          · rintro ⟨split, found, leftmost⟩
            cases front with
            | nil =>
                obtain rfl : next :: text = later := split
                obtain rfl : first = lengths := Option.some.inj (here.symm.trans found)
                rfl
            | cons letter front =>
                exact absurd (match_some_iff.mp ⟨first, here⟩)
                  (leftmost [] _ rfl (Nat.succ_pos _))
      | none =>
          have silent := match_none_reads.mp here
          rw [Option.map_eq_some_iff]
          constructor
          · rintro ⟨⟨front, found⟩, below, same⟩
            cases same
            obtain ⟨rfl, found, leftmost⟩ := ih.mp below
            refine ⟨rfl, by rwa [last_or_cons], fun earlier rest split shorter => ?_⟩
            cases earlier with
            | nil =>
                obtain rfl : _ = rest := split
                exact silent
            | cons letter earlier =>
                rw [List.cons_append, List.cons.injEq] at split
                obtain ⟨rfl, split⟩ := split
                rw [last_or_cons]
                exact leftmost earlier rest split (Nat.lt_of_succ_lt_succ shorter)
          · rintro ⟨split, found, leftmost⟩
            cases front with
            | nil =>
                obtain rfl : next :: text = later := split
                cases here.symm.trans found
            | cons letter front =>
                rw [List.cons_append, List.cons.injEq] at split
                obtain ⟨rfl, split⟩ := split
                rw [last_or_cons] at found
                refine ⟨(front, lengths, later), ih.mpr ⟨split, found, ?_⟩, rfl⟩
                intro earlier rest same shorter
                have above := leftmost (next :: earlier) rest (congrArg (next :: ·) same)
                  (Nat.succ_lt_succ shorter)
                rwa [last_or_cons] at above

theorem spells_excludes {word : List (α → Bool)} {taken : List α} {letter : α}
    (excluded : ∀ set ∈ word, set letter = false) (spelled : spells word taken = true)
    (exact_length : taken.length = word.length) : letter ∉ taken := by
  induction word generalizing taken with
  | nil =>
      rw [List.length_eq_zero_iff.mp exact_length]
      exact List.not_mem_nil
  | cons set word ih =>
      cases taken with
      | nil => exact List.not_mem_nil
      | cons next taken =>
          obtain ⟨own, below⟩ := List.forall_mem_cons.mp excluded
          rw [spells, Bool.and_eq_true] at spelled
          intro member
          rcases List.mem_cons.mp member with rfl | inside
          · rw [own] at spelled
            cases spelled.1
          · exact ih below spelled.2 (Nat.succ.inj exact_length) inside

theorem search_none_iff {text : List α} : search pattern previous text = none ↔
    ∀ front later, text = front ++ later → ¬ Reads pattern (front.getLast?.or previous) later := by
  induction text generalizing previous with
  | nil =>
      rw [search, Option.map_eq_none_iff, match_none_reads]
      constructor
      · intro silent front later split
        obtain ⟨rfl, rfl⟩ := List.append_eq_nil_iff.mp split.symm
        exact silent
      · intro silent
        exact silent [] [] rfl
  | cons next text ih =>
      rw [search]
      cases here : matchAt pattern previous (next :: text) with
      | some first =>
          refine iff_of_false (by simp) fun silent => ?_
          exact silent [] _ rfl (match_some_iff.mp ⟨first, here⟩)
      | none =>
          rw [Option.map_eq_none_iff, ih]
          constructor
          · intro silent front later split
            cases front with
            | nil =>
                obtain rfl : next :: text = later := split
                exact match_none_reads.mp here
            | cons letter front =>
                rw [List.cons_append, List.cons.injEq] at split
                obtain ⟨rfl, split⟩ := split
                rw [last_or_cons]
                exact silent front later split
          · intro silent front later split
            have above := silent (next :: front) later (congrArg (next :: ·) split)
            rwa [last_or_cons] at above

theorem test_iff {text : List α} : test pattern text = true ↔
    ∃ front later, text = front ++ later ∧ Reads pattern front.getLast? later := by
  rw [test, Option.isSome_iff_ne_none, ne_eq, search_none_iff]
  simp only [Option.or_none, not_forall, not_not, exists_prop]

theorem reads_literal {word : List (α → Bool)} :
    Reads (literal word) previous rest ↔ spells word rest = true := by
  rw [← match_some_iff, match_literal]
  cases spells word rest <;> simp

theorem test_literal {word : List (α → Bool)} {text : List α} :
    test (literal word) text = true ↔ Occurs word text := by
  simp only [test_iff, reads_literal]
  rfl

theorem spells_later {front word : List (α → Bool)} (spelled : spells (front ++ word) rest = true) :
    spells word (rest.drop front.length) = true := by
  induction front generalizing rest with
  | nil => exact spelled
  | cons set front ih =>
      cases rest with
      | nil => cases spelled
      | cons next rest => exact ih (Bool.and_eq_true_iff.mp spelled).2

theorem occurs_later {front word : List (α → Bool)} {text : List α}
    (occurs : Occurs (front ++ word) text) : Occurs word text := by
  obtain ⟨earlier, later, rfl, spelled⟩ := occurs
  refine ⟨earlier ++ later.take front.length, later.drop front.length, ?_, spells_later spelled⟩
  rw [List.append_assoc, List.take_append_drop]

end Reading

section Terms
variable {pattern : List (Term α)} {previous : Option α} {rest : List α}

theorem reads_one {set : α → Bool} : Reads (.one set :: pattern) previous rest ↔
    ∃ next later, rest = next :: later ∧ set next = true ∧ Reads pattern (some next) later := by
  constructor
  · rintro ⟨lengths, way⟩
    obtain ⟨next, later, others, split, -, inside, way⟩ := mem_ways_one.mp way
    exact ⟨next, later, split, inside, others, way⟩
  · rintro ⟨next, later, split, inside, others, way⟩
    exact ⟨_, mem_ways_one.mpr ⟨next, later, others, split, rfl, inside, way⟩⟩

theorem reads_many {set : α → Bool} {least : Nat} {greedy : Bool} :
    Reads (.many set least greedy :: pattern) previous rest ↔
      ∃ taken later, rest = taken ++ later ∧
        (least ≤ taken.length ∧ ∀ next ∈ taken, set next = true) ∧
        Reads pattern (taken.getLast?.or previous) later := by
  constructor
  · rintro ⟨lengths, way⟩
    obtain ⟨taken, later, others, split, -, inside, way⟩ := mem_ways_many.mp way
    exact ⟨taken, later, split, inside, others, way⟩
  · rintro ⟨taken, later, split, inside, others, way⟩
    exact ⟨_, mem_ways_many.mpr ⟨taken, later, others, split, rfl, inside, way⟩⟩

theorem reads_optional {word : List (α → Bool)} :
    Reads (.optional word :: pattern) previous rest ↔
      ∃ taken later, rest = taken ++ later ∧
        (taken = [] ∨ spells word taken = true ∧ taken.length = word.length) ∧
        Reads pattern (taken.getLast?.or previous) later := by
  constructor
  · rintro ⟨lengths, way⟩
    obtain ⟨taken, later, others, split, -, member, way⟩ := mem_ways_taken.mp way
    refine ⟨taken, later, split, ?_, others, way⟩
    rcases mem_optional.mp member with none | ⟨whole, spelled⟩
    · exact Or.inl (List.length_eq_zero_iff.mp none)
    · have own := (spells_take spelled).1
      rw [← whole, List.take_left] at own
      exact Or.inr ⟨own, whole⟩
  · rintro ⟨taken, later, split, inside, others, way⟩
    refine ⟨_, mem_ways_taken.mpr ⟨taken, later, others, split, rfl, mem_optional.mpr ?_, way⟩⟩
    rcases inside with rfl | ⟨spelled, whole⟩
    · exact Or.inl rfl
    · exact Or.inr ⟨whole, spells_append spelled later⟩

theorem reads_assertion {holds : Option α → Option α → Bool} :
    Reads (.assertion holds :: pattern) previous rest ↔
      holds previous rest.head? = true ∧ Reads pattern previous rest := by
  constructor
  · rintro ⟨lengths, way⟩
    obtain ⟨others, -, held, way⟩ := mem_ways_assertion.mp way
    exact ⟨held, others, way⟩
  · rintro ⟨held, others, way⟩
    exact ⟨_, mem_ways_assertion.mpr ⟨others, rfl, held, way⟩⟩

theorem reads_word {word : List (α → Bool)} : Reads (literal word ++ pattern) previous rest ↔
    ∃ taken later, rest = taken ++ later ∧
      (spells word taken = true ∧ taken.length = word.length) ∧
      Reads pattern (taken.getLast?.or previous) later := by
  constructor
  · rintro ⟨lengths, way⟩
    obtain ⟨taken, later, others, split, -, spelled, exact_length, way⟩ := mem_ways_literal.mp way
    exact ⟨taken, later, split, ⟨spelled, exact_length⟩, others, way⟩
  · rintro ⟨taken, later, split, ⟨spelled, exact_length⟩, others, way⟩
    exact ⟨_, mem_ways_literal.mpr ⟨taken, later, others, split, rfl, spelled, exact_length, way⟩⟩

theorem reads_end : Reads [] previous rest := ⟨[], List.mem_singleton.mpr rfl⟩

theorem spells_last {front : List (α → Bool)} {set : α → Bool} {taken : List α}
    (spelled : spells (front ++ [set]) taken = true)
    (exact_length : taken.length = (front ++ [set]).length) :
    ∃ last, taken.getLast? = some last ∧ set last = true := by
  induction front generalizing taken with
  | nil =>
      obtain ⟨last, rfl⟩ := List.length_eq_one_iff.mp exact_length
      exact ⟨last, rfl, by simpa [spells] using spelled⟩
  | cons own front ih =>
      cases taken with
      | nil => cases exact_length
      | cons next taken =>
          rw [List.cons_append, spells, Bool.and_eq_true] at spelled
          obtain ⟨last, same, inside⟩ := ih spelled.2 (Nat.succ.inj exact_length)
          exact ⟨last, by rw [List.getLast?_cons, same]; rfl, inside⟩

end Terms

section Searching
variable {pattern other : List (Term α)} {text : List α}

theorem first_piece_split (pattern : List (Term α)) (text : List α) :
    ∃ later, text = firstPiece pattern text ++ later ∧
      (later = [] ∨ ∃ previous, Reads pattern previous later) := by
  unfold firstPiece
  cases place : search pattern none text with
  | none => exact ⟨[], (List.append_nil text).symm, Or.inl rfl⟩
  | some found =>
      obtain ⟨split, matched, -⟩ := search_some_iff.mp place
      exact ⟨_, split, Or.inr ⟨_, match_some_iff.mp ⟨_, matched⟩⟩⟩

theorem first_piece_none (absent : search pattern none text = none) :
    firstPiece pattern text = text := by
  rw [firstPiece, absent]

theorem first_piece_some {front later : List α} {lengths : List Nat}
    (found : search pattern none text = some (front, lengths, later)) :
    firstPiece pattern text = front := by
  rw [firstPiece, found]

theorem first_piece_less (less : ∀ previous rest, Reads other previous rest →
      Reads pattern previous rest)
    (first : ∀ front lengths later, search pattern none text = some (front, lengths, later) →
      Reads other front.getLast? later) : firstPiece other text = firstPiece pattern text := by
  -- A pattern that reads less, but reads the first place, finds the same first piece.
  cases place : search pattern none text with
  | none =>
      have absent : search other none text = none := by
        rw [search_none_iff] at place ⊢
        exact fun front later split reads => place front later split (less _ _ reads)
      rw [first_piece_none place, first_piece_none absent]
  | some found =>
      obtain ⟨front, lengths, later⟩ := found
      obtain ⟨split, -, leftmost⟩ := search_some_iff.mp place
      obtain ⟨others, matched⟩ := match_some_iff.mpr (first _ _ _ place)
      have same : search other none text = some (front, others, later) := by
        rw [search_some_iff, Option.or_none]
        exact ⟨split, matched, fun earlier rest split shorter reads =>
          leftmost earlier rest split shorter (less _ _ reads)⟩
      rw [first_piece_some place, first_piece_some same]

end Searching

section Separated
variable {word : List (α → Bool)} {separator : α}

theorem spells_before (apart : ∀ set ∈ word, set separator = false) (text rest : List α) :
    spells word (text ++ separator :: rest) = spells word text := by
  induction word generalizing text with
  | nil => rfl
  | cons set word ih =>
      obtain ⟨own, below⟩ := List.forall_mem_cons.mp apart
      cases text with
      | nil => simp [spells, own]
      | cons next text => rw [List.cons_append, spells, spells, ih below]

theorem not_occurs_nil (some_letter : word ≠ []) : ¬ Occurs word [] := by
  rintro ⟨earlier, later, split, spelled⟩
  obtain ⟨-, rfl⟩ := List.append_eq_nil_iff.mp split.symm
  obtain ⟨set, others, rfl⟩ := List.exists_cons_of_ne_nil some_letter
  cases spelled

theorem occurs_around (some_letter : word ≠ []) (apart : ∀ set ∈ word, set separator = false)
    (front back : List α) :
    Occurs word (front ++ separator :: back) ↔ Occurs word front ∨ Occurs word back := by
  -- A word that has no separator in it is on one side of each.
  induction front with
  | nil =>
      have starts := spells_before apart [] back
      obtain ⟨set, others, rfl⟩ := List.exists_cons_of_ne_nil some_letter
      rw [List.nil_append] at starts ⊢
      rw [occurs_cons, starts]
      simp [not_occurs_nil some_letter, spells]
  | cons next front ih =>
      rw [List.cons_append, occurs_cons, ← List.cons_append, spells_before apart, ih, occurs_cons,
        or_assoc]

end Separated

end OsClientCerts.RegularExpressions
