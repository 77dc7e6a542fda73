import Mathlib.Data.List.Basic

/-!
Marked-up text over any alphabet: tags between two marks, and references that stand for a
letter. A text is spelled safely when each letter of it is read back as that letter,
whatever follows; then no text can add a tag to what is around it.
-/

namespace OsClientCerts.MarkupReadings

structure Markup (α : Type) where
  opening : α
  closing : α
  mark : α
  /-- Names, without the mark, of the letters they stand for. -/
  references : List (List α × α)

inductive Piece (α : Type) where
  | tag (inside : List α)
  | letter (shown : α)
  deriving DecidableEq

namespace Markup
variable {α : Type} [DecidableEq α] (markup : Markup α)

def reference (text : List α) : Option (List α × α) :=
  markup.references.find? fun entry => entry.1.isPrefixOf text

/-- Reads a text from within a tag or from without; a name that was read is skipped. -/
def readFrom : Nat → Option (List α) → List α → List (Piece α)
  | _, _, [] => []
  | skip + 1, inside, _ :: rest => readFrom skip inside rest
  | 0, some inside, next :: rest =>
      if next = markup.closing then .tag inside :: readFrom 0 none rest
      else readFrom 0 (some (inside ++ [next])) rest
  | 0, none, next :: rest =>
      if next = markup.opening then readFrom 0 (some []) rest
      else if next = markup.mark then
        match markup.reference rest with
        | some (name, letter) => .letter letter :: readFrom name.length none rest
        | none => .letter next :: readFrom 0 none rest
      else .letter next :: readFrom 0 none rest

def read : List α → List (Piece α) := markup.readFrom 0 none

def Plain (letter : α) : Prop := letter ≠ markup.opening ∧ letter ≠ markup.mark

variable {markup}

@[simp] theorem read_nil : markup.read [] = [] := rfl

theorem read_plain {letter : α} (plain : markup.Plain letter) (rest : List α) :
    markup.read (letter :: rest) = .letter letter :: markup.read rest := by
  rw [read, readFrom, if_neg plain.1, if_neg plain.2]

theorem read_skip (name rest : List α) :
    markup.readFrom name.length none (name ++ rest) = markup.read rest := by
  induction name with
  | nil => rfl
  | cons next name ih =>
      rw [List.length_cons, List.cons_append, readFrom]
      exact ih

theorem read_reference {name : List α} {letter : α} (apart : markup.mark ≠ markup.opening)
    (rest : List α) (named : markup.reference (name ++ rest) = some (name, letter)) :
    markup.read (markup.mark :: name ++ rest) = .letter letter :: markup.read rest := by
  rw [read, List.cons_append, readFrom, if_neg apart, if_pos rfl, named]
  exact congrArg _ (read_skip name rest)

theorem read_inside {inside : List α} (open_ : markup.closing ∉ inside) (before rest : List α) :
    markup.readFrom 0 (some before) (inside ++ markup.closing :: rest) =
      .tag (before ++ inside) :: markup.read rest := by
  induction inside generalizing before with
  | nil => rw [List.nil_append, readFrom, if_pos rfl, List.append_nil]; rfl
  | cons next inside ih =>
      obtain ⟨apart, later⟩ := not_or.mp fun either => open_ (List.mem_cons.mpr either)
      rw [List.cons_append, readFrom, if_neg (Ne.symm apart), ih later, List.append_assoc]
      rfl

theorem read_tag {inside : List α} (open_ : markup.closing ∉ inside) (rest : List α) :
    markup.read (markup.opening :: inside ++ markup.closing :: rest) =
      .tag inside :: markup.read rest := by
  rw [read, List.cons_append, readFrom, if_pos rfl]
  exact read_inside open_ [] rest

/-- What is read of the text, whatever follows it. -/
def ReadAs (markup : Markup α) (text : List α) (pieces : List (Piece α)) : Prop :=
  ∀ rest, markup.read (text ++ rest) = pieces ++ markup.read rest

theorem ReadAs.nil : markup.ReadAs [] [] := fun _ => rfl

theorem ReadAs.append {first second : List α} {before after : List (Piece α)}
    (one : markup.ReadAs first before) (two : markup.ReadAs second after) :
    markup.ReadAs (first ++ second) (before ++ after) := by
  intro rest
  rw [List.append_assoc, one, two, List.append_assoc]

theorem ReadAs.flat_map {β : Type} {spell : β → List α} {meaning : β → List (Piece α)}
    {items : List β} (each : ∀ item ∈ items, markup.ReadAs (spell item) (meaning item)) :
    markup.ReadAs (items.flatMap spell) (items.flatMap meaning) := by
  induction items with
  | nil => exact ReadAs.nil
  | cons item rest ih =>
      rw [List.flatMap_cons, List.flatMap_cons]
      exact (each item List.mem_cons_self).append
        (ih fun other member => each other (List.mem_cons_of_mem item member))

theorem ReadAs.text {spell : α → List α}
    (safe : ∀ letter, markup.ReadAs (spell letter) [.letter letter]) (text : List α) :
    markup.ReadAs (text.flatMap spell) (text.map .letter) := by
  rw [← List.flatMap_singleton' (text.map _), List.flatMap_map]
  exact ReadAs.flat_map fun letter _ => safe letter

theorem ReadAs.plain {text : List α} (plain : ∀ letter ∈ text, markup.Plain letter) :
    markup.ReadAs text (text.map .letter) := by
  induction text with
  | nil => exact ReadAs.nil
  | cons letter text ih =>
      intro rest
      rw [List.cons_append, read_plain (plain letter List.mem_cons_self),
        ih fun other member => plain other (List.mem_cons_of_mem letter member)]
      rfl

theorem ReadAs.tag {inside : List α} (open_ : markup.closing ∉ inside) :
    markup.ReadAs (markup.opening :: inside ++ [markup.closing]) [.tag inside] := by
  intro rest
  rw [List.append_assoc]
  exact read_tag open_ rest

theorem ReadAs.whole {text : List α} {pieces : List (Piece α)} (reads : markup.ReadAs text pieces) :
    markup.read text = pieces := by
  simpa using reads []

end Markup
end OsClientCerts.MarkupReadings
