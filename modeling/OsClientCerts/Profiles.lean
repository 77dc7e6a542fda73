import Mathlib.Data.List.DropRight
import OsClientCerts.HeadedBlocks

/-!
Which profile the cleanup of `cert9.db` works on: `profiles.ini`, read line by line
into sections, and the section chosen among them.
-/

namespace OsClientCerts
open HeadedBlocks

abbrev Text := List Char

def isWhitespace (c : Char) : Bool :=
  let code := c.toNat
  decide (9 ≤ code ∧ code ≤ 13) || code == 0x20 || code == 0x85 || code == 0xA0 ||
    code == 0x1680 || decide (0x2000 ≤ code ∧ code ≤ 0x200A) || code == 0x2028 ||
    code == 0x2029 || code == 0x202F || code == 0x205F || code == 0x3000

def trim (text : Text) : Text := (text.dropWhile isWhitespace).rdropWhile isWhitespace

def stripCarriageReturn (line : Text) : Text := (['\r'].isSuffixOf? line).getD line

/-- `str::lines`: each line feed ends a line, with the carriage return before it. -/
def lines (text : Text) : List Text :=
  (text.splitOn '\n').dropLast.map stripCarriageReturn ++
    (text.splitOn '\n').getLast?.toList.filter (fun rest => !rest.isEmpty)

structure Section where
  name : Text
  path : Option Text
  isRelative : Bool
  isDefault : Bool
  deriving DecidableEq, Repr

def Section.new (name : Text) : Section where
  name
  path := none
  isRelative := true
  isDefault := false

def Section.startsWith (current : Section) (kind : String) : Bool :=
  kind.toList.isPrefixOf current.name

def stripPrefix (key : String) (line : Text) : Option Text := key.toList.isPrefixOf? line

def Section.readKey (current : Section) (line : Text) : Section :=
  match stripPrefix "Default=" line with
  | some value =>
      if current.startsWith "Install" then
        -- The Default of an install section is itself a path.
        { current with path := some (trim value), isDefault := true }
      else { current with isDefault := trim value = ['1'] }
  | none =>
      match stripPrefix "Path=" line with
      | some value => { current with path := some (trim value) }
      | none =>
          match stripPrefix "IsRelative=" line with
          | some value => { current with isRelative := trim value = ['1'] }
          | none => current

def sectionName (line : Text) : Option Text :=
  (stripPrefix "[" line).bind fun rest => [']'].isSuffixOf? rest

def readProfileLine (state : List Section × Option Section) (rawLine : Text) :
    List Section × Option Section :=
  let line := trim rawLine
  match sectionName line, state with
  | some name, (sections, some current) => (sections ++ [current], some (.new name))
  | some name, (sections, none) => (sections, some (.new name))
  | none, (sections, some current) => (sections, some (current.readKey line))
  | none, (sections, none) => (sections, none)

def readSections (contents : Text) : List Section :=
  match (lines contents).foldl readProfileLine ([], none) with
  | (sections, some current) => sections ++ [current]
  | (sections, none) => sections

def chooseSection (sections : List Section) : Option Section :=
  ((sections.find? fun s => s.startsWith "Install" && s.path.isSome).or
    (sections.find? fun s => s.startsWith "Profile" && s.isDefault)).or
    (sections.find? fun s => s.startsWith "Profile" && s.path.isSome)

structure Paths (Path : Type) where
  pathBuf : Text → Path
  join : Path → Text → Path

structure Surroundings (Path : Type) where
  /-- `std::env::var`, where it succeeds. -/
  var : String → Option Text
  readToString : Path → Option Text

section
variable {Path : Type} (paths : Paths Path)

def profileIn (thunderbirdDir : Path) (contents : Text) : Option Path := do
  let chosen ← chooseSection (readSections contents)
  let path ← chosen.path
  if chosen.isRelative then some (paths.join thunderbirdDir path) else some (paths.pathBuf path)

def profilesIni (thunderbirdDir : Path) : Path := paths.join thunderbirdDir "profiles.ini".toList

def findProfileDir (os : Surroundings Path) : Option Path :=
  match os.var "OSCLIENTCERTS_PROFILE_DIR" with
  | some dir => some (paths.pathBuf dir)
  | none => do
      let appdata ← os.var "APPDATA"
      let thunderbirdDir := paths.join (paths.pathBuf appdata) "Thunderbird".toList
      let contents ← os.readToString (profilesIni paths thunderbirdDir)
      profileIn paths thunderbirdDir contents

end

abbrev IniBlock := Block Text Text

def iniBlocks (contents : Text) : List IniBlock :=
  (divide sectionName ((lines contents).map trim)).2

def keyValue (key : String) (line : Text) : Option Text := (stripPrefix key line).map trim

namespace IniBlock

/-- The value of the last line about the key. -/
def value (key : String) (block : IniBlock) : Option Text := last (keyValue key) block.lines

def IsInstall (block : IniBlock) : Prop := "Install".toList <+: block.name
def IsProfile (block : IniBlock) : Prop := "Profile".toList <+: block.name

/-- In an install section a Default is a path, like a Path. -/
def pathLine (line : Text) : Option Text := (keyValue "Default=" line).or (keyValue "Path=" line)

def installPath (block : IniBlock) : Option Text := last pathLine block.lines

def Marked (block : IniBlock) : Prop := block.value "Default=" = some ['1']

def Relative (block : IniBlock) : Prop :=
  block.value "IsRelative=" = none ∨ block.value "IsRelative=" = some ['1']

end IniBlock

inductive Chosen (installPath : IniBlock → Option Text) (blocks : List IniBlock) :
    IniBlock → Text → Prop where
  | install {block : IniBlock} {path : Text} :
      First (fun block => block.IsInstall ∧ installPath block ≠ none) blocks block →
      installPath block = some path → Chosen installPath blocks block path
  | marked {block : IniBlock} {path : Text} :
      (∀ other ∈ blocks, other.IsInstall → installPath other = none) →
      First (fun block => block.IsProfile ∧ block.Marked ∧ block.value "Path=" ≠ none) blocks
        block →
      block.value "Path=" = some path → Chosen installPath blocks block path
  | listed {block : IniBlock} {path : Text} :
      (∀ other ∈ blocks, other.IsInstall → installPath other = none) →
      (∀ other ∈ blocks, other.IsProfile → other.Marked → other.value "Path=" = none) →
      First (fun block => block.IsProfile ∧ block.value "Path=" ≠ none) blocks block →
      block.value "Path=" = some path → Chosen installPath blocks block path

/-- The directory is that of the section chosen, for what counts as the path of an install
section and for which sections have a path below the directory of Thunderbird. -/
def Located {Path : Type} (paths : Paths Path) (thunderbirdDir : Path)
    (installPath : IniBlock → Option Text) (relative : IniBlock → Prop) (contents : Text)
    (dir : Path) : Prop :=
  ∃ block path, Chosen installPath (iniBlocks contents) block path ∧
    ((relative block ∧ dir = paths.join thunderbirdDir path) ∨
      (¬ relative block ∧ dir = paths.pathBuf path))

/-- No install section has a path, and the first profile marked as the default has none. -/
def PathlessDefault (contents : Text) : Prop :=
  (∀ other ∈ iniBlocks contents, other.IsInstall → other.installPath = none) ∧
    ∃ block, First (fun block => block.IsProfile ∧ block.Marked) (iniBlocks contents) block ∧
      block.value "Path=" = none

def sectionOf (block : IniBlock) : Section := taken Section.new Section.readKey block

theorem read_profile_line (state : List Section × Option Section) (rawLine : Text) :
    readProfileLine state rawLine =
      readLine sectionName Section.new Section.readKey state (trim rawLine) := by
  rcases state with ⟨sections, current⟩
  unfold readProfileLine readLine
  dsimp only
  cases sectionName (trim rawLine) with
  | none => cases current <;> rfl
  | some name =>
      cases current with
      | none =>
          rw [Option.toList_none, List.append_nil]
      | some before => rfl

theorem read_sections (contents : Text) :
    readSections contents = (iniBlocks contents).map sectionOf := by
  have folded : (lines contents).foldl readProfileLine ([], none) =
      ((lines contents).map trim).foldl (readLine sectionName Section.new Section.readKey)
        ([], none) := by
    rw [List.foldl_map]
    exact List.foldl_ext _ _ _ fun state line _ => read_profile_line state line
  have whole : _ = (iniBlocks contents).map sectionOf :=
    read_blocks sectionName Section.new Section.readKey ((lines contents).map trim)
  rw [← whole, ← folded, readSections]
  rcases (lines contents).foldl readProfileLine ([], none) with ⟨sections, current⟩
  cases current with
  | none => exact (List.append_nil _).symm
  | some last => rfl

theorem strip_prefix_iff {key : String} {line rest : Text} :
    stripPrefix key line = some rest ↔ key.toList ++ rest = line :=
  List.isPrefixOf?_eq_some_iff_append_eq

theorem strip_prefix_apart {key other : String} {first second : Char} {line rest : Text}
    (starts : key.toList.head? = some first) (begins : other.toList.head? = some second)
    (apart : first ≠ second) (stripped : stripPrefix key line = some rest) :
    stripPrefix other line = none := by
  -- No line starts with two keys of different first letters.
  cases found : stripPrefix other line with
  | none => rfl
  | some more =>
      have same := (strip_prefix_iff.mp stripped).trans (strip_prefix_iff.mp found).symm
      have heads := congrArg List.head? same
      rw [List.head?_append, List.head?_append, starts, begins] at heads
      exact absurd (Option.some.inj heads) apart

section Fields
variable {current : Section} {line : Text}

theorem default_not_path {value : Text} (told : stripPrefix "Default=" line = some value) :
    stripPrefix "Path=" line = none := strip_prefix_apart rfl rfl (by decide) told

theorem default_not_relative {value : Text} (told : stripPrefix "Default=" line = some value) :
    stripPrefix "IsRelative=" line = none := strip_prefix_apart rfl rfl (by decide) told

theorem path_not_relative {value : Text} (told : stripPrefix "Path=" line = some value) :
    stripPrefix "IsRelative=" line = none := strip_prefix_apart rfl rfl (by decide) told

theorem read_key_name : (current.readKey line).name = current.name := by
  unfold Section.readKey
  split
  · split <;> rfl
  · split
    · rfl
    · split <;> rfl

theorem read_key_relative : (current.readKey line).isRelative =
    ((keyValue "IsRelative=" line).map fun value => decide (value = ['1'])).getD
      current.isRelative := by
  unfold Section.readKey keyValue
  cases default : stripPrefix "Default=" line with
  | some value =>
      rw [default_not_relative default]
      dsimp only
      split <;> rfl
  | none =>
      cases path : stripPrefix "Path=" line with
      | some value =>
          rw [path_not_relative path]
          rfl
      | none => cases stripPrefix "IsRelative=" line <;> rfl

theorem read_key_default (plain : current.startsWith "Install" = false) :
    (current.readKey line).isDefault =
      ((keyValue "Default=" line).map fun value => decide (value = ['1'])).getD
        current.isDefault := by
  unfold Section.readKey keyValue
  cases stripPrefix "Default=" line with
  | some value =>
      dsimp only
      rw [plain]
      rfl
  | none =>
      dsimp only
      cases stripPrefix "Path=" line with
      | some value => rfl
      | none => cases stripPrefix "IsRelative=" line <;> rfl

theorem read_key_path (plain : current.startsWith "Install" = false) :
    (current.readKey line).path = ((keyValue "Path=" line).map some).getD current.path := by
  unfold Section.readKey keyValue
  cases default : stripPrefix "Default=" line with
  | some value =>
      rw [default_not_path default]
      dsimp only
      rw [plain]
      rfl
  | none =>
      dsimp only
      cases stripPrefix "Path=" line with
      | some value => rfl
      | none => cases stripPrefix "IsRelative=" line <;> rfl

theorem read_key_install (install : current.startsWith "Install" = true) :
    (current.readKey line).path = ((IniBlock.pathLine line).map some).getD current.path := by
  unfold Section.readKey IniBlock.pathLine keyValue
  cases stripPrefix "Default=" line with
  | some value =>
      dsimp only
      rw [install]
      rfl
  | none =>
      dsimp only
      cases stripPrefix "Path=" line with
      | some value => rfl
      | none => cases stripPrefix "IsRelative=" line <;> rfl

end Fields

section SectionOf
variable (block : IniBlock)

theorem section_name : (sectionOf block).name = block.name := by
  have kept (lines : List Text) (current : Section) :
      (lines.foldl Section.readKey current).name = current.name := by
    induction lines generalizing current with
    | nil => rfl
    | cons line rest ih => exact (ih _).trans read_key_name
  exact kept block.lines (.new block.name)

theorem section_starts_with (kind : String) :
    (sectionOf block).startsWith kind = true ↔ kind.toList <+: block.name := by
  rw [Section.startsWith, section_name, List.isPrefixOf_iff_prefix]

theorem section_relative : (sectionOf block).isRelative = true ↔ block.Relative := by
  have decided : (sectionOf block).isRelative = ((block.value "IsRelative=").map
      fun value => decide (value = ['1'])).getD true :=
    last_decides (fun _ => True) (fun _ _ _ => trivial)
      (fun current line _ => @read_key_relative current line) block.lines trivial
  rw [decided, IniBlock.Relative]
  cases block.value "IsRelative=" with
  | none => exact iff_of_true rfl (Or.inl rfl)
  | some value => simp

theorem starts_with_kept (kind : String) (answer : Bool) (current : Section) (line : Text)
    (held : current.startsWith kind = answer) :
    (current.readKey line).startsWith kind = answer := by
  rw [Section.startsWith, read_key_name]
  exact held

variable {block}

theorem not_install_of_profile (profile : block.IsProfile) :
    Section.startsWith (.new block.name) "Install" = false := by
  obtain ⟨rest, named⟩ := profile
  change "Install".toList.isPrefixOf block.name = false
  rw [← named]
  rfl

theorem section_default (profile : block.IsProfile) :
    (sectionOf block).isDefault = true ↔ block.Marked := by
  have decided : (sectionOf block).isDefault = ((block.value "Default=").map
      fun value => decide (value = ['1'])).getD false :=
    last_decides (fun current => current.startsWith "Install" = false)
      (starts_with_kept "Install" false) (fun current line plain => @read_key_default current line plain)
      block.lines (not_install_of_profile profile)
  rw [decided, IniBlock.Marked]
  cases block.value "Default=" with
  | none => exact iff_of_false nofun nofun
  | some value => simp

theorem map_some_get_d {α : Type} (value : Option α) : (value.map some).getD none = value := by
  cases value <;> rfl

theorem section_profile_path (profile : block.IsProfile) :
    (sectionOf block).path = block.value "Path=" := by
  have decided : (sectionOf block).path = ((block.value "Path=").map some).getD none :=
    last_decides (fun current => current.startsWith "Install" = false)
      (starts_with_kept "Install" false) (fun current line plain => @read_key_path current line plain)
      block.lines (not_install_of_profile profile)
  rw [decided, map_some_get_d]

theorem section_install_path (install : block.IsInstall) :
    (sectionOf block).path = block.installPath := by
  have decided : (sectionOf block).path = (block.installPath.map some).getD none :=
    last_decides (fun current => current.startsWith "Install" = true)
      (starts_with_kept "Install" true) (fun current line plain => @read_key_install current line plain)
      block.lines (List.isPrefixOf_iff_prefix.mpr install)
  rw [decided, map_some_get_d]

end SectionOf
section Choosing
variable {blocks : List IniBlock} {installPath : IniBlock → Option Text}

theorem Chosen.mem {block : IniBlock} {path : Text} (chosen : Chosen installPath blocks block path) :
    block ∈ blocks := by
  cases chosen with
  | install first | marked _ first | listed _ _ first => exact first.mem

theorem chosen_unique {block other : IniBlock} {path too : Text}
    (chosen : Chosen installPath blocks block path)
    (again : Chosen installPath blocks other too) : other = block ∧ too = path := by
  have same {property : IniBlock → Prop} {pathOf : IniBlock → Option Text}
      (first : First property blocks block) (told : pathOf block = some path)
      (first' : First property blocks other) (told' : pathOf other = some too) :
      other = block ∧ too = path := by
    cases first_unique first first'
    exact ⟨rfl, Option.some.inj (told'.symm.trans told)⟩
  have no_install {found : IniBlock}
      (first : First (fun block => block.IsInstall ∧ installPath block ≠ none) blocks found)
      (none : ∀ other ∈ blocks, other.IsInstall → installPath other = none) :
      other = block ∧ too = path :=
    absurd (none found first.mem first.1.1) first.1.2
  cases chosen with
  | install first told =>
      cases again with
      | install first' told' => exact same first told first' told'
      | marked none | listed none => exact no_install first none
  | marked none first told =>
      cases again with
      | install first' _ => exact no_install first' none
      | marked _ first' told' => exact same first told first' told'
      | listed _ unmarked _ _ => exact absurd (unmarked _ first.mem first.1.1 first.1.2.1) first.1.2.2
  | listed none unmarked first told =>
      cases again with
      | install first' _ => exact no_install first' none
      | marked _ first' _ =>
          exact absurd (unmarked _ first'.mem first'.1.1 first'.1.2.1) first'.1.2.2
      | listed _ _ first' told' => exact same first told first' told'

end Choosing

section Levels
variable (block : IniBlock)

theorem install_level : ((sectionOf block).startsWith "Install" && (sectionOf block).path.isSome) =
    true ↔ block.IsInstall ∧ block.installPath ≠ none := by
  rw [Bool.and_eq_true, section_starts_with]
  refine and_congr_right fun install => ?_
  rw [section_install_path install, Option.isSome_iff_ne_none]

theorem marked_level : ((sectionOf block).startsWith "Profile" && (sectionOf block).isDefault) =
    true ↔ block.IsProfile ∧ block.Marked := by
  rw [Bool.and_eq_true, section_starts_with]
  exact and_congr_right section_default

theorem listed_level : ((sectionOf block).startsWith "Profile" && (sectionOf block).path.isSome) =
    true ↔ block.IsProfile ∧ block.value "Path=" ≠ none := by
  rw [Bool.and_eq_true, section_starts_with]
  refine and_congr_right fun profile => ?_
  rw [section_profile_path profile, Option.isSome_iff_ne_none]

end Levels

theorem find_section (test : Section → Bool) (property : IniBlock → Prop)
    (same : ∀ block, test (sectionOf block) = true ↔ property block) (blocks : List IniBlock) :
    ((blocks.map sectionOf).find? test = none ∧ ∀ block ∈ blocks, ¬ property block) ∨
      ∃ block, (blocks.map sectionOf).find? test = some (sectionOf block) ∧
        First property blocks block := by
  rw [List.find?_map]
  cases found : blocks.find? (test ∘ sectionOf) with
  | none => exact Or.inl ⟨rfl, (find_none same).mp found⟩
  | some block => exact Or.inr ⟨block, rfl, (find_first same).mp found⟩

section Choosing
variable {contents : Text}

/-- The three levels: the section of a block that is chosen, a marked one without a path, or none. -/
theorem choose_section_cases :
    (∃ block path, Chosen IniBlock.installPath (iniBlocks contents) block path ∧
        chooseSection (readSections contents) = some (sectionOf block) ∧
        (sectionOf block).path = some path) ∨
      PathlessDefault contents ∨
      ((∀ block path, ¬ Chosen IniBlock.installPath (iniBlocks contents) block path) ∧
        chooseSection (readSections contents) = none) := by
  rw [read_sections]
  unfold chooseSection
  rcases find_section (fun s => s.startsWith "Install" && s.path.isSome) _ install_level
    (iniBlocks contents) with ⟨noInstall, without⟩ | ⟨block, found, first⟩
  · have no_path (other : IniBlock) (member : other ∈ iniBlocks contents)
        (install : other.IsInstall) : other.installPath = none :=
      Classical.byContradiction fun some_path => without other member ⟨install, some_path⟩
    rcases find_section (fun s => s.startsWith "Profile" && s.isDefault) _ marked_level
      (iniBlocks contents) with ⟨noDefault, unmarked⟩ | ⟨block, found, first⟩
    · rcases find_section (fun s => s.startsWith "Profile" && s.path.isSome) _ listed_level
        (iniBlocks contents) with ⟨noProfile, unlisted⟩ | ⟨block, found, first⟩
      · refine Or.inr (Or.inr ⟨?_, by rw [noInstall, noDefault, noProfile]; rfl⟩)
        intro block path chosen
        cases chosen with
        | install first => exact without block first.mem first.1
        | marked _ first => exact unmarked block first.mem ⟨first.1.1, first.1.2.1⟩
        | listed _ _ first => exact unlisted block first.mem first.1
      · obtain ⟨path, told⟩ := Option.ne_none_iff_exists'.mp first.1.2
        refine Or.inl ⟨block, path, .listed no_path ?_ first told, ?_, ?_⟩
        · exact fun other member profile marked => absurd ⟨profile, marked⟩ (unmarked other member)
        · rw [noInstall, noDefault, found]
          rfl
        · rw [section_profile_path first.1.1, told]
    · cases told : block.value "Path=" with
      | none => exact Or.inr (Or.inl ⟨no_path, block, first, told⟩)
      | some path =>
          have some_path : block.value "Path=" ≠ none := by
            rw [told]
            exact nofun
          have pathed : First (fun block => block.IsProfile ∧ block.Marked ∧
              block.value "Path=" ≠ none) (iniBlocks contents) block :=
            first.strengthen (fun _ has => ⟨has.1, has.2.1⟩) ⟨first.1.1, first.1.2, some_path⟩
          refine Or.inl ⟨block, path, .marked no_path pathed told, ?_, ?_⟩
          · rw [noInstall, found]
            rfl
          · rw [section_profile_path first.1.1, told]
  · obtain ⟨path, told⟩ := Option.ne_none_iff_exists'.mp first.1.2
    refine Or.inl ⟨block, path, .install first told, by rw [found]; rfl, ?_⟩
    rw [section_install_path first.1.1, told]

theorem profile_in_located {Path : Type} (paths : Paths Path) (thunderbirdDir : Path)
    (some_path : ¬ PathlessDefault contents) {dir : Path} :
    profileIn paths thunderbirdDir contents = some dir ↔
      Located paths thunderbirdDir IniBlock.installPath IniBlock.Relative contents dir := by
  unfold profileIn Located
  rcases @choose_section_cases contents with
    ⟨block, path, chosen, found, told⟩ | pathless | ⟨none, nothing⟩
  · rw [found, Option.bind_eq_bind, Option.bind_some, told, Option.bind_eq_bind, Option.bind_some]
    constructor
    · intro located
      refine ⟨block, path, chosen, ?_⟩
      by_cases relative : block.Relative
      · rw [if_pos ((section_relative block).mpr relative)] at located
        exact Or.inl ⟨relative, (Option.some.inj located).symm⟩
      · rw [if_neg (fun read => relative ((section_relative block).mp read))] at located
        exact Or.inr ⟨relative, (Option.some.inj located).symm⟩
    · rintro ⟨other, too, again, resolved⟩
      obtain ⟨rfl, rfl⟩ := chosen_unique chosen again
      rcases resolved with ⟨relative, rfl⟩ | ⟨absolute, rfl⟩
      · rw [if_pos ((section_relative _).mpr relative)]
      · rw [if_neg (fun read => absolute ((section_relative _).mp read))]
  · exact absurd pathless some_path
  · rw [nothing]
    exact iff_of_false nofun fun ⟨block, path, chosen, _⟩ => none block path chosen

theorem pathless_default_hides {Path : Type} (paths : Paths Path) (thunderbirdDir : Path)
    (pathless : PathlessDefault contents) : profileIn paths thunderbirdDir contents = none := by
  -- A marked profile without a path hides the profiles below it.
  obtain ⟨no_path, block, first, told⟩ := pathless
  have noInstall : ((iniBlocks contents).map sectionOf).find?
      (fun s => s.startsWith "Install" && s.path.isSome) = none := by
    rw [List.find?_map, Option.map_eq_none_iff]
    exact (find_none install_level).mpr fun other member has => has.2 (no_path other member has.1)
  have hidden : ((iniBlocks contents).map sectionOf).find?
      (fun s => s.startsWith "Profile" && s.isDefault) = some (sectionOf block) := by
    rw [List.find?_map]
    exact congrArg _ ((find_first marked_level).mpr first)
  have nowhere : (sectionOf block).path = none := by
    rw [section_profile_path first.1.1, told]
  have chosen : chooseSection (readSections contents) = some (sectionOf block) := by
    rw [read_sections, chooseSection, noInstall, hidden]
    rfl
  rw [profileIn, chosen, Option.bind_eq_bind, Option.bind_some, nowhere]
  rfl

end Choosing

def IniBlock.KeysOnce (block : IniBlock) : Prop :=
  ∀ key ∈ ["Default=", "Path=", "IsRelative="],
    (block.lines.filterMap (keyValue key)).length ≤ 1

/-- The same sections, some profiles among them with their lines in another order, where
that is `allowed`. -/
def Reordered (allowed : IniBlock → Prop) (contents other : Text) : Prop :=
  List.Forall₂ (fun block (changed : IniBlock) => changed.name = block.name ∧
    (changed.lines = block.lines ∨
      (block.IsProfile ∧ allowed block ∧ changed.lines.Perm block.lines)))
    (iniBlocks contents) (iniBlocks other)

theorem section_reordered {block changed : IniBlock} (named : changed.name = block.name)
    (profile : block.IsProfile) (once : block.KeysOnce)
    (reordered : changed.lines.Perm block.lines) : sectionOf changed = sectionOf block := by
  have same (key : String) (member : key ∈ ["Default=", "Path=", "IsRelative="]) :
      changed.value key = block.value key := last_perm reordered (once key member)
  have profile' : changed.IsProfile := by
    rw [IniBlock.IsProfile, named]
    exact profile
  have relative : (sectionOf changed).isRelative = (sectionOf block).isRelative := by
    rw [Bool.eq_iff_iff, section_relative, section_relative, IniBlock.Relative, same _ (by decide)]
    rfl
  have default : (sectionOf changed).isDefault = (sectionOf block).isDefault := by
    rw [Bool.eq_iff_iff, section_default profile', section_default profile, IniBlock.Marked,
      same _ (by decide)]
    rfl
  have path : (sectionOf changed).path = (sectionOf block).path := by
    rw [section_profile_path profile', section_profile_path profile, same _ (by decide)]
  have name : (sectionOf changed).name = (sectionOf block).name := by
    rw [section_name, section_name, named]
  cases first : sectionOf changed
  cases second : sectionOf block
  rw [first, second] at relative default path name
  congr

theorem profile_in_reordered {Path : Type} (paths : Paths Path) (thunderbirdDir : Path)
    {contents other : Text} (reordered : Reordered IniBlock.KeysOnce contents other) :
    profileIn paths thunderbirdDir other = profileIn paths thunderbirdDir contents := by
  have sections : readSections other = readSections contents := by
    rw [read_sections, read_sections]
    unfold Reordered at reordered
    generalize iniBlocks contents = before at reordered ⊢
    generalize iniBlocks other = after at reordered ⊢
    induction reordered with
    | nil => rfl
    | cons changed _ ih =>
        obtain ⟨named, same | ⟨profile, once, perm⟩⟩ := changed
        · rw [List.map_cons, List.map_cons, ih, sectionOf, taken, named, same]
          rfl
        · rw [List.map_cons, List.map_cons, ih, section_reordered named profile once perm]
  rw [profileIn, sections, profileIn]

/-- The profile found is the one located in `profiles.ini`, and no reordering of the lines
of a profile changes it. -/
theorem profile_found {Path : Type} (paths : Paths Path) {os : Surroundings Path}
    {appdata contents : Text} (noOverride : os.var "OSCLIENTCERTS_PROFILE_DIR" = none)
    (roaming : os.var "APPDATA" = some appdata)
    (readable : os.readToString (profilesIni paths
      (paths.join (paths.pathBuf appdata) "Thunderbird".toList)) = some contents) :
    (¬ PathlessDefault contents → ∀ dir, findProfileDir paths os = some dir ↔
      Located paths (paths.join (paths.pathBuf appdata) "Thunderbird".toList)
        IniBlock.installPath IniBlock.Relative contents dir) ∧
    ∀ (os' : Surroundings Path) (other : Text), os'.var = os.var →
      os'.readToString (profilesIni paths
        (paths.join (paths.pathBuf appdata) "Thunderbird".toList)) = some other →
      Reordered IniBlock.KeysOnce contents other → findProfileDir paths os' = findProfileDir paths os := by
  have found {os : Surroundings Path} {contents : Text}
      (noOverride : os.var "OSCLIENTCERTS_PROFILE_DIR" = none)
      (roaming : os.var "APPDATA" = some appdata)
      (readable : os.readToString (profilesIni paths
        (paths.join (paths.pathBuf appdata) "Thunderbird".toList)) = some contents) :
      findProfileDir paths os = profileIn paths
        (paths.join (paths.pathBuf appdata) "Thunderbird".toList) contents := by
    rw [findProfileDir, noOverride]
    dsimp only
    rw [roaming, Option.bind_eq_bind, Option.bind_some, readable, Option.bind_some]
  constructor
  · intro some_path dir
    rw [found noOverride roaming readable]
    exact profile_in_located paths _ some_path
  · intro os' other same readable' reordered
    rw [found noOverride roaming readable, found (same ▸ noOverride) (same ▸ roaming) readable']
    exact profile_in_reordered paths _ reordered

/-! Some texts, below a directory with a short name. -/

def backslashPaths : Paths Text where
  pathBuf := id
  join dir path := dir ++ '\\' :: path

def thunderbirdBelow : Text := "R\\Thunderbird".toList

def roamingWith (contents : Text) : Surroundings Text where
  var name := if name = "APPDATA" then some ['R'] else none
  readToString path := if path = "R\\Thunderbird\\profiles.ini".toList then some contents else none

def installAndProfile : Text := "[Profile0]\r\nPath=a\r\n\r\n[InstallE7]\r\nDefault=b\r\n".toList

theorem install_profile_found :
    findProfileDir backslashPaths (roamingWith installAndProfile) =
        some "R\\Thunderbird\\b".toList ∧
    (¬ PathlessDefault installAndProfile → ∀ dir,
      findProfileDir backslashPaths (roamingWith installAndProfile) = some dir ↔
        Located backslashPaths thunderbirdBelow IniBlock.installPath IniBlock.Relative
          installAndProfile dir) ∧
    ∀ (os' : Surroundings Text) (other : Text), os'.var = (roamingWith installAndProfile).var →
      os'.readToString (profilesIni backslashPaths thunderbirdBelow) = some other →
      Reordered IniBlock.KeysOnce installAndProfile other →
      findProfileDir backslashPaths os' =
        findProfileDir backslashPaths (roamingWith installAndProfile) :=
  ⟨by decide +kernel, @profile_found Text backslashPaths (roamingWith installAndProfile) ['R']
    installAndProfile (by decide) (by decide) (by decide +kernel)⟩

def RelativeUnlessZero (block : IniBlock) : Prop := block.value "IsRelative=" ≠ some ['0']

def relativeYes : Text := "[Profile0]\nPath=a\nIsRelative=yes".toList
def installWithPath : Text := "[InstallE7]\nPath=a".toList
def twoPaths : Text := "[Profile0]\nPath=a\nPath=b".toList
def twoPathsSwapped : Text := "[Profile0]\nPath=b\nPath=a".toList

/-- An IsRelative that is neither 0 nor 1, an install section with a Path only and a key
set twice. -/
theorem profile_otherwise :
    (findProfileDir backslashPaths (roamingWith relativeYes) = some ['a'] ∧
      ¬ Located backslashPaths thunderbirdBelow (IniBlock.value "Default=") RelativeUnlessZero
        relativeYes ['a']) ∧
    (findProfileDir backslashPaths (roamingWith installWithPath) =
        some "R\\Thunderbird\\a".toList ∧
      ¬ Located backslashPaths thunderbirdBelow (IniBlock.value "Default=") RelativeUnlessZero
        installWithPath "R\\Thunderbird\\a".toList) ∧
    (Reordered (fun _ => True) twoPaths twoPathsSwapped ∧
      findProfileDir backslashPaths (roamingWith twoPathsSwapped) ≠
        findProfileDir backslashPaths (roamingWith twoPaths)) := by
  refine ⟨⟨by decide +kernel, ?_⟩, ⟨by decide +kernel, ?_⟩, ?_, by decide +kernel⟩
  · rintro ⟨block, path, chosen, ⟨_, same⟩ | ⟨absolute, _⟩⟩
    · cases same
    · have blocks : iniBlocks relativeYes =
          [⟨"Profile0".toList, ["Path=a".toList, "IsRelative=yes".toList]⟩] := by decide +kernel
      have only := chosen.mem
      rw [blocks, List.mem_singleton] at only
      subst only
      exact absolute (by unfold RelativeUnlessZero; decide +kernel)
  · rintro ⟨block, path, chosen, _⟩
    have blocks : iniBlocks installWithPath = [⟨"InstallE7".toList, ["Path=a".toList]⟩] := by
      decide +kernel
    have only := chosen.mem
    rw [blocks, List.mem_singleton] at only
    subst only
    have noProfile : ¬ IniBlock.IsProfile ⟨"InstallE7".toList, ["Path=a".toList]⟩ := by
      unfold IniBlock.IsProfile
      decide
    cases chosen with
    | install first told => exact first.1.2 (by decide +kernel)
    | marked _ first => exact noProfile first.1.1
    | listed _ _ first => exact noProfile first.1.1
  · have before : iniBlocks twoPaths =
        [⟨"Profile0".toList, ["Path=a".toList, "Path=b".toList]⟩] := by decide +kernel
    have after : iniBlocks twoPathsSwapped =
        [⟨"Profile0".toList, ["Path=b".toList, "Path=a".toList]⟩] := by decide +kernel
    unfold Reordered
    rw [before, after]
    refine .cons ⟨rfl, Or.inr ⟨?_, trivial, List.Perm.swap _ _ _⟩⟩ .nil
    unfold IniBlock.IsProfile
    decide

end OsClientCerts
