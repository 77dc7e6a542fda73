import OsClientCerts.DecryptedFiles

/-!
The re-attaching of decrypted files to the reply that forwards them: one file after another,
each until the window lists an attachment of its name. Which files are lost on the way.
-/

namespace OsClientCerts.ForwardDecrypt

/-- What the window does at one call: it may reject it, and a listing names what others have
attached. -/
structure WindowCall where
  rejects : Bool
  others : List JsString

structure Attached where
  name : JsString
  bytes : List UInt8
  deriving DecidableEq

/-- The calls that were made, and the attachments that were added. -/
structure Attaching where
  calls : Nat
  added : List Attached

section Window
variable (window : Nat → WindowCall)

def Attaching.called (state : Attaching) : Attaching := { state with calls := state.calls + 1 }

/-- What is added is listed at once and stays. -/
def listed (state : Attaching) : List JsString :=
  (window state.calls).others ++ state.added.map Attached.name

def listAttachments (state : Attaching) : Option (List JsString) × Attaching :=
  (if (window state.calls).rejects then none else some (listed window state), state.called)

def addAttachment (file : Attached) (state : Attaching) : Bool × Attaching :=
  if (window state.calls).rejects then (false, state.called)
  else (true, { state.called with added := state.added ++ [file] })

def lists (current : List JsString) (name : JsString) : Bool := current.any (· == name)

/-- The attempts that are left for a file; a call that is rejected ends them. -/
def attempts (file : Attached) : Nat → Attaching → Attaching
  | 0, state => state
  | left + 1, state =>
      let add (state : Attaching) : Attaching :=
        match addAttachment window file state with
        | (true, state) => attempts file left state
        | (false, state) => state
      match listAttachments window state with
      | (none, state) => state
      | (some current, state) =>
          if lists current file.name then
            match listAttachments window state with
            | (none, state) => state
            | (some stable, state) => if lists stable file.name then state else add state
          else add state

def reattachRow (state : Attaching) (row : Row) : Attaching :=
  if leftOut row then state
  else
    match atob row.dataBase64 with
    | none => state
    | some binary =>
        let given := row.name.getD []
        let name := if given.isEmpty then js "attachment" else given
        attempts window ⟨name, binary.map UInt16.toUInt8⟩ 3 state

def reattach (rows : List Row) (state : Attaching) : Attaching :=
  rows.foldl (reattachRow window) state

def reattachExtracted (decryptedTree : MimePart) : Attaching :=
  reattach window (extractedRows decryptedTree) ⟨0, []⟩

end Window

/-- The attachments that were added are the files, each with its name and its bytes. -/
def AllAttached (decryptedTree : MimePart) (state : Attaching) : Prop :=
  (state.added.map fun file => (file.name, file.bytes.map UInt8.toUInt16)).Perm
    ((standaloneFiles decryptedTree).map fun file => (file.name, file.body))

/-- At the turn of a name no call is rejected until it is added, and others do not have an
attachment of this name at both looks. -/
def Undisturbed (window : Nat → WindowCall) (call : Nat) (name : JsString) : Prop :=
  (window call).rejects = false ∧ (window (call + 1)).rejects = false ∧
    (name ∈ (window call).others → name ∉ (window (call + 1)).others ∧
      (window (call + 2)).rejects = false)

def StandaloneFile.attached (file : StandaloneFile) : Attached :=
  ⟨file.name, file.body.map fun unit => (UInt16.ofNat (lowByte unit)).toUInt8⟩

/-- The first call after an undisturbed turn: two looks at the added file end it, or one that
is rejected. -/
def nextTurn (window : Nat → WindowCall) (call : Nat) (name : JsString) : Nat :=
  let added := call + if lists (window call).others name then 3 else 2
  if (window added).rejects then added + 1 else added + 2

/-- The turns of these names are undisturbed, one after another. -/
def TurnsUndisturbed (window : Nat → WindowCall) : List JsString → Nat → Prop
  | [], _ => True
  | name :: names, call =>
      Undisturbed window call name ∧ TurnsUndisturbed window names (nextTurn window call name)

/-- No file is lost or changed on its way. -/
structure NothingLost (window : Nat → WindowCall) (decryptedTree : MimePart) : Prop where
  kept : ∀ file ∈ standaloneFiles decryptedTree, file.Kept
  raw : ∀ file ∈ standaloneFiles decryptedTree, ∀ unit ∈ file.body, unit.toNat < 256
  distinct : ((standaloneFiles decryptedTree).map StandaloneFile.name).Nodup
  turns : TurnsUndisturbed window ((standaloneFiles decryptedTree).map StandaloneFile.name) 0

section Turns
variable {window : Nat → WindowCall} {file : Attached} {state : Attaching}

def Adds (window : Nat → WindowCall) (state : Attaching) (name : JsString) : Prop :=
  (window state.calls).rejects = false ∧ (window (state.calls + 1)).rejects = false ∧
    (name ∈ listed window state →
      name ∉ listed window state.called ∧ (window (state.calls + 2)).rejects = false)

theorem lists_iff {current : List JsString} {name : JsString} :
    lists current name = true ↔ name ∈ current := by
  simp [lists]

theorem added_listed (member : file.name ∈ state.added.map Attached.name) :
    lists (listed window state) file.name = true :=
  lists_iff.mpr (List.mem_append_right _ member)

theorem attempts_again (left : Nat) (member : file.name ∈ state.added.map Attached.name) :
    attempts window file (left + 1) state =
      ⟨if (window state.calls).rejects then state.calls + 1 else state.calls + 2, state.added⟩ := by
  -- A file that was added is looked for once more, and again, but not added.
  rw [attempts, listAttachments]
  cases (window state.calls).rejects with
  | true => rfl
  | false =>
      rw [if_neg Bool.false_ne_true]
      dsimp only
      rw [if_pos (added_listed member), listAttachments]
      cases (window state.called.calls).rejects with
      | true => rfl
      | false =>
          have again : lists (listed window state.called) file.name = true :=
            added_listed member
          rw [if_neg Bool.false_ne_true]
          dsimp only
          rw [if_pos again]
          rfl

theorem attempts_added (left : Nat) (member : file.name ∈ state.added.map Attached.name) :
    (attempts window file left state).added = state.added := by
  cases left with
  | zero => rfl
  | succ left => rw [attempts_again left member]

theorem add_then (left : Nat) (state : Attaching) :
    (match addAttachment window file state with
      | (true, state) => attempts window file left state
      | (false, state) => state).added =
      if (window state.calls).rejects then state.added else state.added ++ [file] := by
  rw [addAttachment]
  cases (window state.calls).rejects with
  | true => rfl
  | false =>
      rw [if_neg Bool.false_ne_true]
      apply attempts_added
      simp

theorem turn_cases (left : Nat) :
    (Adds window state file.name ∧
        (attempts window file (left + 1) state).added = state.added ++ [file]) ∨
      (¬ Adds window state file.name ∧
        (attempts window file (left + 1) state).added = state.added) := by
  rw [attempts, listAttachments]
  cases first : (window state.calls).rejects with
  | true => exact Or.inr ⟨fun adds => Bool.false_ne_true (adds.1.symm.trans first), rfl⟩
  | false =>
      rw [if_neg Bool.false_ne_true]
      dsimp only
      by_cases found : file.name ∈ listed window state
      · rw [if_pos (lists_iff.mpr found), listAttachments]
        cases second : (window state.called.calls).rejects with
        | true => exact Or.inr ⟨fun adds => Bool.false_ne_true (adds.2.1.symm.trans second), rfl⟩
        | false =>
            rw [if_neg Bool.false_ne_true]
            dsimp only
            by_cases stable : file.name ∈ listed window state.called
            · rw [if_pos (lists_iff.mpr stable)]
              exact Or.inr ⟨fun adds => (adds.2.2 found).1 stable, rfl⟩
            · rw [if_neg (mt lists_iff.mp stable), add_then]
              cases third : (window state.called.called.calls).rejects with
              | true =>
                  exact Or.inr ⟨fun adds =>
                    Bool.false_ne_true ((adds.2.2 found).2.symm.trans third), rfl⟩
              | false => exact Or.inl ⟨⟨first, second, fun _ => ⟨stable, third⟩⟩, rfl⟩
      · rw [if_neg (mt lists_iff.mp found), add_then]
        cases second : (window state.called.calls).rejects with
        | true => exact Or.inr ⟨fun adds => Bool.false_ne_true (adds.2.1.symm.trans second), rfl⟩
        | false => exact Or.inl ⟨⟨first, second, fun listed => absurd listed found⟩, rfl⟩

theorem not_listed {name : JsString} {state : Attaching}
    (absent : name ∉ state.added.map Attached.name) :
    name ∈ listed window state ↔ name ∈ (window state.calls).others := by
  rw [listed, List.mem_append, or_iff_left absent]

theorem adds_undisturbed {name : JsString} : Adds window state name ↔
    name ∉ state.added.map Attached.name ∧ Undisturbed window state.calls name := by
  -- The turn adds its file if no added file has the name and nothing disturbs it.
  constructor
  · rintro ⟨first, second, retried⟩
    refine ⟨fun member => ?_, first, second, fun others => ?_⟩
    · have stable : name ∈ listed window state.called := List.mem_append_right _ member
      exact (retried (List.mem_append_right _ member)).1 stable
    · obtain ⟨gone, third⟩ := retried (List.mem_append_left _ others)
      exact ⟨fun again => gone (List.mem_append_left _ again), third⟩
  · rintro ⟨absent, first, second, others⟩
    refine ⟨first, second, fun found => ?_⟩
    have stillAbsent : name ∉ state.called.added.map Attached.name := absent
    obtain ⟨gone, third⟩ := others ((not_listed absent).mp found)
    exact ⟨mt (not_listed stillAbsent).mp gone, third⟩

theorem undisturbed_calls (left : Nat) (absent : file.name ∉ state.added.map Attached.name)
    (undisturbed : Undisturbed window state.calls file.name) :
    (attempts window file (left + 2) state).calls = nextTurn window state.calls file.name := by
  obtain ⟨first, second, others⟩ := undisturbed
  have added (state : Attaching) (accepted : (window state.calls).rejects = false) :
      (match addAttachment window file state with
        | (true, state) => attempts window file (left + 1) state
        | (false, state) => state).calls =
        if (window (state.calls + 1)).rejects then state.calls + 2 else state.calls + 3 := by
    rw [addAttachment, accepted, if_neg Bool.false_ne_true]
    dsimp only
    rw [attempts_again left (by simp)]
    rfl
  rw [attempts, listAttachments, first, if_neg Bool.false_ne_true]
  dsimp only
  by_cases found : file.name ∈ (window state.calls).others
  · obtain ⟨gone, third⟩ := others found
    have stillAbsent : file.name ∉ state.called.added.map Attached.name := absent
    have stable : file.name ∉ listed window state.called := mt (not_listed stillAbsent).mp gone
    have looked : (window state.called.calls).rejects = false := second
    rw [if_pos (lists_iff.mpr ((not_listed absent).mpr found)), listAttachments, looked,
      if_neg Bool.false_ne_true]
    dsimp only
    rw [if_neg (mt lists_iff.mp stable), added state.called.called third, nextTurn,
      if_pos (lists_iff.mpr found)]
    rfl
  · rw [if_neg (mt lists_iff.mp (mt (not_listed absent).mp found)), added state.called second,
      nextTurn, if_neg (mt lists_iff.mp found)]
    rfl

end Turns

section Runs
variable {window : Nat → WindowCall} {state : Attaching} {file : StandaloneFile}
  {files : List StandaloneFile}

def attachEach (window : Nat → WindowCall) (files : List StandaloneFile) (state : Attaching) :
    Attaching :=
  files.foldl (fun state file => attempts window file.attached 3 state) state

def TurnsAdd (window : Nat → WindowCall) : List StandaloneFile → Attaching → Prop
  | [], _ => True
  | file :: files, state => Adds window state file.name ∧
      TurnsAdd window files (attempts window file.attached 3 state)

theorem turn_added (adds : Adds window state file.name) :
    (attempts window file.attached 3 state).added = state.added ++ [file.attached] :=
  (turn_cases 2).elim And.right fun nothing => absurd adds nothing.1

theorem turns_add_iff : TurnsAdd window files state ↔
    (files.map StandaloneFile.name).Nodup ∧
      (∀ file ∈ files, file.name ∉ state.added.map Attached.name) ∧
        TurnsUndisturbed window (files.map StandaloneFile.name) state.calls := by
  induction files generalizing state with
  | nil => simp [TurnsAdd, TurnsUndisturbed]
  | cons file files ih =>
      rw [TurnsAdd, ih, List.map_cons, TurnsUndisturbed, List.nodup_cons, List.forall_mem_cons]
      have after (adds : Adds window state file.name) (other : StandaloneFile) :
          other.name ∉ (attempts window file.attached 3 state).added.map Attached.name ↔
            other.name ∉ state.added.map Attached.name ∧ other.name ≠ file.name := by
        rw [turn_added adds, List.map_append, List.mem_append, not_or]
        simp [StandaloneFile.attached]
      have ends (own : file.name ∉ state.added.map Attached.name)
          (undisturbed : Undisturbed window state.calls file.name) :
          (attempts window file.attached 3 state).calls =
            nextTurn window state.calls file.name := undisturbed_calls 1 own undisturbed
      constructor
      · rintro ⟨adds, distinct, fresh, rest⟩
        obtain ⟨own, undisturbed⟩ := adds_undisturbed.mp adds
        rw [ends own undisturbed] at rest
        have apart : file.name ∉ files.map StandaloneFile.name := by
          intro member
          obtain ⟨other, inside, same⟩ := List.mem_map.mp member
          exact ((after adds other).mp (fresh other inside)).2 same
        exact ⟨⟨apart, distinct⟩, ⟨own, fun other inside =>
          ((after adds other).mp (fresh other inside)).1⟩, undisturbed, rest⟩
      · rintro ⟨⟨apart, distinct⟩, ⟨own, others⟩, undisturbed, rest⟩
        have adds := adds_undisturbed.mpr ⟨own, undisturbed⟩
        rw [← ends own undisturbed] at rest
        refine ⟨adds, distinct, fun other inside => (after adds other).mpr ?_, rest⟩
        exact ⟨others other inside, fun same => apart (same ▸ List.mem_map_of_mem inside)⟩

theorem attach_each_added (adds : TurnsAdd window files state) :
    (attachEach window files state).added = state.added ++ files.map StandaloneFile.attached := by
  induction files generalizing state with
  | nil => exact (List.append_nil _).symm
  | cons file files ih =>
      obtain ⟨here, below⟩ := adds
      rw [attachEach, List.foldl_cons, ← attachEach, ih below, turn_added here, List.append_assoc]
      rfl

theorem attach_each_length :
    (attachEach window files state).added.length ≤ state.added.length + files.length ∧
      (state.added.length + files.length ≤ (attachEach window files state).added.length →
        TurnsAdd window files state) := by
  -- At most one attachment is added for each file, and fewer unless every turn adds.
  induction files generalizing state with
  | nil => exact ⟨Nat.le_refl _, fun _ => trivial⟩
  | cons file files ih =>
      obtain ⟨few, all⟩ := @ih (attempts window file.attached 3 state)
      rw [attachEach, List.foldl_cons, ← attachEach, List.length_cons]
      rcases @turn_cases window file.attached state 2 with ⟨adds, added⟩ | ⟨_, same⟩
      · rw [added, List.length_append, List.length_singleton] at few all
        exact ⟨by omega, fun enough => ⟨adds, all (by omega)⟩⟩
      · rw [same] at few all
        exact ⟨by omega, fun enough => by omega⟩

end Runs

theorem reattach_file {window : Nat → WindowCall} {state : Attaching} {file : StandaloneFile}
    (named : file.name ≠ []) (plain : endsInEnvelope file.name = false) (kept : file.Kept) :
    reattachRow window state file.row = attempts window file.attached 3 state := by
  have passes : leftOut file.row = false := by
    rw [StandaloneFile.row, left_out_row, default_not_image, plain, kept.2.1]
    rfl
  have some_name : file.name.isEmpty = false := by simpa using named
  rw [reattachRow, passes, if_neg Bool.false_ne_true, StandaloneFile.row]
  dsimp only
  rw [atob_base64]
  dsimp only
  rw [Option.getD_some, some_name, if_neg Bool.false_ne_true, List.map_map]
  rfl

theorem reattach_files {window : Nat → WindowCall} {files : List StandaloneFile}
    (each : ∀ file ∈ files, (file.name ≠ [] ∧ endsInEnvelope file.name = false) ∧ file.Kept)
    (state : Attaching) :
    reattach window (files.map StandaloneFile.row) state = attachEach window files state := by
  induction files generalizing state with
  | nil => rfl
  | cons file files ih =>
      obtain ⟨⟨⟨named, plain⟩, kept⟩, others⟩ := List.forall_mem_cons.mp each
      rw [List.map_cons, reattach, List.foldl_cons, reattach_file named plain kept, ← reattach,
        ih others]
      rfl

theorem reattach_filter (window : Nat → WindowCall) (rows : List Row) (state : Attaching) :
    reattach window rows state = reattach window (rows.filter fun row => !leftOut row) state := by
  -- Rows that are passed over do nothing.
  induction rows generalizing state with
  | nil => rfl
  | cons row rows ih =>
      rw [reattach, List.foldl_cons, ← reattach, ih]
      cases passed : leftOut row with
      | true =>
          have same : reattachRow window state row = state := by rw [reattachRow, if_pos passed]
          rw [same, List.filter_cons_of_neg (by simp [passed])]
      | false =>
          rw [List.filter_cons_of_pos (by simp [passed])]
          rfl

theorem reattach_kept (window : Nat → WindowCall) (decryptedTree : MimePart) :
    reattachExtracted window decryptedTree = attachEach window
      ((standaloneFiles decryptedTree).filter fun file => decide file.Kept) ⟨0, []⟩ := by
  rw [reattachExtracted, reattach_filter, rows_kept]
  apply reattach_files
  intro file member
  obtain ⟨inside, kept⟩ := List.mem_filter.mp member
  exact ⟨standalone_named inside, of_decide_eq_true kept⟩

theorem attached_pairs (files : List StandaloneFile) :
    (files.map StandaloneFile.attached).map
        (fun file => (file.name, file.bytes.map UInt8.toUInt16)) =
      files.map fun file => (file.name, (file.body.map fun unit =>
        (UInt16.ofNat (lowByte unit)).toUInt8).map UInt8.toUInt16) := by
  rw [List.map_map]
  rfl

theorem none_missing {window : Nat → WindowCall} {decryptedTree : MimePart}
    (all : AllAttached decryptedTree (reattachExtracted window decryptedTree)) :
    ((standaloneFiles decryptedTree).filter fun file => decide file.Kept) =
        standaloneFiles decryptedTree ∧
      TurnsAdd window (standaloneFiles decryptedTree) ⟨0, []⟩ := by
  -- As many attachments as files: every file is kept, and every turn adds.
  have length := all.length_eq
  rw [List.length_map, List.length_map, reattach_kept] at length
  have fewer := List.length_filter_le (fun file => decide file.Kept) (standaloneFiles decryptedTree)
  obtain ⟨few, every⟩ := @attach_each_length window ⟨0, []⟩
    ((standaloneFiles decryptedTree).filter fun file => decide file.Kept)
  rw [length, List.length_nil, Nat.zero_add] at few every
  have same := List.Sublist.eq_of_length_le (List.filter_sublist) few
  rw [same] at every
  exact ⟨same, every (Nat.le_refl _)⟩

def messageOf (files : List (String × String × String)) : MimePart :=
  let headers : PartHeaders := ⟨none, none, none, fun name =>
    if name = js "content-disposition" then some [js "attachment"] else none⟩
  .part ⟨[], js "multipart/mixed", [], false, some [], none⟩ (files.map fun (name, type, body) =>
    .part ⟨js name, js type, [], true, some (js body), some headers⟩ [])

def quietWindow : Nat → WindowCall := fun _ => ⟨false, []⟩

def Arrive (files : List (String × String × String)) : Prop :=
  AllAttached (messageOf files) (reattachExtracted quietWindow (messageOf files))

end OsClientCerts.ForwardDecrypt
