import OsClientCerts.GuardedRuns
import OsClientCerts.ReplySubjects

/-!
The cleaning of a reply window that stands for a forward: its recipients are cleared in a
few tries while its subject is read and set again, and others write to the window at the
same time. What the window shows after it.
-/

namespace OsClientCerts.ForwardDecrypt
open GuardedRuns

structure Recipients where
  sendTo : List JsString
  cc : List JsString
  bcc : List JsString
  deriving DecidableEq

def Recipients.nobody : Recipients := ⟨[], [], []⟩

/-- How far `clearRecipients` is: before a try, so many having failed, or at its end. -/
inductive Clearing where
  | trying (tries : Nat)
  | cleared
  | failed
  deriving DecidableEq

inductive Retitling where
  | reading
  | writing (fwdSubject : JsString)
  | finished
  deriving DecidableEq

inductive Phase where
  | waiting
  | left
  | begun
  deriving DecidableEq

/-- A reply window and the call that cleans it. -/
structure Cleaning where
  recipients : Recipients
  subject : JsString
  closed : Bool
  phase : Phase
  clearing : Clearing
  retitling : Retitling

inductive CleanEvent where
  /-- The user, or the window when it fills itself, sets a field. -/
  | entered (recipients : Recipients)
  | renamed (subject : JsString)
  | removed
  /-- A turn of the wait for the details, and of the one before the subject is read. -/
  | details (expired readable : Bool)
  | polled (expired readable : Bool)
  /-- The window accepts a write or not. -/
  | tried (accepts : Bool)
  | written (accepts : Bool)

def waitTurn (expired closed readable : Bool) : Option Bool :=
  if expired || closed then some false
  else if readable then some true
  else none

namespace Cleaning

def opened (recipients : Recipients) (subject : JsString) : Cleaning :=
  ⟨recipients, subject, false, .waiting, .trying 0, .reading⟩

def begin (state : Cleaning) (expired readable : Bool) : Cleaning :=
  match waitTurn expired state.closed readable with
  | none => state
  | some false => { state with phase := .left }
  | some true => { state with phase := .begun }

def clearRecipients (state : Cleaning) (accepts : Bool) : Cleaning :=
  match state.clearing with
  | .trying tries =>
      if accepts then { state with recipients := .nobody, clearing := .cleared }
      else if tries + 1 < 15 then { state with clearing := .trying (tries + 1) }
      else { state with clearing := .failed }
  | _ => state

/-- Without details the subject counts as empty. -/
def readSubject (state : Cleaning) (expired readable : Bool) : Cleaning :=
  match state.retitling with
  | .reading =>
      match waitTurn expired state.closed readable with
      | none => state
      | some found =>
          let fwdSubject := retitleReplyToForward (if found then state.subject else [])
          { state with
            retitling := if fwdSubject.isEmpty then .finished else .writing fwdSubject }
  | _ => state

def writeSubject (state : Cleaning) (accepts : Bool) : Cleaning :=
  match state.retitling with
  | .writing fwdSubject =>
      { state with
        subject := if accepts then fwdSubject else state.subject
        retitling := .finished }
  | _ => state

def step : CleanEvent → Cleaning → Cleaning
  | .entered recipients, state => { state with recipients := recipients }
  | .renamed subject, state => { state with subject := subject }
  | .removed, state => { state with closed := true }
  | .details expired readable, state =>
      if state.phase = .waiting then state.begin expired readable else state
  | .polled expired readable, state =>
      if state.phase = .begun then state.readSubject expired readable else state
  | .tried accepts, state => if state.phase = .begun then state.clearRecipients accepts else state
  | .written accepts, state => if state.phase = .begun then state.writeSubject accepts else state

def afterRun (recipients : Recipients) (subject : JsString) (run : List CleanEvent) : Cleaning :=
  LocalAutomata.after step run (opened recipients subject)

end Cleaning

def enteredIn (run : List CleanEvent) : List Recipients :=
  run.filterMap fun event => match event with
    | .entered recipients => some recipients
    | _ => none

def renamedIn (run : List CleanEvent) : List JsString :=
  run.filterMap fun event => match event with
    | .renamed subject => some subject
    | _ => none

namespace Cleaning
variable {recipients : Recipients} {subject : JsString} {run : List CleanEvent}

theorem entered_concat {before : Recipients} {event : CleanEvent} :
    (enteredIn (run ++ [event])).getLastD before =
      (enteredIn [event]).getLastD ((enteredIn run).getLastD before) := by
  rw [enteredIn, List.filterMap_append]
  cases event <;> simp [enteredIn]

theorem renamed_concat {before : JsString} {event : CleanEvent} :
    (renamedIn (run ++ [event])).getLastD before =
      (renamedIn [event]).getLastD ((renamedIn run).getLastD before) := by
  rw [renamedIn, List.filterMap_append]
  cases event <;> simp [renamedIn]

/-! Each call changes only its own part of the window. -/

theorem begin_frame (state : Cleaning) (expired readable : Bool) :
    ∃ phase, state.begin expired readable = { state with phase := phase } := by
  unfold begin
  split
  · exact ⟨state.phase, rfl⟩
  · exact ⟨.left, rfl⟩
  · exact ⟨.begun, rfl⟩

theorem clear_frame (state : Cleaning) (accepts : Bool) :
    ∃ recipients clearing, state.clearRecipients accepts =
      { state with recipients := recipients, clearing := clearing } := by
  unfold clearRecipients
  split
  · split
    · exact ⟨.nobody, .cleared, rfl⟩
    · split
      · exact ⟨state.recipients, _, rfl⟩
      · exact ⟨state.recipients, .failed, rfl⟩
  · exact ⟨state.recipients, state.clearing, rfl⟩

theorem read_frame (state : Cleaning) (expired readable : Bool) :
    ∃ retitling, state.readSubject expired readable = { state with retitling := retitling } := by
  unfold readSubject
  split
  · split
    · exact ⟨state.retitling, rfl⟩
    · exact ⟨_, rfl⟩
  · exact ⟨state.retitling, rfl⟩

theorem write_frame (state : Cleaning) (accepts : Bool) :
    ∃ subject retitling, state.writeSubject accepts =
      { state with subject := subject, retitling := retitling } := by
  unfold writeSubject
  split
  · exact ⟨_, .finished, rfl⟩
  · exact ⟨state.subject, state.retitling, rfl⟩

/-- A step clears the recipients, fails to, or leaves them to others. -/
theorem step_recipients (event : CleanEvent) (state : Cleaning) :
    (event = .tried true ∧ (∃ tries, state.clearing = .trying tries) ∧
      (step event state).recipients = .nobody ∧ (step event state).clearing = .cleared) ∨
    (∃ tries, event = .tried false ∧ state.clearing = .trying tries ∧
      (step event state).recipients = state.recipients ∧
      (step event state).clearing = if tries + 1 < 15 then .trying (tries + 1) else .failed) ∨
    ((step event state).recipients = (enteredIn [event]).getLastD state.recipients ∧
      (step event state).clearing = state.clearing) := by
  cases event with
  | entered recipients => exact Or.inr (Or.inr ⟨rfl, rfl⟩)
  | renamed subject => exact Or.inr (Or.inr ⟨rfl, rfl⟩)
  | removed => exact Or.inr (Or.inr ⟨rfl, rfl⟩)
  | details expired readable =>
      right; right
      rw [step]
      split
      · obtain ⟨phase, same⟩ := state.begin_frame expired readable
        rw [same]
        exact ⟨rfl, rfl⟩
      · exact ⟨rfl, rfl⟩
  | polled expired readable =>
      right; right
      rw [step]
      split
      · obtain ⟨retitling, same⟩ := state.read_frame expired readable
        rw [same]
        exact ⟨rfl, rfl⟩
      · exact ⟨rfl, rfl⟩
  | written accepts =>
      right; right
      rw [step]
      split
      · obtain ⟨subject, retitling, same⟩ := state.write_frame accepts
        rw [same]
        exact ⟨rfl, rfl⟩
      · exact ⟨rfl, rfl⟩
  | tried accepts =>
      rw [step]
      split
      · unfold clearRecipients
        split
        · rename_i tries going
          cases accepts with
          | true => exact Or.inl ⟨rfl, ⟨tries, going⟩, rfl, rfl⟩
          | false =>
              refine Or.inr (Or.inl ⟨tries, rfl, going, ?_⟩)
              rw [if_neg Bool.false_ne_true]
              split <;> exact ⟨rfl, rfl⟩
        · exact Or.inr (Or.inr ⟨rfl, rfl⟩)
      · exact Or.inr (Or.inr ⟨rfl, rfl⟩)

theorem wait_found {expired closed readable : Bool}
    (found : waitTurn expired closed readable = some true) : expired = false ∧ readable = true := by
  unfold waitTurn at found
  cases expired <;> cases closed <;> cases readable <;> simp_all

theorem step_subject (event : CleanEvent) (state : Cleaning) :
    (∃ fwdSubject, event = .written true ∧ state.retitling = .writing fwdSubject ∧
      (step event state).subject = fwdSubject ∧ (step event state).retitling = .finished) ∨
    (event = .polled false true ∧ state.retitling = .reading ∧
      (step event state).subject = state.subject ∧ retitleReplyToForward state.subject ≠ [] ∧
      (step event state).retitling = .writing (retitleReplyToForward state.subject)) ∨
    ((step event state).subject = (renamedIn [event]).getLastD state.subject ∧
      ((step event state).retitling = state.retitling ∨
        (step event state).retitling = .finished)) := by
  cases event with
  | entered recipients => exact Or.inr (Or.inr ⟨rfl, Or.inl rfl⟩)
  | renamed subject => exact Or.inr (Or.inr ⟨rfl, Or.inl rfl⟩)
  | removed => exact Or.inr (Or.inr ⟨rfl, Or.inl rfl⟩)
  | details expired readable =>
      right; right
      rw [step]
      split
      · obtain ⟨phase, same⟩ := state.begin_frame expired readable
        rw [same]
        exact ⟨rfl, Or.inl rfl⟩
      · exact ⟨rfl, Or.inl rfl⟩
  | tried accepts =>
      right; right
      rw [step]
      split
      · obtain ⟨recipients, clearing, same⟩ := state.clear_frame accepts
        rw [same]
        exact ⟨rfl, Or.inl rfl⟩
      · exact ⟨rfl, Or.inl rfl⟩
  | written accepts =>
      rw [step]
      split
      · unfold writeSubject
        split
        · rename_i fwdSubject writing
          cases accepts with
          | true => exact Or.inl ⟨fwdSubject, rfl, writing, rfl, rfl⟩
          | false => exact Or.inr (Or.inr ⟨rfl, Or.inr rfl⟩)
        · exact Or.inr (Or.inr ⟨rfl, Or.inl rfl⟩)
      · exact Or.inr (Or.inr ⟨rfl, Or.inl rfl⟩)
  | polled expired readable =>
      right
      rw [step]
      split
      · unfold readSubject
        split
        · rename_i reading
          split
          · exact Or.inr ⟨rfl, Or.inl rfl⟩
          · rename_i found ended
            cases found with
            | false => exact Or.inr ⟨rfl, Or.inr rfl⟩
            | true =>
                obtain ⟨rfl, rfl⟩ := wait_found ended
                cases filled : (retitleReplyToForward state.subject).isEmpty with
                | true => exact Or.inr ⟨rfl, Or.inr (by simp [filled])⟩
                | false =>
                    exact Or.inl ⟨rfl, reading, rfl, by simpa using filled, by simp [filled]⟩
        · exact Or.inr ⟨rfl, Or.inl rfl⟩
      · exact Or.inr ⟨rfl, Or.inl rfl⟩

/-- What the window shows as recipients: as others left it, or cleared once and then as others
left it. -/
structure RecipientsKept (recipients : Recipients) (subject : JsString) (run : List CleanEvent)
    (state : Cleaning) : Prop where
  before : state.clearing ≠ .cleared → state.recipients = (enteredIn run).getLastD recipients
  since : state.clearing = .cleared → ∃ earlier later, run = earlier ++ .tried true :: later ∧
    (∃ tries, (afterRun recipients subject earlier).clearing = .trying tries) ∧
    state.recipients = (enteredIn later).getLastD .nobody

theorem recipients_kept (recipients : Recipients) (subject : JsString) (run : List CleanEvent) :
    RecipientsKept recipients subject run (afterRun recipients subject run) := by
  induction run using List.reverseRec with
  | nil => exact ⟨fun _ => rfl, fun done => by cases done⟩
  | append_singleton run event ih =>
      rw [afterRun, LocalAutomata.after_concat]
      change RecipientsKept recipients subject (run ++ [event])
        (step event (afterRun recipients subject run))
      rcases step_recipients event (afterRun recipients subject run) with
        ⟨rfl, trying, shown, done⟩ | ⟨tries, rfl, trying, shown, refused⟩ | ⟨shown, same⟩
      · exact ⟨fun other => absurd done other, fun _ => ⟨run, [], rfl, trying, shown⟩⟩
      · constructor
        · intro other
          rw [shown, ih.before (by simp [trying]), entered_concat]
          rfl
        · intro done
          rw [refused] at done
          split at done <;> cases done
      · constructor
        · intro other
          rw [shown, ih.before (same ▸ other), entered_concat]
        · intro done
          obtain ⟨earlier, later, rfl, trying, kept⟩ := ih.since (same ▸ done)
          refine ⟨earlier, later ++ [event], by simp, trying, ?_⟩
          rw [shown, kept, entered_concat]

def WasRead (recipients : Recipients) (subject : JsString) (run : List CleanEvent)
    (fwdSubject : JsString) : Prop :=
  ∃ earlier middle rest, run = earlier ++ .polled false true :: middle ∧
    afterReplyMark (afterRun recipients subject earlier).subject.trim = some rest ∧
    fwdSubject = forwardOf rest

/-- What the window shows as subject: as others left it, or set once and then as others left
it. -/
structure SubjectKept (recipients : Recipients) (subject : JsString) (run : List CleanEvent)
    (state : Cleaning) : Prop where
  read : ∀ fwdSubject, state.retitling = .writing fwdSubject →
    WasRead recipients subject run fwdSubject
  shown : state.subject = (renamedIn run).getLastD subject ∨ state.retitling = .finished ∧
    ∃ earlier later fwdSubject, run = earlier ++ .written true :: later ∧
      WasRead recipients subject earlier fwdSubject ∧
      state.subject = (renamedIn later).getLastD fwdSubject

theorem WasRead.later {fwdSubject : JsString} {event : CleanEvent}
    (read : WasRead recipients subject run fwdSubject) :
    WasRead recipients subject (run ++ [event]) fwdSubject := by
  obtain ⟨earlier, middle, rest, rfl, found, same⟩ := read
  exact ⟨earlier, middle ++ [event], rest, by simp, found, same⟩

theorem subject_kept (recipients : Recipients) (subject : JsString) (run : List CleanEvent) :
    SubjectKept recipients subject run (afterRun recipients subject run) := by
  induction run using List.reverseRec with
  | nil =>
      refine ⟨fun fwdSubject writing => ?_, Or.inl rfl⟩
      cases writing
  | append_singleton run event ih =>
      rw [afterRun, LocalAutomata.after_concat]
      change SubjectKept recipients subject (run ++ [event])
        (step event (afterRun recipients subject run))
      rcases step_subject event (afterRun recipients subject run) with
        ⟨fwdSubject, rfl, writing, shown, done⟩ | ⟨rfl, reading, same, filled, writing⟩ | ⟨shown, stays⟩
      · constructor
        · intro other again
          rw [done] at again
          cases again
        · exact Or.inr ⟨done, run, [], fwdSubject, rfl, ih.read fwdSubject writing, shown⟩
      · constructor
        · intro other again
          rw [writing] at again
          obtain rfl := Retitling.writing.inj again
          obtain ⟨rest, found, same⟩ := retitled filled
          exact ⟨run, [], rest, rfl, found, same⟩
        · rcases ih.shown with kept | ⟨finished, -⟩
          · exact Or.inl (by rw [same, kept, renamed_concat]; rfl)
          · rw [reading] at finished
            cases finished
      · constructor
        · intro other again
          rcases stays with before | done
          · exact (ih.read other (before ▸ again)).later
          · rw [done] at again
            cases again
        · rcases ih.shown with kept | ⟨finished, earlier, later, fwdSubject, rfl, read, kept⟩
          · exact Or.inl (by rw [shown, kept, renamed_concat])
          · refine Or.inr ⟨?_, earlier, later ++ [event], fwdSubject, by simp, read, ?_⟩
            · rcases stays with before | done
              · rw [before, finished]
              · exact done
            · rw [shown, kept, renamed_concat]

def isTry : CleanEvent → Bool
  | .tried _ => true
  | _ => false

def isRefusal : CleanEvent → Bool
  | .tried accepts => !accepts
  | _ => false

/-- Before the details are read nothing is tried; a clearing that goes on has failed as often
as tries were refused, fifteen times at most. -/
structure TriesKept (run : List CleanEvent) (state : Cleaning) : Prop where
  unbegun : state.phase ≠ .begun → state.clearing = .trying 0 ∧ state.retitling = .reading
  trying : ∀ tries, state.clearing = .trying tries →
    tries < 15 ∧ tries ≤ run.countP isRefusal
  failed : state.clearing = .failed → 15 ≤ run.countP isRefusal

theorem step_unbegun {event : CleanEvent} {state : Cleaning}
    (unbegun : (step event state).phase ≠ .begun) : state.phase ≠ .begun ∧
      (step event state).clearing = state.clearing ∧
      (step event state).retitling = state.retitling := by
  -- Only a phase that has begun clears or retitles.
  cases event with
  | entered recipients => exact ⟨unbegun, rfl, rfl⟩
  | renamed subject => exact ⟨unbegun, rfl, rfl⟩
  | removed => exact ⟨unbegun, rfl, rfl⟩
  | details expired readable =>
      rw [step] at unbegun ⊢
      split
      · rename_i waiting
        obtain ⟨phase, same⟩ := state.begin_frame expired readable
        rw [same]
        exact ⟨by simp [waiting], rfl, rfl⟩
      · rename_i other
        rw [if_neg other] at unbegun
        exact ⟨unbegun, rfl, rfl⟩
  | polled expired readable =>
      rw [step] at unbegun ⊢
      split
      · rename_i begun
        obtain ⟨retitling, same⟩ := state.read_frame expired readable
        rw [if_pos begun, same] at unbegun
        exact absurd begun unbegun
      · rename_i other
        exact ⟨other, rfl, rfl⟩
  | tried accepts =>
      rw [step] at unbegun ⊢
      split
      · rename_i begun
        obtain ⟨recipients, clearing, same⟩ := state.clear_frame accepts
        rw [if_pos begun, same] at unbegun
        exact absurd begun unbegun
      · rename_i other
        exact ⟨other, rfl, rfl⟩
  | written accepts =>
      rw [step] at unbegun ⊢
      split
      · rename_i begun
        obtain ⟨subject, retitling, same⟩ := state.write_frame accepts
        rw [if_pos begun, same] at unbegun
        exact absurd begun unbegun
      · rename_i other
        exact ⟨other, rfl, rfl⟩

theorem tries_kept (recipients : Recipients) (subject : JsString) (run : List CleanEvent) :
    TriesKept run (afterRun recipients subject run) := by
  induction run using List.reverseRec with
  | nil =>
      refine ⟨fun _ => ⟨rfl, rfl⟩, fun tries going => ?_, fun ended => ?_⟩
      · obtain rfl := Clearing.trying.inj going
        exact ⟨by decide, Nat.le_refl 0⟩
      · cases ended
  | append_singleton run event ih =>
      rw [afterRun, LocalAutomata.after_concat]
      change TriesKept (run ++ [event]) (step event (afterRun recipients subject run))
      have grown : run.countP isRefusal ≤ (run ++ [event]).countP isRefusal := by
        rw [List.countP_append]
        exact Nat.le_add_right _ _
      constructor
      · intro unbegun
        obtain ⟨before, clearing, retitling⟩ := step_unbegun unbegun
        rw [clearing, retitling]
        exact ih.unbegun before
      · intro tries going
        rcases step_recipients event (afterRun recipients subject run) with
          ⟨-, -, -, done⟩ | ⟨earlier, rfl, trying, -, refused⟩ | ⟨-, same⟩
        · rw [done] at going
          cases going
        · obtain ⟨few, counted⟩ := ih.trying earlier trying
          rw [refused] at going
          split at going
          · obtain rfl := Clearing.trying.inj going
            rename_i fewer
            refine ⟨fewer, ?_⟩
            rw [List.countP_append]
            exact Nat.add_le_add_right counted 1
          · cases going
        · obtain ⟨few, counted⟩ := ih.trying tries (same ▸ going)
          exact ⟨few, counted.trans grown⟩
      · intro ended
        rcases step_recipients event (afterRun recipients subject run) with
          ⟨-, -, -, done⟩ | ⟨earlier, rfl, trying, -, refused⟩ | ⟨-, same⟩
        · rw [done] at ended
          cases ended
        · obtain ⟨few, counted⟩ := ih.trying earlier trying
          rw [refused] at ended
          split at ended
          · cases ended
          · rename_i last
            rw [List.countP_append]
            exact (Nat.le_of_not_lt last).trans (Nat.add_le_add_right counted 1)
        · exact (ih.failed (same ▸ ended)).trans grown

def remaining : Clearing → Nat
  | .trying tries => 15 - tries
  | _ => 0

theorem remaining_le (clearing : Clearing) : remaining clearing ≤ 15 := by
  cases clearing with
  | trying tries => exact Nat.sub_le 15 tries
  | cleared => exact Nat.zero_le _
  | failed => exact Nat.zero_le _

theorem begun_step {state : Cleaning} (event : CleanEvent) (begun : state.phase = .begun) :
    (step event state).phase = .begun := by
  by_contra unbegun
  exact (step_unbegun unbegun).1 begun

theorem remaining_step {state : Cleaning} (event : CleanEvent) (begun : state.phase = .begun) :
    remaining (step event state).clearing ≤
      remaining state.clearing - [event].countP isTry := by
  rcases step_recipients event state with
    ⟨-, -, -, done⟩ | ⟨tries, rfl, trying, -, refused⟩ | ⟨-, same⟩
  · rw [done]
    exact Nat.zero_le _
  · rw [refused, trying]
    split
    · exact Nat.le_of_eq (Nat.sub_add_eq 15 tries 1)
    · exact Nat.zero_le _
  · rw [same]
    cases event with
    | tried accepts =>
        -- A try that changes nothing comes after the last one.
        rw [step, if_pos begun, clearRecipients] at same
        cases clearing : state.clearing with
        | cleared => exact Nat.zero_le _
        | failed => exact Nat.zero_le _
        | trying tries =>
            simp only [clearing] at same
            split at same
            · cases same
            · split at same
              · exact absurd (Clearing.trying.inj same) (Nat.succ_ne_self tries)
              · cases same
    | _ => exact Nat.le_refl _

theorem remaining_run (later : List CleanEvent) {state : Cleaning} (begun : state.phase = .begun) :
    remaining (LocalAutomata.after step later state).clearing ≤
      remaining state.clearing - later.countP isTry := by
  induction later generalizing state with
  | nil => exact Nat.le_refl _
  | cons event later ih =>
      have first := remaining_step event begun
      have rest := ih (begun_step event begun)
      have counted : (event :: later).countP isTry = [event].countP isTry + later.countP isTry := by
        rw [← List.countP_append]
        rfl
      rw [counted]
      exact rest.trans (by omega)

def isOfSubject : CleanEvent → Bool
  | .renamed _ | .polled _ _ | .written _ => true
  | _ => false

def isOfRecipients : CleanEvent → Bool
  | .entered _ | .tried _ => true
  | _ => false

structure SameRecipients (first second : Cleaning) : Prop where
  recipients : first.recipients = second.recipients
  clearing : first.clearing = second.clearing
  phase : first.phase = second.phase
  closed : first.closed = second.closed

structure SameSubject (first second : Cleaning) : Prop where
  subject : first.subject = second.subject
  retitling : first.retitling = second.retitling
  phase : first.phase = second.phase
  closed : first.closed = second.closed

theorem shared_recipients (event : CleanEvent) (first second : Cleaning)
    (keep : (!isOfSubject event) = true) (same : SameRecipients first second) :
    SameRecipients (step event first) (step event second) := by
  obtain ⟨recipients, subject, closed, phase, clearing, retitling⟩ := first
  obtain ⟨others, other, shut, stage, going, another⟩ := second
  obtain ⟨recipients, clearing, phase, closed⟩ := same
  dsimp only at recipients clearing phase closed
  subst recipients clearing phase closed
  cases event with
  | entered recipients => exact ⟨rfl, rfl, rfl, rfl⟩
  | removed => exact ⟨rfl, rfl, rfl, rfl⟩
  | renamed subject => cases keep
  | polled expired readable => cases keep
  | written accepts => cases keep
  | details expired readable =>
      simp only [step]
      split
      · simp only [begin]
        split <;> exact ⟨rfl, rfl, rfl, rfl⟩
      · exact ⟨rfl, rfl, rfl, rfl⟩
  | tried accepts =>
      simp only [step]
      split
      · simp only [clearRecipients]
        split
        · split
          · exact ⟨rfl, rfl, rfl, rfl⟩
          · split <;> exact ⟨rfl, rfl, rfl, rfl⟩
        · exact ⟨rfl, rfl, rfl, rfl⟩
      · exact ⟨rfl, rfl, rfl, rfl⟩

theorem shared_subject (event : CleanEvent) (first second : Cleaning)
    (keep : (!isOfRecipients event) = true) (same : SameSubject first second) :
    SameSubject (step event first) (step event second) := by
  obtain ⟨recipients, subject, closed, phase, clearing, retitling⟩ := first
  obtain ⟨others, other, shut, stage, going, another⟩ := second
  obtain ⟨subject, retitling, phase, closed⟩ := same
  dsimp only at subject retitling phase closed
  subst subject retitling phase closed
  cases event with
  | renamed subject => exact ⟨rfl, rfl, rfl, rfl⟩
  | removed => exact ⟨rfl, rfl, rfl, rfl⟩
  | entered recipients => cases keep
  | tried accepts => cases keep
  | details expired readable =>
      simp only [step]
      split
      · simp only [begin]
        split <;> exact ⟨rfl, rfl, rfl, rfl⟩
      · exact ⟨rfl, rfl, rfl, rfl⟩
  | polled expired readable =>
      simp only [step]
      split
      · simp only [readSubject]
        split
        · split <;> exact ⟨rfl, rfl, rfl, rfl⟩
        · exact ⟨rfl, rfl, rfl, rfl⟩
      · exact ⟨rfl, rfl, rfl, rfl⟩
  | written accepts =>
      simp only [step]
      split
      · simp only [writeSubject]
        split <;> exact ⟨rfl, rfl, rfl, rfl⟩
      · exact ⟨rfl, rfl, rfl, rfl⟩

theorem skipped_subject (event : CleanEvent) (first second : Cleaning)
    (skip : (!isOfSubject event) = false) (same : SameRecipients first second) :
    SameRecipients (step event first) second := by
  cases event with
  | renamed subject => exact ⟨same.recipients, same.clearing, same.phase, same.closed⟩
  | polled expired readable =>
      rw [step]
      split
      · obtain ⟨retitling, made⟩ := first.read_frame expired readable
        rw [made]
        exact ⟨same.recipients, same.clearing, same.phase, same.closed⟩
      · exact same
  | written accepts =>
      rw [step]
      split
      · obtain ⟨subject, retitling, made⟩ := first.write_frame accepts
        rw [made]
        exact ⟨same.recipients, same.clearing, same.phase, same.closed⟩
      · exact same
  | entered | removed | details | tried => cases skip

theorem skipped_recipients (event : CleanEvent) (first second : Cleaning)
    (skip : (!isOfRecipients event) = false) (same : SameSubject first second) :
    SameSubject (step event first) second := by
  cases event with
  | entered recipients => exact ⟨same.subject, same.retitling, same.phase, same.closed⟩
  | tried accepts =>
      rw [step]
      split
      · obtain ⟨recipients, clearing, made⟩ := first.clear_frame accepts
        rw [made]
        exact ⟨same.subject, same.retitling, same.phase, same.closed⟩
      · exact same
  | renamed | removed | details | polled | written => cases skip

/-- A reply window in any run of its cleaning, whatever others write to it. -/
structure ReplyCleaned (recipients : Recipients) (subject : JsString) (run : List CleanEvent) :
    Prop where
  /-- A window whose details are not read is not touched. -/
  untouched : (afterRun recipients subject run).phase ≠ .begun →
    (afterRun recipients subject run).recipients = (enteredIn run).getLastD recipients ∧
      (afterRun recipients subject run).subject = (renamedIn run).getLastD subject
  cleared : RecipientsKept recipients subject run (afterRun recipients subject run)
  retitled : SubjectKept recipients subject run (afterRun recipients subject run)
  /-- What is set is not set again. -/
  once : ∀ fwdSubject, WasRead recipients subject run fwdSubject →
    retitleReplyToForward fwdSubject = []
  refused : (afterRun recipients subject run).clearing = .failed → 15 ≤ run.countP isRefusal
  /-- Fifteen answers end the clearing. -/
  ends : ∀ earlier later, run = earlier ++ later →
    (afterRun recipients subject earlier).phase = .begun → 15 ≤ later.countP isTry →
      ∀ tries, (afterRun recipients subject run).clearing ≠ .trying tries
  /-- Neither call sees what the other does, in whatever order their answers come. -/
  sideBySide : SameRecipients (afterRun recipients subject run)
      (afterRun recipients subject (run.filter fun event => !isOfSubject event)) ∧
    SameSubject (afterRun recipients subject run)
      (afterRun recipients subject (run.filter fun event => !isOfRecipients event))

/-- A reply window that stands for a forward, in any run of its cleaning: the recipients are
cleared and the subject is retitled, or it is known why not. -/
theorem reply_cleaned (recipients : Recipients) (subject : JsString) (run : List CleanEvent) :
    ReplyCleaned recipients subject run where
  untouched unbegun := by
    obtain ⟨clearing, reading⟩ := (tries_kept recipients subject run).unbegun unbegun
    refine ⟨(recipients_kept recipients subject run).before (by simp [clearing]), ?_⟩
    rcases (subject_kept recipients subject run).shown with kept | ⟨finished, -⟩
    · exact kept
    · rw [reading] at finished
      cases finished
  cleared := recipients_kept recipients subject run
  retitled := subject_kept recipients subject run
  once fwdSubject read := by
    obtain ⟨earlier, middle, rest, -, found, rfl⟩ := read
    exact retitled_once found
  refused := (tries_kept recipients subject run).failed
  ends earlier later split begun enough tries going := by
    have few := ((tries_kept recipients subject run).trying tries going).1
    have left := remaining_run later begun
    have whole := remaining_le (afterRun recipients subject earlier).clearing
    rw [afterRun, ← LocalAutomata.after_append, ← split, ← afterRun, going] at left
    change 15 - tries ≤ remaining (afterRun recipients subject earlier).clearing - _ at left
    omega
  sideBySide := ⟨after_filter shared_recipients skipped_subject run ⟨rfl, rfl, rfl, rfl⟩,
    after_filter shared_subject skipped_recipients run ⟨rfl, rfl, rfl, rfl⟩⟩

end Cleaning

end OsClientCerts.ForwardDecrypt
