import Mathlib.Data.List.Nodup
import Mathlib.Data.Nat.Digits.Defs
import OsClientCerts.GuardedRuns
import OsClientCerts.JsStrings

/-!
The S/MIME envelopes on compose windows. Each is taken off when it is announced, by one
removal at a time, and sweeps take off those that a window lists. A removal may be refused,
an envelope may be announced twice, and guard and sweeps may meet at the same one.
-/

namespace OsClientCerts.ForwardDecrypt
open GuardedRuns

def isP7mAttachment (name : JsString) : Bool :=
  let n := name.toLowerCase
  n == js "smime.p7m" || n == js "smime.p7s" || (js ".p7m").isSuffixOf n || (js ".p7s").isSuffixOf n

def decimal (number : Nat) : JsString :=
  if number = 0 then js "0"
  else (Nat.digits 10 number).reverse.map fun digit => UInt16.ofNat (48 + digit)

inductive Place where
  | onWindow
  | takenByUser
  | removed
  deriving DecidableEq

/-- An attachment, whose id is its position. It is refused when its last removal was. -/
structure ComposeAttachment where
  tab : Nat
  name : JsString
  place : Place
  announced : Bool
  refused : Bool

def ComposeAttachment.hear (att : ComposeAttachment) : ComposeAttachment :=
  { att with announced := true }

def ComposeAttachment.retry (att : ComposeAttachment) : ComposeAttachment :=
  { att with refused := false }

structure Removal where
  tab : Nat
  id : Nat
  deriving DecidableEq

def Removal.key (removal : Removal) : JsString :=
  decimal removal.tab ++ js ":" ++ decimal removal.id

/-- A call of `removeSmimeAttachments`: the envelopes listed, those it has still to come to,
and its count. -/
structure Sweep where
  listed : List Nat
  remaining : List Nat
  removed : Nat

structure Guarded where
  attachments : List ComposeAttachment
  removals : List Removal
  removingAttachmentKeys : List JsString
  sweeps : List Sweep

inductive GuardEvent where
  | attached (tab : Nat) (name : JsString)
  | takenOff (id : Nat)
  /-- `onAttachmentAdded` reaches the page. -/
  | announced (id : Nat)
  /-- A removal by the listener is answered. -/
  | answered (removal : Nat) (accepted : Bool)
  /-- `listAttachments` is answered for a sweep. -/
  | swept (tab : Nat)
  /-- The removal that a sweep waits for is answered. -/
  | sweepAnswered (sweep : Nat) (accepted : Bool)

namespace Guarded

def initial : Guarded := ⟨[], [], [], []⟩

def change (state : Guarded) (id : Nat) (action : ComposeAttachment → ComposeAttachment) :
    Guarded :=
  { state with attachments := state.attachments.modify id action }

def isOnWindow (state : Guarded) (id : Nat) : Bool :=
  (state.attachments[id]?).any fun att => att.place = .onWindow

def envelopesOn (state : Guarded) (tab : Nat) : List Nat :=
  (List.range state.attachments.length).filter fun id =>
    (state.attachments[id]?).any fun att =>
      att.tab = tab && att.place = .onWindow && isP7mAttachment att.name

def onAttachmentAdded (state : Guarded) (id : Nat) : Guarded :=
  match state.attachments[id]? with
  | none => state
  | some attachment =>
      let heard := state.change id .hear
      if isP7mAttachment attachment.name then
        let removal : Removal := ⟨attachment.tab, id⟩
        if state.removingAttachmentKeys.contains removal.key then heard
        else { heard.change id .retry with
          removingAttachmentKeys := removal.key :: state.removingAttachmentKeys
          removals := state.removals ++ [removal] }
      else heard

/-- The window takes the attachment off, unless it is gone or the call is refused. -/
def takeOff (accepted : Bool) (att : ComposeAttachment) : ComposeAttachment :=
  if att.place = .onWindow then
    if accepted then { att with place := .removed } else { att with refused := true }
  else att

def answer (state : Guarded) (index : Nat) (accepted : Bool) : Guarded :=
  match state.removals[index]? with
  | none => state
  | some removal => { state.change removal.id (takeOff accepted) with
      removals := state.removals.eraseIdx index
      removingAttachmentKeys :=
        state.removingAttachmentKeys.filter fun key => key ≠ removal.key }

def sweepAnswer (state : Guarded) (index : Nat) (accepted : Bool) : Guarded :=
  match state.sweeps[index]? with
  | some ⟨listed, id :: rest, removed⟩ =>
      if accepted && state.isOnWindow id then
        { state.change id (takeOff true) with
          sweeps := state.sweeps.set index ⟨listed, rest, removed + 1⟩ }
      else { state with sweeps := state.sweeps.set index ⟨listed, rest, removed⟩ }
  | _ => state

def step : GuardEvent → Guarded → Guarded
  | .attached tab name, state =>
      { state with attachments := state.attachments ++ [⟨tab, name, .onWindow, false, false⟩] }
  | .takenOff id, state => state.change id fun att =>
      if att.place = .onWindow then { att with place := .takenByUser } else att
  | .announced id, state => state.onAttachmentAdded id
  | .answered removal accepted, state => state.answer removal accepted
  | .swept tab, state =>
      { state with sweeps := state.sweeps ++ [⟨state.envelopesOn tab, state.envelopesOn tab, 0⟩] }
  | .sweepAnswered sweep accepted, state => state.sweepAnswer sweep accepted

def afterRun (run : List GuardEvent) : Guarded := LocalAutomata.after step run initial

theorem decimal_back (number : Nat) :
    Nat.ofDigits 10 ((decimal number).reverse.map fun unit => unit.toNat - 48) = number := by
  unfold decimal
  split
  · rename_i none
    subst none
    decide
  · have digits : (((Nat.digits 10 number).reverse.map fun digit =>
        UInt16.ofNat (48 + digit)).reverse.map fun unit => unit.toNat - 48) =
          Nat.digits 10 number := by
      simp only [List.map_reverse, List.reverse_reverse, List.map_map]
      refine (List.map_congr_left fun digit member => ?_).trans (List.map_id _)
      have small : digit < 10 := Nat.digits_lt_base (by decide) member
      simp only [Function.comp_apply, UInt16.toNat_ofNat', id_eq]
      omega
    rw [digits, Nat.ofDigits_digits]

theorem decimal_injective {first second : Nat} (same : decimal first = decimal second) :
    first = second := by
  rw [← decimal_back first, same, decimal_back]

theorem decimal_digit {number : Nat} {unit : UInt16} (member : unit ∈ decimal number) :
    48 ≤ unit.toNat ∧ unit.toNat ≤ 57 := by
  unfold decimal at member
  split at member
  · obtain rfl : unit = unitOf '0' := by simpa [js] using member
    decide
  · obtain ⟨digit, listed, rfl⟩ := List.mem_map.mp member
    have small : digit < 10 := Nat.digits_lt_base (by decide) (List.mem_reverse.mp listed)
    rw [UInt16.toNat_ofNat']
    omega

theorem colon_not_decimal (number : Nat) : unitOf ':' ∉ decimal number := by
  intro member
  exact absurd (decimal_digit member).2 (by decide)

theorem key_injective {first second : Removal} (same : first.key = second.key) :
    first = second := by
  have parts : decimal first.tab = decimal second.tab ∧ decimal first.id = decimal second.id := by
    have split : decimal first.tab ++ unitOf ':' :: decimal first.id =
        decimal second.tab ++ unitOf ':' :: decimal second.id := by
      simpa [Removal.key, js] using same
    obtain ⟨left, _, right⟩ := (List.append_cons_inj_of_notMem (colon_not_decimal _)
      (colon_not_decimal _)).mp split
    exact ⟨left, right⟩
  cases first
  cases second
  exact Removal.mk.injEq .. ▸ ⟨decimal_injective parts.1, decimal_injective parts.2⟩

section
variable {state next : Guarded}

/-- No attachment moves to another tab or is renamed, and none that is gone comes back. -/
def Later (state next : Guarded) : Prop :=
  ∀ (id : Nat) (att : ComposeAttachment), state.attachments[id]? = some att →
    ∃ after, next.attachments[id]? = some after ∧ after.tab = att.tab ∧ after.name = att.name ∧
      (att.place ≠ .onWindow → after.place = att.place)

theorem Later.refl (state : Guarded) : Later state state :=
  fun _ att found => ⟨att, found, rfl, rfl, fun _ => rfl⟩

theorem Later.trans {last : Guarded} (first : Later state next) (second : Later next last) :
    Later state last := by
  intro id att found
  obtain ⟨middle, held, tab, name, place⟩ := first id att found
  obtain ⟨after, kept, sameTab, sameName, stays⟩ := second id middle held
  refine ⟨after, kept, sameTab.trans tab, sameName.trans name, fun gone => ?_⟩
  rw [stays (place gone ▸ gone), place gone]

structure Modest (action : ComposeAttachment → ComposeAttachment) : Prop where
  tab : ∀ att, (action att).tab = att.tab
  name : ∀ att, (action att).name = att.name
  gone : ∀ att, att.place ≠ .onWindow → (action att).place = att.place

theorem change_later {action : ComposeAttachment → ComposeAttachment} (modest : Modest action)
    (state : Guarded) (id : Nat) : Later state (state.change id action) := by
  intro place att found
  by_cases here : id = place
  · subst here
    exact ⟨action att, by simp [change, found], modest.tab att, modest.name att, modest.gone att⟩
  · exact ⟨att, by simpa [change, here] using found, rfl, rfl, fun _ => rfl⟩

theorem taken_modest : Modest fun att =>
    if att.place = .onWindow then { att with place := .takenByUser } else att where
  tab att := by split <;> rfl
  name att := by split <;> rfl
  gone att gone := by rw [if_neg gone]

theorem take_off_modest (accepted : Bool) : Modest (takeOff accepted) where
  tab att := by unfold takeOff; split <;> [split; skip] <;> rfl
  name att := by unfold takeOff; split <;> [split; skip] <;> rfl
  gone att gone := by rw [takeOff, if_neg gone]

theorem is_on_window_iff {id : Nat} : state.isOnWindow id = true ↔
    ∃ att, state.attachments[id]? = some att ∧ att.place = .onWindow := by
  unfold isOnWindow
  cases state.attachments[id]? <;> simp

theorem Later.gone {id : Nat} (later : Later state next)
    {att : ComposeAttachment} (found : state.attachments[id]? = some att)
    (gone : state.isOnWindow id = false) : next.isOnWindow id = false := by
  obtain ⟨after, held, _, _, stays⟩ := later id att found
  have away : att.place ≠ .onWindow := fun here => by
    rw [is_on_window_iff.mpr ⟨att, found, here⟩] at gone
    cases gone
  cases on : next.isOnWindow id with
  | false => rfl
  | true =>
      obtain ⟨other, same, here⟩ := is_on_window_iff.mp on
      obtain rfl := Option.some.inj (held.symm.trans same)
      exact absurd (stays away ▸ here) away

structure SweepKept (state : Guarded) (sweep : Sweep) : Prop where
  envelopes : ∀ id ∈ sweep.listed, ∃ att, state.attachments[id]? = some att ∧
    isP7mAttachment att.name = true
  counted : ∃ passed, passed ++ sweep.remaining = sweep.listed ∧
    sweep.removed ≤ passed.countP fun id => !state.isOnWindow id

/-- An announced envelope whose last removal was not refused has one in flight. -/
def Covered (state : Guarded) : Prop :=
  ∀ (id : Nat) (att : ComposeAttachment), state.attachments[id]? = some att →
    att.place = .onWindow → att.announced = true → isP7mAttachment att.name = true →
      att.refused = false → ⟨att.tab, id⟩ ∈ state.removals

structure GuardKept (state : Guarded) : Prop where
  targets : ∀ removal ∈ state.removals, ∃ att, state.attachments[removal.id]? = some att ∧
    att.tab = removal.tab ∧ isP7mAttachment att.name = true
  distinct : state.removals.Nodup
  keys : ∀ key, key ∈ state.removingAttachmentKeys ↔ key ∈ state.removals.map Removal.key
  keysOnce : state.removingAttachmentKeys.Nodup
  genuine : ∀ (id : Nat) (att : ComposeAttachment), state.attachments[id]? = some att →
    att.place = .removed → isP7mAttachment att.name = true
  covered : Covered state
  sweeps : ∀ sweep ∈ state.sweeps, SweepKept state sweep

theorem SweepKept.later {sweep : Sweep} (kept : SweepKept state sweep)
    (later : Later state next) : SweepKept next sweep := by
  obtain ⟨passed, parts, counted⟩ := kept.counted
  refine ⟨fun id member => ?_, passed, parts, counted.trans (List.countP_mono_left ?_)⟩
  · obtain ⟨att, found, envelope⟩ := kept.envelopes id member
    obtain ⟨after, held, _, name, _⟩ := later id att found
    exact ⟨after, held, name ▸ envelope⟩
  · intro id member gone
    have listed : id ∈ sweep.listed := parts ▸ List.mem_append_left _ member
    obtain ⟨att, found, _⟩ := kept.envelopes id listed
    have away : next.isOnWindow id = false := later.gone found (by simpa using gone)
    simpa using away

theorem removal_target {removal : Removal} (later : Later state next)
    (held : ∃ att, state.attachments[removal.id]? = some att ∧ att.tab = removal.tab ∧
      isP7mAttachment att.name = true) :
    ∃ att, next.attachments[removal.id]? = some att ∧ att.tab = removal.tab ∧
      isP7mAttachment att.name = true := by
  obtain ⟨att, found, tab, envelope⟩ := held
  obtain ⟨after, kept, sameTab, name, _⟩ := later removal.id att found
  exact ⟨after, kept, sameTab.trans tab, name ▸ envelope⟩

theorem initial_kept : GuardKept initial where
  targets := nofun
  distinct := List.nodup_nil
  keys _ := Iff.rfl
  keysOnce := List.nodup_nil
  genuine _ _ found := by cases found
  covered _ _ found := by cases found
  sweeps := nofun

theorem GuardKept.change (kept : GuardKept state) {id : Nat}
    {action : ComposeAttachment → ComposeAttachment} (modest : Modest action)
    (genuine : ∀ att, state.attachments[id]? = some att → (action att).place = .removed →
      att.place = .removed ∨ isP7mAttachment att.name = true)
    (narrow : ∀ att, (action att).place = .onWindow → (action att).refused = false →
      att.place = .onWindow ∧ att.refused = false ∧
        ((action att).announced = true → att.announced = true)) :
    GuardKept (state.change id action) where
  targets removal member :=
    removal_target (change_later modest state id) (kept.targets removal member)
  distinct := kept.distinct
  keys := kept.keys
  keysOnce := kept.keysOnce
  genuine place after found taken := by
    rcases get_modify found with ⟨rfl, before, held, rfl⟩ | ⟨_, held⟩
    · rw [modest.name]
      rcases genuine before held taken with earlier | envelope
      · exact kept.genuine id before held earlier
      · exact envelope
    · exact kept.genuine place after held taken
  covered place after found here announced envelope accepted := by
    rcases get_modify found with ⟨rfl, before, held, rfl⟩ | ⟨_, held⟩
    · obtain ⟨was, open_, heard⟩ := narrow before here accepted
      rw [modest.name] at envelope
      rw [modest.tab]
      exact kept.covered id before held was (heard announced) envelope open_
    · exact kept.covered place after held here announced envelope accepted
  sweeps sweep member := (kept.sweeps sweep member).later (change_later modest state id)

theorem GuardKept.attached (kept : GuardKept state) (tab : Nat) (name : JsString) :
    GuardKept (step (.attached tab name) state) := by
  have later : Later state (step (.attached tab name) state) := by
    intro id att found
    refine ⟨att, ?_, rfl, rfl, fun _ => rfl⟩
    exact (List.getElem?_append_left (List.getElem?_eq_some_iff.mp found).1).trans found
  constructor
  · exact fun removal member => removal_target later (kept.targets removal member)
  · exact kept.distinct
  · exact kept.keys
  · exact kept.keysOnce
  · intro id att found taken
    rcases get_append_singleton found with earlier | ⟨_, rfl⟩
    · exact kept.genuine id att earlier taken
    · cases taken
  · intro id att found here announced envelope accepted
    rcases get_append_singleton found with earlier | ⟨_, rfl⟩
    · exact kept.covered id att earlier here announced envelope accepted
    · cases announced
  · exact fun sweep member => (kept.sweeps sweep member).later later

theorem GuardKept.taken (kept : GuardKept state) (id : Nat) :
    GuardKept (step (.takenOff id) state) := by
  refine kept.change taken_modest ?_ ?_
  · intro att _ taken
    split at taken
    · cases taken
    · exact Or.inl taken
  · intro att here accepted
    split at here
    · cases here
    · rename_i away
      exact absurd here away

theorem hear_modest : Modest .hear := ⟨fun _ => rfl, fun _ => rfl, fun _ _ => rfl⟩

theorem retry_modest : Modest .retry := ⟨fun _ => rfl, fun _ => rfl, fun _ _ => rfl⟩

theorem announced_cases {id : Nat} {att : ComposeAttachment}
    (found : state.attachments[id]? = some att) :
    (isP7mAttachment att.name = false ∧ state.onAttachmentAdded id = state.change id .hear) ∨
      (isP7mAttachment att.name = true ∧
        Removal.key ⟨att.tab, id⟩ ∈ state.removingAttachmentKeys ∧
          state.onAttachmentAdded id = state.change id .hear) ∨
      (isP7mAttachment att.name = true ∧
        Removal.key ⟨att.tab, id⟩ ∉ state.removingAttachmentKeys ∧
          state.onAttachmentAdded id = { (state.change id .hear).change id .retry with
            removingAttachmentKeys := Removal.key ⟨att.tab, id⟩ :: state.removingAttachmentKeys
            removals := state.removals ++ [⟨att.tab, id⟩] }) := by
  cases envelope : isP7mAttachment att.name with
  | false => exact Or.inl ⟨rfl, by simp [onAttachmentAdded, found, envelope]⟩
  | true =>
      by_cases listed : Removal.key ⟨att.tab, id⟩ ∈ state.removingAttachmentKeys
      · exact Or.inr (Or.inl ⟨rfl, listed, by simp [onAttachmentAdded, found, envelope, listed]⟩)
      · exact Or.inr (Or.inr ⟨rfl, listed, by simp [onAttachmentAdded, found, envelope, listed]⟩)

theorem GuardKept.in_flight (kept : GuardKept state) {removal : Removal} :
    removal.key ∈ state.removingAttachmentKeys ↔ removal ∈ state.removals := by
  -- The keys are those of the removals in flight.
  rw [kept.keys]
  constructor
  · intro member
    obtain ⟨other, listed, same⟩ := List.mem_map.mp member
    exact key_injective same ▸ listed
  · exact fun member => List.mem_map_of_mem member

theorem GuardKept.heard (kept : GuardKept state) {id : Nat} {att : ComposeAttachment}
    (found : state.attachments[id]? = some att)
    (settled : isP7mAttachment att.name = true → ⟨att.tab, id⟩ ∈ state.removals) :
    GuardKept (state.change id .hear) where
  targets removal member :=
    removal_target (change_later hear_modest state id) (kept.targets removal member)
  distinct := kept.distinct
  keys := kept.keys
  keysOnce := kept.keysOnce
  genuine place after held taken := by
    rcases get_modify held with ⟨rfl, before, earlier, rfl⟩ | ⟨_, earlier⟩
    · exact kept.genuine id before earlier taken
    · exact kept.genuine place after earlier taken
  covered place after held here announced envelope accepted := by
    rcases get_modify held with ⟨rfl, before, earlier, rfl⟩ | ⟨_, earlier⟩
    · obtain rfl := Option.some.inj (earlier.symm.trans found)
      exact settled envelope
    · exact kept.covered place after earlier here announced envelope accepted
  sweeps sweep member := (kept.sweeps sweep member).later (change_later hear_modest state id)

theorem GuardKept.began (kept : GuardKept state) {id : Nat} {att : ComposeAttachment}
    (found : state.attachments[id]? = some att) (envelope : isP7mAttachment att.name = true)
    (fresh : Removal.key ⟨att.tab, id⟩ ∉ state.removingAttachmentKeys) :
    GuardKept { (state.change id .hear).change id .retry with
      removingAttachmentKeys := Removal.key ⟨att.tab, id⟩ :: state.removingAttachmentKeys
      removals := state.removals ++ [⟨att.tab, id⟩] } := by
  have moved : Later state ((state.change id .hear).change id .retry) :=
    (change_later hear_modest state id).trans (change_later retry_modest _ id)
  have idle : (⟨att.tab, id⟩ : Removal) ∉ state.removals :=
    fun member => fresh (kept.in_flight.mpr member)
  constructor
  · intro removal member
    rcases List.mem_append.mp member with earlier | last
    · exact removal_target moved (kept.targets removal earlier)
    · obtain rfl := List.mem_singleton.mp last
      exact removal_target moved ⟨att, found, rfl, envelope⟩
  · rw [List.nodup_append]
    refine ⟨kept.distinct, by simp, fun removal earlier last isLast same => idle ?_⟩
    rw [← List.mem_singleton.mp isLast, ← same]
    exact earlier
  · intro key
    simp only [List.mem_cons, List.map_append, List.map_cons, List.map_nil, List.mem_append,
      List.not_mem_nil, or_false, kept.keys key]
    exact or_comm
  · exact List.nodup_cons.mpr ⟨fresh, kept.keysOnce⟩
  · intro place after held taken
    rcases get_modify held with ⟨rfl, before, earlier, rfl⟩ | ⟨_, earlier⟩
    · rcases get_modify earlier with ⟨_, first, stored, rfl⟩ | ⟨apart, _⟩
      · exact kept.genuine id first stored taken
      · exact absurd rfl apart
    · rcases get_modify earlier with ⟨same, _⟩ | ⟨_, stored⟩
      · exact absurd same (by assumption)
      · exact kept.genuine place after stored taken
  · intro place after held here announced isEnvelope accepted
    rcases get_modify held with ⟨rfl, before, earlier, rfl⟩ | ⟨apart, earlier⟩
    · rcases get_modify earlier with ⟨_, first, stored, rfl⟩ | ⟨apart, _⟩
      · obtain rfl := Option.some.inj (stored.symm.trans found)
        exact List.mem_append_right _ (List.mem_singleton.mpr rfl)
      · exact absurd rfl apart
    · rcases get_modify earlier with ⟨same, _⟩ | ⟨_, stored⟩
      · exact absurd same apart
      · exact List.mem_append_left _
          (kept.covered place after stored here announced isEnvelope accepted)
  · exact fun sweep member => (kept.sweeps sweep member).later moved

theorem GuardKept.announced (kept : GuardKept state) (id : Nat) :
    GuardKept (step (.announced id) state) := by
  change GuardKept (state.onAttachmentAdded id)
  cases found : state.attachments[id]? with
  | none => simpa only [onAttachmentAdded, found] using kept
  | some att =>
      rcases announced_cases found with ⟨plain, same⟩ | ⟨_, listed, same⟩ | ⟨envelope, fresh, same⟩
      · exact same ▸ kept.heard found fun envelope => by simp [plain] at envelope
      · exact same ▸ kept.heard found fun _ => kept.in_flight.mp listed
      · exact same ▸ kept.began found envelope fresh

theorem erased_iff {removals : List Removal} {index : Nat} {removal : Removal}
    (distinct : removals.Nodup) (found : removals[index]? = some removal) (other : Removal) :
    other ∈ removals.eraseIdx index ↔ other ∈ removals ∧ other ≠ removal := by
  rw [List.mem_eraseIdx_iff_getElem?]
  constructor
  · rintro ⟨place, apart, held⟩
    refine ⟨List.mem_of_getElem? held, fun same => apart ?_⟩
    have inside : place < removals.length := (List.getElem?_eq_some_iff.mp held).1
    exact (List.getElem?_inj inside distinct).mp (held.trans (same ▸ found.symm))
  · rintro ⟨member, apart⟩
    obtain ⟨place, held⟩ := List.mem_iff_getElem?.mp member
    refine ⟨place, fun same => apart ?_, held⟩
    exact Option.some.inj (held.symm.trans (same ▸ found))

theorem take_off_settled (accepted : Bool) (att : ComposeAttachment)
    (here : (takeOff accepted att).place = .onWindow) : (takeOff accepted att).refused = true := by
  -- After an answer the attachment is gone, or refused.
  unfold takeOff at *
  by_cases on : att.place = .onWindow
  · cases accepted with
    | true => simp [on] at here
    | false => simp [on]
  · simp [on] at here

theorem GuardKept.answered (kept : GuardKept state) (index : Nat) (accepted : Bool) :
    GuardKept (step (.answered index accepted) state) := by
  change GuardKept (state.answer index accepted)
  cases found : state.removals[index]? with
  | none => simpa only [answer, found] using kept
  | some removal =>
      have modest := take_off_modest accepted
      have moved : Later state (state.change removal.id (takeOff accepted)) :=
        change_later modest state removal.id
      obtain ⟨target, held, sameTab, envelope⟩ :=
        kept.targets removal (List.mem_of_getElem? found)
      have left := erased_iff kept.distinct found
      simp only [answer, found]
      constructor
      · exact fun other member => removal_target moved (kept.targets other ((left other).mp member).1)
      · exact kept.distinct.eraseIdx index
      · intro key
        rw [List.mem_filter, kept.keys]
        simp only [decide_eq_true_eq, List.mem_map, left]
        constructor
        · rintro ⟨⟨other, member, rfl⟩, apart⟩
          exact ⟨other, ⟨member, fun same => apart (same ▸ rfl)⟩, rfl⟩
        · rintro ⟨other, ⟨member, apart⟩, rfl⟩
          exact ⟨⟨other, member, rfl⟩, fun same => apart (key_injective same)⟩
      · exact kept.keysOnce.filter _
      · intro place after changed taken
        rcases get_modify changed with ⟨rfl, before, earlier, rfl⟩ | ⟨_, earlier⟩
        · obtain rfl := Option.some.inj (earlier.symm.trans held)
          rw [modest.name]
          exact envelope
        · exact kept.genuine place after earlier taken
      · intro place after changed here heard isEnvelope accepts
        rcases get_modify changed with ⟨rfl, before, earlier, rfl⟩ | ⟨apart, earlier⟩
        · rw [take_off_settled accepted before here] at accepts
          cases accepts
        · refine (left _).mpr
            ⟨kept.covered place after earlier here heard isEnvelope accepts, fun same => apart ?_⟩
          exact congrArg Removal.id same.symm
      · exact fun sweep member => (kept.sweeps sweep member).later moved

theorem mem_envelopes {tab id : Nat} : id ∈ state.envelopesOn tab ↔
    ∃ att, state.attachments[id]? = some att ∧ att.tab = tab ∧ att.place = .onWindow ∧
      isP7mAttachment att.name = true := by
  unfold envelopesOn
  rw [List.mem_filter, List.mem_range]
  constructor
  · rintro ⟨_, named⟩
    cases found : state.attachments[id]? with
    | none => simp [found] at named
    | some att => exact ⟨att, rfl, by simpa [found, and_assoc] using named⟩
  · rintro ⟨att, found, rfl, here, envelope⟩
    exact ⟨(List.getElem?_eq_some_iff.mp found).1, by simp [found, here, envelope]⟩

theorem GuardKept.swept (kept : GuardKept state) (tab : Nat) :
    GuardKept (step (.swept tab) state) := by
  refine { kept with sweeps := fun sweep member => ?_ }
  rcases List.mem_append.mp member with earlier | last
  · exact (kept.sweeps sweep earlier).later (Later.refl state)
  · obtain rfl := List.mem_singleton.mp last
    refine ⟨fun id listed => ?_, [], rfl, Nat.zero_le _⟩
    obtain ⟨att, found, _, _, envelope⟩ := mem_envelopes.mp listed
    exact ⟨att, found, envelope⟩

theorem SweepKept.passed {listed rest : List Nat} {id removed : Nat}
    (kept : SweepKept state ⟨listed, id :: rest, removed⟩) (later : Later state next)
    (more : Nat) (gone : more = 0 ∨ more = 1 ∧ next.isOnWindow id = false) :
    SweepKept next ⟨listed, rest, removed + more⟩ := by
  have moved := kept.later later
  obtain ⟨passed, parts, counted⟩ := moved.counted
  refine ⟨moved.envelopes, passed ++ [id], by simpa using parts, ?_⟩
  rw [List.countP_append]
  rcases gone with rfl | ⟨rfl, away⟩
  · exact counted.trans (Nat.le_add_right _ _)
  · refine Nat.add_le_add counted ?_
    simp [away]

theorem GuardKept.sweepAnswered (kept : GuardKept state) (index : Nat) (accepted : Bool) :
    GuardKept (step (.sweepAnswered index accepted) state) := by
  change GuardKept (state.sweepAnswer index accepted)
  unfold sweepAnswer
  split
  · rename_i listed id rest removed found
    have current := kept.sweeps _ (List.mem_of_getElem? found)
    have rest_kept : ∀ {next : Guarded} (more : Nat), Later state next →
        (more = 0 ∨ more = 1 ∧ next.isOnWindow id = false) →
          ∀ sweep ∈ state.sweeps.set index ⟨listed, rest, removed + more⟩, SweepKept next sweep := by
      intro next more later gone sweep member
      rcases List.mem_or_eq_of_mem_set member with earlier | rfl
      · exact (kept.sweeps sweep earlier).later later
      · exact current.passed later more gone
    split
    · rename_i takes
      rw [Bool.and_eq_true, is_on_window_iff] at takes
      obtain ⟨_, att, held, here⟩ := takes
      have envelope : isP7mAttachment att.name = true := by
        obtain ⟨passed, parts, _⟩ := current.counted
        obtain ⟨other, same, named⟩ := current.envelopes id (parts ▸ by simp)
        exact Option.some.inj (same.symm.trans held) ▸ named
      have away : ∀ att, (takeOff true att).place ≠ .onWindow := by
        intro att still
        unfold takeOff at still
        by_cases on : att.place = .onWindow <;> simp [on] at still
      have taken : GuardKept (state.change id (takeOff true)) := by
        refine kept.change (take_off_modest true) (fun other found _ => Or.inr ?_)
          fun att still => absurd still (away att)
        exact Option.some.inj (held.symm.trans found) ▸ envelope
      refine { taken with sweeps := ?_ }
      refine rest_kept 1 (change_later (take_off_modest true) state id) (Or.inr ⟨rfl, ?_⟩)
      simp [isOnWindow, Guarded.change, held, away]
    · exact { kept with sweeps := rest_kept 0 (Later.refl state) (Or.inl rfl) }
  · exact kept

theorem kept_step (event : GuardEvent) (state : Guarded) (kept : GuardKept state) :
    GuardKept (step event state) := by
  cases event with
  | attached tab name => exact kept.attached tab name
  | takenOff id => exact kept.taken id
  | announced id => exact kept.announced id
  | answered index accepted => exact kept.answered index accepted
  | swept tab => exact kept.swept tab
  | sweepAnswered index accepted => exact kept.sweepAnswered index accepted

theorem run_kept (run : List GuardEvent) : GuardKept (afterRun run) :=
  always_preserved kept_step run initial_kept

def acceptAll (state : Guarded) : List GuardEvent :=
  List.replicate state.removals.length (.answered 0 true)

theorem accept_removals (count : Nat) (state : Guarded) (enough : state.removals.length ≤ count) :
    (LocalAutomata.after step (List.replicate count (.answered 0 true)) state).removals = [] := by
  induction count generalizing state with
  | zero => exact List.length_eq_zero_iff.mp (Nat.le_zero.mp enough)
  | succ count ih =>
      rw [List.replicate_succ, LocalAutomata.after_cons]
      apply ih
      change (state.answer 0 true).removals.length ≤ count
      cases removals : state.removals with
      | nil => simp [answer, removals]
      | cons removal rest =>
          simp only [answer, removals, List.getElem?_cons_zero, List.eraseIdx_cons_zero]
          rw [removals] at enough
          exact Nat.le_of_succ_le_succ enough

def Lists (index : Nat) (listed : List Nat) (state : Guarded) : Prop :=
  ∃ sweep, state.sweeps[index]? = some sweep ∧ sweep.listed = listed

theorem lists_step {index : Nat} {listed : List Nat} (event : GuardEvent) (state : Guarded)
    (lists : Lists index listed state) : Lists index listed (step event state) := by
  obtain ⟨sweep, found, same⟩ := lists
  cases event with
  | attached tab name => exact ⟨sweep, found, same⟩
  | takenOff id => exact ⟨sweep, found, same⟩
  | announced id =>
      refine ⟨sweep, ?_, same⟩
      change (state.onAttachmentAdded id).sweeps[index]? = _
      cases held : state.attachments[id]? with
      | none => simpa only [onAttachmentAdded, held] using found
      | some att =>
          rcases announced_cases held with ⟨_, next⟩ | ⟨_, _, next⟩ | ⟨_, _, next⟩ <;>
            exact next ▸ found
  | answered place accepted =>
      refine ⟨sweep, ?_, same⟩
      change (state.answer place accepted).sweeps[index]? = _
      unfold answer
      split <;> exact found
  | swept tab =>
      refine ⟨sweep, ?_, same⟩
      exact (List.getElem?_append_left (List.getElem?_eq_some_iff.mp found).1).trans found
  | sweepAnswered place accepted =>
      change Lists index listed (state.sweepAnswer place accepted)
      unfold sweepAnswer
      split
      · rename_i other id rest removed held
        have moved : ∀ count, Lists index listed
            { state with sweeps := state.sweeps.set place ⟨other, rest, count⟩ } := by
          intro count
          by_cases here : place = index
          · subst here
            obtain rfl := Option.some.inj (held.symm.trans found)
            exact ⟨⟨other, rest, count⟩,
              List.getElem?_set_self (List.getElem?_eq_some_iff.mp found).1, same⟩
          · exact ⟨sweep, (List.getElem?_set_ne here).trans found, same⟩
        split
        · exact moved (removed + 1)
        · exact moved removed
      · exact ⟨sweep, found, same⟩

theorem SweepKept.gone {sweep : Sweep} (kept : SweepKept state sweep) :
    sweep.removed ≤ sweep.listed.countP fun id => !state.isOnWindow id := by
  obtain ⟨passed, parts, counted⟩ := kept.counted
  rw [← parts, List.countP_append]
  exact counted.trans (Nat.le_add_right _ _)

end

/-- Nothing but an envelope is ever taken off by the page; the keys are those of the removals
in flight, each for another attachment; an announced envelope that is still there has one, or
its last was refused; so when those in flight are accepted, only refused ones are left. A
sweep lists the envelopes of its window, and no more of them are still there than it does
not count. -/
theorem envelopes_guarded (run : List GuardEvent) :
    (∀ att ∈ (afterRun run).attachments, att.place = .removed →
      isP7mAttachment att.name = true) ∧
    ((afterRun run).removals.Nodup ∧
      (afterRun run).removingAttachmentKeys.Perm ((afterRun run).removals.map Removal.key)) ∧
    Covered (afterRun run) ∧
    (∀ att ∈ (afterRun (run ++ acceptAll (afterRun run))).attachments, att.place = .onWindow →
      att.announced = true → isP7mAttachment att.name = true → att.refused = true) ∧
    ∀ earlier tab later, run = earlier ++ .swept tab :: later →
      ∃ sweep, (afterRun run).sweeps[(afterRun earlier).sweeps.length]? = some sweep ∧
        sweep.listed = (afterRun earlier).envelopesOn tab ∧
          sweep.removed ≤ sweep.listed.countP fun id => !(afterRun run).isOnWindow id := by
  have kept := run_kept run
  refine ⟨fun att member taken => ?_, ⟨kept.distinct, ?_⟩, kept.covered,
    fun att member here heard envelope => ?_, ?_⟩
  · obtain ⟨id, found⟩ := List.mem_iff_getElem?.mp member
    exact kept.genuine id att found taken
  · have distinct : ((afterRun run).removals.map Removal.key).Nodup :=
      kept.distinct.map fun _ _ => key_injective
    exact (List.perm_ext_iff_of_nodup kept.keysOnce distinct).mpr kept.keys
  · have last := run_kept (run ++ acceptAll (afterRun run))
    have idle : (afterRun (run ++ acceptAll (afterRun run))).removals = [] := by
      rw [afterRun, LocalAutomata.after_append]
      exact accept_removals _ _ (Nat.le_refl _)
    obtain ⟨id, found⟩ := List.mem_iff_getElem?.mp member
    by_contra open_
    have flying := last.covered id att found here heard envelope (by simpa using open_)
    rw [idle] at flying
    cases flying
  · rintro earlier tab later rfl
    have listing : Lists (afterRun earlier).sweeps.length ((afterRun earlier).envelopesOn tab)
        (step (.swept tab) (afterRun earlier)) :=
      ⟨⟨(afterRun earlier).envelopesOn tab, (afterRun earlier).envelopesOn tab, 0⟩,
        by simp [step], rfl⟩
    have reached : afterRun (earlier ++ .swept tab :: later) =
        LocalAutomata.after step later (step (.swept tab) (afterRun earlier)) := by
      rw [afterRun, LocalAutomata.after_append, LocalAutomata.after_cons]
      rfl
    obtain ⟨sweep, found, same⟩ := always_preserved lists_step later listing
    rw [← reached] at found
    exact ⟨sweep, found, same, (kept.sweeps sweep (List.mem_of_getElem? found)).gone⟩

/-- An envelope that is announced twice is removed once. -/
example : (afterRun [.attached 7 (js "Smime.P7M"), .announced 0, .announced 0]).removals =
    [⟨7, 0⟩] := by decide

end Guarded
end OsClientCerts.ForwardDecrypt
