import OsClientCerts.CertCleanup
import OsClientCerts.OneFlag

/-!
Forwards that are redirected into replies. The privileged script notes the most recent one
in three shared variables; the background page reads them, one after another and many
awaits later, for each reply tab that it processes.
-/

namespace OsClientCerts.ForwardDecrypt
open GuardedRuns CertCleanup

abbrev MessageUri := JsString

structure Row where
  name : Option JsString
  contentType : Option JsString
  dataBase64 : JsString
  deriving DecidableEq

def lowerCase (unit : UInt16) : UInt16 := if 65 ≤ unit && unit ≤ 90 then unit + 32 else unit

/-- Envelopes of S/MIME and images are not attached again. -/
def leftOut (row : Row) : Bool :=
  let n := (row.name.getD []).map lowerCase
  (ofAscii ".p7m").isSuffixOf n || (ofAscii ".p7s").isSuffixOf n ||
    (row.contentType.getD []).take 6 = ofAscii "image/"

inductive Readiness where
  | ready
  | closed
  | unavailable
  | timeout
  deriving DecidableEq

/-- The state that `newRedirectComposeReady` makes: the outcome, once it is settled, and the
tab of the window that took it. -/
structure ComposeReady where
  settled : Option Readiness
  window : Option Nat

def ComposeReady.resolve (ready : ComposeReady) (result : Readiness) : ComposeReady :=
  if ready.settled.isSome then ready else { ready with settled := some result }

/-- The window of a tab: the listeners that are set on it, with the readiness they hold. -/
inductive ComposeWindow where
  | unopened
  | opened (ready : Option Nat)
  | initialised (ready : Option Nat)
  deriving DecidableEq

inductive Stage where
  | unprocessed
  | preparing
  | awaiting (ready : Option Nat)
  | reading
  | extracting (source : MessageUri)
  | attaching (source : MessageUri) (rows : List Row)
  | left
  deriving DecidableEq

/-- A redirected Forward: its message, and the readiness that was made for its window. -/
structure Forward where
  uri : MessageUri
  ready : Nat

structure ReplyTab where
  /-- The Forward that opened the tab, unless the user replied. -/
  forward : Option Forward
  window : ComposeWindow
  closed : Bool
  stage : Stage
  /-- Calls of `handleExperimentReplyTab`. -/
  handed : Nat
  attached : List Row

structure Redirects where
  lastForwardUri : Option MessageUri
  redirectPending : Bool
  redirectComposeReady : Option Nat
  readies : List ComposeReady
  tabs : List ReplyTab

inductive ReplyEvent where
  /-- The check of a Forward finds its message eligible, and a reply is opened for it. -/
  | redirect (uri : MessageUri)
  | reply
  | windowOpened (tab : Nat)
  | composeInit (tab : Nat) (gMsgCompose : Bool)
  | bodyReady (tab : Nat)
  | unload (tab : Nat)
  | removed (tab : Nat)
  | process (tab : Nat)
  | waitReady (tab : Nat) (details : Bool)
  | readiness (tab : Nat) (timeout : Bool)
  | readUri (tab : Nat)
  | extracted (tab : Nat)
  | attach (tab : Nat) (adds : Nat)

namespace Redirects

def fresh : Redirects := ⟨none, false, none, [], []⟩

def openTab (state : Redirects) (forward : Option Forward) : Redirects :=
  { state with tabs := state.tabs ++ [⟨forward, .unopened, false, .unprocessed, 0, []⟩] }

def redirect (state : Redirects) (uri : MessageUri) : Redirects :=
  let marked : Redirects := { state with
    lastForwardUri := some uri
    redirectPending := true
    redirectComposeReady := some state.readies.length
    readies := state.readies ++ [⟨none, none⟩] }
  marked.openTab (some ⟨uri, state.readies.length⟩)

def resolve (state : Redirects) (ready : Nat) (result : Readiness) : Redirects :=
  { state with readies := state.readies.modify ready fun other => other.resolve result }

def setTab (state : Redirects) (index : Nat) (tab : ReplyTab) : Redirects :=
  { state with tabs := state.tabs.set index tab }

def vacant (state : Redirects) (ready : Nat) : Bool :=
  match state.readies[ready]? with
  | some ready => ready.settled.isNone && ready.window.isNone
  | none => false

def onOpenWindow (state : Redirects) (index : Nat) (tab : ReplyTab) : Redirects :=
  match tab.window with
  | .unopened =>
      let captured := state.redirectComposeReady.filter state.vacant
      state.setTab index { tab with window := .opened captured }
  | _ => state

def composeWindowInit (state : Redirects) (index : Nat) (tab : ReplyTab) (gMsgCompose : Bool) :
    Redirects :=
  match tab.window with
  | .opened none => state.setTab index { tab with window := .initialised none }
  | .opened (some ready) =>
      if state.vacant ready then
        let taken := { state with
          readies := state.readies.modify ready fun other => { other with window := some index } }
        let watched := if gMsgCompose then taken else taken.resolve ready .closed
        watched.setTab index { tab with window := .initialised (some ready) }
      else state.setTab index { tab with window := .initialised none }
  | _ => state

def notify (state : Redirects) (tab : ReplyTab) (result : Readiness) : Redirects :=
  match tab.window with
  | .initialised (some ready) => state.resolve ready result
  | _ => state

def processComposeTab (state : Redirects) (index : Nat) (tab : ReplyTab) : Redirects :=
  match tab.stage with
  | .unprocessed =>
      let redirectedByUs := state.redirectPending
      let next := if redirectedByUs then
          { tab with handed := tab.handed + 1, stage := .preparing }
        else { tab with stage := .left }
      { state with redirectPending := false }.setTab index next
  | _ => state

/-! `handleExperimentReplyTab`, from one await to the next. -/

/-- The details of the tab were read or not; if so, its recipients are cleared and its
subject is set, and the wait begins. -/
def waitForRedirectedComposeReady (state : Redirects) (index : Nat) (tab : ReplyTab)
    (details : Bool) : Redirects :=
  match tab.stage with
  | .preparing =>
      if details then state.setTab index { tab with stage := .awaiting state.redirectComposeReady }
      else state.setTab index { tab with stage := .left }
  | _ => state

/-- The outcome of the wait, as soon as there is one. -/
def outcome (state : Redirects) (ready : Option Nat) (timeout : Bool) : Option Readiness :=
  match ready with
  | none => some .unavailable
  | some ready =>
      match (state.readies[ready]?).bind ComposeReady.settled with
      | some result => some result
      | none => if timeout then some .timeout else none

def afterReadiness (state : Redirects) (index : Nat) (tab : ReplyTab) (timeout : Bool) :
    Redirects :=
  match tab.stage with
  | .awaiting ready =>
      match state.outcome ready timeout with
      | none => state
      | some result =>
          if result = .closed then state.setTab index { tab with stage := .left }
          else if tab.closed then state.setTab index { tab with stage := .left }
          else state.setTab index { tab with stage := .reading }
  | _ => state

def getLastForwardUri (state : Redirects) (index : Nat) (tab : ReplyTab) : Redirects :=
  match tab.stage with
  | .reading =>
      match state.lastForwardUri with
      | none => state.setTab index { tab with stage := .left }
      | some uri => state.setTab index { tab with stage := .extracting uri }
  | _ => state

def afterExtraction (extract : MessageUri → List Row) (state : Redirects) (index : Nat)
    (tab : ReplyTab) : Redirects :=
  match tab.stage with
  | .extracting source =>
      if tab.closed then state.setTab index { tab with stage := .left }
      else state.setTab index { tab with stage := .attaching source (extract source) }
  | _ => state

/-- The turn of one file: it is added up to three times, until it stays. -/
def attach (state : Redirects) (index : Nat) (tab : ReplyTab) (adds : Nat) : Redirects :=
  match tab.stage with
  | .attaching _ [] => state.setTab index { tab with stage := .left }
  | .attaching source (row :: rest) =>
      let added := if leftOut row then [] else List.replicate (min adds 3) row
      state.setTab index { tab with
        stage := .attaching source rest
        attached := tab.attached ++ added }
  | _ => state

def onTab (state : Redirects) (index : Nat) (action : ReplyTab → Redirects) : Redirects :=
  match state.tabs[index]? with
  | some tab => action tab
  | none => state

def step (extract : MessageUri → List Row) : ReplyEvent → Redirects → Redirects
  | .redirect uri, state => state.redirect uri
  | .reply, state => state.openTab none
  | .windowOpened index, state => state.onTab index (state.onOpenWindow index)
  | .composeInit index gMsgCompose, state =>
      state.onTab index fun tab => state.composeWindowInit index tab gMsgCompose
  | .bodyReady index, state => state.onTab index fun tab => state.notify tab .ready
  | .unload index, state => state.onTab index fun tab => state.notify tab .closed
  | .removed index, state =>
      state.onTab index fun tab => state.setTab index { tab with closed := true }
  | .process index, state => state.onTab index (state.processComposeTab index)
  | .waitReady index details, state =>
      state.onTab index fun tab => state.waitForRedirectedComposeReady index tab details
  | .readiness index timeout, state =>
      state.onTab index fun tab => state.afterReadiness index tab timeout
  | .readUri index, state => state.onTab index (state.getLastForwardUri index)
  | .extracted index, state => state.onTab index (afterExtraction extract state index)
  | .attach index adds, state => state.onTab index fun tab => state.attach index tab adds

def afterRun (extract : MessageUri → List Row) (run : List ReplyEvent) : Redirects :=
  LocalAutomata.after (step extract) run fresh

end Redirects

def ReplyTab.item (tab : ReplyTab) : OneFlag.Item :=
  ⟨tab.forward.isSome, tab.stage ≠ .unprocessed, tab.handed⟩

def ReplyEvent.flagEvent : ReplyEvent → Option OneFlag.Event
  | .redirect _ => some .announce
  | .reply => some .plain
  | .process index => some (.visit index)
  | _ => none

namespace Redirects

def flagState (state : Redirects) : OneFlag.State :=
  ⟨state.redirectPending, state.tabs.map ReplyTab.item⟩

/-- Every tab that a Forward opened was handed on once, and no other tab ever. -/
def Cleaned (state : Redirects) : Prop :=
  ∀ tab ∈ state.tabs, tab.handed = if tab.forward.isSome then 1 else 0

def Unprocessed (tab : ReplyTab) : Prop := tab.stage = .unprocessed

instance (tab : ReplyTab) : Decidable (Unprocessed tab) :=
  inferInstanceAs (Decidable (tab.stage = .unprocessed))

/-- While the tab of a redirected Forward is unprocessed, no other Forward is redirected and
no other reply is processed. -/
def OneForwardWaits : ReplyEvent → Redirects → Prop
  | .redirect _, state => ∀ other ∈ state.tabs, other.forward.isSome → ¬Unprocessed other
  | .process index, state => ∀ tab, state.tabs[index]? = some tab → tab.forward = none →
      Unprocessed tab → ∀ other ∈ state.tabs, other.forward.isSome → ¬Unprocessed other
  | _, _ => True

section
variable {state : Redirects} {index : Nat} {tab next : ReplyTab}

theorem set_tab_flag (found : state.tabs[index]? = some tab) (same : next.item = tab.item) :
    (state.setTab index next).flagState = state.flagState := by
  simp only [flagState, setTab, map_set_same ReplyTab.item found same]

theorem on_open_window_flag (found : state.tabs[index]? = some tab) :
    (state.onOpenWindow index tab).flagState = state.flagState := by
  unfold onOpenWindow
  split
  · exact set_tab_flag found rfl
  · rfl

theorem compose_window_init_flag (found : state.tabs[index]? = some tab) (gMsgCompose : Bool) :
    (state.composeWindowInit index tab gMsgCompose).flagState = state.flagState := by
  unfold composeWindowInit
  split
  · exact set_tab_flag found rfl
  · split
    · cases gMsgCompose <;> exact @set_tab_flag { state with readies := _ } index tab _ found rfl
    · exact set_tab_flag found rfl
  · rfl

theorem notify_flag (result : Readiness) :
    (state.notify tab result).flagState = state.flagState := by
  unfold notify
  split <;> rfl

theorem wait_flag (found : state.tabs[index]? = some tab) (details : Bool) :
    (state.waitForRedirectedComposeReady index tab details).flagState = state.flagState := by
  unfold waitForRedirectedComposeReady
  split
  · rename_i stage
    cases details <;> exact set_tab_flag found (by simp [ReplyTab.item, stage])
  · rfl

theorem after_readiness_flag (found : state.tabs[index]? = some tab) (timeout : Bool) :
    (state.afterReadiness index tab timeout).flagState = state.flagState := by
  unfold afterReadiness
  split
  · rename_i stage
    split
    · rfl
    · split
      · exact set_tab_flag found (by simp [ReplyTab.item, stage])
      · split <;> exact set_tab_flag found (by simp [ReplyTab.item, stage])
  · rfl

theorem get_last_forward_uri_flag (found : state.tabs[index]? = some tab) :
    (state.getLastForwardUri index tab).flagState = state.flagState := by
  unfold getLastForwardUri
  split
  · rename_i stage
    split <;> exact set_tab_flag found (by simp [ReplyTab.item, stage])
  · rfl

theorem after_extraction_flag (extract : MessageUri → List Row)
    (found : state.tabs[index]? = some tab) :
    (afterExtraction extract state index tab).flagState = state.flagState := by
  unfold afterExtraction
  split
  · rename_i stage
    split <;> exact set_tab_flag found (by simp [ReplyTab.item, stage])
  · rfl

theorem attach_flag (found : state.tabs[index]? = some tab) (adds : Nat) :
    (state.attach index tab adds).flagState = state.flagState := by
  unfold attach
  split
  · rename_i stage
    exact set_tab_flag found (by simp [ReplyTab.item, stage])
  · rename_i stage
    exact set_tab_flag found (by simp [ReplyTab.item, stage])
  · rfl

theorem process_flag (found : state.tabs[index]? = some tab) :
    (state.processComposeTab index tab).flagState =
      OneFlag.step (.visit index) state.flagState := by
  have item : (state.tabs.map ReplyTab.item)[index]? = some tab.item := by simp [found]
  unfold processComposeTab
  split
  · rename_i stage
    rw [OneFlag.step_visit state.flagState item (by simp [ReplyTab.item, stage])]
    simp only [flagState, setTab, List.map_set]
    congr 2
    cases state.redirectPending <;> simp [ReplyTab.item, OneFlag.Item.visit, stage]
  · rename_i stage
    have seen : tab.item.visited = true := by simpa [ReplyTab.item] using stage
    simp [OneFlag.step, flagState, found, seen]

theorem flag_simulates (extract : MessageUri → List Row) (event : ReplyEvent) (state : Redirects) :
    (step extract event state).flagState =
      event.flagEvent.elim state.flagState fun other => OneFlag.step other state.flagState := by
  -- Only three kinds of events touch the marker, and they do what the one flag does.
  have onTab : ∀ {index : Nat} {action : ReplyTab → Redirects},
      (∀ tab, state.tabs[index]? = some tab → (action tab).flagState = state.flagState) →
      (state.onTab index action).flagState = state.flagState := by
    intro index action kept
    unfold Redirects.onTab
    split
    · exact kept _ ‹_›
    · rfl
  cases event with
  | redirect uri => simp [step, redirect, openTab, flagState, ReplyEvent.flagEvent, OneFlag.step,
      ReplyTab.item]
  | reply => simp [step, openTab, flagState, ReplyEvent.flagEvent, OneFlag.step, ReplyTab.item]
  | process index =>
      cases found : state.tabs[index]? with
      | none => simp [step, Redirects.onTab, found, ReplyEvent.flagEvent, OneFlag.step, flagState]
      | some tab =>
          simpa [step, Redirects.onTab, found, ReplyEvent.flagEvent] using process_flag found
  | windowOpened index => exact onTab fun _ found => on_open_window_flag found
  | composeInit index gMsgCompose =>
      exact onTab fun _ found => compose_window_init_flag found gMsgCompose
  | bodyReady index => exact onTab fun _ _ => notify_flag .ready
  | unload index => exact onTab fun _ _ => notify_flag .closed
  | removed index => exact onTab fun _ found => set_tab_flag found rfl
  | waitReady index details => exact onTab fun _ found => wait_flag found details
  | readiness index timeout => exact onTab fun _ found => after_readiness_flag found timeout
  | readUri index => exact onTab fun _ found => get_last_forward_uri_flag found
  | extracted index => exact onTab fun _ found => after_extraction_flag extract found
  | attach index adds => exact onTab fun _ found => attach_flag found adds

theorem item_waits_iff : tab.item.waits = false ↔ (tab.forward.isSome → ¬Unprocessed tab) := by
  cases found : tab.forward.isSome <;> simp [OneFlag.Item.waits, ReplyTab.item, found, Unprocessed]

theorem items_wait_iff : (∀ item ∈ state.flagState.items, item.waits = false) ↔
    ∀ other ∈ state.tabs, other.forward.isSome → ¬Unprocessed other := by
  simp only [flagState, List.mem_map, forall_exists_index, and_imp, forall_apply_eq_imp_iff₂,
    item_waits_iff]

theorem one_forward_waits_iff (event : ReplyEvent) (state : Redirects) :
    OneForwardWaits event state ↔
      event.flagEvent.elim True fun other => OneFlag.OneWaits other state.flagState := by
  cases event with
  | redirect uri => exact items_wait_iff.symm
  | process index =>
      simp only [OneForwardWaits, ReplyEvent.flagEvent, Option.elim_some, OneFlag.OneWaits,
        items_wait_iff]
      simp only [flagState, List.getElem?_map, Option.map_eq_some_iff, forall_exists_index, and_imp,
        forall_apply_eq_imp_iff₂]
      refine forall_congr' fun tab => imp_congr_right fun _ => ?_
      simp [ReplyTab.item, Unprocessed]
  | _ => exact Iff.rfl

theorem cleaned_iff_right : state.Cleaned ↔ OneFlag.Right state.flagState := by
  simp only [Cleaned, OneFlag.Right, flagState, List.mem_map, forall_exists_index, and_imp,
    forall_apply_eq_imp_iff₂]
  refine forall_congr' fun tab => imp_congr_right fun _ => ?_
  cases found : tab.forward.isSome <;> simp [ReplyTab.item, found]

end

/-- The redirected tabs and only they are cleaned exactly when all of them are processed, and
no Forward is redirected and no manual reply processed while one of them still waits. -/
theorem redirects_cleaned_iff (extract : MessageUri → List Row) (run : List ReplyEvent) :
    (afterRun extract run).Cleaned ↔ Meets (step extract) OneForwardWaits run fresh ∧
      ∀ tab ∈ (afterRun extract run).tabs, tab.forward.isSome → ¬Unprocessed tab := by
  have same : (afterRun extract run).flagState = LocalAutomata.after OneFlag.step
      (run.filterMap ReplyEvent.flagEvent) OneFlag.empty :=
    after_project (flag_simulates extract) run fresh
  have meets : Meets (step extract) OneForwardWaits run fresh ↔
      Meets OneFlag.step OneFlag.OneWaits (run.filterMap ReplyEvent.flagEvent) OneFlag.empty :=
    meets_project (flag_simulates extract) one_forward_waits_iff
  rw [cleaned_iff_right, meets, ← items_wait_iff, same]
  exact OneFlag.right_run_iff _

/-- Two messages are forwarded before the first reply tab is processed. -/
theorem second_forward_is_not_cleaned : ¬∀ (extract : MessageUri → List Row)
    (run : List ReplyEvent), (∀ tab ∈ (afterRun extract run).tabs, ¬Unprocessed tab) →
      (afterRun extract run).Cleaned := by
  intro claim
  have cleaned := claim (fun _ => []) [.redirect (ofAscii "mailbox://message/42"),
    .redirect (ofAscii "mailbox://message/43"), .process 0, .process 1] (by decide)
  have passed : (⟨some ⟨ofAscii "mailbox://message/43", 1⟩, .unopened, false, .left, 0, []⟩ :
      ReplyTab) ∈ (afterRun (fun _ => []) [.redirect (ofAscii "mailbox://message/42"),
        .redirect (ofAscii "mailbox://message/43"), .process 0, .process 1]).tabs :=
    List.mem_cons_of_mem _ (List.mem_singleton.mpr rfl)
  exact absurd (cleaned _ passed) (by decide)

end Redirects
end OsClientCerts.ForwardDecrypt
