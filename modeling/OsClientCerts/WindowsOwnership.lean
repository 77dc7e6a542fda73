import Mathlib.Algebra.BigOperators.Group.List.Basic
import OsClientCerts.OperationAutomata
import OsClientCerts.Threads
import OsClientCerts.WindowsScans

/-!
The handles of the Windows backend over the life of the module. The manager owns a
certificate context for every key it has registered, and nothing else of Windows
outlives a call, but for a key handle that Windows hands over and the backend refuses.
-/

namespace OsClientCerts.Windows
open OwnedResources Resumption

def contextsOf (objects : List backend.Object) : Multiset Resource := ownedBy objects

theorem contexts_of_cons (object : backend.Object) (rest : List backend.Object) :
    contextsOf (object :: rest) = contextsOf [object] + contextsOf rest :=
  owned_by_append [object] rest

theorem contexts_of_append (objects rest : List backend.Object) :
    contextsOf (objects ++ rest) = contextsOf objects + contextsOf rest :=
  owned_by_append objects rest

theorem contexts_of_perm {objects others : List backend.Object} (same : objects.Perm others) :
    contextsOf objects = contextsOf others :=
  (same.map contextOf).sum_eq

def dropEvents : backend.Object → List (Event Resource)
  | .key key => [.release (.certificate (Key.cert key))]
  | .cert _ => []
  | .trust _ => []

def dropping (objects : List backend.Object) : Recorded Resource Unit :=
  ⟨objects.flatMap dropEvents, ()⟩

theorem dropping_leaves {before : Multiset Resource} (objects : List backend.Object) :
    Leaves (contextsOf objects + before) (dropping objects) fun _ => before := by
  induction objects with
  | nil => exact Leaves.pure (zero_add before).symm
  | cons object rest ih =>
      rw [contexts_of_cons, add_assoc]
      have dropped (live : Multiset Resource) :
          Disciplined (contextsOf [object] + live) (dropEvents object) live := by
        cases object with
        | key key => exact Disciplined.release (Resource.certificate (Key.cert key))
        | cert cert => exact congrArg some (zero_add live)
        | trust trust => exact congrArg some (zero_add live)
      exact (dropped _).append ih

theorem filter_key_perm {υ : Type} {entries : List (Nat × υ)}
    (distinct : entries.Pairwise fun first second => first.1 ≠ second.1) {key : Nat} {value : υ}
    (member : (key, value) ∈ entries) :
    entries.Perm ((key, value) :: entries.filter fun entry => ¬ (key == entry.1)) := by
  -- With distinct keys, an entry is the only one that goes when its key is filtered out.
  induction entries with
  | nil => cases member
  | cons entry rest ih =>
      obtain ⟨apart, distinct⟩ := List.pairwise_cons.mp distinct
      rcases List.mem_cons.mp member with rfl | later
      · have kept : rest.filter (fun entry => ¬ (key == entry.1)) = rest :=
          List.filter_eq_self.mpr fun other given => by simpa using apart other given
        rw [List.filter_cons_of_neg (by simp), kept]
      · have differs : key ≠ entry.1 := Ne.symm (apart (key, value) later)
        rw [List.filter_cons_of_pos (by simpa using differs)]
        exact ((ih distinct later).cons entry).trans (List.Perm.swap _ _ _)

theorem entries_split {υ : Type} (entries : Std.TreeMap Nat υ) (key : Nat) :
    (entries.toList.map Prod.snd).Perm (entries[key]?.toList ++
      (entries.toList.filter fun entry => ¬ (key == entry.1)).map Prod.snd) := by
  cases found : entries[key]? with
  | none =>
      have kept : entries.toList.filter (fun entry => ¬ (key == entry.1)) = entries.toList := by
        refine List.filter_eq_self.mpr fun entry member => ?_
        have present := Std.TreeMap.mem_toList_iff_getElem?_eq_some.mp member
        have differs : key ≠ entry.1 := by
          rintro rfl
          rw [found] at present
          cases present
        simpa using differs
      rw [kept]
      exact List.Perm.refl _
  | some value =>
      have distinct : entries.toList.Pairwise fun first second => first.1 ≠ second.1 :=
        Std.TreeMap.distinct_keys_toList.imp fun apart same => apart (by simp [same])
      have member := Std.TreeMap.mem_toList_iff_getElem?_eq_some.mpr found
      exact (filter_key_perm distinct member).map Prod.snd

/-- What the manager owns: the contexts of the keys in its map. -/
def held (manager : Manager backend) : Multiset Resource :=
  contextsOf (manager.objects.toList.map Prod.snd)

theorem held_congr {before after : Manager backend} (same : after.objects = before.objects) :
    held after = held before := by
  rw [held, same, held]

/-- The object is dropped if its id is known; else it may push out one with its handle. -/
def displaced (manager : Manager backend) (object : backend.Object) : List backend.Object :=
  if (backend.ident object).2 ∈ manager.ids (backend.ident object).1 then [object]
  else manager.objects[manager.nextHandle]?.toList

def registerRecorded (manager : Manager backend) (object : backend.Object) :
    Recorded Resource (Manager backend) := do
  dropping (displaced manager object)
  pure (manager.registerObject object)

theorem held_split (manager : Manager backend) (handle : CkObjectHandle) :
    held manager = contextsOf manager.objects[handle]?.toList +
      contextsOf ((manager.objects.toList.filter fun entry => ¬ (handle == entry.1)).map Prod.snd) := by
  rw [held, contexts_of_perm (entries_split manager.objects handle), contexts_of_append]

theorem held_register (manager : Manager backend) (object : backend.Object) :
    held manager + contextsOf [object] =
      contextsOf (displaced manager object) + held (manager.registerObject object) := by
  unfold displaced
  rw [Manager.register_by_ident]
  split
  case isTrue known => exact add_comm _ _
  case isFalse unknown =>
      have inserted : held ((manager.withId (backend.ident object).2
          (backend.ident object).1).insertObject object) = contextsOf [object] + contextsOf
            ((manager.objects.toList.filter fun entry =>
              ¬ (manager.nextHandle == entry.1)).map Prod.snd) := by
        rw [held, Manager.inserted_objects, ← contexts_of_cons]
        exact contexts_of_perm (Std.TreeMap.toList_insert_perm.map Prod.snd)
      rw [inserted, held_split manager manager.nextHandle, add_assoc,
        add_comm (contextsOf [object])]

theorem register_leaves (manager : Manager backend) (object : backend.Object) :
    Leaves (held manager + contextsOf [object]) (registerRecorded manager object) held := by
  rw [held_register]
  exact (dropping_leaves _).bind (Leaves.pure rfl)

theorem register_all_leaves (objects : List backend.Object) (manager : Manager backend) :
    Leaves (held manager + contextsOf objects) (objects.foldlM registerRecorded manager) held := by
  induction objects generalizing manager with
  | nil => exact Leaves.pure (add_zero _).symm
  | cons object rest ih =>
      rw [contexts_of_cons, ← add_assoc, List.foldlM_cons]
      exact ((register_leaves manager object).frame (contextsOf rest)).bind (ih _)

theorem register_all_result (objects : List backend.Object) (manager : Manager backend) :
    (objects.foldlM registerRecorded manager).result =
      objects.foldl Manager.registerObject manager := by
  rw [result_fold]
  rfl

section
variable (stores : Cng → Stores) (places : Cng → Addresses)

def ListsStores (os : Cng) : Prop := os.objects = listObjects (stores os)

def scanRecorded (os : Cng) (manager : Manager backend) : Recorded Resource (Manager backend) := do
  let objects ← listRecorded (stores os) (places os)
  objects.foldlM registerRecorded { manager with lastScanTime := some os.now }

variable {stores places}

theorem scan_result {os : Cng} (lists : ListsStores stores os) (manager : Manager backend) :
    (scanRecorded stores places os manager).result = manager.scanned os := by
  refine (register_all_result _ _).trans ?_
  rw [list_result, ← lists]
  rfl

theorem scan_disciplined {os : Cng} (lists : ListsStores stores os) (manager : Manager backend) :
    Disciplined (held manager) (scanRecorded stores places os manager).events
      (held (manager.scanned os)) := by
  -- A scan leaves the contexts of the keys that are registered after it.
  rw [← scan_result lists]
  refine list_leaves.bind ?_
  exact register_all_leaves _ { manager with lastScanTime := some os.now }

end

/-- An operation that reaches Windows has its object from the registry. -/
theorem held_context_le {manager : Manager backend} {kind : Kind} {handle : CkObjectHandle}
    {params : kind.Params} {data : Bytes} {input : BackendInput backend kind}
    (resolved : OperationState.inputFor manager.registry handle params data = .ok input) :
    heldContext input ≤ held manager := by
  have owned {object : backend.Object} (present : manager.registry handle = some object) :
      contextOf object ≤ held manager := by
    have found : manager.objects[handle]? = some object := present
    have alone : contextsOf [object] = contextOf object := add_zero _
    rw [held_split manager handle, found, ← alone]
    exact Multiset.le_add_right _ _
  unfold OperationState.inputFor at resolved
  cases found : manager.registry handle with
  | none =>
      rw [found] at resolved
      cases kind <;> cases resolved
  | some object =>
      rw [found] at resolved
      have present := owned found
      cases kind <;> cases object <;> cases resolved <;> exact present

structure BackendCall where
  kind : Kind
  input : BackendInput backend kind
  performs : Bool

def Reply.backendCall {kind : Kind} : Reply backend kind → Option BackendCall
  | .ok (.measures input) => some ⟨kind, input, false⟩
  | .ok (.performs input) => some ⟨kind, input, true⟩
  | .ok .accepted => none
  | .error _ => none

def backendCallOf (manager : Manager backend) (arguments : ManagerArguments) :
    Option BackendCall :=
  arguments.operationCall.bind fun call =>
    Reply.backendCall (manager.operate call.kind call.session call.request).1

theorem mapped_call {kind : Kind} {answer : Except CryptoError (BackendInput backend kind)}
    {made : BackendInput backend kind → Outcome backend kind} {call : BackendCall}
    (performs : Bool) (wraps : ∀ input, Reply.backendCall (.ok (made input)) =
      some ⟨kind, input, performs⟩)
    (reached : Reply.backendCall (answer.map made) = some call) :
    ∃ input, answer = .ok input ∧ call = ⟨kind, input, performs⟩ := by
  cases answer with
  | error err => cases reached
  | ok input =>
      have same := (wraps input).symm.trans reached
      exact ⟨input, rfl, (Option.some.inj same).symm⟩

theorem accepted_no_call {kind : Kind} (answer : Except CryptoError Unit) :
    Reply.backendCall (answer.map fun _ => (Outcome.accepted : Outcome backend kind)) = none := by
  cases answer <;> rfl

theorem get_length_held {manager : Manager backend} {kind : Kind} {session : CkSessionHandle}
    {data : Bytes} {input : BackendInput backend kind}
    (answered : manager.getLength kind session data = .ok input) :
    heldContext input ≤ held manager := by
  unfold Manager.getLength at answered
  cases active : (manager.operations kind)[session]? with
  | none =>
      rw [active] at answered
      cases answered
  | some operation =>
      rw [active] at answered
      exact held_context_le answered

theorem get_final_length_held {manager : Manager backend} {kind : Kind}
    {session : CkSessionHandle} {input : BackendInput backend kind}
    (answered : manager.getFinalLength kind session = .ok input) :
    heldContext input ≤ held manager := by
  unfold Manager.getFinalLength at answered
  cases active : (manager.operations kind)[session]? with
  | none =>
      rw [active] at answered
      cases answered
  | some operation =>
      rw [active] at answered
      exact held_context_le answered

theorem operate_held (manager : Manager backend) (kind : Kind) (session : CkSessionHandle)
    (request : OperationRequest kind) {call : BackendCall}
    (reached : Reply.backendCall (manager.operate kind session request).1 = some call) :
    heldContext call.input ≤ held manager := by
  cases request with
  | start handle params =>
      have none : Reply.backendCall (manager.operate kind session (.start handle params)).1 = none :=
        accepted_no_call (manager.start kind session handle params).1
      rw [none] at reached
      cases reached
  | update data =>
      have none : Reply.backendCall (manager.operate kind session (.update data)).1 = none :=
        accepted_no_call (manager.update kind session data).1
      rw [none] at reached
      cases reached
  | getLength data =>
      obtain ⟨input, answered, rfl⟩ := mapped_call false (fun _ => rfl) reached
      exact get_length_held answered
  | getFinalLength =>
      obtain ⟨input, answered, rfl⟩ := mapped_call false (fun _ => rfl) reached
      exact get_final_length_held answered
  | finishWith data =>
      obtain ⟨input, answered, rfl⟩ := mapped_call true (fun _ => rfl) reached
      exact get_length_held ((Manager.finish_with_input manager kind session data).symm.trans answered)
  | finish =>
      obtain ⟨input, answered, rfl⟩ := mapped_call true (fun _ => rfl) reached
      exact get_final_length_held ((Manager.finish_input manager kind session).symm.trans answered)

section
variable (stores : Cng → Stores) (places : Cng → Addresses)

def serveRecorded (os : Cng) (arguments : ManagerArguments) (manager : Manager backend) :
    Recorded Resource (ManagerReturnValue × Manager backend) :=
  ⟨(match Manager.scanBy (os, arguments) manager with
      | some os => (scanRecorded stores places os manager).events
      | none => []) ++
    (match backendCallOf manager arguments with
      | some call => (operationRecorded os call.kind call.input call.performs).events
      | none => []),
    manager.dispatch os arguments⟩

def leftByRequest (os : Cng) (arguments : ManagerArguments) (manager : Manager backend) :
    Multiset Resource :=
  match backendCallOf manager arguments with
  | some call => leftByOperation os call.input
  | none => 0

variable {stores places}

theorem quiet_of_operation {os : Cng} {arguments : ManagerArguments} {manager : Manager backend}
    {call : OperationCall} (operation : arguments.operationCall = some call) :
    Manager.scanBy (os, arguments) manager = none := by
  cases arguments <;> cases operation <;> rfl

theorem scan_by_itself {os scan : Cng} {arguments : ManagerArguments} {manager : Manager backend}
    (due : Manager.scanBy (os, arguments) manager = some scan) : scan = os := by
  cases arguments <;> simp only [Manager.scanBy, reduceCtorEq] at due
  case openSession flags =>
    split at due <;> cases due
    rfl
  case startSearch session attrs =>
    repeat' split at due
    all_goals cases due
    rfl

theorem serve_leaves {os : Cng} (lists : ListsStores stores os) (arguments : ManagerArguments)
    (manager : Manager backend) :
    Leaves (held manager) (serveRecorded stores places os arguments manager) fun served =>
      held served.2 + leftByRequest os arguments manager := by
  have scans := (Manager.step_scans (os, arguments) manager).toSameObjects.objects
  change (manager.dispatch os arguments).2.objects = _ at scans
  unfold serveRecorded leftByRequest
  cases made : arguments.operationCall with
  | some call =>
      rw [quiet_of_operation made] at scans ⊢
      change Disciplined (held manager) ([] ++ _) (held (manager.dispatch os arguments).2 + _)
      rw [held_congr scans, List.nil_append]
      cases reached : backendCallOf manager arguments with
      | none => exact (add_zero (held manager)).symm ▸ Disciplined.nil
      | some backendCall =>
          rw [backendCallOf, made] at reached
          exact operation_leaves (operate_held manager _ _ _ reached) _
  | none =>
      have noCall : backendCallOf manager arguments = none := by rw [backendCallOf, made]; rfl
      rw [noCall]
      change Disciplined (held manager) (_ ++ []) (held (manager.dispatch os arguments).2 + 0)
      rw [List.append_nil, add_zero]
      cases due : Manager.scanBy (os, arguments) manager with
      | none =>
          rw [due] at scans
          rw [held_congr scans]
          exact Disciplined.nil
      | some scan =>
          rw [due] at scans
          rw [scan_by_itself due] at scans ⊢
          rw [held_congr scans]
          exact scan_disciplined lists manager

variable (stores places)

def moduleRecorded (os : Cng) (request : ModuleCall) (state : ModuleState backend) :
    Recorded Resource (moduleSignature.Answer request × ModuleState backend) :=
  ⟨match request, state with
    | .startProxy, none => (scanRecorded stores places os {}).events
    | .startProxy, some _ => []
    | .stopProxy, none => []
    | .stopProxy, some manager => (dropping (manager.objects.toList.map Prod.snd)).events
    | .manager _, none => []
    | .manager arguments, some manager => (serveRecorded stores places os arguments manager).events,
    moduleHandler backend os request state⟩

variable {stores places}

def heldBy : ModuleState backend → Multiset Resource
  | none => 0
  | some manager => held manager

def leftByCall (os : Cng) : ModuleCall → ModuleState backend → Multiset Resource
  | .manager arguments, some manager => leftByRequest os arguments manager
  | _, _ => 0

theorem module_leaves {os : Cng} (lists : ListsStores stores os) (request : ModuleCall)
    (state : ModuleState backend) :
    Leaves (heldBy state) (moduleRecorded stores places os request state) fun answered =>
      heldBy answered.2 + leftByCall os request state := by
  cases request with
  | startProxy =>
      cases state with
      | some manager => exact Leaves.pure (add_zero _)
      | none =>
          have empty : held {} = 0 := rfl
          change Disciplined 0 (scanRecorded stores places os {}).events (held (Manager.new os) + 0)
          rw [add_zero, ← empty]
          exact scan_disciplined lists {}
  | stopProxy =>
      cases state with
      | none => exact Leaves.pure (add_zero _)
      | some manager =>
          have dropped : Leaves (held manager + 0)
              (dropping (manager.objects.toList.map Prod.snd)) fun _ => 0 := dropping_leaves _
          rw [add_zero] at dropped
          exact dropped
  | manager arguments =>
      cases state with
      | none => exact Leaves.pure (add_zero _)
      | some manager => exact serve_leaves lists arguments manager

end

section
variable (stores : Cng → Stores) (places : Cng → Addresses)

def eventRecord (event : ModuleEvent backend) : List (OwnedResources.Event Resource) :=
  (moduleRecorded stores places event.oracle event.request event.before).events

def historyRecord (history : List (ModuleEvent backend)) : List (OwnedResources.Event Resource) :=
  history.flatMap (eventRecord stores places)

def leftByHistory (history : List (ModuleEvent backend)) : Multiset Resource :=
  (history.map fun event => leftByCall event.oracle event.request event.before).sum

variable {stores places}

theorem history_disciplined {history : List (ModuleEvent backend)} {state : ModuleState backend}
    (linked : Linked (moduleHandler backend) none history state)
    (lists : ∀ event ∈ history, ListsStores stores event.oracle) :
    Disciplined 0 (historyRecord stores places history) (heldBy state + leftByHistory history) := by
  induction linked with
  | nil => exact Disciplined.nil
  | @snoc history event linked ih =>
      have before := ih fun earlier member => lists earlier (List.mem_append_left _ member)
      have here := lists event (List.mem_append_right _ List.mem_cons_self)
      have call : Disciplined (heldBy event.before) (eventRecord stores places event)
          (heldBy (event.after (moduleHandler backend)) +
            leftByCall event.oracle event.request event.before) :=
        module_leaves here event.request event.before
      have both := before.append (call.frame (leftByHistory history))
      have record : historyRecord stores places (history ++ [event]) =
          historyRecord stores places history ++ eventRecord stores places event := by
        simp [historyRecord]
      have left : leftByHistory (history ++ [event]) =
          leftByHistory history + leftByCall event.oracle event.request event.before := by
        simp [leftByHistory]
      rw [record, left, add_comm (leftByHistory history), ← add_assoc]
      exact both

/-- Windows hands over no key handle of another type to be freed, as it is asked to. -/
def OnlyNcrypt (os : Cng) : Prop :=
  ∀ cert, (os.cryptAcquireCertificatePrivateKey cert).acquired = true →
    (os.cryptAcquireCertificatePrivateKey cert).mustFree = true →
    (os.cryptAcquireCertificatePrivateKey cert).keySpec = certNcryptKeySpec

theorem nothing_unreleased {os : Cng} (only : OnlyNcrypt os) (cert : CertContext) :
    unreleased os cert = 0 := by
  unfold unreleased
  rw [if_neg]
  rintro ⟨acquired, own, other⟩
  exact other (only cert acquired own)

theorem nothing_left_by_call {os : Cng} (only : OnlyNcrypt os) (request : ModuleCall)
    (state : ModuleState backend) : leftByCall os request state = 0 := by
  cases request with
  | startProxy => rfl
  | stopProxy => rfl
  | manager arguments =>
      cases state with
      | none => rfl
      | some manager =>
          change leftByRequest os arguments manager = 0
          unfold leftByRequest
          cases backendCallOf manager arguments with
          | none => rfl
          | some call =>
              obtain ⟨kind, input, performs⟩ := call
              cases kind with
              | sign => exact nothing_unreleased only _
              | decrypt =>
                  change (if _ then unreleased os _ else 0) = 0
                  rw [nothing_unreleased only, ite_self]
              | encrypt => rfl

theorem nothing_left {history : List (ModuleEvent backend)}
    (only : ∀ event ∈ history, OnlyNcrypt event.oracle) : leftByHistory history = 0 := by
  refine List.sum_eq_zero fun left member => ?_
  obtain ⟨event, given, rfl⟩ := List.mem_map.mp member
  exact nothing_left_by_call (only event given) event.request event.before

/-- Over any run by any threads: nothing is used or released that is not live, and what has
not been released are the contexts of the registered keys and the refused key handles, of
which there are none if Windows keeps to the flag it is given. -/
theorem handles_over_runs {ι : Type} [DecidableEq ι] {config : ModuleConfig backend ι}
    {ok : ModuleConfig backend ι → Move ι Invocation Cng → Prop}
    (reached : Reachable (moduleHandler backend) (Invocation.program .windows) ok (initial none)
      config)
    (lists : ∀ event ∈ config.history, ListsStores stores event.oracle) :
    acquired (historyRecord stores places config.history) =
        heldBy config.shared + leftByHistory config.history +
          released (historyRecord stores places config.history) ∧
      (∀ earlier event later resource,
        historyRecord stores places config.history = earlier ++ event :: later →
        event = .use resource ∨ event = .release resource →
        (released earlier).count resource < (acquired earlier).count resource) ∧
      ((∀ event ∈ config.history, OnlyNcrypt event.oracle) →
        leftByHistory config.history = 0) := by
  have disciplined : Disciplined 0 (historyRecord stores places config.history)
      (heldBy config.shared + leftByHistory config.history) :=
    history_disciplined (reachable_linked reached) lists
  refine ⟨?_, ?_, nothing_left⟩
  · have account := disciplined.account
    rwa [zero_add] at account
  · intro earlier event later resource split given
    rw [split] at disciplined
    have first : (0 : Multiset Resource) + acquired earlier = acquired earlier := zero_add _
    exact first ▸ disciplined.live given

def oneKeyStores : Stores := .issuing (fun _ => none) (fun _ => false) []

def oneKey : Cng := .holding 0 (listObjects oneKeyStores)

def somePlaces : Addresses := ⟨1, fun _ => 2, 3, fun _ => 4, fun _ => 5, fun _ => 6⟩

theorem handles_over_initialization :
    ∃ config : ModuleConfig backend Bool, config.history.length = 1 ∧
      acquired (historyRecord (fun _ => oneKeyStores) (fun _ => somePlaces) config.history) =
        heldBy config.shared + leftByHistory config.history +
          released (historyRecord (fun _ => oneKeyStores) (fun _ => somePlaces) config.history) := by
  have account {config : ModuleConfig backend Bool} (reached : Reachable _ _ (fun _ _ => True)
      (initial none) config) (lists : ∀ event ∈ config.history,
        ListsStores (fun _ => oneKeyStores) event.oracle) :
      acquired (historyRecord (fun _ => oneKeyStores) (fun _ => somePlaces) config.history) =
        heldBy config.shared + leftByHistory config.history +
          released (historyRecord (fun _ => oneKeyStores) (fun _ => somePlaces) config.history) :=
    (handles_over_runs reached lists).1
  refine ⟨_, ?_, account (.next (.advance false oneKey) (.next
    (.begin false ⟨.cInitialize, Memory.blank⟩) .start trivial rfl) trivial rfl) ?_⟩
  · rfl
  · intro event member
    cases List.mem_singleton.mp member
    rfl

end

end OsClientCerts.Windows
