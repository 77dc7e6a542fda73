import OsClientCerts.ActiveObjects
import OsClientCerts.InputFunctions
import OsClientCerts.Linearization
import OsClientCerts.ObjectRegistry
import OsClientCerts.Threads

/-!
The exported functions as atomic calls. All but the six with an output buffer use the
proxy slot at most once; those six ask for the length first, which changes nothing. So
calls by several threads have the effects and the answers of the same calls made one
after the other, as long as no operation is touched between its length query and the
call that ends it.
-/

namespace OsClientCerts
open Resumption

def IsQuery (request : ModuleCall) : Prop :=
  ∃ arguments kind session given, request = .manager arguments ∧
    arguments.operationCall = some ⟨kind, session, Kind.query kind given⟩

theorem query_quiet {B : Backend} (os : B.Os) (request : ModuleCall) (state : ModuleState B)
    (query : IsQuery request) : (moduleHandler B os request state).2 = state := by
  obtain ⟨arguments, kind, session, given, rfl, asked⟩ := query
  cases state with
  | none => rfl
  | some manager =>
      have same := (manager.dispatch_operation os asked).2
      rw [handle_manager, same, Manager.operate_query]

def MakesNoCall {α : Type} (program : Call α) : Prop := ∀ caller, (program caller).Silent

def TakesEffectLast {α : Type} (program : Call α) : Prop :=
  ∀ caller, (program caller).LastWrites IsQuery

section
variable {α β ε : Type} [FromUnit ε]

theorem pure_no_call (value : α) : MakesNoCall (pure value) := fun caller => ⟨(value, caller), rfl⟩

theorem bind_no_call {first : Call α} {next : α → Call β} (quiet : MakesNoCall first)
    (goesOn : ∀ value, MakesNoCall (next value)) : MakesNoCall (first >>= next) :=
  fun caller => silent_bind (quiet caller) fun result => goesOn result.1 result.2

theorem ite_no_call {condition : Prop} [Decidable condition] {first second : Call α}
    (yes : MakesNoCall first) (no : MakesNoCall second) :
    MakesNoCall (if condition then first else second) := by
  split
  · exact yes
  · exact no

theorem read_cell_no_call (region : Region) (addr : Addr) : MakesNoCall (readCell region addr) :=
  fun _ => ⟨_, rfl⟩

theorem read_slice_no_call (target : Target) (region : Region) (addr : Addr) (count : Nat) :
    MakesNoCall (readSlice target region addr count) := fun _ => ⟨_, rfl⟩

theorem write_cell_no_call (region : Region) (addr : Addr) (value : region.Value) :
    MakesNoCall (writeCell region addr value) := fun _ => ⟨_, rfl⟩

theorem write_slice_no_call (target : Target) (region : Region) (addr : Addr)
    (values : List region.Value) : MakesNoCall (writeSlice target region addr values) :=
  fun _ => ⟨_, rfl⟩

theorem last_of_no_call {program : Call α} (quiet : MakesNoCall program) :
    TakesEffectLast program := fun caller => last_writes_of_silent (quiet caller)

theorem bind_last {first : Call α} {next : α → Call β} (quiet : MakesNoCall first)
    (goesOn : ∀ value, TakesEffectLast (next value)) : TakesEffectLast (first >>= next) :=
  fun caller => last_writes_after (quiet caller) fun result => goesOn result.1 result.2

theorem ite_last {condition : Prop} [Decidable condition] {first second : Call α}
    (yes : TakesEffectLast first) (no : TakesEffectLast second) :
    TakesEffectLast (if condition then first else second) := by
  split
  · exact yes
  · exact no

theorem reply_last {fn : ProxyFn ε α} {next : Option (Except ε α) → Call β}
    (quiet : ∀ reply, MakesNoCall (next reply)) : TakesEffectLast (fn.run >>= next) :=
  fun caller => Or.inr fun (answer : Option ManagerReturnValue) =>
    quiet (answer.map fn.reply) caller

theorem query_last {fn : ProxyFn ε α} {next : Option (Except ε α) → Call β}
    (query : IsQuery (.manager fn.arguments)) (goesOn : ∀ reply, TakesEffectLast (next reply)) :
    TakesEffectLast (fn.run >>= next) :=
  fun caller => Or.inl ⟨query, fun (answer : Option ManagerReturnValue) =>
    goesOn (answer.map fn.reply) caller⟩

end

section
variable (target : Target)

theorem report_done_last (fn : ProxyFn CryptoError Unit) {onOk : Call Unit}
    (quiet : MakesNoCall onOk) : TakesEffectLast (reportDone target fn onOk) := by
  refine reply_last fun reply => ?_
  match reply with
  | none => exact pure_no_call _
  | some (.error err) => exact pure_no_call _
  | some (.ok ()) => exact bind_no_call quiet fun _ => pure_no_call _

theorem deliver_output_last {query : ProxyFn CryptoError Nat} (consume : ProxyFn CryptoError Bytes)
    (asked : IsQuery (.manager query.arguments)) (pOutput pulOutputLen : Addr) :
    TakesEffectLast (deliverOutput target query consume pOutput pulOutputLen) := by
  refine query_last asked fun reply => ?_
  match reply with
  | none => exact last_of_no_call (pure_no_call _)
  | some (.error err) => exact last_of_no_call (pure_no_call _)
  | some (.ok length) =>
      apply ite_last
      · exact last_of_no_call (bind_no_call (write_cell_no_call _ _ _) fun _ => pure_no_call _)
      refine bind_last (read_cell_no_call .ulong pulOutputLen) fun capacity => ?_
      apply ite_last
      · exact last_of_no_call (bind_no_call (write_cell_no_call _ _ _) fun _ => pure_no_call _)
      refine reply_last fun reply => ?_
      match reply with
      | none => exact pure_no_call _
      | some (.error err) => exact pure_no_call _
      | some (.ok output) =>
          exact bind_no_call (write_slice_no_call _ _ _ _) fun _ =>
            bind_no_call (write_cell_no_call _ _ _) fun _ => pure_no_call _

theorem query_is_query (kind : Kind) (session : CkSessionHandle) (given : Option Bytes) :
    IsQuery (.manager (ManagerProxy.query kind session given).arguments) :=
  ⟨_, kind, session, given, rfl, (ManagerProxy.query_requests kind session given).call⟩

theorem input_slice_no_call (ptr : Addr) (len : CkUlong) :
    MakesNoCall (inputSlice target ptr len) := by
  unfold inputSlice
  apply ite_no_call
  · exact ite_no_call (pure_no_call _) (pure_no_call _)
  · exact bind_no_call (read_slice_no_call _ _ _ _) fun _ => pure_no_call _

theorem read_template_no_call (count : Nat) (addr : Addr) :
    MakesNoCall (readTemplate target count addr) := by
  induction count generalizing addr with
  | zero => exact pure_no_call _
  | succ count ih =>
      refine bind_no_call (read_cell_no_call .attribute addr) fun attr => ?_
      apply ite_no_call
      · exact pure_no_call _
      refine bind_no_call (input_slice_no_call target _ _) fun value => ?_
      match value with
      | .error rv => exact pure_no_call _
      | .ok value =>
          refine bind_no_call (ih _) fun rest => ?_
          match rest with
          | .error rv => exact pure_no_call _
          | .ok rest => exact pure_no_call _

theorem store_attribute_no_call (addr : Addr) (attr : CkAttribute) (value : Option Bytes) :
    MakesNoCall (storeAttribute target addr attr value) := by
  cases value with
  | none => exact bind_no_call (write_cell_no_call _ _ _) fun _ => pure_no_call _
  | some attrValue =>
      unfold storeAttribute
      apply ite_no_call
      · exact bind_no_call (write_cell_no_call _ _ _) fun _ => pure_no_call _
      apply ite_no_call
      · exact bind_no_call (write_cell_no_call _ _ _) fun _ => pure_no_call _
      · exact bind_no_call (write_slice_no_call _ _ _ _) fun _ =>
          bind_no_call (write_cell_no_call _ _ _) fun _ => pure_no_call _

theorem store_attributes_no_call (addr : Addr) (entries : List (CkAttribute × Option Bytes))
    (rv : CkRv) : MakesNoCall (storeAttributes target addr entries rv) := by
  induction entries generalizing addr rv with
  | nil => exact pure_no_call rv
  | cons entry rest ih =>
      obtain ⟨attr, value⟩ := entry
      exact bind_no_call (store_attribute_no_call target addr attr value) fun _ => ih _ _

theorem read_params_no_call (kind : Kind) (mechanism : CkMechanism) :
    MakesNoCall (kind.readParams target mechanism) := by
  intro caller
  obtain ⟨outcome, after, ended, _⟩ := read_params_ends target kind mechanism caller
  exact ⟨(outcome, after), ended⟩

theorem output_last {exported : ExportedCall} {call : OutputCall}
    (outputs : exported.outputCall = some call) : TakesEffectLast (exported.run target) := by
  intro caller
  rcases output_run target outputs caller with ⟨_, run⟩ | ⟨_, run⟩
  · rw [run]
    trivial
  · rw [run]
    exact deliver_output_last target _ (query_is_query _ _ _) _ _ _

theorem update_last {exported : ExportedCall} {call : UpdateCall}
    (updates : exported.updateCall = some call) : TakesEffectLast (exported.run target) := by
  intro caller
  have quiet : MakesNoCall call.noOutput := by
    intro after
    rw [no_output_run]
    exact ⟨_, rfl⟩
  rcases update_run target updates caller with ⟨_, run⟩ | ⟨_, run⟩
  · rw [run]
    trivial
  · rw [run]
    exact report_done_last target _ quiet _

theorem init_last {exported : ExportedCall} {call : InitCall}
    (inits : exported.initCall = some call) : TakesEffectLast (exported.run target) := by
  rw [init_program target inits, InitCall.program]
  apply ite_last
  · exact last_of_no_call (pure_no_call _)
  refine bind_last (read_cell_no_call .mechanism call.pMechanism) fun mechanism => ?_
  refine bind_last (read_params_no_call target call.kind mechanism) fun outcome => ?_
  cases outcome with
  | error rv => exact last_of_no_call (pure_no_call _)
  | ok params => exact report_done_last target _ (pure_no_call _)

theorem reply_unit_last {α : Type} {fn : ProxyFn Unit α} {next : Option (Except Unit α) → Call CkRv}
    (absent : MakesNoCall (next none)) (failed : MakesNoCall (next (some (.error ()))))
    (done : ∀ value, MakesNoCall (next (some (.ok value)))) : TakesEffectLast (fn.run >>= next) := by
  refine reply_last fun reply => ?_
  match reply with
  | none => exact absent
  | some (.error ()) => exact failed
  | some (.ok value) => exact done value

/-- Every exported function takes effect at its last use of the slot. -/
theorem exported_last (exported : ExportedCall) : TakesEffectLast (exported.run target) := by
  have bad : TakesEffectLast (pure CkRv.argumentsBad) := last_of_no_call (pure_no_call _)
  have wrote (region : Region) (addr : Addr) (value : region.Value) : MakesNoCall (do
      writeCell region addr value
      pure CkRv.ok) := bind_no_call (write_cell_no_call _ _ _) fun _ => pure_no_call _
  cases exported with
  | cInitialize | cFinalize => exact fun _ => Or.inr fun _ => ⟨_, rfl⟩
  | cGetInfo | cGetFunctionList | cGetSlotInfo | cGetTokenInfo =>
      exact ite_last bad (last_of_no_call (wrote _ _ _))
  | cGetSlotList pSlotList pulCount =>
      apply ite_last bad
      refine last_of_no_call (bind_no_call (write_cell_no_call _ _ _) fun _ => ?_)
      apply ite_no_call
      · refine bind_no_call (read_cell_no_call .ulong pulCount) fun slotCount => ?_
        exact ite_no_call (pure_no_call _) (wrote _ _ _)
      · exact pure_no_call _
  | cGetMechanismList slotID pMechanismList pulCount =>
      apply ite_last bad
      apply last_of_no_call
      apply ite_no_call
      · refine bind_no_call (read_cell_no_call .ulong pulCount) fun count => ?_
        apply ite_no_call
        · exact pure_no_call _
        · exact bind_no_call (write_slice_no_call _ _ _ _) fun _ => wrote _ _ _
      · exact wrote _ _ _
  | cGetMechanismInfo slotID mechanismType pInfo =>
      refine last_of_no_call (ite_no_call (pure_no_call _) (ite_no_call (pure_no_call _) ?_))
      cases mechanismInfo mechanismType with
      | none => exact pure_no_call _
      | some info => exact wrote _ _ _
  | cOpenSession =>
      exact ite_last bad
        (reply_unit_last (pure_no_call _) (pure_no_call _) fun _ => wrote _ _ _)
  | cCloseSession => exact reply_unit_last (pure_no_call _) (pure_no_call _) fun _ => pure_no_call _
  | cCloseAllSessions =>
      exact ite_last bad
        (reply_unit_last (pure_no_call _) (pure_no_call _) fun _ => pure_no_call _)
  | cGetSessionInfo =>
      exact ite_last bad
        (reply_unit_last (pure_no_call _) (pure_no_call _) fun _ => wrote _ _ _)
  | cLogout => exact last_of_no_call (pure_no_call _)
  | cGetAttributeValue object pTemplate count =>
      apply ite_last bad
      apply ite_last bad
      refine bind_last (read_slice_no_call target .attribute pTemplate count) fun template => ?_
      refine reply_unit_last (pure_no_call _) (pure_no_call _) fun values => ?_
      apply ite_no_call
      · exact pure_no_call _
      · exact bind_no_call (read_slice_no_call target _ _ _) fun _ =>
          store_attributes_no_call target _ _ _
  | cFindObjectsInit session pTemplate count =>
      apply ite_last bad
      apply ite_last bad
      refine bind_last (read_template_no_call target count pTemplate) fun attrs => ?_
      match attrs with
      | .error rv => exact last_of_no_call (pure_no_call _)
      | .ok attrs => exact reply_unit_last (pure_no_call _) (pure_no_call _) fun _ => pure_no_call _
  | cFindObjects =>
      apply ite_last bad
      refine reply_unit_last (pure_no_call _) (pure_no_call _) fun handles => ?_
      apply ite_no_call
      · exact pure_no_call _
      · exact bind_no_call (write_cell_no_call _ _ _) fun _ =>
          bind_no_call (write_slice_no_call _ _ _ _) fun _ => pure_no_call _
  | cFindObjectsFinal => exact reply_unit_last (pure_no_call _) (pure_no_call _) fun _ => pure_no_call _
  | cSignInit | cEncryptInit | cDecryptInit => exact init_last target rfl
  | cSignUpdate | cEncryptUpdate | cDecryptUpdate => exact update_last target rfl
  | cSign | cSignFinal | cEncrypt | cEncryptFinal | cDecrypt | cDecryptFinal =>
      exact output_last target rfl
  | notSupported => exact last_of_no_call (pure_no_call _)

end

/-- What may end, restart or add to the operation of this kind on this session. -/
def Disturbs (kind : Kind) (session : CkSessionHandle) : ModuleCall → Prop
  | .startProxy => True
  | .stopProxy => True
  | .manager arguments => arguments.requestOf kind session ≠ none ∨
      arguments = .closeSession session ∨ arguments = .closeAllSessions

section
variable {B : Backend} {kind : Kind} {session : CkSessionHandle}

def stepsOf (events : List (ModuleEvent B)) : List (ManagerStep B) :=
  events.filterMap fun event => match event.request with
    | .manager arguments => some (event.oracle, arguments)
    | _ => none

/-- Without `C_Finalize` it is the same manager that serves every request. -/
theorem replay_steps {events : List (ModuleEvent B)} (manager : Manager B)
    (running : ∀ event ∈ events, event.request ≠ .stopProxy) :
    events.foldl (fun current event => replay (moduleHandler B) event current) (some manager) =
      some (LocalAutomata.after Manager.step (stepsOf events) manager) := by
  induction events generalizing manager with
  | nil => rfl
  | cons event rest ih =>
      have onward := fun manager =>
        ih manager fun other member => running other (List.mem_cons_of_mem event member)
      have here := running event List.mem_cons_self
      rcases event with ⟨oracle, request, before⟩
      cases request with
      | startProxy => exact onward manager
      | stopProxy => exact absurd rfl here
      | manager arguments => exact onward (manager.step (oracle, arguments))

theorem replay_absent {events : List (ModuleEvent B)}
    (running : ∀ event ∈ events, event.request ≠ .startProxy) :
    events.foldl (fun current event => replay (moduleHandler B) event current) none = none := by
  -- Without `C_Initialize` no manager comes.
  induction events with
  | nil => rfl
  | cons event rest ih =>
      have onward := ih fun other member => running other (List.mem_cons_of_mem event member)
      have here := running event List.mem_cons_self
      rcases event with ⟨oracle, request, before⟩
      cases request with
      | startProxy => exact absurd rfl here
      | stopProxy | manager arguments => exact onward

theorem linked_manager {history : List (ModuleEvent B)} {state : ModuleState B}
    (linked : Linked (moduleHandler B) none history state) {manager : Manager B}
    (present : state = some manager) :
    ∃ os run, manager = LocalAutomata.after Manager.step run (Manager.new os) := by
  induction linked generalizing manager with
  | nil => cases present
  | snoc event linked ih =>
      rcases event with ⟨oracle, request, before⟩
      cases before with
      | none =>
          cases request with
          | startProxy =>
              cases present
              exact ⟨oracle, [], rfl⟩
          | stopProxy | manager arguments => cases present
      | some earlier =>
          obtain ⟨os, run, rfl⟩ := ih rfl
          cases request with
          | startProxy =>
              cases present
              exact ⟨os, run, rfl⟩
          | stopProxy => cases present
          | manager arguments =>
              cases present
              refine ⟨os, run ++ [(oracle, arguments)], ?_⟩
              rw [LocalAutomata.after_concat]
              rfl

theorem undisturbed_step {os : B.Os} {arguments : ManagerArguments}
    (undisturbed : ¬ Disturbs kind session (.manager arguments)) (manager : Manager B) :
    (manager.step (os, arguments)).operationState kind session =
      manager.operationState kind session := by
  have quiet : arguments.requestOf kind session = none := by
    by_contra asked
    exact undisturbed (Or.inl asked)
  rcases @quiet_step B kind session (os, arguments) quiet manager with ⟨_, kept⟩ | ⟨closed, _⟩
  · exact kept
  · have closes : arguments = .closeSession session ∨ arguments = .closeAllSessions := by
      cases arguments with
      | closeSession closing =>
          simp only [operationInput] at closed
          split at closed
          case isTrue same => exact Or.inl (by rw [same.1])
          case isFalse => cases closed
      | closeAllSessions => exact Or.inr rfl
      | _ => simp_all [operationInput]
    exact absurd (Or.inr closes) undisturbed

theorem undisturbed_run {events : List (ModuleEvent B)}
    (undisturbed : ∀ event ∈ events, ¬ Disturbs kind session event.request)
    (manager : Manager B) :
    (LocalAutomata.after Manager.step (stepsOf events) manager).operationState kind session =
      manager.operationState kind session := by
  induction events generalizing manager with
  | nil => rfl
  | cons event rest ih =>
      have onward := fun manager =>
        ih (fun other member => undisturbed other (List.mem_cons_of_mem event member)) manager
      have here := undisturbed event List.mem_cons_self
      rcases event with ⟨oracle, request, before⟩
      cases request with
      | startProxy | stopProxy => exact absurd trivial here
      | manager arguments =>
          exact (onward (manager.step (oracle, arguments))).trans (undisturbed_step here manager)

theorem same_input {os : B.Os} {run later : List (ManagerStep B)}
    (few : (LocalAutomata.after Manager.step (run ++ later) (Manager.new os)).registered ≤
      B.target.ulongModulus)
    (same : (LocalAutomata.after Manager.step (run ++ later) (Manager.new os)).operationState kind
      session = (LocalAutomata.after Manager.step run (Manager.new os)).operationState kind session)
    (given : Option Bytes) :
    (LocalAutomata.after Manager.step (run ++ later) (Manager.new os)).inputFor kind session given =
      (LocalAutomata.after Manager.step run (Manager.new os)).inputFor kind session given := by
  -- An undisturbed operation is measured as before: its object is still there.
  have earlierFew := few
  rw [LocalAutomata.after_append] at earlierFew
  have suitable := Manager.reached_suitable os run
    (Nat.le_trans (Manager.run_grows later _).registered earlierFew)
  have retained {handle : CkObjectHandle} {object : B.Object} :=
    @Manager.handle_kept B os run later few handle object
  revert suitable retained same
  generalize LocalAutomata.after Manager.step (run ++ later) (Manager.new os) = now
  generalize LocalAutomata.after Manager.step run (Manager.new os) = before
  intro same suitable retained
  cases active : (before.operations kind)[session]? with
  | none =>
      have idle := Manager.operation_state_idle.mp
        (same.trans (Manager.operation_state_idle.mpr active))
      cases given <;> simp only [Manager.inputFor, Manager.getLength, Manager.getFinalLength,
        active, idle]
  | some operation =>
      obtain ⟨handle, params, data⟩ := operation
      have still := Manager.operation_state_active.mp
        (same.trans (Manager.operation_state_active.mpr active))
      obtain ⟨object, usable⟩ := suitable kind session _ active
      have denotes : now.objects[handle]? = before.objects[handle]? := by
        cases found : before.objects[handle]? with
        | none =>
            rw [found] at usable
            cases kind <;> cases usable
        | some object => exact retained found
      cases given <;> simp only [Manager.inputFor, Manager.getLength, Manager.getFinalLength,
        Manager.resolve, active, still, denotes]

theorem query_answered_alike {now before : Manager B} {os : B.Os} {arguments : ManagerArguments}
    {given : Option Bytes}
    (query : arguments.operationCall = some ⟨kind, session, kind.query given⟩)
    (same : ∀ given, now.inputFor kind session given = before.inputFor kind session given) :
    (now.dispatch os arguments).1 = (before.dispatch os arguments).1 := by
  -- Two managers that measure an operation alike answer its length query alike.
  have oneShot (data : Bytes) : now.getLength kind session data =
      before.getLength kind session data := same (some data)
  have final : now.getFinalLength kind session = before.getFinalLength kind session := same none
  have call := query
  cases given with
  | none =>
      cases arguments <;> simp only [ManagerArguments.operationCall, Kind.query, Option.some.injEq,
        OperationCall.mk.injEq, reduceCtorEq] at call
      case getFinalSignatureLength there =>
        obtain ⟨rfl, rfl, _⟩ := call
        exact congrArg (fun input => ManagerReturnValue.getFinalSignatureLength
          (input >>= B.measure os .sign)) final
      case getFinalDecryptedLength there =>
        obtain ⟨rfl, rfl, _⟩ := call
        exact congrArg (fun input => ManagerReturnValue.getFinalDecryptedLength
          (input >>= B.measure os .decrypt)) final
      case getFinalEncryptedLength there =>
        obtain ⟨rfl, rfl, _⟩ := call
        exact congrArg (fun input => ManagerReturnValue.getFinalEncryptedLength
          (input >>= B.measure os .encrypt)) final
      all_goals
        obtain ⟨rfl, rfl, asked⟩ := call
        cases asked
  | some given =>
      cases arguments <;> simp only [ManagerArguments.operationCall, Kind.query, Option.some.injEq,
        OperationCall.mk.injEq, reduceCtorEq] at call
      case getSignatureLength there data =>
        obtain ⟨rfl, rfl, _⟩ := call
        exact congrArg (fun input => ManagerReturnValue.getSignatureLength
          (input >>= B.measure os .sign)) (oneShot data)
      case getDecryptedLength there data =>
        obtain ⟨rfl, rfl, _⟩ := call
        exact congrArg (fun input => ManagerReturnValue.getDecryptedLength
          (input >>= B.measure os .decrypt)) (oneShot data)
      case getEncryptedLength there data =>
        obtain ⟨rfl, rfl, _⟩ := call
        exact congrArg (fun input => ManagerReturnValue.getEncryptedLength
          (input >>= B.measure os .encrypt)) (oneShot data)
      all_goals
        obtain ⟨rfl, rfl, asked⟩ := call
        cases asked

end

section
variable {B : Backend} {ι : Type} [DecidableEq ι]

/-- Between a call's length query and its next use of the slot, nothing has touched the
operation that it measured, and there have not been more objects than handles. -/
def Undisturbed (config : ModuleConfig B ι) : Move ι Invocation B.Os → Prop
  | .advance thread _ => ∀ task rest events, config.running thread = some ⟨task, rest, events⟩ →
      ∀ read ∈ events, (∃ earlier later, config.history = earlier ++ read :: later ∧
        ∀ arguments kind session given, read.request = .manager arguments →
          arguments.operationCall = some ⟨kind, session, Kind.query kind given⟩ →
          ∀ event ∈ later, ¬ Disturbs kind session event.request) ∧
        ∀ manager, config.shared = some manager → manager.registered ≤ B.target.ulongModulus
  | _ => True

omit [DecidableEq ι] in
theorem undisturbed_unmoved {config : ModuleConfig B ι} {step : Move ι Invocation B.Os}
    {order : List (FinishedCall B)}
    (linear : Linear (moduleHandler B) (Invocation.program B.target) IsQuery none config order)
    (linked : Linked (moduleHandler B) none config.history config.shared)
    (undisturbed : Undisturbed config step) : Admits (Unmoved (moduleHandler B)) config step := by
  cases step with
  | begin | finish => trivial
  | advance thread oracle =>
      intro task request next events busy read member
      obtain ⟨arguments, kind, session, given, asked, query⟩ :=
        (linear.reading thread task request next events busy).2.2 read member
      obtain ⟨⟨earlier, later, split, quiet⟩, few⟩ := undisturbed task _ events busy read member
      have apart := quiet arguments kind session given asked query
      -- The state now is the state then, and what came after it.
      have since : config.shared = later.foldl (fun current event =>
          replay (moduleHandler B) event current) read.before := by
        have replayed := linked_replays linked
        rw [split, List.foldl_append, ← linked_before linked split, List.foldl_cons] at replayed
        have still : replay (moduleHandler B) read read.before = read.before :=
          query_quiet read.oracle read.request read.before ⟨_, _, _, _, asked, query⟩
        rw [still] at replayed
        exact replayed.symm
      change (moduleHandler B read.oracle read.request config.shared).1 =
        (moduleHandler B read.oracle read.request read.before).1
      have lasting (event : ModuleEvent B) (given : event ∈ later) :
          event.request ≠ .startProxy ∧ event.request ≠ .stopProxy := by
        constructor <;>
          · intro same
            refine apart event given ?_
            rw [same]
            trivial
      cases was : read.before with
      | none =>
          rw [was, replay_absent fun event given => (lasting event given).1] at since
          rw [since]
      | some manager =>
          obtain ⟨os, run, made⟩ := linked_manager (linked_split linked split) was
          rw [was, replay_steps manager fun event given => (lasting event given).2] at since
          have state := undisturbed_run apart manager
          subst made
          rw [← LocalAutomata.after_append] at since state
          have same := same_input (few _ since) state
          rw [since, asked, handle_manager, handle_manager]
          exact congrArg some (query_answered_alike query same)

/-- Threads that leave each other's operations alone while they are measured: at any moment
the calls that have taken effect did so one after the other, with the same answers and the
same surroundings. Calls that have returned come before calls that begin later. -/
theorem calls_linearize {mid config : ModuleConfig B ι}
    (first : Reachable (moduleHandler B) (Invocation.program B.target) Undisturbed (initial none)
      mid)
    (onward : Reachable (moduleHandler B) (Invocation.program B.target) Undisturbed mid config) :
    ∃ early late answered waiting,
      Sequential (moduleHandler B) (Invocation.program B.target) none early mid.shared ∧
      Sequential (moduleHandler B) (Invocation.program B.target) none (early ++ late)
        config.shared ∧
      Returning mid answered ∧ early.Perm (answered.map Prod.snd ++ mid.finished) ∧
      Returning config waiting ∧
        (early ++ late).Perm (waiting.map Prod.snd ++ config.finished) := by
  have shape (invocation : Invocation) : (invocation.program B.target).LastWrites IsQuery :=
    exported_last B.target invocation.call _
  have unmoved {from_ : ModuleConfig B ι} (reached : Reachable (moduleHandler B)
      (Invocation.program B.target) Undisturbed (initial none) from_) (now : ModuleConfig B ι)
      (order : List (FinishedCall B)) (step : Move ι Invocation B.Os)
      (linear : Linear (moduleHandler B) (Invocation.program B.target) IsQuery none now order)
      (since : Reachable (moduleHandler B) (Invocation.program B.target) Undisturbed from_ now)
      (undisturbed : Undisturbed now step) : Admits (Unmoved (moduleHandler B)) now step :=
    undisturbed_unmoved linear (reachable_linked (reached.trans since)) undisturbed
  obtain ⟨early, linearMid⟩ := run_linear shape query_quiet (unmoved .start) first initial_linear
  obtain ⟨late, linear⟩ := run_linear shape query_quiet (unmoved first) onward linearMid
  obtain ⟨answered, returning, perm⟩ := linearMid.waiting
  obtain ⟨waiting, returningNow, permNow⟩ := linear.waiting
  exact ⟨early, late, answered, waiting, linearMid.sequential, linear.sequential, returning, perm,
    returningNow, permNow⟩

theorem measured_call_linearizes :
    ∃ config : ModuleConfig Windows.backend Bool, config.history.length = 5 ∧
      (config.finished.map fun done => done.task.call) =
        [.cSign 1 16 1 128 64, .cOpenSession 1 4 96, .cSignInit 1 32 1, .cInitialize] ∧
      ∃ order, Sequential (moduleHandler Windows.backend) (Invocation.program .windows) none order
        config.shared := by
  have fresh {mid : ModuleConfig Windows.backend Bool} {thread : Bool} {task : Invocation}
      {request : ModuleCall} {next : moduleSignature.Answer request → Prog moduleSignature _}
      (busy : mid.running thread = some ⟨task, .call request next, []⟩) :
      Undisturbed mid (.advance thread smallAndLargeKey) := by
    intro given rest events held read member
    rw [busy] at held
    cases held
    cases member
  -- Between the two uses of the slot there is only the new session.
  have measured {mid : ModuleConfig Windows.backend Bool} {task : Invocation}
      {request : ModuleCall} {next : moduleSignature.Answer request → Prog moduleSignature _}
      {read : ModuleEvent Windows.backend} {earlier later : List (ModuleEvent Windows.backend)}
      {manager : Manager Windows.backend}
      (busy : mid.running false = some ⟨task, .call request next, [read]⟩)
      (split : mid.history = earlier ++ read :: later)
      (query : read.request = .manager (.getSignatureLength 1 [0]))
      (between : ∀ event ∈ later, event.request = .manager (.openSession 4))
      (present : mid.shared = some manager)
      (few : manager.registered ≤ Windows.backend.target.ulongModulus) :
      Undisturbed mid (.advance false smallAndLargeKey) := by
    intro given rest events held other member
    rw [busy] at held
    cases held
    rw [List.mem_singleton.mp member]
    refine ⟨⟨earlier, later, split, ?_⟩, ?_⟩
    · intro arguments kind session asks asked call event after
      rw [query] at asked
      cases asked
      simp only [ManagerArguments.operationCall, Option.some.injEq, OperationCall.mk.injEq] at call
      obtain ⟨rfl, rfl, _⟩ := call
      rw [between event after]
      rintro (own | closes | closes)
      · exact own rfl
      · cases closes
      · cases closes
    · intro now here
      rw [present] at here
      cases here
      exact few
  have linearized {config : ModuleConfig Windows.backend Bool}
      (reached : Reachable (moduleHandler Windows.backend) (Invocation.program .windows)
        Undisturbed (initial none) config) :
      ∃ order, Sequential (moduleHandler Windows.backend) (Invocation.program .windows) none order
        config.shared := by
    obtain ⟨early, late, _, _, _, sequential, _⟩ := calls_linearize .start reached
    exact ⟨early ++ late, sequential⟩
  refine ⟨_, ?_, ?_, linearized (.next (.finish false) (.next (.advance false smallAndLargeKey)
    (.next (.finish true) (.next (.advance true smallAndLargeKey) (.next
      (.begin true ⟨.cOpenSession 1 4 96, roomFor64⟩) (.next (.advance false smallAndLargeKey)
        (.next (.begin false ⟨.cSign 1 16 1 128 64, roomFor64⟩) (.next (.finish false)
          (.next (.advance false smallAndLargeKey) (.next
            (.begin false ⟨.cSignInit 1 32 1, roomFor64⟩) (.next (.finish true)
              (.next (.advance true smallAndLargeKey) (.next
                (.begin true ⟨.cInitialize, roomFor64⟩) .start trivial rfl) (fresh rfl) rfl)
              trivial rfl) trivial rfl) (fresh rfl) rfl) trivial rfl) trivial rfl) (fresh rfl)
        rfl) trivial rfl) (fresh rfl) rfl) trivial rfl)
      (@measured _ _ _ _ _ [_, _] [_] _ rfl rfl rfl (by simp; rfl) rfl (by decide)) rfl) trivial rfl)⟩
  · rfl
  · rfl

end
end OsClientCerts
