import OsClientCerts.SequentialCalls
import OsClientCerts.Threads

/-!
What becomes of the data that updates accepted. The history of the module is
followed back from the step that consumes an operation to the start that opened
it; everything accepted in between has to be in what the backend is given.
-/

namespace OsClientCerts
open Resumption LocalAutomata

section History
variable {B : Backend} (kind : Kind) (session : CkSessionHandle)

def moduleEffect (event : ModuleEvent B) (state : ModuleState B) :
    Effect (CkObjectHandle × kind.Params) UInt8 :=
  match event.request, state with
  | .manager arguments, some manager =>
      operationEffect kind session (event.oracle, arguments) manager
  | .stopProxy, _ => .stop
  | _, _ => .keep

def moduleBuffer (state : ModuleState B) : Option ((CkObjectHandle × kind.Params) × Bytes) :=
  state.bind fun manager => (manager.operationState kind session).buffer

variable {kind session}

theorem module_effect_faithful (event : ModuleEvent B) (state : ModuleState B) :
    moduleBuffer kind session (replay (moduleHandler B) event state) =
      (moduleEffect kind session event state).apply (moduleBuffer kind session state) := by
  rcases event with ⟨os, request, before⟩
  cases request with
  | startProxy =>
      cases state with
      | some manager => rfl
      | none =>
          show ((Manager.new os : Manager B).operationState kind session).buffer = none
          rw [Manager.new_operation_idle]
          rfl
  | stopProxy =>
      cases state with
      | none => rfl
      | some manager => rfl
  | manager arguments =>
      cases state with
      | none => rfl
      | some manager => exact operation_effect_faithful (os, arguments) manager

end History

/-- No one-shot call consumes an operation that has accepted data through updates. -/
def NotMixed {B : Backend} (_ : Invocation) (_ : List (ModuleEvent B)) (event : ModuleEvent B) :
    Prop :=
  ∀ kind session data opened buffer, Consumes event.request kind session (some data) →
    moduleBuffer kind session event.before = some (opened, buffer) → buffer = []

/-- The backend was given all the data accepted since the operation was started, in
order and followed by the data of a one-shot call, and its output is what the caller has. -/
def CoversAccepted {B : Backend} (history : List (ModuleEvent B)) (done : FinishedCall B)
    (call : OutputCall) : Prop :=
  ∃ earlier event later manager input output handle params buffer,
    history = earlier ++ event :: later ∧ event ∈ done.events ∧
    Consumes event.request call.kind call.session (call.given B.target done.task.memory) ∧
    event.before = some manager ∧
    manager.inputFor call.kind call.session (call.given B.target done.task.memory) = .ok input ∧
    B.perform event.oracle call.kind input = .ok output ∧
    done.value.2.memory.slice B.target .bytes call.output output.length = output ∧
    Accumulated (replay (moduleHandler B)) (moduleEffect call.kind call.session) earlier none
      (handle, params) buffer ∧
    input.params = params ∧
    input.data = buffer ++ (call.given B.target done.task.memory).getD []

def DropsNothing {B : Backend} {ι : Type} (config : ModuleConfig B ι) : Prop :=
  ∀ done ∈ config.finished, ∀ call, done.task.call.outputCall = some call → call.output ≠ null →
    done.value.1 = .ok → CoversAccepted config.history done call

section Covering
variable {B : Backend}

/-- One call, from its own events and the history behind them: the consuming step
finds the buffer that the history accumulated, and a one-shot call finds it empty. -/
theorem call_covers_accepted {history : List (ModuleEvent B)} {state : ModuleState B}
    (linked : Linked (moduleHandler B) none history state) {exported : ExportedCall}
    {call : OutputCall} (outputs : exported.outputCall = some call) (present : call.output ≠ null)
    {memory : Memory} {events : List (ModuleEvent B)} {rv : CkRv} {after : Caller}
    (follows : Follows (moduleHandler B) (exported.run B.target ⟨memory, []⟩) events (rv, after))
    (admitted : Admitted (NotMixed ⟨exported, memory⟩) events)
    (recorded : ∀ event ∈ events, event ∈ history) (succeeded : rv = .ok) :
    CoversAccepted history ⟨⟨exported, memory⟩, (rv, after), events⟩ call := by
  rcases output_cases outputs follows with ⟨_, _, refused, _⟩ | ⟨_, ended⟩
  · rw [refused] at succeeded
    cases succeeded
  · cases ended with
    | unavailable | tooSmall | gone => cases succeeded
    | queryFailed _ _ err | failed _ _ _ _ _ err =>
        exact absurd succeeded (error_rv_not_ok B.target err).1
    | measured _ _ _ _ nothing => exact absurd nothing present
    | delivered os os' state state' length output measured here room performed =>
        obtain ⟨manager, input, rfl, known, made⟩ := consume_ok performed
        obtain ⟨handle, buffer, active, data⟩ := input_for_active known
        have consumes := consume_event_consumes call.kind call.session
          (call.given B.target memory) os' (some manager)
        obtain ⟨earlier, later, split⟩ := List.append_of_mem (recorded _
          (List.mem_cons_of_mem _ (List.mem_singleton.mpr rfl)))
        have met := linked_before linked split
        have open_ : moduleBuffer call.kind call.session (some manager) =
            some ((handle, input.params), buffer) := by
          simp [moduleBuffer, active, OperationState.buffer]
        have held : Accumulated (replay (moduleHandler B)) (moduleEffect call.kind call.session)
            earlier none (handle, input.params) buffer := by
          -- Before the first event of all the slot is empty, so the buffer was opened since.
          apply accumulated module_effect_faithful earlier none rfl
          rw [← open_]
          exact congrArg (moduleBuffer call.kind call.session) met.symm
        refine ⟨earlier, _, later, manager, input, output, handle, input.params, buffer, split,
          List.mem_cons_of_mem _ (List.mem_singleton.mpr rfl), consumes, rfl, known, made, ?_, held,
          rfl, ?_⟩
        · simp only [Caller.stored_memory, Caller.copied_memory]
          rw [Memory.slice_set_other _ _ _ _ _ _ (by decide)]
          exact Memory.slice_set_slice _ _ _ _
        · obtain ⟨_, notMixed⟩ := admitted_pair admitted
          cases given : call.given B.target memory with
          | none => simpa [given] using data
          | some passed =>
              -- Data passed along stands in for the buffer, which was empty.
              rw [given] at data
              have empty : buffer = [] :=
                notMixed call.kind call.session passed _ buffer (given ▸ consumes) open_
              simpa [empty] using data

/-- Whatever the interleaving: as long as no one-shot call meets an operation that has
accepted data through updates, every output covers all that was accepted. -/
theorem output_covers_accepted {ι : Type} [DecidableEq ι] {config : ModuleConfig B ι}
    (reached : Reachable (moduleHandler B) (Invocation.program B.target) (Admits NotMixed)
      (initial none) config) : DropsNothing config := by
  have sound := reachable_sound reached
  rintro ⟨⟨exported, memory⟩, ⟨rv, after⟩, events⟩ member call outputs present succeeded
  obtain ⟨follows, admitted, recorded⟩ := sound.finished _ member
  exact call_covers_accepted sound.linked outputs present follows admitted recorded succeeded

end Covering

/-! A byte accepted by C_SignUpdate, and then C_Sign on other data. -/
section Mixed

def mixedSign : List (Move Bool Invocation Windows.Cng) :=
  wholeCall false .cInitialize 1 ++ wholeCall false (.cOpenSession 1 4 96) 1 ++
    wholeCall false (.cSignInit 1 32 1) 1 ++ wholeCall false (.cSignUpdate 1 16 1) 1 ++
    wholeCall false (.cSign 1 16 1 128 64) 2

def forgetsBuffer {B : Backend} (done : FinishedCall B) : Bool :=
  decide (done.task.call = .cSign 1 16 1 128 64) && decide (done.value.1 = .ok) &&
    done.events.all fun event =>
      match moduleBuffer .sign 1 event.before with
      | some (_, _ :: _) => true
      | _ => false

theorem not_covered_of_forgotten {B : Backend} {config : ModuleConfig B Bool}
    (linked : Linked (moduleHandler B) none config.history config.shared)
    {done : FinishedCall B} (member : done ∈ config.finished)
    (found : forgetsBuffer done = true) : ¬ DropsNothing config := by
  intro covers
  simp only [forgetsBuffer, Bool.and_eq_true, decide_eq_true_eq, List.all_eq_true] at found
  obtain ⟨⟨call, succeeded⟩, held⟩ := found
  obtain ⟨earlier, event, later, manager, input, output, handle, params, buffer, split, own, _,
    before, known, _, _, accumulated, _, data⟩ :=
    covers done member ⟨.sign, 1, some (16, 1), 128, 64⟩ (by rw [call]; rfl) (by decide) succeeded
  have there : moduleBuffer .sign 1 event.before = some ((handle, params), buffer) := by
    rw [linked_before linked split]
    exact accumulated_view module_effect_faithful accumulated
  obtain ⟨_, _, _, given⟩ := input_for_active known
  have nonempty := held event own
  rw [there] at nonempty
  cases buffer with
  | nil => cases nonempty
  | cons first rest =>
      rw [given] at data
      have lengths := congrArg List.length data
      simp only [OutputCall.given, Option.map_some, Option.getD_some, List.cons_append,
        List.length_cons, List.length_append] at lengths
      omega

/-- Not in every run does every output cover all that was accepted. -/
theorem mixed_sign_drops_data :
    ¬ ∀ config : ModuleConfig Windows.backend Bool,
      Reachable (moduleHandler Windows.backend) (Invocation.program .windows) (fun _ _ => True)
        (initial none) config → DropsNothing config := by
  intro covers
  have played : ((play (moduleHandler Windows.backend) (Invocation.program .windows)
      (fun _ => true) mixedSign (initial none)).any fun config =>
        config.finished.any forgetsBuffer) = true := by
    decide +kernel
  obtain ⟨config, ended, found⟩ := (Option.any_eq_true _ _).mp played
  obtain ⟨done, member, forgotten⟩ := List.any_eq_true.mp found
  have sound := reachable_sound
    (play_reachable (fun _ _ _ passed => passed) .start ended)
  exact not_covered_of_forgotten sound.linked member forgotten
    (covers config (play_reachable (fun _ _ _ _ => trivial) .start ended))

def twoPartSign : List (Move Bool Invocation Windows.Cng) :=
  wholeCall false .cInitialize 1 ++ wholeCall false (.cOpenSession 1 4 96) 1 ++
    wholeCall false (.cSignInit 1 32 1) 1 ++ wholeCall false (.cSignUpdate 1 16 1) 1 ++
    wholeCall false (.cSignUpdate 1 17 2) 1 ++ wholeCall false (.cSignFinal 1 128 64) 2

def leavesAlone {B : Backend} (event : ModuleEvent B) : Bool :=
  match event.request with
  | .manager arguments =>
      match arguments.operationCall with
      | some ⟨_, _, .finishWith _⟩ => false
      | _ => true
  | _ => true

theorem not_mixed_of_leaves_alone {B : Backend} {task : Invocation}
    {earlier : List (ModuleEvent B)} {event : ModuleEvent B} (alone : leavesAlone event = true) :
    NotMixed task earlier event := by
  rintro kind session data opened buffer ⟨arguments, requested, called⟩ _
  simp [leavesAlone, requested, called, Kind.consume] at alone

/-- A signature made in two parts covers both. -/
theorem two_part_sign_covers :
    ∃ config : ModuleConfig Windows.backend Bool,
      (config.finished.map fun done => done.value.1) = List.replicate 6 .ok ∧
        DropsNothing config := by
  have played : ((play (moduleHandler Windows.backend) (Invocation.program .windows)
      leavesAlone twoPartSign (initial none)).any fun config =>
        decide ((config.finished.map fun done => done.value.1) = List.replicate 6 .ok)) = true := by
    decide +kernel
  obtain ⟨config, ended, succeeded⟩ := (Option.any_eq_true _ _).mp played
  exact ⟨config, of_decide_eq_true succeeded, output_covers_accepted (play_reachable
    (fun _ _ _ passed => admits_mono (fun _ _ _ => not_mixed_of_leaves_alone) passed)
    .start ended)⟩

end Mixed
end OsClientCerts
