import OsClientCerts.OutputFunctions
import OsClientCerts.WindowsBackend

/-!
Exported functions called from any number of threads. The two uses of the proxy
slot that a function with an output buffer makes may have anything in between, so
what is copied is only known to fit if the operation is still the one measured.
-/

namespace OsClientCerts
open Resumption

/-- A call of an exported function and the memory it is made on. -/
structure Invocation where
  call : ExportedCall
  memory : Memory

def Invocation.program (target : Target) (invocation : Invocation) :
    Prog moduleSignature (CkRv × Caller) := invocation.call.run target ⟨invocation.memory, []⟩

abbrev ModuleConfig (B : Backend) (ι : Type) :=
  Config moduleSignature ι (ModuleState B) B.Os Invocation (CkRv × Caller)

abbrev FinishedCall (B : Backend) :=
  Finished moduleSignature (ModuleState B) B.Os Invocation (CkRv × Caller)

/-- Of one and the same input, these behaviours of the system never make more
output than they announced. -/
def Backend.NeverLonger (B : Backend) (possible : B.Os → Prop) : Prop :=
  ∀ measuring performing, possible measuring → possible performing →
    ∀ (kind : Kind) (input : BackendInput B kind) length output,
      B.measure measuring kind input = .ok length →
      B.perform performing kind input = .ok output → output.length ≤ length

/-- The call copies into its output buffer only, and no more than it was told there is room for. -/
def CopiesWithin {B : Backend} (done : FinishedCall B) : Prop :=
  ∀ call, done.task.call.outputCall = some call → call.output ≠ null →
    ∀ access ∈ done.value.2.accesses, access.region = .bytes → access.write = true →
      access.addr = call.output ∧ access.count ≤ done.task.memory .ulong call.lengthSlot

def Consumes (request : ModuleCall) (kind : Kind) (session : CkSessionHandle)
    (given : Option Bytes) : Prop :=
  ∃ arguments, request = .manager arguments ∧
    arguments.operationCall = some ⟨kind, session, kind.consume given⟩

/-- At the consuming step of a call, the operation it finds is still the one its
length query measured, or another one that is announced to fit as well. -/
structure KeepsRoom {B : Backend} (possible : B.Os → Prop) (task : Invocation)
    (earlier : List (ModuleEvent B)) (event : ModuleEvent B) : Prop where
  feasible : possible event.oracle
  room : ∀ call given measured (before now : Manager B) (used : BackendInput B call.kind),
    task.call.outputCall = some call → Consumes event.request call.kind call.session given →
    earlier.getLast? = some measured → measured.before = some before → event.before = some now →
    now.inputFor call.kind call.session given = .ok used →
    before.inputFor call.kind call.session given = .ok used ∨
      ∃ os length, possible os ∧ B.measure os call.kind used = .ok length ∧
        length ≤ task.memory .ulong call.lengthSlot

section
variable {B : Backend} {possible : B.Os → Prop}

theorem query_ok {kind : Kind} {session : CkSessionHandle} {given : Option Bytes} {os : B.Os}
    {state : ModuleState B} {length : Nat}
    (answered : (ManagerProxy.query kind session given).answer os state = some (.ok length)) :
    ∃ manager input, state = some manager ∧ manager.inputFor kind session given = .ok input ∧
      B.measure os kind input = .ok length := by
  cases state with
  | none => cases answered
  | some manager =>
      rw [(query_answer kind session given os manager).1] at answered
      cases known : manager.inputFor kind session given with
      | error err =>
          rw [known] at answered
          cases answered
      | ok input =>
          rw [known] at answered
          exact ⟨manager, input, rfl, known, Option.some.inj answered⟩

theorem consume_ok {kind : Kind} {session : CkSessionHandle} {given : Option Bytes} {os : B.Os}
    {state : ModuleState B} {output : Bytes}
    (answered : (ManagerProxy.consume kind session given).answer os state = some (.ok output)) :
    ∃ manager input, state = some manager ∧ manager.inputFor kind session given = .ok input ∧
      B.perform os kind input = .ok output := by
  cases state with
  | none => cases answered
  | some manager =>
      rw [(consume_answer kind session given os manager).1] at answered
      cases known : manager.inputFor kind session given with
      | error err =>
          rw [known] at answered
          cases answered
      | ok input =>
          rw [known] at answered
          exact ⟨manager, input, rfl, known, Option.some.inj answered⟩

theorem consume_event_consumes (kind : Kind) (session : CkSessionHandle) (given : Option Bytes)
    (os : B.Os) (state : ModuleState B) :
    Consumes ((ManagerProxy.consume kind session given).event os state).request kind session given :=
  ⟨_, rfl, (ManagerProxy.consume_requests kind session given).call⟩

theorem call_copies_within (bounded : B.NeverLonger possible) {exported : ExportedCall}
    {call : OutputCall} (outputs : exported.outputCall = some call) (present : call.output ≠ null)
    {memory : Memory} {events : List (ModuleEvent B)} {rv : CkRv} {after : Caller}
    (follows : Follows (moduleHandler B) (exported.run B.target ⟨memory, []⟩) events (rv, after))
    (admitted : Admitted (KeepsRoom possible ⟨exported, memory⟩) events) :
    ∀ access ∈ after.accesses, access.region = .bytes → access.write = true →
      access.addr = call.output ∧ access.count ≤ memory .ulong call.lengthSlot := by
  -- One call, from its own events: the consuming step found the operation undisturbed.
  intro access member region write
  rcases output_cases outputs follows with ⟨_, _, _, rfl⟩ | ⟨_, delivered⟩
  · cases member
  · -- Only the last way to end copies anything.
    have noCopy : access ∉ (call.reading ⟨memory, []⟩).accesses := by
      intro earlier
      rw [reading_no_copy earlier] at write
      cases write
    cases delivered with
    | unavailable | queryFailed => exact absurd member noCopy
    | measured os state length answered nothing => exact absurd nothing present
    | tooSmall os state length answered here short =>
        simp only [Caller.stored_accesses, Caller.loaded_accesses, List.append_assoc,
          List.cons_append, List.nil_append, List.mem_append, List.mem_cons, List.not_mem_nil,
          or_false] at member
        rcases member with old | rfl | rfl
        · exact absurd old noCopy
        · cases region
        · cases region
    | gone | failed =>
        simp only [Caller.loaded_accesses, List.mem_append, List.mem_singleton] at member
        rcases member with old | rfl
        · exact absurd old noCopy
        · cases region
    | delivered os os' state state' length output measured here room performed =>
        simp only [Caller.stored_accesses, Caller.copied_accesses, Caller.loaded_accesses,
          List.append_assoc, List.cons_append, List.nil_append, List.mem_append, List.mem_cons,
          List.not_mem_nil, or_false] at member
        rcases member with old | rfl | rfl | rfl
        · exact absurd old noCopy
        · cases region
        · refine ⟨rfl, ?_⟩
          obtain ⟨before, measuredInput, rfl, known, announced⟩ := query_ok measured
          obtain ⟨now, performedInput, rfl, used, made⟩ := consume_ok performed
          obtain ⟨first, second⟩ := admitted_pair admitted
          rcases second.room call _ _ before now performedInput outputs
            (consume_event_consumes call.kind call.session _ os' (some now)) rfl rfl rfl used with
            same | ⟨measuring, needed, feasible, fits, enough⟩
          -- Either the operation is the one measured, or it is announced to fit as well.
          · rw [known] at same
            cases same
            exact Nat.le_trans (bounded os os' first.feasible second.feasible call.kind _ length
              output announced made) (by simpa using room)
          · exact Nat.le_trans (bounded measuring os' feasible second.feasible call.kind _ needed
              output fits made) enough
        · cases region

/-- Whatever the interleaving: as long as no other thread gets between the length
query and the consuming step of a call and leaves an operation there that needs more
room, every call stays within the capacity its caller declared. -/
theorem copies_within_capacity {ι : Type} [DecidableEq ι] (bounded : B.NeverLonger possible)
    {start : ModuleState B} {config : ModuleConfig B ι}
    (reached : Reachable (moduleHandler B) (Invocation.program B.target)
      (Admits (KeepsRoom possible)) (initial start) config) :
    ∀ done ∈ config.finished, CopiesWithin done := by
  intro done member
  obtain ⟨follows, admitted, _⟩ := (reachable_sound reached).finished done member
  intro call outputs present
  exact call_copies_within bounded outputs present follows admitted

end

/-- A Windows that stays as it is never makes more output than it announced. -/
theorem windows_never_longer (os : Windows.Cng) : Windows.backend.NeverLonger (· = os) := by
  rintro measuring performing rfl rfl kind input length output measured made
  cases kind with
  | sign => exact Windows.sign_agrees measured made
  | decrypt => exact Windows.decrypt_agrees measured made
  | encrypt =>
      rcases input with ⟨cert | key, mechanism, data⟩
      · exact Windows.cert_encrypt_agrees measured made
      · obtain ⟨announced, dummy, rfl⟩ := Windows.map_ok measured
        exact Windows.encrypt_agrees dummy made

/-! Two threads share session 1: while the first is between its two uses of the
lock, the second ends the operation and starts one with a key whose signatures are
longer. -/
section Overflow

def smallAndLargeKey : Windows.Cng :=
  .steady [.forCert 7 [1] .ec, .forCert 8 [2] .rsa] (fun handle => if handle = 7 then 64 else 128) 0

def roomFor64 : Memory :=
  (Memory.blank.set .mechanism 32 ⟨ckmEcdsa, null, 0⟩).set .ulong 64 64

def wholeCall (thread : Bool) (call : ExportedCall) (locks : Nat) :
    List (Move Bool Invocation Windows.Cng) :=
  .begin thread ⟨call, roomFor64⟩ :: List.replicate locks (.advance thread smallAndLargeKey) ++
    [.finish thread]

def interruptedSign : List (Move Bool Invocation Windows.Cng) :=
  wholeCall false .cInitialize 1 ++ wholeCall false (.cOpenSession 1 4 96) 1 ++
    wholeCall false (.cSignInit 1 32 1) 1 ++
    [.begin false ⟨.cSign 1 16 1 128 64, roomFor64⟩, .advance false smallAndLargeKey] ++
    wholeCall true (.cSignFinal 1 256 64) 2 ++ wholeCall true (.cSignInit 1 32 2) 1 ++
    [.advance false smallAndLargeKey, .finish false]

theorem whole_call_admitted (thread : Bool) (call : ExportedCall) (locks : Nat)
    (config : ModuleConfig Windows.backend Bool) :
    ∀ step ∈ wholeCall thread call locks,
      Admits (fun _ _ event => event.oracle = smallAndLargeKey) config step := by
  intro step member
  simp only [wholeCall, List.cons_append, List.mem_cons, List.mem_append, List.mem_replicate,
    List.not_mem_nil, or_false] at member
  rcases member with rfl | ⟨_, rfl⟩ | rfl
  · trivial
  · exact fun _ _ _ _ _ => rfl
  · trivial

theorem interrupted_sign_admitted (config : ModuleConfig Windows.backend Bool) :
    ∀ step ∈ interruptedSign,
      Admits (fun _ _ event => event.oracle = smallAndLargeKey) config step := by
  intro step member
  simp only [interruptedSign, List.mem_append, List.mem_cons, List.not_mem_nil, or_false] at member
  rcases member with
    ((((((whole | whole) | whole) | rfl | rfl) | whole) | whole) | rfl | rfl)
  · exact whole_call_admitted _ _ _ config step whole
  · exact whole_call_admitted _ _ _ config step whole
  · exact whole_call_admitted _ _ _ config step whole
  · trivial
  · exact fun _ _ _ _ _ => rfl
  · exact whole_call_admitted _ _ _ config step whole
  · exact whole_call_admitted _ _ _ config step whole
  · exact fun _ _ _ _ _ => rfl
  · trivial

def overflowed {B : Backend} (done : FinishedCall B) : Bool :=
  decide (done.task.call = .cSign 1 16 1 128 64) &&
    decide (done.task.memory .ulong 64 = 64) && done.value.2.accesses.any fun access =>
      decide (access.region = .bytes ∧ access.write = true ∧ 64 < access.count)

theorem not_within_of_overflowed {B : Backend} {done : FinishedCall B}
    (found : overflowed done = true) : ¬ CopiesWithin done := by
  intro within
  simp only [overflowed, Bool.and_eq_true, decide_eq_true_eq, List.any_eq_true] at found
  obtain ⟨⟨call, room⟩, access, member, region, write, long⟩ := found
  have fits := (within ⟨.sign, 1, some (16, 1), 128, 64⟩ (by rw [call]; rfl) (by decide) access
    member region write).2
  rw [room] at fits
  omega

/-- Not in every run does every call stay within its capacity. -/
theorem interrupted_sign_overflows :
    Windows.backend.NeverLonger (· = smallAndLargeKey) ∧
      ¬ ∀ config : ModuleConfig Windows.backend Bool,
        Reachable (moduleHandler Windows.backend) (Invocation.program .windows)
          (Admits fun _ _ event => event.oracle = smallAndLargeKey) (initial none) config →
        ∀ done ∈ config.finished, CopiesWithin done := by
  refine ⟨windows_never_longer smallAndLargeKey, fun within => ?_⟩
  have played : ((play (moduleHandler Windows.backend) (Invocation.program .windows)
      (fun _ => true) interruptedSign (initial none)).any fun config =>
        config.finished.any overflowed) = true := by
    decide +kernel
  obtain ⟨config, ended, found⟩ := (Option.any_eq_true _ _).mp played
  have reached := play_reachable
    (fun config step member _ => interrupted_sign_admitted config step member) .start ended
  obtain ⟨done, member, beyond⟩ := List.any_eq_true.mp found
  exact not_within_of_overflowed beyond (within config reached done member)

def signing : Manager Windows.backend :=
  ((Manager.new smallAndLargeKey).start .sign 1 1 none).2

/-- A signature with the longer key, started on another session between the two uses of the
lock, takes no room from the first. -/
theorem other_session_keeps_room :
    ∃ config : ModuleConfig Windows.backend Bool, config.finished.length = 2 ∧
      ∀ done ∈ config.finished, CopiesWithin done := by
  have copies {config : ModuleConfig Windows.backend Bool} (reached : Reachable _ _
      (Admits (KeepsRoom (· = smallAndLargeKey))) (initial (some signing)) config) :
      ∀ done ∈ config.finished, CopiesWithin done :=
    copies_within_capacity (windows_never_longer smallAndLargeKey) reached
  refine ⟨_, ?_, copies (.next (.finish false) (.next (.advance false smallAndLargeKey)
    (.next (.finish true) (.next (.advance true smallAndLargeKey) (.next
      (.begin true ⟨.cSignInit 2 32 2, roomFor64⟩) (.next (.advance false smallAndLargeKey)
        (.next (.begin false ⟨.cSign 1 16 1 128 64, roomFor64⟩) .start trivial rfl)
      ?_ rfl) trivial rfl) ?_ rfl) trivial rfl) ?_ rfl) trivial rfl)⟩
  · rfl
  · rintro task request next events busy
    cases busy
    exact ⟨rfl, fun _ _ _ _ _ _ _ _ last => by cases last⟩
  · rintro task request next events busy
    cases busy
    exact ⟨rfl, fun _ _ _ _ _ _ outputs => by cases outputs⟩
  · rintro task request next events busy
    cases busy
    refine ⟨rfl, fun call given measured before now used outputs _ last met here known => ?_⟩
    cases outputs
    cases last
    cases met
    cases here
    -- The operation on session 1 is the one that was measured.
    refine Or.inl (Eq.trans ?_ known)
    cases given <;> rfl

end Overflow
end OsClientCerts
