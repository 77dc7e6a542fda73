import OsClientCerts.LocalAutomata

/-!
A server on a thread of its own, asked through one channel and answering through
another, both first in first out. Its callers take a lock for a whole call, so at
most one request is under way; the thread may die at any step and the client side
of the channels may be given up. The request in flight is always that of the
caller who holds the lock, and from the moment an answer is lost none is made.
-/

namespace OsClientCerts.RequestReply
open LocalAutomata

/-- What the server starts from, how it answers, after which answer it stops, and
which calls wait for it to have stopped once they are answered. -/
structure Server (Ω Q R S : Type) where
  start : Ω → S
  handle : Ω → Q → S → R × S
  last : R → Bool
  joins : Q → R → Bool
  joinsLast : ∀ request reply, joins request reply = true → last reply = true

variable {ι Ω Q R S : Type}

inductive Thread (Q R S : Type) where
  | starting
  | waiting (state : S)
  | busy (request : Q) (state : S)
  | answering (reply : R) (state : S)
  | leaving
  | exited (panicked : Bool)

inductive Phase (Q R : Type) where
  | sending (request : Q)
  | awaiting (request : Q)
  | joining (request : Q) (reply : R)

/-- A call that has returned; without an outcome it returned an error. -/
structure Done (ι Q R : Type) where
  caller : ι
  request : Q
  outcome : Option R

structure Config (ι Ω Q R S : Type) where
  thread : Thread Q R S := .starting
  -- The thread's ends of the two channels.
  receiver : Bool := true
  sender : Bool := true
  requests : List Q := []
  replies : List R := []
  client : Bool := true
  joinHandle : Bool := true
  lock : Option (ι × Phase Q R) := none
  log : List (Done ι Q R) := []
  -- What the server started from and has handled: for the statements only.
  first : Option Ω := none
  handled : List (Ω × Q) := []

inductive Action (ι Ω Q : Type) where
  | lock (caller : ι) (request : Q)
  | send
  | receiveReply
  | join
  | start (world : Ω)
  | receiveRequest
  | process (world : Ω)
  | answer
  | leave
  | die
  | dropReceiver
  | dropSender
  | dropClient

def Config.finish (config : Config ι Ω Q R S) (caller : ι) (request : Q) (outcome : Option R) :
    Config ι Ω Q R S :=
  { config with lock := none, log := config.log ++ [⟨caller, request, outcome⟩] }

variable (server : Server Ω Q R S)

/-- One step of a caller, of the thread or of its end; none where it cannot be taken. -/
def step (config : Config ι Ω Q R S) : Action ι Ω Q → Option (Config ι Ω Q R S)
  | .lock caller request =>
      if config.lock.isSome then none
      else if config.client then some { config with lock := some (caller, .sending request) }
      else some (config.finish caller request none)
  | .send =>
      match config.lock with
      | some (caller, .sending request) =>
          if config.receiver then
            some { config with
              requests := config.requests ++ [request]
              lock := some (caller, .awaiting request) }
          else some (config.finish caller request none)
      | _ => none
  | .receiveReply =>
      match config.lock, config.replies with
      | some (caller, .awaiting request), reply :: rest =>
          if server.joins request reply then
            some { config with replies := rest, lock := some (caller, .joining request reply) }
          else some ({ config with replies := rest }.finish caller request (some reply))
      -- What was sent before the thread's end was dropped is still received.
      | some (caller, .awaiting request), [] =>
          if config.sender then none else some (config.finish caller request none)
      | _, _ => none
  | .join =>
      match config.lock with
      | some (caller, .joining request reply) =>
          if config.joinHandle then
            match config.thread with
            | .exited panicked =>
                if config.receiver || config.sender then none
                else some ({ config with joinHandle := false }.finish caller request
                  (if panicked then none else some reply))
            | _ => none
          else some (config.finish caller request none)
      | _ => none
  | .start world =>
      match config.thread with
      | .starting =>
          some { config with thread := .waiting (server.start world), first := some world }
      | _ => none
  | .receiveRequest =>
      match config.thread, config.requests with
      | .waiting state, request :: rest =>
          some { config with thread := .busy request state, requests := rest }
      | .waiting _, [] => if config.client then none else some { config with thread := .leaving }
      | _, _ => none
  | .process world =>
      match config.thread with
      | .busy request state =>
          let (reply, after) := server.handle world request state
          some { config with
            thread := .answering reply after
            handled := config.handled ++ [(world, request)] }
      | _ => none
  | .answer =>
      match config.thread with
      | .answering reply state =>
          if config.client then
            some { config with
              replies := config.replies ++ [reply]
              thread := if server.last reply then .leaving else .waiting state }
          else some { config with thread := .leaving }
      | _ => none
  | .leave =>
      match config.thread with
      | .leaving => some { config with thread := .exited false }
      | _ => none
  | .die =>
      match config.thread with
      | .exited _ => none
      | _ => some { config with thread := .exited true }
  -- What the thread owned is dropped once, in either order.
  | .dropReceiver =>
      match config.thread with
      | .exited _ =>
          if config.receiver then some { config with receiver := false, requests := [] } else none
      | _ => none
  | .dropSender =>
      match config.thread with
      | .exited _ => if config.sender then some { config with sender := false } else none
      | _ => none
  | .dropClient =>
      if config.lock.isSome then none
      else some { config with client := false, replies := [] }

def play : List (Action ι Ω Q) → Config ι Ω Q R S → Option (Config ι Ω Q R S)
  | [], config => some config
  | action :: rest, config => (step server config action).bind (play rest)

variable {server}

/-- The run rule: what every step preserves holds wherever a run gets. -/
theorem play_preserves {holds : Config ι Ω Q R S → Prop}
    (preserved : ∀ before action after, step server before action = some after →
      holds before → holds after)
    {actions : List (Action ι Ω Q)} {before after : Config ι Ω Q R S}
    (played : play server actions before = some after) (first : holds before) :
    holds after := by
  induction actions generalizing before with
  | nil =>
      cases played
      exact first
  | cons action rest ih =>
      obtain ⟨next, taken, goesOn⟩ := Option.bind_eq_some_iff.mp played
      exact ih goesOn (preserved before action next taken first)

theorem play_append {earlier later : List (Action ι Ω Q)} {before middle after : Config ι Ω Q R S}
    (reached : play server earlier before = some middle)
    (goesOn : play server later middle = some after) :
    play server (earlier ++ later) before = some after := by
  induction earlier generalizing before with
  | nil =>
      cases reached
      exact goesOn
  | cons action rest ih =>
      obtain ⟨next, taken, remaining⟩ := Option.bind_eq_some_iff.mp reached
      exact Option.bind_eq_some_iff.mpr ⟨next, taken, ih remaining⟩

def Server.ledger (server : Server Ω Q R S) : List (Ω × Q) → S → List (Q × R)
  | [], _ => []
  | (world, request) :: rest, state =>
      let (reply, after) := server.handle world request state
      (request, reply) :: ledger server rest after

def Server.serve (server : Server Ω Q R S) (served : Ω × Q) (state : S) : S :=
  (server.handle served.1 served.2 state).2

theorem ledger_append (handled : List (Ω × Q)) (world : Ω) (request : Q) (state : S) :
    server.ledger (handled ++ [(world, request)]) state =
      server.ledger handled state ++
        [(request, (server.handle world request (after server.serve handled state)).1)] := by
  induction handled generalizing state with
  | nil => rfl
  | cons head rest ih => simp [Server.ledger, ih, Server.serve]

theorem ledger_requests (handled : List (Ω × Q)) (state : S) :
    (server.ledger handled state).map Prod.fst = handled.map Prod.snd := by
  induction handled generalizing state with
  | nil => rfl
  | cons head rest ih => simp [Server.ledger, ih]

theorem ledger_get {handled : List (Ω × Q)} {state : S} {place : Nat} {request : Q} {reply : R}
    (owed : (server.ledger handled state)[place]? = some (request, reply)) :
    ∃ world, handled[place]? = some (world, request) ∧
      reply = (server.handle world request
        (after server.serve (handled.take place) state)).1 := by
  induction handled generalizing state place with
  | nil => cases owed
  | cons head rest ih =>
      cases place with
      | zero =>
          cases owed
          exact ⟨head.1, rfl, rfl⟩
      | succ place =>
          obtain ⟨world, found, made⟩ := ih owed
          exact ⟨world, found, made⟩

def Config.ledger (server : Server Ω Q R S) (config : Config ι Ω Q R S) : List (Q × R) :=
  match config.first with
  | some world => server.ledger config.handled (server.start world)
  | none => []

def Done.entry (done : Done ι Q R) : Option (Q × R) := done.outcome.map (done.request, ·)

def Config.returned (config : Config ι Ω Q R S) : List (Option (Q × R)) :=
  config.log.map Done.entry

def Thread.Exited : Thread Q R S → Prop
  | .exited _ => True
  | _ => False

def Thread.Gone : Thread Q R S → Prop
  | .leaving | .exited _ => True
  | _ => False

def Thread.Engaged : Thread Q R S → Prop
  | .busy _ _ | .answering _ _ => True
  | _ => False

inductive Move (server : Server Ω Q R S) (before : Config ι Ω Q R S) : Config ι Ω Q R S → Prop where
  | locked (caller : ι) (request : Q) (free : before.lock = none) (client : before.client = true) :
      Move server before { before with lock := some (caller, .sending request) }
  | refused (caller : ι) (request : Q) (free : before.lock = none)
      (client : before.client = false) : Move server before (before.finish caller request none)
  | sent (caller : ι) (request : Q) (lock : before.lock = some (caller, .sending request)) :
      Move server before { before with
        requests := before.requests ++ [request], lock := some (caller, .awaiting request) }
  | unsent (caller : ι) (request : Q) (lock : before.lock = some (caller, .sending request))
      (receiver : before.receiver = false) : Move server before (before.finish caller request none)
  | received (caller : ι) (request : Q) (reply : R) (rest : List R)
      (lock : before.lock = some (caller, .awaiting request))
      (replies : before.replies = reply :: rest) :
      Move server before ({ before with replies := rest }.finish caller request (some reply))
  | stopping (caller : ι) (request : Q) (reply : R) (rest : List R)
      (lock : before.lock = some (caller, .awaiting request))
      (replies : before.replies = reply :: rest) (joins : server.joins request reply = true) :
      Move server before { before with
        replies := rest, lock := some (caller, .joining request reply) }
  | unanswered (caller : ι) (request : Q) (lock : before.lock = some (caller, .awaiting request))
      (replies : before.replies = []) (sender : before.sender = false) :
      Move server before (before.finish caller request none)
  | joined (caller : ι) (request : Q) (reply : R) (panicked : Bool)
      (lock : before.lock = some (caller, .joining request reply))
      (thread : before.thread = .exited panicked) :
      Move server before ({ before with joinHandle := false }.finish caller request
        (if panicked then none else some reply))
  | unjoined (caller : ι) (request : Q) (reply : R)
      (lock : before.lock = some (caller, .joining request reply))
      (joinHandle : before.joinHandle = false) :
      Move server before (before.finish caller request none)
  | started (world : Ω) (thread : before.thread = .starting) :
      Move server before { before with
        thread := .waiting (server.start world), first := some world }
  | taken (request : Q) (rest : List Q) (state : S) (thread : before.thread = .waiting state)
      (requests : before.requests = request :: rest) :
      Move server before { before with thread := .busy request state, requests := rest }
  | hungUp (state : S) (thread : before.thread = .waiting state) (requests : before.requests = [])
      (client : before.client = false) : Move server before { before with thread := .leaving }
  | handled (world : Ω) (request : Q) (state : S) (thread : before.thread = .busy request state) :
      Move server before { before with
        thread := .answering (server.handle world request state).1
          (server.handle world request state).2
        handled := before.handled ++ [(world, request)] }
  | answered (reply : R) (state : S) (thread : before.thread = .answering reply state)
      (client : before.client = true) :
      Move server before { before with
        replies := before.replies ++ [reply]
        thread := if server.last reply then .leaving else .waiting state }
  | unheard (reply : R) (state : S) (thread : before.thread = .answering reply state)
      (client : before.client = false) : Move server before { before with thread := .leaving }
  | left (thread : before.thread = .leaving) :
      Move server before { before with thread := .exited false }
  | died (running : ¬before.thread.Exited) :
      Move server before { before with thread := .exited true }
  | receiverDropped (exited : before.thread.Exited) (receiver : before.receiver = true) :
      Move server before { before with receiver := false, requests := [] }
  | senderDropped (exited : before.thread.Exited) (sender : before.sender = true) :
      Move server before { before with sender := false }
  | clientDropped (free : before.lock = none) :
      Move server before { before with client := false, replies := [] }

section
variable {before after : Config ι Ω Q R S}

theorem lock_moves {caller : ι} {request : Q}
    (taken : step server before (.lock caller request) = some after) :
    Move server before after := by
  simp only [step] at taken
  split at taken
  · cases taken
  · rename_i held
    have free : before.lock = none := by simpa using held
    split at taken
    · rename_i client
      cases taken
      exact Move.locked caller request free client
    · rename_i client
      cases taken
      exact Move.refused caller request free (by simpa using client)

theorem send_moves (taken : step server before .send = some after) : Move server before after := by
  simp only [step] at taken
  split at taken
  · rename_i caller request lock
    split at taken
    · cases taken
      exact Move.sent caller request lock
    · rename_i receiver
      cases taken
      exact Move.unsent caller request lock (by simpa using receiver)
  · cases taken

theorem reply_moves (taken : step server before .receiveReply = some after) :
    Move server before after := by
  simp only [step] at taken
  split at taken
  · rename_i caller request reply rest lock replies
    split at taken
    · rename_i joins
      cases taken
      exact Move.stopping caller request reply rest lock replies joins
    · cases taken
      exact Move.received caller request reply rest lock replies
  · rename_i caller request lock replies
    split at taken
    · cases taken
    · rename_i sender
      cases taken
      exact Move.unanswered caller request lock replies (by simpa using sender)
  · cases taken

theorem join_moves (taken : step server before .join = some after) : Move server before after := by
  simp only [step] at taken
  split at taken
  · rename_i caller request reply lock
    split at taken
    · split at taken
      · rename_i panicked thread
        split at taken
        · cases taken
        · cases taken
          exact Move.joined caller request reply panicked lock thread
      · cases taken
    · rename_i joinHandle
      cases taken
      exact Move.unjoined caller request reply lock (by simpa using joinHandle)
  · cases taken

theorem request_moves (taken : step server before .receiveRequest = some after) :
    Move server before after := by
  simp only [step] at taken
  split at taken
  · rename_i state request rest thread requests
    cases taken
    exact Move.taken request rest state thread requests
  · rename_i state thread requests
    split at taken
    · cases taken
    · rename_i client
      cases taken
      exact Move.hungUp state thread requests (by simpa using client)
  · cases taken

theorem answer_moves (taken : step server before .answer = some after) :
    Move server before after := by
  simp only [step] at taken
  split at taken
  · rename_i reply state thread
    split at taken
    · rename_i client
      cases taken
      exact Move.answered reply state thread client
    · rename_i client
      cases taken
      exact Move.unheard reply state thread (by simpa using client)
  · cases taken

theorem step_moves {action : Action ι Ω Q} (taken : step server before action = some after) :
    Move server before after := by
  cases action with
  | lock caller request => exact lock_moves taken
  | send => exact send_moves taken
  | receiveReply => exact reply_moves taken
  | join => exact join_moves taken
  | receiveRequest => exact request_moves taken
  | answer => exact answer_moves taken
  | start world =>
      simp only [step] at taken
      split at taken
      · rename_i thread
        cases taken
        exact Move.started world thread
      · cases taken
  | process world =>
      simp only [step] at taken
      split at taken
      · rename_i request state thread
        cases taken
        exact Move.handled world request state thread
      · cases taken
  | leave =>
      simp only [step] at taken
      split at taken
      · rename_i thread
        cases taken
        exact Move.left thread
      · cases taken
  | die =>
      simp only [step] at taken
      split at taken
      · cases taken
      · rename_i running
        cases taken
        refine Move.died fun exited => ?_
        cases thread : before.thread <;> simp [thread, Thread.Exited] at exited running
  | dropReceiver =>
      simp only [step] at taken
      split at taken
      · rename_i thread
        split at taken
        · rename_i receiver
          cases taken
          exact Move.receiverDropped (by rw [thread]; trivial) receiver
        · cases taken
      · cases taken
  | dropSender =>
      simp only [step] at taken
      split at taken
      · rename_i thread
        split at taken
        · rename_i sender
          cases taken
          exact Move.senderDropped (by rw [thread]; trivial) sender
        · cases taken
      · cases taken
  | dropClient =>
      simp only [step] at taken
      split at taken
      · cases taken
      · rename_i free
        cases taken
        exact Move.clientDropped (by simpa using free)

end

inductive Standing (server : Server Ω Q R S) (config : Config ι Ω Q R S) : Prop where
  | starting (thread : config.thread = .starting) (first : config.first = none)
      (handled : config.handled = [])
  | waiting (world : Ω) (first : config.first = some world)
      (thread : config.thread =
        .waiting (after server.serve config.handled (server.start world)))

/-- Some calls were answered in order, and every later one failed. -/
def Cut (server : Server Ω Q R S) (config : Config ι Ω Q R S) : Prop :=
  ∃ answered failed, config.returned = answered.map some ++ List.replicate failed none ∧
    answered <+: config.ledger server

inductive Flight (server : Server Ω Q R S) (config : Config ι Ω Q R S) : Prop where
  | idle (standing : Standing server config) (requests : config.requests = [])
      (replies : config.replies = [])
      (lock : ∀ caller phase, config.lock = some (caller, phase) → ∃ request,
        phase = .sending request)
      (all : config.returned = (config.ledger server).map some)
  | queued (caller : ι) (request : Q) (standing : Standing server config)
      (requests : config.requests = [request]) (replies : config.replies = [])
      (lock : config.lock = some (caller, .awaiting request))
      (all : config.returned = (config.ledger server).map some)
  | busy (caller : ι) (request : Q) (world : Ω) (first : config.first = some world)
      (thread : config.thread =
        .busy request (after server.serve config.handled (server.start world)))
      (requests : config.requests = []) (replies : config.replies = [])
      (lock : config.lock = some (caller, .awaiting request))
      (all : config.returned = (config.ledger server).map some)
  | answering (caller : ι) (request : Q) (reply : R) (world : Ω)
      (first : config.first = some world)
      (thread : config.thread =
        .answering reply (after server.serve config.handled (server.start world)))
      (requests : config.requests = []) (replies : config.replies = [])
      (lock : config.lock = some (caller, .awaiting request))
      (owed : (config.ledger server).map some = config.returned ++ [some (request, reply)])
  | replied (caller : ι) (request : Q) (reply : R)
      (thread : Standing server config ∨ config.thread.Gone)
      (last : server.last reply = true → config.thread.Gone) (requests : config.requests = [])
      (replies : config.replies = [reply])
      (lock : config.lock = some (caller, .awaiting request))
      (owed : (config.ledger server).map some = config.returned ++ [some (request, reply)])
  | joining (caller : ι) (request : Q) (reply : R) (gone : config.thread.Gone)
      (requests : config.requests = [])
      (replies : config.replies = [])
      (lock : config.lock = some (caller, .joining request reply))
      (owed : (config.ledger server).map some = config.returned ++ [some (request, reply)])
  | lost (gone : config.thread.Gone) (replies : config.replies = [])
      (lock : ∀ caller request reply, config.lock ≠ some (caller, .joining request reply))
      (cut : Cut server config)
  | closed (standing : Standing server config) (client : config.client = false)
      (requests : config.requests = []) (replies : config.replies = [])
      (lock : config.lock = none) (cut : Cut server config)

structure Ends (config : Config ι Ω Q R S) : Prop where
  receiver : config.receiver = false → config.thread.Exited
  sender : config.sender = false → config.thread.Exited
  joinHandle : config.joinHandle = false → config.thread.Exited
  client : config.client = false → config.lock = none

theorem ends_running {before after : Config ι Ω Q R S} (ends : Ends before)
    (notExited : ¬before.thread.Exited) (receiver : after.receiver = before.receiver)
    (sender : after.sender = before.sender) (joinHandle : after.joinHandle = before.joinHandle)
    (client : after.client = before.client) (lock : after.lock = before.lock) : Ends after where
  receiver := fun dropped => absurd (ends.receiver (receiver ▸ dropped)) notExited
  sender := fun dropped => absurd (ends.sender (sender ▸ dropped)) notExited
  joinHandle := fun gone => absurd (ends.joinHandle (joinHandle ▸ gone)) notExited
  client := fun gone => lock.trans (ends.client (client ▸ gone))

theorem move_ends {before after : Config ι Ω Q R S} (move : Move server before after)
    (ends : Ends before) : Ends after := by
  -- A caller who holds the lock holds it on a client that is still there.
  have held {caller : ι} {phase : Phase Q R} (lock : before.lock = some (caller, phase)) :
      before.client ≠ false := by
    intro client
    rw [ends.client client] at lock
    cases lock
  cases move with
  | locked caller request free client =>
      exact ⟨ends.receiver, ends.sender, ends.joinHandle, fun gone => by simp_all⟩
  | sent caller request lock =>
      exact ⟨ends.receiver, ends.sender, ends.joinHandle, fun gone => absurd gone (held lock)⟩
  | stopping caller request reply rest lock replies joins =>
      exact ⟨ends.receiver, ends.sender, ends.joinHandle, fun gone => absurd gone (held lock)⟩
  | refused | unsent | received | unanswered | unjoined =>
      exact ⟨ends.receiver, ends.sender, ends.joinHandle, fun _ => rfl⟩
  | joined caller request reply panicked lock thread =>
      exact ⟨ends.receiver, ends.sender, fun _ => by rw [Config.finish, thread]; trivial,
        fun _ => rfl⟩
  | started world thread =>
      exact ends_running ends (by rw [thread]; exact id) rfl rfl rfl rfl rfl
  | taken request rest state thread requests =>
      exact ends_running ends (by rw [thread]; exact id) rfl rfl rfl rfl rfl
  | hungUp state thread requests client =>
      exact ends_running ends (by rw [thread]; exact id) rfl rfl rfl rfl rfl
  | handled world request state thread =>
      exact ends_running ends (by rw [thread]; exact id) rfl rfl rfl rfl rfl
  | answered reply state thread client =>
      exact ends_running ends (by rw [thread]; exact id) rfl rfl rfl rfl rfl
  | unheard reply state thread client =>
      exact ends_running ends (by rw [thread]; exact id) rfl rfl rfl rfl rfl
  | left | died => exact ⟨fun _ => trivial, fun _ => trivial, fun _ => trivial, ends.client⟩
  | receiverDropped exited receiver =>
      exact ⟨fun _ => exited, fun _ => exited, fun _ => exited, ends.client⟩
  | senderDropped exited sender =>
      exact ⟨fun _ => exited, fun _ => exited, fun _ => exited, ends.client⟩
  | clientDropped free => exact ⟨ends.receiver, ends.sender, ends.joinHandle, fun _ => free⟩

@[simp] theorem finish_returned (config : Config ι Ω Q R S) (caller : ι) (request : Q)
    (outcome : Option R) :
    (config.finish caller request outcome).returned =
      config.returned ++ [outcome.map (request, ·)] := by
  simp [Config.finish, Config.returned, Done.entry]

@[simp] theorem finish_ledger (config : Config ι Ω Q R S) (caller : ι) (request : Q)
    (outcome : Option R) :
    (config.finish caller request outcome).ledger server = config.ledger server := rfl

theorem all_cut {config : Config ι Ω Q R S}
    (all : config.returned = (config.ledger server).map some) : Cut server config :=
  ⟨config.ledger server, 0, by simpa using all, List.prefix_refl _⟩

theorem owed_cut {config : Config ι Ω Q R S} {request : Q} {reply : R}
    (owed : (config.ledger server).map some = config.returned ++ [some (request, reply)]) :
    Cut server config := by
  -- An answer that is owed may still be lost.
  obtain ⟨answered, last, split, returned, _⟩ := List.map_eq_append_iff.mp owed
  exact ⟨answered, 0, by simpa using returned.symm, split ▸ List.prefix_append answered last⟩

theorem cut_fails {config : Config ι Ω Q R S} (cut : Cut server config) (caller : ι)
    (request : Q) : Cut server (config.finish caller request none) := by
  obtain ⟨answered, failed, returned, within⟩ := cut
  refine ⟨answered, failed + 1, ?_, within⟩
  rw [finish_returned, returned, List.replicate_succ', Option.map_none, List.append_assoc]

/-- A thread that has a request in hand is neither between requests nor gone. -/
theorem engaged_alone {config : Config ι Ω Q R S} (engaged : config.thread.Engaged) :
    ¬(Standing server config ∨ config.thread.Gone) := by
  rintro (standing | gone)
  · cases standing with
    | starting thread => simp [thread, Thread.Engaged] at engaged
    | waiting world first thread => simp [thread, Thread.Engaged] at engaged
  · cases thread : config.thread <;> simp [thread, Thread.Engaged, Thread.Gone] at engaged gone

theorem exited_gone {thread : Thread Q R S} (exited : thread.Exited) : thread.Gone := by
  cases thread <;> trivial

theorem standing_same {before after : Config ι Ω Q R S} (standing : Standing server before)
    (thread : after.thread = before.thread) (first : after.first = before.first)
    (handled : after.handled = before.handled) : Standing server after := by
  -- The thread stands as it stood where a step leaves it and what it handled alone.
  cases standing with
  | starting starts none nothing =>
      exact Standing.starting (thread.trans starts) (first.trans none) (handled.trans nothing)
  | waiting world started waits =>
      exact Standing.waiting world (first.trans started) (by rw [thread, waits, handled])

theorem alive_same {before after : Config ι Ω Q R S}
    (alive : Standing server before ∨ before.thread.Gone) (thread : after.thread = before.thread)
    (first : after.first = before.first) (handled : after.handled = before.handled) :
    Standing server after ∨ after.thread.Gone := by
  rcases alive with standing | gone
  · exact Or.inl (standing_same standing thread first handled)
  · exact Or.inr (thread ▸ gone)

section
variable {config : Config ι Ω Q R S}

theorem flight_cut (flight : Flight server config) : Cut server config := by
  cases flight with
  | idle standing requests replies lock all => exact all_cut all
  | queued caller request standing requests replies lock all => exact all_cut all
  | busy caller request world first thread requests replies lock all => exact all_cut all
  | answering caller request reply world first thread requests replies lock owed =>
      exact owed_cut owed
  | replied caller request reply thread last requests replies lock owed => exact owed_cut owed
  | joining caller request reply gone requests replies lock owed => exact owed_cut owed
  | lost gone replies lock cut => exact cut
  | closed standing client requests replies lock cut => exact cut

theorem flight_free (flight : Flight server config) (free : config.lock = none) :
    config.replies = [] ∧
      (config.thread.Gone ∨ Standing server config ∧ config.requests = [] ∧
        (config.client = false ∨ config.returned = (config.ledger server).map some)) := by
  cases flight with
  | idle standing requests replies lock all =>
      exact ⟨replies, Or.inr ⟨standing, requests, Or.inr all⟩⟩
  | lost gone replies => exact ⟨replies, Or.inl gone⟩
  | closed standing client requests replies =>
      exact ⟨replies, Or.inr ⟨standing, requests, Or.inl client⟩⟩
  | queued caller request standing requests replies lock => simp [lock] at free
  | busy caller request world first thread requests replies lock => simp [lock] at free
  | answering caller request reply world first thread requests replies lock => simp [lock] at free
  | replied caller request reply thread last requests replies lock => simp [lock] at free
  | joining caller request reply gone requests replies lock => simp [lock] at free

theorem flight_sending {caller : ι} {request : Q} (flight : Flight server config)
    (held : config.lock = some (caller, .sending request)) :
    config.replies = [] ∧
      (config.thread.Gone ∨ Standing server config ∧ config.requests = [] ∧
        config.returned = (config.ledger server).map some) := by
  cases flight with
  | idle standing requests replies lock all => exact ⟨replies, Or.inr ⟨standing, requests, all⟩⟩
  | lost gone replies => exact ⟨replies, Or.inl gone⟩
  | closed standing client requests replies lock => simp [lock] at held
  | queued caller request standing requests replies lock => simp [lock] at held
  | busy caller request world first thread requests replies lock => simp [lock] at held
  | answering caller request reply world first thread requests replies lock => simp [lock] at held
  | replied caller request reply thread last requests replies lock => simp [lock] at held
  | joining caller request reply gone requests replies lock => simp [lock] at held

theorem flight_replied {caller : ι} {request : Q} {reply : R} {rest : List R}
    (flight : Flight server config) (held : config.lock = some (caller, .awaiting request))
    (received : config.replies = reply :: rest) :
    rest = [] ∧ config.requests = [] ∧ (Standing server config ∨ config.thread.Gone) ∧
      (server.last reply = true → config.thread.Gone) ∧
      (config.ledger server).map some = config.returned ++ [some (request, reply)] := by
  -- A reply that can be received is the one owed to the caller who waits.
  cases flight with
  | replied caller request reply thread last requests replies lock owed =>
      rw [lock] at held
      rw [replies] at received
      cases held
      cases received
      exact ⟨rfl, requests, thread, last, owed⟩
  | idle standing requests replies => simp [replies] at received
  | queued caller request standing requests replies => simp [replies] at received
  | busy caller request world first thread requests replies => simp [replies] at received
  | answering caller request reply world first thread requests replies =>
      simp [replies] at received
  | joining caller request reply gone requests replies => simp [replies] at received
  | lost gone replies => simp [replies] at received
  | closed standing client requests replies => simp [replies] at received

theorem flight_joining {caller : ι} {request : Q} {reply : R} (flight : Flight server config)
    (held : config.lock = some (caller, .joining request reply)) :
    config.replies = [] ∧ config.requests = [] ∧ config.thread.Gone ∧
      (config.ledger server).map some = config.returned ++ [some (request, reply)] := by
  cases flight with
  | joining caller request reply gone requests replies lock owed =>
      rw [lock] at held
      cases held
      exact ⟨replies, requests, gone, owed⟩
  | idle standing requests replies lock =>
      obtain ⟨asked, sending⟩ := lock _ _ held
      cases sending
  | queued caller request standing requests replies lock => simp [lock] at held
  | busy caller request world first thread requests replies lock => simp [lock] at held
  | answering caller request reply world first thread requests replies lock => simp [lock] at held
  | replied caller request reply thread last requests replies lock => simp [lock] at held
  | lost gone replies lock => exact absurd held (lock _ _ _)
  | closed standing client requests replies lock => simp [lock] at held

end

section
variable {before after : Config ι Ω Q R S}

theorem flight_answered {caller : ι} {request : Q} {reply : R}
    (thread : Standing server before ∨ before.thread.Gone) (requests : before.requests = [])
    (replies : before.replies = [])
    (owed : (before.ledger server).map some = before.returned ++ [some (request, reply)]) :
    Flight server (before.finish caller request (some reply)) := by
  -- An answered call closes the account again, or is the last one to be answered.
  have all : (before.finish caller request (some reply)).returned =
      ((before.finish caller request (some reply)).ledger server).map some := by
    simp [owed]
  rcases thread with standing | gone
  · exact Flight.idle (standing_same standing rfl rfl rfl) requests replies
      (by simp [Config.finish]) all
  · exact Flight.lost gone replies (by simp [Config.finish]) (all_cut all)

theorem flight_gone (flight : Flight server before) (gone : after.thread.Gone)
    (requests : after.requests = before.requests ∨ after.requests = [])
    (replies : after.replies = before.replies) (lock : after.lock = before.lock)
    (log : after.log = before.log) (first : after.first = before.first)
    (handled : after.handled = before.handled) : Flight server after := by
  -- Once the thread reads no more, only what it has already sent can still arrive.
  have returned : after.returned = before.returned := by simp [Config.returned, log]
  have ledger : after.ledger server = before.ledger server := by
    simp [Config.ledger, first, handled]
  have cut : Cut server after := by
    rw [Cut, returned, ledger]
    exact flight_cut flight
  have empty (given : before.requests = []) : after.requests = [] := by
    rcases requests with same | none
    · exact same.trans given
    · exact none
  cases flight with
  | idle standing noRequest noReply sending all =>
      refine Flight.lost gone (replies.trans noReply) ?_ cut
      intro caller request reply held
      obtain ⟨asked, phase⟩ := sending _ _ (lock ▸ held)
      cases phase
  | queued caller request standing queue noReply held =>
      exact Flight.lost gone (replies.trans noReply) (by simp [lock, held]) cut
  | busy caller request world started thread queue noReply held =>
      exact Flight.lost gone (replies.trans noReply) (by simp [lock, held]) cut
  | answering caller request reply world started thread queue noReply held =>
      exact Flight.lost gone (replies.trans noReply) (by simp [lock, held]) cut
  | replied caller request reply thread last queue sent held owed =>
      exact Flight.replied caller request reply (Or.inr gone) (fun _ => gone) (empty queue)
        (replies.trans sent) (lock.trans held) (by rw [ledger, owed, returned])
  | joining caller request reply ended queue noReply held owed =>
      exact Flight.joining caller request reply gone (empty queue)
        (replies.trans noReply) (lock.trans held) (by rw [ledger, owed, returned])
  | lost earlier noReply notJoining =>
      exact Flight.lost gone (replies.trans noReply) (by simpa [lock] using notJoining) cut
  | closed standing client queue noReply held =>
      exact Flight.lost gone (replies.trans noReply) (by simp [lock, held]) cut

theorem flight_started (flight : Flight server before) (thread : before.thread = .starting)
    (world : Ω) : Flight server { before with
      thread := .waiting (server.start world), first := some world } := by
  have fresh (standing : Standing server before) : before.ledger server = [] ∧
      Standing server { before with
        thread := .waiting (server.start world), first := some world } ∧
      Config.ledger server { before with
        thread := .waiting (server.start world), first := some world } = [] := by
    cases standing with
    | starting starts none nothing =>
        refine ⟨by simp [Config.ledger, none], Standing.waiting world rfl ?_, ?_⟩
        · simp [nothing]
        · simp [Config.ledger, nothing, Server.ledger]
    | waiting earlier started waits => simp [thread] at waits
  cases flight with
  | idle standing requests replies lock all =>
      obtain ⟨before, starts, after⟩ := fresh standing
      exact Flight.idle starts requests replies lock (by rw [after, ← before]; exact all)
  | queued caller request standing requests replies lock all =>
      obtain ⟨before, starts, after⟩ := fresh standing
      exact Flight.queued caller request starts requests replies lock
        (by rw [after, ← before]; exact all)
  | busy caller request world first busy => simp [thread] at busy
  | answering caller request reply world first answering => simp [thread] at answering
  | replied caller request reply alive last requests replies lock owed =>
      rcases alive with standing | gone
      · simp [(fresh standing).1] at owed
      · simp [thread, Thread.Gone] at gone
  | joining caller request reply gone => simp [thread, Thread.Gone] at gone
  | lost gone => simp [thread, Thread.Gone] at gone
  | closed standing client requests replies lock cut =>
      obtain ⟨none, starts, still⟩ := fresh standing
      refine Flight.closed starts client requests replies lock ?_
      obtain ⟨answered, failed, returned, within⟩ := cut
      exact ⟨answered, failed, returned, by rw [still, ← none]; exact within⟩

theorem flight_taken {request : Q} {rest : List Q} {state : S} (flight : Flight server before)
    (thread : before.thread = .waiting state) (asked : before.requests = request :: rest) :
    Flight server { before with thread := .busy request state, requests := rest } := by
  cases flight with
  | queued caller queued standing requests replies lock all =>
      rw [requests] at asked
      cases asked
      cases standing with
      | starting starts => simp [starts] at thread
      | waiting world first waits =>
          rw [waits] at thread
          cases thread
          exact Flight.busy caller request world first rfl rfl replies lock all
  | idle standing requests => simp [requests] at asked
  | busy caller request world first busy => simp [busy] at thread
  | answering caller request reply world first answering => simp [answering] at thread
  | replied caller request reply alive last requests => simp [requests] at asked
  | joining caller request reply gone requests => simp [requests] at asked
  | lost gone => simp [thread, Thread.Gone] at gone
  | closed standing client requests => simp [requests] at asked

theorem flight_handled {request : Q} {state : S} (flight : Flight server before)
    (thread : before.thread = .busy request state) (world : Ω) :
    Flight server { before with
      thread := .answering (server.handle world request state).1
        (server.handle world request state).2
      handled := before.handled ++ [(world, request)] } := by
  have elsewhere : ¬(Standing server before ∨ before.thread.Gone) :=
    engaged_alone (by rw [thread]; trivial)
  cases flight with
  | busy caller taken started first busy requests replies lock all =>
      rw [busy] at thread
      cases thread
      let state := after server.serve before.handled (server.start started)
      refine Flight.answering caller request (server.handle world request state).1 started first
        ?_ requests replies lock ?_
      · simp [after_append, Server.serve, state]
      · simp only [Config.ledger, first] at all ⊢
        rw [ledger_append, List.map_append, ← all]
        rfl
  | idle standing => exact absurd (Or.inl standing) elsewhere
  | queued caller request standing => exact absurd (Or.inl standing) elsewhere
  | answering caller request reply world first answering => simp [answering] at thread
  | replied caller request reply alive => exact absurd alive elsewhere
  | joining caller request reply gone => exact absurd (Or.inr gone) elsewhere
  | lost gone => exact absurd (Or.inr gone) elsewhere
  | closed standing => exact absurd (Or.inl standing) elsewhere

theorem flight_replies {reply : R} {state : S} (flight : Flight server before)
    (thread : before.thread = .answering reply state) :
    Flight server { before with
      replies := before.replies ++ [reply]
      thread := if server.last reply then .leaving else .waiting state } := by
  have elsewhere : ¬(Standing server before ∨ before.thread.Gone) :=
    engaged_alone (by rw [thread]; trivial)
  cases flight with
  | answering caller request made started first answering requests replies lock owed =>
      rw [answering] at thread
      cases thread
      refine Flight.replied caller request reply ?_ (fun last => by simp [last, Thread.Gone])
        requests (by simp [replies]) lock owed
      by_cases last : server.last reply = true
      · exact Or.inr (by simp [last, Thread.Gone])
      · exact Or.inl (Standing.waiting started first (by simp [last]))
  | idle standing => exact absurd (Or.inl standing) elsewhere
  | queued caller request standing => exact absurd (Or.inl standing) elsewhere
  | busy caller request world first busy => simp [busy] at thread
  | replied caller request reply alive => exact absurd alive elsewhere
  | joining caller request reply gone => exact absurd (Or.inr gone) elsewhere
  | lost gone => exact absurd (Or.inr gone) elsewhere
  | closed standing => exact absurd (Or.inl standing) elsewhere

end

theorem move_flight {before after : Config ι Ω Q R S} (move : Move server before after)
    (ends : Ends before) (flight : Flight server before) : Flight server after := by
  have cut := flight_cut flight
  cases move with
  | locked caller request free client =>
      obtain ⟨replies, gone | ⟨standing, requests, dropped | all⟩⟩ := flight_free flight free
      · exact Flight.lost gone replies (by simp) cut
      · simp [dropped] at client
      · exact Flight.idle (standing_same standing rfl rfl rfl) requests replies (by simp) all
  | refused caller request free client =>
      obtain ⟨replies, gone | ⟨standing, requests, _⟩⟩ := flight_free flight free
      · exact Flight.lost gone replies (by simp [Config.finish]) (cut_fails cut caller request)
      · exact Flight.closed (standing_same standing rfl rfl rfl) client requests replies rfl
          (cut_fails cut caller request)
  | sent caller request lock =>
      obtain ⟨replies, gone | ⟨standing, requests, all⟩⟩ := flight_sending flight lock
      · exact Flight.lost gone replies (by simp) cut
      · exact Flight.queued caller request (standing_same standing rfl rfl rfl)
          (by simp [requests]) replies rfl all
  | unsent caller request lock receiver =>
      obtain ⟨replies, _⟩ := flight_sending flight lock
      exact Flight.lost (exited_gone (ends.receiver receiver)) replies (by simp [Config.finish])
        (cut_fails cut caller request)
  | received caller request reply rest lock replies =>
      obtain ⟨rfl, requests, thread, _, owed⟩ := flight_replied flight lock replies
      exact flight_answered (alive_same thread rfl rfl rfl) requests rfl owed
  | stopping caller request reply rest lock replies joins =>
      obtain ⟨rfl, requests, _, last, owed⟩ := flight_replied flight lock replies
      exact Flight.joining caller request reply (last (server.joinsLast request reply joins))
        requests rfl rfl owed
  | unanswered caller request lock replies sender =>
      exact Flight.lost (exited_gone (ends.sender sender)) replies (by simp [Config.finish])
        (cut_fails cut caller request)
  | joined caller request reply panicked lock thread =>
      obtain ⟨replies, requests, gone, owed⟩ := flight_joining flight lock
      cases panicked with
      | false => exact flight_answered (Or.inr gone) requests replies owed
      | true =>
          exact Flight.lost (exited_gone (by rw [Config.finish, thread]; trivial)) replies
            (by simp [Config.finish]) (cut_fails cut caller request)
  | unjoined caller request reply lock joinHandle =>
      obtain ⟨replies, requests, gone, owed⟩ := flight_joining flight lock
      exact Flight.lost (exited_gone (ends.joinHandle joinHandle)) replies (by simp [Config.finish])
        (cut_fails cut caller request)
  | started world thread => exact flight_started flight thread world
  | taken request rest state thread requests => exact flight_taken flight thread requests
  | handled world request state thread => exact flight_handled flight thread world
  | answered reply state thread client => exact flight_replies flight thread
  | hungUp | unheard | left | died =>
      exact flight_gone flight trivial (Or.inl rfl) rfl rfl rfl rfl rfl
  | receiverDropped exited receiver =>
      exact flight_gone flight (exited_gone exited) (Or.inr rfl) rfl rfl rfl rfl rfl
  | senderDropped exited sender =>
      exact flight_gone flight (exited_gone exited) (Or.inl rfl) rfl rfl rfl rfl rfl
  | clientDropped free =>
      obtain ⟨replies, gone | ⟨standing, requests, _⟩⟩ := flight_free flight free
      · exact Flight.lost gone rfl (by simp [free]) cut
      · exact Flight.closed (standing_same standing rfl rfl rfl) rfl requests rfl free cut

theorem step_keeps {before after : Config ι Ω Q R S} {action : Action ι Ω Q}
    (taken : step server before action = some after)
    (kept : Ends before ∧ Flight server before) : Ends after ∧ Flight server after :=
  have move := step_moves taken
  ⟨move_ends move kept.1, move_flight move kept.1 kept.2⟩

theorem play_keeps {actions : List (Action ι Ω Q)} {config : Config ι Ω Q R S}
    (played : play server actions {} = some config) : Ends config ∧ Flight server config := by
  apply play_preserves (fun _ _ _ => step_keeps) played
  constructor
  · exact ⟨by simp, by simp, by simp, by simp⟩
  · exact Flight.idle (Standing.starting rfl rfl rfl) rfl rfl (by simp) rfl

/-- There is no thread to answer, or nobody to ask it. -/
def Config.Over (config : Config ι Ω Q R S) : Prop :=
  config.thread.Exited ∨ config.client = false

theorem over_stays {before after : Config ι Ω Q R S} (move : Move server before after)
    (ended : before.Over) : after.Over := by
  rcases ended with exited | given
  · cases move with
    | started world thread => simp [thread, Thread.Exited] at exited
    | taken request rest state thread => simp [thread, Thread.Exited] at exited
    | hungUp state thread => simp [thread, Thread.Exited] at exited
    | handled world request state thread => simp [thread, Thread.Exited] at exited
    | answered reply state thread => simp [thread, Thread.Exited] at exited
    | unheard reply state thread => simp [thread, Thread.Exited] at exited
    | left thread => simp [thread, Thread.Exited] at exited
    | died running => exact absurd exited running
    | _ => exact Or.inl exited
  · cases move with
    | clientDropped => exact Or.inr rfl
    | _ => exact Or.inr given

theorem move_failed {before after : Config ι Ω Q R S} (move : Move server before after)
    (ends : Ends before)
    (failed : ∀ done ∈ before.log, done.outcome = none → before.Over) :
    ∀ done ∈ after.log, done.outcome = none → after.Over := by
  -- The calls that have failed so far say that it is over.
  have finished {caller : ι} {request : Q} {outcome : Option R} {config : Config ι Ω Q R S}
      (log : config.log = before.log) (move : Move server before
        (config.finish caller request outcome)) (reason : outcome = none → before.Over) :
      ∀ done ∈ (config.finish caller request outcome).log, done.outcome = none →
        (config.finish caller request outcome).Over := by
    intro done listed none
    rw [Config.finish, log, List.mem_append, List.mem_singleton] at listed
    rcases listed with earlier | rfl
    · exact over_stays move (failed done earlier none)
    · exact over_stays move (reason none)
  have taken := move
  cases move with
  | refused caller request free client => exact finished rfl taken fun _ => Or.inr client
  | unsent caller request lock receiver =>
      exact finished rfl taken fun _ => Or.inl (ends.receiver receiver)
  | received caller request reply rest lock replies => exact finished rfl taken (by simp)
  | unanswered caller request lock replies sender =>
      exact finished rfl taken fun _ => Or.inl (ends.sender sender)
  | joined caller request reply panicked lock thread =>
      exact finished rfl taken fun _ => Or.inl (by rw [thread]; trivial)
  | unjoined caller request reply lock joinHandle =>
      exact finished rfl taken fun _ => Or.inl (ends.joinHandle joinHandle)
  | _ => exact fun done listed none => over_stays taken (failed done listed none)

theorem play_failed {actions : List (Action ι Ω Q)} {config : Config ι Ω Q R S}
    (played : play server actions {} = some config) :
    ∀ done ∈ config.log, done.outcome = none → config.Over := by
  have kept : Ends config ∧ ∀ done ∈ config.log, done.outcome = none → config.Over := by
    apply play_preserves (fun _ _ _ taken kept => ?_) played
    · exact ⟨⟨by simp, by simp, by simp, by simp⟩, by simp⟩
    · have move := step_moves taken
      exact ⟨move_ends move kept.1, move_failed move kept.1 kept.2⟩
  exact kept.2

/-- The steps that a call needs at most: those of the caller, those of the thread, with three
for each request it has yet to take, and the ends it has yet to drop. -/
def Phase.remaining : Phase Q R → Nat
  | .sending _ => 6
  | .awaiting _ => 2
  | .joining _ _ => 1

def Thread.remaining (asked : Nat) : Thread Q R S → Nat
  | .starting => 2 + 3 * asked
  | .waiting _ => 1 + 3 * asked
  | .busy _ _ => 3 + 3 * asked
  | .answering _ _ => 2 + 3 * asked
  | .leaving => 1
  | .exited _ => 0

def Config.remaining (config : Config ι Ω Q R S) : Nat :=
  ((config.lock.map fun held => held.2.remaining).getD 0) +
    config.thread.remaining config.requests.length + config.receiver.toNat + config.sender.toNat

theorem held_moves {before after : Config ι Ω Q R S} (move : Move server before after)
    (ends : Ends before) (held : before.lock.isSome = true) :
    after.log.length = before.log.length + 1 ∨
      (after.log = before.log ∧ after.lock.isSome = true ∧ after.remaining < before.remaining) := by
  -- A step of a call under way ends the call or brings it nearer to its end.
  have client : before.client = true := by
    cases given : before.client with
    | true => rfl
    | false => simp [ends.client given] at held
  cases move with
  | locked caller request free => simp [free] at held
  | clientDropped free => simp [free] at held
  | refused caller request free => simp [free] at held
  | unsent | received | unanswered | joined | unjoined => exact Or.inl (by simp [Config.finish])
  | sent caller request lock =>
      refine Or.inr ⟨rfl, rfl, ?_⟩
      cases thread : before.thread <;>
        simp [Config.remaining, lock, thread, Phase.remaining, Thread.remaining] <;> omega
  | stopping caller request reply rest lock =>
      exact Or.inr ⟨rfl, rfl, by simp [Config.remaining, lock, Phase.remaining]⟩
  | started world thread =>
      exact Or.inr ⟨rfl, held, by simp [Config.remaining, thread, Thread.remaining]⟩
  | taken request rest state thread requests =>
      refine Or.inr ⟨rfl, held, ?_⟩
      simp [Config.remaining, thread, requests, Thread.remaining]
      omega
  | hungUp state thread requests given => simp [client] at given
  | handled world request state thread =>
      exact Or.inr ⟨rfl, held, by simp [Config.remaining, thread, Thread.remaining]⟩
  | answered reply state thread =>
      refine Or.inr ⟨rfl, held, ?_⟩
      by_cases last : server.last reply = true
      · simp [Config.remaining, thread, last, Thread.remaining]
        omega
      · simp [Config.remaining, thread, last, Thread.remaining]
  | unheard reply state thread given => simp [client] at given
  | left thread => exact Or.inr ⟨rfl, held, by simp [Config.remaining, thread, Thread.remaining]⟩
  | died running =>
      refine Or.inr ⟨rfl, held, ?_⟩
      rw [Config.remaining, Config.remaining]
      cases thread : before.thread with
      | exited panicked => exact absurd (by rw [thread]; trivial) running
      | _ =>
          simp only [Thread.remaining]
          omega
  | receiverDropped exited receiver =>
      refine Or.inr ⟨rfl, held, ?_⟩
      cases thread : before.thread <;>
        simp [Config.remaining, thread, receiver, Thread.remaining, Thread.Exited] at exited ⊢
  | senderDropped exited sender =>
      exact Or.inr ⟨rfl, held, by simp [Config.remaining, sender]⟩

theorem move_log {before after : Config ι Ω Q R S} (move : Move server before after) :
    before.log.length ≤ after.log.length := by
  cases move with
  | refused | unsent | received | unanswered | joined | unjoined => simp [Config.finish]
  | _ => exact Nat.le_refl _

theorem play_log {actions : List (Action ι Ω Q)} {before after : Config ι Ω Q R S}
    (played : play server actions before = some after) :
    before.log.length ≤ after.log.length := by
  induction actions generalizing before with
  | nil =>
      cases played
      exact Nat.le_refl _
  | cons action rest ih =>
      obtain ⟨next, taken, goesOn⟩ := Option.bind_eq_some_iff.mp played
      exact Nat.le_trans (move_log (step_moves taken)) (ih goesOn)

theorem steps_left {actions : List (Action ι Ω Q)} {before after : Config ι Ω Q R S}
    (ends : Ends before) (held : before.lock.isSome = true)
    (played : play server actions before = some after)
    (waiting : after.log.length = before.log.length) : actions.length ≤ before.remaining := by
  -- A call that has not returned has not had all its steps.
  induction actions generalizing before with
  | nil => exact Nat.zero_le _
  | cons action rest ih =>
      obtain ⟨next, taken, goesOn⟩ := Option.bind_eq_some_iff.mp played
      have move := step_moves taken
      rcases held_moves move ends held with returned | ⟨same, stillHeld, nearer⟩
      · have later := play_log goesOn
        omega
      · have left := ih (move_ends move ends) stillHeld goesOn (by rw [waiting, same])
        rw [List.length_cons]
        omega

theorem standing_remaining {config : Config ι Ω Q R S} (standing : Standing server config) :
    config.thread.remaining config.requests.length ≤ 2 + 3 * config.requests.length := by
  cases standing with
  | starting thread => simp [thread, Thread.remaining]
  | waiting world first thread =>
      simp only [thread, Thread.remaining]
      omega

theorem gone_remaining {thread : Thread Q R S} (gone : thread.Gone) (asked : Nat) :
    thread.remaining asked ≤ 1 := by
  cases thread <;> simp [Thread.Gone, Thread.remaining] at gone ⊢

theorem remaining_bounded {config : Config ι Ω Q R S} (flight : Flight server config)
    (held : config.lock.isSome = true) : config.remaining ≤ 10 := by
  have dropped : config.receiver.toNat + config.sender.toNat ≤ 2 := by
    cases config.receiver <;> cases config.sender <;> decide
  have phases (phase : Phase Q R) : phase.remaining ≤ 6 := by
    cases phase <;> simp [Phase.remaining]
  obtain ⟨⟨caller, phase⟩, lock⟩ := Option.isSome_iff_exists.mp held
  have own := phases phase
  have asked : config.remaining = phase.remaining +
      config.thread.remaining config.requests.length + config.receiver.toNat +
      config.sender.toNat := by simp [Config.remaining, lock]
  rw [asked]
  cases flight with
  | idle standing requests =>
      have thread := standing_remaining standing
      rw [requests, List.length_nil] at thread ⊢
      omega
  | queued caller request standing requests replies awaits =>
      have thread := standing_remaining standing
      rw [awaits] at lock
      cases lock
      rw [requests, List.length_singleton] at thread ⊢
      rw [Phase.remaining]
      omega
  | busy caller request world first thread requests replies awaits =>
      rw [awaits] at lock
      cases lock
      rw [thread, requests, Phase.remaining, Thread.remaining, List.length_nil]
      omega
  | answering caller request reply world first thread requests replies awaits =>
      rw [awaits] at lock
      cases lock
      rw [thread, requests, Phase.remaining, Thread.remaining, List.length_nil]
      omega
  | replied caller request reply alive last requests =>
      have thread : config.thread.remaining config.requests.length ≤ 2 := by
        rcases alive with standing | gone
        · have bounded := standing_remaining standing
          rwa [requests, List.length_nil] at bounded ⊢
        · exact Nat.le_succ_of_le (gone_remaining gone _)
      omega
  | joining caller request reply gone =>
      have thread := gone_remaining gone config.requests.length
      omega
  | lost gone =>
      have thread := gone_remaining gone config.requests.length
      omega
  | closed standing client requests replies free => simp [free] at lock

/-- The steps of a caller and of the thread, in a world that the thread may look at. -/
def callActions (world : Ω) : List (Action ι Ω Q) :=
  [.send, .receiveReply, .join, .start world, .receiveRequest, .process world, .answer, .leave,
    .dropReceiver, .dropSender]

def CanProceed (server : Server Ω Q R S) (world : Ω) (config : Config ι Ω Q R S) : Prop :=
  ∃ action ∈ callActions world, (step server config action).isSome = true

theorem gone_proceeds {config : Config ι Ω Q R S} (gone : config.thread.Gone) (world : Ω) :
    CanProceed server world config ∨
      (∃ panicked, config.thread = .exited panicked) ∧ config.receiver = false ∧
        config.sender = false := by
  cases thread : config.thread with
  | starting => simp [thread, Thread.Gone] at gone
  | waiting state => simp [thread, Thread.Gone] at gone
  | busy request state => simp [thread, Thread.Gone] at gone
  | answering reply state => simp [thread, Thread.Gone] at gone
  | leaving => exact Or.inl ⟨.leave, by simp [callActions], by simp [step, thread]⟩
  | exited panicked =>
      cases receiver : config.receiver with
      | true =>
          exact Or.inl ⟨.dropReceiver, by simp [callActions], by simp [step, thread, receiver]⟩
      | false =>
          cases sender : config.sender with
          | true =>
              exact Or.inl ⟨.dropSender, by simp [callActions], by simp [step, thread, sender]⟩
          | false => exact Or.inr ⟨⟨panicked, rfl⟩, rfl, rfl⟩

theorem standing_proceeds {config : Config ι Ω Q R S} (standing : Standing server config)
    (asked : config.requests ≠ []) (world : Ω) :
    CanProceed server world config := by
  cases standing with
  | starting thread => exact ⟨.start world, by simp [callActions], by simp [step, thread]⟩
  | waiting earlier first thread =>
      obtain ⟨request, rest, requests⟩ := List.exists_cons_of_ne_nil asked
      exact ⟨.receiveRequest, by simp [callActions], by simp [step, thread, requests]⟩

theorem awaiting_proceeds {config : Config ι Ω Q R S} {caller : ι} {request : Q}
    (flight : Flight server config) (lock : config.lock = some (caller, .awaiting request))
    (world : Ω) : CanProceed server world config := by
  cases flight with
  | idle standing requests replies sending =>
      obtain ⟨other, same⟩ := sending caller _ lock
      cases same
  | queued other asked standing requests =>
      exact standing_proceeds standing (by simp [requests]) world
  | busy other asked first started thread =>
      exact ⟨.process world, by simp [callActions], by simp [step, thread]⟩
  | answering other asked reply first started thread =>
      cases client : config.client with
      | true => exact ⟨.answer, by simp [callActions], by simp [step, thread, client]⟩
      | false => exact ⟨.answer, by simp [callActions], by simp [step, thread, client]⟩
  | replied other asked reply alive last requests replies =>
      by_cases joins : server.joins request reply = true
      · exact ⟨.receiveReply, by simp [callActions], by simp [step, lock, replies, joins]⟩
      · exact ⟨.receiveReply, by simp [callActions], by simp [step, lock, replies, joins]⟩
  | joining other asked reply gone requests replies joining =>
      rw [joining] at lock
      cases lock
  | lost gone replies =>
      rcases gone_proceeds gone world with goesOn | ⟨_, _, sender⟩
      · exact goesOn
      · exact ⟨.receiveReply, by simp [callActions], by simp [step, lock, replies, sender]⟩
  | closed standing client requests replies free =>
      rw [free] at lock
      cases lock

theorem held_proceeds {config : Config ι Ω Q R S} (flight : Flight server config)
    (held : config.lock.isSome = true) (world : Ω) :
    CanProceed server world config := by
  -- A call under way can always go on; the thread need not die for it.
  obtain ⟨⟨caller, phase⟩, lock⟩ := Option.isSome_iff_exists.mp held
  cases phase with
  | sending request =>
      cases receiver : config.receiver with
      | true => exact ⟨.send, by simp [callActions], by simp [step, lock, receiver]⟩
      | false => exact ⟨.send, by simp [callActions], by simp [step, lock, receiver]⟩
  | awaiting request => exact awaiting_proceeds flight lock world
  | joining request reply =>
      obtain ⟨_, _, gone, _⟩ := flight_joining flight lock
      cases joinHandle : config.joinHandle with
      | false => exact ⟨.join, by simp [callActions], by simp [step, lock, joinHandle]⟩
      | true =>
          rcases gone_proceeds gone world with goesOn | ⟨⟨panicked, thread⟩, receiver, sender⟩
          · exact goesOn
          · exact ⟨.join, by simp [callActions],
              by simp [step, lock, joinHandle, thread, receiver, sender]⟩

theorem free_begins {config : Config ι Ω Q R S} (free : config.lock = none) (caller : ι)
    (request : Q) : ∃ next, step server config (.lock caller request) = some next := by
  cases client : config.client with
  | true => exact ⟨_, by simp only [step, free, client, if_true]; rfl⟩
  | false => exact ⟨_, by simp [step, free, client]; rfl⟩

/-- The answer to the request at this place of the lock order, made after all earlier
requests in that order and no others. -/
structure AnswerAt (server : Server Ω Q R S) (config : Config ι Ω Q R S) (place : Nat)
    (request : Q) (reply : R) (first world : Ω) : Prop where
  started : config.first = some first
  handled : config.handled[place]? = some (world, request)
  earlier : (config.handled.take place).map Prod.snd =
    (config.log.take place).map Done.request
  made : reply = (server.handle world request
    (after server.serve (config.handled.take place) (server.start first))).1

theorem answered_requests {log : List (Done ι Q R)} {entries : List (Q × R)}
    (agrees : log.map Done.entry = entries.map some) :
    log.map Done.request = entries.map Prod.fst := by
  induction log generalizing entries with
  | nil => simp_all
  | cons done rest ih =>
      cases entries with
      | nil => cases agrees
      | cons entry others =>
          obtain ⟨head, tail⟩ := List.cons.inj agrees
          rw [List.map_cons, List.map_cons, ih tail]
          cases outcome : done.outcome with
          | none => simp [Done.entry, outcome] at head
          | some reply =>
              simp only [Done.entry, outcome, Option.map_some, Option.some.injEq] at head
              rw [← head]

theorem ledger_answer {config : Config ι Ω Q R S} {place : Nat} {request : Q} {reply : R}
    (owed : (config.ledger server)[place]? = some (request, reply))
    (agrees : (config.returned.take place) = ((config.ledger server).take place).map some) :
    ∃ first world, AnswerAt server config place request reply first world := by
  cases started : config.first with
  | none => simp [Config.ledger, started] at owed
  | some first =>
      simp only [Config.ledger, started] at owed agrees
      obtain ⟨world, handled, made⟩ := ledger_get owed
      refine ⟨first, world, started, handled, ?_, made⟩
      rw [Config.returned, ← List.map_take] at agrees
      rw [answered_requests agrees, List.map_take, List.map_take, ledger_requests]

theorem replied_in_order {config : Config ι Ω Q R S} (cut : Cut server config) {place : Nat}
    {done : Done ι Q R} {reply : R} (at_place : config.log[place]? = some done)
    (replied : done.outcome = some reply) :
    ∃ first world, AnswerAt server config place done.request reply first world := by
  obtain ⟨answered, failed, returned, within⟩ := cut
  have entry : config.returned[place]? = some (some (done.request, reply)) := by
    simp [Config.returned, at_place, Done.entry, replied]
  rw [returned] at entry
  have early : place < answered.length := by
    by_contra late
    rw [List.getElem?_append_right (by simpa using late), List.getElem?_replicate] at entry
    split at entry <;> simp at entry
  obtain ⟨rest, ledger⟩ := within
  rw [List.getElem?_append_left (by simpa using early), List.getElem?_map] at entry
  apply ledger_answer
  · rw [← ledger, List.getElem?_append_left early]
    simpa using entry
  · rw [returned, ← ledger, List.take_append_of_le_length (by simp; omega),
      List.take_append_of_le_length (Nat.le_of_lt early), List.map_take]

theorem awaited_reply {config : Config ι Ω Q R S} (flight : Flight server config) {caller : ι}
    {request : Q} {reply : R} (held : config.lock = some (caller, .awaiting request))
    (sent : reply ∈ config.replies) :
    config.replies = [reply] ∧
      ∃ first world, AnswerAt server config config.log.length request reply first world := by
  -- A reply in the channel is owed to the caller who waits for it.
  cases channel : config.replies with
  | nil => simp [channel] at sent
  | cons head rest =>
      obtain ⟨rfl, requests, thread, _, owed⟩ := flight_replied flight held channel
      rw [channel, List.mem_singleton] at sent
      cases sent
      refine ⟨rfl, ledger_answer ?_ ?_⟩
      · have last := congrArg (fun entries => entries[config.log.length]?) owed
        have length : config.returned.length = config.log.length := by simp [Config.returned]
        simpa [← length] using last
      · have length : config.log.length = config.returned.length := by simp [Config.returned]
        rw [List.map_take, owed, length, List.take_left, List.take_length]

/-- From this many calls on, every call has failed and nothing is left to be received. -/
structure FailingFrom (server : Server Ω Q R S) (count : Nat) (config : Config ι Ω Q R S) :
    Prop where
  gone : config.thread.Gone
  kept : Ends config ∧ Flight server config
  failed : ∀ done ∈ config.log.drop count, done.outcome = none
  nothing : count ≤ config.log.length → config.replies = [] ∧
    ∀ caller request reply, config.lock ≠ some (caller, .joining request reply)

theorem gone_stays {before after : Config ι Ω Q R S} (move : Move server before after)
    (gone : before.thread.Gone) : after.thread.Gone := by
  cases move with
  | started world thread => simp [thread, Thread.Gone] at gone
  | taken request rest state thread => simp [thread, Thread.Gone] at gone
  | handled world request state thread => simp [thread, Thread.Gone] at gone
  | answered reply state thread => simp [thread, Thread.Gone] at gone
  | hungUp | unheard | left | died => trivial
  | locked | refused | sent | unsent | received | stopping | unanswered => exact gone
  | joined | unjoined | receiverDropped | senderDropped | clientDropped => exact gone

theorem finish_fails {count : Nat} {config : Config ι Ω Q R S} {caller : ι} {request : Q}
    {outcome : Option R} (failed : ∀ done ∈ config.log.drop count, done.outcome = none)
    (late : count ≤ config.log.length → outcome = none) :
    ∀ done ∈ (config.finish caller request outcome).log.drop count, done.outcome = none := by
  intro done member
  by_cases early : config.log.length < count
  · rw [List.drop_eq_nil_of_le (by simp [Config.finish]; omega)] at member
    cases member
  · have reached : count ≤ config.log.length := by omega
    rw [Config.finish, List.drop_append_of_le_length reached, List.mem_append] at member
    rcases member with earlier | last
    · exact failed done earlier
    · rw [List.mem_singleton.mp last]
      exact late reached

theorem move_failing {count : Nat} {before after : Config ι Ω Q R S}
    (move : Move server before after) (failing : FailingFrom server count before) :
    FailingFrom server count after := by
  have kept := And.intro (move_ends move failing.kept.1)
    (move_flight move failing.kept.1 failing.kept.2)
  refine ⟨gone_stays move failing.gone, kept, ?_, ?_⟩
  · cases move with
    | refused | unsent | unanswered | unjoined =>
        exact finish_fails failing.failed fun _ => rfl
    | received caller request reply rest lock replies =>
        apply finish_fails failing.failed
        intro late
        have none := (failing.nothing late).1
        rw [replies] at none
        cases none
    | joined caller request reply panicked lock =>
        apply finish_fails failing.failed
        intro late
        exact absurd lock ((failing.nothing late).2 caller request reply)
    | _ => exact failing.failed
  · intro late
    cases free : after.lock with
    | none => exact ⟨(flight_free kept.2 free).1, by simp⟩
    | some holder =>
        -- A holder is in the middle of a late call, or has just begun one.
        cases move with
        | locked caller request held =>
            exact ⟨(flight_free failing.kept.2 held).1, by simp [← free]⟩
        | sent caller request lock => exact ⟨(failing.nothing late).1, by simp [← free]⟩
        | stopping caller request reply rest lock replies joins =>
            have none := (failing.nothing late).1
            rw [replies] at none
            cases none
        | refused | unsent | received | unanswered | joined | unjoined =>
            simp [Config.finish] at free
        | answered reply state thread =>
            have gone := failing.gone
            simp [thread, Thread.Gone] at gone
        | clientDropped held => simp [held] at free
        | _ => exact free ▸ failing.nothing late

theorem late_calls_fail {earlier later : List (Action ι Ω Q)} {middle config : Config ι Ω Q R S}
    (reached : play server earlier {} = some middle) (gone : middle.thread.Gone)
    (played : play server later middle = some config) :
    ∀ done ∈ config.log.drop (middle.log.length + if middle.lock.isSome then 1 else 0),
      done.outcome = none := by
  -- No call that begins after the thread has stopped or died is answered.
  have kept := play_keeps reached
  have failing : FailingFrom server
      (middle.log.length + if middle.lock.isSome then 1 else 0) config := by
    apply play_preserves (fun _ _ _ taken => move_failing (step_moves taken)) played
    refine ⟨gone, kept, ?_, ?_⟩
    · intro done member
      rw [List.drop_eq_nil_of_le (Nat.le_add_right _ _)] at member
      cases member
    · intro late
      cases free : middle.lock with
      | none => exact ⟨(flight_free kept.2 free).1, by simp⟩
      | some holder =>
          rw [free] at late
          simp only [Option.isSome_some, if_true] at late
          omega
  exact failing.failed

end OsClientCerts.RequestReply
