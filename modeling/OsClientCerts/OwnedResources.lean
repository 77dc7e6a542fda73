import Mathlib.Algebra.Order.Group.Multiset

/-!
Resources that are acquired, used and released, as a record of such events. A name
may be acquired several times over; each acquisition is to be released once. The
rules for records follow the scopes of an owner: what a scope acquires it releases
on every way out.
-/

namespace OsClientCerts.OwnedResources

inductive Event (Resource : Type) where
  | acquire (resource : Resource)
  | use (resource : Resource)
  | release (resource : Resource)
  deriving DecidableEq

section
variable {Resource : Type} [DecidableEq Resource]

/-- What is live after an event; none, if it uses or releases what is not live. -/
def Event.apply : Event Resource → Multiset Resource → Option (Multiset Resource)
  | .acquire resource, live => some (resource ::ₘ live)
  | .use resource, live => if resource ∈ live then some live else none
  | .release resource, live => if resource ∈ live then some (live.erase resource) else none

def replay : List (Event Resource) → Multiset Resource → Option (Multiset Resource)
  | [], live => some live
  | event :: rest, live => (event.apply live).bind (replay rest)

/-- Nothing is used or released unless it is live, and this is what is left in the end. -/
def Disciplined (before : Multiset Resource) (events : List (Event Resource))
    (after : Multiset Resource) : Prop :=
  replay events before = some after

variable {before between after : Multiset Resource} {events later : List (Event Resource)}
  {resource : Resource}

theorem Disciplined.nil : Disciplined before [] before := rfl

theorem replay_append (events later : List (Event Resource)) (live : Multiset Resource) :
    replay (events ++ later) live = (replay events live).bind (replay later) := by
  induction events generalizing live with
  | nil => rfl
  | cons event rest ih =>
      simp only [List.cons_append, replay]
      cases event.apply live with
      | none => rfl
      | some next => exact ih next

theorem Disciplined.append (first : Disciplined before events between)
    (second : Disciplined between later after) : Disciplined before (events ++ later) after := by
  unfold Disciplined at first second ⊢
  rw [replay_append, first]
  exact second

theorem disciplined_append_iff :
    Disciplined before (events ++ later) after ↔
      ∃ between, Disciplined before events between ∧ Disciplined between later after := by
  simp only [Disciplined, replay_append, Option.bind_eq_some_iff]

theorem Disciplined.acquire (resource : Resource) :
    Disciplined before [.acquire resource] (resource ::ₘ before) := rfl

theorem Disciplined.use (live : resource ∈ before) : Disciplined before [.use resource] before := by
  simp [Disciplined, replay, Event.apply, live]

theorem Disciplined.release (resource : Resource) :
    Disciplined (resource ::ₘ after) [.release resource] after := by
  simp [Disciplined, replay, Event.apply]

theorem Disciplined.use_first (live : resource ∈ before) (rest : Disciplined before later after) :
    Disciplined before (.use resource :: later) after :=
  (use live).append rest

theorem Event.apply_frame {event : Event Resource} (frame : Multiset Resource)
    (done : event.apply before = some after) :
    event.apply (before + frame) = some (after + frame) := by
  cases event with
  | acquire resource =>
      cases done
      simp [apply]
  | use resource =>
      simp only [apply] at done ⊢
      split at done
      case isTrue live =>
          cases done
          rw [if_pos (Multiset.mem_add.mpr (Or.inl live))]
      case isFalse => cases done
  | release resource =>
      simp only [apply] at done ⊢
      split at done
      case isTrue live =>
          cases done
          rw [if_pos (Multiset.mem_add.mpr (Or.inl live)), Multiset.erase_add_left_pos _ live]
      case isFalse => cases done

theorem Disciplined.frame (frame : Multiset Resource) (done : Disciplined before events after) :
    Disciplined (before + frame) events (after + frame) := by
  induction events generalizing before with
  | nil =>
      cases done
      exact nil
  | cons event rest ih =>
      obtain ⟨next, applied, onward⟩ := Option.bind_eq_some_iff.mp done
      have step := event.apply_frame frame applied
      exact Option.bind_eq_some_iff.mpr ⟨next + frame, step, ih onward⟩

def acquired : List (Event Resource) → Multiset Resource
  | [] => 0
  | .acquire resource :: rest => resource ::ₘ acquired rest
  | .use _ :: rest => acquired rest
  | .release _ :: rest => acquired rest

def released : List (Event Resource) → Multiset Resource
  | [] => 0
  | .acquire _ :: rest => released rest
  | .use _ :: rest => released rest
  | .release resource :: rest => resource ::ₘ released rest

/-- The account of a record: what there was and what came is what went and what is left. -/
theorem Disciplined.account (done : Disciplined before events after) :
    before + acquired events = after + released events := by
  induction events generalizing before with
  | nil =>
      cases done
      rfl
  | cons event rest ih =>
      obtain ⟨next, applied, onward⟩ := Option.bind_eq_some_iff.mp done
      have account := ih onward
      cases event with
      | acquire resource =>
          cases applied
          rw [acquired, released, Multiset.add_cons, ← Multiset.cons_add]
          exact account
      | use resource =>
          simp only [Event.apply] at applied
          split at applied <;> cases applied
          exact account
      | release resource =>
          simp only [Event.apply] at applied
          split at applied
          case isTrue live =>
              cases applied
              have back := Multiset.cons_erase live
              have counted : resource ::ₘ (before.erase resource + acquired rest) =
                  resource ::ₘ (after + released rest) := by rw [account]
              rw [← Multiset.cons_add, back] at counted
              rw [acquired, released, Multiset.add_cons]
              exact counted
          case isFalse => cases applied

theorem Event.needs_live {event : Event Resource}
    (needs : event = .use resource ∨ event = .release resource)
    (applied : event.apply before = some after) : resource ∈ before := by
  rcases needs with rfl | rfl
  all_goals
    simp only [apply] at applied
    split at applied
    case isTrue present => exact present
    case isFalse => cases applied

theorem Disciplined.live {event : Event Resource}
    (done : Disciplined before (events ++ event :: later) after)
    (needs : event = .use resource ∨ event = .release resource) :
    (released events).count resource < (before + acquired events).count resource := by
  obtain ⟨between, first, second⟩ := disciplined_append_iff.mp done
  obtain ⟨next, applied, _⟩ := Option.bind_eq_some_iff.mp second
  have positive := Multiset.count_pos.mpr (event.needs_live needs applied)
  rw [first.account, Multiset.count_add]
  omega

end

structure Recorded (Resource α : Type) where
  events : List (Event Resource)
  result : α

section
variable {Resource α β : Type}

instance : Monad (Recorded Resource) where
  pure value := ⟨[], value⟩
  bind program next :=
    ⟨program.events ++ (next program.result).events, (next program.result).result⟩

def acquiring (resource : Resource) : Recorded Resource Unit := ⟨[.acquire resource], ()⟩

def borrowing (resource : Resource) : Recorded Resource Unit := ⟨[.use resource], ()⟩

def releasing (resource : Resource) : Recorded Resource Unit := ⟨[.release resource], ()⟩

/-- The resource is released when its scope is left, in whatever way. -/
def owning (resource : Resource) (body : Recorded Resource α) : Recorded Resource α :=
  ⟨body.events ++ [.release resource], body.result⟩

@[simp] theorem result_pure (value : α) : (pure value : Recorded Resource α).result = value := rfl

@[simp] theorem result_bind (program : Recorded Resource α) (next : α → Recorded Resource β) :
    (program >>= next).result = (next program.result).result := rfl

@[simp] theorem result_owning (resource : Resource) (body : Recorded Resource α) :
    (owning resource body).result = body.result := rfl

variable [DecidableEq Resource]

/-- From what is live before, the program is disciplined, and leaves what is given for its
result. -/
def Leaves (before : Multiset Resource) (program : Recorded Resource α)
    (after : α → Multiset Resource) : Prop :=
  Disciplined before program.events (after program.result)

variable {before : Multiset Resource} {resource : Resource}

theorem Leaves.pure {value : α} {after : α → Multiset Resource} (same : after value = before) :
    Leaves before (pure value) after := by
  rw [← same]
  exact Disciplined.nil

theorem Leaves.bind {program : Recorded Resource α} {next : α → Recorded Resource β}
    {between : α → Multiset Resource} {after : β → Multiset Resource}
    (first : Leaves before program between)
    (second : Leaves (between program.result) (next program.result) after) :
    Leaves before (program >>= next) after :=
  Disciplined.append first second

theorem Leaves.borrowing (live : resource ∈ before) :
    Leaves before (borrowing resource) fun _ => before :=
  Disciplined.use live

theorem Leaves.acquiring : Leaves before (acquiring resource) fun _ => resource ::ₘ before :=
  Disciplined.acquire resource

theorem Leaves.releasing : Leaves (resource ::ₘ before) (releasing resource) fun _ => before :=
  Disciplined.release resource

theorem Leaves.owning {body : Recorded Resource α} {after : α → Multiset Resource}
    (inner : Leaves before body fun result => resource ::ₘ after result) :
    Leaves before (owning resource body) after :=
  Disciplined.append inner (Disciplined.release resource)

theorem Leaves.frame {program : Recorded Resource α} {after : α → Multiset Resource}
    (frame : Multiset Resource) (done : Leaves before program after) :
    Leaves (before + frame) program fun result => after result + frame :=
  Disciplined.frame frame done

theorem Leaves.fold {items : List β} {turn : α → β → Recorded Resource α}
    (kept : ∀ state item, item ∈ items → Leaves before (turn state item) fun _ => before)
    (start : α) : Leaves before (items.foldlM turn start) fun _ => before := by
  induction items generalizing start with
  | nil => exact Leaves.pure rfl
  | cons item rest ih =>
      rw [List.foldlM_cons]
      exact (kept start item List.mem_cons_self).bind
        (ih (fun state other member => kept state other (List.mem_cons_of_mem item member)) _)

end

@[simp] theorem result_fold {Resource α β : Type} {turn : α → β → Recorded Resource α}
    {items : List β} {start : α} : (items.foldlM turn start).result =
      items.foldl (fun state item => (turn state item).result) start := by
  induction items generalizing start with
  | nil => rfl
  | cons item rest ih => rw [List.foldlM_cons, result_bind, ih, List.foldl_cons]

section
variable {Resource ε α β : Type}

def calling (resource : Resource) (result : Except ε α) : ExceptT ε (Recorded Resource) α :=
  ExceptT.mk ⟨[.use resource], result⟩

@[simp] theorem result_calling (resource : Resource) (result : Except ε α) :
    (calling resource result).run.result = result := rfl

@[simp] theorem result_bind_except (program : ExceptT ε (Recorded Resource) α)
    (next : α → ExceptT ε (Recorded Resource) β) :
    (program >>= next).run.result = program.run.result >>= fun value => (next value).run.result := by
  change (program.run >>= ExceptT.bindCont next).result = _
  rw [result_bind]
  cases program.run.result <;> rfl

variable [DecidableEq Resource] {before : Multiset Resource}

theorem Leaves.calling {resource : Resource} {result : Except ε α} (live : resource ∈ before) :
    Leaves before (calling resource result).run fun _ => before :=
  Disciplined.use live

theorem Leaves.bind_except {program : ExceptT ε (Recorded Resource) α}
    {next : α → ExceptT ε (Recorded Resource) β} {between : Except ε α → Multiset Resource}
    {after : Except ε β → Multiset Resource} (first : Leaves before program.run between)
    (failed : ∀ err, program.run.result = .error err → after (.error err) = between (.error err))
    (second : ∀ value, program.run.result = .ok value →
      Leaves (between (.ok value)) (next value).run after) :
    Leaves before (program >>= next).run after := by
  change Leaves before (program.run >>= ExceptT.bindCont next) after
  refine first.bind ?_
  cases ended : program.run.result with
  | error err => exact Leaves.pure (failed err ended)
  | ok value => exact second value ended

end
end OsClientCerts.OwnedResources
