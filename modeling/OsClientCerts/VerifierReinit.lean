import OsClientCerts.GuardedRuns

/-!
The rebuild of the certificate verifier when a compose window opens: the preference for
enterprise roots is switched on, the import is awaited, and the preference is put back.
The calls of several windows overlap at their awaits and share the one preference.
-/

namespace OsClientCerts.CertCleanup
open GuardedRuns

/-- The promise of `waitForObserverTopic` until it settles, and the result of the call once
it has returned. -/
inductive Wait where
  | waiting
  | fired
  | timedOut
  | returned (ok : Bool)
  deriving DecidableEq

structure Reinit where
  original : Bool
  wait : Wait
  deriving DecidableEq

structure Verifier where
  enterpriseRoots : Bool
  calls : List Reinit

inductive VerifierEvent where
  /-- A compose window is hooked. -/
  | reinit
  /-- The topic "psm:enterprise-certs-imported" fires. -/
  | imported
  | timeout (call : Nat)
  /-- A call goes on after its wait. -/
  | resume (call : Nat)
  deriving DecidableEq

namespace Verifier

def reinitCertVerifier (verifier : Verifier) : Verifier :=
  let original := verifier.enterpriseRoots
  let forced := if original then { verifier with enterpriseRoots := false } else verifier
  { forced with enterpriseRoots := true, calls := verifier.calls ++ [⟨original, .waiting⟩] }

def observe (verifier : Verifier) : Verifier :=
  { verifier with calls := verifier.calls.map fun call =>
      if call.wait = .waiting then { call with wait := .fired } else call }

def timeout (verifier : Verifier) (call : Nat) : Verifier :=
  match verifier.calls[call]? with
  | some ⟨original, .waiting⟩ =>
      { verifier with calls := verifier.calls.set call ⟨original, .timedOut⟩ }
  | _ => verifier

def resume (verifier : Verifier) (call : Nat) : Verifier :=
  match verifier.calls[call]? with
  | some ⟨original, .fired⟩ =>
      let restored := if !original then { verifier with enterpriseRoots := false } else verifier
      { restored with calls := verifier.calls.set call ⟨original, .returned true⟩ }
  -- The wait has thrown: the call is over, and nothing is put back.
  | some ⟨original, .timedOut⟩ =>
      { verifier with calls := verifier.calls.set call ⟨original, .returned false⟩ }
  | _ => verifier

def step : VerifierEvent → Verifier → Verifier
  | .reinit, verifier => verifier.reinitCertVerifier
  | .imported, verifier => verifier.observe
  | .timeout call, verifier => verifier.timeout call
  | .resume call, verifier => verifier.resume call

def afterRun (initial : Bool) (run : List VerifierEvent) : Verifier :=
  LocalAutomata.after step run ⟨initial, []⟩

def AllReturned (verifier : Verifier) : Prop :=
  ∀ call ∈ verifier.calls, call.wait = .returned true ∨ call.wait = .returned false

/-- A call that found the preference off goes on after its notification. -/
def Restores (event : VerifierEvent) (verifier : Verifier) : Prop :=
  ∃ call, event = .resume call ∧ verifier.calls[call]? = some ⟨false, .fired⟩

theorem timeout_enabled (verifier : Verifier) (call : Nat) :
    (verifier.timeout call).enterpriseRoots = verifier.enterpriseRoots := by
  unfold timeout
  split <;> rfl

/-- Only a start switches the preference on, and only a notified call that found it off
switches it off. -/
theorem enabled_step (event : VerifierEvent) (verifier : Verifier) :
    event = .reinit ∧ (step event verifier).enterpriseRoots = true ∨
      Restores event verifier ∧ (step event verifier).enterpriseRoots = false ∨
      event ≠ .reinit ∧ ¬Restores event verifier ∧
        (step event verifier).enterpriseRoots = verifier.enterpriseRoots := by
  cases event with
  | reinit => exact Or.inl ⟨rfl, rfl⟩
  | imported =>
      refine Or.inr (Or.inr ⟨nofun, ?_, rfl⟩)
      rintro ⟨_, ⟨⟩, _⟩
  | timeout call =>
      refine Or.inr (Or.inr ⟨nofun, ?_, timeout_enabled verifier call⟩)
      rintro ⟨_, ⟨⟩, _⟩
  | resume call =>
      match found : verifier.calls[call]? with
      | some ⟨false, .fired⟩ =>
          exact Or.inr (Or.inl ⟨⟨call, rfl, found⟩, by simp [step, resume, found]⟩)
      | some ⟨true, .fired⟩ | some ⟨_, .timedOut⟩ | some ⟨_, .waiting⟩
      | some ⟨_, .returned _⟩ | none =>
          refine Or.inr (Or.inr ⟨nofun, ?_, by simp [step, resume, found]⟩)
          rintro ⟨_, ⟨⟩, held⟩
          simp [found] at held

theorem restores_not_reinit {event : VerifierEvent} {verifier : Verifier}
    (restores : Restores event verifier) : event ≠ .reinit := by
  rintro rfl
  obtain ⟨_, ⟨⟩, _⟩ := restores

theorem originals_step (event : VerifierEvent) (verifier : Verifier) :
    (step event verifier).calls.map Reinit.original = verifier.calls.map Reinit.original ++
      if event = .reinit then [verifier.enterpriseRoots] else [] := by
  cases event with
  | reinit => simp [step, reinitCertVerifier]
  | imported =>
      simp only [step, observe, List.map_map]
      simp
      intro call _
      split <;> rfl
  | timeout call =>
      match found : verifier.calls[call]? with
      | some ⟨original, .waiting⟩ =>
          simpa [step, timeout, found] using map_set_same Reinit.original found rfl
      | some ⟨_, .fired⟩ | some ⟨_, .timedOut⟩ | some ⟨_, .returned _⟩ | none =>
          simp [step, timeout, found]
  | resume call =>
      match found : verifier.calls[call]? with
      | some ⟨original, .fired⟩ =>
          simpa [step, resume, found] using map_set_same Reinit.original found rfl
      | some ⟨original, .timedOut⟩ =>
          simpa [step, resume, found] using map_set_same Reinit.original found rfl
      | some ⟨_, .waiting⟩ | some ⟨_, .returned _⟩ | none => simp [step, resume, found]

/-- A preference that was on stays on: every call has found it on. -/
structure AlwaysOn (verifier : Verifier) : Prop where
  enabled : verifier.enterpriseRoots = true
  found : ∀ original ∈ verifier.calls.map Reinit.original, original = true

theorem always_on_step (event : VerifierEvent) (verifier : Verifier)
    (always : verifier.AlwaysOn) : (step event verifier).AlwaysOn := by
  constructor
  · rcases enabled_step event verifier with ⟨_, on⟩ | ⟨⟨call, _, held⟩, _⟩ | ⟨_, _, same⟩
    · exact on
    · have listed : false ∈ verifier.calls.map Reinit.original :=
        List.mem_map.mpr ⟨_, List.mem_of_getElem? held, rfl⟩
      exact absurd (always.found false listed) (by decide)
    · rw [same, always.enabled]
  · intro original member
    rw [originals_step, List.mem_append] at member
    rcases member with earlier | new
    · exact always.found original earlier
    · split at new
      · rw [List.mem_singleton.mp new, always.enabled]
      · cases new

theorem off_iff (run : List VerifierEvent) :
    (afterRun false run).enterpriseRoots = false ↔
      .reinit ∉ run ∨ Since step Restores (· = .reinit) run ⟨false, []⟩ := by
  induction run using List.reverseRec with
  | nil => simp [afterRun]
  | append_singleton run event ih =>
      have last : afterRun false (run ++ [event]) = step event (afterRun false run) :=
        LocalAutomata.after_concat step run event _
      rw [since_append_singleton, last]
      change _ ↔ _ ∨ Restores event (afterRun false run) ∨ _
      rcases enabled_step event (afterRun false run) with
        ⟨rfl, on⟩ | ⟨restores, off⟩ | ⟨other, quiet, same⟩
      · have none : ¬Restores .reinit (afterRun false run) :=
          fun restores => restores_not_reinit restores rfl
        simp [on, none]
      · simp [off, restores]
      · rw [same, ih]
        simp [other, quiet, Ne.symm other]

/-- At every point of a run, and so once all calls have returned, the preference has its
first value exactly when it was on, or no call has started, or after the last start a call
that had found it off was notified. -/
theorem reinit_restores_iff (initial : Bool) (run : List VerifierEvent) :
    (afterRun initial run).enterpriseRoots = initial ↔
      initial = true ∨ .reinit ∉ run ∨
        Since step Restores (· = .reinit) run ⟨initial, []⟩ := by
  cases initial with
  | false => simpa using off_iff run
  | true =>
      have always : (afterRun true run).AlwaysOn := always_preserved always_on_step run ⟨rfl, nofun⟩
      simp [always.enabled]

/-- One window, whose import is not notified in time. -/
theorem timed_out_call_leaves_roots_on : ¬∀ (initial : Bool) (run : List VerifierEvent),
    (afterRun initial run).AllReturned → (afterRun initial run).enterpriseRoots = initial := by
  intro claim
  have restored := claim false [.reinit, .timeout 0, .resume 0] (by
    have calls : (afterRun false [.reinit, .timeout 0, .resume 0]).calls =
        [⟨false, .returned false⟩] := rfl
    intro call member
    rw [calls] at member
    exact Or.inr (List.mem_singleton.mp member ▸ rfl))
  exact absurd restored (by decide)

end Verifier
end OsClientCerts.CertCleanup
