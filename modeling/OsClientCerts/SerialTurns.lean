import OsClientCerts.LocalAutomata

/-!
Parties that take turns at one shared value, in any interleaving. If every step changes the
value as the turns taken in it do, the value after a run is what the turns make of it one
after the other, and if every party keeps count of its own, the order holds each turn of a
party once and in the order of that party.
-/

namespace OsClientCerts.SerialTurns
open LocalAutomata

variable {σ E τ T P K : Type} (step : E → σ → σ) (turns : E → σ → List T)

def order : List E → σ → List T
  | [], _ => []
  | event :: rest, state => turns event state ++ order rest (step event state)

def inOrder (take : T → τ → τ) (taken : List T) (value : τ) : τ :=
  taken.foldl (fun current turn => take turn current) value

def ownTurns [DecidableEq P] (owner : T → Option P) (name : T → K) (party : P) (taken : List T) :
    List K :=
  (taken.filter fun turn => owner turn = some party).map name

variable {step turns}

theorem order_append (earlier later : List E) (state : σ) :
    order step turns (earlier ++ later) state =
      order step turns earlier state ++ order step turns later (after step earlier state) := by
  induction earlier generalizing state with
  | nil => rfl
  | cons event rest ih => simp [order, ih]

theorem own_turns_append [DecidableEq P] {owner : T → Option P} {name : T → K} {party : P}
    (earlier later : List T) : ownTurns owner name party (earlier ++ later) =
      ownTurns owner name party earlier ++ ownTurns owner name party later := by
  simp [ownTurns]

/-- Every interleaving is some order of turns. -/
theorem serial {take : T → τ → τ} {value : σ → τ} {ok : E → Prop}
    (changes : ∀ event state, ok event → value (step event state) =
      inOrder take (turns event state) (value state))
    {run : List E} (all : ∀ event ∈ run, ok event) (state : σ) :
    value (after step run state) = inOrder take (order step turns run state) (value state) := by
  induction run generalizing state with
  | nil => rfl
  | cons event rest ih =>
      have here := changes event state (all event List.mem_cons_self)
      have onward := ih (fun other member => all other (List.mem_cons_of_mem event member))
        (step event state)
      rw [after_cons, onward, here, order, inOrder, inOrder, inOrder, List.foldl_append]

/-- What a party has counted are its turns in that order. -/
theorem own_turns [DecidableEq P] {owner : T → Option P} {name : T → K}
    {counted : P → σ → List K}
    (counts : ∀ event state party, counted party (step event state) =
      counted party state ++ ownTurns owner name party (turns event state))
    (run : List E) (state : σ) (party : P) :
    counted party (after step run state) =
      counted party state ++ ownTurns owner name party (order step turns run state) := by
  induction run generalizing state with
  | nil => simp [order, ownTurns]
  | cons event rest ih =>
      rw [after_cons, ih, counts, order, own_turns_append, List.append_assoc]

end OsClientCerts.SerialTurns
