import OsClientCerts.FirstSeen

/-!
Walks of bounded length along a partial function. A walk lists what it comes to and
ends where there is no next element, at an element that stops it, or when its depth
is used up. Several walks can share what they have seen: an element is then
kept once, and no walk is cut short by what another has seen.
-/

namespace OsClientCerts.BoundedWalk
open FirstSeen

variable {α σ : Type} {next : α → Option α}

/-- So many hops from one element to another, each element in between being passed. -/
inductive Hops (next : α → Option α) (passes : α → Prop) : Nat → α → α → Prop where
  | last {current found : α} (step : next current = some found) : Hops next passes 1 current found
  | pass {hops : Nat} {current found target : α} (step : next current = some found)
      (passed : passes found) (onward : Hops next passes hops found target) :
      Hops next passes (hops + 1) current target

def Reached (next : α → Option α) (passes : α → Prop) (depth : Nat) (starts : List α)
    (target : α) : Prop :=
  ∃ start ∈ starts, ∃ hops ≤ depth, Hops next passes hops start target

theorem Hops.weaken {other : α → Option α} {passes lets : α → Prop} {hops : Nat}
    {start target : α} (way : Hops next passes hops start target)
    (steps : ∀ current found, next current = some found → other current = some found)
    (weaker : ∀ found, passes found → lets found) : Hops other lets hops start target := by
  induction way with
  | last step => exact Hops.last (steps _ _ step)
  | pass step passed onward ih => exact Hops.pass (steps _ _ step) (weaker _ passed) ih

theorem Reached.weaken {other : α → Option α} {passes lets : α → Prop} {depth : Nat}
    {starts : List α} {target : α} (reached : Reached next passes depth starts target)
    (steps : ∀ current found, next current = some found → other current = some found)
    (weaker : ∀ found, passes found → lets found) : Reached other lets depth starts target := by
  obtain ⟨start, member, hops, within, way⟩ := reached
  exact ⟨start, member, hops, within, way.weaken steps weaker⟩

def walk (next : α → Option α) (stops : α → Bool) : Nat → α → List α
  | 0, _ => []
  | depth + 1, current =>
      match next current with
      | none => []
      | some found => found :: if stops found then [] else walk next stops depth found

variable {stops : α → Bool}

/-- A walk comes to exactly what it can reach without passing an element that stops it. -/
theorem mem_walk {depth : Nat} {start target : α} :
    target ∈ walk next stops depth start ↔
      ∃ hops ≤ depth, Hops next (fun found => stops found = false) hops start target := by
  induction depth generalizing start with
  | zero =>
      simp only [walk, List.not_mem_nil, false_iff]
      rintro ⟨hops, none, way⟩
      cases way <;> omega
  | succ depth ih =>
      cases step : next start with
      | none =>
          simp only [walk, step, List.not_mem_nil, false_iff]
          rintro ⟨hops, _, way⟩
          cases way <;> simp_all
      | some found =>
          simp only [walk, step, List.mem_cons]
          constructor
          · rintro (rfl | onward)
            · exact ⟨1, by omega, Hops.last step⟩
            · cases stopped : stops found with
              | true => simp [stopped] at onward
              | false =>
                  simp only [stopped, Bool.false_eq_true, if_false] at onward
                  obtain ⟨hops, within, way⟩ := ih.mp onward
                  exact ⟨hops + 1, by omega, Hops.pass step stopped way⟩
          · rintro ⟨hops, within, way⟩
            cases way with
            | last same =>
                rw [step] at same
                exact Or.inl (Option.some.inj same).symm
            | pass same passed onward =>
                rw [step] at same
                cases same
                right
                simp only [passed, Bool.false_eq_true, if_false]
                exact ih.mpr ⟨_, by omega, onward⟩

theorem mem_walks {depth : Nat} {starts : List α} {target : α} :
    target ∈ starts.flatMap (walk next stops depth) ↔
      Reached next (fun found => stops found = false) depth starts target := by
  simp [List.mem_flatMap, mem_walk, Reached]

def walkWith (visit : σ → α → σ) (next : α → Option α) (stops : α → Bool) :
    Nat → α → σ → σ
  | 0, _, state => state
  | depth + 1, current, state =>
      match next current with
      | none => state
      | some found =>
          if stops found then visit state found
          else walkWith visit next stops depth found (visit state found)

theorem walk_with_eq (visit : σ → α → σ) (depth : Nat) (start : α) (state : σ) :
    walkWith visit next stops depth start state =
      (walk next stops depth start).foldl visit state := by
  -- Where a walk goes does not depend on what is done on the way.
  induction depth generalizing start state with
  | zero => rfl
  | succ depth ih =>
      cases step : next start with
      | none => simp [walkWith, walk, step]
      | some found =>
          cases stopped : stops found with
          | true => simp [walkWith, walk, step, stopped]
          | false => simp [walkWith, walk, step, stopped, ih]

variable {κ : Type} [DecidableEq κ] {key : α → κ}

def visited (key : α → κ) (next : α → Option α) (stops : α → Bool) (depth : Nat)
    (starts : List α) : List α := firsts key (starts.flatMap (walk next stops depth))

theorem visited_nodup (depth : Nat) (starts : List α) :
    (visited key next stops depth starts).Nodup :=
  List.Nodup.of_map key (firsts_keys_nodup _)

theorem visited_reached {depth : Nat} {starts : List α} {target : α}
    (member : target ∈ visited key next stops depth starts) :
    Reached next (fun found => stops found = false) depth starts target :=
  mem_walks.mp (firsts_subset _ _ member)

theorem visited_apart {depth : Nat} {starts : List α} {left right : α}
    (first : left ∈ visited key next stops depth starts)
    (second : right ∈ visited key next stops depth starts) (same : key left = key right) :
    left = right :=
  List.inj_on_of_nodup_map (firsts_keys_nodup _) first second same

/-- With a key that tells the elements of the walks apart, nothing is missed. -/
theorem mem_visited {depth : Nat} {starts : List α} {target : α}
    (apart : ∀ left right, Reached next (fun found => stops found = false) depth starts left →
      Reached next (fun found => stops found = false) depth starts right →
      key left = key right → left = right) :
    target ∈ visited key next stops depth starts ↔
      Reached next (fun found => stops found = false) depth starts target := by
  constructor
  · exact visited_reached
  · intro reached
    obtain ⟨first, kept, same, _⟩ := represented key (mem_walks.mpr reached)
    rw [← apart first target (visited_reached kept) reached same]
    exact kept

end OsClientCerts.BoundedWalk
