import OsClientCerts.RegistryInvariant
import OsClientCerts.SearchPaging

/-!
What a search finds, against the plain definition: every registered object that
matches. The way out for attribute types outside the list hides nothing, provided
the list covers what the objects match on; and nothing is only reported as not
found if the stores have just been looked at.
-/

namespace OsClientCerts
open LocalAutomata

/-- No object matches an attribute that is not on the list of supported ones. -/
def Backend.CoversMatches (B : Backend) : Prop :=
  ∀ object attrs, B.objectMatches object attrs = true →
    ∀ attr ∈ attrs, attr.1 ∈ B.supportedAttributes

/-- All that a scan returned is known to the manager, and registered as long as
there are handles. -/
structure Merged {B : Backend} (manager : Manager B) (scan : B.Os) : Prop where
  noted : ∀ object ∈ B.listObjects scan, (B.ident object).2 ∈ manager.ids (B.ident object).1
  represented : manager.Unwrapped → ∀ object ∈ B.listObjects scan,
    ∃ (handle : CkObjectHandle) (first : B.Object),
      manager.objects[handle]? = some first ∧ B.ident first = B.ident object

namespace Manager
variable {B : Backend}

theorem mem_selected (covers : B.CoversMatches) (manager : Manager B)
    (attrs : List (CkAttributeType × Bytes)) (handle : CkObjectHandle) :
    handle ∈ manager.selected attrs ↔
      ∃ object, manager.objects[handle]? = some object ∧ B.objectMatches object attrs = true := by
  unfold selected
  split
  case isTrue unsupported =>
      constructor
      · exact fun none => absurd none List.not_mem_nil
      · rintro ⟨object, _, matching⟩
        obtain ⟨attr, member, missing⟩ := List.any_eq_true.mp unsupported
        exact absurd (covers object attrs matching attr member) (by simpa using missing)
  case isFalse => exact mem_matching

theorem merged_of_scan (os : B.Os) (run : List (ManagerStep B)) {scan : B.Os}
    (member : scan ∈ allScans os run) :
    Merged (after step run (new os : Manager B)) scan where
  noted object listed := by
    rw [reached_ids]
    exact List.mem_map.mpr ⟨object, List.mem_flatMap.mpr ⟨scan, member, listed⟩, rfl⟩
  represented unwrapped object listed := by
    obtain ⟨handle, first, found, same, _⟩ :=
      (reached_registers os run unwrapped).invariant.represented scan member object listed
    exact ⟨handle, first, found, same⟩

/-- A search that looks at the objects and finds none has scanned, unless it is too
early for another scan. -/
theorem nothing_selected_scans {manager : Manager B} {os : B.Os} {session : CkSessionHandle}
    {attrs : List (CkAttributeType × Bytes)}
    (started : (manager.startSearch os session attrs).1 = .ok ())
    (supported : ∀ attr ∈ attrs, attr.1 ∈ B.supportedAttributes)
    (nothing : (manager.startSearch os session attrs).2.selected attrs = []) :
    scanBy (os, .startSearch session attrs) manager = some os ∨
      manager.scanDue os 250 = false := by
  have listed : attrs.any (fun attr => attr.1 ∉ B.supportedAttributes) = false := by
    rw [List.any_eq_false]
    intro attr member
    simpa using supported attr member
  unfold startSearch at started nothing
  unfold scanBy
  by_cases busy : manager.searches.contains session = true
  · rw [if_pos busy] at started
    cases started
  · rw [if_neg busy, if_neg (by rw [listed]; exact nofun)] at nothing
    simp only [busy, listed, Bool.false_eq_true, ↓reduceIte]
    by_cases empty : (matchingHandles manager.objects attrs).isEmpty = true
    · rw [if_pos empty]
      by_cases due : manager.scanDue os 250 = true
      · exact Or.inl (if_pos due)
      · exact Or.inr (Bool.eq_false_iff.mpr due)
    · -- A search that finds something at once has found it for good.
      simp only [empty, Bool.false_eq_true, ↓reduceIte, selected, listed] at nothing
      rw [nothing] at empty
      exact absurd rfl empty

theorem scan_not_due {manager : Manager B} {os : B.Os} {minInterval : Nat} {last : Nat}
    (noted : manager.lastScanTime = some last) (early : manager.scanDue os minInterval = false) :
    B.now os < last + minInterval := by
  unfold scanDue at early
  rw [noted] at early
  simp only [Bool.not_eq_false', decide_eq_true_eq] at early
  omega

end Manager

/-- A search that was started in a state reached by a run: it found exactly what
matches, and if that is nothing, a scan of less than 250 ms ago is in the registry. -/
structure ExactAndFresh {B : Backend} (os : B.Os) (run : List (ManagerStep B)) (now : B.Os)
    (session : CkSessionHandle) (attrs : List (CkAttributeType × Bytes)) (after : Manager B) :
    Prop where
  exact : ∃ found, after.searches[session]? = some found ∧ found.Nodup ∧
    ∀ handle, handle ∈ found ↔
      ∃ object, after.objects[handle]? = some object ∧ B.objectMatches object attrs = true
  fresh : after.searches[session]? = some [] →
    (∀ attr ∈ attrs, attr.1 ∈ B.supportedAttributes) →
    ∃ scan ∈ Manager.allScans os (run ++ [(now, .startSearch session attrs)]),
      B.now now < B.now scan + 250 ∧ Merged after scan

theorem search_exact_and_fresh {B : Backend} (covers : B.CoversMatches) {os now : B.Os}
    {run : List (ManagerStep B)} {session : CkSessionHandle}
    {attrs : List (CkAttributeType × Bytes)}
    (started :
      ((after Manager.step run (Manager.new os)).startSearch now session attrs).1 = .ok ()) :
    ExactAndFresh os run now session attrs
      ((after Manager.step run (Manager.new os)).startSearch now session attrs).2 := by
  have stored := Manager.start_search_stores started
  have reached : after Manager.step (run ++ [(now, .startSearch session attrs)]) (Manager.new os) =
      ((after Manager.step run (Manager.new os)).startSearch now session attrs).2 := by
    rw [after_append]
    rfl
  refine ⟨⟨_, stored, Manager.selected_nodup _ attrs, Manager.mem_selected covers _ attrs⟩, ?_⟩
  intro empty supported
  rw [stored, Option.some.injEq] at empty
  rcases Manager.nothing_selected_scans started supported empty with scanned | early
  · have member : now ∈ Manager.allScans os (run ++ [(now, .startSearch session attrs)]) := by
      simp [Manager.allScans, Manager.scans_append, Manager.scans, scanned]
    refine ⟨now, member, Nat.lt_add_of_pos_right (by decide), ?_⟩
    rw [← reached]
    exact Manager.merged_of_scan os _ member
  · obtain ⟨last, before, noted⟩ := Manager.reached_scan_time os run
    have member : last ∈ Manager.allScans os (run ++ [(now, .startSearch session attrs)]) := by
      rw [Manager.allScans, Manager.scans_append]
      rw [Manager.allScans] at before
      exact List.mem_append_left _ before
    refine ⟨last, member, Manager.scan_not_due noted early, ?_⟩
    rw [← reached]
    exact Manager.merged_of_scan os _ member

namespace Windows

theorem matches_each {object : Object Cert Key Trust} {attrs : List (CkAttributeType × Bytes)} :
    objectMatches object attrs = true ↔
      ∀ attr ∈ attrs, objectMatches object [attr] = true := by
  cases object <;> simp [objectMatches]

theorem supported_of_matches (object : Object Cert Key Trust)
    (attrs : List (CkAttributeType × Bytes)) (matching : objectMatches object attrs = true) :
    ∀ attr ∈ attrs, attr.1 ∈ supportedAttributes := by
  intro attr member
  have one := matches_each.mp matching attr member
  apply Classical.byContradiction
  intro missing
  simp only [supportedAttributes, List.mem_cons, not_or] at missing
  cases object with
  | cert cert => simp [objectMatches, Cert.matchesOne, missing] at one
  | key key => simp [objectMatches, Key.matchesOne, missing] at one
  | trust trust => simp [objectMatches, Trust.matchesOne, missing] at one

theorem covers_matches : backend.CoversMatches := supported_of_matches

/-- On Windows a search finds exactly the registered objects that match its template, whatever
the template, the clock and what happened before. -/
theorem windows_search_exact {os now : Cng} {run : List (ManagerStep backend)}
    {session : CkSessionHandle} {attrs : List (CkAttributeType × Bytes)}
    (started :
      ((after Manager.step run (Manager.new os)).startSearch now session attrs).1 = .ok ()) :
    ExactAndFresh os run now session attrs
      ((after Manager.step run (Manager.new os)).startSearch now session attrs).2 :=
  search_exact_and_fresh covers_matches started

/-- A certificate that appears between two searches is found by the second. -/
theorem windows_search_finds_new :
    let run : List (ManagerStep backend) := [(Cng.holding 100 [], .startSearch 1 [(ckaId, [7])]),
      (Cng.holding 100 [], .clearSearch 1)]
    let new : Cng := .holding 300 [.cert ⟨[], [1], [7], [], [], [], [], []⟩]
    ExactAndFresh (Cng.holding 0 []) run new 1 [(ckaId, [7])]
      ((after Manager.step run (Manager.new (Cng.holding 0 []))).startSearch new 1
        [(ckaId, [7])]).2 := by
  intro run new
  apply windows_search_exact
  rfl

end Windows
end OsClientCerts
