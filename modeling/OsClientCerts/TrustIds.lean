import OsClientCerts.ActiveObjects
import OsClientCerts.DerReader

/-!
The ids of trust records: an issuer with a serial number after it, and nothing between. An
issuer is a DER element, which says itself where it ends, so the two can be told apart again
and no record is taken for another one.
-/

namespace OsClientCerts
open LocalAutomata

def CompleteElement (element : Bytes) : Prop :=
  ∃ tag content, DerCursor.outcome (DerCursor.read tag) element = (.ok content, [])

theorem CompleteElement.reads {element : Bytes} (complete : CompleteElement element) :
    ∃ tag content, element.head? = some tag ∧
      ∀ rest, Der.read (element ++ rest) tag = .ok (content, rest) := by
  -- Whatever comes after a complete element, the reader stops where the element ends.
  obtain ⟨tag, content, accepted⟩ := complete
  rw [DerCursor.read_outcome] at accepted
  cases done : Der.read element tag with
  | error failure =>
      rw [done] at accepted
      cases congrArg Prod.fst accepted
  | ok taken =>
      rw [done] at accepted
      obtain ⟨same, nothing⟩ := Prod.mk.inj accepted
      obtain ⟨short, whole⟩ := Der.read_sound done
      rw [nothing, List.append_nil] at whole
      refine ⟨tag, taken.1, ?_, fun rest => ?_⟩
      · rw [whole]
        rfl
      · rw [whole]
        exact Der.read_complete short tag rest

theorem complete_elements_split {element other rest otherRest : Bytes}
    (complete : CompleteElement element) (completeToo : CompleteElement other)
    (same : element ++ rest = other ++ otherRest) : element = other ∧ rest = otherRest := by
  obtain ⟨tag, content, first, reads⟩ := complete.reads
  obtain ⟨otherTag, otherContent, firstToo, readsToo⟩ := completeToo.reads
  have tags : tag = otherTag := by
    have front := congrArg List.head? same
    rw [List.head?_append, List.head?_append, first, firstToo] at front
    exact Option.some.inj front
  have read : Der.read (element ++ rest) tag = .ok (otherContent, otherRest) := by
    rw [same, tags]
    exact readsToo otherRest
  rw [reads rest] at read
  have behind : rest = otherRest := congrArg Prod.snd (Except.ok.inj read)
  subst behind
  exact ⟨List.append_cancel_right same, rfl⟩

namespace Manager
variable {B : Backend}

def Entered (turns : List B.Object) (object : B.Object) : Prop :=
  ∃ earlier later, turns = earlier ++ later ∧
    ∃ handle : CkObjectHandle, (registryOf earlier).objects[handle]? = some object

theorem Entered.later {turns : List B.Object} {object : B.Object} (entered : Entered turns object)
    (more : List B.Object) : Entered (turns ++ more) object := by
  obtain ⟨earlier, later, split, held⟩ := entered
  exact ⟨earlier, later ++ more, by rw [split, List.append_assoc], held⟩

theorem Entered.listed {turns : List B.Object} {object : B.Object}
    (entered : Entered turns object) : object ∈ turns := by
  obtain ⟨earlier, later, rfl, handle, held⟩ := entered
  rcases register_all_objects {} held with old | listed
  · simp at old
  · exact List.mem_append_left later listed

theorem entered_of_known {turns : List B.Object} {kind : ObjectKind} {id : Bytes}
    (known : id ∈ (registryOf turns).ids kind) :
    ∃ object, Entered turns object ∧ B.ident object = (kind, id) := by
  -- An id is known only where an object that has it was entered.
  induction turns using List.reverseRecOn with
  | nil => cases kind <;> simp [registryOf, ids] at known
  | append_singleton turns object ih =>
      by_cases old : id ∈ (registryOf turns).ids kind
      · obtain ⟨entered, before, ident⟩ := ih old
        exact ⟨entered, before.later [object], ident⟩
      · -- It is this turn that has made the id known.
        rw [registry_of_concat] at known
        have same : (kind, id) = B.ident object :=
          ((register_ids _ object kind id).mp known).resolve_left old
        have unknown : (B.ident object).2 ∉ (registryOf turns).ids (B.ident object).1 := by
          rw [← same]
          exact old
        refine ⟨object, ⟨turns ++ [object], [], by simp, (registryOf turns).nextHandle, ?_⟩,
          same.symm⟩
        rw [registry_of_concat]
        exact register_unknown unknown

theorem registry_of_handed_out (turns : List B.Object) :
    (registryOf turns : Manager B).HandedOut :=
  (register_all_grows turns {}).handedOut empty_handed_out

/-- What has been entered is there as long as there are handles for all. -/
theorem entered_iff {turns : List B.Object} {object : B.Object}
    (few : (registryOf turns : Manager B).registered ≤ B.target.ulongModulus) :
    Entered turns object ↔
      ∃ handle : CkObjectHandle, (registryOf turns).objects[handle]? = some object := by
  constructor
  · rintro ⟨earlier, later, rfl, handle, held⟩
    rw [registry_of_append] at few ⊢
    have grows := register_all_grows later (registryOf earlier)
    exact ⟨handle, grows.kept (registry_of_handed_out earlier) few handle object held⟩
  · intro held
    exact ⟨turns, [], (List.append_nil turns).symm, held⟩

end Manager

namespace Windows

theorem trust_id_tells {trust other : Trust} (complete : CompleteElement trust.issuer)
    (completeToo : CompleteElement other.issuer) (same : trust.id = other.id) :
    (trust.issuer, trust.serialNumber) = (other.issuer, other.serialNumber) := by
  obtain ⟨issuers, serials⟩ := complete_elements_split complete completeToo same
  rw [issuers, serials]

theorem trust_unknown {turns : List backend.Object} {trust : Trust}
    (complete : CompleteElement trust.issuer)
    (apart : ∀ known : Trust, Manager.Entered turns (.trust known) →
      CompleteElement known.issuer ∧
        (known.issuer, known.serialNumber) ≠ (trust.issuer, trust.serialNumber)) :
    trust.id ∉ (Manager.registryOf turns : Manager backend).trustIds := by
  intro known
  have listed : trust.id ∈ (Manager.registryOf turns : Manager backend).ids .trust := known
  obtain ⟨object, entered, ident⟩ := Manager.entered_of_known listed
  cases object with
  | cert cert => cases (Prod.mk.inj ident).1
  | key key => cases (Prod.mk.inj ident).1
  | trust other =>
      obtain ⟨completeToo, different⟩ := apart other entered
      exact different (trust_id_tells completeToo complete (Prod.mk.inj ident).2)

end Windows

/-- An issuer and a serial number can be read off their concatenation, so a trust record that
differs from all those entered so far is entered in its turn, in every scan. -/
theorem trust_ids_apart :
    (∀ issuer other serial otherSerial : Bytes,
      CompleteElement issuer → CompleteElement other →
      issuer ++ serial = other ++ otherSerial → issuer = other ∧ serial = otherSerial) ∧
    ∀ (os : Windows.Cng) (run : List (ManagerStep Windows.backend)),
      Manager.SameObjects (Manager.registryOf (Manager.turns os run))
        (after Manager.step run (Manager.new os : Manager Windows.backend)) ∧
      ∀ (earlier later : List Windows.backend.Object) (trust : Windows.Trust),
        Manager.turns os run = earlier ++ .trust trust :: later →
        CompleteElement trust.issuer →
        (∀ known : Windows.Trust, Manager.Entered earlier (.trust known) →
          CompleteElement known.issuer ∧
            (known.issuer, known.serialNumber) ≠ (trust.issuer, trust.serialNumber)) →
        let registry : Manager Windows.backend := Manager.registryOf earlier
        (registry.registerObject (.trust trust)).objects[registry.nextHandle]? =
            some (.trust trust) ∧
          ((after Manager.step run (Manager.new os : Manager Windows.backend)).registered ≤
              Windows.backend.target.ulongModulus →
            ∃ handle : CkObjectHandle,
              (after Manager.step run (Manager.new os : Manager Windows.backend)).objects[handle]? =
                some (.trust trust)) := by
  refine ⟨?_, fun os run => ⟨Manager.reached_registry os run, ?_⟩⟩
  · intro issuer other serial otherSerial complete completeToo same
    exact complete_elements_split complete completeToo same
  · intro earlier later trust split complete apart registry
    have unknown : (Windows.backend.ident (.trust trust)).2 ∉
        registry.ids (Windows.backend.ident (.trust trust)).1 :=
      Windows.trust_unknown complete apart
    have inserted := Manager.register_unknown unknown
    refine ⟨inserted, fun few => ?_⟩
    have entered : Manager.Entered (Manager.turns os run) (.trust trust) := by
      refine ⟨earlier ++ [.trust trust], later, ?_, registry.nextHandle, ?_⟩
      · rw [split, List.append_assoc]
        rfl
      · rw [Manager.registry_of_append]
        exact inserted
    have same := Manager.reached_registry os run
    rw [same.registered] at few
    rw [same.objects]
    exact (Manager.entered_iff few).mp entered

/-- The second id goes on where the first one ends. -/
theorem second_trust_entered :
    let first : Windows.Trust := ⟨[], [1], [0x30, 1, 5], [7], [], [], [], [], [], []⟩
    let second : Windows.Trust := { first with serialNumber := [7, 0] }
    ∃ handle : CkObjectHandle, (Manager.new (Windows.Cng.holding 0
      [.trust first, .trust second]) : Manager Windows.backend).objects[handle]? =
        some (.trust second) := by
  intro first second
  have complete : CompleteElement [0x30, 1, 5] := ⟨0x30, [5], rfl⟩
  have laws := (trust_ids_apart.2 (.holding 0 [.trust first, .trust second]) []).2
    [.trust first] [] second rfl complete
  refine (laws ?_).2 (by decide)
  intro known entered
  have same : (.trust known : Windows.backend.Object) = .trust first :=
    List.mem_singleton.mp entered.listed
  cases same
  exact ⟨complete, by decide⟩

end OsClientCerts
