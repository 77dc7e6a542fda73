import OsClientCerts.ObjectScans
import OsClientCerts.SequentialCalls
import OsClientCerts.WindowsBackend

/-!
What `C_GetAttributeValue` leaves in the template and in the buffers of the caller: each
entry gets its own answer, whatever the other entries are, and two calls in a row, one
for the lengths and one for the values, succeed.
-/

namespace OsClientCerts
open Resumption

section Entry
variable (target : Target) (attr : CkAttribute) (value : Option Bytes)

def TooShort : Prop := ∃ held, value = some held ∧ attr.pValue ≠ null ∧
  attr.ulValueLen < held.length

def written : Bytes :=
  match value with
  | some held => if attr.pValue = null ∨ attr.ulValueLen < held.length then [] else held
  | none => []

def answered : CkAttribute :=
  match value with
  | some held => { attr with ulValueLen := target.asUlong held.length }
  | none => { attr with ulValueLen := target.ulongModulus - 1 }

def filledMemory (addr : Addr) (memory : Memory) : Memory :=
  (memory.setSlice target .bytes attr.pValue (written attr value)).set .attribute addr
    (answered target attr value)

end Entry

theorem store_attribute_run (target : Target) (addr : Addr) (attr : CkAttribute)
    (value : Option Bytes) (caller : Caller) :
    ∃ rv after, storeAttribute target addr attr value caller = .ret (rv, after) ∧
      (rv = .bufferTooSmall ∧ TooShort attr value ∨ rv = .ok ∧ ¬TooShort attr value) ∧
      after.memory = filledMemory target attr value addr caller.memory := by
  unfold storeAttribute
  cases value with
  | none => exact ⟨_, _, rfl, Or.inr ⟨rfl, nofun⟩, rfl⟩
  | some held =>
      by_cases nothing : attr.pValue = null
      · refine ⟨_, _, by simp only [nothing, ↓reduceIte]; rfl, Or.inr ⟨rfl, ?_⟩, ?_⟩
        · rintro ⟨_, _, present, _⟩
          exact present nothing
        · simp [filledMemory, written, answered, nothing, Memory.setSlice]
      · by_cases short : attr.ulValueLen < held.length
        · refine ⟨_, _, by simp only [nothing, short, ↓reduceIte]; rfl,
            Or.inl ⟨rfl, held, rfl, nothing, short⟩, ?_⟩
          simp [filledMemory, written, answered, short, Memory.setSlice]
        · refine ⟨_, _, by simp only [nothing, short, ↓reduceIte]; rfl,
            Or.inr ⟨rfl, ?_⟩, ?_⟩
          · rintro ⟨_, same, _, less⟩
            cases same
            exact short less
          · simp [filledMemory, written, answered, nothing, short]

def filledAll (target : Target) : Addr → List (CkAttribute × Option Bytes) → Memory → Memory
  | _, [], memory => memory
  | addr, (attr, value) :: rest, memory =>
      filledAll target (addr + target.sizeOfAttribute) rest
        (filledMemory target attr value addr memory)

theorem store_attributes_run (target : Target) (entries : List (CkAttribute × Option Bytes))
    (addr : Addr) (rv : CkRv) (caller : Caller) :
    ∃ last after, storeAttributes target addr entries rv caller = .ret (last, after) ∧
      ((∃ entry ∈ entries, TooShort entry.1 entry.2) ∧ last = .bufferTooSmall ∨
        (∀ entry ∈ entries, ¬TooShort entry.1 entry.2) ∧ last = rv) ∧
      after.memory = filledAll target addr entries caller.memory := by
  induction entries generalizing addr rv caller with
  | nil => exact ⟨_, _, rfl, Or.inr ⟨nofun, rfl⟩, rfl⟩
  | cons entry rest ih =>
      obtain ⟨attr, value⟩ := entry
      obtain ⟨one, middle, stored, ended, filled⟩ :=
        store_attribute_run target addr attr value caller
      obtain ⟨last, after, goesOn, code, filledToo⟩ :=
        ih (addr + target.sizeOfAttribute) (if one = .ok then rv else one) middle
      refine ⟨last, after, ?_, ?_, by rw [filledToo, filled]; rfl⟩
      · simp only [storeAttributes, ffi_bind, stored, ret_bind]
        exact goesOn
      · -- A short buffer of the rest decides alone, otherwise this entry does.
        rcases code with ⟨⟨short, member, tooShort⟩, rfl⟩ | ⟨none, rfl⟩
        · exact Or.inl ⟨⟨short, List.mem_cons_of_mem _ member, tooShort⟩, rfl⟩
        · rcases ended with ⟨rfl, tooShort⟩ | ⟨rfl, enough⟩
          · exact Or.inl ⟨⟨_, List.mem_cons_self, tooShort⟩, rfl⟩
          · exact Or.inr ⟨List.forall_mem_cons.mpr ⟨enough, none⟩, rfl⟩

theorem filled_memory_slot (target : Target) (attr : CkAttribute) (value : Option Bytes)
    (addr there : Addr) (memory : Memory) :
    filledMemory target attr value addr memory .attribute there =
      if there = addr then answered target attr value else memory .attribute there := by
  by_cases here : there = addr
  · simp [filledMemory, here]
  · simp [filledMemory, Memory.set, here]

theorem filled_all_before {target : Target} (entries : List (CkAttribute × Option Bytes))
    {addr there : Addr} (memory : Memory) (before : there < addr) :
    filledAll target addr entries memory .attribute there = memory .attribute there := by
  induction entries generalizing addr memory with
  | nil => rfl
  | cons entry rest ih =>
      rw [filledAll, ih _ (Nat.lt_of_lt_of_le before (Nat.le_add_right _ _)), filled_memory_slot,
        if_neg (Nat.ne_of_lt before)]

theorem filled_all_slot {target : Target} {entries : List (CkAttribute × Option Bytes)}
    {index : Nat} {attr : CkAttribute} {value : Option Bytes}
    (entry : entries[index]? = some (attr, value)) (addr : Addr) (memory : Memory) :
    filledAll target addr entries memory .attribute (addr + index * target.sizeOfAttribute) =
      answered target attr value := by
  induction entries generalizing index addr memory with
  | nil => cases entry
  | cons first rest ih =>
      cases index with
      | zero =>
          cases entry
          have size : 0 < target.sizeOfAttribute := by cases target <;> decide
          rw [filledAll, Nat.zero_mul, Nat.add_zero,
            filled_all_before _ _ (Nat.lt_add_of_pos_right size), filled_memory_slot, if_pos rfl]
      | succ index =>
          have shifted : addr + (index + 1) * target.sizeOfAttribute =
              addr + target.sizeOfAttribute + index * target.sizeOfAttribute := by
            rw [Nat.succ_mul, Nat.add_comm (index * _), Nat.add_assoc]
          rw [filledAll, shifted]
          exact ih entry _ _

theorem set_slice_outside (memory : Memory) (target : Target) {start there : Nat}
    (values : Bytes) (outside : there < start ∨ start + values.length ≤ there) :
    memory.setSlice target .bytes start values .bytes there = memory .bytes there := by
  rcases outside with before | behind
  · exact Memory.set_slice_before memory target .bytes values before
  · induction values generalizing memory start with
    | nil => rfl
    | cons value rest ih =>
        rw [List.length_cons] at behind
        have next : start + 1 + rest.length ≤ there := by omega
        have other : there ≠ start := by omega
        refine (ih (memory.set .bytes start value) next).trans ?_
        simp [Memory.set, other]

def Spares (there : Addr) (entry : CkAttribute × Option Bytes) : Prop :=
  there < entry.1.pValue ∨ entry.1.pValue + (written entry.1 entry.2).length ≤ there

theorem filled_all_spares {target : Target} {entries : List (CkAttribute × Option Bytes)}
    {there : Addr} (spares : ∀ entry ∈ entries, Spares there entry) (addr : Addr)
    (memory : Memory) :
    filledAll target addr entries memory .bytes there = memory .bytes there := by
  induction entries generalizing addr memory with
  | nil => rfl
  | cons entry rest ih =>
      rw [filledAll, ih fun other member => spares other (List.mem_cons_of_mem _ member),
        filledMemory, Memory.set_other _ _ _ (by decide)]
      exact set_slice_outside memory target _ (spares entry List.mem_cons_self)

/-- What was copied for an entry stays there if the entries behind it spare it. -/
theorem filled_all_value {target : Target} {entries : List (CkAttribute × Option Bytes)}
    {index : Nat} {attr : CkAttribute} {value : Option Bytes}
    (entry : entries[index]? = some (attr, value))
    (spared : ∀ place < (written attr value).length, ∀ entry ∈ entries.drop (index + 1),
      Spares (attr.pValue + place) entry) (addr : Addr) (memory : Memory) :
    (filledAll target addr entries memory).slice target .bytes attr.pValue
      (written attr value).length = written attr value := by
  induction entries generalizing index addr memory with
  | nil => cases entry
  | cons first rest ih =>
      cases index with
      | succ index => exact ih entry spared _ _
      | zero =>
          cases entry
          have copied := Memory.slice_set_slice memory target attr.pValue (written attr value)
          refine Eq.trans (List.map_congr_left fun place member => ?_) copied
          have inside : place < (written attr value).length := List.mem_range.mp member
          have there : attr.pValue + place * Region.stride target .bytes =
              attr.pValue + place := by rw [Region.stride, Nat.mul_one]
          have behind : ∀ entry ∈ rest, Spares (attr.pValue + place) entry :=
            spared place inside
          rw [there, filledAll, filled_all_spares behind, filledMemory,
            Memory.set_other _ _ _ (by decide)]

def BuffersApart (one other : CkAttribute) : Prop :=
  one.pValue = null ∨ other.pValue = null ∨
    one.pValue + one.ulValueLen ≤ other.pValue ∨ other.pValue + other.ulValueLen ≤ one.pValue

def entryAt (target : Target) (memory : Memory) (pTemplate : Addr) (index : Nat) : CkAttribute :=
  memory .attribute (pTemplate + index * target.sizeOfAttribute)

def Untouched (attr : CkAttribute) (start : Nat) (before after : Memory) : Prop :=
  ∀ place, start ≤ place → place < attr.ulValueLen →
    after .bytes (attr.pValue + place) = before .bytes (attr.pValue + place)

/-- The four outcomes of an entry. -/
def EntryAnswered (target : Target) (before after : Memory) (attr : CkAttribute)
    (value : Option Bytes) (slot : CkAttribute) : Prop :=
  match value with
  | none => slot = { attr with ulValueLen := target.ulongModulus - 1 } ∧
      (attr.pValue ≠ null → Untouched attr 0 before after)
  | some held =>
      slot = { attr with ulValueLen := held.length } ∧
      (attr.pValue ≠ null →
        if attr.ulValueLen < held.length then Untouched attr 0 before after
        else after.slice target .bytes attr.pValue held.length = held ∧
          Untouched attr held.length before after)

theorem answered_type {target : Target} {before after : Memory} {attr slot : CkAttribute}
    {value : Option Bytes} (report : EntryAnswered target before after attr value slot) :
    slot.attrType = attr.attrType := by
  cases value with
  | none => rw [report.1]
  | some held => rw [report.1]

/-- What a call leaves of the memory it was made in, and what it returns. -/
structure TemplateAnswered (B : Backend) (object : B.Object) (pTemplate : Addr) (count : CkUlong)
    (before after : Memory) (rv : CkRv) : Prop where
  entries : ∀ index < count,
    let attr := entryAt B.target before pTemplate index
    EntryAnswered B.target before after attr (B.getAttribute object attr.attrType)
      (entryAt B.target after pTemplate index)
  code : rv = .bufferTooSmall ∧ (∃ index < count,
      let attr := entryAt B.target before pTemplate index
      TooShort attr (B.getAttribute object attr.attrType)) ∨
    rv = .ok ∧ ∀ index < count,
      let attr := entryAt B.target before pTemplate index
      ¬TooShort attr (B.getAttribute object attr.attrType)

section Calls
variable {B : Backend} {object : B.Object}

def ValuesFit (object : B.Object) : Prop :=
  ∀ attrType value, B.getAttribute object attrType = some value →
    value.length < B.target.ulongModulus

def entriesOf (object : B.Object) (pTemplate : Addr) (count : CkUlong) (memory : Memory) :
    List (CkAttribute × Option Bytes) :=
  (memory.slice B.target .attribute pTemplate count).map fun attr =>
    (attr, B.getAttribute object attr.attrType)

theorem entries_of_get {pTemplate : Addr} {count : CkUlong} {memory : Memory} {index : Nat}
    (inside : index < count) : (entriesOf object pTemplate count memory)[index]? =
      some (entryAt B.target memory pTemplate index,
        B.getAttribute object (entryAt B.target memory pTemplate index).attrType) := by
  simp [entriesOf, Memory.slice, inside, entryAt, Region.stride]

theorem mem_entries_of {pTemplate : Addr} {count : CkUlong} {memory : Memory}
    {entry : CkAttribute × Option Bytes} :
    entry ∈ entriesOf object pTemplate count memory ↔ ∃ index < count,
      (entryAt B.target memory pTemplate index,
        B.getAttribute object (entryAt B.target memory pTemplate index).attrType) = entry := by
  simp [entriesOf, Memory.slice, entryAt, Region.stride]

theorem get_attribute_value_alone {manager : Manager B} {hObject : CkObjectHandle}
    {pTemplate : Addr} {count : CkUlong} (registered : manager.objects[hObject]? = some object)
    (present : pTemplate ≠ null) (few : count ≤ maxTemplateCount) (os : Nat → B.Os)
    (memory : Memory) :
    ∃ rv after, (ExportedCall.cGetAttributeValue hObject pTemplate count).alone os memory
        (some manager) = ((rv, after), some manager) ∧
      ((∃ entry ∈ entriesOf object pTemplate count memory, TooShort entry.1 entry.2) ∧
          rv = .bufferTooSmall ∨
        (∀ entry ∈ entriesOf object pTemplate count memory, ¬TooShort entry.1 entry.2) ∧
          rv = .ok) ∧
      after.memory =
        filledAll B.target pTemplate (entriesOf object pTemplate count memory) memory := by
  let read := (Caller.loaded ⟨memory, []⟩ .attribute pTemplate count).loaded .attribute
    pTemplate count
  obtain ⟨rv, after, stored, code, filled⟩ := store_attributes_run B.target
    (entriesOf object pTemplate count memory) pTemplate .ok read
  refine ⟨rv, after, ?_, code, filled⟩
  have template := memory.slice_length B.target .attribute pTemplate count
  have zipped : entriesOf object pTemplate count memory =
      (memory.slice B.target .attribute pTemplate count).zip
        ((memory.slice B.target .attribute pTemplate count).map fun attr =>
          B.getAttribute object attr.attrType) := by
    rw [entriesOf, List.zip_eq_zipWith, List.zipWith_map_right, List.zipWith_self]
  rw [zipped] at stored
  have small : ¬count > maxTemplateCount := Nat.not_lt.mpr few
  have reply (attrTypes : List CkAttributeType) :
      moduleHandler B (os 0) (.manager (ManagerProxy.getAttributes hObject attrTypes).arguments)
        (some manager) =
      (some (.getAttributes (.ok (attrTypes.map (B.getAttribute object)))), some manager) := by
    simp only [ManagerProxy.getAttributes, handle_manager, Manager.dispatch,
      Manager.getAttributes, registered]
    rfl
  change execute (moduleHandler B) (cGetAttributeValue B.target hObject pTemplate count
    ⟨memory, []⟩) os (some manager) = _
  simp only [cGetAttributeValue, present, small, if_false, ffi_bind, read_slice_run, ret_bind,
    proxy_fn_run]
  simp only [Bind.bind, Prog.bind, execute, reply]
  -- The manager answers with one value for each entry.
  have answered : (Option.map (ManagerProxy.getAttributes hObject
      ((memory.slice B.target .attribute pTemplate count).map CkAttribute.attrType)).reply
      (some (.getAttributes (.ok (((memory.slice B.target .attribute pTemplate count).map
        CkAttribute.attrType).map (B.getAttribute object)))))) =
      some (.ok ((memory.slice B.target .attribute pTemplate count).map fun attr =>
        B.getAttribute object attr.attrType)) := by
    rw [List.map_map]
    rfl
  rw [answered]
  dsimp only
  rw [if_neg (by simp [template])]
  exact congrArg (fun program => execute (moduleHandler B) program (fun n => os (n + 1))
    (some manager)) stored

/-! What the copies of the other entries do to the buffer of one entry: nothing. -/

theorem written_length (attr : CkAttribute) (value : Option Bytes) :
    (written attr value).length ≤ attr.ulValueLen := by
  unfold written
  split
  · split
    · exact Nat.zero_le _
    · rename_i fine
      exact Nat.le_of_not_lt fun short => fine (Or.inr short)
  · exact Nat.zero_le _

theorem written_null {attr : CkAttribute} {value : Option Bytes} (nothing : attr.pValue = null) :
    written attr value = [] := by
  unfold written
  cases value with
  | none => rfl
  | some held => exact if_pos (Or.inl nothing)

theorem apart_spares {attr : CkAttribute} {entry : CkAttribute × Option Bytes}
    (present : attr.pValue ≠ null) (apart : BuffersApart attr entry.1) {place : Nat}
    (inside : place < attr.ulValueLen) : Spares (attr.pValue + place) entry := by
  have bounded := written_length entry.1 entry.2
  rcases apart with nothing | nothing | before | behind
  · exact absurd nothing present
  · right
    rw [written_null nothing, nothing]
    exact Nat.zero_le _
  · exact Or.inl (Nat.lt_of_lt_of_le (Nat.add_lt_add_left inside _) before)
  · exact Or.inr ((Nat.add_le_add_left bounded _).trans (behind.trans (Nat.le_add_right _ _)))

theorem BuffersApart.symm {one other : CkAttribute} (apart : BuffersApart one other) :
    BuffersApart other one := by
  rcases apart with nothing | nothing | before | behind
  · exact Or.inr (Or.inl nothing)
  · exact Or.inl nothing
  · exact Or.inr (Or.inr (Or.inr before))
  · exact Or.inr (Or.inr (Or.inl behind))

section Template
variable {pTemplate : Addr} {count : CkUlong} {memory : Memory}
  (apart : (memory.slice B.target .attribute pTemplate count).Pairwise BuffersApart)
include apart

theorem entries_apart {index other : Nat} (inside : index < count) (inside' : other < count)
    (different : index ≠ other) : BuffersApart (entryAt B.target memory pTemplate index)
      (entryAt B.target memory pTemplate other) := by
  have pairs := List.pairwise_iff_getElem.mp apart
  simp only [Memory.slice, List.length_map, List.length_range, List.getElem_map,
    List.getElem_range] at pairs
  rcases Nat.lt_or_gt_of_ne different with before | behind
  · exact pairs index other inside inside' before
  · exact (pairs other index inside' inside behind).symm

theorem others_spare {index other place : Nat} {entry : CkAttribute × Option Bytes}
    (inside : index < count)
    (present : (entryAt B.target memory pTemplate index).pValue ≠ null)
    (here : place < (entryAt B.target memory pTemplate index).ulValueLen)
    (different : index ≠ other)
    (held : (entriesOf object pTemplate count memory)[other]? = some entry) :
    Spares ((entryAt B.target memory pTemplate index).pValue + place) entry := by
  have inside' : other < count := by
    have bound := (List.getElem?_eq_some_iff.mp held).1
    rwa [entriesOf, List.length_map, Memory.slice_length] at bound
  rw [entries_of_get inside'] at held
  cases held
  exact apart_spares present (entries_apart apart inside inside' different) here

theorem buffer_untouched {index : Nat} (inside : index < count)
    (present : (entryAt B.target memory pTemplate index).pValue ≠ null) :
    let attr := entryAt B.target memory pTemplate index
    Untouched attr (written attr (B.getAttribute object attr.attrType)).length memory
      (filledAll B.target pTemplate (entriesOf object pTemplate count memory) memory) := by
  intro attr place behind here
  apply filled_all_spares
  intro entry member
  obtain ⟨other, held⟩ := List.mem_iff_getElem?.mp member
  by_cases own : index = other
  · subst own
    rw [entries_of_get inside] at held
    cases held
    exact Or.inr (Nat.add_le_add_left behind _)
  · exact others_spare apart inside present here own held

theorem buffer_filled {index : Nat} (inside : index < count)
    (present : (entryAt B.target memory pTemplate index).pValue ≠ null) :
    let attr := entryAt B.target memory pTemplate index
    let value := written attr (B.getAttribute object attr.attrType)
    (filledAll B.target pTemplate (entriesOf object pTemplate count memory) memory).slice B.target
      .bytes attr.pValue value.length = value := by
  intro attr value
  apply filled_all_value (entries_of_get inside)
  intro place here entry member
  obtain ⟨behind, held⟩ := List.mem_iff_getElem?.mp member
  rw [List.getElem?_drop] at held
  have bounded := written_length attr (B.getAttribute object attr.attrType)
  exact others_spare apart inside present (Nat.lt_of_lt_of_le here bounded) (by omega) held

theorem template_answered {manager : Manager B} {hObject : CkObjectHandle}
    (registered : manager.objects[hObject]? = some object) (fits : ValuesFit object)
    (present : pTemplate ≠ null) (few : count ≤ maxTemplateCount) (os : Nat → B.Os) :
    ∃ rv after, (ExportedCall.cGetAttributeValue hObject pTemplate count).alone os memory
        (some manager) = ((rv, after), some manager) ∧
      TemplateAnswered B object pTemplate count memory after.memory rv := by
  obtain ⟨rv, after, ran, code, filled⟩ :=
    get_attribute_value_alone registered present few os memory
  refine ⟨rv, after, ran, ?_, ?_⟩
  · intro index inside attr
    rw [filled]
    have slot : entryAt B.target (filledAll B.target pTemplate
        (entriesOf object pTemplate count memory) memory) pTemplate index =
          answered B.target attr (B.getAttribute object attr.attrType) :=
      filled_all_slot (entries_of_get inside) pTemplate memory
    have untouched := @buffer_untouched B object _ _ _ apart index inside
    have copied := @buffer_filled B object _ _ _ apart index inside
    rw [slot]
    cases held : B.getAttribute object attr.attrType with
    | none =>
        simp only [attr, held, written] at untouched
        exact ⟨rfl, untouched⟩
    | some value =>
        refine ⟨?_, ?_⟩
        · rw [answered, Target.as_ulong_of_lt (fits _ _ held)]
        · intro there
          have untouched := untouched there
          have copied := copied there
          simp only [attr] at held there
          by_cases short : attr.ulValueLen < value.length
          · simp only [attr] at short
            simp only [held, written, there, short, or_true, if_true] at untouched
            rw [if_pos short]
            exact untouched
          · simp only [attr] at short
            simp only [held, written, there, short, or_false, if_false] at untouched copied
            rw [if_neg short]
            exact ⟨copied, untouched⟩
  · rcases code with ⟨⟨entry, member, short⟩, rfl⟩ | ⟨none, rfl⟩
    · obtain ⟨index, inside, rfl⟩ := mem_entries_of.mp member
      exact Or.inl ⟨rfl, index, inside, short⟩
    · exact Or.inr ⟨rfl, fun index inside =>
        none _ (mem_entries_of.mpr ⟨index, inside, rfl⟩)⟩

end Template

def AsksLengths (target : Target) (memory : Memory) (pTemplate : Addr) (count : CkUlong) : Prop :=
  ∀ index < count, (entryAt target memory pTemplate index).pValue = null

/-- The same attributes once more, with a buffer of the reported length for each that the
object has. -/
def SizedBy (object : B.Object) (reported : Memory) (pReported : Addr) (memory : Memory)
    (pTemplate : Addr) (count : CkUlong) : Prop :=
  ∀ index < count,
    let attr := entryAt B.target memory pTemplate index
    let report := entryAt B.target reported pReported index
    attr.attrType = report.attrType ∧
      (B.getAttribute object attr.attrType ≠ none →
        attr.pValue ≠ null ∧ attr.ulValueLen = report.ulValueLen)

def ValuesDelivered (object : B.Object) (pTemplate : Addr) (count : CkUlong)
    (before after : Memory) (rv : CkRv) : Prop :=
  rv = .ok ∧ ∀ index < count, ∀ value,
    let attr := entryAt B.target before pTemplate index
    B.getAttribute object attr.attrType = some value →
      after.slice B.target .bytes attr.pValue value.length = value ∧
        entryAt B.target after pTemplate index = { attr with ulValueLen := value.length }

/-- A call for the lengths in one state, and one for the values in another. -/
def TwoCalls (object : B.Object) (hObject : CkObjectHandle) (first second : Manager B) : Prop :=
  ∀ (pFirst pSecond : Addr) (count : CkUlong) (asking memory : Memory) (os os' : Nat → B.Os),
    pFirst ≠ null → pSecond ≠ null → count ≤ maxTemplateCount →
    AsksLengths B.target asking pFirst count →
    let lengths := (ExportedCall.cGetAttributeValue hObject pFirst count).alone os asking
      (some first)
    SizedBy object lengths.1.2.memory pFirst memory pSecond count →
    (memory.slice B.target .attribute pSecond count).Pairwise BuffersApart →
    let values := (ExportedCall.cGetAttributeValue hObject pSecond count).alone os' memory
      (some second)
    lengths.1.1 = .ok ∧ lengths.2 = some first ∧
      ValuesDelivered object pSecond count memory values.1.2.memory values.1.1

theorem asked_apart {memory : Memory} {pTemplate : Addr} {count : CkUlong}
    (asks : AsksLengths B.target memory pTemplate count) :
    (memory.slice B.target .attribute pTemplate count).Pairwise BuffersApart := by
  apply List.pairwise_of_forall_mem_list
  intro one member other _
  obtain ⟨index, inside, rfl⟩ := List.mem_map.mp member
  exact Or.inl (asks index (List.mem_range.mp inside))

theorem two_calls {manager later : Manager B} {hObject : CkObjectHandle}
    (registered : manager.objects[hObject]? = some object)
    (kept : later.objects[hObject]? = some object) (fits : ValuesFit object) :
    TwoCalls object hObject manager later := by
  intro pFirst pSecond count asking memory os os' present present' few asks
  obtain ⟨rv, after, ran, lengths⟩ :=
    template_answered (asked_apart asks) registered fits present few os
  rw [ran]
  intro _ sized apart
  obtain ⟨rv', after', ran', values⟩ := template_answered apart kept fits present' few os'
  rw [ran']
  intro _
  -- A value that the object has got exactly the buffer it needs.
  have room : ∀ index < count, ∀ value,
      B.getAttribute object (entryAt B.target memory pSecond index).attrType = some value →
      (entryAt B.target memory pSecond index).pValue ≠ null ∧
        (entryAt B.target memory pSecond index).ulValueLen = value.length := by
    intro index inside value held
    obtain ⟨sameType, sizes⟩ := sized index inside
    obtain ⟨there, length⟩ := sizes (by rw [held]; nofun)
    have report := lengths.entries index inside
    have asked : (entryAt B.target asking pFirst index).attrType =
        (entryAt B.target memory pSecond index).attrType := by
      rw [sameType]
      exact (answered_type report).symm
    dsimp only at report
    rw [asked, held] at report
    exact ⟨there, length.trans (by rw [report.1])⟩
  refine ⟨?_, rfl, ?_, ?_⟩
  · rcases lengths.code with ⟨_, index, inside, _, _, there, _⟩ | ⟨fine, _⟩
    · exact absurd (asks index inside) there
    · exact fine
  · rcases values.code with ⟨_, index, inside, value, held, _, short⟩ | ⟨fine, _⟩
    · rw [(room index inside value held).2] at short
      exact absurd short (Nat.lt_irrefl _)
    · exact fine
  · intro index inside value attr held
    obtain ⟨there, length⟩ := room index inside value held
    have delivered : EntryAnswered B.target memory after'.memory attr
        (B.getAttribute object attr.attrType) (entryAt B.target after'.memory pSecond index) :=
      values.entries index inside
    rw [held] at delivered
    obtain ⟨slot, copied⟩ := delivered
    have copied := copied there
    rw [if_neg (by rw [length]; exact Nat.lt_irrefl _)] at copied
    exact ⟨copied.1, slot⟩

end Calls

namespace Manager
variable {B : Backend}

theorem register_new_objects (objects : List B.Object) (manager : Manager B)
    (bounded : manager.nextHandle < B.target.ulongModulus)
    (fresh : ∀ object ∈ objects, (B.ident object).2 ∉ manager.ids (B.ident object).1)
    (distinct : (objects.map B.ident).Nodup) :
    (objects.foldl registerObject manager).nextHandle =
      (manager.nextHandle + objects.length) % B.target.ulongModulus := by
  -- The counter moves on once for each object that is new, and wraps.
  induction objects generalizing manager with
  | nil => exact (Nat.mod_eq_of_lt bounded).symm
  | cons object rest ih =>
      have unknown := fresh object List.mem_cons_self
      obtain ⟨other, distinct⟩ := List.nodup_cons.mp distinct
      have next : (manager.registerObject object).nextHandle =
          (manager.nextHandle + 1) % B.target.ulongModulus := by
        rw [register_by_ident, if_neg unknown, inserted_next, succUlong]
      have modulus : 0 < B.target.ulongModulus := Nat.zero_lt_of_lt bounded
      rw [List.foldl_cons, ih, next, Nat.mod_add_mod, List.length_cons, Nat.add_right_comm,
        Nat.add_assoc]
      · rw [next]
        exact Nat.mod_lt _ modulus
      · intro later member known
        rcases (register_ids manager object _ _).mp known with old | same
        · exact fresh later (List.mem_cons_of_mem _ member) old
        · exact other (List.mem_map.mpr ⟨later, member, same⟩)
      · exact distinct

theorem last_new_object (objects : List B.Object) (object : B.Object) (manager : Manager B)
    (bounded : manager.nextHandle < B.target.ulongModulus)
    (fresh : ∀ known ∈ objects ++ [object],
      (B.ident known).2 ∉ manager.ids (B.ident known).1)
    (distinct : ((objects ++ [object]).map B.ident).Nodup) :
    ((objects ++ [object]).foldl registerObject manager).objects[
      (manager.nextHandle + objects.length) % B.target.ulongModulus]? = some object := by
  rw [List.map_append, List.nodup_append] at distinct
  obtain ⟨earlier, _, apart⟩ := distinct
  have unknown : (B.ident object).2 ∉
      (objects.foldl registerObject manager).ids (B.ident object).1 := by
    rw [register_all_ids]
    rintro (old | member)
    · exact fresh object (List.mem_append_right _ (List.mem_singleton_self _)) old
    · exact apart _ member (B.ident object) (by simp) rfl
  have next := register_new_objects objects manager bounded
    (fun known member => fresh known (List.mem_append_left _ member)) earlier
  rw [List.foldl_append, ← next]
  exact register_unknown unknown

end Manager

namespace Windows

def numberedCert (number : Nat) : backend.Object :=
  .cert ⟨[], [1], List.replicate number 0, [], [1, 2], [], [], []⟩

def crowd (number : Nat) : List backend.Object :=
  (List.range number).map numberedCert ++ [numberedCert number]

theorem numbered_ident (number : Nat) :
    backend.ident (numberedCert number) = (.cert, List.replicate number 0) := rfl

theorem mem_crowd {number : Nat} {object : backend.Object} (member : object ∈ crowd number) :
    ∃ place, object = numberedCert place := by
  rcases List.mem_append.mp member with early | last
  · obtain ⟨place, _, rfl⟩ := List.mem_map.mp early
    exact ⟨place, rfl⟩
  · exact ⟨number, List.mem_singleton.mp last⟩

theorem crowd_distinct (number : Nat) : ((crowd number).map backend.ident).Nodup := by
  have numbered : crowd number = (List.range (number + 1)).map numberedCert := by
    rw [crowd, List.range_succ, List.map_append]
    rfl
  rw [numbered, List.map_map]
  apply List.Nodup.map _ List.nodup_range
  intro one other same
  have lengths := congrArg (fun ident => ident.2.length) same
  simpa [numbered_ident] using lengths

/-- Where no certificate is known that the crowd has, the last of the crowd gets the handle
that the counter comes to. -/
theorem crowd_takes_handle {number : Nat} {manager : Manager backend}
    {handle : CkObjectHandle} (bounded : manager.nextHandle < UInt32.size)
    (unknown : ∀ place, List.replicate place 0 ∉ manager.certIds)
    (around : (manager.nextHandle + number) % UInt32.size = handle) :
    ((crowd number).foldl Manager.registerObject manager).objects[handle]? =
      some (numberedCert number) := by
  have fresh : ∀ known ∈ crowd number,
      (backend.ident known).2 ∉ manager.ids (backend.ident known).1 := by
    intro known member
    obtain ⟨place, rfl⟩ := mem_crowd member
    exact unknown place
  have last := Manager.last_new_object ((List.range number).map numberedCert)
    (numberedCert number) manager bounded fresh (crowd_distinct number)
  have counter : (manager.nextHandle + number) % backend.target.ulongModulus = handle := around
  rw [List.length_map, List.length_range, counter] at last
  exact last

def firstCert : backend.Object := .cert ⟨[], [1], [7], [], [1], [], [], []⟩

def holdingFirst : Manager backend := Manager.new (Cng.holding 0 [firstCert])

theorem first_registered : holdingFirst.objects[1]? = some firstCert := by rfl

theorem crowd_replaces_first {number : Nat} (around : (2 + number) % UInt32.size = 1) :
    (Manager.step ((Cng.holding 5000 (crowd number) : backend.Os), .openSession 4)
      holdingFirst).objects[1]? = some (numberedCert number) := by
  -- Once the counter has gone all the way around, the first handle is given out again.
  have unknown : ∀ place, List.replicate place 0 ∉
      ({ holdingFirst with lastScanTime := some 5000 } : Manager backend).certIds := by
    intro place known
    have held : List.replicate place 0 = ([7] : Bytes) := Finset.mem_singleton.mp known
    have seven : (7 : UInt8) ∈ List.replicate place 0 := by
      rw [held]
      exact List.mem_singleton_self _
    exact absurd (List.eq_of_mem_replicate seven) (by decide)
  have bounded : ({ holdingFirst with lastScanTime := some 5000 } :
      Manager backend).nextHandle < UInt32.size := by decide
  exact crowd_takes_handle bounded unknown around

theorem cert_values_fit {cert : Cert}
    (short : ∀ field ∈ [cert.classAttr, cert.token, cert.label, cert.id, cert.value,
      cert.issuer, cert.serialNumber, cert.subject], field.length < UInt32.size) :
    ValuesFit (B := backend) (.cert cert) := by
  intro attrType value held
  change cert.getAttribute attrType = some value at held
  unfold Cert.getAttribute at held
  repeat' split at held
  all_goals first
    | (cases held; exact short _ (by simp))
    | cases held

def valueTemplate (buffer : Addr) (length : CkUlong) : Memory :=
  Memory.blank.set .attribute 8 ⟨ckaValue, buffer, length⟩

theorem value_template_entry {buffer : Addr} {length : CkUlong} {index : Nat}
    (inside : index < 1) :
    entryAt .windows (valueTemplate buffer length) 8 index = ⟨ckaValue, buffer, length⟩ := by
  obtain rfl : index = 0 := by omega
  simp [entryAt, valueTemplate]

theorem value_template_single (buffer : Addr) (length : CkUlong) :
    ((valueTemplate buffer length).slice .windows .attribute 8 1).Pairwise BuffersApart := by
  rw [Memory.slice_succ]
  exact List.pairwise_singleton _ _

theorem crowd_ends_two_calls {number : Nat} (bounded : number < UInt32.size)
    (around : (2 + number) % UInt32.size = 1) :
    ¬TwoCalls firstCert 1 holdingFirst (Manager.step
      ((Cng.holding 5000 (crowd number) : backend.Os), .openSession 4) holdingFirst) := by
  intro calls
  have first : ValuesFit (B := backend) firstCert := cert_values_fit (by decide)
  have last : ValuesFit (B := backend) (numberedCert number) :=
    cert_values_fit (by simp [bounded, UInt32.size])
  have asks : AsksLengths .windows (valueTemplate null 0) 8 1 := by
    intro index inside
    rw [value_template_entry inside]
  obtain ⟨rv, after, ran, lengths⟩ := template_answered (B := backend) (asked_apart asks)
    first_registered first (by decide) (by decide) (fun _ => Cng.holding 0 [])
  obtain ⟨rv', after', ran', values⟩ := template_answered (B := backend)
    (value_template_single 16 1) (crowd_replaces_first around) last (by decide) (by decide)
    (fun _ => Cng.holding 0 [])
  have delivered := calls 8 8 1 (valueTemplate null 0) (valueTemplate 16 1)
    (fun _ => Cng.holding 0 []) (fun _ => Cng.holding 0 []) (by decide) (by decide) (by decide) asks
  rw [ran, ran'] at delivered
  have sized : SizedBy firstCert after.memory 8 (valueTemplate 16 1) 8 1 := by
    intro index inside
    have report : EntryAnswered .windows (valueTemplate null 0) after.memory
        (entryAt .windows (valueTemplate null 0) 8 index)
        (backend.getAttribute firstCert
          (entryAt .windows (valueTemplate null 0) 8 index).attrType)
        (entryAt .windows after.memory 8 index) := lengths.entries index inside
    rw [value_template_entry inside] at report
    have slot : entryAt .windows after.memory 8 index = ⟨ckaValue, null, 1⟩ := report.1
    change let attr := entryAt .windows (valueTemplate 16 1) 8 index
      let report := entryAt .windows after.memory 8 index
      attr.attrType = report.attrType ∧ (backend.getAttribute firstCert attr.attrType ≠ none →
        attr.pValue ≠ null ∧ attr.ulValueLen = report.ulValueLen)
    rw [value_template_entry inside, slot]
    exact ⟨rfl, fun _ => ⟨by decide, rfl⟩⟩
  have fine : rv' = .ok := (delivered sized (value_template_single 16 1)).2.2.1
  rcases values.code with ⟨small, _⟩ | ⟨_, enough⟩
  · rw [small] at fine
    cases fine
  · apply enough 0 (by decide)
    change TooShort (entryAt .windows (valueTemplate 16 1) 8 0) (backend.getAttribute
      (numberedCert number) (entryAt .windows (valueTemplate 16 1) 8 0).attrType)
    rw [value_template_entry (by decide)]
    exact ⟨[1, 2], rfl, by decide, by decide⟩

end Windows

/-- Each entry gets its own answer; and as long as the handles have not run out, a call for
the lengths and one for the values deliver every value, whatever was requested in between. -/
theorem get_attribute_value_contract (B : Backend) :
    (∀ (manager : Manager B) (hObject : CkObjectHandle) (object : B.Object),
      manager.objects[hObject]? = some object → ValuesFit object →
      ∀ (pTemplate : Addr) (count : CkUlong) (memory : Memory) (os : Nat → B.Os),
        pTemplate ≠ null → count ≤ maxTemplateCount →
        (memory.slice B.target .attribute pTemplate count).Pairwise BuffersApart →
        ∃ rv after, (ExportedCall.cGetAttributeValue hObject pTemplate count).alone os memory
            (some manager) = ((rv, after), some manager) ∧
          TemplateAnswered B object pTemplate count memory after.memory rv) ∧
    (∀ (start : B.Os) (earlier later : List (ManagerStep B)) (hObject : CkObjectHandle)
      (object : B.Object),
      (LocalAutomata.after Manager.step (earlier ++ later)
        (Manager.new start : Manager B)).registered ≤ B.target.ulongModulus →
      (LocalAutomata.after Manager.step earlier
        (Manager.new start : Manager B)).objects[hObject]? = some object → ValuesFit object →
      TwoCalls object hObject (LocalAutomata.after Manager.step earlier (Manager.new start))
        (LocalAutomata.after Manager.step (earlier ++ later) (Manager.new start))) := by
  constructor
  · intro manager hObject object registered fits pTemplate count memory os present few apart
    exact template_answered apart registered fits present few os
  · intro start earlier later hObject object few registered fits
    exact two_calls registered (Manager.handle_kept start earlier later few registered) fits

theorem first_cert_contract :
    (∃ rv after, (ExportedCall.cGetAttributeValue 1 8 1).alone (B := Windows.backend)
        (fun _ => Windows.Cng.holding 0 []) (Windows.valueTemplate 16 1)
        (some Windows.holdingFirst) = ((rv, after), some Windows.holdingFirst) ∧
      TemplateAnswered Windows.backend Windows.firstCert 8 1 (Windows.valueTemplate 16 1)
        after.memory rv) ∧
    TwoCalls Windows.firstCert 1 Windows.holdingFirst Windows.holdingFirst := by
  have fits : ValuesFit (B := Windows.backend) Windows.firstCert :=
    Windows.cert_values_fit (by decide)
  have few : Windows.holdingFirst.registered ≤ Windows.backend.target.ulongModulus := by decide
  have contract := get_attribute_value_contract Windows.backend
  exact ⟨contract.1 Windows.holdingFirst 1 Windows.firstCert Windows.first_registered fits 8 1
      (Windows.valueTemplate 16 1) (fun _ => Windows.Cng.holding 0 []) (by decide) (by decide)
      (Windows.value_template_single 16 1),
    contract.2 (Windows.Cng.holding 0 [Windows.firstCert]) [] [] 1 Windows.firstCert few
      Windows.first_registered fits⟩

/-- `2 ^ 32` objects that are new are listed between the two calls. -/
theorem reused_handle_ends_two_calls : ¬∀ (start : Windows.Cng)
    (earlier later : List (ManagerStep Windows.backend)) (hObject : CkObjectHandle)
    (object : Windows.backend.Object),
    (LocalAutomata.after Manager.step earlier
      (Manager.new start : Manager Windows.backend)).objects[hObject]? = some object →
    ValuesFit object →
    TwoCalls object hObject
      (LocalAutomata.after Manager.step earlier (Manager.new start : Manager Windows.backend))
      (LocalAutomata.after Manager.step (earlier ++ later)
        (Manager.new start : Manager Windows.backend)) := by
  intro claim
  apply @Windows.crowd_ends_two_calls 4294967295 (by decide) (by decide)
  exact claim (.holding 0 [Windows.firstCert]) []
    [(Windows.Cng.holding 5000 (Windows.crowd 4294967295), .openSession 4)] 1 Windows.firstCert
    Windows.first_registered (Windows.cert_values_fit (by decide))

end OsClientCerts
