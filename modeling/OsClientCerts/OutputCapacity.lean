import OsClientCerts.FfiSafety
import OsClientCerts.SequentialCalls
import OsClientCerts.Threads

/-!
What the ten functions with arrays to fill write to them, against the room that
the caller declares. C_GetSlotList overwrites the declared count before it looks
at it, so it alone writes to an array that is declared empty.
-/

namespace OsClientCerts
open Resumption

structure OutputArray where
  region : Region
  addr : Addr
  capacity : Nat
  deriving DecidableEq, Repr

def CkAttribute.output (attr : CkAttribute) : OutputArray :=
  ⟨.bytes, attr.pValue, attr.ulValueLen⟩

def OutputCall.array (call : OutputCall) (memory : Memory) : OutputArray :=
  ⟨.bytes, call.output, memory .ulong call.lengthSlot⟩

/-- The arrays of a function that fills arrays, with their sizes as they are declared on entry. -/
def ExportedCall.arrays (target : Target) (memory : Memory) :
    ExportedCall → Option (List OutputArray)
  | .cGetSlotList pSlotList pulCount => some [⟨.ulong, pSlotList, memory .ulong pulCount⟩]
  | .cGetMechanismList _ pList pulCount => some [⟨.ulong, pList, memory .ulong pulCount⟩]
  | .cFindObjects _ phObject max _ => some [⟨.ulong, phObject, max⟩]
  | .cGetAttributeValue _ pTemplate count =>
      some ((memory.slice target .attribute pTemplate count).map CkAttribute.output)
  | exported => exported.outputCall.map fun call => [call.array memory]

def ExportedCall.countSlot : ExportedCall → Option Addr
  | .cGetSlotList _ pulCount | .cGetMechanismList _ _ pulCount
  | .cFindObjects _ _ _ pulCount => some pulCount
  | exported => exported.outputCall.map OutputCall.lengthSlot

def Access.stores (access : Access) : Bool :=
  access.write && !decide (access.region = .attribute)

def arrayWrites (slot : Option Addr) (accesses : List Access) : List Access :=
  match slot with
  | some count => (accesses.filter Access.stores).erase ⟨.ulong, count, 1, true⟩
  | none => accesses.filter Access.stores

def OutputArray.Holds (access : Access) (array : OutputArray) : Prop :=
  access.region = array.region ∧ access.addr = array.addr ∧ access.count ≤ array.capacity

/-- The arrays are filled one after the other, none twice and none beyond its size. -/
def WithinCapacity (slot : Option Addr) (accesses : List Access) (arrays : List OutputArray) :
    Prop :=
  ∃ used, used.Sublist arrays ∧
    List.Forall₂ OutputArray.Holds (arrayWrites slot accesses) used

def ExportedCall.CountOverwritten (exported : ExportedCall) (memory : Memory) : Prop :=
  ∃ pSlotList pulCount, exported = .cGetSlotList pSlotList pulCount ∧ pulCount ≠ null ∧
    pSlotList ≠ null ∧ memory .ulong pulCount = 0

section Within
variable {slot : Option Addr} {accesses more : List Access} {arrays others : List OutputArray}

theorem within_nothing (nothing : arrayWrites slot accesses = []) :
    WithinCapacity slot accesses arrays :=
  ⟨[], List.nil_sublist arrays, by rw [nothing]; exact .nil⟩

theorem within_one {array : OutputArray} (access : Access)
    (one : arrayWrites slot accesses = [access]) :
    WithinCapacity slot accesses [array] ↔ array.Holds access := by
  constructor
  · rintro ⟨used, kept, fits⟩
    rw [one] at fits
    cases fits with
    | cons holds rest =>
        cases rest
        rw [← List.mem_singleton.mp (kept.subset List.mem_cons_self)]
        exact holds
  · exact fun holds => ⟨[array], List.Sublist.refl _, by rw [one]; exact .cons holds .nil⟩

theorem within_append (first : WithinCapacity none accesses arrays)
    (second : WithinCapacity none more others) :
    WithinCapacity none (accesses ++ more) (arrays ++ others) := by
  obtain ⟨used, kept, fits⟩ := first
  obtain ⟨usedToo, keptToo, fitsToo⟩ := second
  refine ⟨used ++ usedToo, kept.append keptToo, ?_⟩
  rw [arrayWrites, List.filter_append]
  exact List.rel_append fits fitsToo

end Within

theorem ensures_ask {ε α β : Type} [FromUnit ε] {fn : ProxyFn ε α}
    {next : Option (Except ε α) → Call β} {post : β × Caller → Prop} {caller : Caller}
    (answered : ∀ answer, (next answer caller).Ensures post) :
    ((fn.run >>= next) caller).Ensures post := fun _ => answered _

theorem ensures_read_slice {β : Type} {target : Target} {region : Region} {addr : Addr}
    {count : Nat} {next : List region.Value → Call β} {post : β × Caller → Prop} {caller : Caller}
    (goesOn : (next (caller.memory.slice target region addr count)
      (caller.loaded region addr count)).Ensures post) :
    ((readSlice target region addr count >>= next) caller).Ensures post := goesOn

theorem get_mechanism_list_within (target : Target) (slotID : CkUlong) (pList pulCount : Addr)
    (memory : Memory) : (cGetMechanismList target slotID pList pulCount ⟨memory, []⟩).Ensures
      fun result => WithinCapacity (some pulCount) result.2.accesses
        [⟨.ulong, pList, memory .ulong pulCount⟩] := by
  unfold cGetMechanismList
  by_cases bad : slotID ≠ slotId ∨ pulCount = null
  · rw [if_pos bad]
    exact within_nothing rfl
  · rw [if_neg bad]
    by_cases asked : pList ≠ null
    · rw [if_pos asked]
      simp only [ffi_bind, read_cell_run, ret_bind]
      by_cases short : memory .ulong pulCount < mechanisms.length
      · rw [if_pos short]
        exact within_nothing rfl
      · rw [if_neg short]
        have one : arrayWrites (some pulCount) [⟨.ulong, pulCount, 1, false⟩,
            ⟨.ulong, pList, 4, true⟩, ⟨.ulong, pulCount, 1, true⟩] =
              [⟨.ulong, pList, 4, true⟩] := by
          simp [arrayWrites, Access.stores]
        exact (within_one _ one).mpr ⟨rfl, rfl, Nat.le_of_not_lt short⟩
    · rw [if_neg asked]
      apply within_nothing
      simp [arrayWrites, Access.stores]

theorem get_slot_list_within (pSlotList pulCount : Addr) (memory : Memory) :
    (cGetSlotList pSlotList pulCount ⟨memory, []⟩).Ensures fun result =>
      WithinCapacity (some pulCount) result.2.accesses
          [⟨.ulong, pSlotList, memory .ulong pulCount⟩] ↔
        ¬ (ExportedCall.cGetSlotList pSlotList pulCount).CountOverwritten memory := by
  -- The count is overwritten first, so the one slot is written whatever was declared.
  unfold cGetSlotList
  by_cases missing : pulCount = null
  · rw [if_pos missing]
    apply iff_of_true (within_nothing rfl)
    rintro ⟨_, _, ⟨⟩, present, _⟩
    exact present missing
  · rw [if_neg missing]
    by_cases asked : pSlotList ≠ null
    · simp only [ffi_bind, write_cell_run, ret_bind, asked, ne_eq, not_false_eq_true, ↓reduceIte,
        read_cell_run, Caller.stored_memory, Memory.set_same, Nat.lt_irrefl, ffi_pure, ensures_ret]
      rw [within_one ⟨.ulong, pSlotList, 1, true⟩ (by simp [arrayWrites, Access.stores])]
      constructor
      · rintro ⟨_, _, room⟩ ⟨_, _, ⟨⟩, _, _, none⟩
        rw [show memory .ulong pulCount = 0 from none] at room
        exact Nat.not_succ_le_zero 0 room
      · intro declared
        refine ⟨rfl, rfl, Nat.one_le_iff_ne_zero.mpr fun none => ?_⟩
        exact declared ⟨_, _, rfl, missing, asked, none⟩
    · rw [if_neg asked]
      apply iff_of_true (within_nothing (by simp [arrayWrites, Access.stores]))
      rintro ⟨_, _, ⟨⟩, _, present, _⟩
      exact asked present

theorem find_objects_within (target : Target) (hSession : CkSessionHandle) (phObject : Addr)
    (max : CkUlong) (pulCount : Addr) (memory : Memory) :
    (cFindObjects target hSession phObject max pulCount ⟨memory, []⟩).Ensures
      fun result => WithinCapacity (some pulCount) result.2.accesses [⟨.ulong, phObject, max⟩] := by
  unfold cFindObjects
  by_cases bad : phObject = null ∨ pulCount = null ∨ max = 0
  · rw [if_pos bad]
    exact within_nothing rfl
  · rw [if_neg bad]
    apply ensures_ask
    intro answer
    match answer with
    | none => exact within_nothing rfl
    | some (.error ()) => exact within_nothing rfl
    | some (.ok handles) =>
        dsimp only
        by_cases many : handles.length > max
        · rw [if_pos many]
          exact within_nothing rfl
        · rw [if_neg many]
          have one : arrayWrites (some pulCount) [⟨.ulong, pulCount, 1, true⟩,
              ⟨.ulong, phObject, (handles.take max).length, true⟩] =
                [⟨.ulong, phObject, (handles.take max).length, true⟩] := by
            simp [arrayWrites, Access.stores]
          apply (within_one _ one).mpr
          refine ⟨rfl, rfl, ?_⟩
          rw [List.length_take]
          exact Nat.min_le_left _ _

theorem store_attribute_within (target : Target) (addr : Addr) (attr : CkAttribute)
    (value : Option Bytes) (caller : Caller) :
    ∃ rv after more, storeAttribute target addr attr value caller = .ret (rv, after) ∧
      after.accesses = caller.accesses ++ more ∧ WithinCapacity none more [attr.output] := by
  unfold storeAttribute
  have entry (others : List OutputArray) :
      WithinCapacity none [⟨.attribute, addr, 1, true⟩] others :=
    within_nothing (by simp [arrayWrites, Access.stores])
  cases value with
  | none => exact ⟨_, _, _, rfl, rfl, entry _⟩
  | some attrValue =>
      by_cases nothing : attr.pValue = null
      · simp only [nothing, ↓reduceIte]
        exact ⟨_, _, _, rfl, rfl, entry _⟩
      · by_cases short : attr.ulValueLen < attrValue.length
        · simp only [nothing, short, ↓reduceIte]
          exact ⟨_, _, _, rfl, rfl, entry _⟩
        · simp only [nothing, short, ↓reduceIte]
          refine ⟨_, _, _, rfl, List.append_assoc _ _ _, ?_⟩
          rw [within_one ⟨.bytes, attr.pValue, attrValue.length, true⟩
            (by simp [arrayWrites, Access.stores])]
          exact ⟨rfl, rfl, Nat.le_of_not_lt short⟩

theorem store_attributes_within (target : Target) (entries : List (CkAttribute × Option Bytes))
    (addr : Addr) (rv : CkRv) (caller : Caller) :
    ∃ last after more, storeAttributes target addr entries rv caller = .ret (last, after) ∧
      after.accesses = caller.accesses ++ more ∧
      WithinCapacity none more (entries.map fun entry => entry.1.output) := by
  induction entries generalizing addr rv caller with
  | nil => exact ⟨_, _, [], rfl, (List.append_nil _).symm, within_nothing rfl⟩
  | cons entry rest ih =>
      obtain ⟨one, middle, first, stored, added, fits⟩ :=
        store_attribute_within target addr entry.1 entry.2 caller
      obtain ⟨last, after, more, goesOn, addedToo, fitsToo⟩ :=
        ih (addr + target.sizeOfAttribute) (if one = .ok then rv else one) middle
      refine ⟨last, after, first ++ more, ?_, ?_, within_append fits fitsToo⟩
      · simp only [storeAttributes, ffi_bind, stored, ret_bind]
        exact goesOn
      · rw [addedToo, added, List.append_assoc]

theorem template_stored_within {target : Target} {pTemplate : Addr} {count : CkUlong}
    {caller : Caller} {values : List (Option Bytes)} (enough : count ≤ values.length)
    (onlyRead : arrayWrites none caller.accesses = []) :
    (storeAttributes target pTemplate
      ((caller.memory.slice target .attribute pTemplate count).zip values) .ok caller).Ensures
      fun result => WithinCapacity none result.2.accesses
        ((caller.memory.slice target .attribute pTemplate count).map CkAttribute.output) := by
  -- After the template has been read, with a value for each of its entries.
  have entries : ((caller.memory.slice target .attribute pTemplate count).zip values).map
      Prod.fst = caller.memory.slice target .attribute pTemplate count := by
    apply List.map_fst_zip
    rw [Memory.slice_length]
    exact enough
  obtain ⟨last, after, more, run, added, fits⟩ := store_attributes_within target
    ((caller.memory.slice target .attribute pTemplate count).zip values) pTemplate .ok caller
  rw [run, ensures_ret, added, ← entries, List.map_map]
  have noArrays : WithinCapacity none caller.accesses [] := within_nothing onlyRead
  exact within_append noArrays fits

theorem get_attribute_value_within (target : Target) (hObject : CkObjectHandle) (pTemplate : Addr)
    (count : CkUlong) (memory : Memory) :
    (cGetAttributeValue target hObject pTemplate count ⟨memory, []⟩).Ensures
      fun result => WithinCapacity none result.2.accesses
        ((memory.slice target .attribute pTemplate count).map CkAttribute.output) := by
  unfold cGetAttributeValue
  by_cases missing : pTemplate = null
  · rw [if_pos missing]
    exact within_nothing rfl
  · rw [if_neg missing]
    by_cases many : count > maxTemplateCount
    · rw [if_pos many]
      exact within_nothing rfl
    · rw [if_neg many]
      apply ensures_read_slice
      apply ensures_ask
      intro answer
      match answer with
      | none => exact within_nothing rfl
      | some (.error ()) => exact within_nothing rfl
      | some (.ok values) =>
          dsimp only
          by_cases other : values.length ≠ count
          · rw [if_pos other]
            exact within_nothing rfl
          · rw [if_neg other]
            apply ensures_read_slice
            let read := (Caller.loaded ⟨memory, []⟩ .attribute pTemplate count).loaded .attribute
              pTemplate count
            have onlyRead : arrayWrites none read.accesses = [] := by
              simp [read, arrayWrites, Access.stores]
            exact template_stored_within (Nat.le_of_eq (not_not.mp other).symm) onlyRead

section Output
variable {B : Backend} {exported : ExportedCall} {call : OutputCall}

theorem output_arrays {target : Target} {memory : Memory}
    (outputs : exported.outputCall = some call) :
    exported.arrays target memory = some [call.array memory] ∧
      exported.countSlot = some call.lengthSlot := by
  cases exported <;> cases outputs <;> exact ⟨rfl, rfl⟩

theorem reading_fills_nothing (call : OutputCall) (memory : Memory) :
    (call.reading ⟨memory, []⟩).accesses.filter Access.stores = [] := by
  apply List.filter_eq_nil_iff.mpr
  intro access member
  simp [Access.stores, reading_no_copy member]

theorem delivered_alone_within {memory : Memory} {os : Nat → B.Os} {manager : Manager B}
    {events : List (ModuleEvent B)} {rv : CkRv} {after : Caller} {left : ModuleState B}
    (bounded : B.NeverLonger fun now => ∃ n, now = os n)
    (delivered : DeliveredAlone call memory os manager events rv after left) :
    WithinCapacity (some call.lengthSlot) after.accesses [call.array memory] := by
  have reading := reading_fills_nothing call memory
  cases delivered with
  | queryFailed | measured | tooSmall | failed =>
      apply within_nothing
      simp [arrayWrites, reading, Access.stores]
  | delivered length output asked present room made =>
      obtain ⟨input, known, measures, _⟩ := measured_ok asked
      -- The backend is run on the input that it was asked about.
      have performs : B.perform (os 1) call.kind input = .ok output := by
        rw [Manager.performed, known] at made
        exact made
      have short := bounded (os 0) (os 1) ⟨0, rfl⟩ ⟨1, rfl⟩ call.kind input length output
        measures performs
      rw [OutputCall.array, within_one ⟨.bytes, call.output, output.length, true⟩]
      · exact ⟨rfl, rfl, Nat.le_trans short room⟩
      · simp [arrayWrites, reading, Access.stores]

theorem output_unavailable_reads (outputs : exported.outputCall = some call)
    (fine : ¬ call.BadArguments) (os : Nat → B.Os) (memory : Memory) :
    (exported.alone os memory none).1.2 = call.reading ⟨memory, []⟩ := by
  rcases output_run B.target outputs ⟨memory, []⟩ with ⟨bad, _⟩ | ⟨_, run⟩
  · exact absurd bad fine
  · rw [ExportedCall.alone, run]
    rfl

theorem output_within (outputs : exported.outputCall = some call) (os : Nat → B.Os)
    (memory : Memory) (state : ModuleState B)
    (bounded : B.NeverLonger fun now => ∃ n, now = os n) :
    WithinCapacity (some call.lengthSlot) (exported.alone os memory state).1.2.accesses
      [call.array memory] := by
  by_cases bad : call.BadArguments
  · rw [output_refused_alone outputs bad]
    exact within_nothing rfl
  · cases state with
    | none =>
        apply within_nothing
        rw [output_unavailable_reads outputs bad]
        simp [arrayWrites, reading_fills_nothing call memory]
    | some manager =>
        obtain ⟨events, rv, after, left, _, ends, delivered⟩ :=
          output_alone outputs bad os memory manager
        rw [ends]
        exact delivered_alone_within bounded delivered

end Output

section Ten
variable {B : Backend} {exported : ExportedCall} {memory : Memory} {arrays : List OutputArray}

theorem alone_ensures (exported : ExportedCall) {post : CkRv × Caller → Prop} (os : Nat → B.Os)
    (state : ModuleState B)
    (ensures : (exported.run B.target ⟨memory, []⟩).Ensures post) :
    post (exported.alone os memory state).1 :=
  follows_ensures _ ensures (alone_follows exported os memory state)

theorem plain_within_iff (noOutput : exported.outputCall = none)
    (fillsArrays : exported.arrays B.target memory = some arrays) (os : Nat → B.Os)
    (state : ModuleState B) :
    WithinCapacity exported.countSlot (exported.alone os memory state).1.2.accesses arrays ↔
      ¬ exported.CountOverwritten memory := by
  cases exported with
  | cGetSlotList pSlotList pulCount =>
      cases fillsArrays
      have ends := alone_ensures (.cGetSlotList pSlotList pulCount) os state
        (get_slot_list_within pSlotList pulCount memory)
      exact ends
  | cGetMechanismList slotID pList pulCount =>
      cases fillsArrays
      have within := alone_ensures (.cGetMechanismList slotID pList pulCount) os state
        (get_mechanism_list_within B.target slotID pList pulCount memory)
      exact iff_of_true within nofun
  | cFindObjects session phObject max pulCount =>
      cases fillsArrays
      have within := alone_ensures (.cFindObjects session phObject max pulCount) os state
        (find_objects_within B.target session phObject max pulCount memory)
      exact iff_of_true within nofun
  | cGetAttributeValue object pTemplate count =>
      cases fillsArrays
      have within := alone_ensures (.cGetAttributeValue object pTemplate count) os state
        (get_attribute_value_within B.target object pTemplate count memory)
      exact iff_of_true within nofun
  | cSign | cSignFinal | cEncrypt | cEncryptFinal | cDecrypt | cDecryptFinal => cases noOutput
  | _ => cases fillsArrays

/-- Each of the ten functions keeps to the room declared for its arrays, exactly if it
is not C_GetSlotList with a count of zero; of the backend only the six that run it ask
that it makes no more than it announced. -/
theorem capacity_kept_iff (fillsArrays : exported.arrays B.target memory = some arrays)
    (os : Nat → B.Os) (state : ModuleState B)
    (bounded : exported.outputCall ≠ none → B.NeverLonger fun now => ∃ n, now = os n) :
    WithinCapacity exported.countSlot (exported.alone os memory state).1.2.accesses arrays ↔
      ¬ exported.CountOverwritten memory := by
  cases outputs : exported.outputCall with
  | none => exact plain_within_iff outputs fillsArrays os state
  | some call =>
      obtain ⟨same, slot⟩ := output_arrays outputs
      cases same.symm.trans fillsArrays
      rw [slot]
      refine iff_of_true (output_within outputs os memory state (bounded ?_)) ?_
      · rw [outputs]
        exact nofun
      · rintro ⟨_, _, rfl, _⟩
        cases outputs

end Ten

/-- A signing call with room for exactly the 64 bytes that come. -/
theorem signature_within_capacity :
    WithinCapacity (some 64) ((ExportedCall.cSign 1 16 1 128 64).alone
      (fun _ => smallAndLargeKey) roomFor64 (some signing)).1.2.accesses
      [⟨.bytes, 128, 64⟩] := by
  have fillsArrays : (ExportedCall.cSign 1 16 1 128 64).arrays Windows.backend.target roomFor64 =
      some [⟨.bytes, 128, 64⟩] := rfl
  apply (capacity_kept_iff fillsArrays (fun _ => smallAndLargeKey) (some signing) ?_).mpr nofun
  rintro _ measuring performing ⟨_, rfl⟩ ⟨_, rfl⟩
  exact windows_never_longer smallAndLargeKey _ _ rfl rfl

/-- With a count of zero at 8, C_GetSlotList writes one slot to 16. -/
theorem slot_list_overruns : ¬ ∀ (exported : ExportedCall) (memory : Memory)
    (arrays : List OutputArray) (os : Nat → Windows.Cng) (state : ModuleState Windows.backend),
    exported.arrays .windows memory = some arrays →
    (exported.outputCall ≠ none → Windows.backend.NeverLonger fun now => ∃ n, now = os n) →
    WithinCapacity exported.countSlot (exported.alone os memory state).1.2.accesses arrays := by
  intro within
  have room := within (.cGetSlotList 16 8) Memory.blank _ (fun _ => .steady [] (fun _ => 64) 0)
    none rfl (fun none => absurd rfl none)
  have one : arrayWrites (some 8) ((ExportedCall.cGetSlotList 16 8).alone
      (fun _ => Windows.Cng.steady [] (fun _ => 64) 0) Memory.blank
      (none : ModuleState Windows.backend)).1.2.accesses = [⟨.ulong, 16, 1, true⟩] := by decide
  have holds := (within_one _ one).mp room
  exact absurd holds.2.2 (by decide)

end OsClientCerts
