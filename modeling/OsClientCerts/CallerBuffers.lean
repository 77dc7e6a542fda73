import OsClientCerts.SequentialCalls

/-!
Pointers and lengths that the module cannot trust: which memory a caller declares,
which arguments do not fit together, and which accesses the exported functions
make whatever the manager answers.
-/

namespace OsClientCerts
open Resumption

/-- The size of what is read at a pointer. The other records are only ever stored. -/
def Region.readSize (target : Target) : Region → Option Nat
  | .bytes => some 1
  | .ulong => some target.ulongBytes
  | .attribute => some target.sizeOfAttribute
  | .mechanism => some target.sizeOfMechanism
  | .pssParams => some target.sizeOfPssParams
  | .oaepParams => some target.sizeOfOaepParams
  | _ => none

structure Buffer where
  addr : Addr
  length : Nat

def Buffer.Covers (target : Target) (buffer : Buffer) (access : Access) : Prop :=
  ∃ size, access.region.readSize target = some size ∧ buffer.addr ≤ access.addr ∧
    access.addr + access.count * size ≤ buffer.addr + buffer.length

def Buffer.slot (target : Target) (addr : Addr) : Buffer := ⟨addr, target.ulongBytes⟩

def CkAttribute.buffer (attr : CkAttribute) : Buffer := ⟨attr.pValue, attr.ulValueLen⟩

def OutputCall.declared (target : Target) (call : OutputCall) : List Buffer :=
  .slot target call.lengthSlot ::
    call.data.elim [] fun (pData, len) => [⟨pData, len⟩]

def UpdateCall.declared (call : UpdateCall) : List Buffer := [⟨call.pPart, call.len⟩]

def CkMechanism.label (target : Target) (memory : Memory) (mechanism : CkMechanism) :
    List Buffer :=
  if mechanism.mechanism = ckmRsaPkcsOaep ∧
      mechanism.ulParameterLen = target.sizeOfOaepParams ∧ mechanism.pParameter ≠ null then
    [⟨(memory .oaepParams mechanism.pParameter).pSourceData,
      (memory .oaepParams mechanism.pParameter).ulSourceDataLen⟩]
  else []

def InitCall.declared (target : Target) (memory : Memory) (call : InitCall) : List Buffer :=
  ⟨call.pMechanism, target.sizeOfMechanism⟩ ::
    ⟨(memory .mechanism call.pMechanism).pParameter,
      (memory .mechanism call.pMechanism).ulParameterLen⟩ ::
    (memory .mechanism call.pMechanism).label target memory

def ExportedCall.plainDeclared (target : Target) (memory : Memory) : ExportedCall → List Buffer
  | .cGetSlotList _ pulCount => [.slot target pulCount]
  | .cGetMechanismList _ _ pulCount => [.slot target pulCount]
  | .cGetAttributeValue _ pTemplate count => [⟨pTemplate, count * target.sizeOfAttribute⟩]
  | .cFindObjectsInit _ pTemplate count => ⟨pTemplate, count * target.sizeOfAttribute⟩ ::
      (memory.slice target .attribute pTemplate count).map CkAttribute.buffer
  | _ => []

def ExportedCall.declared (target : Target) (memory : Memory) (exported : ExportedCall) :
    List Buffer :=
  exported.plainDeclared target memory ++
    exported.outputCall.elim [] (OutputCall.declared target) ++
    exported.updateCall.elim [] UpdateCall.declared ++
    exported.initCall.elim [] (InitCall.declared target memory)

def CkAttribute.BadValue (attr : CkAttribute) : Prop :=
  attr.ulValueLen > maxAttributeValueLen ∨ (attr.pValue = null ∧ attr.ulValueLen ≠ 0)

/-- In C_GetAttributeValue a null value asks for the length, whatever length it has. -/
def ExportedCall.PlainBadArguments (target : Target) (memory : Memory) : ExportedCall → Prop
  | .cGetInfo pInfo => pInfo = null
  | .cGetFunctionList pp => pp = null
  | .cGetSlotList _ pulCount => pulCount = null
  | .cGetSlotInfo _ pInfo => pInfo = null
  | .cGetTokenInfo _ pInfo => pInfo = null
  | .cGetMechanismList _ _ pulCount => pulCount = null
  | .cGetMechanismInfo _ _ pInfo => pInfo = null
  | .cOpenSession _ _ phSession => phSession = null
  | .cGetSessionInfo _ pInfo => pInfo = null
  | .cGetAttributeValue _ pTemplate count => pTemplate = null ∨ count > maxTemplateCount
  | .cFindObjectsInit _ pTemplate count => pTemplate = null ∨ count > maxTemplateCount ∨
      ∃ attr ∈ memory.slice target .attribute pTemplate count, attr.BadValue
  | .cFindObjects _ phObject max pulCount => phObject = null ∨ pulCount = null ∨ max = 0
  | _ => False

def CkRsaPkcsOaepParams.BadLabel (params : CkRsaPkcsOaepParams) : Prop :=
  (params.pSourceData = null ∧ params.ulSourceDataLen ≠ 0) ∨
    params.ulSourceDataLen > maxOaepLabelLen

/-- A parameter where there should be none, or none of the right size, or with a bad label. -/
def CkMechanism.BadCipherParameter (target : Target) (memory : Memory) (mechanism : CkMechanism) :
    Prop :=
  (mechanism.mechanism = ckmRsaPkcs ∧
      (mechanism.ulParameterLen ≠ 0 ∨ mechanism.pParameter ≠ null)) ∨
    (mechanism.mechanism = ckmRsaPkcsOaep ∧
      (mechanism.ulParameterLen ≠ target.sizeOfOaepParams ∨ mechanism.pParameter = null ∨
        (memory .oaepParams mechanism.pParameter).BadLabel))

def Kind.BadParameter (target : Target) (memory : Memory) (mechanism : CkMechanism) : Kind → Prop
  | .sign => ¬ WellSized target mechanism
  | .decrypt => mechanism.BadCipherParameter target memory
  | .encrypt => mechanism.BadCipherParameter target memory

def CkMechanism.MissingParameter (mechanism : CkMechanism) : Prop :=
  mechanism.pParameter = null ∧ mechanism.ulParameterLen ≠ 0

def InitCall.BadArguments (target : Target) (memory : Memory) (call : InitCall) : Prop :=
  call.pMechanism = null ∨ (memory .mechanism call.pMechanism).MissingParameter ∨
    call.kind.BadParameter target memory (memory .mechanism call.pMechanism)

/-- The pointers and lengths of a call do not fit together. -/
def ExportedCall.Inconsistent (target : Target) (memory : Memory) (exported : ExportedCall) :
    Prop :=
  exported.PlainBadArguments target memory ∨
    (∃ call, exported.outputCall = some call ∧ call.BadArguments) ∨
    (∃ call, exported.updateCall = some call ∧ call.BadArguments) ∨
    ∃ call, exported.initCall = some call ∧ call.BadArguments target memory

/-- No null pointer is followed, and reading stays within what was declared. -/
def Legit (target : Target) (buffers : List Buffer) (access : Access) : Prop :=
  access.addr ≠ null ∧
    (access.write = false → ∃ buffer ∈ buffers, buffer.Covers target access)

theorem legit_write {target : Target} {buffers : List Buffer} {region : Region} {addr : Addr}
    (count : Nat) (present : addr ≠ null) : Legit target buffers ⟨region, addr, count, true⟩ :=
  ⟨present, fun reading => by cases reading⟩

theorem legit_whole {target : Target} {buffers : List Buffer} (buffer : Buffer) {region : Region}
    {count size : Nat} (sized : region.readSize target = some size)
    (length : buffer.length = count * size) (declared : buffer ∈ buffers)
    (present : buffer.addr ≠ null) : Legit target buffers ⟨region, buffer.addr, count, false⟩ :=
  ⟨present, fun _ => ⟨buffer, declared, size, sized, Nat.le_refl _, by rw [length]⟩⟩

theorem legit_slot {target : Target} {buffers : List Buffer} {addr : Addr}
    (declared : Buffer.slot target addr ∈ buffers) (present : addr ≠ null) :
    Legit target buffers ⟨.ulong, addr, 1, false⟩ :=
  legit_whole (.slot target addr) rfl (Nat.one_mul _).symm declared present

section Accesses
variable {legit : Access → Prop} {caller : Caller} {α β : Type}

theorem touches_read_cell {region : Region} {addr : Addr} (allowed : legit ⟨region, addr, 1, false⟩) :
    Touches legit (readCell region addr : Call _) caller := touches_once rfl rfl allowed

theorem touches_read_slice {target : Target} {region : Region} {addr : Addr} {count : Nat}
    (allowed : legit ⟨region, addr, count, false⟩) :
    Touches legit (readSlice target region addr count : Call _) caller :=
  touches_once rfl rfl allowed

theorem touches_write_cell {region : Region} {addr : Addr} {value : region.Value}
    (allowed : legit ⟨region, addr, 1, true⟩) :
    Touches legit (writeCell region addr value : Call _) caller := touches_once rfl rfl allowed

theorem touches_write_slice {target : Target} {region : Region} {addr : Addr}
    {values : List region.Value} (allowed : legit ⟨region, addr, values.length, true⟩) :
    Touches legit (writeSlice target region addr values : Call _) caller :=
  touches_once rfl rfl allowed

theorem touches_proxy {ε : Type} [FromUnit ε] (fn : ProxyFn ε α) :
    Touches legit fn.run caller := fun _ _ member => Or.inl member

theorem touches_ask {ε : Type} [FromUnit ε] {fn : ProxyFn ε α}
    {next : Option (Except ε α) → Call β} (goesOn : ∀ answer after,
      Touches legit (next answer) after) : Touches legit (fn.run >>= next) caller :=
  touches_bind (touches_proxy fn) goesOn

theorem touches_then_ok {first : Call Unit} (starts : Touches legit first caller) :
    Touches legit (do first; pure CkRv.ok) caller :=
  touches_bind starts fun _ _ => touches_pure _

theorem touches_of_reads {program : Call α} {outcome : α} {after : Caller}
    (reads : ReadsTo legit program caller outcome after) : Touches legit program caller := by
  rw [Touches, reads.1]
  intro access member
  rcases reads.2.accesses access member with old | ⟨_, allowed⟩
  · exact Or.inl old
  · exact Or.inr allowed

end Accesses

theorem store_attribute_touches {target : Target} {buffers : List Buffer} {addr : Addr}
    (present : addr ≠ null) (attr : CkAttribute) (value : Option Bytes) (caller : Caller) :
    Touches (Legit target buffers) (storeAttribute target addr attr value) caller := by
  have stores (stored : CkAttribute) (rv : CkRv) (now : Caller) : Touches (Legit target buffers)
      (do writeCell .attribute addr stored; pure rv) now :=
    touches_bind (touches_write_cell (legit_write 1 present)) fun _ _ => touches_pure _
  cases value with
  | none => exact stores _ _ caller
  | some attrValue =>
      apply touches_ite (fun _ => stores _ _ caller)
      intro there
      apply touches_ite (fun _ => stores _ _ caller)
      intro _
      exact touches_bind (touches_write_slice (legit_write _ there)) fun _ after =>
        stores _ _ after

theorem next_present {addr size : Nat} (present : addr ≠ 0) : addr + size ≠ 0 := by omega

theorem store_attributes_touches {target : Target} {buffers : List Buffer} {addr : Addr}
    (present : addr ≠ null) (entries : List (CkAttribute × Option Bytes)) (rv : CkRv)
    (caller : Caller) :
    Touches (Legit target buffers) (storeAttributes target addr entries rv) caller := by
  induction entries generalizing addr rv caller with
  | nil => exact touches_pure rv
  | cons entry rest ih =>
      rcases entry with ⟨attr, value⟩
      apply touches_bind (store_attribute_touches present attr value caller)
      intro one after
      exact ih (next_present present) _ after

theorem value_read {legit : Access → Prop} (target : Target) {ptr : Addr} {len : CkUlong}
    {before caller : Caller} (fine : ¬ (ptr = null ∧ len ≠ 0))
    (allowed : ptr ≠ null → legit ⟨.bytes, ptr, len, false⟩) (reads : Reads legit before caller) :
    ∃ after, Reads legit before after ∧ inputSlice target ptr len caller =
      .ret (.ok (caller.memory.slice target .bytes ptr len), after) := by
  rw [input_slice_run, if_neg fine]
  by_cases nothing : ptr = null
  · rw [if_pos nothing]
    exact ⟨caller, reads, rfl⟩
  · rw [if_neg nothing]
    exact ⟨_, reads.loaded (allowed nothing), rfl⟩

def CkAttribute.copied (target : Target) (memory : Memory) (attr : CkAttribute) :
    CkAttributeType × Bytes :=
  (attr.attrType, memory.slice target .bytes attr.pValue attr.ulValueLen)

theorem template_entry {legit : Access → Prop} {target : Target} (count : Nat) {addr : Addr}
    {caller : Caller}
    (value : (caller.memory .attribute addr).pValue ≠ null → legit ⟨.bytes,
      (caller.memory .attribute addr).pValue, (caller.memory .attribute addr).ulValueLen, false⟩) :
    ((caller.memory .attribute addr).BadValue ∧ readTemplate target (count + 1) addr caller =
        .ret (.error .argumentsBad, caller.loaded .attribute addr 1)) ∨
      (¬ (caller.memory .attribute addr).BadValue ∧ ∃ read,
        Reads legit (caller.loaded .attribute addr 1) read ∧ ∀ outcome after,
          readTemplate target count (addr + target.sizeOfAttribute) read = .ret (outcome, after) →
          readTemplate target (count + 1) addr caller = .ret
            (outcome.map ((caller.memory .attribute addr).copied target caller.memory :: ·),
              after)) := by
  by_cases large : (caller.memory .attribute addr).ulValueLen > maxAttributeValueLen
  · refine Or.inl ⟨Or.inl large, ?_⟩
    simp [readTemplate, large]
  · by_cases missing : (caller.memory .attribute addr).pValue = null ∧
        (caller.memory .attribute addr).ulValueLen ≠ 0
    · refine Or.inl ⟨Or.inr missing, ?_⟩
      simp only [readTemplate, ffi_bind, read_cell_run, ret_bind, large, ↓reduceIte,
        input_slice_run]
      rw [if_pos missing]
      rfl
    · obtain ⟨read, reads, run⟩ := value_read target missing value
        (.refl legit (caller.loaded .attribute addr 1))
      refine Or.inr ⟨not_or.mpr ⟨large, missing⟩, read, reads, ?_⟩
      intro outcome after ended
      simp only [readTemplate, ffi_bind, read_cell_run, ret_bind, large, ↓reduceIte, run, ended]
      cases outcome <;> rfl

theorem read_template_read (legit : Access → Prop) (target : Target) (count : Nat) (addr : Addr)
    (caller : Caller)
    (entries : ∀ index < count, legit ⟨.attribute, addr + index * target.sizeOfAttribute, 1, false⟩)
    (values : ∀ attr ∈ caller.memory.slice target .attribute addr count, attr.pValue ≠ null →
      legit ⟨.bytes, attr.pValue, attr.ulValueLen, false⟩) :
    ∃ outcome after, ReadsTo legit (readTemplate target count addr) caller outcome after ∧
      ((∃ attr ∈ caller.memory.slice target .attribute addr count, attr.BadValue) →
        outcome = .error .argumentsBad) := by
  -- Copying a template reads its entries and their values, and refuses the first bad one.
  induction count generalizing addr caller with
  | zero =>
      refine ⟨.ok [], caller, ⟨rfl, .refl _ caller⟩, ?_⟩
      rintro ⟨attr, member, _⟩
      cases member
  | succ count ih =>
      rw [Memory.slice_succ] at values ⊢
      have entry : Reads legit caller (caller.loaded .attribute addr 1) :=
        (Reads.refl _ caller).loaded (by simpa using entries 0 (Nat.succ_pos count))
      rcases template_entry count (values _ List.mem_cons_self) with
        ⟨_, run⟩ | ⟨fine, read, reads, run⟩
      · exact ⟨_, _, ⟨run, entry⟩, fun _ => rfl⟩
      -- This entry is fine, so a bad one is among those that follow.
      · have kept : read.memory = caller.memory := reads.memory
        have shifted (index : Nat) : addr + (index + 1) * target.sizeOfAttribute =
            addr + target.sizeOfAttribute + index * target.sizeOfAttribute := by
          rw [Nat.succ_mul, Nat.add_comm (index * _), Nat.add_assoc]
        obtain ⟨outcome, after, ⟨ended, later⟩, refuses⟩ :=
          ih (addr + target.sizeOfAttribute) read
            (fun index below => shifted index ▸ entries (index + 1) (Nat.succ_lt_succ below))
            (fun attr member => values attr (List.mem_cons_of_mem _ (kept ▸ member)))
        refine ⟨_, after, ⟨run outcome after ended, entry.trans (reads.trans later)⟩, ?_⟩
        rintro ⟨attr, member, bad⟩
        rcases List.mem_cons.mp member with same | inside
        · exact absurd (same ▸ bad) fine
        · rw [refuses ⟨attr, kept ▸ inside, bad⟩]
          rfl

theorem template_legit {target : Target} {buffers : List Buffer} {pTemplate : Addr} {count : Nat}
    (declared : ⟨pTemplate, count * target.sizeOfAttribute⟩ ∈ buffers)
    (present : pTemplate ≠ null) {index : Nat} (below : index < count) :
    Legit target buffers
      ⟨.attribute, pTemplate + index * target.sizeOfAttribute, 1, false⟩ := by
  refine ⟨next_present present, fun _ => ⟨_, declared, _, rfl, Nat.le_add_right _ _, ?_⟩⟩
  have inside : (index + 1) * target.sizeOfAttribute ≤ count * target.sizeOfAttribute :=
    Nat.mul_le_mul_right _ below
  rw [Nat.succ_mul] at inside
  rw [Nat.one_mul, Nat.add_assoc]
  exact Nat.add_le_add_left inside pTemplate

theorem get_attribute_value_touches {target : Target} {buffers : List Buffer}
    (hObject : CkObjectHandle) {pTemplate : Addr} {count : CkUlong}
    (declared : ⟨pTemplate, count * target.sizeOfAttribute⟩ ∈ buffers) (caller : Caller) :
    Touches (Legit target buffers) (cGetAttributeValue target hObject pTemplate count) caller := by
  apply touches_ite (fun _ => touches_pure _)
  intro present
  apply touches_ite (fun _ => touches_pure _)
  intro _
  -- The template is read before the manager is asked, and again after.
  have template (now : Caller) : Touches (Legit target buffers)
      (readSlice target .attribute pTemplate count) now :=
    touches_read_slice (legit_whole ⟨pTemplate, _⟩ rfl rfl declared present)
  apply touches_bind (template caller)
  intro attrs after
  apply touches_ask
  intro answer after
  match answer with
  | none => exact touches_pure _
  | some (.error ()) => exact touches_pure _
  | some (.ok values) =>
      apply touches_ite (fun _ => touches_pure _)
      intro _
      exact touches_bind (template after) fun again later =>
        store_attributes_touches present _ _ later

theorem find_objects_init_touches {target : Target} {buffers : List Buffer}
    (hSession : CkSessionHandle) {pTemplate : Addr} {count : CkUlong} {caller : Caller}
    (declared : ⟨pTemplate, count * target.sizeOfAttribute⟩ ∈ buffers)
    (values : ∀ attr ∈ caller.memory.slice target .attribute pTemplate count,
      attr.buffer ∈ buffers) :
    Touches (Legit target buffers) (cFindObjectsInit target hSession pTemplate count) caller := by
  apply touches_ite (fun _ => touches_pure _)
  intro present
  apply touches_ite (fun _ => touches_pure _)
  intro _
  obtain ⟨outcome, after, reads, _⟩ := read_template_read (Legit target buffers) target count
    pTemplate caller
    (fun _ below => template_legit declared present below)
    (fun attr member there => legit_whole attr.buffer rfl (Nat.mul_one _).symm
      (values attr member) there)
  apply touches_bind (touches_of_reads reads)
  intro copied later
  cases copied with
  | error rv => exact touches_pure rv
  | ok attrs =>
      apply touches_ask
      intro answer last
      match answer with
      | none => exact touches_pure _
      | some (.error ()) => exact touches_pure _
      | some (.ok ()) => exact touches_pure _

theorem find_objects_touches {target : Target} {buffers : List Buffer}
    (hSession : CkSessionHandle) (phObject : Addr) (max : CkUlong) (pulCount : Addr)
    (caller : Caller) :
    Touches (Legit target buffers) (cFindObjects target hSession phObject max pulCount) caller := by
  apply touches_ite (fun _ => touches_pure _)
  intro fine
  obtain ⟨objects, rest⟩ := not_or.mp fine
  apply touches_ask
  intro answer after
  match answer with
  | none => exact touches_pure _
  | some (.error ()) => exact touches_pure _
  | some (.ok handles) =>
      apply touches_ite (fun _ => touches_pure _)
      intro _
      apply touches_bind (touches_write_cell (legit_write 1 (not_or.mp rest).1))
      intro _ later
      exact touches_then_ok (touches_write_slice (legit_write _ objects))

theorem get_mechanism_list_touches {target : Target} {buffers : List Buffer} (slotID : CkUlong)
    (pList : Addr) {pulCount : Addr} (declared : Buffer.slot target pulCount ∈ buffers)
    (caller : Caller) :
    Touches (Legit target buffers) (cGetMechanismList target slotID pList pulCount) caller := by
  apply touches_ite (fun _ => touches_pure _)
  intro fine
  have present : pulCount ≠ null := (not_or.mp fine).2
  have counts (now : Caller) : Touches (Legit target buffers)
      (do writeCell .ulong pulCount mechanisms.length; pure CkRv.ok) now :=
    touches_then_ok (touches_write_cell (legit_write 1 present))
  refine touches_ite (fun list => ?_) fun _ => counts caller
  apply touches_bind (touches_read_cell (legit_slot declared present))
  intro count after
  apply touches_ite (fun _ => touches_pure _)
  intro _
  exact touches_bind (touches_write_slice (legit_write _ list)) fun _ later => counts later

theorem get_slot_list_touches {target : Target} {buffers : List Buffer} (pSlotList : Addr)
    {pulCount : Addr} (declared : Buffer.slot target pulCount ∈ buffers) (caller : Caller) :
    Touches (Legit target buffers) (cGetSlotList pSlotList pulCount) caller := by
  apply touches_ite (fun _ => touches_pure _)
  intro present
  apply touches_bind (touches_write_cell (legit_write 1 present))
  intro _ after
  refine touches_ite (fun list => ?_) fun _ => touches_pure _
  apply touches_bind (touches_read_cell (legit_slot declared present))
  intro slotCount later
  apply touches_ite (fun _ => touches_pure _)
  intro _
  exact touches_then_ok (touches_write_cell (legit_write 1 list))

theorem store_record_touches {target : Target} {buffers : List Buffer} {region : Region}
    {addr : Addr} (present : addr ≠ null) (value : region.Value) (caller : Caller) :
    Touches (Legit target buffers) (do writeCell region addr value; pure CkRv.ok : Call CkRv) caller :=
  touches_then_ok (touches_write_cell (legit_write 1 present))

theorem ask_unit_touches {legit : Access → Prop} {fn : ProxyFn Unit Unit} {caller : Caller}
    {next : Option (Except Unit Unit) → Call CkRv}
    (answers : ∀ answer, ∃ rv, next answer = pure rv) :
    Touches legit (fn.run >>= next) caller := by
  apply touches_ask
  intro answer after
  obtain ⟨rv, same⟩ := answers answer
  rw [same]
  exact touches_pure rv

/-- None of the functions outside the operations follows a pointer it should not. -/
theorem plain_touches (target : Target) {exported : ExportedCall} (memory : Memory)
    (noOutput : exported.outputCall = none) (noUpdate : exported.updateCall = none)
    (noInit : exported.initCall = none) : Touches (Legit target (exported.declared target memory))
      (exported.run target) ⟨memory, []⟩ := by
  have declared {buffer : Buffer} (member : buffer ∈ exported.plainDeclared target memory) :
      buffer ∈ exported.declared target memory :=
    List.mem_append_left _ (List.mem_append_left _ (List.mem_append_left _ member))
  cases exported with
  | cInitialize | cFinalize => exact fun _ _ member => Or.inl member
  | cLogout | notSupported => exact touches_pure _
  | cGetInfo pInfo | cGetFunctionList pInfo =>
      exact touches_ite (fun _ => touches_pure _) fun present =>
        store_record_touches present _ _
  | cGetSlotInfo slotID pInfo | cGetTokenInfo slotID pInfo =>
      exact touches_ite (fun _ => touches_pure _) fun fine =>
        store_record_touches (not_or.mp fine).2 _ _
  | cGetMechanismInfo slotID type pInfo =>
      apply touches_ite (fun _ => touches_pure _)
      intro _
      apply touches_ite (fun _ => touches_pure _)
      intro present
      cases mechanismInfo type with
      | none => exact touches_pure _
      | some info => exact store_record_touches present _ _
  | cOpenSession slotID flags phSession =>
      apply touches_ite (fun _ => touches_pure _)
      intro fine
      have present : phSession ≠ null := (not_or.mp (not_or.mp fine).2).1
      apply touches_ask
      intro answer after
      match answer with
      | none => exact touches_pure _
      | some (.error ()) => exact touches_pure _
      | some (.ok session) => exact store_record_touches present _ _
  | cGetSessionInfo session pInfo =>
      apply touches_ite (fun _ => touches_pure _)
      intro present
      apply touches_ask
      intro answer after
      match answer with
      | none => exact touches_pure _
      | some (.error ()) => exact touches_pure _
      | some (.ok flags) => exact store_record_touches present _ _
  | cCloseSession session | cFindObjectsFinal session =>
      apply ask_unit_touches
      intro answer
      rcases answer with _ | ⟨_ | _⟩ <;> exact ⟨_, rfl⟩
  | cCloseAllSessions slotID =>
      apply touches_ite (fun _ => touches_pure _)
      intro _
      apply ask_unit_touches
      intro answer
      rcases answer with _ | ⟨_ | _⟩ <;> exact ⟨_, rfl⟩
  | cGetSlotList pSlotList pulCount =>
      exact get_slot_list_touches pSlotList (declared List.mem_cons_self) _
  | cGetMechanismList slotID pList pulCount =>
      exact get_mechanism_list_touches slotID pList (declared List.mem_cons_self) _
  | cGetAttributeValue object pTemplate count =>
      exact get_attribute_value_touches object (declared List.mem_cons_self) _
  | cFindObjectsInit session pTemplate count =>
      exact find_objects_init_touches session (declared List.mem_cons_self) fun attr member =>
        declared (List.mem_cons_of_mem _ (List.mem_map_of_mem member))
  | cFindObjects session phObject max pulCount =>
      exact find_objects_touches session phObject max pulCount _
  | cSign | cSignFinal | cEncrypt | cEncryptFinal | cDecrypt | cDecryptFinal => cases noOutput
  | cSignUpdate | cEncryptUpdate | cDecryptUpdate => cases noUpdate
  | cSignInit | cEncryptInit | cDecryptInit => cases noInit

/-- An error, with nothing written and the manager not asked. -/
def Refused (target : Target) (exported : ExportedCall) (memory : Memory) : Prop :=
  ∃ rv after, exported.run target ⟨memory, []⟩ = .ret (rv, after) ∧ rv ≠ .ok ∧
    after.memory = memory

theorem refused_first {target : Target} {exported : ExportedCall} {memory : Memory} {rv : CkRv}
    (run : exported.run target ⟨memory, []⟩ = .ret (rv, ⟨memory, []⟩)) (error : rv ≠ .ok) :
    Refused target exported memory := ⟨rv, _, run, error, rfl⟩

theorem find_objects_init_refuses {target : Target} {memory : Memory} (hSession : CkSessionHandle)
    {pTemplate : Addr} {count : CkUlong}
    (bad : pTemplate = null ∨ count > maxTemplateCount ∨
      ∃ attr ∈ memory.slice target .attribute pTemplate count, attr.BadValue) :
    Refused target (.cFindObjectsInit hSession pTemplate count) memory := by
  by_cases missing : pTemplate = null
  · exact refused_first (congrFun (if_pos missing) _) (by decide)
  · by_cases many : count > maxTemplateCount
    · exact refused_first (congrFun ((if_neg missing).trans (if_pos many)) _) (by decide)
    · obtain ⟨outcome, after, ⟨ended, reads⟩, refuses⟩ := read_template_read (fun _ => True) target
        count pTemplate ⟨memory, []⟩ (fun _ _ => trivial) (fun _ _ _ => trivial)
      have values := (bad.resolve_left missing).resolve_left many
      refine ⟨.argumentsBad, after, ?_, by decide, reads.memory⟩
      simp only [ExportedCall.run, cFindObjectsInit, missing, many, ↓reduceIte, ffi_bind, ended,
        refuses values]
      rfl

theorem plain_refuses {target : Target} {exported : ExportedCall} {memory : Memory}
    (bad : exported.PlainBadArguments target memory) : Refused target exported memory := by
  cases exported with
  | cGetInfo pInfo => exact refused_first (congrFun (if_pos bad) _) (by decide)
  | cGetFunctionList pp => exact refused_first (congrFun (if_pos bad) _) (by decide)
  | cGetSlotList pSlotList pulCount => exact refused_first (congrFun (if_pos bad) _) (by decide)
  | cGetSlotInfo slotID pInfo =>
      exact refused_first (congrFun (if_pos (Or.inr bad)) _) (by decide)
  | cGetTokenInfo slotID pInfo =>
      exact refused_first (congrFun (if_pos (Or.inr bad)) _) (by decide)
  | cGetMechanismList slotID pList pulCount =>
      exact refused_first (congrFun (if_pos (Or.inr bad)) _) (by decide)
  | cGetMechanismInfo slotID type pInfo =>
      by_cases other : slotID ≠ slotId
      · exact refused_first (congrFun (if_pos other) _) (by decide)
      · exact refused_first (congrFun ((if_neg other).trans (if_pos bad)) _) (by decide)
  | cOpenSession slotID flags phSession =>
      exact refused_first (congrFun (if_pos (Or.inr (Or.inl bad))) _) (by decide)
  | cGetSessionInfo session pInfo => exact refused_first (congrFun (if_pos bad) _) (by decide)
  | cGetAttributeValue object pTemplate count =>
      by_cases missing : pTemplate = null
      · exact refused_first (congrFun (if_pos missing) _) (by decide)
      · have many := bad.resolve_left missing
        exact refused_first (congrFun ((if_neg missing).trans (if_pos many)) _) (by decide)
  | cFindObjectsInit session pTemplate count => exact find_objects_init_refuses session bad
  | cFindObjects session phObject max pulCount =>
      exact refused_first (congrFun (if_pos bad) _) (by decide)
  | _ => cases bad

end OsClientCerts
