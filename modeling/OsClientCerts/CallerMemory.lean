import OsClientCerts.Resumption
import OsClientCerts.Pkcs11

/-!
What an exported function does with the pointers it is given. Memory is typed:
a pointer is followed at the type the code reads or writes it at, and every such
access is recorded with its extent. Following a null pointer is recorded like
any other access; it is for the theorems to say that it does not happen.
-/

namespace OsClientCerts
open Resumption

inductive Region where
  | bytes | ulong | attribute | mechanism | pssParams | oaepParams
  | info | slotInfo | tokenInfo | mechanismInfo | sessionInfo | functionList
  deriving DecidableEq, Repr

/-- A pointer to a function list: the module's own, or whatever the caller had there. -/
inductive FunctionListPtr where
  | functionList
  | foreign (addr : Addr)
  deriving DecidableEq, Repr

abbrev Region.Value : Region → Type
  | .bytes => UInt8
  | .ulong => CkUlong
  | .attribute => CkAttribute
  | .mechanism => CkMechanism
  | .pssParams => CkRsaPkcsPssParams
  | .oaepParams => CkRsaPkcsOaepParams
  | .info => CkInfo
  | .slotInfo => CkSlotInfo
  | .tokenInfo => CkTokenInfo
  | .mechanismInfo => CkMechanismInfo
  | .sessionInfo => CkSessionInfo
  | .functionList => FunctionListPtr

/-- The distance between two elements of an array. Only the first three regions
are ever used as arrays. -/
def Region.stride (target : Target) : Region → Nat
  | .bytes => 1
  | .ulong => target.ulongBytes
  | .attribute => target.sizeOfAttribute
  | _ => 1

structure Access where
  region : Region
  addr : Addr
  count : Nat
  write : Bool
  deriving DecidableEq, Repr

abbrev Memory := (region : Region) → Addr → region.Value

def Memory.blank : Memory
  | .bytes, _ => 0
  | .ulong, _ => 0
  | .attribute, _ => ⟨0, null, 0⟩
  | .mechanism, _ => ⟨0, null, 0⟩
  | .pssParams, _ => ⟨0, 0, 0⟩
  | .oaepParams, _ => ⟨0, 0, 0, null, 0⟩
  | .info, _ => ⟨{}, "", ""⟩
  | .slotInfo, _ => ⟨"", "", 0, {}, {}⟩
  | .tokenInfo, _ => ⟨"", "", "", "", 0⟩
  | .mechanismInfo, _ => ⟨0, 0, 0⟩
  | .sessionInfo, _ => ⟨0, 0, 0, 0⟩
  | .functionList, _ => .foreign null

def Memory.set (memory : Memory) (region : Region) (addr : Addr) (value : region.Value) : Memory :=
  Function.update memory region (Function.update (memory region) addr value)

def Memory.slice (memory : Memory) (target : Target) (region : Region) (addr : Addr) (count : Nat) :
    List region.Value :=
  (List.range count).map fun index => memory region (addr + index * region.stride target)

def Memory.setSlice (memory : Memory) (target : Target) (region : Region) (addr : Addr) :
    List region.Value → Memory
  | [] => memory
  | value :: rest =>
      (memory.set region addr value).setSlice target region (addr + region.stride target) rest

@[simp] theorem Memory.set_same (memory : Memory) (region : Region) (addr : Addr)
    (value : region.Value) : memory.set region addr value region addr = value := by
  simp [Memory.set]

@[simp] theorem Memory.set_other (memory : Memory) {region other : Region} (addr : Addr)
    (value : region.Value) (different : other ≠ region) :
    memory.set region addr value other = memory other := by
  simp [Memory.set, different]

@[simp] theorem Memory.slice_set_other (memory : Memory) (target : Target) {region other : Region}
    (addr start : Addr) (count : Nat) (value : region.Value) (different : other ≠ region) :
    (memory.set region addr value).slice target other start count =
      memory.slice target other start count := by
  simp only [Memory.slice, Memory.set_other _ _ _ different]

@[simp] theorem Memory.set_slice_other (memory : Memory) (target : Target) {region other : Region}
    (addr : Addr) (values : List region.Value) (different : other ≠ region) :
    memory.setSlice target region addr values other = memory other := by
  induction values generalizing memory addr with
  | nil => rfl
  | cons value rest ih =>
      rw [Memory.setSlice, ih]
      exact Memory.set_other memory addr value different

@[simp] theorem Memory.slice_length (memory : Memory) (target : Target) (region : Region)
    (addr : Addr) (count : Nat) : (memory.slice target region addr count).length = count := by
  simp [Memory.slice]

theorem Memory.slice_succ (memory : Memory) (target : Target) (region : Region) (addr : Addr)
    (count : Nat) : memory.slice target region addr (count + 1) =
      memory region addr :: memory.slice target region (addr + region.stride target) count := by
  have shifted (index : Nat) : addr + (index + 1) * region.stride target =
      addr + region.stride target + index * region.stride target := by
    rw [Nat.succ_mul, Nat.add_comm (index * _), Nat.add_assoc]
  simp only [Memory.slice, List.range_succ_eq_map, List.map_cons, List.map_map, Nat.zero_mul,
    Nat.add_zero, List.cons.injEq, true_and]
  exact List.map_congr_left fun index _ => congrArg _ (shifted index)

theorem Memory.set_slice_before (memory : Memory) (target : Target) (region : Region)
    {addr there : Addr} (values : List region.Value) (before : there < addr) :
    memory.setSlice target region addr values region there = memory region there := by
  induction values generalizing memory addr with
  | nil => rfl
  | cons value rest ih =>
      rw [Memory.setSlice, ih _ (Nat.lt_of_lt_of_le before (Nat.le_add_right _ _))]
      simp [Memory.set, Nat.ne_of_lt before]

theorem Memory.slice_set_slice (memory : Memory) (target : Target) (addr : Addr) (values : Bytes) :
    (memory.setSlice target .bytes addr values).slice target .bytes addr values.length =
      values := by
  induction values generalizing memory addr with
  | nil => rfl
  | cons value rest ih =>
      have tail := ih (memory.set .bytes addr value) (addr + 1)
      have head : ((memory.set .bytes addr value).setSlice target .bytes (addr + 1) rest) .bytes
          addr = value := by
        rw [Memory.set_slice_before _ _ _ _ (Nat.lt_succ_self addr), Memory.set_same]
      -- The rest is written behind the first byte and leaves it alone.
      rw [List.length_cons, Memory.slice_succ]
      exact List.cons_eq_cons.mpr ⟨head, tail⟩

structure Caller where
  memory : Memory
  accesses : List Access := []

namespace Caller
variable (target : Target) (caller : Caller) (region : Region) (addr : Addr)

def loaded (count : Nat) : Caller :=
  { caller with accesses := caller.accesses ++ [⟨region, addr, count, false⟩] }

def stored (value : region.Value) : Caller where
  memory := caller.memory.set region addr value
  accesses := caller.accesses ++ [⟨region, addr, 1, true⟩]

def copied (values : List region.Value) : Caller where
  memory := caller.memory.setSlice target region addr values
  accesses := caller.accesses ++ [⟨region, addr, values.length, true⟩]

@[simp] theorem loaded_memory (count : Nat) :
    (caller.loaded region addr count).memory = caller.memory := rfl
@[simp] theorem loaded_accesses (count : Nat) : (caller.loaded region addr count).accesses =
    caller.accesses ++ [⟨region, addr, count, false⟩] := rfl
@[simp] theorem stored_memory (value : region.Value) :
    (caller.stored region addr value).memory = caller.memory.set region addr value := rfl
@[simp] theorem stored_accesses (value : region.Value) :
    (caller.stored region addr value).accesses =
      caller.accesses ++ [⟨region, addr, 1, true⟩] := rfl
@[simp] theorem copied_memory (values : List region.Value) :
    (caller.copied target region addr values).memory =
      caller.memory.setSlice target region addr values := rfl
@[simp] theorem copied_accesses (values : List region.Value) :
    (caller.copied target region addr values).accesses =
      caller.accesses ++ [⟨region, addr, values.length, true⟩] := rfl

end Caller

/-- An exported function, or a part of one: it follows the caller's pointers and
makes calls to the module state. -/
abbrev Ffi (S : Signature) (α : Type) := StateT Caller (Prog S) α

section Primitives
variable {S : Signature} (target : Target) (region : Region) (addr : Addr)

def readCell : Ffi S region.Value := fun caller =>
  pure (caller.memory region addr, caller.loaded region addr 1)

def readSlice (count : Nat) : Ffi S (List region.Value) := fun caller =>
  pure (caller.memory.slice target region addr count, caller.loaded region addr count)

def writeCell (value : region.Value) : Ffi S Unit := fun caller =>
  pure ((), caller.stored region addr value)

def writeSlice (values : List region.Value) : Ffi S Unit := fun caller =>
  pure ((), caller.copied target region addr values)

end Primitives

/-! Running a part of an exported function. -/
section Running
variable {S : Signature} {α β : Type} (target : Target) (region : Region) (addr : Addr)
  (caller : Caller)

@[simp] theorem ffi_pure (value : α) : (pure value : Ffi S α) caller = .ret (value, caller) := rfl

@[simp] theorem ffi_bind (first : Ffi S α) (next : α → Ffi S β) :
    (first >>= next) caller = first caller >>= fun result => next result.1 result.2 := rfl

@[simp] theorem read_cell_run : (readCell region addr : Ffi S _) caller =
    .ret (caller.memory region addr, caller.loaded region addr 1) := rfl

@[simp] theorem read_slice_run (count : Nat) : (readSlice target region addr count : Ffi S _) caller =
    .ret (caller.memory.slice target region addr count, caller.loaded region addr count) := rfl

@[simp] theorem write_cell_run (value : region.Value) :
    (writeCell region addr value : Ffi S _) caller =
      .ret ((), caller.stored region addr value) := rfl

@[simp] theorem write_slice_run (values : List region.Value) :
    (writeSlice target region addr values : Ffi S _) caller =
      .ret ((), caller.copied target region addr values) := rfl

end Running

def Touches {S : Signature} {α : Type} (legit : Access → Prop) (program : Ffi S α)
    (caller : Caller) : Prop :=
  (program caller).Ensures fun result =>
    ∀ access ∈ result.2.accesses, access ∈ caller.accesses ∨ legit access

section Touching
variable {S : Signature} {α β : Type} {legit : Access → Prop} {caller : Caller}

theorem touches_pure (value : α) : Touches legit (pure value : Ffi S α) caller :=
  fun _ member => Or.inl member

theorem touches_bind {first : Ffi S α} {next : α → Ffi S β} (starts : Touches legit first caller)
    (goesOn : ∀ value after, Touches legit (next value) after) :
    Touches legit (first >>= next) caller := by
  apply ensures_bind starts
  intro result earlier
  apply (goesOn result.1 result.2).mono
  intro ended later access member
  rcases later access member with before | allowed
  · exact earlier access before
  · exact Or.inr allowed

theorem touches_ite {condition : Prop} [Decidable condition] {first second : Ffi S α}
    (yes : condition → Touches legit first caller) (no : ¬ condition → Touches legit second caller) :
    Touches legit (if condition then first else second) caller := by
  by_cases holds : condition
  · rw [if_pos holds]
    exact yes holds
  · rw [if_neg holds]
    exact no holds

theorem touches_once {program : Ffi S α} {value : α} {after : Caller} {access : Access}
    (run : program caller = .ret (value, after))
    (recorded : after.accesses = caller.accesses ++ [access]) (allowed : legit access) :
    Touches legit program caller := by
  rw [Touches, run]
  intro made member
  rw [recorded] at member
  rcases List.mem_append.mp member with old | new
  · exact Or.inl old
  · rw [List.mem_singleton.mp new]
    exact Or.inr allowed

end Touching
end OsClientCerts
