import OsClientCerts.RootTrust

/-!
The usages that Windows lets a certificate have, against the email trust it is granted.
An empty list of usages says either that there is no restriction or that no use is left,
and only the last error tells the two apart, which is not asked for.
-/

namespace OsClientCerts.Windows
open BoundedWalk FirstSeen

/-- What `CertGetEnhancedKeyUsage` documents: identifiers, or none at all, with
`CRYPT_E_NOT_FOUND` as the last error if nothing is restricted and 0 if no use is valid. -/
inductive EnhancedKeyUsage where
  | listed (first : Option Bytes) (others : List (Option Bytes))
  | noRestriction
  | noValidUses
  deriving DecidableEq

def EnhancedKeyUsage.identifiers : EnhancedKeyUsage → List (Option Bytes)
  | .listed first others => first :: others
  | .noRestriction | .noValidUses => []

def EnhancedKeyUsage.PermitsEmail : EnhancedKeyUsage → Prop
  | .listed first others => some oidEmailProtection ∈ first :: others
  | .noRestriction => True
  | .noValidUses => False

/-- Both calls succeed: the first gives a size, 0 at most where there is nothing to list,
and the second, with that much room, the identifiers. -/
def AnswersUsage (os : Stores) (usage : Bytes → EnhancedKeyUsage) : Prop :=
  ∀ der, ∃ size unused written,
    os.certGetEnhancedKeyUsage der none = some (size, unused) ∧
    os.certGetEnhancedKeyUsage der (some size) = some (written, (usage der).identifiers) ∧
    (size = 0 → (usage der).identifiers = [])

section
variable {os : Stores} {usage : Bytes → EnhancedKeyUsage} {leaves : List Bytes}

theorem listed_permits {known : EnhancedKeyUsage} :
    (known.identifiers = [] ∨ some oidEmailProtection ∈ known.identifiers) ↔
      known.PermitsEmail ∨ known = .noValidUses := by
  cases known <;> simp [EnhancedKeyUsage.identifiers, EnhancedKeyUsage.PermitsEmail]

theorem eku_permits_iff (answers : AnswersUsage os usage) (der : Bytes) :
    ekuPermitsEmailProtection os der = true ↔
      (usage der).PermitsEmail ∨ usage der = .noValidUses := by
  -- Whatever is not listed at all passes.
  obtain ⟨size, unused, written, sized, asked, nothing⟩ := answers der
  rw [← listed_permits, ekuPermitsEmailProtection, sized]
  dsimp only
  split
  · rename_i none
    simp [nothing none]
  · rw [asked]
    simp

def TrustPermitted (os : Stores) (usage : Bytes → EnhancedKeyUsage) (leaves : List Bytes) :
    Prop :=
  ∀ trust, .trust trust ∈ listRootTrustObjects os leaves →
    ∃ ca ∈ os.root, Trust.new os ca = .ok trust ∧ (usage ca).PermitsEmail

/-- The walks come to no certificate of ROOT whose uses were all taken away, but for one
that has the trust record of a permitted one. -/
def NoDisabledRoot (os : Stores) (usage : Bytes → EnhancedKeyUsage) (leaves : List Bytes) :
    Prop :=
  os.Opened → ∀ ca ∈ os.root, usage ca = .noValidUses → FirstOfDigest os leaves ca →
    ∃ same ∈ os.root, Trust.new os same = Trust.new os ca ∧ (usage same).PermitsEmail

theorem trust_permitted_iff (answers : AnswersUsage os usage) :
    TrustPermitted os usage leaves ↔ NoDisabledRoot os usage leaves := by
  constructor
  · intro permitted opened ca inRoot disabled first
    obtain ⟨trust, made⟩ := trust_new_ok os ca
    have passes := (eku_permits_iff answers ca).mpr (Or.inr disabled)
    have emitted : .trust trust ∈ listRootTrustObjects os leaves := mem_emitted.mpr
      ⟨opened, ca, processed_first.mpr first, exposed_trust.mpr ⟨inRoot, passes, made⟩⟩
    obtain ⟨same, present, sameMade, permits⟩ := permitted trust emitted
    exact ⟨same, present, sameMade.trans made.symm, permits⟩
  · intro enabled trust emitted
    obtain ⟨opened, ca, processed, shown⟩ := mem_emitted.mp emitted
    obtain ⟨inRoot, passes, made⟩ := exposed_trust.mp shown
    rcases (eku_permits_iff answers ca).mp passes with permits | disabled
    · exact ⟨ca, inRoot, made, permits⟩
    · obtain ⟨same, present, sameTrust, permits⟩ :=
        enabled opened ca inRoot disabled (processed_first.mp processed)
      exact ⟨same, present, sameTrust.trans made, permits⟩

/-- The check decides a certificate, and the trust granted a scan, as the usages say
exactly where no certificate with no valid use is concerned. -/
theorem key_usage_respected_iff (answers : AnswersUsage os usage) (leaves : List Bytes) :
    (∀ der, (ekuPermitsEmailProtection os der = true ↔ (usage der).PermitsEmail) ↔
      usage der ≠ .noValidUses) ∧
    (TrustPermitted os usage leaves ↔ NoDisabledRoot os usage leaves) := by
  refine ⟨?_, trust_permitted_iff answers⟩
  intro der
  rw [eku_permits_iff answers der]
  cases usage der <;> simp [EnhancedKeyUsage.PermitsEmail]

end

/-- The usages answered for, in a list that takes sixteen bytes and eight for each entry. -/
def Stores.using (os : Stores) (usage : Bytes → EnhancedKeyUsage) : Stores :=
  { os with
    certGetEnhancedKeyUsage := fun der buffer =>
      some (16 + 8 * UInt32.ofNat (usage der).identifiers.length,
        if buffer.isSome then (usage der).identifiers else []) }

/-- A root with email protection among its usages, and one with no use left beside the chain. -/
theorem permitted_root_trusted :
    let usage : Bytes → EnhancedKeyUsage := fun der =>
      if der = [2] then .listed none [some oidEmailProtection] else .noValidUses
    let os := (Stores.issuing (fun der =>
      if der = [1] then some ([2], ⟨false, false⟩) else none) (· == [2]) [[2], [3]]).using usage
    (∀ der, (ekuPermitsEmailProtection os der = true ↔ (usage der).PermitsEmail) ↔
      usage der ≠ .noValidUses) ∧
    (TrustPermitted os usage [[1]] ↔ NoDisabledRoot os usage [[1]]) := by
  intro usage os
  apply key_usage_respected_iff
  intro der
  refine ⟨_, _, _, rfl, rfl, ?_⟩
  by_cases root : der = [2]
  · simp [usage, root, EnhancedKeyUsage.identifiers]
  · simp [usage, root, EnhancedKeyUsage.identifiers]

/-- Every use of the root was taken away in Windows, and it is granted email trust. -/
theorem disabled_root_trusted :
    let usage : Bytes → EnhancedKeyUsage := fun _ => .noValidUses
    let os := (Stores.issuing (fun der =>
      if der = [1] then some ([2], ⟨false, false⟩) else none) (· == [2]) [[2]]).using usage
    AnswersUsage os usage ∧
    ¬(ekuPermitsEmailProtection os [2] = true ↔ (usage [2]).PermitsEmail) ∧
    ¬TrustPermitted os usage [[1]] := by
  intro usage os
  have answers : AnswersUsage os usage := fun _ => ⟨_, _, _, rfl, rfl, fun _ => rfl⟩
  have passes : ekuPermitsEmailProtection os [2] = true := rfl
  refine ⟨answers, fun agree => agree.mp passes, ?_⟩
  intro permitted
  obtain ⟨trust, made⟩ := trust_new_ok os [2]
  have emitted : .trust trust ∈ listRootTrustObjects os [[1]] := mem_emitted.mpr
    ⟨⟨fun _ => rfl, rfl⟩, [2], processed_first.mpr rfl,
      exposed_trust.mpr ⟨List.mem_singleton_self _, passes, made⟩⟩
  obtain ⟨_, _, _, permits⟩ := permitted trust emitted
  exact permits

end OsClientCerts.Windows
