import OsClientCerts.IssuerChains

/-!
Which certificates and trust records a scan adds for the issuers of its leaves:
each at most once and whatever the order of the leaves, but neither past a certificate
that only shares its name with its issuer, nor with regard to the checks of the issuer.
-/

namespace OsClientCerts.Windows
open BoundedWalk FirstSeen

section
variable {os : Stores} {leaves : List Bytes}

theorem made_ok {α : Type} {made : Except Unit α} {value : α} :
    value ∈ made.toOption.toList ↔ made = .ok value := by
  cases made <;> simp [Except.toOption, eq_comm]

theorem exposed_cert {ca : Bytes} {cert : Cert} :
    .cert cert ∈ exposed os ca ↔ Cert.new os ca = .ok cert := by
  rw [exposed, List.mem_append, ← made_ok]
  constructor
  · rintro (made | trust)
    · simpa using made
    · split at trust
      · split at trust <;> simp at trust
      · simp at trust
  · intro made
    exact Or.inl (by simpa using made)

theorem exposed_trust {ca : Bytes} {trust : Trust} :
    .trust trust ∈ exposed os ca ↔
      ca ∈ os.root ∧ ekuPermitsEmailProtection os ca = true ∧ Trust.new os ca = .ok trust := by
  rw [exposed, List.mem_append, ← made_ok]
  by_cases inRoot : ca ∈ os.root
  · by_cases permits : ekuPermitsEmailProtection os ca = true
    · simp [certExistsInRoot, inRoot, permits]
    · simp [certExistsInRoot, inRoot, permits]
  · simp [certExistsInRoot, inRoot]

theorem exposed_key {ca : Bytes} {key : Key} : .key key ∉ exposed os ca := by
  rw [exposed, List.mem_append]
  rintro (cert | trust)
  · simp at cert
  · split at trust
    · split at trust <;> simp at trust
    · cases trust

theorem cert_new_value {der : Bytes} {cert : Cert} (made : Cert.new os der = .ok cert) :
    cert.value = der := by
  unfold Cert.new at made
  obtain ⟨label, _, rest⟩ := bind_ok made
  obtain ⟨classAttr, _, last⟩ := bind_ok rest
  cases last
  rfl

/-- Serializing a `CK_ULONG` never fails, so a trust record can always be made. -/
theorem trust_new_ok (os : Stores) (der : Bytes) : ∃ trust, Trust.new os der = .ok trust :=
  ⟨_, rfl⟩

def IssuerReaches (os : Stores) (leaves : List Bytes) (ca : Bytes) : Prop :=
  Reached (getIssuer os) (fun _ => True) maxChainDepth (chainLeaves os leaves) ca

/-- Without passing a certificate whose issuer name is its subject name. -/
def WalkReaches (os : Stores) (leaves : List Bytes) (ca : Bytes) : Prop :=
  Reached (getIssuer os) (fun found => certIsSelfSigned os found = false) maxChainDepth
    (chainLeaves os leaves) ca

def verifiedIssuer (os : Stores) (der : Bytes) : Option Bytes :=
  match os.certGetIssuer der requestedChecks with
  | some (issuer, failed) =>
      if failed.signature || failed.timeValidity then none else some issuer
  | none => none

def VerifiedReaches (os : Stores) (leaves : List Bytes) (ca : Bytes) : Prop :=
  Reached (verifiedIssuer os) (fun _ => True) maxChainDepth (chainLeaves os leaves) ca

/-- No two certificates that the walks come to have the same SHA-256 digest. -/
def DigestsApart (os : Stores) (leaves : List Bytes) : Prop :=
  ∀ left right, WalkReaches os leaves left → WalkReaches os leaves right →
    os.sha256 left = os.sha256 right → left = right

theorem walk_issuer {ca : Bytes} (reached : WalkReaches os leaves ca) :
    IssuerReaches os leaves ca :=
  reached.weaken (fun _ _ step => step) (fun _ _ => trivial)

theorem processed_reached {ca : Bytes} (member : ca ∈ processedIssuers os leaves) :
    WalkReaches os leaves ca := visited_reached member

theorem mem_processed (apart : DigestsApart os leaves) {ca : Bytes} :
    ca ∈ processedIssuers os leaves ↔ WalkReaches os leaves ca := mem_visited apart

theorem mem_emitted {object : WindowsObject} : object ∈ listRootTrustObjects os leaves ↔
    os.Opened ∧ ∃ ca ∈ processedIssuers os leaves, object ∈ exposed os ca := by
  by_cases opened : os.Opened
  · rw [root_trust_objects opened, List.mem_flatMap, and_iff_right opened]
  · rw [nothing_unopened opened]
    exact ⟨nofun, fun emitted => absurd emitted.1 opened⟩

theorem emitted_processed {ca : Bytes} {cert : Cert} (made : Cert.new os ca = .ok cert)
    (emitted : .cert cert ∈ listRootTrustObjects os leaves) : ca ∈ processedIssuers os leaves := by
  -- A certificate that is exposed is one that was processed.
  obtain ⟨_, other, processed, shown⟩ := mem_emitted.mp emitted
  have same : other = ca :=
    (cert_new_value (exposed_cert.mp shown)).symm.trans (cert_new_value made)
  exact same ▸ processed

def trustRecord : WindowsObject → Option Trust
  | .trust trust => some trust
  | _ => none

/-- Each certificate is exposed at most once, and at most once granted trust, which only
a certificate of ROOT is that permits email protection. -/
structure ExposedOnce (os : Stores) (leaves : List Bytes) : Prop where
  certs : (leafCertValues (listRootTrustObjects os leaves)).Nodup
  trusts : ∃ cas : List Bytes, cas.Nodup ∧
    (∀ ca ∈ cas, ca ∈ os.root ∧ ekuPermitsEmailProtection os ca = true) ∧
    (listRootTrustObjects os leaves).filterMap trustRecord =
      cas.filterMap fun ca => (Trust.new os ca).toOption

theorem exposed_cert_value (ca : Bytes) :
    (exposed os ca).filterMap certValue =
      (if (Cert.new os ca).isOk then some ca else none).toList := by
  have certs : ((Cert.new os ca).toOption.toList.map Object.cert).filterMap certValue =
      (if (Cert.new os ca).isOk then some ca else none).toList := by
    cases made : Cert.new os ca with
    | error err => rfl
    | ok cert =>
        have same := cert_new_value made
        exact congrArg (fun value => [value]) same
  have trusts : ((Trust.new os ca).toOption.toList.map Object.trust).filterMap certValue = [] := by
    cases Trust.new os ca <;> rfl
  rw [exposed, List.filterMap_append, certs]
  cases certExistsInRoot os ca with
  | false => simp
  | true =>
      cases ekuPermitsEmailProtection os ca with
      | false => simp
      | true => simp [trusts]

theorem exposed_trust_record (ca : Bytes) :
    (exposed os ca).filterMap trustRecord =
      (if certExistsInRoot os ca && ekuPermitsEmailProtection os ca then
        (Trust.new os ca).toOption else none).toList := by
  have certs : ((Cert.new os ca).toOption.toList.map Object.cert).filterMap trustRecord = [] := by
    cases Cert.new os ca <;> rfl
  rw [exposed, List.filterMap_append, certs, List.nil_append]
  cases certExistsInRoot os ca with
  | false => rfl
  | true =>
      cases ekuPermitsEmailProtection os ca with
      | false => rfl
      | true => cases Trust.new os ca <;> rfl

theorem exposed_once (os : Stores) (leaves : List Bytes) : ExposedOnce os leaves := by
  by_cases opened : os.Opened
  · have all := root_trust_objects opened leaves
    have nodup : (processedIssuers os leaves).Nodup := visited_nodup _ _
    constructor
    · rw [all, leafCertValues, List.filterMap_flatMap]
      simp only [exposed_cert_value]
      rw [← List.filterMap_eq_flatMap_toList]
      apply nodup.filterMap
      intro left right value first second
      simp only [Option.mem_def, Option.ite_none_right_eq_some, Option.some.injEq] at first second
      rw [first.2, second.2]
    · refine ⟨(processedIssuers os leaves).filter fun ca =>
        certExistsInRoot os ca && ekuPermitsEmailProtection os ca, nodup.filter _, ?_, ?_⟩
      · intro ca member
        simpa [certExistsInRoot] using (List.mem_filter.mp member).2
      · rw [all, List.filterMap_flatMap, List.filterMap_filter]
        simp only [exposed_trust_record]
        rw [← List.filterMap_eq_flatMap_toList]
  · have nothing := nothing_unopened opened leaves
    constructor
    · simp [nothing, leafCertValues]
    · exact ⟨[], List.nodup_nil, by simp, by simp [nothing]⟩

theorem walk_reaches_same {other : List Bytes} (same : ∀ leaf, leaf ∈ leaves ↔ leaf ∈ other)
    (ca : Bytes) : WalkReaches os leaves ca ↔ WalkReaches os other ca := by
  simp only [WalkReaches, Reached, chainLeaves, List.mem_filter, same]

/-- Cyclic issuers included, what is exposed is exposed once, and the leaves count as a set. -/
theorem root_trust_once_in_any_order (apart : DigestsApart os leaves) :
    ExposedOnce os leaves ∧
      ∀ other : List Bytes, (∀ leaf, leaf ∈ leaves ↔ leaf ∈ other) →
        ∀ object, object ∈ listRootTrustObjects os leaves ↔
          object ∈ listRootTrustObjects os other := by
  refine ⟨exposed_once os leaves, ?_⟩
  intro other same object
  by_cases opened : os.Opened
  · have apartToo : DigestsApart os other := by
      intro left right first second
      exact apart left right ((walk_reaches_same same left).mpr first)
        ((walk_reaches_same same right).mpr second)
    rw [mem_emitted, mem_emitted]
    apply and_congr_right
    intro _
    apply exists_congr
    intro ca
    rw [mem_processed apart, mem_processed apartToo, walk_reaches_same same]
  · rw [nothing_unopened opened, nothing_unopened opened]

end

/-- Two leaves whose chains run into one cycle. -/
theorem cyclic_chain_once :
    let os : Stores := .issuing (fun der =>
      if der = [3] then some ([4], ⟨false, false⟩) else some ([3], ⟨false, false⟩))
      (fun _ => false) [[4]]
    ExposedOnce os [[1], [2]] ∧ ∀ object, object ∈ listRootTrustObjects os [[1], [2]] ↔
      object ∈ listRootTrustObjects os [[2], [1], [2]] := by
  intro os
  have apart : DigestsApart os [[1], [2]] := fun _ _ _ _ same => same
  obtain ⟨once, order⟩ := root_trust_once_in_any_order apart
  exact ⟨once, order _ (by simp [or_comm])⟩

section
variable {os : Stores} {leaves : List Bytes}

/-- Each trust record is for a certificate of ROOT with a chain whose every hop was verified. -/
def TrustVerified (os : Stores) (leaves : List Bytes) : Prop :=
  ∀ trust, .trust trust ∈ listRootTrustObjects os leaves →
    ∃ ca ∈ os.root, Trust.new os ca = .ok trust ∧ VerifiedReaches os leaves ca

def UnverifiedWay (os : Stores) (leaves : List Bytes) (ca : Bytes) : Prop :=
  ∃ leaf ∈ chainLeaves os leaves, ∃ hops ≤ maxChainDepth,
    Hops (getIssuer os) (fun found => certIsSelfSigned os found = false) hops leaf ca ∧
      ¬Hops (verifiedIssuer os) (fun _ => True) hops leaf ca

def FirstOfDigest (os : Stores) (leaves : List Bytes) (ca : Bytes) : Prop :=
  ((chainLeaves os leaves).flatMap
      (walk (getIssuer os) (certIsSelfSigned os) maxChainDepth)).find?
    (fun other => os.sha256 other = os.sha256 ca) = some ca

/-- No trusted root is come to that way, unless verified hops lead to it as well. -/
def NoUnverifiedRoot (os : Stores) (leaves : List Bytes) : Prop :=
  os.Opened → ∀ ca ∈ os.root, ekuPermitsEmailProtection os ca = true →
    UnverifiedWay os leaves ca → FirstOfDigest os leaves ca →
    ∃ same ∈ os.root, Trust.new os same = Trust.new os ca ∧ VerifiedReaches os leaves same

theorem processed_first {ca : Bytes} :
    ca ∈ processedIssuers os leaves ↔ FirstOfDigest os leaves ca := mem_firsts

/-- The outcome of the checks is never consulted: trust follows verified chains exactly
where no failed check is followed to a trusted root. -/
theorem trust_verified_iff (os : Stores) (leaves : List Bytes) :
    TrustVerified os leaves ↔ NoUnverifiedRoot os leaves := by
  constructor
  · intro verified opened ca inRoot permits unverified first
    obtain ⟨trust, made⟩ := trust_new_ok os ca
    have emitted : .trust trust ∈ listRootTrustObjects os leaves := mem_emitted.mpr
      ⟨opened, ca, processed_first.mpr first, exposed_trust.mpr ⟨inRoot, permits, made⟩⟩
    obtain ⟨same, present, sameMade, chain⟩ := verified trust emitted
    exact ⟨same, present, sameMade.trans made.symm, chain⟩
  · intro noUnverified trust emitted
    obtain ⟨opened, ca, processed, shown⟩ := mem_emitted.mp emitted
    obtain ⟨inRoot, permits, made⟩ := exposed_trust.mp shown
    obtain ⟨leaf, member, hops, within, way⟩ := processed_reached processed
    by_cases verified : Hops (verifiedIssuer os) (fun _ => True) hops leaf ca
    · exact ⟨ca, inRoot, made, leaf, member, hops, within, verified⟩
    · obtain ⟨same, present, sameTrust, chain⟩ := noUnverified opened ca inRoot permits
        ⟨leaf, member, hops, within, way, verified⟩ (processed_first.mp processed)
      exact ⟨same, present, sameTrust.trans made, chain⟩

end

/-- A root over an intermediate, all checks passed. -/
theorem verified_chain_trusted :
    let os : Stores := .issuing (fun der =>
      if der = [1] then some ([2], ⟨false, false⟩)
      else if der = [2] then some ([3], ⟨false, false⟩) else none) (· == [3]) [[3]]
    TrustVerified os [[1]] := by
  intro os
  apply (trust_verified_iff os [[1]]).mpr
  rintro _ ca _ _ ⟨leaf, _, hops, _, way, unverified⟩ _
  apply absurd (way.weaken _ fun _ _ => trivial) unverified
  intro current found step
  by_cases leaf : current = [1]
  · subst leaf
    exact step
  · by_cases intermediate : current = [2]
    · subst intermediate
      exact step
    · simp [os, getIssuer, Stores.issuing, leaf, intermediate] at step

/-- The issuer of the leaf is in ROOT, but the signature of the leaf is not its own. -/
theorem unverified_root_trusted :
    let os : Stores := .issuing (fun der => if der = [1] then some ([2], ⟨true, false⟩) else none)
      (· == [2]) [[2]]
    ¬TrustVerified os [[1]] := by
  intro os verified
  have first : FirstOfDigest os [[1]] [2] := rfl
  obtain ⟨trust, made⟩ := trust_new_ok os [2]
  have emitted : .trust trust ∈ listRootTrustObjects os [[1]] :=
    mem_emitted.mpr ⟨⟨fun _ => rfl, rfl⟩, [2], processed_first.mpr first,
      exposed_trust.mpr ⟨List.mem_singleton_self _, rfl, made⟩⟩
  obtain ⟨ca, _, _, leaf, member, hops, _, way⟩ := verified trust emitted
  -- No verified hop leaves the one leaf there is.
  obtain rfl : leaf = [1] := List.mem_singleton.mp member
  cases way with
  | last step => cases step
  | pass step => cases step

section
variable {os : Stores} {leaves : List Bytes}

/-- Every certificate up the chains is exposed, and trusted if it is an eligible root. -/
def ChainsComplete (os : Stores) (leaves : List Bytes) : Prop :=
  ∀ ca, IssuerReaches os leaves ca →
    (∃ cert, Cert.new os ca = .ok cert ∧ .cert cert ∈ listRootTrustObjects os leaves) ∧
    (ca ∈ os.root → ekuPermitsEmailProtection os ca = true →
      ∃ trust, Trust.new os ca = .ok trust ∧ .trust trust ∈ listRootTrustObjects os leaves)

/-- A chain leads to the certificate past a self-issued one. -/
def BeyondSelfIssued (os : Stores) (leaves : List Bytes) (ca : Bytes) : Prop :=
  ∃ leaf ∈ chainLeaves os leaves, ∃ hops ≤ maxChainDepth,
    Hops (getIssuer os) (fun _ => True) hops leaf ca ∧
      ¬Hops (getIssuer os) (fun found => certIsSelfSigned os found = false) hops leaf ca

/-- Exactly the chains past a self-issued certificate are given up, and certificates
that have the digest of another one. -/
theorem chains_complete_iff (opened : os.Opened)
    (certs : ∀ ca, IssuerReaches os leaves ca → ∃ cert, Cert.new os ca = .ok cert) :
    ChainsComplete os leaves ↔
      (∀ ca, BeyondSelfIssued os leaves ca → WalkReaches os leaves ca) ∧
        DigestsApart os leaves := by
  constructor
  · intro complete
    have processed (ca : Bytes) (reached : IssuerReaches os leaves ca) :
        ca ∈ processedIssuers os leaves := by
      obtain ⟨⟨cert, made, emitted⟩, _⟩ := complete ca reached
      exact emitted_processed made emitted
    constructor
    · rintro ca ⟨leaf, member, hops, within, way, _⟩
      exact processed_reached (processed ca ⟨leaf, member, hops, within, way⟩)
    · intro left right first second same
      exact visited_apart (processed left (walk_issuer first))
        (processed right (walk_issuer second)) same
  · rintro ⟨goesOn, apart⟩ ca reached
    have walked : WalkReaches os leaves ca := by
      obtain ⟨leaf, member, hops, within, way⟩ := reached
      by_cases passes : Hops (getIssuer os) (fun found => certIsSelfSigned os found = false)
          hops leaf ca
      · exact ⟨leaf, member, hops, within, passes⟩
      · exact goesOn ca ⟨leaf, member, hops, within, way, passes⟩
    have processed := (mem_processed apart).mpr walked
    constructor
    · obtain ⟨cert, made⟩ := certs ca reached
      exact ⟨cert, made, mem_emitted.mpr ⟨opened, ca, processed, exposed_cert.mpr made⟩⟩
    · intro inRoot permits
      obtain ⟨trust, made⟩ := trust_new_ok os ca
      exact ⟨trust, made, mem_emitted.mpr
        ⟨opened, ca, processed, exposed_trust.mpr ⟨inRoot, permits, made⟩⟩⟩

end

/-- A leaf, an intermediate, and a root that is the only self-issued certificate. -/
theorem plain_chain_complete :
    ChainsComplete (.issuing (fun der =>
      if der = [1] then some ([2], ⟨false, false⟩)
      else if der = [2] then some ([3], ⟨false, false⟩) else none) (· == [3]) [[3]]) [[1]] := by
  apply (chains_complete_iff ⟨fun _ => rfl, rfl⟩ fun ca _ => ⟨_, rfl⟩).mpr
  refine ⟨?_, fun _ _ _ _ same => same⟩
  rintro ca ⟨leaf, member, hops, within, way, _⟩
  obtain rfl : leaf = [1] := List.mem_singleton.mp member
  refine ⟨[1], List.mem_singleton_self _, hops, within, ?_⟩
  -- The chain ends at the root, so only the intermediate is ever passed.
  cases way with
  | last step => exact Hops.last step
  | pass step passed onward =>
      cases step
      cases onward with
      | last step => exact Hops.pass rfl rfl (Hops.last step)
      | pass step passed onward =>
          cases step
          cases onward with
          | last step => cases step
          | pass step => cases step

/-- A link certificate with the name of the renewed root, below that root. -/
theorem link_certificate_stops :
    let os : Stores := .issuing (fun der =>
      if der = [1] then some ([2], ⟨false, false⟩)
      else if der = [2] then some ([3], ⟨false, false⟩) else none)
      (fun der => der == [2] || der == [3]) [[3]]
    (∀ ca, getIssuer os ca ≠ some ca) ∧ ¬ChainsComplete os [[1]] := by
  intro os
  constructor
  · intro ca own
    by_cases leaf : ca = [1]
    · subst leaf
      cases own
    · by_cases link : ca = [2]
      · subst link
        cases own
      · simp [os, getIssuer, Stores.issuing, leaf, link] at own
  · intro complete
    have chain : IssuerReaches os [[1]] [3] :=
      ⟨[1], List.mem_singleton_self _, 2, by decide, Hops.pass rfl trivial (Hops.last rfl)⟩
    obtain ⟨⟨cert, made, emitted⟩, _⟩ := complete [3] chain
    obtain ⟨leaf, member, hops, _, way⟩ := processed_reached (emitted_processed made emitted)
    obtain rfl : leaf = [1] := List.mem_singleton.mp member
    cases way with
    | last step => cases step
    | pass step passed =>
        cases step
        cases passed

end OsClientCerts.Windows
