import OsClientCerts.WindowsStores

/-!
What the walks up the issuer chains expose. The processed set only keeps a certificate
from being exposed twice: the result is what is exposed of the certificates that the
walks come to, each once. A walk does not pass a certificate whose issuer name is its
subject name, and it takes every issuer it is given, whatever became of the checks.
-/

namespace OsClientCerts.Windows
open BoundedWalk FirstSeen

def chainLeaves (os : Stores) (leaves : List Bytes) : List Bytes :=
  leaves.filter os.certCreateCertificateContext

/-- The certificates that the walks come to, in the order in which they are processed. -/
def processedIssuers (os : Stores) (leaves : List Bytes) : List Bytes :=
  visited os.sha256 (getIssuer os) (certIsSelfSigned os) maxChainDepth (chainLeaves os leaves)

def Stores.Opened (os : Stores) : Prop :=
  (∀ store, os.opens store = true) ∧ os.collectionOpens = true

def ChainWalk.having (os : Stores) (kept : List Bytes) : ChainWalk :=
  ⟨(kept.map os.sha256).toFinset, kept.flatMap (exposed os)⟩

section
variable {os : Stores} {leaves : List Bytes}

theorem visit_notes (kept : List Bytes) (issuer : Bytes) :
    visitIssuer os (.having os kept) issuer = .having os (note os.sha256 kept issuer) := by
  by_cases known : os.sha256 issuer ∈ kept.map os.sha256
  · have processed : os.sha256 issuer ∈ (ChainWalk.having os kept).processed := by
      simpa [ChainWalk.having] using known
    rw [note_known known]
    exact if_pos processed
  · have fresh : os.sha256 issuer ∉ (ChainWalk.having os kept).processed := by
      simpa [ChainWalk.having] using known
    have digests : insert (os.sha256 issuer) (kept.map os.sha256).toFinset =
        ((kept ++ [issuer]).map os.sha256).toFinset := by
      ext digest
      simp only [Finset.mem_insert, List.mem_toFinset, List.map_append, List.mem_append,
        List.map_singleton, List.mem_singleton]
      exact or_comm
    rw [note_fresh known, visitIssuer, if_neg fresh, ChainWalk.having, ChainWalk.having, digests]
    simp

theorem visits_note (kept found : List Bytes) :
    found.foldl (visitIssuer os) (.having os kept) =
      .having os (found.foldl (note os.sha256) kept) := by
  induction found generalizing kept with
  | nil => rfl
  | cons issuer rest ih => rw [List.foldl_cons, visit_notes, ih, List.foldl_cons]

theorem walk_chain_notes (kept : List Bytes) (leaf : Bytes) :
    walkChain os maxChainDepth leaf (.having os kept) =
      .having os ((walk (getIssuer os) (certIsSelfSigned os) maxChainDepth leaf).foldl
        (note os.sha256) kept) := by
  rw [walkChain, walk_with_eq, visits_note]

theorem walks_note (kept : List Bytes) :
    leaves.foldl (fun state leafDer =>
      if os.certCreateCertificateContext leafDer then walkChain os maxChainDepth leafDer state
      else state) (.having os kept) =
      .having os (((chainLeaves os leaves).flatMap
        (walk (getIssuer os) (certIsSelfSigned os) maxChainDepth)).foldl
          (note os.sha256) kept) := by
  induction leaves generalizing kept with
  | nil => rfl
  | cons leaf rest ih =>
      rw [List.foldl_cons]
      by_cases made : os.certCreateCertificateContext leaf = true
      · rw [if_pos made, walk_chain_notes, ih]
        simp [chainLeaves, made, List.foldl_append]
      · rw [if_neg made, ih]
        simp [chainLeaves, made]

theorem root_trust_objects (opened : os.Opened) (leaves : List Bytes) :
    listRootTrustObjects os leaves = (processedIssuers os leaves).flatMap (exposed os) := by
  have start : (⟨∅, []⟩ : ChainWalk) = .having os [] := by simp [ChainWalk.having]
  simp only [listRootTrustObjects, opened.1, opened.2, Bool.not_true, Bool.false_eq_true,
    if_false]
  rw [start, walks_note]
  rfl

theorem nothing_unopened (closed : ¬os.Opened) (leaves : List Bytes) :
    listRootTrustObjects os leaves = [] := by
  unfold listRootTrustObjects
  by_contra something
  apply closed
  constructor
  · intro store
    cases store <;> by_contra shut <;> simp [shut] at something
  · by_contra shut
    simp [shut] at something

end
end OsClientCerts.Windows
