import Mathlib.Algebra.Group.Nat.Defs
import OsClientCerts.BoundedWalk
import OsClientCerts.Der
import OsClientCerts.WindowsBackend

/-!
Where the objects of the Windows backend come from: the personal store, and the
issuers that the walks from its certificates come to. A certificate is its DER
encoding; what Windows has decoded from it is asked of `certInfo`.
-/

namespace OsClientCerts.Windows
open BoundedWalk FirstSeen

/-- The fields of a `CERT_INFO` that are used. The serial number has its least
significant byte first, and an algorithm is none if its name is not UTF-8. -/
structure CertInfo where
  issuer : Bytes
  subject : Bytes
  serialNumber : Bytes
  algorithm : Option String
  parameters : Bytes
  publicKey : Bytes
  unusedBits : Nat

/-- The flags of `CertGetIssuerCertificateFromStore`: the checks asked for on the way
in, those that failed on the way out. -/
structure IssuerChecks where
  signature : Bool
  timeValidity : Bool
  deriving DecidableEq

inductive SystemStore where
  | my
  | ca
  | root
  deriving DecidableEq

/-- What the certificate functions of Windows answer during one scan, and the digests
of the crates the backend uses. -/
structure Stores where
  certInfo : Bytes → CertInfo
  sha256 : Bytes → Bytes
  sha1 : Bytes → Bytes
  /-- `CertNameToStrA`, with the size of the buffer if there is one. -/
  certNameToStr : Bytes → Option UInt32 → UInt32 × Bytes
  /-- The certificates with a private key, or none if the store does not open. -/
  personal : Option (List (CertContext × Bytes))
  opens : SystemStore → Bool
  collectionOpens : Bool
  /-- The certificates of the composite ROOT store. -/
  root : List Bytes
  certCreateCertificateContext : Bytes → Bool
  certGetIssuer : Bytes → IssuerChecks → Option (Bytes × IssuerChecks)
  /-- The size that is needed, and the usages if there was a buffer for them. -/
  certGetEnhancedKeyUsage : Bytes → Option UInt32 → Option (UInt32 × List (Option Bytes))

/-- The bytes of a value in memory, the least significant first. -/
def serializeUint (target : Target) (value : CkUlong) : Except Unit Bytes :=
  .ok ((List.range target.ulongBytes).map fun place => UInt8.ofNat (value / 256 ^ place))

def ckoCertificate : CkUlong := 1
def ckoPrivateKey : CkUlong := 3
def ckoNssTrust : CkUlong := (0x80000000 ||| nssckVendorNss) + 3
def ckkRsa : CkUlong := 0
def ckkEc : CkUlong := 3
def cktNssTrustedDelegator : CkUlong := (0x80000000 ||| nssckVendorNss) + 2
def cktNssTrustUnknown : CkUlong := (0x80000000 ||| nssckVendorNss) + 5

def ckTrue : UInt8 := 1
def ckFalse : UInt8 := 0

def szOidRsaRsa : String := "1.2.840.113549.1.1.1"
def szOidEccPublicKey : String := "1.2.840.10045.2.1"

def getCertSubjectDn (os : Stores) (info : CertInfo) : Except Unit Bytes :=
  let subjectDnLen := (os.certNameToStr info.subject none).1
  let answer := os.certNameToStr info.subject (some subjectDnLen)
  if answer.1 ≠ subjectDnLen then .error () else .ok (filled subjectDnLen answer.2)

def Cert.new (os : Stores) (der : Bytes) : Except Unit Cert := do
  let info := os.certInfo der
  let label ← getCertSubjectDn os info
  let classAttr ← serializeUint .windows ckoCertificate
  .ok {
    classAttr
    token := [ckTrue]
    id := os.sha256 der
    label
    value := der
    issuer := info.issuer
    serialNumber := info.serialNumber.reverse
    subject := info.subject }

def Key.publicPart (info : CertInfo) :
    Except Unit (KeyType × CkUlong × Option Bytes × Option Bytes) := do
  match info.algorithm with
  | none => .error ()
  | some algorithm =>
      if algorithm = szOidRsaRsa then
        if info.unusedBits ≠ 0 then .error ()
        else
          let modulus ← readRsaModulus info.publicKey
          .ok (.rsa, ckkRsa, some modulus, none)
      else if algorithm = szOidEccPublicKey then
        .ok (.ec, ckkEc, none, some info.parameters)
      else .error ()

def Key.new (os : Stores) (context : CertContext) (der : Bytes) : Except Unit Key := do
  let info := os.certInfo der
  let label ← getCertSubjectDn os info
  let (keyTypeEnum, keyTypeAttribute, modulus, ecParams) ← Key.publicPart info
  let classAttr ← serializeUint .windows ckoPrivateKey
  let keyType ← serializeUint .windows keyTypeAttribute
  .ok {
    cert := context
    classAttr
    token := [ckTrue]
    id := os.sha256 der
    label
    subject := info.subject
    issuer := info.issuer
    serialNumber := info.serialNumber.reverse
    privateFlag := [ckTrue]
    keyType
    modulus
    ecParams
    keyTypeEnum
    signFlag := [ckTrue]
    decryptFlag := [ckTrue]
    sensitiveFlag := [ckTrue]
    extractableFlag := [ckFalse]
    alwaysAuthenticateFlag := [ckFalse]
    localFlag := [ckTrue] }

def Trust.new (os : Stores) (der : Bytes) : Except Unit Trust := do
  let info := os.certInfo der
  let classAttr ← serializeUint .windows ckoNssTrust
  let serverAuth ← serializeUint .windows cktNssTrustUnknown
  let clientAuth ← serializeUint .windows cktNssTrustUnknown
  let codeSigning ← serializeUint .windows cktNssTrustUnknown
  let emailProtection ← serializeUint .windows cktNssTrustedDelegator
  .ok {
    classAttr
    token := [ckTrue]
    issuer := info.issuer
    serialNumber := info.serialNumber.reverse
    serverAuth
    clientAuth
    codeSigning
    emailProtection
    stepUpApproved := [ckFalse]
    sha1Hash := os.sha1 der }

def maxChainDepth : Nat := 8

/-- Only the names are compared. -/
def certIsSelfSigned (os : Stores) (der : Bytes) : Bool :=
  (os.certInfo der).issuer == (os.certInfo der).subject

def certExistsInRoot (os : Stores) (der : Bytes) : Bool := os.root.contains der

def oidEmailProtection : Bytes :=
  [49, 46, 51, 46, 54, 46, 49, 46, 53, 46, 53, 46, 55, 46, 51, 46, 52]

/-- No usages at all permit every purpose; a query that fails permits none. -/
def ekuPermitsEmailProtection (os : Stores) (der : Bytes) : Bool :=
  match os.certGetEnhancedKeyUsage der none with
  | none => false
  | some (usageLen, _) =>
      if usageLen = 0 then true
      else match os.certGetEnhancedKeyUsage der (some usageLen) with
        | none => false
        | some (_, usages) => usages.isEmpty || usages.contains (some oidEmailProtection)

/-- The checks asked for. What they came to is not looked at. -/
def requestedChecks : IssuerChecks := ⟨true, true⟩

def getIssuer (os : Stores) (der : Bytes) : Option Bytes :=
  (os.certGetIssuer der requestedChecks).map Prod.fst

abbrev WindowsObject := Object Cert Key Trust

structure ChainWalk where
  processed : Finset Bytes
  newObjects : List WindowsObject

def exposed (os : Stores) (issuer : Bytes) : List WindowsObject :=
  -- A certificate or trust record that cannot be made is logged and left out.
  (Cert.new os issuer).toOption.toList.map .cert ++
    if certExistsInRoot os issuer then
      if ekuPermitsEmailProtection os issuer then
        (Trust.new os issuer).toOption.toList.map .trust
      else []
    else []

def visitIssuer (os : Stores) (state : ChainWalk) (issuer : Bytes) : ChainWalk :=
  let id := os.sha256 issuer
  if id ∈ state.processed then state
  else ⟨insert id state.processed, state.newObjects ++ exposed os issuer⟩

/-- The walk from one leaf. An issuer that was processed before is walked past. -/
def walkChain (os : Stores) : Nat → Bytes → ChainWalk → ChainWalk :=
  walkWith (visitIssuer os) (getIssuer os) (certIsSelfSigned os)

def listRootTrustObjects (os : Stores) (leafCertValues : List Bytes) : List WindowsObject :=
  if !os.opens .my then []
  else if !os.opens .ca then []
  else if !os.opens .root then []
  else if !os.collectionOpens then []
  else
    let walked := leafCertValues.foldl (fun state leafDer =>
      if os.certCreateCertificateContext leafDer then walkChain os maxChainDepth leafDer state
      else state) ⟨∅, []⟩
    walked.newObjects

/-- The certificates with their keys. One that cannot be read is passed over, key and all. -/
def personalObjects (os : Stores) (found : List (CertContext × Bytes)) : List WindowsObject :=
  found.flatMap fun (context, der) =>
    match Cert.new os der, Key.new os context der with
    | .ok cert, .ok key => [.cert cert, .key key]
    | _, _ => []

def certValue : WindowsObject → Option Bytes
  | .cert cert => some cert.value
  | _ => none

def leafCertValues (objects : List WindowsObject) : List Bytes := objects.filterMap certValue

def listObjects (os : Stores) : List WindowsObject :=
  match os.personal with
  | none => []
  | some found =>
      let objects := personalObjects os found
      objects ++ listRootTrustObjects os (leafCertValues objects)

/-- Every store opens, the names of subjects are empty and digests are the certificates
themselves. One certificate has a key; what is left open is who issued what, whose names
agree, and what is in ROOT. -/
def Stores.issuing (issuer : Bytes → Option (Bytes × IssuerChecks)) (selfIssued : Bytes → Bool)
    (root : List Bytes) : Stores where
  certInfo der := ⟨if selfIssued der then der else [], der, [], some szOidEccPublicKey, [], [], 0⟩
  sha256 der := der
  sha1 der := der
  certNameToStr _ _ := (0, [])
  personal := some [(1, [1])]
  opens _ := true
  collectionOpens := true
  root := root
  certCreateCertificateContext _ := true
  certGetIssuer der _ := issuer der
  certGetEnhancedKeyUsage _ _ := some (0, [])

end OsClientCerts.Windows
