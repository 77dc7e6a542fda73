import OsClientCerts.Mechanism
import OsClientCerts.ModuleState

/-!
The exported functions, each as it checks its arguments, follows its pointers and
uses the proxy slot. Arguments that a function ignores are left out, and the
functions that only say that they are not supported are one case.
-/

namespace OsClientCerts
open Resumption

abbrev Call := Ffi moduleSignature

def slotId : CkUlong := 1

def manufacturerId : String := "Mozilla Corporation             "
def libraryDescription : String := "OS Client Cert Module           "
def slotDescription : String :=
  "OS Client Cert Slot                                             "
def tokenLabel : String := "OS Client Cert Token            "
def tokenModel : String := "osclientcerts   "
def tokenSerialNumber : String := "0000000000000000"

section Exported
variable (target : Target)

/-- A null pointer is accepted only for a zero-length buffer. -/
def inputSlice (ptr : Addr) (len : CkUlong) : Call (Except CkRv Bytes) :=
  if ptr = null then
    if len = 0 then pure (.ok []) else pure (.error .argumentsBad)
  else do
    let slice ← readSlice target .bytes ptr len
    pure (.ok slice)

def cInitialize : Call CkRv := fun caller => .call .startProxy fun rv => .ret (rv, caller)

def cFinalize : Call CkRv := fun caller => .call .stopProxy fun rv => .ret (rv, caller)

def cGetInfo (pInfo : Addr) : Call CkRv :=
  if pInfo = null then pure .argumentsBad
  else do
    writeCell .info pInfo ⟨⟨2, 2⟩, manufacturerId, libraryDescription⟩
    pure .ok

def cGetFunctionList (ppFunctionList : Addr) : Call CkRv :=
  if ppFunctionList = null then pure .argumentsBad
  else do
    writeCell .functionList ppFunctionList .functionList
    pure .ok

def cGetSlotList (pSlotList pulCount : Addr) : Call CkRv :=
  if pulCount = null then pure .argumentsBad
  else do
    -- The caller's count is overwritten before it is looked at.
    writeCell .ulong pulCount 1
    if pSlotList ≠ null then do
      let slotCount ← readCell .ulong pulCount
      if slotCount < 1 then pure .bufferTooSmall
      else do
        writeCell .ulong pSlotList slotId
        pure .ok
    else pure .ok

def cGetSlotInfo (slotID : CkUlong) (pInfo : Addr) : Call CkRv :=
  if slotID ≠ slotId ∨ pInfo = null then pure .argumentsBad
  else do
    writeCell .slotInfo pInfo ⟨slotDescription, manufacturerId, ckfTokenPresent, {}, {}⟩
    pure .ok

def cGetTokenInfo (slotID : CkUlong) (pInfo : Addr) : Call CkRv :=
  if slotID ≠ slotId ∨ pInfo = null then pure .argumentsBad
  else do
    writeCell .tokenInfo pInfo ⟨tokenLabel, manufacturerId, tokenModel, tokenSerialNumber,
      ckfSign ||| ckfEncrypt ||| ckfDecrypt⟩
    pure .ok

def mechanisms : List CkMechanismType := [ckmEcdsa, ckmRsaPkcs, ckmRsaPkcsPss, ckmRsaPkcsOaep]

def cGetMechanismList (slotID : CkUlong) (pMechanismList pulCount : Addr) : Call CkRv :=
  if slotID ≠ slotId ∨ pulCount = null then pure .argumentsBad
  else if pMechanismList ≠ null then do
    let count ← readCell .ulong pulCount
    if count < mechanisms.length then pure .bufferTooSmall
    else do
      writeSlice target .ulong pMechanismList mechanisms
      writeCell .ulong pulCount mechanisms.length
      pure .ok
  else do
    writeCell .ulong pulCount mechanisms.length
    pure .ok

def mechanismInfo (mechanismType : CkMechanismType) : Option CkMechanismInfo :=
  if mechanismType = ckmRsaPkcs then some ⟨1024, 16384, ckfSign ||| ckfDecrypt ||| ckfEncrypt⟩
  else if mechanismType = ckmRsaPkcsPss then some ⟨1024, 16384, ckfSign⟩
  else if mechanismType = ckmRsaPkcsOaep then some ⟨1024, 16384, ckfEncrypt ||| ckfDecrypt⟩
  else if mechanismType = ckmEcdsa then some ⟨192, 521, ckfSign⟩
  else none

def cGetMechanismInfo (slotID : CkUlong) (mechanismType : CkMechanismType) (pInfo : Addr) :
    Call CkRv :=
  if slotID ≠ slotId then pure .slotIdInvalid
  else if pInfo = null then pure .argumentsBad
  else match mechanismInfo mechanismType with
    | some info => do
        writeCell .mechanismInfo pInfo info
        pure .ok
    | none => pure .mechanismInvalid

def cOpenSession (slotID flags : CkUlong) (phSession : Addr) : Call CkRv :=
  if slotID ≠ slotId ∨ phSession = null ∨ flags &&& ckfSerialSession = 0 then
    pure .argumentsBad
  else do
    -- The callback, the application data and the other flags are not looked at.
    match ← (ManagerProxy.openSession flags).run with
    | none => pure .deviceError
    | some (.error ()) => pure .deviceError
    | some (.ok sessionHandle) => do
        writeCell .ulong phSession sessionHandle
        pure .ok

def cCloseSession (hSession : CkSessionHandle) : Call CkRv := do
  match ← (ManagerProxy.closeSession hSession).run with
  | none => pure .deviceError
  | some (.error ()) => pure .sessionHandleInvalid
  | some (.ok ()) => pure .ok

def cCloseAllSessions (slotID : CkUlong) : Call CkRv :=
  if slotID ≠ slotId then pure .argumentsBad
  else do
    match ← ManagerProxy.closeAllSessions.run with
    | none => pure .deviceError
    | some (.error ()) => pure .deviceError
    | some (.ok ()) => pure .ok

def cGetSessionInfo (hSession : CkSessionHandle) (pInfo : Addr) : Call CkRv :=
  if pInfo = null then pure .argumentsBad
  else do
    match ← (ManagerProxy.getSessionInfo hSession).run with
    | none => pure .deviceError
    | some (.error ()) => pure .sessionHandleInvalid
    | some (.ok flags) => do
        let state := if flags &&& ckfRwSession ≠ 0 then cksRwPublicSession else cksRoPublicSession
        writeCell .sessionInfo pInfo ⟨slotId, state, flags ||| ckfSerialSession, 0⟩
        pure .ok

def cLogout : Call CkRv := pure .ok

def storeAttribute (addr : Addr) (attr : CkAttribute) (value : Option Bytes) : Call CkRv :=
  match value with
  | some attrValue => do
      let stored := { attr with ulValueLen := target.asUlong attrValue.length }
      -- Without a buffer only the length is asked for.
      if attr.pValue = null then do
        writeCell .attribute addr stored
        pure .ok
      else if attr.ulValueLen < attrValue.length then do
        writeCell .attribute addr stored
        pure .bufferTooSmall
      else do
        writeSlice target .bytes attr.pValue attrValue
        writeCell .attribute addr stored
        pure .ok
  | none => do
      -- CK_UNAVAILABLE_INFORMATION
      writeCell .attribute addr { attr with ulValueLen := target.ulongModulus - 1 }
      pure .ok

/-- The loop over the template; one short buffer does not end it. -/
def storeAttributes : Addr → List (CkAttribute × Option Bytes) → CkRv → Call CkRv
  | _, [], rv => pure rv
  | addr, (attr, value) :: rest, rv => do
      let one ← storeAttribute target addr attr value
      storeAttributes (addr + target.sizeOfAttribute) rest (if one = .ok then rv else one)

def cGetAttributeValue (hObject : CkObjectHandle) (pTemplate : Addr) (ulCount : CkUlong) :
    Call CkRv :=
  if pTemplate = null then pure .argumentsBad
  else if ulCount > maxTemplateCount then pure .argumentsBad
  else do
    let template ← readSlice target .attribute pTemplate ulCount
    match ← (ManagerProxy.getAttributes hObject (template.map CkAttribute.attrType)).run with
    | none => pure .deviceError
    | some (.error ()) => pure .argumentsBad
    | some (.ok values) =>
        if values.length ≠ ulCount then pure .deviceError
        else do
          -- The caller's template is followed once more to be written to.
          let template ← readSlice target .attribute pTemplate ulCount
          storeAttributes target pTemplate (template.zip values) .ok

/-- The loop of `C_FindObjectsInit` that copies the template. -/
def readTemplate : Nat → Addr → Call (Except CkRv (List (CkAttributeType × Bytes)))
  | 0, _ => pure (.ok [])
  | count + 1, addr => do
      let attr ← readCell .attribute addr
      if attr.ulValueLen > maxAttributeValueLen then pure (.error .argumentsBad)
      else do
        match ← inputSlice target attr.pValue attr.ulValueLen with
        | .error rv => pure (.error rv)
        | .ok value => do
            match ← readTemplate count (addr + target.sizeOfAttribute) with
            | .error rv => pure (.error rv)
            | .ok rest => pure (.ok ((attr.attrType, value) :: rest))

def cFindObjectsInit (hSession : CkSessionHandle) (pTemplate : Addr) (ulCount : CkUlong) :
    Call CkRv :=
  if pTemplate = null then pure .argumentsBad
  else if ulCount > maxTemplateCount then pure .argumentsBad
  else do
    match ← readTemplate target ulCount pTemplate with
    | .error rv => pure rv
    | .ok attrs => do
        match ← (ManagerProxy.startSearch hSession attrs).run with
        | none => pure .deviceError
        | some (.error ()) => pure .argumentsBad
        | some (.ok ()) => pure .ok

def cFindObjects (hSession : CkSessionHandle) (phObject : Addr) (ulMaxObjectCount : CkUlong)
    (pulObjectCount : Addr) : Call CkRv :=
  if phObject = null ∨ pulObjectCount = null ∨ ulMaxObjectCount = 0 then pure .argumentsBad
  else do
    match ← (ManagerProxy.search hSession ulMaxObjectCount).run with
    | none => pure .deviceError
    | some (.error ()) => pure .argumentsBad
    | some (.ok handles) =>
        if handles.length > ulMaxObjectCount then pure .deviceError
        else do
          writeCell .ulong pulObjectCount (target.asUlong handles.length)
          writeSlice target .ulong phObject (handles.take ulMaxObjectCount)
          pure .ok

def cFindObjectsFinal (hSession : CkSessionHandle) : Call CkRv := do
  match ← (ManagerProxy.clearSearch hSession).run with
  | none => pure .deviceError
  | some (.error ()) => pure .deviceError
  | some (.ok ()) => pure .ok

def reportDone (fn : ProxyFn CryptoError Unit) (onOk : Call Unit) : Call CkRv := do
  match ← fn.run with
  | none => pure .deviceError
  | some (.error err) => pure (cryptoErrorToRv target err)
  | some (.ok ()) => do
      onOk
      pure .ok

def cipherInit (start : RsaCipherMechanism → ProxyFn CryptoError Unit) (pMechanism : Addr) :
    Call CkRv :=
  if pMechanism = null then pure .argumentsBad
  else do
    let mechanism ← readCell .mechanism pMechanism
    match ← parseRsaCipherMechanism target mechanism with
    | .error rv => pure rv
    | .ok cipherMechanism => reportDone target (start cipherMechanism) (pure ())

/-- The parameters a signature is started with; other mechanisms are not looked at. -/
def signParameters (mechanism : CkMechanism) : Call (Except CkRv (Option CkRsaPkcsPssParams)) :=
  if mechanism.mechanism = ckmRsaPkcsPss then
    if mechanism.ulParameterLen ≠ target.sizeOfPssParams then pure (.error .argumentsBad)
    else do
      let params ← readCell .pssParams mechanism.pParameter
      pure (.ok (some params))
  else pure (.ok none)

def cSignInit (hSession : CkSessionHandle) (pMechanism : Addr) (hKey : CkObjectHandle) :
    Call CkRv :=
  if pMechanism = null then pure .argumentsBad
  else do
    let mechanism ← readCell .mechanism pMechanism
    match ← signParameters target mechanism with
    | .error rv => pure rv
    | .ok mechanismParams =>
        reportDone target (ManagerProxy.startSign hSession hKey mechanismParams) (pure ())

/-- The part shared by the six functions with an output buffer. The lock is taken
once for the length and once more for the output, which is copied unchecked. -/
def deliverOutput (query : ProxyFn CryptoError Nat) (consume : ProxyFn CryptoError Bytes)
    (pOutput pulOutputLen : Addr) : Call CkRv := do
  match ← query.run with
  | none => pure .deviceError
  | some (.error err) => pure (cryptoErrorToRv target err)
  | some (.ok length) =>
      if pOutput = null then do
        writeCell .ulong pulOutputLen (target.asUlong length)
        pure .ok
      else do
        let capacity ← readCell .ulong pulOutputLen
        if capacity < length then do
          writeCell .ulong pulOutputLen (target.asUlong length)
          pure .bufferTooSmall
        else do
          -- The lock was free in between, and this consumes the operation.
          match ← consume.run with
          | none => pure .deviceError
          | some (.error err) => pure (cryptoErrorToRv target err)
          | some (.ok output) => do
              writeSlice target .bytes pOutput output
              writeCell .ulong pulOutputLen (target.asUlong output.length)
              pure .ok

def outputOneShot (query : Bytes → ProxyFn CryptoError Nat)
    (consume : Bytes → ProxyFn CryptoError Bytes) (pData : Addr) (ulDataLen : CkUlong)
    (pOutput pulOutputLen : Addr) : Call CkRv :=
  if pData = null ∨ pulOutputLen = null then pure .argumentsBad
  else if ulDataLen > maxDataLen then pure .argumentsBad
  else do
    let data ← readSlice target .bytes pData ulDataLen
    deliverOutput target (query data) (consume data) pOutput pulOutputLen

def outputFinal (query : ProxyFn CryptoError Nat) (consume : ProxyFn CryptoError Bytes)
    (pOutput pulOutputLen : Addr) : Call CkRv :=
  if pulOutputLen = null then pure .argumentsBad
  else deliverOutput target query consume pOutput pulOutputLen

def cSignUpdate (hSession : CkSessionHandle) (pPart : Addr) (ulPartLen : CkUlong) : Call CkRv :=
  if ulPartLen > maxDataLen then pure .argumentsBad
  else do
    match ← inputSlice target pPart ulPartLen with
    | .error rv => pure rv
    | .ok part => reportDone target (ManagerProxy.signUpdate hSession part) (pure ())

def cipherUpdate (update : Bytes → ProxyFn CryptoError Unit) (pPart : Addr)
    (ulPartLen : CkUlong) (pulOutputLen : Addr) : Call CkRv :=
  if pulOutputLen = null then pure .argumentsBad
  else if ulPartLen > maxDataLen then pure .argumentsBad
  else do
    match ← inputSlice target pPart ulPartLen with
    | .error rv => pure rv
    | .ok part => reportDone target (update part) (writeCell .ulong pulOutputLen 0)

def cSign (hSession : CkSessionHandle) (pData : Addr) (ulDataLen : CkUlong)
    (pSignature pulSignatureLen : Addr) : Call CkRv :=
  outputOneShot target (ManagerProxy.getSignatureLength hSession) (ManagerProxy.sign hSession)
    pData ulDataLen pSignature pulSignatureLen

def cSignFinal (hSession : CkSessionHandle) (pSignature pulSignatureLen : Addr) : Call CkRv :=
  outputFinal target (ManagerProxy.getFinalSignatureLength hSession)
    (ManagerProxy.signFinal hSession) pSignature pulSignatureLen

def cEncryptInit (hSession : CkSessionHandle) (pMechanism : Addr) (hKey : CkObjectHandle) :
    Call CkRv :=
  cipherInit target (ManagerProxy.startEncrypt hSession hKey) pMechanism

def cEncrypt (hSession : CkSessionHandle) (pData : Addr) (ulDataLen : CkUlong)
    (pEncryptedData pulEncryptedDataLen : Addr) : Call CkRv :=
  outputOneShot target (ManagerProxy.getEncryptedLength hSession) (ManagerProxy.encrypt hSession)
    pData ulDataLen pEncryptedData pulEncryptedDataLen

def cEncryptUpdate (hSession : CkSessionHandle) (pPart : Addr) (ulPartLen : CkUlong)
    (pulEncryptedPartLen : Addr) : Call CkRv :=
  cipherUpdate target (ManagerProxy.encryptUpdate hSession) pPart ulPartLen pulEncryptedPartLen

def cEncryptFinal (hSession : CkSessionHandle)
    (pLastEncryptedPart pulLastEncryptedPartLen : Addr) : Call CkRv :=
  outputFinal target (ManagerProxy.getFinalEncryptedLength hSession)
    (ManagerProxy.encryptFinal hSession) pLastEncryptedPart pulLastEncryptedPartLen

def cDecryptInit (hSession : CkSessionHandle) (pMechanism : Addr) (hKey : CkObjectHandle) :
    Call CkRv :=
  cipherInit target (ManagerProxy.startDecrypt hSession hKey) pMechanism

def cDecrypt (hSession : CkSessionHandle) (pEncryptedData : Addr) (ulEncryptedDataLen : CkUlong)
    (pData pulDataLen : Addr) : Call CkRv :=
  outputOneShot target (ManagerProxy.getDecryptedLength hSession) (ManagerProxy.decrypt hSession)
    pEncryptedData ulEncryptedDataLen pData pulDataLen

def cDecryptUpdate (hSession : CkSessionHandle) (pEncryptedPart : Addr)
    (ulEncryptedPartLen : CkUlong) (pulPartLen : Addr) : Call CkRv :=
  cipherUpdate target (ManagerProxy.decryptUpdate hSession) pEncryptedPart ulEncryptedPartLen
    pulPartLen

def cDecryptFinal (hSession : CkSessionHandle) (pLastPart pulLastPartLen : Addr) : Call CkRv :=
  outputFinal target (ManagerProxy.getFinalDecryptedLength hSession)
    (ManagerProxy.decryptFinal hSession) pLastPart pulLastPartLen

end Exported

/-- The functions that follow no pointer and answer `CKR_FUNCTION_NOT_SUPPORTED`. -/
inductive UnsupportedFunction where
  | initToken | initPin | setPin | getOperationState | setOperationState | login
  | createObject | copyObject | destroyObject | getObjectSize | setAttributeValue
  | digestInit | digest | digestUpdate | digestKey | digestFinal
  | signRecoverInit | signRecover | verifyInit | verify | verifyUpdate | verifyFinal
  | verifyRecoverInit | verifyRecover | digestEncryptUpdate | decryptDigestUpdate
  | signEncryptUpdate | decryptVerifyUpdate | generateKey | generateKeyPair | wrapKey
  | unwrapKey | deriveKey | seedRandom | generateRandom | getFunctionStatus | cancelFunction
  | waitForSlotEvent
  deriving DecidableEq, Repr

def notSupported (_ : UnsupportedFunction) : Call CkRv := pure .functionNotSupported

inductive ExportedCall where
  | cInitialize
  | cFinalize
  | cGetInfo (pInfo : Addr)
  | cGetFunctionList (ppFunctionList : Addr)
  | cGetSlotList (pSlotList pulCount : Addr)
  | cGetSlotInfo (slotID : CkUlong) (pInfo : Addr)
  | cGetTokenInfo (slotID : CkUlong) (pInfo : Addr)
  | cGetMechanismList (slotID : CkUlong) (pMechanismList pulCount : Addr)
  | cGetMechanismInfo (slotID : CkUlong) (mechanismType : CkMechanismType) (pInfo : Addr)
  | cOpenSession (slotID flags : CkUlong) (phSession : Addr)
  | cCloseSession (hSession : CkSessionHandle)
  | cCloseAllSessions (slotID : CkUlong)
  | cGetSessionInfo (hSession : CkSessionHandle) (pInfo : Addr)
  | cLogout
  | cGetAttributeValue (hObject : CkObjectHandle) (pTemplate : Addr) (ulCount : CkUlong)
  | cFindObjectsInit (hSession : CkSessionHandle) (pTemplate : Addr) (ulCount : CkUlong)
  | cFindObjects (hSession : CkSessionHandle) (phObject : Addr) (ulMaxObjectCount : CkUlong)
      (pulObjectCount : Addr)
  | cFindObjectsFinal (hSession : CkSessionHandle)
  | cEncryptInit (hSession : CkSessionHandle) (pMechanism : Addr) (hKey : CkObjectHandle)
  | cEncrypt (hSession : CkSessionHandle) (pData : Addr) (ulDataLen : CkUlong)
      (pEncryptedData pulEncryptedDataLen : Addr)
  | cEncryptUpdate (hSession : CkSessionHandle) (pPart : Addr) (ulPartLen : CkUlong)
      (pulEncryptedPartLen : Addr)
  | cEncryptFinal (hSession : CkSessionHandle) (pLastEncryptedPart pulLastEncryptedPartLen : Addr)
  | cDecryptInit (hSession : CkSessionHandle) (pMechanism : Addr) (hKey : CkObjectHandle)
  | cDecrypt (hSession : CkSessionHandle) (pEncryptedData : Addr) (ulEncryptedDataLen : CkUlong)
      (pData pulDataLen : Addr)
  | cDecryptUpdate (hSession : CkSessionHandle) (pEncryptedPart : Addr)
      (ulEncryptedPartLen : CkUlong) (pulPartLen : Addr)
  | cDecryptFinal (hSession : CkSessionHandle) (pLastPart pulLastPartLen : Addr)
  | cSignInit (hSession : CkSessionHandle) (pMechanism : Addr) (hKey : CkObjectHandle)
  | cSign (hSession : CkSessionHandle) (pData : Addr) (ulDataLen : CkUlong)
      (pSignature pulSignatureLen : Addr)
  | cSignUpdate (hSession : CkSessionHandle) (pPart : Addr) (ulPartLen : CkUlong)
  | cSignFinal (hSession : CkSessionHandle) (pSignature pulSignatureLen : Addr)
  | notSupported (function : UnsupportedFunction)
  deriving DecidableEq, Repr

def ExportedCall.run (target : Target) : ExportedCall → Call CkRv
  | .cInitialize => OsClientCerts.cInitialize
  | .cFinalize => OsClientCerts.cFinalize
  | .cGetInfo pInfo => OsClientCerts.cGetInfo pInfo
  | .cGetFunctionList pp => OsClientCerts.cGetFunctionList pp
  | .cGetSlotList pSlotList pulCount => OsClientCerts.cGetSlotList pSlotList pulCount
  | .cGetSlotInfo slotID pInfo => OsClientCerts.cGetSlotInfo slotID pInfo
  | .cGetTokenInfo slotID pInfo => OsClientCerts.cGetTokenInfo slotID pInfo
  | .cGetMechanismList slotID pList pulCount =>
      OsClientCerts.cGetMechanismList target slotID pList pulCount
  | .cGetMechanismInfo slotID type pInfo => OsClientCerts.cGetMechanismInfo slotID type pInfo
  | .cOpenSession slotID flags phSession => OsClientCerts.cOpenSession slotID flags phSession
  | .cCloseSession session => OsClientCerts.cCloseSession session
  | .cCloseAllSessions slotID => OsClientCerts.cCloseAllSessions slotID
  | .cGetSessionInfo session pInfo => OsClientCerts.cGetSessionInfo session pInfo
  | .cLogout => OsClientCerts.cLogout
  | .cGetAttributeValue object pTemplate count =>
      OsClientCerts.cGetAttributeValue target object pTemplate count
  | .cFindObjectsInit session pTemplate count =>
      OsClientCerts.cFindObjectsInit target session pTemplate count
  | .cFindObjects session phObject max pulCount =>
      OsClientCerts.cFindObjects target session phObject max pulCount
  | .cFindObjectsFinal session => OsClientCerts.cFindObjectsFinal session
  | .cEncryptInit session pMechanism key => OsClientCerts.cEncryptInit target session pMechanism key
  | .cEncrypt session pData len pOut pulOut =>
      OsClientCerts.cEncrypt target session pData len pOut pulOut
  | .cEncryptUpdate session pPart len pulOut =>
      OsClientCerts.cEncryptUpdate target session pPart len pulOut
  | .cEncryptFinal session pOut pulOut => OsClientCerts.cEncryptFinal target session pOut pulOut
  | .cDecryptInit session pMechanism key => OsClientCerts.cDecryptInit target session pMechanism key
  | .cDecrypt session pData len pOut pulOut =>
      OsClientCerts.cDecrypt target session pData len pOut pulOut
  | .cDecryptUpdate session pPart len pulOut =>
      OsClientCerts.cDecryptUpdate target session pPart len pulOut
  | .cDecryptFinal session pOut pulOut => OsClientCerts.cDecryptFinal target session pOut pulOut
  | .cSignInit session pMechanism key => OsClientCerts.cSignInit target session pMechanism key
  | .cSign session pData len pOut pulOut => OsClientCerts.cSign target session pData len pOut pulOut
  | .cSignUpdate session pPart len => OsClientCerts.cSignUpdate target session pPart len
  | .cSignFinal session pOut pulOut => OsClientCerts.cSignFinal target session pOut pulOut
  | .notSupported function => OsClientCerts.notSupported function

end OsClientCerts
