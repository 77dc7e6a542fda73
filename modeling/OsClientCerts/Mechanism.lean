import OsClientCerts.CallerMemory

/-!
Parsing the mechanism of an encryption or decryption into its owned form, and the
names CNG gives the hash algorithms.
-/

namespace OsClientCerts
open Resumption

def sha1AlgorithmString : List UInt16 := [83, 72, 65, 49, 0]
def sha256AlgorithmString : List UInt16 := [83, 72, 65, 50, 53, 54, 0]
def sha384AlgorithmString : List UInt16 := [83, 72, 65, 51, 56, 52, 0]
def sha512AlgorithmString : List UInt16 := [83, 72, 65, 53, 49, 50, 0]

def hashAlgorithmString (hashAlg : CkMechanismType) : Except Unit (List UInt16) :=
  if hashAlg = ckmSha1 then .ok sha1AlgorithmString
  else if hashAlg = ckmSha256 then .ok sha256AlgorithmString
  else if hashAlg = ckmSha384 then .ok sha384AlgorithmString
  else if hashAlg = ckmSha512 then .ok sha512AlgorithmString
  else .error ()

/-- The mask generation function that CNG ties to a hash algorithm. -/
def expectedMgf (hashAlg : CkMechanismType) : Option CkUlong :=
  if hashAlg = ckmSha1 then some ckgMgf1Sha1
  else if hashAlg = ckmSha256 then some ckgMgf1Sha256
  else if hashAlg = ckmSha384 then some ckgMgf1Sha384
  else if hashAlg = ckmSha512 then some ckgMgf1Sha512
  else none

variable {S : Signature}

def readOaepLabel (target : Target) (params : CkRsaPkcsOaepParams) : Ffi S Bytes :=
  if params.ulSourceDataLen = 0 ∨ params.pSourceData = null then pure []
  else readSlice target .bytes params.pSourceData params.ulSourceDataLen

def parseOaepParams (target : Target) (params : CkRsaPkcsOaepParams) :
    Ffi S (Except CkRv RsaCipherMechanism) :=
  if params.source ≠ ckzDataSpecified then pure (.error .argumentsBad)
  else match expectedMgf params.hashAlg with
    | none => pure (.error .mechanismInvalid)
    | some expected =>
        if params.mgf ≠ expected then pure (.error .mechanismInvalid)
        else if params.pSourceData = null ∧ params.ulSourceDataLen ≠ 0 then
          pure (.error .argumentsBad)
        else if params.ulSourceDataLen > maxOaepLabelLen then pure (.error .argumentsBad)
        else do
          let label ← readOaepLabel target params
          pure (.ok (.oaep params.hashAlg label))

def parseRsaCipherMechanism (target : Target) (mechanism : CkMechanism) :
    Ffi S (Except CkRv RsaCipherMechanism) :=
  if mechanism.mechanism = ckmRsaPkcs then
    if mechanism.ulParameterLen ≠ 0 ∨ mechanism.pParameter ≠ null then
      pure (.error .argumentsBad)
    else pure (.ok .pkcs1v15)
  else if mechanism.mechanism ≠ ckmRsaPkcsOaep then pure (.error .mechanismInvalid)
  else if mechanism.ulParameterLen ≠ target.sizeOfOaepParams ∨ mechanism.pParameter = null then
    pure (.error .argumentsBad)
  else do
    let params ← readCell .oaepParams mechanism.pParameter
    parseOaepParams target params

end OsClientCerts
