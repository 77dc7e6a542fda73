import OsClientCerts.IntegerPairs

/-!
Signing in the macOS backend. The Security framework gives an ECDSA signature as two
encoded integers, which become two fields of the width of the curve's coordinates.
-/

namespace OsClientCerts
open OctetStrings

def readEcSigPoint (signature : Bytes) : Except Unit (Bytes × Bytes) := do
  let contents ← Sequence.new signature
  let (r, rest) ← Sequence.readUnsignedInteger contents
  let (s, rest) ← Sequence.readUnsignedInteger rest
  if rest ≠ [] then .error () else .ok (r, s)

theorem read_ec_sig_point_eq (signature : Bytes) :
    readEcSigPoint signature = Sequence.twoUnsignedIntegers signature := rfl

namespace Macos

inductive KeyType where
  | ec (coordinateWidth : Nat)
  | rsa
  deriving DecidableEq

inductive SecStringConstant where
  | secKeyAlgorithmEcdsaSignatureDigestX962Sha1
  | secKeyAlgorithmEcdsaSignatureDigestX962Sha256
  | secKeyAlgorithmEcdsaSignatureDigestX962Sha384
  | secKeyAlgorithmEcdsaSignatureDigestX962Sha512
  | secKeyAlgorithmRsaSignatureDigestPkcs1v15Raw
  | secKeyAlgorithmRsaSignatureDigestPssSha1
  | secKeyAlgorithmRsaSignatureDigestPssSha256
  | secKeyAlgorithmRsaSignatureDigestPssSha384
  | secKeyAlgorithmRsaSignatureDigestPssSha512
  deriving DecidableEq

abbrev SecIdentity := Nat
abbrev SecKey := Nat
abbrev SecKeyAlgorithm := String

/-- What the Security framework answers during one call. -/
structure SecurityFramework where
  getSecStringConstant : SecStringConstant → Except Unit SecKeyAlgorithm
  secIdentityCopyPrivateKey : SecIdentity → Except Unit SecKey
  secKeyCreateSignature : SecKey → SecKeyAlgorithm → Bytes → Except Unit Bytes

def newEcParams (os : SecurityFramework) (dataLen : Nat) : Except Unit SecKeyAlgorithm :=
  match dataLen with
  | 20 => os.getSecStringConstant .secKeyAlgorithmEcdsaSignatureDigestX962Sha1
  | 32 => os.getSecStringConstant .secKeyAlgorithmEcdsaSignatureDigestX962Sha256
  | 48 => os.getSecStringConstant .secKeyAlgorithmEcdsaSignatureDigestX962Sha384
  | 64 => os.getSecStringConstant .secKeyAlgorithmEcdsaSignatureDigestX962Sha512
  | _ => .error ()

def newRsaParams (os : SecurityFramework) (params : Option CkRsaPkcsPssParams) :
    Except Unit SecKeyAlgorithm :=
  match params with
  | none => os.getSecStringConstant .secKeyAlgorithmRsaSignatureDigestPkcs1v15Raw
  | some pssParams =>
      if pssParams.hashAlg = ckmSha1 then
        os.getSecStringConstant .secKeyAlgorithmRsaSignatureDigestPssSha1
      else if pssParams.hashAlg = ckmSha256 then
        os.getSecStringConstant .secKeyAlgorithmRsaSignatureDigestPssSha256
      else if pssParams.hashAlg = ckmSha384 then
        os.getSecStringConstant .secKeyAlgorithmRsaSignatureDigestPssSha384
      else if pssParams.hashAlg = ckmSha512 then
        os.getSecStringConstant .secKeyAlgorithmRsaSignatureDigestPssSha512
      else .error ()

def SignParams.new (os : SecurityFramework) (keyType : KeyType) (dataLen : Nat)
    (params : Option CkRsaPkcsPssParams) : Except Unit SecKeyAlgorithm :=
  match keyType with
  | .ec _ => newEcParams os dataLen
  | .rsa => newRsaParams os params

/-- A subtraction of `usize`, none if it underflows. -/
def usizeSub (left right : Nat) : Option Nat := if right ≤ left then some (left - right) else none

def padded (coordinateWidth : Nat) (integer : Bytes) : Option Bytes := do
  let padding ← usizeSub coordinateWidth integer.length
  some (List.replicate padding 0 ++ integer)

/-- The end of `Key::sign`, from the signature that the framework made. -/
def signatureValue (keyTypeEnum : KeyType) (signature : Bytes) :
    Option (Except CryptoError Bytes) :=
  match keyTypeEnum with
  | .ec coordinateWidth =>
      match readEcSigPoint signature with
      | .error () => some (.error .invalidData)
      | .ok (r, s) =>
          if r.length > coordinateWidth ∨ s.length > coordinateWidth then
            some (.error .invalidData)
          else do
            let r ← padded coordinateWidth r
            let s ← padded coordinateWidth s
            some (.ok (r ++ s))
  | .rsa => some (.ok signature)

structure Key where
  identity : SecIdentity
  keyTypeEnum : KeyType

def Key.sign (os : SecurityFramework) (key : Key) (data : Bytes)
    (params : Option CkRsaPkcsPssParams) : Option (Except CryptoError Bytes) :=
  match os.secIdentityCopyPrivateKey key.identity with
  | .error () => some (.error .invalidKey)
  | .ok privateKey =>
      match SignParams.new os key.keyTypeEnum data.length params with
      | .error () => some (.error .operationFailed)
      | .ok signingAlgorithm =>
          match os.secKeyCreateSignature privateKey signingAlgorithm data with
          | .error () => some (.error .operationFailed)
          | .ok signature => signatureValue key.keyTypeEnum signature

def Key.getSignatureLength (os : SecurityFramework) (key : Key) (data : Bytes)
    (params : Option CkRsaPkcsPssParams) : Option (Except CryptoError Nat) :=
  (key.sign os data params).map fun signed => signed.map List.length

def EcdsaSigValue (r s : Nat) (signature : Bytes) : Prop :=
  ∃ left right body, MinimalInteger r left ∧ MinimalInteger s right ∧ PairBody left right body ∧
    Item sequenceTag body signature

theorem padded_some {width : Nat} {integer : Bytes} (fits : integer.length ≤ width) :
    padded width integer = some (List.replicate (width - integer.length) 0 ++ integer) := by
  simp [padded, usizeSub, fits]

theorem signature_value_ok {width : Nat} {signature r s : Bytes}
    (read : readEcSigPoint signature = .ok (r, s)) (fitsR : r.length ≤ width)
    (fitsS : s.length ≤ width) : signatureValue (.ec width) signature =
      some (.ok (List.replicate (width - r.length) 0 ++ r ++
        (List.replicate (width - s.length) 0 ++ s))) := by
  simp [signatureValue, read, padded_some fitsR, padded_some fitsS, Nat.not_lt.mpr fitsR,
    Nat.not_lt.mpr fitsS]

theorem signature_value_cases (width : Nat) (signature : Bytes) :
    signatureValue (.ec width) signature = some (.error .invalidData) ∨
      ∃ r s, readEcSigPoint signature = .ok (r, s) ∧ r.length ≤ width ∧ s.length ≤ width := by
  -- The range check comes first, so no subtraction underflows.
  cases read : readEcSigPoint signature with
  | error failure => exact Or.inl (by simp [signatureValue, read])
  | ok point =>
      obtain ⟨r, s⟩ := point
      by_cases long : r.length > width ∨ s.length > width
      · exact Or.inl (by simp [signatureValue, read, long])
      · push Not at long
        exact Or.inr ⟨r, s, rfl, long.1, long.2⟩

theorem signature_value_total (keyType : KeyType) (signature : Bytes) :
    signatureValue keyType signature ≠ none := by
  cases keyType with
  | rsa => exact Option.some_ne_none _
  | ec width =>
      rcases signature_value_cases width signature with failed | ⟨r, s, read, fitsR, fitsS⟩
      · rw [failed]
        exact Option.some_ne_none _
      · rw [signature_value_ok read fitsR fitsS]
        exact Option.some_ne_none _

theorem signature_value_length {width : Nat} {signature converted : Bytes}
    (done : signatureValue (.ec width) signature = some (.ok converted)) :
    converted.length = 2 * width := by
  rcases signature_value_cases width signature with failed | ⟨r, s, read, fitsR, fitsS⟩
  · rw [failed] at done
    cases done
  · rw [signature_value_ok read fitsR fitsS] at done
    cases done
    simp only [List.length_append, List.length_replicate]
    omega

/-- Numbers below the width become their fields; whatever is converted has two fields of
that width; and integers that are too long or not alone are refused. -/
theorem ec_signature_converted (width : Nat) (signature : Bytes) :
    (∀ r s, 1 ≤ width → r < 256 ^ width → s < 256 ^ width → EcdsaSigValue r s signature →
      signature.length < 65536 →
      signatureValue (.ec width) signature = some (.ok (fixed width r ++ fixed width s))) ∧
    signatureValue (.ec width) signature ≠ none ∧
    (∀ converted, signatureValue (.ec width) signature = some (.ok converted) →
      converted.length = 2 * width ∧
      ∃ left right body, PairBody left right body ∧ Item sequenceTag body signature ∧
        (withoutSign left).length ≤ width ∧ (withoutSign right).length ≤ width ∧
        converted.take width =
          List.replicate (width - (withoutSign left).length) 0 ++ withoutSign left ∧
        converted.drop width =
          List.replicate (width - (withoutSign right).length) 0 ++ withoutSign right) ∧
    ∀ left right body inner outer item, PairBody left right body →
      Item sequenceTag (body ++ inner) item → signature = item ++ outer →
      width < (withoutSign left).length ∨ width < (withoutSign right).length ∨
        inner ≠ [] ∨ outer ≠ [] →
      signatureValue (.ec width) signature = some (.error .invalidData) := by
  refine ⟨?_, ?_, ?_, ?_⟩
  · rintro r s some_width belowR belowS ⟨left, right, body, isR, isS, pair, encoded⟩ short
    obtain ⟨cleanR, valueR⟩ := minimal_iff_clean.mp isR
    obtain ⟨cleanS, valueS⟩ := minimal_iff_clean.mp isS
    have longer := item_longer encoded
    have read : readEcSigPoint signature = .ok (withoutSign left, withoutSign right) := by
      rw [read_ec_sig_point_eq]
      exact two_integers_iff.mpr
        ⟨left, right, body, isR.1, isS.1, pair, by omega, encoded, rfl, rfl⟩
    rw [without_sign_clean cleanR, without_sign_clean cleanS, valueR, valueS] at read
    have fitsR := unsigned_length_le some_width belowR
    have fitsS := unsigned_length_le some_width belowS
    rw [signature_value_ok read fitsR fitsS, padded_fixed fitsR, padded_fixed fitsS,
      value_unsigned, value_unsigned]
  · exact signature_value_total (.ec width) signature
  · intro converted done
    refine ⟨signature_value_length done, ?_⟩
    rcases signature_value_cases width signature with failed | ⟨r, s, read, fitsR, fitsS⟩
    · rw [failed] at done
      cases done
    · rw [signature_value_ok read fitsR fitsS] at done
      cases done
      rw [read_ec_sig_point_eq] at read
      obtain ⟨left, right, body, _, _, pair, _, encoded, rfl, rfl⟩ := two_integers_iff.mp read
      have first : (List.replicate (width - (withoutSign left).length) 0 ++
          withoutSign left).length = width := by
        rw [List.length_append, List.length_replicate]
        omega
      refine ⟨left, right, body, pair, encoded, fitsR, fitsS, ?_, ?_⟩
      · exact List.take_left' first
      · exact List.drop_left' first
  · rintro left right body inner outer item pair encoded rfl wrong
    rcases signature_value_cases width (item ++ outer) with failed | ⟨r, s, read, fitsR, fitsS⟩
    · exact failed
    · rw [read_ec_sig_point_eq] at read
      obtain ⟨none, nothing, rfl, rfl⟩ := two_integers_exact pair encoded read
      rcases wrong with long | long | some_inner | some_outer
      · omega
      · omega
      · exact absurd none some_inner
      · exact absurd nothing some_outer

theorem Key.sign_cases (os : SecurityFramework) (key : Key) (data : Bytes)
    (params : Option CkRsaPkcsPssParams) :
    key.sign os data params = some (.error .invalidKey) ∨
    key.sign os data params = some (.error .operationFailed) ∨
      ∃ privateKey signingAlgorithm signature,
        os.secIdentityCopyPrivateKey key.identity = .ok privateKey ∧
        SignParams.new os key.keyTypeEnum data.length params = .ok signingAlgorithm ∧
        os.secKeyCreateSignature privateKey signingAlgorithm data = .ok signature ∧
        key.sign os data params = signatureValue key.keyTypeEnum signature := by
  unfold sign
  cases copied : os.secIdentityCopyPrivateKey key.identity with
  | error failure => exact Or.inl rfl
  | ok privateKey =>
      cases chosen : SignParams.new os key.keyTypeEnum data.length params with
      | error failure => exact Or.inr (Or.inl rfl)
      | ok signingAlgorithm =>
          cases made : os.secKeyCreateSignature privateKey signingAlgorithm data with
          | error failure => exact Or.inr (Or.inl (by simp only [made]))
          | ok signature =>
              exact Or.inr (Or.inr ⟨privateKey, signingAlgorithm, signature, rfl, rfl, made,
                by simp only [made]⟩)

theorem Key.sign_total (os : SecurityFramework) (key : Key) (data : Bytes)
    (params : Option CkRsaPkcsPssParams) : key.sign os data params ≠ none := by
  rcases key.sign_cases os data params with failed | failed | ⟨_, _, signature, _, _, _, signed⟩
  · rw [failed]
    exact Option.some_ne_none _
  · rw [failed]
    exact Option.some_ne_none _
  · rw [signed]
    exact signature_value_total key.keyTypeEnum signature

theorem new_ec_params_digest {os : SecurityFramework} {dataLen : Nat}
    {signingAlgorithm : SecKeyAlgorithm} (chosen : newEcParams os dataLen = .ok signingAlgorithm) :
    dataLen ∈ [20, 32, 48, 64] := by
  unfold newEcParams at chosen
  split at chosen
  case h_5 => cases chosen
  all_goals decide

theorem Key.sign_ec {os : SecurityFramework} {key : Key} {width : Nat} {data signature : Bytes}
    {params : Option CkRsaPkcsPssParams} (onCurve : key.keyTypeEnum = .ec width)
    (signed : key.sign os data params = some (.ok signature)) :
    data.length ∈ [20, 32, 48, 64] ∧ signature.length = 2 * width := by
  rcases key.sign_cases os data params with failed | failed | ⟨_, _, made, _, chosen, _, converted⟩
  · rw [failed] at signed
    cases signed
  · rw [failed] at signed
    cases signed
  · rw [onCurve] at chosen converted
    exact ⟨new_ec_params_digest chosen, signature_value_length (converted.symm.trans signed)⟩

/-- ECDSA makes a new signature each time, of a length of its own. The length that one of
them is measured by is the length of what any later call returns. -/
theorem Key.signature_length_announced {os later : SecurityFramework} {key : Key}
    {width announced : Nat} {data digest signature : Bytes}
    {params laterParams : Option CkRsaPkcsPssParams} (onCurve : key.keyTypeEnum = .ec width)
    (measured : key.getSignatureLength os data params = some (.ok announced))
    (signed : key.sign later digest laterParams = some (.ok signature)) :
    signature.length = announced := by
  obtain ⟨result, dummySigned, counted⟩ := Option.map_eq_some_iff.mp measured
  cases result with
  | error failure => cases counted
  | ok dummySignature =>
      cases counted
      rw [(sign_ec onCurve signed).2, (sign_ec onCurve dummySigned).2]

/-- With an RSA key the result is what the framework signed, under the algorithm that the
parameters name. -/
theorem Key.sign_rsa {os : SecurityFramework} {key : Key} {data signature : Bytes}
    {params : Option CkRsaPkcsPssParams} (rsa : key.keyTypeEnum = .rsa)
    (signed : key.sign os data params = some (.ok signature)) :
    ∃ privateKey signingAlgorithm, os.secIdentityCopyPrivateKey key.identity = .ok privateKey ∧
      newRsaParams os params = .ok signingAlgorithm ∧
      os.secKeyCreateSignature privateKey signingAlgorithm data = .ok signature := by
  rcases key.sign_cases os data params with failed | failed |
    ⟨privateKey, signingAlgorithm, made, copied, chosen, created, converted⟩
  · rw [failed] at signed
    cases signed
  · rw [failed] at signed
    cases signed
  · rw [rsa] at chosen converted
    rw [converted] at signed
    cases signed
    exact ⟨privateKey, signingAlgorithm, copied, chosen, created⟩

end Macos
end OsClientCerts
