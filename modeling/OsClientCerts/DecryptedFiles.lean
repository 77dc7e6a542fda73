import OsClientCerts.Base64
import OsClientCerts.MimeParts
import OsClientCerts.PatternReadings
import OsClientCerts.RedirectedReplies

/-!
The files of a decrypted message as the privileged script hands them to the background page:
gathered from the tree of its parts and spelled in base64. Which files get so far, and that
their bytes come back.
-/

namespace OsClientCerts.ForwardDecrypt
open RegularExpressions
open CertCleanup (ofAscii)

structure Candidate where
  name : JsString
  contentType : JsString
  isInline : Bool
  body : JsString

def isImage (contentType : JsString) : Bool := contentType.take 6 = ofAscii "image/"

def disposition (node : PartFields) : JsString :=
  JsString.toLowerCase ((mimeHeader node "content-disposition").getD [])

def endsInEnvelope (name : JsString) : Bool :=
  (ofAscii ".p7m").isSuffixOf (name.map lowerCase) || (ofAscii ".p7s").isSuffixOf (name.map lowerCase)

def candidate : MimePart → Option Candidate
  | .part node subParts =>
      let ct := mimeContentType node
      let cd := disposition node
      let cid := (mimeHeader node "content-id").getD []
      let name := mimeFilename node
      let isEnvelope := ct.includes "pkcs7-mime" || ct.includes "enveloped-data" ||
        ct.includes "application/x-pkcs7-mime" || endsInEnvelope name
      let isNamedAttachment := !name.isEmpty && (node.isAttachment || cd.includes "attachment")
      match node.body with
      | none => none
      | some body =>
          if !isEnvelope && isNamedAttachment && subParts.isEmpty && !ct.includes "multipart/" then
            let isInline :=
              cd.includes "inline" || isImage ct && (!cid.isEmpty || cd.includes "inline")
            let contentType := if ct.isEmpty then js "application/octet-stream" else ct
            some ⟨name, contentType, isInline, body⟩
          else none

mutual
def walkDecryptedParts : MimePart → List Candidate
  | .part node subParts => (candidate (.part node subParts)).toList ++ walkEach subParts

def walkEach : List MimePart → List Candidate
  | [] => []
  | part :: rest => walkDecryptedParts part ++ walkEach rest
end

def alphabet : JsString := js "ABCDEFGHIJKLMNOPQRSTUVWXYZabcdefghijklmnopqrstuvwxyz0123456789+/"

def sextetUnit (value : Nat) : UInt16 := alphabet.getD value 0

def lowByte (unit : UInt16) : Nat := unit.toNat &&& 0xff

def bytesToBase64 : JsString → JsString
  | first :: second :: third :: rest =>
      let (a, b, c) := (lowByte first, lowByte second, lowByte third)
      sextetUnit (a >>> 2) :: sextetUnit ((a &&& 3) <<< 4 ||| b >>> 4) ::
        sextetUnit ((b &&& 15) <<< 2 ||| c >>> 6) :: sextetUnit (c &&& 63) :: bytesToBase64 rest
  | [first, second] =>
      let (a, b) := (lowByte first, lowByte second)
      [sextetUnit (a >>> 2), sextetUnit ((a &&& 3) <<< 4 ||| b >>> 4),
        sextetUnit ((b &&& 15) <<< 2 ||| 0 >>> 6), unitOf '=']
  | [first] =>
      let a := lowByte first
      [sextetUnit (a >>> 2), sextetUnit ((a &&& 3) <<< 4 ||| 0 >>> 4), unitOf '=', unitOf '=']
  | [] => []

def extractedRow (part : Candidate) : Option Row :=
  if part.isInline then none
  else
    let b64 := bytesToBase64 part.body
    if b64.isEmpty then none else some ⟨some part.name, some part.contentType, b64⟩

def extractedRows (decryptedTree : MimePart) : List Row :=
  (walkDecryptedParts decryptedTree).filterMap extractedRow

def isAsciiWhiteSpace (unit : UInt16) : Bool :=
  unit == 0x09 || unit == 0x0A || unit == 0x0C || unit == 0x0D || unit == 0x20

def withoutPadding (data : JsString) : JsString :=
  if (js "==").isSuffixOf data then data.dropLast.dropLast
  else if (js "=").isSuffixOf data then data.dropLast
  else data

/-- It throws at other units, and at a length that no octets have. -/
def atob (data : JsString) : Option JsString :=
  let data := data.filter fun unit => !isAsciiWhiteSpace unit
  let data := if data.length % 4 = 0 then withoutPadding data else data
  (data.mapM fun unit => alphabet.findIdx? (· == unit)).bind fun values =>
    (Base64.octets values).map fun bytes => bytes.map UInt16.ofNat

structure StandaloneFile where
  name : JsString
  contentType : JsString
  body : JsString

/-- Inline by its disposition; an image with a Content-ID also, unless it is an attachment. -/
def isInlinePart (node : PartFields) : Bool :=
  (disposition node).includes "inline" ||
    (isImage (mimeContentType node) && !((mimeHeader node "content-id").getD []).isEmpty &&
      !(disposition node).includes "attachment")

def standaloneFile : MimePart → Option StandaloneFile
  | .part node subParts =>
      let ct := mimeContentType node
      let name := mimeFilename node
      let isLeaf := subParts.isEmpty && !ct.includes "multipart/"
      let isMarked := node.isAttachment || (disposition node).includes "attachment"
      let isEnvelope := ct.includes "pkcs7-mime" || endsInEnvelope name
      if !name.isEmpty && isMarked && isLeaf && !isInlinePart node && !isEnvelope then
        node.body.map fun body => ⟨name, ct, body⟩
      else none

def standaloneFiles (decryptedTree : MimePart) : List StandaloneFile :=
  decryptedTree.all.filterMap standaloneFile

/-- The file is extracted and not passed over: it has bytes, and its type does not stop it. -/
def StandaloneFile.Kept (file : StandaloneFile) : Prop :=
  file.body ≠ [] ∧ isImage file.contentType = false ∧
    file.contentType.includes "enveloped-data" = false

instance (file : StandaloneFile) : Decidable file.Kept := inferInstanceAs (Decidable (_ ∧ _ ∧ _))

def padding (length : Nat) : JsString := List.replicate ((3 - length % 3) % 3) (unitOf '=')

theorem low_byte_small (unit : UInt16) : lowByte unit < 256 :=
  Nat.lt_of_le_of_lt Nat.and_le_right (by decide)

theorem low_bytes_small (data : JsString) : ∀ byte ∈ data.map lowByte, byte < 256 := by
  intro byte member
  obtain ⟨unit, -, rfl⟩ := List.mem_map.mp member
  exact low_byte_small unit

theorem bytes_to_base64 (data : JsString) : bytesToBase64 data =
    (Base64.sextets (data.map lowByte)).map sextetUnit ++ padding data.length := by
  induction data using bytesToBase64.induct with
  | case1 first second third rest a b c _ ih =>
      have same : padding (first :: second :: third :: rest).length = padding rest.length := by
        have same : (first :: second :: third :: rest).length % 3 = rest.length % 3 :=
          Nat.add_mod_right rest.length 3
        rw [padding, padding, same]
      rw [bytesToBase64, ih, same]
      rfl
  | case2 first second a b _ => rfl
  | case3 first => rfl
  | case4 => rfl

theorem sextet_units : ∀ value < 64, alphabet.findIdx? (· == sextetUnit value) = some value ∧
    sextetUnit value ≠ unitOf '=' ∧ isAsciiWhiteSpace (sextetUnit value) = false := by
  decide +kernel

theorem sextet_letter : ∀ value < 64, sextetUnit value = unitOf (Base64.letter value) := by
  decide +kernel

theorem base64_length (data : JsString) :
    (bytesToBase64 data).length = 4 * ((data.length + 2) / 3) := by
  induction data using bytesToBase64.induct with
  | case1 first second third rest a b c _ ih =>
      have group : (rest.length + 3 + 2) / 3 = (rest.length + 2) / 3 + 1 := by omega
      change (bytesToBase64 rest).length + 4 = 4 * ((rest.length + 3 + 2) / 3)
      rw [ih, group, Nat.mul_add]
  | case2 first second a b _ => simp [bytesToBase64]
  | case3 first => simp [bytesToBase64]
  | case4 => rfl

theorem spelled_length (data : JsString) : (bytesToBase64 data).length % 4 = 0 := by
  rw [base64_length, Nat.mul_mod_right]

theorem padding_cases (length : Nat) :
    padding length = [] ∨ padding length = js "=" ∨ padding length = js "==" := by
  have few : (3 - length % 3) % 3 = 0 ∨ (3 - length % 3) % 3 = 1 ∨ (3 - length % 3) % 3 = 2 := by
    omega
  unfold padding
  rcases few with none | one | two
  · exact Or.inl (by rw [none]; rfl)
  · exact Or.inr (Or.inl (by rw [one]; rfl))
  · exact Or.inr (Or.inr (by rw [two]; rfl))

theorem without_padding {spelled : JsString} (absent : unitOf '=' ∉ spelled) (length : Nat) :
    withoutPadding (spelled ++ padding length) = spelled := by
  have unpadded {pad : JsString} (marks : unitOf '=' ∈ pad) : ¬ pad.isSuffixOf spelled = true := by
    rw [List.isSuffixOf_iff_suffix]
    exact fun suffix => absent (suffix.subset marks)
  have one : ¬ (js "=").isSuffixOf spelled = true := unpadded List.mem_cons_self
  have two : ¬ (js "==").isSuffixOf spelled = true := unpadded List.mem_cons_self
  unfold withoutPadding
  rcases padding_cases length with pad | pad | pad
  · rw [pad, List.append_nil, if_neg two, if_neg one]
  · have single : ¬ (js "==").isSuffixOf (spelled ++ js "=") = true := by
      rw [List.isSuffixOf_iff_suffix]
      rintro ⟨front, same⟩
      have inner : front ++ js "=" = spelled := by
        apply List.append_cancel_right
        rw [← same, List.append_assoc]
        rfl
      exact absent (inner ▸ List.mem_append_right _ List.mem_cons_self)
    have last : (js "=").isSuffixOf (spelled ++ js "=") = true :=
      List.isSuffixOf_iff_suffix.mpr (List.suffix_append _ _)
    rw [pad, if_neg single, if_pos last]
    exact List.dropLast_concat
  · have double : (js "==").isSuffixOf (spelled ++ js "==") = true :=
      List.isSuffixOf_iff_suffix.mpr (List.suffix_append _ _)
    have split : spelled ++ js "==" = (spelled ++ js "=") ++ js "=" := by
      rw [List.append_assoc]
      rfl
    rw [pad, if_pos double, split]
    exact (congrArg List.dropLast List.dropLast_concat).trans List.dropLast_concat

theorem alphabet_values {values : List Nat} (small : ∀ value ∈ values, value < 64) :
    ((values.map sextetUnit).mapM fun unit => alphabet.findIdx? (· == unit)) = some values := by
  induction values with
  | nil => rfl
  | cons value values ih =>
      obtain ⟨first, others⟩ := List.forall_mem_cons.mp small
      rw [List.map_cons, List.mapM_cons, (sextet_units value first).1, ih others]
      rfl

theorem atob_base64 (data : JsString) :
    atob (bytesToBase64 data) = some (data.map fun unit => UInt16.ofNat (lowByte unit)) := by
  have small := Base64.sextets_small (low_bytes_small data)
  have letters {unit : UInt16}
      (member : unit ∈ (Base64.sextets (data.map lowByte)).map sextetUnit) :
      unit ≠ unitOf '=' ∧ isAsciiWhiteSpace unit = false := by
    obtain ⟨value, inside, rfl⟩ := List.mem_map.mp member
    exact (sextet_units value (small value inside)).2
  have absent : unitOf '=' ∉ (Base64.sextets (data.map lowByte)).map sextetUnit :=
    fun member => (letters member).1 rfl
  have unchanged : (bytesToBase64 data).filter (fun unit => !isAsciiWhiteSpace unit) =
      bytesToBase64 data := by
    rw [List.filter_eq_self, bytes_to_base64]
    intro unit member
    rcases List.mem_append.mp member with letter | pad
    · rw [(letters letter).2]
      rfl
    · rw [List.eq_of_mem_replicate pad]
      rfl
  unfold atob
  dsimp only
  rw [unchanged, if_pos (spelled_length data), bytes_to_base64, without_padding absent,
    alphabet_values small]
  dsimp only [Option.bind_some]
  rw [Base64.octets_sextets (low_bytes_small data), Option.map_some, List.map_map]
  rfl

theorem low_byte_raw {unit : UInt16} (raw : unit.toNat < 256) : lowByte unit = unit.toNat := by
  rw [lowByte, Nat.and_two_pow_sub_one_eq_mod unit.toNat 8]
  exact Nat.mod_eq_of_lt raw

theorem bytes_back {body : JsString} (raw : ∀ unit ∈ body, unit.toNat < 256) :
    (body.map fun unit => (UInt16.ofNat (lowByte unit)).toUInt8).map UInt8.toUInt16 = body := by
  have same (unit : UInt16) (member : unit ∈ body) :
      (UInt16.ofNat (lowByte unit)).toUInt8.toUInt16 = unit := by
    apply UInt16.toNat_inj.mp
    rw [low_byte_raw (raw unit member), UInt16.ofNat_toNat, UInt8.toNat_toUInt16,
      UInt16.toNat_toUInt8]
    exact Nat.mod_eq_of_lt (raw unit member)
  rw [List.map_map]
  exact (List.map_congr_left same).trans (List.map_id _)

/-- Any number of bytes is spelled in four letters for every three, with the bits in their
order and the last letters padded, and is read back as it was. -/
theorem base64_round_trip (data : JsString) (raw : ∀ unit ∈ data, unit.toNat < 256) :
    (bytesToBase64 data).length = 4 * ((data.length + 2) / 3) ∧
    (∃ values : List Nat, (∀ value ∈ values, value < 64) ∧
      bytesToBase64 data =
        (values.map fun value => unitOf (Base64.letter value)) ++ padding data.length ∧
      values.flatMap (Base64.bits 6) = (data.map UInt16.toNat).flatMap (Base64.bits 8) ++
        List.replicate (2 * (padding data.length).length) false) ∧
    ∃ bytes : List UInt8, (atob (bytesToBase64 data)).map (List.map UInt16.toUInt8) = some bytes ∧
      bytes.map UInt8.toUInt16 = data := by
  have small := Base64.sextets_small (low_bytes_small data)
  refine ⟨base64_length data, ⟨Base64.sextets (data.map lowByte), small, ?_, ?_⟩, ?_⟩
  · have letters : (Base64.sextets (data.map lowByte)).map sextetUnit =
        (Base64.sextets (data.map lowByte)).map fun value => unitOf (Base64.letter value) :=
      List.map_congr_left fun value member => sextet_letter value (small value member)
    rw [bytes_to_base64, letters]
  · have low : data.map lowByte = data.map UInt16.toNat :=
      List.map_congr_left fun unit member => low_byte_raw (raw unit member)
    rw [Base64.sextets_bits (low_bytes_small data), low, padding, List.length_replicate,
      List.length_map]
  · have back : (atob (bytesToBase64 data)).map (List.map UInt16.toUInt8) =
        some (data.map fun unit => (UInt16.ofNat (lowByte unit)).toUInt8) := by
      rw [atob_base64, Option.map_some, List.map_map]
      rfl
    exact ⟨_, back, bytes_back raw⟩

theorem two_bytes_round_trip :
    ∃ bytes : List UInt8,
      (atob (bytesToBase64 [0xFB, 0x80])).map (List.map UInt16.toUInt8) = some bytes ∧
      bytes.map UInt8.toUInt16 = [0xFB, 0x80] :=
  (base64_round_trip [0xFB, 0x80] (by simp)).2.2

theorem bytes_raw (bytes : List UInt8) : ∀ unit ∈ bytes.map UInt8.toUInt16, unit.toNat < 256 := by
  intro unit member
  obtain ⟨byte, -, rfl⟩ := List.mem_map.mp member
  rw [UInt8.toNat_toUInt16]
  exact byte.toNat_lt

mutual
theorem walk_all (root : MimePart) :
    walkDecryptedParts root = root.all.filterMap candidate := by
  cases root with
  | part node subParts =>
      rw [walkDecryptedParts, MimePart.all, List.filterMap_cons, walk_each subParts]
      cases candidate (.part node subParts) <;> rfl

theorem walk_each (parts : List MimePart) : walkEach parts = (allParts parts).filterMap candidate := by
  cases parts with
  | nil => rfl
  | cons part rest =>
      rw [walkEach, allParts, List.filterMap_append, walk_all part, walk_each rest]
end

def StandaloneFile.row (file : StandaloneFile) : Row :=
  let contentType :=
    if file.contentType.isEmpty then js "application/octet-stream" else file.contentType
  ⟨some file.name, some contentType, bytesToBase64 file.body⟩

theorem base64_nil_iff (data : JsString) : (bytesToBase64 data).isEmpty = data.isEmpty := by
  cases data using bytesToBase64.induct <;> simp [bytesToBase64]

/-- What the walk makes of a part and the background page does not pass over. -/
def attachable (part : MimePart) : Option Row :=
  ((candidate part).bind extractedRow).filter fun row => !leftOut row

theorem left_out_row (name contentType b64 : JsString) :
    leftOut ⟨some name, some contentType, b64⟩ = (endsInEnvelope name || isImage contentType) := rfl

theorem default_not_image (ct : JsString) :
    isImage (if ct.isEmpty then js "application/octet-stream" else ct) = isImage ct := by
  cases ct with
  | nil => decide
  | cons first rest => rfl

def eligible (node : PartFields) (subParts : List MimePart) : Bool :=
  !(mimeFilename node).isEmpty && (node.isAttachment || (disposition node).includes "attachment") &&
    (subParts.isEmpty && !(mimeContentType node).includes "multipart/") &&
    !((mimeContentType node).includes "pkcs7-mime" || endsInEnvelope (mimeFilename node))

section Parts
variable {node : PartFields} {subParts : List MimePart}

theorem eligible_not_envelope (fits : eligible node subParts = true) :
    (mimeContentType node).includes "pkcs7-mime" = false ∧
      endsInEnvelope (mimeFilename node) = false := by
  simpa [eligible] using (Bool.and_eq_true_iff.mp fits).2

theorem eligible_named (fits : eligible node subParts = true) : mimeFilename node ≠ [] := by
  rintro named
  rw [eligible, named] at fits
  cases fits

theorem includes_longer {text : JsString}
    (longer : text.includes "application/x-pkcs7-mime" = true) :
    text.includes "pkcs7-mime" = true :=
  test_literal.mpr (@occurs_later _ (wordOf "application/x-") _ _ (test_literal.mp longer))

theorem candidate_eq : candidate (.part node subParts) =
    if eligible node subParts && !(mimeContentType node).includes "enveloped-data" then
      node.body.map fun body =>
        ⟨mimeFilename node,
          if (mimeContentType node).isEmpty then js "application/octet-stream"
          else mimeContentType node,
          (disposition node).includes "inline" || isImage (mimeContentType node) &&
            (!((mimeHeader node "content-id").getD []).isEmpty ||
              (disposition node).includes "inline"), body⟩
    else none := by
  have longer : (mimeContentType node).includes "pkcs7-mime" = false →
      (mimeContentType node).includes "application/x-pkcs7-mime" = false := by
    intro absent
    rw [Bool.eq_false_iff]
    intro present
    rw [includes_longer present] at absent
    cases absent
  cases body : node.body with
  | none => simp [candidate, body]
  | some body =>
      rw [candidate, body]
      cases envelope : (mimeContentType node).includes "pkcs7-mime" with
      | true => simp [eligible, envelope]
      | false =>
          have same : ∀ named marked leaf multipart ends enveloped : Bool,
              (!(false || enveloped || false || ends) && (named && marked) && leaf && !multipart) =
                (named && marked && (leaf && !multipart) && !(false || ends) && !enveloped) := by
            decide
          simp only [eligible, envelope, longer envelope, same]
          rfl

theorem standalone_eq : standaloneFile (.part node subParts) =
    if eligible node subParts && !isInlinePart node then
      node.body.map fun body => ⟨mimeFilename node, mimeContentType node, body⟩
    else none := by
  have same : ∀ named marked leaf outline envelope : Bool,
      (named && marked && leaf && outline && envelope) =
        (named && marked && leaf && envelope && outline) := by
    decide
  rw [standaloneFile, eligible, same]

end Parts

theorem extracted_row_filter {name ct body : JsString} {isInline : Bool}
    (ends : endsInEnvelope name = false) :
    (extractedRow ⟨name, if ct.isEmpty then js "application/octet-stream" else ct, isInline,
      body⟩).filter (fun row => !leftOut row) =
      if isInline || body.isEmpty || isImage ct then none
      else some (StandaloneFile.row ⟨name, ct, body⟩) := by
  rw [extractedRow]
  cases isInline with
  | true => rfl
  | false =>
      dsimp only
      rw [base64_nil_iff]
      cases body.isEmpty with
      | true => rfl
      | false =>
          rw [if_neg Bool.false_ne_true, if_neg Bool.false_ne_true, Option.filter_some, left_out_row,
            default_not_image, ends]
          cases isImage ct <;> rfl

theorem attachable_part (part : MimePart) : attachable part =
    ((standaloneFile part).filter fun file => decide file.Kept).map StandaloneFile.row := by
  cases part with
  | part node subParts =>
      rw [attachable, candidate_eq, standalone_eq]
      cases fits : eligible node subParts with
      | false => rfl
      | true =>
          have ends := (eligible_not_envelope fits).2
          cases found : node.body with
          | none => simp
          | some body =>
              rw [Bool.true_and, Bool.true_and, Option.map_some, Option.map_some]
              cases enveloped : (mimeContentType node).includes "enveloped-data" with
              | true =>
                  rw [if_neg (by simp)]
                  cases isInlinePart node <;> simp [StandaloneFile.Kept, enveloped]
              | false =>
                  rw [Bool.not_false, if_pos rfl, Option.bind_some, extracted_row_filter ends]
                  cases image : isImage (mimeContentType node) with
                  | true =>
                      rw [Bool.or_true, if_pos rfl]
                      cases isInlinePart node <;> simp [StandaloneFile.Kept, image]
                  | false =>
                      cases inline : (disposition node).includes "inline" <;>
                        cases body <;>
                        simp [StandaloneFile.Kept, isInlinePart, image, inline, enveloped]

theorem rows_kept (decryptedTree : MimePart) :
    (extractedRows decryptedTree).filter (fun row => !leftOut row) =
      ((standaloneFiles decryptedTree).filter fun file => decide file.Kept).map
        StandaloneFile.row := by
  rw [extractedRows, walk_all, standaloneFiles, List.filterMap_filterMap, List.filter_filterMap,
    List.filter_filterMap, List.map_filterMap]
  congr 1
  funext part
  exact attachable_part part

theorem standalone_named {decryptedTree : MimePart} {file : StandaloneFile}
    (member : file ∈ standaloneFiles decryptedTree) :
    file.name ≠ [] ∧ endsInEnvelope file.name = false := by
  obtain ⟨⟨node, subParts⟩, -, found⟩ := List.mem_filterMap.mp member
  rw [standalone_eq] at found
  split at found
  · rename_i fits
    obtain ⟨eligible, -⟩ := Bool.and_eq_true_iff.mp fits
    obtain ⟨body, -, rfl⟩ := Option.map_eq_some_iff.mp found
    exact ⟨eligible_named eligible, (eligible_not_envelope eligible).2⟩
  · cases found

end OsClientCerts.ForwardDecrypt
