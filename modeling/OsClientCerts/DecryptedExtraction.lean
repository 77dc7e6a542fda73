import OsClientCerts.AttachmentProvenance
import OsClientCerts.ReattachedFiles

/-!
The extraction of the files of an encrypted message: it is streamed, decrypted and parsed
again, and at most three wrappers of signed data are opened. Which content the files come
from, and whose they are on a reply tab.
-/

namespace OsClientCerts.ForwardDecrypt
open GuardedRuns

/-- How the message service answers: it may be missing or throw, or the stream stops. -/
inductive Streaming where
  | missing
  | throws
  | stopped (chunks : List JsString) (success : Bool)

def streamMessageToString : Streaming → Bool × JsString
  | .missing => (false, [])
  | .throws => (false, [])
  | .stopped chunks success => (success, chunks.flatten)

/-- What the mail client does for the extraction; an error is what it throws. -/
structure MailEngine where
  streamMessage : MessageUri → Streaming
  getMimeTree : JsString → Except JsString (Option MimePart)
  /-- The tree after the decryption, and `cryptoChanged`. -/
  decrypt : MimePart → Except JsString (MimePart × Bool)
  mimeTreeToString : MimePart → Except JsString JsString
  /-- The first part below the root that the emitter makes. -/
  deliverData : JsString → Except JsString (Option MimePart)
  decodeCms : List UInt8 → Except JsString (List UInt8)

def isHighSurrogate (unit : UInt16) : Bool := 0xD800 ≤ unit && unit < 0xDC00

def isLowSurrogate (unit : UInt16) : Bool := 0xDC00 ≤ unit && unit < 0xE000

/-- The first unit of every code point: a string is iterated by code points. -/
def leadUnits : JsString → JsString
  | first :: second :: rest =>
      if isHighSurrogate first && isLowSurrogate second then first :: leadUnits rest
      else first :: leadUnits (second :: rest)
  | text => text

def octetsOf (body : JsString) : List UInt8 :=
  (leadUnits body).map fun unit => UInt8.ofNat (lowByte unit)

def byteArrayToString (data : List UInt8) : JsString := data.map UInt8.toUInt16

def hasDecryptedBody (node : PartFields) : Bool :=
  (JsString.toLowerCase node.fullContentType).includes "pkcs7-mime" &&
    node.body.any fun body => !body.isEmpty

mutual
def findDecrypted (innerNode : Option MimePart) : MimePart → Option MimePart
  | .part node subParts =>
      if innerNode.isSome then innerNode
      else if hasDecryptedBody node then some (.part node subParts)
      else findInEach innerNode subParts

def findInEach (innerNode : Option MimePart) : List MimePart → Option MimePart
  | [] => innerNode
  | part :: rest => findInEach (findDecrypted innerNode part) rest
end

def innerNodeOf (root : MimePart) (cryptoChanged : Bool) : Option MimePart :=
  if cryptoChanged && root.fields.body.any fun body => !body.isEmpty then some root
  else findDecrypted none root

namespace MailEngine
variable (engine : MailEngine)

def unwrapCmsContent (body : JsString) : Except JsString JsString :=
  (engine.decodeCms (octetsOf body)).map byteArrayToString

/-- What the parser throws is caught. -/
def getAttachmentMimeTree (mimeString : JsString) : Option MimePart :=
  match engine.deliverData mimeString with
  | .ok tree => tree
  | .error _ => none

def decryptedEntity (messageUri : MessageUri) : Except JsString (Option MimePart) :=
  let (ok, data) := streamMessageToString (engine.streamMessage messageUri)
  if !ok || data.isEmpty then pure none
  else do
    match ← engine.getMimeTree data with
    | none => pure none
    | some raw =>
        let (root, cryptoChanged) ← engine.decrypt raw
        match innerNodeOf root cryptoChanged with
        | none => pure none
        | some innerNode =>
            let inner ← engine.mimeTreeToString innerNode
            pure (engine.getAttachmentMimeTree inner)

/-- The wrappers of signed data that are still opened, so many at most. -/
def unwrapLayers : Nat → MimePart → Except JsString (Option MimePart)
  | 0, decryptedTree => pure (some decryptedTree)
  | left + 1, decryptedTree =>
      let ct := mimeContentType decryptedTree.fields
      let body := decryptedTree.fields.body.getD []
      if !ct.includes "pkcs7-mime" || body.isEmpty then pure (some decryptedTree)
      else do
        let unwrapped ← engine.unwrapCmsContent body
        if unwrapped.isEmpty then pure (some decryptedTree)
        else
          match engine.getAttachmentMimeTree unwrapped with
          | none => pure none
          | some inner => unwrapLayers left inner

def decryptedTree (messageUri : MessageUri) : Except JsString (Option MimePart) := do
  match ← engine.decryptedEntity messageUri with
  | none => pure none
  | some outer => engine.unwrapLayers 3 outer

/-- What is thrown on the way is caught, and there are no rows then. -/
def runExtractDecryptedAttachments (messageUri : MessageUri) : List Row :=
  if messageUri.isEmpty then []
  else
    match engine.decryptedTree messageUri with
    | .ok (some tree) => extractedRows tree
    | _ => []

end MailEngine

def IsInnerNode (root : MimePart) (cryptoChanged : Bool) (node : MimePart) : Prop :=
  (cryptoChanged = true ∧ root.fields.body.getD [] ≠ [] ∧ node = root) ∨
    ((cryptoChanged = true → root.fields.body.getD [] = []) ∧
      ∃ before after, root.all = before ++ node :: after ∧ hasDecryptedBody node.fields = true ∧
        ∀ other ∈ before, hasDecryptedBody other.fields = false)

structure IsEntity (engine : MailEngine) (messageUri : MessageUri) (outer : MimePart) : Prop where
  named : messageUri ≠ []
  reached : ∃ (chunks : List JsString) (raw root node : MimePart) (cryptoChanged : Bool)
      (inner : JsString),
    engine.streamMessage messageUri = .stopped chunks true ∧ chunks.flatten ≠ [] ∧
      engine.getMimeTree chunks.flatten = .ok (some raw) ∧
      engine.decrypt raw = .ok (root, cryptoChanged) ∧ IsInnerNode root cryptoChanged node ∧
      engine.mimeTreeToString node = .ok inner ∧ engine.deliverData inner = .ok (some outer)

def isWrapper (tree : MimePart) : Prop :=
  (mimeContentType tree.fields).includes "pkcs7-mime" = true ∧ tree.fields.body.getD [] ≠ []

def Wraps (engine : MailEngine) (outer inner : MimePart) : Prop :=
  isWrapper outer ∧ ∃ data, engine.decodeCms (octetsOf (outer.fields.body.getD [])) = .ok data ∧
    data ≠ [] ∧ engine.deliverData (byteArrayToString data) = .ok (some inner)

def Opened (engine : MailEngine) (tree : MimePart) : Prop :=
  isWrapper tree → engine.decodeCms (octetsOf (tree.fields.body.getD [])) = .ok []

inductive Layers (engine : MailEngine) : Nat → MimePart → MimePart → Prop where
  | bare (tree : MimePart) : Layers engine 0 tree tree
  | wrapped {layers : Nat} {outer middle inner : MimePart} (wraps : Wraps engine outer middle)
      (onward : Layers engine layers middle inner) : Layers engine (layers + 1) outer inner

/-- The tree that files are taken from: in at most three wrappers, and opened if in fewer. -/
def IsContent (engine : MailEngine) (messageUri : MessageUri) (tree : MimePart) : Prop :=
  ∃ outer layers, IsEntity engine messageUri outer ∧ Layers engine layers outer tree ∧
    layers ≤ 3 ∧ (layers < 3 → Opened engine tree)

mutual
theorem find_decrypted (root : MimePart) : findDecrypted none root =
    root.all.find? fun node => hasDecryptedBody node.fields := by
  cases root with
  | part node subParts =>
      rw [findDecrypted, MimePart.all, List.find?_cons, find_in_each subParts]
      cases found : hasDecryptedBody node <;> simp [MimePart.fields, found]

theorem find_in_each (parts : List MimePart) : findInEach none parts =
    (allParts parts).find? fun node => hasDecryptedBody node.fields := by
  cases parts with
  | nil => rfl
  | cons part rest =>
      rw [findInEach, allParts, List.find?_append, find_decrypted part]
      cases part.all.find? fun node => hasDecryptedBody node.fields with
      | none => exact find_in_each rest
      | some found => exact found_in_each found rest

theorem found_in_each (found : MimePart) (parts : List MimePart) :
    findInEach (some found) parts = some found := by
  -- Nothing is looked at once a node is found.
  cases parts with
  | nil => rfl
  | cons part rest =>
      cases part with
      | part node subParts => exact found_in_each found rest
end

theorem body_filled (node : PartFields) :
    (node.body.any fun body => !body.isEmpty) = true ↔ node.body.getD [] ≠ [] := by
  cases node.body <;> simp

theorem inner_node_iff {root node : MimePart} {cryptoChanged : Bool} :
    innerNodeOf root cryptoChanged = some node ↔ IsInnerNode root cryptoChanged node := by
  unfold innerNodeOf IsInnerNode
  have searched : findDecrypted none root = some node ↔ ∃ before after,
      root.all = before ++ node :: after ∧ hasDecryptedBody node.fields = true ∧
        ∀ other ∈ before, hasDecryptedBody other.fields = false := by
    rw [find_decrypted, List.find?_eq_some_iff_append]
    constructor
    · rintro ⟨fits, before, after, same, others⟩
      exact ⟨before, after, same, fits, fun other member => by simpa using others other member⟩
    · rintro ⟨before, after, same, fits, others⟩
      exact ⟨fits, before, after, same, fun other member => by simp [others other member]⟩
  have filled := body_filled root.fields
  by_cases body : root.fields.body.getD [] = []
  · have absent := Bool.eq_false_iff.mpr fun present => filled.mp present body
    rw [absent, Bool.and_false, if_neg Bool.false_ne_true, searched]
    simp [body]
  · rw [filled.mpr body, Bool.and_true]
    cases cryptoChanged with
    | false => simp [searched]
    | true =>
        rw [if_pos rfl]
        constructor
        · intro same
          exact Or.inl ⟨rfl, body, (Option.some.inj same).symm⟩
        · rintro (⟨-, -, same⟩ | ⟨empty, -⟩)
          · rw [same]
          · exact absurd (empty rfl) body

section Engine
variable {engine : MailEngine} {messageUri : MessageUri}

theorem attachment_tree_iff {mimeString : JsString} {tree : MimePart} :
    engine.getAttachmentMimeTree mimeString = some tree ↔
      engine.deliverData mimeString = .ok (some tree) := by
  unfold MailEngine.getAttachmentMimeTree
  cases engine.deliverData mimeString <;> simp

theorem entity_reached {outer : MimePart} (named : messageUri ≠ [])
    (made : engine.decryptedEntity messageUri = .ok (some outer)) :
    IsEntity engine messageUri outer := by
  unfold MailEngine.decryptedEntity at made
  cases answer : engine.streamMessage messageUri with
  | missing => simp [answer, streamMessageToString, pure, Except.pure] at made
  | throws => simp [answer, streamMessageToString, pure, Except.pure] at made
  | stopped chunks success =>
      simp only [answer, streamMessageToString] at made
      split at made
      · cases made
      case isFalse streamed =>
        simp only [Bool.or_eq_true, Bool.not_eq_true', not_or, Bool.not_eq_false,
          List.isEmpty_iff] at streamed
        obtain ⟨parsed, raw, made⟩ := bind_ok made
        cases parsed with
        | none => cases made
        | some tree =>
            obtain ⟨⟨root, cryptoChanged⟩, decrypted, made⟩ := bind_ok made
            dsimp only at made
            cases found : innerNodeOf root cryptoChanged with
            | none => rw [found] at made; cases made
            | some node =>
                rw [found] at made
                obtain ⟨inner, spelled, made⟩ := bind_ok made
                have parsed := attachment_tree_iff.mp (Except.ok.inj made)
                exact ⟨named, chunks, tree, root, node, cryptoChanged, inner,
                  by rw [answer, streamed.1], streamed.2, raw, decrypted,
                  inner_node_iff.mp found, spelled, parsed⟩

theorem IsEntity.made {outer : MimePart} (entity : IsEntity engine messageUri outer) :
    engine.decryptedEntity messageUri = .ok (some outer) := by
  obtain ⟨-, chunks, raw, root, node, cryptoChanged, inner, streamed, filled, parsed, decrypted,
    found, spelled, delivered⟩ := entity
  have filled : chunks.flatten.isEmpty = false := by simpa using filled
  simp only [MailEngine.decryptedEntity, streamed, streamMessageToString, filled, parsed,
    decrypted, inner_node_iff.mpr found, spelled, attachment_tree_iff.mpr delivered, bind,
    Except.bind, pure, Except.pure]
  rfl

theorem unwrap_wrapper {left : Nat} {outer : MimePart} (wrapper : isWrapper outer) :
    engine.unwrapLayers (left + 1) outer =
      engine.decodeCms (octetsOf (outer.fields.body.getD [])) >>= fun data =>
        if data.isEmpty then pure (some outer)
        else (engine.getAttachmentMimeTree (byteArrayToString data)).elim (pure none)
          (engine.unwrapLayers left) := by
  have filled : (outer.fields.body.getD []).isEmpty = false := by simpa using wrapper.2
  rw [MailEngine.unwrapLayers, wrapper.1, filled, if_neg (by decide), MailEngine.unwrapCmsContent]
  cases engine.decodeCms (octetsOf (outer.fields.body.getD [])) with
  | error thrown => rfl
  | ok data =>
      cases data with
      | nil => rfl
      | cons first rest =>
          simp only [bind, Except.bind, Except.map, byteArrayToString, List.map_cons,
            List.isEmpty_cons, Bool.false_eq_true, if_false]
          cases engine.getAttachmentMimeTree (first.toUInt16 :: rest.map UInt8.toUInt16) <;> rfl

theorem unwrap_opened (left : Nat) {tree : MimePart} (opened : Opened engine tree) :
    engine.unwrapLayers left tree = .ok (some tree) := by
  cases left with
  | zero => rfl
  | succ left =>
      by_cases wrapper : isWrapper tree
      · rw [unwrap_wrapper wrapper, opened wrapper]
        rfl
      · rw [MailEngine.unwrapLayers, if_pos ?_]
        · rfl
        · rw [isWrapper, not_and_or, Bool.not_eq_true, not_not] at wrapper
          rcases wrapper with other | empty
          · simp [other]
          · simp [empty]

theorem unwrap_wraps (left : Nat) {outer inner : MimePart} (wraps : Wraps engine outer inner) :
    engine.unwrapLayers (left + 1) outer = engine.unwrapLayers left inner := by
  obtain ⟨wrapper, data, decoded, filled, parsed⟩ := wraps
  have filled : data.isEmpty = false := by simpa using filled
  rw [unwrap_wrapper wrapper, decoded]
  change (if data.isEmpty then _ else _) = _
  rw [filled, if_neg Bool.false_ne_true, attachment_tree_iff.mpr parsed]
  rfl

theorem unwrap_cases {left : Nat} {outer inner : MimePart}
    (made : engine.unwrapLayers (left + 1) outer = .ok (some inner)) :
    Opened engine outer ∧ inner = outer ∨
      ∃ middle, Wraps engine outer middle ∧ engine.unwrapLayers left middle = .ok (some inner) := by
  -- A tree that the loop leaves is opened, or it is a wrapper and the loop goes on inside.
  by_cases opened : Opened engine outer
  · rw [unwrap_opened (left + 1) opened] at made
    exact Or.inl ⟨opened, (Option.some.inj (Except.ok.inj made)).symm⟩
  · rw [Opened, Classical.not_imp] at opened
    obtain ⟨wrapper, open_⟩ := opened
    rw [unwrap_wrapper wrapper] at made
    obtain ⟨data, decoded, made⟩ := bind_ok made
    split at made
    · rename_i empty
      rw [decoded, List.isEmpty_iff.mp empty] at open_
      exact absurd rfl open_
    · rename_i filled
      cases parsed : engine.getAttachmentMimeTree (byteArrayToString data) with
      | none => rw [parsed] at made; cases made
      | some middle =>
          rw [parsed] at made
          refine Or.inr ⟨middle, ⟨wrapper, data, decoded, ?_, attachment_tree_iff.mp parsed⟩, made⟩
          simpa using filled

/-- The loop comes to a tree exactly if so many wrappers at most are around it, and it is
opened if they are fewer. -/
theorem unwrap_layers_iff {left : Nat} {outer inner : MimePart} :
    engine.unwrapLayers left outer = .ok (some inner) ↔ ∃ layers ≤ left,
      Layers engine layers outer inner ∧ (layers < left → Opened engine inner) := by
  constructor
  · intro made
    induction left generalizing outer with
    | zero =>
        obtain rfl := Option.some.inj (Except.ok.inj made)
        exact ⟨0, Nat.le_refl 0, .bare outer, nofun⟩
    | succ left ih =>
        rcases unwrap_cases made with ⟨opened, rfl⟩ | ⟨middle, wraps, made⟩
        · exact ⟨0, Nat.zero_le _, .bare inner, fun _ => opened⟩
        · obtain ⟨layers, few, onward, last⟩ := ih made
          exact ⟨layers + 1, Nat.succ_le_succ few, .wrapped wraps onward,
            fun fewer => last (Nat.lt_of_succ_lt_succ fewer)⟩
  · rintro ⟨layers, few, layered, last⟩
    induction layered generalizing left with
    | bare tree =>
        cases left with
        | zero => rfl
        | succ left => exact unwrap_opened (left + 1) (last (Nat.succ_pos left))
    | wrapped wraps onward ih =>
        cases left with
        | zero => cases few
        | succ left =>
            rw [unwrap_wraps left wraps]
            exact ih (Nat.le_of_succ_le_succ few) fun fewer => last (Nat.succ_lt_succ fewer)

theorem content_iff {tree : MimePart} (named : messageUri ≠ []) :
    engine.decryptedTree messageUri = .ok (some tree) ↔ IsContent engine messageUri tree := by
  unfold MailEngine.decryptedTree IsContent
  constructor
  · intro made
    obtain ⟨entity, reached, made⟩ := bind_ok made
    cases entity with
    | none => cases made
    | some outer =>
        obtain ⟨layers, few, layered, last⟩ := unwrap_layers_iff.mp made
        exact ⟨outer, layers, entity_reached named reached, layered, few, last⟩
  · rintro ⟨outer, layers, entity, layered, few, last⟩
    rw [entity.made]
    exact unwrap_layers_iff.mpr ⟨layers, few, layered, last⟩

theorem rows_of_content {tree : MimePart} (content : IsContent engine messageUri tree) :
    engine.runExtractDecryptedAttachments messageUri = extractedRows tree := by
  obtain ⟨outer, layers, entity, rest⟩ := id content
  rw [MailEngine.runExtractDecryptedAttachments, if_neg (by simpa using entity.named),
    (content_iff entity.named).mpr content]

theorem content_of_row {row : Row} (member : row ∈ engine.runExtractDecryptedAttachments messageUri) :
    ∃ tree, IsContent engine messageUri tree ∧ row ∈ extractedRows tree := by
  unfold MailEngine.runExtractDecryptedAttachments at member
  split at member
  · cases member
  case isFalse filled =>
    have named : messageUri ≠ [] := by simpa using filled
    cases made : engine.decryptedTree messageUri with
    | error thrown => rw [made] at member; cases member
    | ok found =>
        rw [made] at member
        cases found with
        | none => cases member
        | some tree => exact ⟨tree, (content_iff named).mp made, member⟩

theorem content_unique {tree other : MimePart} (content : IsContent engine messageUri tree)
    (again : IsContent engine messageUri other) : tree = other := by
  obtain ⟨outer, layers, entity, rest⟩ := id content
  have made := (content_iff entity.named).mpr content
  rw [(content_iff entity.named).mpr again] at made
  exact (Option.some.inj (Except.ok.inj made)).symm

end Engine

theorem wrapper_no_rows {wrapper : MimePart} (wraps : isWrapper wrapper)
    (alone : wrapper.subParts = []) : extractedRows wrapper = [] := by
  -- The walk does not take a wrapper itself for a file.
  cases wrapper with
  | part node subParts =>
      obtain rfl : subParts = [] := alone
      have ineligible : eligible node [] = false := by
        rw [Bool.eq_false_iff]
        intro fits
        exact absurd wraps.1 (by simp [MimePart.fields, (eligible_not_envelope fits).1])
      rw [extractedRows, walkDecryptedParts, candidate_eq, ineligible]
      rfl

namespace Redirects

def OnlyFiles (state : Redirects) : Prop :=
  ∀ tab ∈ state.tabs, ∀ row ∈ tab.attached, leftOut row = false

section
variable {extract : MessageUri → List Row} {state : Redirects} {index : Nat}
  {tab next : ReplyTab}

theorem OnlyFiles.setTab (kept : OnlyFiles state)
    (given : ∀ row ∈ next.attached, leftOut row = false) :
    OnlyFiles (state.setTab index next) := by
  intro other member
  rcases List.mem_or_eq_of_mem_set member with before | rfl
  · exact kept other before
  · exact given

theorem OnlyFiles.same (kept : OnlyFiles state) (found : state.tabs[index]? = some tab)
    (same : next.attached = tab.attached) : OnlyFiles (state.setTab index next) :=
  kept.setTab (same ▸ kept tab (List.mem_of_getElem? found))

theorem OnlyFiles.attach (kept : OnlyFiles state) (found : state.tabs[index]? = some tab)
    (adds : Nat) : OnlyFiles (state.attach index tab adds) := by
  unfold Redirects.attach
  split
  · exact kept.same found rfl
  · apply kept.setTab
    intro row member
    rcases List.mem_append.mp member with before | added
    · exact kept tab (List.mem_of_getElem? found) row before
    · split at added
      · cases added
      · rename_i file
        rw [List.eq_of_mem_replicate added]
        simpa using file
  · exact kept

theorem OnlyFiles.notify (kept : OnlyFiles state) (tab : ReplyTab) (result : Readiness) :
    OnlyFiles (state.notify tab result) := by
  unfold Redirects.notify
  split
  · exact kept
  · exact kept

theorem OnlyFiles.opened (kept : OnlyFiles state) (forward : Option Forward) :
    OnlyFiles (state.openTab forward) := by
  intro tab member
  rcases List.mem_append.mp member with before | last
  · exact kept tab before
  · obtain rfl := List.mem_singleton.mp last
    nofun

theorem only_files_on_tab (kept : OnlyFiles state) {action : ReplyTab → Redirects}
    (acted : ∀ tab, state.tabs[index]? = some tab → OnlyFiles (action tab)) :
    OnlyFiles (state.onTab index action) := by
  unfold onTab
  split
  · exact acted _ ‹_›
  · exact kept

theorem only_files_step (event : ReplyEvent) (state : Redirects) (kept : OnlyFiles state) :
    OnlyFiles (step extract event state) := by
  cases event with
  | redirect uri =>
      have marked : OnlyFiles { state with
        lastForwardUri := some uri
        redirectPending := true
        redirectComposeReady := some state.readies.length
        readies := state.readies ++ [⟨none, none⟩] } := kept
      exact marked.opened (some ⟨uri, state.readies.length⟩)
  | reply => exact kept.opened none
  | windowOpened index =>
      refine only_files_on_tab kept fun tab found => ?_
      unfold onOpenWindow
      split
      · exact kept.same found rfl
      · exact kept
  | composeInit index gMsgCompose =>
      refine only_files_on_tab kept fun tab found => ?_
      unfold composeWindowInit
      split
      · exact kept.same found rfl
      · split
        · cases gMsgCompose
          · exact OnlyFiles.same kept found rfl
          · exact OnlyFiles.same kept found rfl
        · exact kept.same found rfl
      · exact kept
  | bodyReady index => exact only_files_on_tab kept fun tab _ => kept.notify tab .ready
  | unload index => exact only_files_on_tab kept fun tab _ => kept.notify tab .closed
  | removed index => exact only_files_on_tab kept fun tab found => kept.same found rfl
  | process index =>
      refine only_files_on_tab kept fun tab found => ?_
      unfold processComposeTab
      split
      · cases pending : state.redirectPending
        · exact OnlyFiles.same kept found rfl
        · exact OnlyFiles.same kept found rfl
      · exact kept
  | waitReady index details =>
      refine only_files_on_tab kept fun tab found => ?_
      unfold waitForRedirectedComposeReady
      split
      · split
        · exact kept.same found rfl
        · exact kept.same found rfl
      · exact kept
  | readiness index timeout =>
      refine only_files_on_tab kept fun tab found => ?_
      unfold afterReadiness
      split
      · split
        · exact kept
        · split
          · exact kept.same found rfl
          · split
            · exact kept.same found rfl
            · exact kept.same found rfl
      · exact kept
  | readUri index =>
      refine only_files_on_tab kept fun tab found => ?_
      unfold getLastForwardUri
      split
      · split
        · exact kept.same found rfl
        · exact kept.same found rfl
      · exact kept
  | extracted index =>
      refine only_files_on_tab kept fun tab found => ?_
      unfold afterExtraction
      split
      · split
        · exact kept.same found rfl
        · exact kept.same found rfl
      · exact kept
  | attach index adds => exact only_files_on_tab kept fun _ found => kept.attach found adds

end

theorem given_file {engine : MailEngine} {run : List ReplyEvent} {tab : ReplyTab} {row : Row}
    (unmixed : Meets (step engine.runExtractDecryptedAttachments) Unmixed run fresh)
    (member : tab ∈ (afterRun engine.runExtractDecryptedAttachments run).tabs)
    (given : row ∈ tab.attached) : ∃ uri tree file, tab.ownUri = some uri ∧
      IsContent engine uri tree ∧ file ∈ standaloneFiles tree ∧ file.Kept ∧ row = file.row := by
  -- What is attached to a tab in a run without mixed up Forwards.
  have kept := meets_preserved kept_step unmixed fresh_kept
  obtain ⟨uri, own, extracted⟩ := kept.provenance.attached tab member row given
  have files : OnlyFiles (afterRun engine.runExtractDecryptedAttachments run) :=
    always_preserved only_files_step run nofun
  obtain ⟨tree, content, inside⟩ := content_of_row extracted
  have passed : row ∈ (extractedRows tree).filter fun row => !leftOut row := by
    rw [List.mem_filter, files tab member row given]
    exact ⟨inside, rfl⟩
  rw [rows_kept] at passed
  obtain ⟨file, found, same⟩ := List.mem_map.mp passed
  obtain ⟨listed, keeps⟩ := List.mem_filter.mp found
  exact ⟨uri, tree, file, own, content, listed, of_decide_eq_true keeps, same.symm⟩

end Redirects

/-- What the extraction finds, and what becomes of it. -/
structure FilesExtracted (engine : MailEngine) : Prop where
  /-- There is one content at most. -/
  single : ∀ (uri : MessageUri) (tree other : MimePart), IsContent engine uri tree →
    IsContent engine uri other → tree = other
  /-- The rows are those of the content, and none without one. -/
  rows : ∀ (uri : MessageUri) (row : Row), row ∈ engine.runExtractDecryptedAttachments uri ↔
    ∃ tree, IsContent engine uri tree ∧ row ∈ extractedRows tree
  /-- In four wrappers without parts of their own nothing is found. -/
  deep : ∀ (uri : MessageUri) (outer wrapper inner : MimePart), IsEntity engine uri outer →
    Layers engine 3 outer wrapper → Wraps engine wrapper inner → wrapper.subParts = [] →
      engine.runExtractDecryptedAttachments uri = []
  /-- A window is given the files of the content that are kept, in their order. -/
  attached : ∀ (uri : MessageUri) (tree : MimePart) (window : Nat → WindowCall),
    IsContent engine uri tree →
      reattach window (engine.runExtractDecryptedAttachments uri) ⟨0, []⟩ =
        attachEach window ((standaloneFiles tree).filter fun file => decide file.Kept) ⟨0, []⟩
  /-- Whatever the order of Forwards and replies, as long as none are mixed up: what a tab has
  are files of the content of its own message, byte for byte. -/
  given : ∀ run : List ReplyEvent,
    Meets (Redirects.step engine.runExtractDecryptedAttachments) Redirects.Unmixed run
        Redirects.fresh →
      ∀ tab ∈ (Redirects.afterRun engine.runExtractDecryptedAttachments run).tabs,
        ∀ row ∈ tab.attached, ∃ uri tree file, tab.ownUri = some uri ∧
          IsContent engine uri tree ∧ file ∈ standaloneFiles tree ∧ file.Kept ∧
          row.name = some file.name ∧
          atob row.dataBase64 = some (file.body.map fun unit => UInt16.ofNat (lowByte unit))

def wrappedIn (layers : Nat) : MailEngine :=
  let envelope (body : JsString) : MimePart :=
    .part ⟨[], js "application/pkcs7-mime", [], false, some body, none⟩ []
  { streamMessage := fun _ => .stopped [js "raw"] true
    getMimeTree := fun data => .ok (some (envelope data))
    decrypt := fun raw => .ok (raw, true)
    mimeTreeToString := fun _ => .ok (List.replicate (layers + 1) (unitOf 'a'))
    deliverData := fun text => .ok (some (if text.length = 1 then
      messageOf [("note.txt", "text/plain", "hello")] else envelope text))
    decodeCms := fun data => .ok data.tail }

example : (((wrappedIn 3).runExtractDecryptedAttachments (js "imap://mail/1")).map Row.name =
      [some (js "note.txt")]) ∧
    (wrappedIn 4).runExtractDecryptedAttachments (js "imap://mail/1") = [] := by
  decide +kernel

end OsClientCerts.ForwardDecrypt
