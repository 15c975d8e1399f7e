import Litterae.Delivery.Deliver
import Litterae.Common.Input

/-! # Composing a draft (`jmap/src/{api,compose}.rs`)

`createDraft` checks the subject and the addresses, looks up the message replied to, hashes the
normalised subject, resolves uploads, assembles the message, seals it and files it under Drafts.
-/

namespace Litterae.Jmap
open Foundations Store Delivery Exec Input

structure EmailAddressIn where
  name : Option Text
  email : Text
  deriving DecidableEq

structure EmailCreateRequest where
  toAddrs : List EmailAddressIn
  ccAddrs : List EmailAddressIn
  bccAddrs : List EmailAddressIn
  subject : Option Text
  bodyText : Option Text
  bodyHtml : Option Text
  inReplyTo : Option Text
  attachmentBlobIds : List Text
  deriving DecidableEq

structure AccountContext where
  accountPriv : Bytes
  accountPub : Bytes
  keyId : UInt16
  address : Text
  maxUploadSize : ℕ

def emailRowId : Text → Option ℤ
  | 'm' :: digits => parseI64 digits
  | _ => none

structure Part where
  name : Text
  contentType : Text
  bytes : Bytes
  deriving DecidableEq

structure BuildInput where
  fromAddress : Text
  toAddrs : List EmailAddressIn
  ccAddrs : List EmailAddressIn
  subject : Option Text
  bodyText : Option Text
  bodyHtml : Option Text
  inReplyToHeader : Option Text
  referencesHeader : Option Text
  sentAt : ℤ
  messageId : Text
  attachments : List Part
  inlineImages : List Part

/-- The HTML rewriting of `compose_html.rs` and the MIME builder, as functions. -/
structure Composer where
  sanitizeOutbound : Text → Text
  extractInlineCids : Text → List Text
  htmlToText : Text → Text
  writeToVec : BuildInput → Except Text Bytes

/-- What one compose request draws from its surroundings; the `k`-th upload it resolves has its own
failure pattern. -/
structure ComposeDraw where
  now : ℤ
  messageId : Text
  sealing : Draw
  uploadFaults : ℕ → Faults

def validName (name : Option Text) : Bool := name.all validHeaderValue

def validAddress (a : EmailAddressIn) : Bool :=
  validEmailAddress a.email && validName a.name

def build (C : Composer) (input : BuildInput) : Except Text Bytes :=
  if !validEmailAddress input.fromAddress || !validName input.subject ||
      !validName input.inReplyToHeader || !validName input.referencesHeader ||
      (input.toAddrs ++ input.ccAddrs).any (fun a => !validAddress a) ||
      (input.attachments ++ input.inlineImages).any (fun p =>
        !validHeaderValue p.name || !validHeaderValue p.contentType) then
    .error "invalid message header value"
  else
    match C.writeToVec input with
    | .ok bytes => .ok bytes
    | .error e => .error ("failed to assemble message: " ++ e)

section
variable (P : Primitives) (C : Composer) (draw : ComposeDraw) (ctx : AccountContext) (accountId : ℤ)

def checkAddresses : List EmailAddressIn → Except Text Unit
  | [] => .ok ()
  | a :: rest =>
    if !validEmailAddress a.email then
      .error ("invalid email address: " ++ a.email)
    else if !validName a.name then
      .error "display name contains prohibited control characters"
    else checkAddresses rest

def checkRequest (req : EmailCreateRequest) : Except Text Unit :=
  if !validName req.subject then .error "subject contains prohibited control characters"
  else checkAddresses (req.toAddrs ++ req.ccAddrs ++ req.bccAddrs)

/-- What a reply takes over from its parent: the thread and the two threading headers. -/
structure ReplyTo where
  threadId : Option ℤ
  inReplyToHeader : Option Text
  referencesHeader : Option Text

def ReplyTo.none : ReplyTo := { threadId := .none, inReplyToHeader := .none, referencesHeader := .none }

def replyToOf (parent : StoredMessage) : ReplyTo where
  threadId := some parent.threadId
  inReplyToHeader := parent.messageIdHeader
  referencesHeader := parent.messageIdHeader.map fun msgid =>
    let refs := parent.referencesHeader.getD []
    (if refs.isEmpty then refs else refs ++ [' ']) ++ msgid

/-- The parent lookup; a failed query counts as no parent. -/
def replyTo (inReplyTo : Option Text) (s : Stores) : ReplyTo :=
  match inReplyTo.bind emailRowId with
  | none => ReplyTo.none
  | some parentRow =>
    match (getMessage draw.sealing.faults parentRow s.metadata).1 with
    | .ok (some parent) => if parent.accountId = accountId then replyToOf parent else ReplyTo.none
    | _ => ReplyTo.none

def uploadRowId : Text → Option ℤ
  | 'u' :: digits => parseI64 digits
  | _ => none

def resolveUpload (k : ℕ) (blobId : Text) : Exec Stores Text StoredUpload :=
  match uploadRowId blobId with
  | none => Exec.throw ("invalid blobId: " ++ blobId)
  | some uploadId => do
    match ← (onMetadata (getUpload (draw.uploadFaults k) uploadId)).mapErr Error.display with
    | none => Exec.throw ("no such upload: " ++ blobId)
    | some stored =>
      if stored.accountId = accountId then pure stored
      else Exec.throw ("no such upload: " ++ blobId)

/-- `resolve_attachments` and `resolve_inline_images`: `name` is the file name or the content id. -/
def resolveParts (name : Text → StoredUpload → Text) :
    ℕ → List Text → Exec Stores Text (List Part)
  | _, [] => pure []
  | k, blobId :: rest => do
    let stored ← resolveUpload draw accountId k blobId
    let bytes ← (openBlob P (draw.uploadFaults k) stored.blobHash stored.dekWrap
      ctx.accountPriv).mapErr Error.display
    let parts ← resolveParts name (k + 1) rest
    pure ({ name := name blobId stored, contentType := stored.contentType, bytes } :: parts)

def draftThread (reply : ReplyTo) (hash : Option Text) : Exec Stores Text ℤ :=
  match reply.threadId with
  | some id => pure id
  | none => (onMetadata (findOrCreateThread draw.sealing.faults draw.sealing.pick
      { accountId, referenceIds := [], subjectHash := hash })).mapErr Error.display

def draftRow (req : EmailCreateRequest) (reply : ReplyTo) (hash : Option Text) (raw : Bytes)
    (mailboxId threadId : ℤ) (blobHash : Text) (dekWrap : Bytes) : NewMessage where
  accountId := accountId
  mailboxId := mailboxId
  threadId := threadId
  blobHash := blobHash
  dekWrap := dekWrap
  mailFrom := ctx.address
  rcptTo := join ", " ((req.toAddrs ++ req.ccAddrs ++ req.bccAddrs).map EmailAddressIn.email)
  remoteIp := []
  sizeBytes := raw.length
  spfResult := "n/a"
  dkimResult := "n/a"
  dmarcResult := "n/a"
  receivedAt := draw.now
  keywords := keywordDraft
  messageIdHeader := some draw.messageId
  inReplyTo := reply.inReplyToHeader
  referencesHeader := reply.referencesHeader
  subjectHash := hash
  spamScore := none
  avClean := none

/-- `create_draft` from its attachments to the call of `compose::build`. -/
def composeInput (req : EmailCreateRequest) (reply : ReplyTo) : Exec Stores Text BuildInput := do
  let attachments ← resolveParts P draw ctx accountId (fun _ stored => stored.filename) 0
    req.attachmentBlobIds
  let sanitizedHtml := req.bodyHtml.map C.sanitizeOutbound
  let inlineImages ← resolveParts P draw ctx accountId (fun cid _ => cid)
    req.attachmentBlobIds.length ((sanitizedHtml.map C.extractInlineCids).getD [])
  pure
    { fromAddress := ctx.address, toAddrs := req.toAddrs, ccAddrs := req.ccAddrs, subject := req.subject
      bodyText := (sanitizedHtml.map C.htmlToText).or req.bodyText, bodyHtml := sanitizedHtml
      inReplyToHeader := reply.inReplyToHeader, referencesHeader := reply.referencesHeader
      sentAt := draw.now, messageId := draw.messageId, attachments, inlineImages }

/-- `create_draft` after the subject hash. -/
def fileDraft (req : EmailCreateRequest) (reply : ReplyTo) (hash : Option Text) :
    Exec Stores Text (ℤ × ℤ) := do
  let threadId ← draftThread draw accountId reply hash
  let input ← composeInput P C draw ctx accountId req reply
  let raw ← ofExcept (build C input)
  if ctx.maxUploadSize < raw.length then
    Exec.throw "message exceeds the maximum allowed size"
  else do
    let (blobHash, dekWrap) ←
      (sealForAccount P draw.sealing ctx.accountPub ctx.keyId raw).mapErr Error.display
    let drafts ← (onMetadata (ensureMailbox draw.sealing.faults accountId .drafts)).mapErr Error.display
    let rowId ← (onMetadata (insertMessage draw.sealing.faults
      (draftRow draw ctx accountId req reply hash raw drafts.id threadId blobHash
        dekWrap))).mapErr Error.display
    pure (rowId, threadId)

def createDraft (req : EmailCreateRequest) : Exec Stores Text (ℤ × ℤ) := do
  ofExcept (checkRequest req)
  let s ← Exec.get
  let reply := replyTo draw accountId req.inReplyTo s
  let hash ← orPanic (subjectHash P ctx.accountPub req.subject)
  fileDraft P C draw ctx accountId req reply hash

end

/-! ## When composing comes back -/

section
variable {P : Primitives} {C : Composer} {draw : ComposeDraw} {ctx : AccountContext} {accountId : ℤ}

theorem replyTo_run (inReplyTo : Option Text) (s : Stores) :
    replyTo draw accountId inReplyTo s = (((inReplyTo.bind emailRowId).bind fun row =>
      (draw.sealing.faults .messageById).elim ((findBy StoredMessage.id row s.metadata.messages).filter
        fun m => decide (m.accountId = accountId)) fun _ => none).map replyToOf).getD ReplyTo.none := by
  unfold replyTo
  cases inReplyTo.bind emailRowId with
  | none => rfl
  | some row =>
    simp only [getMessage, sql_bind_run, Option.bind_some]
    cases draw.sealing.faults .messageById with
    | some => rfl
    | none =>
      simp only [get_bind_run, pure_run, Option.elim]
      cases findBy StoredMessage.id row s.metadata.messages with
      | none => rfl
      | some m => by_cases howner : m.accountId = accountId <;> simp [howner, Option.filter_some]

def UploadKeys (P : Primitives) (accountPriv : Bytes) (s : Stores) : Prop :=
  ∀ u ∈ s.metadata.uploads, KeyWrap P accountPriv u.dekWrap

variable (k : ℕ) (blobId : Text) (s : Stores)

theorem resolveUpload_noPanic :
    NoPanic (resolveUpload draw accountId k blobId) := by
  unfold resolveUpload
  cases uploadRowId blobId with
  | none => exact .throw
  | some =>
    refine .bind (.mapErr (.zoom (getUpload_noPanic _))) fun found => ?_
    cases found with
    | none => exact .throw
    | some => exact .ite .pure .throw

theorem resolveUpload_run :
    resolveUpload draw accountId k blobId s =
      (lookedUp ((uploadRowId blobId).elim (some ("invalid blobId: " ++ blobId)) fun _ =>
          (draw.uploadFaults k .uploadById).map fun detail => (Error.storage detail).display)
        ("no such upload: " ++ blobId) ((uploadRowId blobId).bind fun id =>
          (findBy StoredUpload.id id s.metadata.uploads).filter fun u =>
            decide (u.accountId = accountId)), s) := by
  unfold resolveUpload
  cases uploadRowId blobId with
  | none => rfl
  | some id =>
    simp only [bind_run, mapErr, onMetadata_run, getUpload_run]
    cases draw.uploadFaults k .uploadById with
    | some => rfl
    | none =>
      simp only
      cases hfound : findBy StoredUpload.id id s.metadata.uploads with
      | none => simp [hfound, lookedUp]
      | some => simp only [Option.bind_some, hfound]; exact check_run

theorem resolveUpload_ok {k : ℕ} {blobId : Text} {s t : Stores} {stored : StoredUpload}
    (h : resolveUpload draw accountId k blobId s = (.ok stored, t)) :
    (stored ∈ s.metadata.uploads ∧ stored.accountId = accountId) ∧ t = s := by
  rw [resolveUpload_run, Prod.mk.injEq, lookedUp_ok] at h
  obtain ⟨⟨-, hlookup⟩, rfl⟩ := h
  obtain ⟨id, -, hfilter⟩ := Option.bind_eq_some_iff.mp hlookup
  obtain ⟨hfound, howner⟩ := Option.filter_eq_some_iff.mp hfilter
  exact ⟨⟨(findBy_some _ hfound).1, of_decide_eq_true howner⟩, rfl⟩

theorem resolveUpload_state :
    Keeps (Same id) (resolveUpload draw accountId k blobId) := fun s => by
  rw [resolveUpload_run]
  rfl

theorem resolveParts_state (name : Text → StoredUpload → Text) (k : ℕ) (blobIds : List Text)
    (s : Stores) : (resolveParts P draw ctx accountId name k blobIds s).2 = s := by
  have hparts : ∀ k, Keeps (Same id) (resolveParts P draw ctx accountId name k blobIds) := by
    induction blobIds with
    | nil => exact fun _ => .pure
    | cons blobId _ ih =>
      intro k
      refine .bind (resolveUpload_state k blobId) fun stored => ?_
      refine .bind (.mapErr (.of_state (openBlob_state _ _ _ _))) fun bytes => ?_
      exact .map (ih (k + 1))
  exact hparts k s

theorem resolveParts_returns {name : Text → StoredUpload → Text} {k : ℕ} {blobIds : List Text}
    (hkeys : UploadKeys P ctx.accountPriv s) :
    (resolveParts P draw ctx accountId name k blobIds s).1.returns := by
  induction blobIds generalizing k with
  | nil => rfl
  | cons blobId _ ih =>
    refine returns_bind (resolveUpload_noPanic k blobId s) fun stored t hup => ?_
    obtain ⟨⟨hmem, -⟩, rfl⟩ := resolveUpload_ok hup
    refine returns_bind (NoPanic.mapErr (openBlob_noPanic (hkeys stored hmem)) t) fun bytes u hopen => ?_
    have hstate := congrArg Prod.snd hopen
    rw [state_mapErr, openBlob_state] at hstate
    subst hstate
    exact returns_bind ih fun parts u _ => rfl

theorem composeInput_state (req : EmailCreateRequest) (reply : ReplyTo) (s : Stores) :
    (composeInput P C draw ctx accountId req reply s).2 = s := by
  have hsame : Keeps (Same id) (composeInput P C draw ctx accountId req reply) :=
    .bind (.of_state (resolveParts_state _ _ _)) fun _ =>
      .bind (.of_state (resolveParts_state _ _ _)) fun _ => .pure
  exact hsame s

theorem composeInput_returns {req : EmailCreateRequest} {reply : ReplyTo}
    (hkeys : UploadKeys P ctx.accountPriv s) :
    (composeInput P C draw ctx accountId req reply s).1.returns := by
  refine returns_bind (resolveParts_returns s hkeys) fun attachments t h => ?_
  obtain rfl : s = t := (Keeps.of_state (resolveParts_state _ _ _)).run h
  exact returns_bind (resolveParts_returns s hkeys) fun _ _ _ => rfl

variable {hash : Option Text} {reply : ReplyTo} {R : Stores → Stores → Prop}

theorem draftThread_keeps [Std.Refl R]
    (h : ∀ q : ThreadMatch, q.accountId = accountId →
      Keeps R (onMetadata (findOrCreateThread draw.sealing.faults draw.sealing.pick q))) :
    Keeps R (draftThread draw accountId reply hash) := by
  unfold draftThread
  cases reply.threadId with
  | some => exact .pure
  | none => exact .mapErr (h _ rfl)

/-- A draft keeps what each of its calls keeps. -/
theorem createDraft_keeps [IsPreorder Stores R]
    (hthread : ∀ q : ThreadMatch, q.accountId = accountId →
      Keeps R (onMetadata (findOrCreateThread draw.sealing.faults draw.sealing.pick q)))
    (hwrite : ∀ bytes, Keeps R (onBlobs (write P draw.sealing.faults bytes)))
    (hmailbox : Keeps R (onMetadata (ensureMailbox draw.sealing.faults accountId .drafts)))
    (hinsert : ∀ new, new.accountId = accountId →
      Keeps R (onMetadata (insertMessage draw.sealing.faults new))) (req : EmailCreateRequest) :
    Keeps R (createDraft P C draw ctx accountId req) := by
  refine .bind .ofExcept fun _ => .bind .get fun _ => .bind .orPanic fun hash => ?_
  refine .bind (draftThread_keeps hthread) fun threadId => ?_
  refine .bind (.of_state (composeInput_state _ _)) fun input => .bind .ofExcept fun raw => ?_
  refine .ite .throw ?_
  refine .bind (.mapErr (sealForAccount_keeps (hwrite _))) fun sealedBlob => ?_
  refine .bind (.mapErr hmailbox) fun drafts => ?_
  exact .map (.mapErr (hinsert _ rfl))

theorem fileDraft_returns {req : EmailCreateRequest} (hkeys : UploadKeys P ctx.accountPriv s) :
    (fileDraft P C draw ctx accountId req reply hash s).1.returns := by
  have hthread : Keeps (Same fun s : Stores => s.metadata.uploads)
      (draftThread draw accountId reply hash) :=
    draftThread_keeps fun q _ s => findOrCreateThread_same (fun _ _ => rfl) q s.metadata
  have hnoPanic : NoPanic (draftThread draw accountId reply hash) := by
    unfold draftThread
    cases reply.threadId with
    | some => exact .pure
    | none => exact .mapErr (.zoom (findOrCreateThread_noPanic _))
  refine returns_bind (hnoPanic s) fun threadId s₁ h₁ => ?_
  have hkeys₁ : UploadKeys P ctx.accountPriv s₁ := by
    have huploads : s₁.metadata.uploads = s.metadata.uploads := hthread.run h₁
    rw [UploadKeys, huploads]
    exact hkeys
  refine returns_bind (composeInput_returns s₁ hkeys₁) fun input s₂ _ => ?_
  refine NoPanic.bind .ofExcept (fun raw => ?_) s₂
  refine NoPanic.ite .throw ?_
  exact NoPanic.bind (.mapErr sealForAccount_noPanic) fun _ =>
    NoPanic.bind (.mapErr (.zoom (ensureMailbox_noPanic _ _))) fun _ =>
      NoPanic.bind (.mapErr (.zoom (insertMessage_noPanic _))) fun _ => .pure

theorem createDraft_returns_iff (req : EmailCreateRequest) (s : Stores)
    (hkeys : UploadKeys P ctx.accountPriv s) :
    (createDraft P C draw ctx accountId req s).1.returns ↔
      (∃ e, checkRequest req = .error e) ∨ ∀ subject ∈ req.subject, SubjectSafe subject := by
  rw [← subjectHash_isSome_iff ctx.accountPub]
  unfold createDraft
  cases hcheck : checkRequest req with
  | error e =>
    have hrefuse : (ofExcept (.error e) : Exec Stores Text Unit) s = (.err e, s) := rfl
    rw [bind_of_err hrefuse]
    simp [Res.returns]
  | ok u =>
    have hpass : (ofExcept (.ok u) : Exec Stores Text Unit) s = (.ok u, s) := rfl
    rw [bind_of_ok hpass, bind_of_ok (get_run s)]
    cases hhash : subjectHash P ctx.accountPub req.subject with
    | none => simp [orPanic, Exec.panic, bind_run, Res.returns]
    | some hash =>
      have hfile : (fileDraft P C draw ctx accountId req (replyTo draw accountId req.inReplyTo s)
          hash s).1.returns := fileDraft_returns s hkeys
      simpa [orPanic, bind_run, Exec.pure] using hfile

end

/-! ## Subjects that abort their message -/

/-- Normalising a subject, delivering a message with it and composing one with it return exactly
for the subjects that every round of the strip loop cuts at character boundaries. -/
theorem subject_returns_iff (P : Primitives) (subject : Text) :
    ((normalizeSubject P.toLowercase subject).isSome ↔ SubjectSafe subject) ∧
    (∀ (draw : Draw) (account : RecipientAccount) (envelope : InboundEnvelope)
        (results : AuthResults) (raw : Bytes) (receivedAt : ℤ) (spamReason : Option Text)
        (scan : ScanMetadata) (s : Stores) (parsed : ParsedMail),
        P.parse raw = some parsed → parsed.subject = some subject →
        ((deliver P draw account envelope results raw receivedAt spamReason scan s).1.returns
          ↔ SubjectSafe subject)) ∧
    (∀ (C : Composer) (draw : ComposeDraw) (ctx : AccountContext) (accountId : ℤ)
        (req : EmailCreateRequest) (s : Stores),
        req.subject = some subject → UploadKeys P ctx.accountPriv s →
        ((createDraft P C draw ctx accountId req s).1.returns ↔
          (∃ e, checkRequest req = .error e) ∨ SubjectSafe subject)) := by
  refine ⟨normalizeSubject_isSome_iff _ subject, ?_, ?_⟩
  · intro draw account envelope results raw receivedAt spamReason scan s parsed hparse hsubject
    rw [deliver_returns_iff, hparse]
    simp [hsubject]
  · intro C draw ctx accountId req s hsubject hkeys
    rw [createDraft_returns_iff req s hkeys]
    simp [hsubject]

def sampleDraw : Draw :=
  { dek := List.replicate 32 7, nonce := List.replicate 24 9, hpkeRandom := [], pick := 0
    faults := Faults.none }

def sampleComposeDraw : ComposeDraw :=
  { now := 1700000000, messageId := "1@example.com", sealing := sampleDraw
    uploadFaults := fun _ => Faults.none }

def sampleComposer : Composer :=
  { sanitizeOutbound := id, extractInlineCids := fun _ => [], htmlToText := id
    writeToVec := fun input => .ok (utf8 ((input.subject.getD []) ++ (input.bodyText.getD []))) }

def sampleContext : AccountContext :=
  { accountPriv := [1], accountPub := [2], keyId := 1, address := "alice@example.com"
    maxUploadSize := 1000 }

def sampleRaw (subject : Text) : Bytes :=
  utf8 ("Subject: " ++ subject ++ "\r\n\r\nhi\r\n")

def sampleParse (subject : Text) (raw : Bytes) : Option ParsedMail :=
  if raw = sampleRaw subject then
    some { messageId := none, inReplyTo := .other, references := .other, subject := some subject }
  else none

def sampleRequest (subject : Text) : EmailCreateRequest :=
  { toAddrs := [{ name := none, email := "bob@example.net" }], ccAddrs := [], bccAddrs := []
    subject := some subject, bodyText := some "hi", bodyHtml := none, inReplyTo := none
    attachmentBlobIds := [] }

def sampleDeliver (subject : Text) : Res Error DeliveredMessage :=
  (deliver (Primitives.sample (sampleParse subject)) sampleDraw
    { id := 1, accountPub := [2], keyId := 1 }
    { mailFrom := "bob@example.net", rcptTo := "alice@example.com"
      remoteIp := "203.0.113.5" }
    { spf := "pass", dkim := "pass", dmarc := "pass" }
    (sampleRaw subject) 1700000000 none .default Stores.empty).1

def sampleCompose (subject : Text) : Res Text (ℤ × ℤ) :=
  (createDraft (Primitives.sample (sampleParse subject)) sampleComposer sampleComposeDraw
    sampleContext 1 (sampleRequest subject) Stores.empty).1

/-- The test for `fwd:` cuts the second of these three-byte characters. -/
theorem subject_returns_iff_japanese :
    normalizeSubject (List.map Char.toLower) "日本" = none ∧
      sampleDeliver "日本" = .panic ∧ sampleCompose "日本" = .panic := by
  decide +kernel

theorem subject_returns_iff_reply :
    SubjectSafe "Re: hi" ∧ (sampleDeliver "Re: hi").returns = true ∧
      (sampleCompose "Re: hi").returns = true := by
  obtain ⟨hnormal, hdeliver, hcompose⟩ :=
    subject_returns_iff (Primitives.sample (sampleParse "Re: hi")) "Re: hi"
  have hsafe : SubjectSafe "Re: hi" := hnormal.mp (by decide +kernel)
  refine ⟨hsafe, (hdeliver _ _ _ _ _ _ _ _ _ _ (if_pos rfl) rfl).mpr hsafe, ?_⟩
  exact (hcompose _ _ _ _ _ _ rfl (fun u hu => absurd hu List.not_mem_nil)).mpr (.inr hsafe)

end Litterae.Jmap
