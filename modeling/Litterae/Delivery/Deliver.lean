import Litterae.Stores
import Litterae.Store.Subject

/-! # Local delivery (`delivery/src/lib.rs`)

`deliver` parses, hashes the normalised subject for threading, finds the mailbox and the thread,
seals the message into the blob store and inserts the metadata row, in this order and with no
transaction around it.

* `deliver_returns_iff`: it comes back for every message except those whose subject
  `normalize_subject` cannot cut.
* `deliver_ok`: a delivery that succeeded added exactly one message row, and its blob is stored.
* `deliver_err`: one that failed added none.
-/

namespace Litterae.Delivery
open Foundations Store Exec Crypto

def dekSealInfo : Bytes := utf8 "litterae/message-dek/v1"

structure ScanMetadata where
  spamScore : Option ℚ
  avClean : Option Bool
  deriving DecidableEq

def ScanMetadata.default : ScanMetadata := { spamScore := none, avClean := none }

structure InboundEnvelope where
  mailFrom : Text
  rcptTo : Text
  remoteIp : Text
  deriving DecidableEq

structure AuthResults where
  spf : Text
  dkim : Text
  dmarc : Text
  deriving DecidableEq

structure RecipientAccount where
  id : ℤ
  accountPub : Bytes
  keyId : UInt16
  deriving DecidableEq

structure DeliveredMessage where
  messageId : ℤ
  blobHash : Text
  deriving DecidableEq

/-- What one delivery draws from its surroundings: the fresh key, nonce and HPKE randomness, the
rows its unordered queries return, and which of its calls fail. -/
structure Draw where
  dek : Bytes
  nonce : Bytes
  hpkeRandom : Bytes
  pick : ℕ
  faults : Faults

section
variable (P : Primitives) (draw : Draw)

def sealForAccount (accountPub : Bytes) (keyId : UInt16) (raw : Bytes) :
    Exec Stores Error (Text × Bytes) := do
  let blobHash ← onBlobs (write P draw.faults (aeadSeal P draw.dek 1 draw.nonce raw))
  match hpkeSeal P accountPub keyId dekSealInfo draw.dek draw.hpkeRandom with
  | .ok dekWrap => pure (blobHash, dekWrap)
  | .error e => Exec.throw (.crypto e.display)

def headerValueIds : HeaderValue → List Text
  | .text s => [s]
  | .textList l => l
  | .other => []

/-- The salted hash of the normalised subject, if there is a subject. The outer `none` is a panic
inside `normalize_subject`. -/
def subjectHash (accountPub : Bytes) (subject : Option Text) : Option (Option Text) :=
  match subject with
  | none => some none
  | some s =>
    (normalizeSubject P.toLowercase s).map fun normalized =>
      some (hexEncode (P.sha256 (accountPub ++ utf8 normalized)))

def nonEmpty (s : Text) : Option Text := if s.isEmpty then none else some s

def newMessageOf (parsed : ParsedMail) (hash : Option Text) (account : RecipientAccount)
    (envelope : InboundEnvelope) (results : AuthResults) (raw : Bytes) (receivedAt : ℤ)
    (spamReason : Option Text) (scan : ScanMetadata) (mailboxId threadId : ℤ) (blobHash : Text)
    (dekWrap : Bytes) : NewMessage where
  accountId := account.id
  mailboxId := mailboxId
  threadId := threadId
  blobHash := blobHash
  dekWrap := dekWrap
  mailFrom := envelope.mailFrom
  rcptTo := envelope.rcptTo
  remoteIp := envelope.remoteIp
  sizeBytes := raw.length
  spfResult := results.spf
  dkimResult := results.dkim
  dmarcResult := results.dmarc
  receivedAt := receivedAt
  keywords := if spamReason.isSome then keywordJunk else []
  messageIdHeader := parsed.messageId
  inReplyTo := nonEmpty (join " " (headerValueIds parsed.inReplyTo))
  referencesHeader := nonEmpty (join " " (headerValueIds parsed.references))
  subjectHash := hash
  spamScore := scan.spamScore
  avClean := scan.avClean

/-- `deliver` after the subject hash. -/
def store (parsed : ParsedMail) (hash : Option Text) (account : RecipientAccount)
    (envelope : InboundEnvelope) (results : AuthResults) (raw : Bytes) (receivedAt : ℤ)
    (spamReason : Option Text) (scan : ScanMetadata) : Exec Stores Error DeliveredMessage := do
  let role := if spamReason.isSome then Role.junk else Role.inbox
  let mailbox ← onMetadata (ensureMailbox draw.faults account.id role)
  let threadId ← onMetadata (findOrCreateThread draw.faults draw.pick
    { accountId := account.id
      referenceIds := headerValueIds parsed.inReplyTo ++ headerValueIds parsed.references
      subjectHash := hash })
  let (blobHash, dekWrap) ← sealForAccount P draw account.accountPub account.keyId raw
  let messageId ← onMetadata (insertMessage draw.faults
    (newMessageOf parsed hash account envelope results raw receivedAt spamReason scan mailbox.id
      threadId blobHash dekWrap))
  pure { messageId, blobHash }

def deliver (account : RecipientAccount) (envelope : InboundEnvelope) (results : AuthResults)
    (raw : Bytes) (receivedAt : ℤ) (spamReason : Option Text) (scan : ScanMetadata) :
    Exec Stores Error DeliveredMessage :=
  match P.parse raw with
  | none => Exec.throw (.storage "unparseable RFC5322 message")
  | some parsed => do
    let hash ← orPanic (subjectHash P account.accountPub parsed.subject)
    store P draw parsed hash account envelope results raw receivedAt spamReason scan

/-- `open_blob`. A wrapped key of another length than 32 bytes panics in `copy_from_slice`. -/
def openBlob (faults : Faults) (blobHash : Text) (dekWrap accountPriv : Bytes) :
    Exec Stores Error Bytes :=
  match hpkeOpen P accountPriv dekSealInfo dekWrap with
  | .error e => Exec.throw (.crypto e.display)
  | .ok dek =>
    if dek.length ≠ 32 then Exec.panic
    else do
      let sealedBlob ← onBlobs (read P faults blobHash)
      match aeadOpen P dek sealedBlob with
      | .ok plaintext => pure plaintext
      | .error e => Exec.throw (.crypto e.display)

def openMessage (faults : Faults) (stored : StoredMessage) (accountPriv : Bytes) :
    Exec Stores Error Bytes :=
  openBlob P faults stored.blobHash stored.dekWrap accountPriv

end

/-! ## When delivery comes back -/

variable {raw accountPub : Bytes} {keyId : UInt16} {faults : Faults} {scan : ScanMetadata}
  {spamReason : Option Text} {receivedAt : ℤ} {account : RecipientAccount} {results : AuthResults}
  {envelope : InboundEnvelope} {P : Primitives} {draw : Draw}

section

theorem sealForAccount_noPanic :
    NoPanic (sealForAccount P draw accountPub keyId raw) := by
  refine .bind (.zoom write_noPanic) fun _ => ?_
  cases hpkeSeal P accountPub keyId dekSealInfo draw.dek draw.hpkeRandom with
  | ok => exact .pure
  | error => exact .throw

def KeyWrap (P : Primitives) (accountPriv dekWrap : Bytes) : Prop :=
  ∀ dek, hpkeOpen P accountPriv dekSealInfo dekWrap = .ok dek → dek.length = 32

theorem openBlob_noPanic {blobHash : Text} {dekWrap accountPriv : Bytes}
    (hkey : KeyWrap P accountPriv dekWrap) :
    NoPanic (openBlob P faults blobHash dekWrap accountPriv) := by
  unfold openBlob
  cases hopen : hpkeOpen P accountPriv dekSealInfo dekWrap with
  | error => exact .throw
  | ok dek =>
    simp only [hkey dek hopen, ne_eq, not_true_eq_false, if_false]
    refine .bind (.zoom read_noPanic) fun sealedBlob => ?_
    cases aeadOpen P dek sealedBlob with
    | ok => exact .pure
    | error => exact .throw

theorem store_noPanic {parsed : ParsedMail} {hash : Option Text} :
    NoPanic (store P draw parsed hash account envelope results raw receivedAt spamReason scan) :=
  .bind (.zoom (ensureMailbox_noPanic _ _)) fun _ =>
    .bind (.zoom (findOrCreateThread_noPanic _)) fun _ => .bind sealForAccount_noPanic fun _ =>
        .bind (.zoom (insertMessage_noPanic _)) fun _ => .pure

theorem subjectHash_isSome_iff (accountPub : Bytes) (subject : Option Text) :
    (subjectHash P accountPub subject).isSome ↔ ∀ s ∈ subject, SubjectSafe s := by
  cases subject with
  | none => simp [subjectHash]
  | some => simp [subjectHash, normalizeSubject_isSome_iff]

theorem deliver_returns_iff (s : Stores) :
    (deliver P draw account envelope results raw receivedAt spamReason scan s).1.returns ↔
      ∀ parsed ∈ P.parse raw, ∀ subject ∈ parsed.subject, SubjectSafe subject := by
  unfold deliver
  cases P.parse raw with
  | none => simp [Res.returns]
  | some parsed =>
    simp only [Option.mem_some_iff, forall_eq']
    rw [← subjectHash_isSome_iff account.accountPub]
    cases subjectHash P account.accountPub parsed.subject with
    | none => simp [orPanic, Exec.panic, bind_run, Res.returns]
    | some hash =>
      have hstore : (store P draw parsed hash account envelope results raw receivedAt spamReason
          scan s).1.returns := store_noPanic s
      simpa [orPanic, bind_run, Exec.pure] using hstore

end

/-! ## What delivery leaves behind -/

section
variable {s t : Stores}

/-- Only metadata and the file of the ciphertext `c` changed, and no blob went away. -/
structure MailOnly (P : Primitives) (c : Bytes) (s t : Stores) : Prop where
  queue : t.queue = s.queue
  accounts : t.accounts = s.accounts
  domains : t.domains = s.domains
  audit : t.audit = s.audit
  notified : t.notified = s.notified
  file : ∀ h, h ≠ hashHex P c → t.blobs.file h = s.blobs.file h
  stays : ∀ h, (s.blobs.file h).isSome = true → (t.blobs.file h).isSome = true

variable {c : Bytes}

instance : IsPreorder Stores (MailOnly P c) where
  refl := fun _ => ⟨rfl, rfl, rfl, rfl, rfl, fun _ _ => rfl, fun _ h => h⟩
  trans := fun _ _ _ h h' =>
    { queue := h'.queue.trans h.queue
      accounts := h'.accounts.trans h.accounts
      domains := h'.domains.trans h.domains
      audit := h'.audit.trans h.audit
      notified := h'.notified.trans h.notified
      file := fun n hn => (h'.file n hn).trans (h.file n hn)
      stays := fun n hn => h'.stays n (h.stays n hn) }

theorem onMetadata_mailOnly {α : Type} {x : Exec MetadataStore Error α} :
    Keeps (MailOnly P c) (onMetadata x) := fun _ =>
  ⟨Eq.refl _, Eq.refl _, Eq.refl _, Eq.refl _, Eq.refl _, fun _ _ => Eq.refl _, fun _ h => h⟩

variable {R : Stores → Stores → Prop}

theorem sealForAccount_keeps [IsPreorder Stores R]
    (hwrite : Keeps R (onBlobs (write P draw.faults (aeadSeal P draw.dek 1 draw.nonce raw)))) :
    Keeps R (sealForAccount P draw accountPub keyId raw) := by
  refine .bind hwrite fun _ => ?_
  cases hpkeSeal P accountPub keyId dekSealInfo draw.dek draw.hpkeRandom with
  | ok => exact .pure
  | error => exact .throw

/-- A delivery keeps what each of its calls keeps. -/
theorem deliver_keeps [IsPreorder Stores R]
    (hmailbox : ∀ role, Keeps R (onMetadata (ensureMailbox draw.faults account.id role)))
    (hthread : ∀ q, q.accountId = account.id →
      Keeps R (onMetadata (findOrCreateThread draw.faults draw.pick q)))
    (hseal : Keeps R (sealForAccount P draw account.accountPub account.keyId raw))
    (hinsert : ∀ new, new.accountId = account.id → new.remoteIp = envelope.remoteIp →
      Keeps R (onMetadata (insertMessage draw.faults new))) :
    Keeps R (deliver P draw account envelope results raw receivedAt spamReason scan) := by
  unfold deliver
  cases P.parse raw with
  | none => exact .throw
  | some =>
    refine .bind .orPanic fun hash => ?_
    refine .bind (hmailbox _) fun mailbox => ?_
    refine .bind (hthread _ rfl) fun threadId => ?_
    refine .bind hseal fun sealedBlob => ?_
    exact .map (hinsert _ rfl rfl)

theorem sealForAccount_mailOnly :
    Keeps (MailOnly P (aeadSeal P draw.dek 1 draw.nonce raw))
      (sealForAccount P draw accountPub keyId raw) := by
  refine sealForAccount_keeps fun s => ?_
  have hwrite := write_file P draw.faults (aeadSeal P draw.dek 1 draw.nonce raw) s.blobs
  exact ⟨Eq.refl _, Eq.refl _, Eq.refl _, Eq.refl _, Eq.refl _, fun h => (hwrite h).1,
    fun h => (hwrite h).2⟩

theorem deliver_mailOnly :
    Keeps (MailOnly P (aeadSeal P draw.dek 1 draw.nonce raw))
      (deliver P draw account envelope results raw receivedAt spamReason scan) :=
  deliver_keeps (fun _ => onMetadata_mailOnly) (fun _ _ => onMetadata_mailOnly)
    sealForAccount_mailOnly fun _ _ _ => onMetadata_mailOnly

theorem openBlob_state (faults : Faults) (blobHash : Text) (dekWrap accountPriv : Bytes)
    (s : Stores) : (openBlob P faults blobHash dekWrap accountPriv s).2 = s := by
  have hread : ∀ hash, Keeps (Same id) (onBlobs (read P faults hash)) := by
    intro hash s
    have hb : (read P faults hash s.blobs).2 = s.blobs := read_state hash s.blobs
    rw [onBlobs_run, hb]
    rfl
  have hopen : Keeps (Same id) (openBlob P faults blobHash dekWrap accountPriv) := by
    unfold openBlob
    cases hpkeOpen P accountPriv dekSealInfo dekWrap with
    | error => exact .throw
    | ok dek =>
      refine .ite (fun _ => rfl) (.bind (hread _) fun sealedBlob => ?_)
      cases aeadOpen P dek sealedBlob with
      | ok => exact .pure
      | error => exact .throw
  exact hopen s

abbrev SameMail : Stores → Stores → Prop := Same fun s => s.metadata.messages

theorem sealForAccount_sameMail :
    Keeps SameMail (sealForAccount P draw accountPub keyId raw) := sealForAccount_keeps fun _ => rfl

theorem insertMessage_failure (new : NewMessage) :
    KeepsOnFailure SameMail (onMetadata (insertMessage faults new)) := by
  intro s hfail
  rw [onMetadata_run, insertMessage_run] at hfail ⊢
  cases hins : faults .messageInsert with
  | some => rfl
  | none => rw [hins] at hfail; simp [Res.isOk] at hfail

theorem deliver_failure :
    KeepsOnFailure SameMail (deliver P draw account envelope results raw receivedAt spamReason scan) := by
  unfold deliver
  cases P.parse raw with
  | none => exact fun s _ => Eq.refl _
  | some =>
    refine .bind .orPanic fun hash => ?_
    refine .bind (fun s => ensureMailbox_same (fun _ _ => rfl) _ _ s.metadata) fun mailbox => ?_
    refine .bind (fun s => findOrCreateThread_same (fun _ _ => rfl) _ s.metadata) fun threadId => ?_
    refine .bind sealForAccount_sameMail fun sealed => ?_
    exact .bind_ok (insertMessage_failure _) fun _ _ => Eq.refl _

theorem sealForAccount_ok {r : Text × Bytes}
    (h : sealForAccount P draw accountPub keyId raw s = (.ok r, t)) :
    r.1 = hashHex P (aeadSeal P draw.dek 1 draw.nonce raw) ∧
      (t.blobs.file r.1).isSome ∧
      hpkeSeal P accountPub keyId dekSealInfo draw.dek draw.hpkeRandom = .ok r.2 := by
  obtain ⟨hash, s₁, hs₁, h⟩ := bind_ok h
  obtain ⟨hname, hstored⟩ := write_ok (onBlobs_eq hs₁).1
  cases hseal : hpkeSeal P accountPub keyId dekSealInfo draw.dek draw.hpkeRandom with
  | error => rw [hseal] at h; simp at h
  | ok =>
    rw [hseal] at h
    obtain ⟨rfl, rfl⟩ := h
    exact ⟨hname, hstored, rfl⟩

theorem insertMessage_ok {new : NewMessage} {id : ℤ}
    (h : onMetadata (insertMessage faults new) s = (.ok id, t)) :
    t.metadata.messages = s.metadata.messages ++ [{ new with id }] ∧ t.blobs = s.blobs ∧
      id = nextRowid StoredMessage.id s.metadata.messages := by
  rw [onMetadata_run, insertMessage_run] at h
  cases hins : faults .messageInsert with
  | some => rw [hins] at h; simp at h
  | none =>
    rw [hins] at h
    obtain ⟨rfl, rfl⟩ := h
    exact ⟨Eq.refl _, Eq.refl _, Eq.refl _⟩

/-- What a delivery that succeeded leaves: one row more, for its account, with the wrapped key, and the
row's blob. -/
structure Delivered (P : Primitives) (draw : Draw) (account : RecipientAccount)
    (envelope : InboundEnvelope) (raw : Bytes) (s t : Stores) (d : DeliveredMessage)
    (row : StoredMessage) : Prop where
  messages : t.metadata.messages = s.metadata.messages ++ [row]
  id : row.id = d.messageId
  fresh : d.messageId = nextRowid StoredMessage.id s.metadata.messages
  blobHash : row.blobHash = d.blobHash
  accountId : row.accountId = account.id
  mailFrom : row.mailFrom = envelope.mailFrom
  rcptTo : row.rcptTo = envelope.rcptTo
  sizeBytes : row.sizeBytes = raw.length
  name : d.blobHash = hashHex P (aeadSeal P draw.dek 1 draw.nonce raw)
  stored : (t.blobs.file d.blobHash).isSome = true
  wrap : hpkeSeal P account.accountPub account.keyId dekSealInfo draw.dek draw.hpkeRandom =
    .ok row.dekWrap

theorem deliver_ok {d : DeliveredMessage}
    (h : deliver P draw account envelope results raw receivedAt spamReason scan s = (.ok d, t)) :
    ∃ row, Delivered P draw account envelope raw s t d row := by
  unfold deliver at h
  cases hparse : P.parse raw with
  | none => rw [hparse] at h; simp at h
  | some parsed =>
    rw [hparse] at h
    obtain ⟨hash, s₁, hs₁, h⟩ := bind_ok h
    obtain ⟨mailbox, s₂, hs₂, h⟩ := bind_ok h
    obtain ⟨threadId, s₃, hs₃, h⟩ := bind_ok h
    obtain ⟨⟨blobHash, dekWrap⟩, s₄, hs₄, h⟩ := bind_ok h
    obtain ⟨messageId, s₅, hs₅, hend⟩ := bind_ok h
    obtain rfl := (orPanic_ok hs₁).2
    have h12 : SameMail s₁ s₂ :=
      (ensureMailbox_same (fun _ _ => rfl) _ _).run (onMetadata_eq hs₂).1
    have h23 : SameMail s₂ s₃ :=
      (findOrCreateThread_same (fun _ _ => rfl) _).run (onMetadata_eq hs₃).1
    have h34 : SameMail s₃ s₄ := sealForAccount_sameMail.run hs₄
    have hsame : s₄.metadata.messages = s₁.metadata.messages := h34.trans (h23.trans h12)
    obtain ⟨hname, hstored, hwrap⟩ := sealForAccount_ok hs₄
    obtain ⟨hrow, hblobs, hid⟩ := insertMessage_ok hs₅
    obtain ⟨rfl, rfl⟩ := hend
    rw [hsame] at hrow hid
    exact ⟨_, hrow, Eq.refl _, hid, Eq.refl _, Eq.refl _, Eq.refl _, Eq.refl _, Eq.refl _, hname,
      hblobs.symm ▸ hstored, hwrap⟩

end
end Litterae.Delivery
