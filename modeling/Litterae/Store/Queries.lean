import Litterae.Store.Metadata
import Mathlib.Data.List.Sort

/-! # What the mailbox API asks of the metadata tables (`store/src/{messages,mailboxes,uploads,contacts}.rs`)

Rows enter a table with the next row id, so a table stands in the order of its ids.
-/

namespace Litterae.Store
open Foundations

/-- ASCII letters match in either case, `%` any text and `_` any character. -/
def patternCompare : Text → Text → Bool
  | [], s => s.isEmpty
  | c :: pattern, s =>
    if c = '%' then s.tails.any (patternCompare pattern)
    else
      match s with
      | [] => false
      | d :: rest => (c == '_' || c.toLower == d.toLower) && patternCompare pattern rest

def nul : Char := Char.ofNat 0

/-- What a C string holds of a text. -/
def cString (s : Text) : Text := s.takeWhile (· ≠ nul)

/-- SQLite's `LIKE`, which reads pattern and text as C strings. -/
def like (pattern s : Text) : Bool := patternCompare (cString pattern) (cString s)

/-- The pattern length in bytes above which `LIKE` is an error. -/
def likePatternLimit : ℕ := 50000

def keywordPattern (keyword : Text) : Text := "%," ++ keyword ++ ",%"

/-- `(',' || keywords || ',') LIKE '%,{keyword},%'`. -/
def keywordLike (keyword : Text) (m : StoredMessage) : Bool :=
  like (keywordPattern keyword) (',' :: m.keywords ++ [','])

/-- The index is walked backwards, so of two rows of one instant the newer comes first. -/
def latestFirst (rows : List StoredMessage) : List StoredMessage :=
  rows.reverse.insertionSort fun a b => b.receivedAt ≤ a.receivedAt

theorem latestFirst_perm {rows : List StoredMessage} : (latestFirst rows).Perm rows :=
  (List.perm_insertionSort _ _).trans rows.reverse_perm

structure NewUpload where
  accountId : ℤ
  blobHash : Text
  dekWrap : Bytes
  keyId : UInt16
  filename : Text
  contentType : Text
  sizeBytes : ℤ
  createdAt : ℤ

section
variable (faults : Faults)

def selectMessages (site : Site) (accountId : ℤ) (p : StoredMessage → Bool) :
    Exec MetadataStore Error (List StoredMessage) := do
  sql faults site
  let m ← Exec.get
  pure (latestFirst (m.messages.filter fun r => r.accountId == accountId && p r))

def messagesForAccount (accountId : ℤ) : Exec MetadataStore Error (List StoredMessage) :=
  selectMessages faults .messagesForAccount accountId fun _ => true

def messagesInMailbox (accountId mailboxId : ℤ) : Exec MetadataStore Error (List StoredMessage) :=
  selectMessages faults .messagesInMailbox accountId fun r => r.mailboxId == mailboxId

/-- A query that compares the account's rows, if there are any, with the pattern of a keyword. -/
def selectLike (accountId : ℤ) (keyword : Text) (p : StoredMessage → Bool) :
    Exec MetadataStore Error (List StoredMessage) := do
  let rows ← selectMessages faults .messagesByKeyword accountId fun _ => true
  if likePatternLimit < byteLen (keywordPattern keyword) && !rows.isEmpty then
    Exec.throw (.storage "LIKE or GLOB pattern too complex")
  else pure (rows.filter p)

def messagesWithKeyword (accountId : ℤ) (keyword : Text) :
    Exec MetadataStore Error (List StoredMessage) :=
  selectLike faults accountId keyword (keywordLike keyword)

def messagesWithoutKeyword (accountId : ℤ) (keyword : Text) :
    Exec MetadataStore Error (List StoredMessage) :=
  selectLike faults accountId keyword fun r => !keywordLike keyword r

def getMessages (ids : List ℤ) : Exec MetadataStore Error (List StoredMessage) :=
  if ids.isEmpty then pure []
  else do
    sql faults .messagesByIds
    let m ← Exec.get
    pure (m.messages.filter fun r => ids.contains r.id)

def deleteMessage (id : ℤ) : Exec MetadataStore Error Unit := do
  sql faults .messageDelete
  Exec.modify fun m => { m with messages := m.messages.filter fun r => r.id != id }

def mailboxesForAccount (accountId : ℤ) : Exec MetadataStore Error (List Mailbox) := do
  let _ ← ensureMailbox faults accountId .inbox
  sql faults .mailboxList
  let m ← Exec.get
  pure (m.mailboxes.filter fun b => b.accountId == accountId)

def insertUpload (new : NewUpload) : Exec MetadataStore Error ℤ := do
  sql faults .uploadInsert
  Exec.update fun m =>
    let id := nextRowid StoredUpload.id m.uploads
    (id, { m with uploads := m.uploads ++
      [{ id, accountId := new.accountId, blobHash := new.blobHash, dekWrap := new.dekWrap
         keyId := new.keyId, filename := new.filename, contentType := new.contentType
         sizeBytes := new.sizeBytes, createdAt := new.createdAt }] })

def insertContact (accountId : ℤ) (sealedEntry : Bytes) (now : ℤ) : Exec MetadataStore Error ℤ := do
  sql faults .contactInsert
  Exec.update fun m =>
    let id := nextRowid StoredContact.id m.contacts
    (id, { m with contacts := m.contacts ++
      [{ id, accountId, sealedEntry, createdAt := now, updatedAt := now }] })

def getContact (id : ℤ) : Exec MetadataStore Error (Option StoredContact) := do
  sql faults .contactById
  let m ← Exec.get
  pure (findBy StoredContact.id id m.contacts)

def contactsForAccount (accountId : ℤ) : Exec MetadataStore Error (List StoredContact) := do
  sql faults .contactList
  let m ← Exec.get
  pure (m.contacts.filter fun c => c.accountId == accountId)

def updateContact (id : ℤ) (sealedEntry : Bytes) (now : ℤ) : Exec MetadataStore Error Unit := do
  sql faults .contactUpdate
  Exec.modify fun m =>
    { m with
      contacts := updateWhere (fun c => c.id == id)
        (fun c => { c with sealedEntry, updatedAt := now }) m.contacts }

def deleteContact (id : ℤ) : Exec MetadataStore Error Unit := do
  sql faults .contactDelete
  Exec.modify fun m => { m with contacts := m.contacts.filter fun c => c.id != id }

end

theorem selectLike_keeps {R : MetadataStore → MetadataStore → Prop} [IsPreorder MetadataStore R]
    {faults : Faults} {accountId : ℤ} {k : Text} {p : StoredMessage → Bool} :
    Exec.Keeps R (selectLike faults accountId k p) :=
  .bind (query_keeps _ _ _) fun _ => .ite .throw .pure

/-! ## Mailboxes that are there -/

section
variable {faults : Faults} {accountId : ℤ} {role : Role} {m m' : MetadataStore} {b : Mailbox}
open Exec

def mailboxOf (accountId : ℤ) (role : Role) (m : MetadataStore) : Option Mailbox :=
  m.mailboxes.find? fun b => b.accountId == accountId && b.role == role

theorem ensureMailbox_ok (h : ensureMailbox faults accountId role m = (.ok b, m')) :
    mailboxOf accountId role m' = some b := by
  obtain ⟨_, m₁, -, h₁⟩ := bind_ok h
  obtain ⟨found, m₂, hquery, h₂⟩ := bind_ok h₁
  rw [getMailboxByRole_run] at hquery
  cases hfault : faults .mailboxByRole with
  | some => rw [hfault] at hquery; cases hquery
  | none =>
    rw [hfault] at hquery
    simp only [Prod.mk.injEq, Res.ok.injEq] at hquery
    obtain ⟨hfound, rfl⟩ := hquery
    cases found with
    | none => cases h₂
    | some => cases h₂; exact hfound

theorem ensureMailbox_of_some {b' : Mailbox} (hb : mailboxOf accountId role m = some b)
    (h : ensureMailbox faults accountId role m = (.ok b', m')) : b' = b := by
  let R := fun l n => mailboxOf accountId role l = some b → mailboxOf accountId role n = some b
  have : IsPreorder MetadataStore R := { refl := fun _ h => h, trans := fun _ _ _ h h' hl => h' (h hl) }
  have hkeeps : Keeps R (ensureMailbox faults accountId role) := by
    refine ensureMailbox_keeps (fun role' name l hl => ?_) role
    unfold insertOrIgnoreMailbox
    split
    · exact hl
    · unfold mailboxOf at hl ⊢
      rw [List.find?_append, hl]
      rfl
  have hafter := hkeeps.run h hb
  rw [ensureMailbox_ok h] at hafter
  exact Option.some.inj hafter

/-- The mailbox that is there once `ensure_mailbox` is through. -/
def ensuredMailbox (accountId : ℤ) (role : Role) (m : MetadataStore) : Option Mailbox :=
  mailboxOf accountId role (ensureMailbox .none accountId role m).2

theorem ensureMailbox_run (accountId : ℤ) (role : Role) (m : MetadataStore) :
    ∃ b m', ensureMailbox .none accountId role m = (.ok b, m') ∧
      ensuredMailbox accountId role m = some b ∧ m'.messages = m.messages ∧
      mailboxOf accountId role m' = some b := by
  have hok : (ensureMailbox .none accountId role m).1.isOk :=
    (ensureMailbox_isOk_iff _ _ _ _).mpr ⟨fun _ _ => rfl, rfl⟩
  obtain ⟨b, hb⟩ := Res.isOk_iff.mp hok
  have hrun : ensureMailbox .none accountId role m =
      (.ok b, (ensureMailbox .none accountId role m).2) := Prod.ext hb rfl
  have hrole := ensureMailbox_ok hrun
  exact ⟨b, _, hrun, hrole, (ensureMailbox_same (fun _ _ => rfl) _ _).run hrun, hrole⟩

theorem ensuredMailbox_of_mailbox (h : mailboxOf accountId role m = some b) :
    ensuredMailbox accountId role m = some b := by
  obtain ⟨b', m', hrun, hrole, -⟩ := ensureMailbox_run accountId role m
  rw [hrole, ensureMailbox_of_some h hrun]

end

def sampleRow (id mailboxId : ℤ) (keywords : String) : StoredMessage where
  id := id
  accountId := 1
  mailboxId := mailboxId
  threadId := 1
  blobHash := []
  dekWrap := []
  mailFrom := []
  rcptTo := []
  remoteIp := []
  sizeBytes := 0
  spfResult := []
  dkimResult := []
  dmarcResult := []
  receivedAt := 1700000000
  keywords := keywords.toList
  messageIdHeader := none
  inReplyTo := none
  referencesHeader := none
  subjectHash := none
  spamScore := none
  avClean := none

end Litterae.Store
