import Litterae.Common.Error
import Litterae.Foundations.Table
import Mathlib.Data.Rat.Defs

/-! # Mailbox metadata (`store/src/{messages,mailboxes,threads,uploads,contacts}.rs`)

The tables of the metadata database and the statements delivery, compose and the worker run
on them. A query without a full order may return any of its candidates: `pick` is that choice.
-/

namespace Litterae.Store
open Foundations Exec List

inductive Role where
  | inbox | archive | trash | sent | drafts | junk
  deriving DecidableEq

def Role.asStr : Role → Text
  | .inbox => "inbox"
  | .archive => "archive"
  | .trash => "trash"
  | .sent => "sent"
  | .drafts => "drafts"
  | .junk => "junk"

def systemRoles : List (Role × Text) :=
  [(.inbox, "Inbox"), (.archive, "Archive"), (.trash, "Trash"),
    (.sent, "Sent"), (.drafts, "Drafts"), (.junk, "Junk")]

structure Mailbox where
  id : ℤ
  accountId : ℤ
  role : Role
  name : Text
  deriving DecidableEq

structure Thread where
  id : ℤ
  accountId : ℤ
  deriving DecidableEq

def keywordJunk : Text := "$junk"

def keywordDraft : Text := "$draft"

structure NewMessage where
  accountId : ℤ
  mailboxId : ℤ
  threadId : ℤ
  blobHash : Text
  dekWrap : Bytes
  mailFrom : Text
  rcptTo : Text
  remoteIp : Text
  sizeBytes : ℤ
  spfResult : Text
  dkimResult : Text
  dmarcResult : Text
  receivedAt : ℤ
  keywords : Text
  messageIdHeader : Option Text
  inReplyTo : Option Text
  referencesHeader : Option Text
  subjectHash : Option Text
  spamScore : Option ℚ
  avClean : Option Bool
  deriving DecidableEq

structure StoredMessage extends NewMessage where
  id : ℤ
  deriving DecidableEq

structure StoredUpload where
  id : ℤ
  accountId : ℤ
  blobHash : Text
  dekWrap : Bytes
  keyId : UInt16
  filename : Text
  contentType : Text
  sizeBytes : ℤ
  createdAt : ℤ
  deriving DecidableEq

structure StoredContact where
  id : ℤ
  accountId : ℤ
  sealedEntry : Bytes
  createdAt : ℤ
  updatedAt : ℤ
  deriving DecidableEq

structure MetadataStore where
  messages : List StoredMessage
  mailboxes : List Mailbox
  threads : List Thread
  uploads : List StoredUpload
  contacts : List StoredContact
  deriving DecidableEq

def MetadataStore.empty : MetadataStore :=
  { messages := [], mailboxes := [], threads := [], uploads := [], contacts := [] }

def pickFrom {α : Type} (pick : ℕ) (l : List α) : Option α := l[pick % l.length]?

theorem pickFrom_mem {α : Type} {pick : ℕ} {l : List α} {a : α} (h : pickFrom pick l = some a) :
    a ∈ l := mem_of_getElem? h

/-! ## Mailboxes -/

section
variable (faults : Faults)

/-- `INSERT OR IGNORE` under the unique `(account_id, role)`. -/
def insertOrIgnoreMailbox (accountId : ℤ) (role : Role) (name : Text) (m : MetadataStore) :
    MetadataStore :=
  if m.mailboxes.any fun b => b.accountId == accountId && b.role == role then m
  else
    { m with mailboxes := m.mailboxes ++
        [{ id := nextRowid Mailbox.id m.mailboxes, accountId, role, name }] }

def getMailboxByRole (accountId : ℤ) (role : Role) : Exec MetadataStore Error (Option Mailbox) := do
  sql faults .mailboxByRole
  let m ← Exec.get
  pure (m.mailboxes.find? fun b => b.accountId == accountId && b.role == role)

/-- The backfill loop of `ensure_mailbox` over the roles still to come. -/
def backfillMailboxes (accountId : ℤ) : ℕ → List (Role × Text) → Exec MetadataStore Error Unit
  | _, [] => pure ()
  | k, (role, name) :: rest => do
    sql faults (.mailboxInsert k)
    Exec.modify (insertOrIgnoreMailbox accountId role name)
    backfillMailboxes accountId (k + 1) rest

def ensureMailbox (accountId : ℤ) (role : Role) : Exec MetadataStore Error Mailbox := do
  backfillMailboxes faults accountId 0 systemRoles
  match ← getMailboxByRole faults accountId role with
  | some mailbox => pure mailbox
  | none => Exec.throw (.storage ("no such mailbox role: " ++ role.asStr))

end

/-! ## Threads -/

structure ThreadMatch where
  accountId : ℤ
  referenceIds : List Text
  subjectHash : Option Text

section
variable (faults : Faults) (pick : ℕ)

def threadByReference (accountId : ℤ) (referenceIds : List Text) :
    Exec MetadataStore Error (Option ℤ) := do
  if referenceIds.isEmpty then pure none
  else do
    sql faults .threadByReference
    let m ← Exec.get
    let found := m.messages.filter fun r =>
      r.accountId == accountId && r.messageIdHeader.any referenceIds.contains
    pure ((pickFrom pick found).map fun r => r.threadId)

/-- `ORDER BY received_at DESC LIMIT 1`: one of the latest. -/
def threadBySubjectHash (accountId : ℤ) (subjectHash : Text) :
    Exec MetadataStore Error (Option ℤ) := do
  sql faults .threadBySubjectHash
  let m ← Exec.get
  let found := m.messages.filter fun r =>
    r.accountId == accountId && r.subjectHash == some subjectHash
  let latest := found.filter fun r => found.all fun q => decide (q.receivedAt ≤ r.receivedAt)
  pure ((pickFrom pick latest).map fun r => r.threadId)

def createThread (accountId : ℤ) : Exec MetadataStore Error ℤ := do
  sql faults .threadInsert
  Exec.update fun m =>
    let id := nextRowid Thread.id m.threads
    (id, { m with threads := m.threads ++ [{ id, accountId }] })

def findOrCreateThread (q : ThreadMatch) : Exec MetadataStore Error ℤ := do
  match ← threadByReference faults pick q.accountId q.referenceIds with
  | some id => pure id
  | none =>
    match q.subjectHash with
    | none => createThread faults q.accountId
    | some hash =>
      match ← threadBySubjectHash faults pick q.accountId hash with
      | some id => pure id
      | none => createThread faults q.accountId

end

/-! ## Messages -/

section
variable (faults : Faults)

def insertMessage (new : NewMessage) : Exec MetadataStore Error ℤ := do
  sql faults .messageInsert
  Exec.update fun m =>
    let id := nextRowid StoredMessage.id m.messages
    (id, { m with messages := m.messages ++ [{ new with id }] })

def getMessage (id : ℤ) : Exec MetadataStore Error (Option StoredMessage) := do
  sql faults .messageById
  let m ← Exec.get
  pure (findBy StoredMessage.id id m.messages)

def getUpload (id : ℤ) : Exec MetadataStore Error (Option StoredUpload) := do
  sql faults .uploadById
  let m ← Exec.get
  pure (findBy StoredUpload.id id m.uploads)

/-- `ORDER BY received_at` is left to the caller that shows the order. -/
def messagesInThread (accountId threadId : ℤ) : Exec MetadataStore Error (List StoredMessage) := do
  sql faults .messagesInThread
  let m ← Exec.get
  pure (m.messages.filter fun r => r.accountId == accountId && r.threadId == threadId)

def setMailbox (id mailboxId : ℤ) (m : MetadataStore) : MetadataStore :=
  { m with messages := updateWhere (fun r => r.id == id) (fun r => { r with mailboxId }) m.messages }

def setKeywords (id : ℤ) (keywords : Text) (m : MetadataStore) : MetadataStore :=
  { m with messages := updateWhere (fun r => r.id == id) (fun r => { r with keywords }) m.messages }

/-- `update_message`: two statements, and the first stays when the second fails. -/
def updateMessage (id : ℤ) (mailboxId : Option ℤ) (keywords : Option Text) :
    Exec MetadataStore Error Unit := do
  whenSome mailboxId fun mailboxId => do
    sql faults .messageSetMailbox
    Exec.modify (setMailbox id mailboxId)
  whenSome keywords fun keywords => do
    sql faults .messageSetKeywords
    Exec.modify (setKeywords id keywords)

end

/-! ## No statement panics -/

section
variable {faults : Faults} {pick : ℕ} (id accountId : ℤ) (role : Role)

theorem getMailboxByRole_noPanic :
    NoPanic (getMailboxByRole faults accountId role) :=
  .bind sql_noPanic fun _ => .bind .get fun _ => .pure

theorem backfillMailboxes_noPanic {accountId : ℤ} {k : ℕ} {roles : List (Role × Text)} :
    NoPanic (backfillMailboxes faults accountId k roles) := by
  induction roles generalizing k with
  | nil => exact .pure
  | cons _ _ ih => exact .bind sql_noPanic fun _ => .bind (.modify _) fun _ => ih

theorem ensureMailbox_noPanic :
    NoPanic (ensureMailbox faults accountId role) := by
  refine .bind backfillMailboxes_noPanic fun _ =>
    .bind (getMailboxByRole_noPanic _ _) fun found => ?_
  cases found with
  | some => exact .pure
  | none => exact .throw

theorem createThread_noPanic : NoPanic (createThread faults accountId) :=
  .bind sql_noPanic fun _ => .update _

theorem findOrCreateThread_noPanic (q : ThreadMatch) :
    NoPanic (findOrCreateThread faults pick q) := by
  have href : NoPanic (threadByReference faults pick q.accountId q.referenceIds) :=
    .ite .pure (.bind sql_noPanic fun _ => .bind .get fun _ => .pure)
  refine .bind href fun found => ?_
  cases found with
  | some => exact .pure
  | none =>
    cases q.subjectHash with
    | none => exact createThread_noPanic _
    | some hash =>
      have hsub : NoPanic (threadBySubjectHash faults pick q.accountId hash) :=
        .bind sql_noPanic fun _ => .bind .get fun _ => .pure
      refine .bind hsub fun found => ?_
      cases found with
      | some => exact .pure
      | none => exact createThread_noPanic _

theorem insertMessage_noPanic (new : NewMessage) : NoPanic (insertMessage faults new) :=
  .bind sql_noPanic fun _ => .update _

theorem getUpload_noPanic : NoPanic (getUpload faults id) :=
  .bind sql_noPanic fun _ => .bind .get fun _ => .pure

theorem updateMessage_noPanic (mailboxId : Option ℤ) (keywords : Option Text) :
    NoPanic (updateMessage faults id mailboxId keywords) := by
  refine .bind (.whenSome fun _ => ?_) fun _ => .whenSome fun _ => ?_
  · exact .bind sql_noPanic fun _ => .modify _
  · exact .bind sql_noPanic fun _ => .modify _

end

/-! ## What the statements leave alone -/

section
variable {faults : Faults} {pick : ℕ} {R : MetadataStore → MetadataStore → Prop} {β : Type}
  {g : MetadataStore → β}

theorem ensureMailbox_keeps [IsPreorder MetadataStore R] {accountId : ℤ}
    (hinsert : ∀ role name m, R m (insertOrIgnoreMailbox accountId role name m)) (role : Role) :
    Keeps R (ensureMailbox faults accountId role) := by
  have hfill : ∀ k roles, Keeps R (backfillMailboxes faults accountId k roles) := by
    intro k roles
    induction roles generalizing k with
    | nil => exact .pure
    | cons _ _ ih =>
      exact .bind sql_keeps fun _ => .bind (.modify (hinsert _ _)) fun _ => ih (k + 1)
  refine .bind (hfill _ _) fun _ => .bind (query_keeps _ _ _) fun found => ?_
  cases found with
  | some => exact .pure
  | none => exact .throw

theorem ensureMailbox_same (hg : ∀ m mailboxes, g { m with mailboxes } = g m) (accountId : ℤ)
    (role : Role) : Keeps (Same g) (ensureMailbox faults accountId role) := by
  refine ensureMailbox_keeps (fun role name m => ?_) role
  unfold insertOrIgnoreMailbox
  split
  · rfl
  · exact hg m _

theorem findOrCreateThread_keeps [IsPreorder MetadataStore R] (q : ThreadMatch)
    (hinsert : ∀ m, R m { m with threads := m.threads ++
      [{ id := nextRowid Thread.id m.threads, accountId := q.accountId }] }) :
    Keeps R (findOrCreateThread faults pick q) := by
  have hcreate : Keeps R (createThread faults q.accountId) :=
    .bind sql_keeps fun _ => .update hinsert
  refine .bind (.ite .pure (query_keeps _ _ _)) fun found => ?_
  cases found with
  | some => exact .pure
  | none =>
    cases q.subjectHash with
    | none => exact hcreate
    | some =>
      refine .bind (query_keeps _ _ _) fun found => ?_
      cases found with
      | some => exact .pure
      | none => exact hcreate

theorem findOrCreateThread_same (hg : ∀ m threads, g { m with threads } = g m) (q : ThreadMatch) :
    Keeps (Same g) (findOrCreateThread faults pick q) :=
  findOrCreateThread_keeps q fun m => hg m _

theorem getUpload_run (id : ℤ) (m : MetadataStore) :
    getUpload faults id m = match faults .uploadById with
      | some detail => (.err (.storage detail), m)
      | none => (.ok (findBy StoredUpload.id id m.uploads), m) := by
  rw [getUpload, sql_bind_run]
  cases faults .uploadById <;> rfl

theorem insertMessage_run (new : NewMessage) (m : MetadataStore) :
    insertMessage faults new m = match faults .messageInsert with
      | some detail => (.err (.storage detail), m)
      | none => (.ok (nextRowid StoredMessage.id m.messages),
          { m with messages := m.messages ++
              [{ new with id := nextRowid StoredMessage.id m.messages }] }) := by
  rw [insertMessage, sql_bind_run]
  cases faults .messageInsert <;> rfl

end

/-! ## Which failures make a statement fail -/

section
variable (faults : Faults)

def hasMailbox (m : MetadataStore) (accountId : ℤ) (role : Role) : Bool :=
  m.mailboxes.any fun b => b.accountId == accountId && b.role == role

variable (accountId : ℤ) (role : Role) (m : MetadataStore)

theorem hasMailbox_insertOrIgnore (name : Text) (m : MetadataStore) :
    hasMailbox (insertOrIgnoreMailbox accountId role name m) accountId role := by
  unfold insertOrIgnoreMailbox
  split
  · rename_i h
    exact h
  · simp [hasMailbox]

theorem hasMailbox_mono {accountId : ℤ} {role role' : Role} {name : Text} {m : MetadataStore}
    (h : hasMailbox m accountId role) :
    hasMailbox (insertOrIgnoreMailbox accountId role' name m) accountId role := by
  unfold insertOrIgnoreMailbox
  split
  · exact h
  · simp only [hasMailbox, any_append, Bool.or_eq_true]
    exact .inl h

theorem backfillMailboxes_run (k : ℕ) (roles : List (Role × Text)) (m : MetadataStore) :
    ((backfillMailboxes faults accountId k roles m).1.isOk ↔
        ∀ i < roles.length, faults (.mailboxInsert (k + i)) = none) ∧
      ((backfillMailboxes faults accountId k roles m).1.isOk →
        ∀ role, (hasMailbox m accountId role ∨ role ∈ roles.map Prod.fst) →
          hasMailbox (backfillMailboxes faults accountId k roles m).2 accountId role) := by
  induction roles generalizing k m with
  | nil => simp [backfillMailboxes, Res.isOk]
  | cons r _ ih =>
    obtain ⟨role, name⟩ := r
    rw [backfillMailboxes, sql_bind_run]
    rw [length_cons, forall_rounds_succ (p := fun i => faults (.mailboxInsert i) = none)]
    cases hfault : faults (.mailboxInsert k) with
    | some => simp [Res.isOk]
    | none =>
      rw [bind_of_ok (modify_run m)]
      obtain ⟨hok, hhas⟩ := ih (k + 1) (insertOrIgnoreMailbox accountId role name m)
      constructor
      · rw [hok]
        simp
      · intro hdone role' hrole'
        refine hhas hdone role' ?_
        rcases hrole' with hold | hnew
        · exact .inl (hasMailbox_mono hold)
        · rcases mem_cons.mp hnew with rfl | hrest
          · exact .inl (hasMailbox_insertOrIgnore accountId _ name m)
          · exact .inr hrest

theorem getMailboxByRole_run :
    getMailboxByRole faults accountId role m = match faults .mailboxByRole with
      | some detail => (.err (.storage detail), m)
      | none => (.ok (m.mailboxes.find? fun b => b.accountId == accountId && b.role == role), m) := by
  rw [getMailboxByRole, sql_bind_run]
  cases faults .mailboxByRole <;> rfl

theorem ensureMailbox_isOk_iff :
    (ensureMailbox faults accountId role m).1.isOk ↔
      (∀ k < 6, faults (.mailboxInsert k) = none) ∧ faults .mailboxByRole = none := by
  obtain ⟨hok, hhas⟩ := backfillMailboxes_run faults accountId 0 systemRoles m
  have hlen : systemRoles.length = 6 := rfl
  simp only [Nat.zero_add, hlen] at hok
  rw [← hok, ensureMailbox]
  match hfill : backfillMailboxes faults accountId 0 systemRoles m with
  | (.err e, t) => rw [bind_of_err hfill]; simp [Res.isOk]
  | (.panic, t) => rw [bind_of_panic hfill]; simp [Res.isOk]
  | (.ok u, t) =>
    rw [hfill] at hhas
    have hmem : role ∈ systemRoles.map Prod.fst := by cases role <;> decide
    have hfound := hhas rfl role (.inr hmem)
    rw [bind_of_ok hfill]
    cases hquery : faults .mailboxByRole with
    | some =>
      rw [bind_of_err (by rw [getMailboxByRole_run, hquery])]
      simp [Res.isOk]
    | none =>
      obtain ⟨mailbox, hmailbox⟩ := Option.isSome_iff_exists.mp
        (List.find?_isSome.mpr (any_eq_true.mp hfound))
      rw [bind_of_ok (by rw [getMailboxByRole_run, hquery]), hmailbox]
      simp [Res.isOk]

theorem updateMessage_isOk_iff (id mailboxId : ℤ) (keywords : Text) (m : MetadataStore) :
    (updateMessage faults id (some mailboxId) (some keywords) m).1.isOk ↔
      faults .messageSetMailbox = none ∧ faults .messageSetKeywords = none := by
  unfold updateMessage whenSome
  simp only
  rw [bind_run, sql_bind_run]
  cases faults .messageSetMailbox with
  | some => simp [Res.isOk]
  | none =>
    simp only [modify_run, true_and]
    rw [sql_bind_run]
    cases faults .messageSetKeywords <;> simp [Res.isOk]

end
end Litterae.Store
