import Litterae.Jmap.EmailSet
import Litterae.Jmap.Session

/-! # Reading the mailbox (`jmap/src/{api,email,search}.rs`)

`Mailbox/get`, `Email/query`, `Email/get` and `Thread/get`. A message is opened with the session's
private key and parsed each time it is read; the full-text index of a session is built by its first
search and not brought up to date afterwards.
-/

namespace Litterae.Jmap
open Foundations Store Delivery Queue

inductive MethodError where
  | invalidArguments (description : Text)
  | accountNotFound
  | serverFail (description : Text)
  | unknownMethod (name : Text)
  deriving DecidableEq

def serverFail (e : Error) : MethodError := .serverFail e.display

structure CallState where
  stores : Stores
  searchIndex : Option (List Doc)

def inStores {ε α : Type} (x : Exec Stores ε α) : Exec CallState ε α :=
  x.zoom CallState.stores fun t s => { s with stores := t }

/-! ## Messages as `mail_parser` yields them -/

structure MimePart where
  name : Option Text
  contentType : Option (Text × Option Text)
  contentId : Option Text
  contents : Bytes
  deriving DecidableEq

/-- The address headers are there if they are plain lists, each entry with an optional name and
address; `bodyHtml` is there if the message has an HTML part. -/
structure MimeMessage where
  fromAddrs : Option (List (Option Text × Option Text))
  toAddrs : Option (List (Option Text × Option Text))
  subject : Option Text
  bodyText : Option Text
  bodyHtml : Option Text
  attachments : List MimePart
  deriving DecidableEq

/-- The parser, the sanitizer of `html_sanitize.rs` with the inline images it may embed, and the
full-text query over an index, as functions. -/
structure Reader where
  parse : Bytes → Option MimeMessage
  sanitize : Text → List (Text × Text × Bytes) → Text × ℕ
  matchDocs : List Doc → Text → Except Text (List ℤ)

/-! ## Email objects -/

structure EmailAddress where
  name : Option Text
  email : Text
  deriving DecidableEq

structure EmailAttachment where
  blobId : Text
  name : Text
  contentType : Text
  size : ℤ
  deriving DecidableEq

structure EmailObject where
  id : Text
  threadId : Text
  mailboxIds : List Text
  keywords : List Text
  fromAddrs : List EmailAddress
  toAddrs : List EmailAddress
  subject : Option Text
  receivedAt : Text
  preview : Text
  bodyText : Option Text
  size : ℤ
  messageId : Option Text
  inReplyToMessageId : Option Text
  spamScore : Option ℚ
  avClean : Option Bool
  bodyHtml : Option Text
  blockedImageCount : Option ℕ
  attachments : List EmailAttachment
  snoozedUntil : Option ℤ
  nudgeAt : Option ℤ
  deriving DecidableEq

def addresses (header : Option (List (Option Text × Option Text))) : List EmailAddress :=
  (header.getD []).filterMap fun a => a.2.map fun email => { name := a.1, email }

def previewLen : ℕ := 200

def truncate (text : Text) (maxChars : ℕ) : Text :=
  let collapsed := join " " (splitWhitespace text)
  if collapsed.length ≤ maxChars then collapsed else collapsed.take maxChars ++ "…"

/-- `civil_from_days`: year, month and day. Rust's division truncates. -/
def civilFromDays (days : ℤ) : ℤ × ℕ × ℕ :=
  let z := days + 719468
  let era := (if 0 ≤ z then z else z - 146096).tdiv 146097
  let doe := (z - era * 146097).toNat
  let yoe := (doe - doe / 1460 + doe / 36524 - doe / 146096) / 365
  let doy := doe - (365 * yoe + yoe / 4 - yoe / 100)
  let mp := (5 * doy + 2) / 153
  let d := doy - (153 * mp + 2) / 5 + 1
  let m := if mp < 10 then mp + 3 else mp - 9
  let y := yoe + era * 400
  (if m ≤ 2 then y + 1 else y, m, d)

/-- `{:0width}`: the sign counts as one of the characters. -/
def zeroPadded (width : ℕ) (n : ℤ) : Text :=
  let digits := showInt n.natAbs
  if n < 0 then '-' :: (List.replicate (width - 1 - digits.length) '0' ++ digits)
  else List.replicate (width - digits.length) '0' ++ digits

def iso8601 (unixSecs : ℤ) : Text :=
  let (year, month, day) := civilFromDays (unixSecs / 86400)
  let secs := unixSecs % 86400
  zeroPadded 4 year ++ '-' :: zeroPadded 2 month ++ '-' :: zeroPadded 2 day ++
    'T' :: zeroPadded 2 (secs / 3600) ++ ':' :: zeroPadded 2 (secs % 3600 / 60) ++
    ':' :: zeroPadded 2 (secs % 60) ++ ['Z']

def contentTypeText (part : MimePart) : Text :=
  match part.contentType with
  | some (type, some sub) => type ++ '/' :: sub
  | some (type, none) => type
  | none => "application/octet-stream"

def allowedCidImageTypes : List Text :=
  ["image/png", "image/jpeg", "image/gif", "image/webp"]

def attachmentOf (messageId : ℤ) (index : ℕ) (part : MimePart) : EmailAttachment where
  blobId := 'm' :: showInt messageId ++ '.' :: showInt index
  name := part.name.getD "attachment"
  contentType := contentTypeText part
  size := part.contents.length

def cidImages (parts : List MimePart) : List (Text × Text × Bytes) :=
  parts.filterMap fun part =>
    part.contentId.bind fun cid =>
      if contentTypeText part ∈ allowedCidImageTypes then
        some (cid, contentTypeText part, part.contents)
      else none

/-- The object of a parsed message. Without a list of properties every one is wanted; attachments and
HTML are only prepared when they are. -/
def emailObject (R : Reader) (properties : Option (List Text)) (stored : StoredMessage)
    (message : Option MimeMessage) : EmailObject :=
  let wants (field : String) : Bool := properties.all fun p => p.contains field.toList
  let parts := (message.map MimeMessage.attachments).getD []
  let bodyText := message.bind MimeMessage.bodyText
  let html :=
    if wants "bodyHtml" then
      (message.bind MimeMessage.bodyHtml).map fun html => R.sanitize html (cidImages parts)
    else none
  { id := 'm' :: showInt stored.id
    threadId := 't' :: showInt stored.threadId
    mailboxIds := ['b' :: showInt stored.mailboxId]
    keywords := splitKeywords stored.keywords
    fromAddrs := addresses (message.bind MimeMessage.fromAddrs)
    toAddrs := addresses (message.bind MimeMessage.toAddrs)
    subject := message.bind MimeMessage.subject
    receivedAt := iso8601 stored.receivedAt
    preview := (bodyText.map fun text => truncate text previewLen).getD []
    bodyText
    size := stored.sizeBytes
    messageId := stored.messageIdHeader
    inReplyToMessageId := stored.inReplyTo
    spamScore := stored.spamScore
    avClean := stored.avClean
    bodyHtml := html.map Prod.fst
    blockedImageCount := html.map Prod.snd
    attachments :=
      if wants "attachments" then parts.mapIdx fun k part => attachmentOf stored.id k part else []
    snoozedUntil := none
    nudgeAt := none }

/-! ## Mailboxes -/

structure MailboxObject where
  id : Text
  name : Text
  role : Role
  totalEmails : ℕ
  deriving DecidableEq

section
variable (accountId : ℤ)

def mailboxTotals (faults : ℕ → Faults) :
    ℕ → List Mailbox → Exec MetadataStore Error (List MailboxObject)
  | _, [] => pure []
  | k, mailbox :: rest => do
    let found ← (messagesInMailbox (faults k) accountId mailbox.id).attempt
    let objects ← mailboxTotals faults (k + 1) rest
    pure
      ({ id := 'b' :: showInt mailbox.id, name := mailbox.name, role := mailbox.role
         totalEmails := (found.toOption.getD []).length } :: objects)

def mailboxGet (faults : Faults) (totals : ℕ → Faults) : Exec Stores MethodError (List MailboxObject) := do
  let mailboxes ← (onMetadata (mailboxesForAccount faults accountId)).mapErr serverFail
  (onMetadata (mailboxTotals accountId totals 0 mailboxes)).mapErr serverFail

end

/-! ## Search -/

/-- `fts5_query`: each token quoted and marked as the start of a word. -/
def fts5Query (query : Text) : Text :=
  join " " ((splitWhitespace query).map fun token =>
    '"' :: token.flatMap (fun c => if c = '"' then ['"', '"'] else [c]) ++ ['"', '*'])

section
variable (P : Primitives) (R : Reader) (accountPriv : Bytes)

def docOf (stored : StoredMessage) (opened : Except Error Bytes) : Option Doc :=
  (opened.toOption.bind R.parse).map fun parsed =>
    { messageId := stored.id, subject := parsed.subject.getD [], body := parsed.bodyText.getD [] }

def indexDocs (faults : ℕ → Faults) : ℕ → List StoredMessage → Exec Stores Error (List Doc)
  | _, [] => pure []
  | k, stored :: rest => do
    let opened ← (openMessage P (faults k) stored accountPriv).attempt
    let docs ← indexDocs faults (k + 1) rest
    pure ((docOf R stored opened).toList ++ docs)

def buildIndex (accountId : ℤ) (faults : Faults) (messages : ℕ → Faults) :
    Exec Stores Error (List Doc) := do
  sql faults .searchIndex
  let rows ← onMetadata (messagesForAccount faults accountId)
  indexDocs P R accountPriv messages 0 rows

def searchDocs (accountId : ℤ) (faults : Faults) (messages : ℕ → Faults) :
    Exec CallState Error (List Doc) := do
  let s ← Exec.get
  match s.searchIndex with
  | some docs => pure docs
  | none => do
    let docs ← inStores (buildIndex P R accountPriv accountId faults messages)
    Exec.modify fun s => { s with searchIndex := some docs }
    pure docs

def search (accountId : ℤ) (faults : Faults) (messages : ℕ → Faults) (query : Text) :
    Exec CallState Error (List ℤ) := do
  let docs ← searchDocs P R accountPriv accountId faults messages
  Exec.ofExcept ((R.matchDocs docs (fts5Query query)).mapError .storage)

end

/-! ## Queries -/

structure EmailFilter where
  inMailbox : Option Text
  hasKeyword : Option Text
  notHasKeyword : Option Text
  text : Option Text
  deriving DecidableEq

structure EmailQueryArgs where
  filter : EmailFilter
  position : ℤ
  limit : Option ℕ
  deriving DecidableEq

structure EmailQueryResult where
  position : ℕ
  ids : List Text
  total : ℕ
  deriving DecidableEq

def hasKeyword (keywords keyword : Text) : Bool := (keywords.splitOn ',').any fun k => k == keyword

def shown (rows : List StoredMessage) : List ℤ :=
  (rows.filter fun m => !hasKeyword m.keywords keywordSnoozed).map StoredMessage.id

def queriedMailbox (accountId : ℤ) (faults : Faults) (inMailbox : Option Text) :
    Exec MetadataStore Error ℤ :=
  match inMailbox.bind mailboxRowId with
  | some id => pure id
  | none => do
    let inbox ← ensureMailbox faults accountId .inbox
    pure inbox.id

section
variable (P : Primitives) (R : Reader) (accountPriv : Bytes) (accountId searched : ℤ)
  (faults : Faults) (messages : ℕ → Faults)

/-- The first of the four tests that applies decides; a search is over the session's account. -/
def matchingIds (filter : EmailFilter) : Exec CallState Error (List ℤ) :=
  match filter.text.filter (fun text => !(trim text).isEmpty), filter.hasKeyword,
    filter.notHasKeyword with
  | some text, _, _ => search P R accountPriv searched faults messages text
  | none, some keyword, _ => do
    let rows ← inStores (onMetadata (messagesWithKeyword faults accountId keyword))
    pure (rows.map StoredMessage.id)
  | none, none, some keyword => do
    let rows ← inStores (onMetadata (messagesWithoutKeyword faults accountId keyword))
    pure (shown rows)
  | none, none, none => do
    let mailboxId ← inStores (onMetadata (queriedMailbox accountId faults filter.inMailbox))
    let rows ← inStores (onMetadata (messagesInMailbox faults accountId mailboxId))
    pure (shown rows)

def emailQuery (args : EmailQueryArgs) : Exec CallState MethodError EmailQueryResult := do
  let ids ← (matchingIds P R accountPriv accountId searched faults messages args.filter).mapErr
    serverFail
  let position := (max args.position 0).toNat
  pure
    { position, total := ids.length
      ids := ((ids.drop position).take (args.limit.getD 50)).map fun id => 'm' :: showInt id }

end

/-! ## Emails -/

structure EmailGetArgs where
  ids : List Text
  properties : Option (List Text)
  deriving DecidableEq

structure EmailGetResult where
  list : List EmailObject
  notFound : List Text
  deriving DecidableEq

structure EmailGetIo where
  rows : Faults
  opens : ℕ → Faults
  snoozes : Faults
  nudges : Faults

def fireAtOf (pending : List ScheduledEvent) (id : Text) : Option ℤ :=
  (pending.filter fun ev => ev.payload == some id).getLast?.map ScheduledEvent.fireAt

section
variable (P : Primitives) (R : Reader) (accountPriv : Bytes) (accountId : ℤ)

def openAndParse (faults : Faults) (properties : Option (List Text)) (stored : StoredMessage) :
    Exec Stores Error EmailObject := do
  let raw ← openMessage P faults stored accountPriv
  pure (emailObject R properties stored (R.parse raw))

def getEmail (rows : List StoredMessage) (properties : Option (List Text)) (faults : Faults)
    (id : Text) (rowId : ℤ) : Exec Stores Text EmailObject :=
  match (findBy StoredMessage.id rowId rows).filter fun m => m.accountId = accountId with
  | none => Exec.throw id
  | some stored => (openAndParse P R accountPriv faults properties stored).mapErr fun _ => id

/-- The objects of the requested ids, with the timers of the account filled in; a failed query of
the timers leaves them out. -/
def emailGet (io : EmailGetIo) (args : EmailGetArgs) : Exec Stores MethodError EmailGetResult := do
  let requested := args.ids.filterMap fun id => (emailRowId id).map fun rowId => (id, rowId)
  let rows ← (onMetadata (getMessages io.rows (requested.map Prod.snd))).mapErr serverFail
  let outcomes ← eachItem
    (fun k i => getEmail P R accountPriv accountId rows args.properties (io.opens k) i.1 i.2) 0 requested
  let snoozes ← (onQueue (pendingEventsForAccount io.snoozes accountId .snoozeResurface)).attempt
  let nudges ← (onQueue (pendingEventsForAccount io.nudges accountId .followupNudge)).attempt
  pure
    { list := (outcomes.filterMap fun o => o.2.toOption).map fun obj =>
        { obj with
          snoozedUntil := snoozes.toOption.bind fun evs => fireAtOf evs obj.id
          nudgeAt := nudges.toOption.bind fun evs => fireAtOf evs obj.id }
      notFound := (args.ids.filter fun id => (emailRowId id).isNone) ++
        outcomes.filterMap fun o => match o.2 with
          | .ok _ => none
          | .error id => some id }

end

/-! ## Threads -/

structure ThreadObject where
  id : Text
  emailIds : List Text
  deriving DecidableEq

structure ThreadGetResult where
  list : List ThreadObject
  notFound : List Text
  deriving DecidableEq

def threadRowId : Text → Option ℤ
  | 't' :: digits => parseI64 digits
  | _ => none

def earliestFirst (rows : List StoredMessage) : List StoredMessage :=
  rows.insertionSort fun a b => a.receivedAt ≤ b.receivedAt

section
variable (accountId : ℤ)

/-- One requested thread; a failed query, or a thread without messages of the account, is not
found. -/
def getThread (faults : Faults) (id : Text) : Exec Stores Unit ThreadObject :=
  match threadRowId id with
  | none => Exec.throw ()
  | some rowId => do
    match ← (onMetadata (messagesInThread faults accountId rowId)).attempt with
    | .ok (m :: ms) =>
      pure { id, emailIds := (earliestFirst (m :: ms)).map fun m => 'm' :: showInt m.id }
    | _ => Exec.throw ()

def threadGet (faults : ℕ → Faults) (ids : List Text) : Exec Stores MethodError ThreadGetResult := do
  let outcomes ← eachItem (fun k id => getThread accountId (faults k) id) 0 ids
  pure
    { list := outcomes.filterMap fun o => o.2.toOption
      notFound := (outcomes.filter fun o => !o.2.isOk).map Prod.fst }

end
end Litterae.Jmap
