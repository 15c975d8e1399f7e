import Litterae.Jmap.Settings
import Litterae.Jmap.Submission

/-! # The mailbox API (`jmap/src/{api,handlers}.rs`)

A request names a session by its token. The account it acts for is the session's, and with it go the
keys and the address the session was opened with; the account's row is not looked at again.
-/

namespace Litterae.Jmap
open Foundations Store Delivery Queue Exec

structure Environment where
  P : Primitives
  C : Composer
  R : Reader
  J : ContactCodec
  maxUploadSize : ℕ

/-! ## Method calls -/

/-- `AccountContext`: the account id as the number its text parses to; `searched` is the account the
search function was made for. -/
structure CallContext extends AccountContext where
  accountId : ℤ
  searched : ℤ
  amk : Bytes

/-- What `serde_json::from_value` makes of the arguments: its error, or the `accountId` and the
rest. -/
abbrev Parsed (α : Type) := Except Text (Text × α)

inductive Invocation where
  | mailboxGet (args : Parsed Unit)
  | emailQuery (args : Parsed EmailQueryArgs)
  | emailGet (args : Parsed EmailGetArgs)
  | emailSet (args : Parsed EmailSetArgs)
  | emailSubmissionSet (args : Parsed (List (Text × EmailSubmissionCreateRequest)))
  | threadGet (args : Parsed (List Text))
  | identityGet (args : Parsed (Option (List Text)))
  | identitySet (args : Parsed (List (Text × Option Text)))
  | contactGet (args : Parsed (Option (List Text)))
  | contactSet (args : Parsed ContactSetArgs)
  | unknown (name : Text)

structure MethodCall where
  invocation : Invocation
  callId : Text

inductive Answer where
  | mailboxes (list : List MailboxObject)
  | queried (result : EmailQueryResult)
  | emails (result : EmailGetResult)
  | emailsSet (result : EmailSetResult)
  | submitted (result : EmailSubmissionSetResult)
  | threads (result : ThreadGetResult)
  | identities (result : IdentityGetResult)
  | identitiesSet (result : List (Text × Except SetError Unit))
  | contacts (result : ContactGetResult)
  | contactsSet (result : ContactSetResult)

/-- The method's name and its result, or `error` and what went wrong. -/
structure MethodResponse where
  name : Text
  result : Except MethodError Answer
  callId : Text

/-- What one method call meets outside the program: each method uses its own part. -/
structure CallIo where
  faults : Faults
  items : ℕ → Faults
  emailGet : EmailGetIo
  emailSet : EmailSetIo
  submissions : ℕ → SubmitDraw
  signatures : ℕ → SealDraw
  contactSet : ContactSetIo

def withArgs {σ α β : Type} (accountId : ℤ) (args : Parsed α) (f : α → Exec σ MethodError β) :
    Exec σ MethodError β :=
  match args with
  | .error e => Exec.throw (.invalidArguments e)
  | .ok (id, a) => if id ≠ showInt accountId then Exec.throw .accountNotFound else f a

section
variable (E : Environment) (io : CallIo) (ctx : CallContext)

def invoke : Invocation → Exec CallState MethodError Answer
  | .mailboxGet args => withArgs ctx.accountId args fun _ => do
    let list ← inStores (mailboxGet ctx.accountId io.faults io.items)
    pure (.mailboxes list)
  | .emailQuery args => withArgs ctx.accountId args fun args => do
    let result ← emailQuery E.P E.R ctx.accountPriv ctx.accountId ctx.searched io.faults io.items args
    pure (.queried result)
  | .emailGet args => withArgs ctx.accountId args fun args => do
    let result ← inStores (emailGet E.P E.R ctx.accountPriv ctx.accountId io.emailGet args)
    pure (.emails result)
  | .emailSet args => withArgs ctx.accountId args fun args => do
    let result ← inStores (emailSet E.P E.C io.emailSet ctx.toAccountContext ctx.accountId args)
    pure (.emailsSet result)
  | .emailSubmissionSet args => withArgs ctx.accountId args fun create => do
    let result ← inStores (emailSubmissionSet E.P ctx.toAccountContext ctx.accountId io.submissions 0
      create)
    pure (.submitted result)
  | .threadGet args => withArgs ctx.accountId args fun ids => do
    let result ← inStores (threadGet ctx.accountId io.items ids)
    pure (.threads result)
  | .identityGet args => withArgs ctx.accountId args fun ids => do
    let result ← inStores (identityGet E.P ctx.accountId ctx.amk io.faults ctx.address ids)
    pure (.identities result)
  | .identitySet args => withArgs ctx.accountId args fun update => do
    let result ← inStores (identitySet E.P ctx.accountId ctx.amk io.signatures update)
    pure (.identitiesSet result)
  | .contactGet args => withArgs ctx.accountId args fun ids => do
    let result ← inStores (contactGet E.P E.J ctx.accountId ctx.amk io.items ids)
    pure (.contacts result)
  | .contactSet args => withArgs ctx.accountId args fun args => do
    let result ← inStores (contactSet E.P E.J ctx.accountId ctx.amk io.contactSet args)
    pure (.contactsSet result)
  | .unknown name => Exec.throw (.unknownMethod name)

def Invocation.name : Invocation → Text
  | .mailboxGet _ => "Mailbox/get"
  | .emailQuery _ => "Email/query"
  | .emailGet _ => "Email/get"
  | .emailSet _ => "Email/set"
  | .emailSubmissionSet _ => "EmailSubmission/set"
  | .threadGet _ => "Thread/get"
  | .identityGet _ => "Identity/get"
  | .identitySet _ => "Identity/set"
  | .contactGet _ => "Contact/get"
  | .contactSet _ => "Contact/set"
  | .unknown name => name

def dispatch {ε : Type} (call : MethodCall) : Exec CallState ε MethodResponse := do
  let result ← (invoke E io ctx call.invocation).attempt
  pure
    { name := if result.isOk then call.invocation.name else "error", result
      callId := call.callId }

end

/-! ## Sessions and requests -/

section
variable {α : Type}

def inSession (token : Text) (x : Exec CallState StatusCode α) : Exec AppState StatusCode α :=
  x.zoom
    (fun s => { stores := s.stores, searchIndex := (s.sessions.sessions token).bind Session.searchIndex })
    fun c s =>
      { s with
        stores := c.stores
        sessions := s.sessions.put token ((s.sessions.sessions token).map fun session =>
          { session with searchIndex := c.searchIndex }) }

/-- `account_id`, with the 401 its callers answer without a session. -/
def accountIdOf (now : ℕ) (token : Text) : Exec AppState StatusCode ℤ := do
  let session ← onSessions (SessionRegistry.touch now token)
  ofOption .unauthorized (session.map Session.accountId)

/-- `with_session` and `with_account`, with the 401 their callers answer without a session. -/
def withSession (now : ℕ) (token : Text) (f : Session → Exec CallState StatusCode α) :
    Exec AppState StatusCode α := do
  let found ← onSessions (SessionRegistry.touch now token)
  let session ← ofOption .unauthorized found
  inSession token (f session)

end

def parseUsize (s : Text) : Option ℕ :=
  (match s with
    | '+' :: digits => parseDigits digits
    | digits => parseDigits digits).filter fun n => decide (n < 2 ^ 64)

def maxAppPasswordLabelLen : ℕ := 100

/-- What one request meets outside the program: clock readings, failing calls, what is drawn at
random, whether a permit is left, and the virus scanner's verdict if one is configured. -/
structure RequestIo where
  instants : ℕ → ℕ
  now : ℤ
  faults : Faults
  calls : ℕ → CallIo
  sealing : Draw
  appPassword : AppPasswordDraw
  permit : Bool
  scan : Option (Except Text Bool)
  auditOk : Bool

inductive Request where
  | session
  | api (calls : List MethodCall)
  | download (blobId : Text)
  | upload (filename contentType : Option Text) (body : Bytes)
  | listAppPasswords
  | createAppPassword (label scope : Text)
  | revokeAppPassword (id : ℤ)
  | lock

structure UploadResponse where
  accountId : Text
  blobId : Text
  contentType : Text
  size : ℤ
  deriving DecidableEq

inductive Reply where
  | session (accountId : Text)
  | responses (list : List MethodResponse)
  | blob (filename contentType : Text) (bytes : Bytes)
  | uploaded (response : UploadResponse)
  | appPasswords (list : List AppPasswordSummary)
  | appPassword (summary : AppPasswordSummary) (password : Text)
  | noContent

section
variable (E : Environment) (io : RequestIo)

def contextOf (accountId : ℤ) (session : Session) : CallContext where
  accountPriv := session.unlocked.accountPriv
  accountPub := session.identity.accountPub
  keyId := session.identity.keyId
  address := session.identity.address
  maxUploadSize := E.maxUploadSize
  accountId := accountId
  searched := session.accountId
  amk := session.unlocked.amk

def callMethod (callIo : CallIo) (now : ℕ) (token : Text) (accountId : ℤ) (call : MethodCall) :
    Exec AppState StatusCode MethodResponse :=
  withSession now token fun session => dispatch E callIo (contextOf E accountId session) call

def callMethods (token : Text) (accountId : ℤ) :
    ℕ → List MethodCall → Exec AppState StatusCode (List MethodResponse)
  | _, [] => pure []
  | k, call :: rest => do
    let response ← callMethod E (io.calls k) (io.instants (k + 1)) token accountId call
    let responses ← callMethods token accountId (k + 1) rest
    pure (response :: responses)

def jmapApi (token : Text) (calls : List MethodCall) :
    Exec AppState StatusCode (List MethodResponse) := do
  let accountId ← accountIdOf (io.instants 0) token
  callMethods E io token accountId 0 calls

def messagePart (faults : Faults) (accountId : ℤ) (accountPriv : Bytes) (messageId : ℤ) (index : ℕ) :
    Exec Stores Unit (Text × Text × Bytes) := do
  let found ← (onMetadata (getMessage faults messageId)).mapErr fun _ => ()
  let stored ← ofOption () (found.filter fun m => m.accountId = accountId)
  let raw ← (openMessage E.P faults stored accountPriv).mapErr fun _ => ()
  let message ← ofOption () (E.R.parse raw)
  let part ← ofOption () message.attachments[index]?
  pure (part.name.getD "attachment", contentTypeText part, part.contents)

def uploadedFile (faults : Faults) (accountId : ℤ) (accountPriv : Bytes) (uploadId : ℤ) :
    Exec Stores Unit (Text × Text × Bytes) := do
  let found ← (onMetadata (getUpload faults uploadId)).mapErr fun _ => ()
  let stored ← ofOption () (found.filter fun u => u.accountId = accountId)
  let bytes ← (openBlob E.P faults stored.blobHash stored.dekWrap accountPriv).mapErr fun _ => ()
  pure (stored.filename, stored.contentType, bytes)

/-- What a blob id names: part `index` of message `m{id}.{index}`, or upload `u{id}`. -/
inductive BlobId where
  | part (messageId : ℤ) (index : ℕ)
  | upload (id : ℤ)
  deriving DecidableEq

def parseBlobId : Text → Option BlobId
  | 'm' :: rest => do
    let (messageId, index) ← splitOnce '.' rest
    let messageId ← parseI64 messageId
    let index ← parseUsize index
    pure (.part messageId index)
  | 'u' :: rest => (parseI64 rest).map .upload
  | _ => none

/-- `resolve_blob`: a missing blob and another account's are the same `none`. -/
def resolveBlob (faults : Faults) (accountId : ℤ) (accountPriv : Bytes) (blobId : Text) :
    Exec Stores Unit (Text × Text × Bytes) :=
  match parseBlobId blobId with
  | none => Exec.throw ()
  | some (.part messageId index) => messagePart E faults accountId accountPriv messageId index
  | some (.upload id) => uploadedFile E faults accountId accountPriv id

def download (token blobId : Text) : Exec AppState StatusCode Reply := do
  let (filename, contentType, bytes) ← withSession (io.instants 0) token fun session =>
    inStores ((resolveBlob E io.faults session.accountId session.unlocked.accountPriv blobId).mapErr
      fun _ => .notFound)
  pure (.blob filename contentType bytes)

def scanVerdict : Option (Except Text Bool) → Except StatusCode Unit
  | none => .ok ()
  | some (.ok true) => .ok ()
  | some (.ok false) => .error .unprocessableEntity
  | some (.error _) => .error .serviceUnavailable

def storeUpload (session : Session) (filename contentType : Text) (body : Bytes) :
    Exec Stores StatusCode UploadResponse := do
  let (blobHash, dekWrap) ← (sealForAccount E.P io.sealing session.identity.accountPub
    session.identity.keyId body).mapErr fun _ => .internalServerError
  let uploadId ← (onMetadata (insertUpload io.faults
    { accountId := session.accountId, blobHash, dekWrap, keyId := session.identity.keyId, filename
      contentType, sizeBytes := body.length, createdAt := io.now })).mapErr
    fun _ => .internalServerError
  pure
    { accountId := showInt session.accountId, blobId := 'u' :: showInt uploadId, contentType
      size := body.length }

def upload (token : Text) (filename contentType : Option Text) (body : Bytes) :
    Exec AppState StatusCode Reply := do
  let filename := filename.getD "attachment"
  let contentType := contentType.getD "application/octet-stream"
  throwIf (!Input.validHeaderValue filename || !Input.validHeaderValue contentType) .badRequest
  ofExcept (scanVerdict io.scan)
  let response ← withSession (io.instants 0) token fun session =>
    inStores (storeUpload E io session filename contentType body)
  pure (.uploaded response)

def listAppPasswordsOf (token : Text) : Exec AppState StatusCode Reply := do
  let accountId ← accountIdOf (io.instants 0) token
  let list ← (onStores (listAppPasswords accountId io.faults)).mapErr fun _ => .internalServerError
  pure (.appPasswords list)

def createAppPasswordFor (token label scope : Text) : Exec AppState StatusCode Reply := do
  let label := trim label
  throwIf (label.isEmpty || decide (maxAppPasswordLabelLen < byteLen label)) .unprocessableEntity
  let scope ← ofOption .unprocessableEntity (parseScope scope)
  throwIf (!io.permit) .serviceUnavailable
  let (summary, password) ← withSession (io.instants 0) token fun session =>
    inStores ((createAppPassword E.P session.accountId io.appPassword session.unlocked.amk label
      scope).mapErr fun _ => .internalServerError)
  audit io.auditOk "account.app_password_create" summary.label
  pure (.appPassword summary password)

def revokeAppPasswordOf (token : Text) (id : ℤ) : Exec AppState StatusCode Reply := do
  let accountId ← accountIdOf (io.instants 0) token
  (onStores (revokeAppPassword accountId io.faults id)).mapErr fun _ => .internalServerError
  audit io.auditOk "account.app_password_revoke" (showInt id)
  pure .noContent

/-- `lock`: whatever the token names is removed. -/
def lock (token : Text) : Exec AppState StatusCode Reply := do
  let session ← onSessions (SessionRegistry.touch (io.instants 0) token)
  whenSome session fun session => audit io.auditOk "session.close" (showInt session.accountId)
  onSessions fun r => ((), r.remove token)
  pure .noContent

def serve (token : Text) : Request → Exec AppState StatusCode Reply
  | .session => do
    let accountId ← accountIdOf (io.instants 0) token
    pure (.session (showInt accountId))
  | .api calls => do
    let responses ← jmapApi E io token calls
    pure (.responses responses)
  | .download blobId => download E io token blobId
  | .upload filename contentType body => upload E io token filename contentType body
  | .listAppPasswords => listAppPasswordsOf io token
  | .createAppPassword label scope => createAppPasswordFor E io token label scope
  | .revokeAppPassword id => revokeAppPasswordOf io token id
  | .lock => lock io token

end
end Litterae.Jmap
