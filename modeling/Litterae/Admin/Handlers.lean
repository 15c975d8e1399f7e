import Litterae.Admin.Programs
import Litterae.Foundations.Lines

/-! # The administration interface (`admin/src/{handlers,router}.rs`)

`handle` is the router. The requests on credentials are the programs of `Admin.Programs`, run without
interruption; the other handlers have a function each.
-/

namespace Litterae.Admin
open Foundations Exec Input

structure LogQuery where
  since : Option ℤ
  until_ : Option ℤ
  level : Option Text
  limit : Option ℕ
  deriving DecidableEq

inductive Endpoint where
  | status
  | login (username password : Text)
  | logout
  | changePassword (currentPassword newPassword : Text)
  | mfaVerify (code : Text)
  | mfaEnroll
  | mfaConfirm (code : Text)
  | mfaDisable (password : Text)
  | listDomains
  | createDomain (name : Text) (catchAllLocalPart : Option Text)
  | updateDomain (id : ℤ) (catchAllLocalPart : Option Text)
  | deleteDomain (id : ℤ)
  | domainDkim (id : ℤ)
  | verifyDomain (id : ℤ)
  | listAccounts
  | createAccount (localPart domain password : Text)
  | deleteAccount (id : ℤ)
  | queueStatus
  | auditLog
  | logs (query : LogQuery)
  deriving DecidableEq

namespace Handlers
variable (P : Primitives) (config : Config) (io : Io)

/-- A request on credentials that nothing interrupts. -/
def alone (c : Call) : Exec AppState StatusCode Response :=
  (program P config c).exec (sem P config io)

def mfaVerify (authorization : Option Text) (code : Text) : Exec AppState StatusCode Response :=
  alone P config io (.mfaVerify authorization code)

/-- `require_admin`, which the handlers of this module call first. -/
def requireAdmin (authorization : Option Text) : Exec AppState StatusCode ℤ :=
  (Programs.requireAdmin authorization).exec (sem P config io)

def status : Exec AppState StatusCode Response := do
  let hasAdmin ← orInternal (onAdmin (AdminStore.hasAdmin io.faults))
  let domains ← orInternal (onAdmin (AdminStore.listDomains io.faults))
  let accounts ← orInternal (onAccounts (AuthStore.listAccounts io.faults))
  pure (.status hasAdmin domains.length accounts.length)

/-! ## Domains -/

def domainResponse (d : Domain) : DomainResponse :=
  { id := d.id, name := d.name, catchAllLocalPart := d.catchAllLocalPart
    verificationToken := d.verificationToken, verified := d.verifiedAt.isSome }

def listDomains (authorization : Option Text) : Exec AppState StatusCode Response := do
  let _ ← requireAdmin P config io authorization
  let domains ← orInternal (onAdmin (AdminStore.listDomains io.faults))
  pure (.domains (domains.map domainResponse))

def validCatchAll (catchAllLocalPart : Option Text) : Bool :=
  catchAllLocalPart.all validLocalPart

def createDomain (authorization : Option Text) (name : Text) (catchAllLocalPart : Option Text) :
    Exec AppState StatusCode Response := do
  let _ ← requireAdmin P config io authorization
  throwIf (!validDomainName name || !validCatchAll catchAllLocalPart)
    .unprocessableEntity
  let domain ← orStatus .conflict (onAdmin
    (AdminStore.createDomain io.faults (io.now 0) io.domainToken name catchAllLocalPart))
  audit P io "admin.domain_create" domain.name
  pure (.domain (domainResponse domain))

def updateDomain (authorization : Option Text) (id : ℤ) (catchAllLocalPart : Option Text) :
    Exec AppState StatusCode Response := do
  let _ ← requireAdmin P config io authorization
  throwIf (!validCatchAll catchAllLocalPart) .unprocessableEntity
  orInternal (onAdmin (AdminStore.setCatchAll io.faults id catchAllLocalPart))
  audit P io "admin.domain_update" (showInt id)
  pure .noContent

def deleteDomain (authorization : Option Text) (id : ℤ) : Exec AppState StatusCode Response := do
  let _ ← requireAdmin P config io authorization
  orInternal (onAdmin (AdminStore.deleteDomain io.faults id))
  audit P io "admin.domain_delete" (showInt id)
  pure .noContent

/-- `dns_txt_record`, which expects the stored key to be PKCS#1. -/
def dnsTxtRecord (key : Queue.DomainKey) : Option Text :=
  (P.spkiOfPkcs1 key.publicDer).map fun der => "v=DKIM1; k=rsa; p=" ++ P.base64Encode der

def domainDkim (authorization : Option Text) (id : ℤ) : Exec AppState StatusCode Response := do
  let _ ← requireAdmin P config io authorization
  let domain ← orInternal (onAdmin (AdminStore.getDomain io.faults id))
  let domain ← ofOption .notFound domain
  let key ← orInternal (onQueueStore (Queue.ensureDkimKey io.faults io.generated domain.name))
  let recordValue ← orPanic (dnsTxtRecord P key)
  pure (.dkim domain.name key.selector (key.selector ++ "._domainkey." ++ domain.name)
    recordValue)

def verificationLabel : Text := "_litterae-challenge"

def verifyDomain (authorization : Option Text) (id : ℤ) : Exec AppState StatusCode Response := do
  let _ ← requireAdmin P config io authorization
  let domain ← orInternal (onAdmin (AdminStore.getDomain io.faults id))
  let domain ← ofOption .notFound domain
  let expected := "litterae-verify=" ++ domain.verificationToken
  let verified := io.txtRecords.any fun r => trim r == expected
  if verified then do
    orInternal (onAdmin (AdminStore.markDomainVerified io.faults id (io.now 0)))
    audit P io "admin.domain_verified" domain.name
  pure (.verifyDomain verified (verificationLabel ++ ['.'] ++ domain.name) expected)

/-! ## Accounts and the queue -/

def accountResponse (a : Account) : AccountResponse :=
  { id := a.id, address := address a, createdAt := a.createdAt }

def listAccounts (authorization : Option Text) : Exec AppState StatusCode Response := do
  let _ ← requireAdmin P config io authorization
  let accounts ← orInternal (onAccounts (AuthStore.listAccounts io.faults))
  pure (.accounts (accounts.map accountResponse))

def createAccount (authorization : Option Text) (localPart domain password : Text) :
    Exec AppState StatusCode Response := do
  let _ ← requireAdmin P config io authorization
  throwIf (!validLocalPart localPart || !validDomainName domain ||
    decide (byteLen password < 12)) .unprocessableEntity
  let known ← orInternal (onAdmin (AdminStore.getDomainByName io.faults domain))
  throwIf known.isNone .unprocessableEntity
  let account ← orStatus .conflict (onAccounts
    (AuthStore.provision P io.faults (io.now 0) io.salt io.accountPub localPart domain
      (utf8 password)))
  audit P io "admin.account_create" (address account)
  pure (.account (accountResponse account))

def deleteAccount (authorization : Option Text) (id : ℤ) : Exec AppState StatusCode Response := do
  let _ ← requireAdmin P config io authorization
  orInternal (onAccounts (AuthStore.deleteAccount io.faults id))
  audit P io "admin.account_delete" (showInt id)
  pure .noContent

def recentFailureResponse (r : Queue.OutboundRecipient) : RecentFailureResponse :=
  { id := r.id, rcptTo := r.rcptTo, domain := r.domain, attempts := r.attempts
    lastCode := r.lastCode, lastStatus := r.lastStatus, lastDetail := r.lastDetail }

def queueStatus (authorization : Option Text) : Exec AppState StatusCode Response := do
  let _ ← requireAdmin P config io authorization
  let metrics ← orInternal (onQueueStore (metrics io.faults))
  let failures ← orInternal (onQueueStore (recentFailures io.faults 20))
  pure (.queue metrics (failures.map recentFailureResponse))

/-! ## The audit log and the log files -/

def auditLog (authorization : Option Text) : Exec AppState StatusCode Response := do
  let token ← ofOption .unauthorized (bearerToken authorization)
  let session ← touchAt io 0 token
  let _ ← ofOption .unauthorized (session.map Session.adminId)
  let session ← touchAt io 1 token
  let wrapKey ← ofOption .unauthorized (session.map Session.wrapKey)
  let entries ← orInternal (onAudit (Audit.readRecent P io.faults wrapKey 100))
  pure (.audit entries)

def defaultLogLimit : ℕ := 200

def maxLogLimit : ℕ := 1000

def defaultLogWindowSecs : ℤ := 24 * 60 * 60

/-- An `i64` that has wrapped around. -/
def wrapI64 (n : ℤ) : ℤ := (n + 2 ^ 63) % 2 ^ 64 - 2 ^ 63

/-- `OffsetDateTime::from_unix_timestamp`, in nanoseconds: the years from -9999 to 9999. -/
def fromUnixTimestamp (t : ℤ) : Option ℤ :=
  if -377705116800 ≤ t ∧ t ≤ 253402300799 then some (t * 1000000000) else none

/-- A line of `str::lines`, from the piece up to and including its line feed. -/
def stripLineEnd (line : Text) : Text :=
  if line.getLast? = some '\n' then
    if line.dropLast.getLast? = some '\r' then line.dropLast.dropLast else line.dropLast
  else line

def logLines (files : List (Text × Option Text)) : List Text :=
  let named := files.filter fun f => (stripStart "litterae.log" f.1).isSome
  (named.insertionSort fun f g => textLe f.1 g.1).reverse.flatMap fun f =>
    match f.2 with
    | some content => ((linesOf '\n' content).map stripLineEnd).reverse
    | none => []

/-- `parse_log_line`: the time, the level in upper case and the value. -/
def parseLogLine (line : Text) : Option (ℤ × Text × Text) := do
  let timestamp ← P.jsonField line "timestamp"
  let ts ← P.rfc3339 timestamp
  let level ← P.jsonField line "level"
  pure (ts, P.toUppercase level, line)

def matchLogLine (since until_ : ℤ) (level : Option Text) (line : Text) : Option Text :=
  match parseLogLine P line with
  | none => none
  | some (ts, lineLevel, value) =>
    if ts < since ∨ until_ < ts then none
    else if level.all (fun want => lineLevel == want) then some value
    else none

def logs (authorization : Option Text) (query : LogQuery) : Exec AppState StatusCode Response := do
  let _ ← requireAdmin P config io authorization
  if !config.logging then pure (.logs [])
  else do
    let files ← ofOption .internalServerError io.readDir
    let until_ := query.until_.getD (io.now 0)
    let since := query.since.getD (wrapI64 (until_ - defaultLogWindowSecs))
    let limit := min (query.limit.getD defaultLogLimit) maxLogLimit
    let wanted := matchLogLine P ((fromUnixTimestamp since).getD 0)
      ((fromUnixTimestamp until_).getD io.nowNanos) (query.level.map P.toUppercase)
    pure (.logs (((logLines files).filterMap wanted).take limit))

end Handlers

/-! ## Requests and startup -/

section
variable (P : Primitives) (config : Config)

def handle (io : Io) (authorization : Option Text) : Endpoint → Exec AppState StatusCode Response
  | .status => Handlers.status io
  | .login username password => Handlers.alone P config io (.login username password)
  | .logout => Handlers.alone P config io (.logout authorization)
  | .changePassword currentPassword newPassword =>
    Handlers.alone P config io (.changePassword authorization currentPassword newPassword)
  | .mfaVerify code => Handlers.mfaVerify P config io authorization code
  | .mfaEnroll => Handlers.alone P config io (.mfaEnroll authorization)
  | .mfaConfirm code => Handlers.alone P config io (.mfaConfirm authorization code)
  | .mfaDisable password => Handlers.alone P config io (.mfaDisable authorization password)
  | .listDomains => Handlers.listDomains P config io authorization
  | .createDomain name catchAllLocalPart =>
    Handlers.createDomain P config io authorization name catchAllLocalPart
  | .updateDomain id catchAllLocalPart =>
    Handlers.updateDomain P config io authorization id catchAllLocalPart
  | .deleteDomain id => Handlers.deleteDomain P config io authorization id
  | .domainDkim id => Handlers.domainDkim P config io authorization id
  | .verifyDomain id => Handlers.verifyDomain P config io authorization id
  | .listAccounts => Handlers.listAccounts P config io authorization
  | .createAccount localPart domain password =>
    Handlers.createAccount P config io authorization localPart domain password
  | .deleteAccount id => Handlers.deleteAccount P config io authorization id
  | .queueStatus => Handlers.queueStatus P config io authorization
  | .auditLog => Handlers.auditLog P io authorization
  | .logs query => Handlers.logs P config io authorization query

structure Request where
  io : Io
  authorization : Option Text
  endpoint : Endpoint

def serve (s : AppState) (req : Request) : AppState :=
  (handle P config req.io req.authorization req.endpoint s).2

def insecureBootstrapPassword (password : Text) : Bool :=
  password == "change-me-please" ||
    password == "REPLACE_WITH_A_STRONG_UNIQUE_PASSWORD" || decide (byteLen password < 12)

/-- `AppState::new` over empty stores, with the timeouts of `router.rs`. -/
def AppState.fresh : AppState where
  adminStore := .empty
  accounts := []
  queueStore := .empty
  auditStore := .empty
  sessions := .new (30 * 60)
  loginThrottle := .new 1 60

/-- The bootstrap of `main`, with the credentials of the configuration: `none` is an exit. -/
def startup (io : Io) (draw : Audit.KeyDraw) (username password : Text) (s : AppState) :
    Option AppState :=
  match AdminStore.hasAdmin io.faults s.adminStore with
  | (.ok false, _) =>
    if insecureBootstrapPassword password then none
    else
      match AdminStore.bootstrap P io.faults (io.now 0) io.salt username (utf8 password)
          s.adminStore with
      | (.ok (some pk), adminStore) =>
        some { s with
          adminStore
          auditStore := (Audit.bootstrapKeys P io.faults draw pk s.auditStore).2 }
      | (_, adminStore) => some { s with adminStore }
  | _ => some s

end

end Litterae.Admin
