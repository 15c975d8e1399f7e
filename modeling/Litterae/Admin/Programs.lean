import Litterae.Admin.Session
import Litterae.Admin.Store
import Litterae.Audit.Store
import Litterae.Common.Throttle
import Litterae.Foundations.Program
import Litterae.Queue.Enqueue

/-! # The requests on an administrator's credentials, call by call (`admin/src/handlers.rs`)

Requests run concurrently. What one of them does at once is a call of a store or of a registry,
which holds its lock for that call and no longer, so between two calls anything may happen. A request
ends with a response or with a status code; what it has written by then stays written.
-/

namespace Litterae.Admin
open Foundations Exec Input

inductive StatusCode where
  | badRequest
  | unauthorized
  | forbidden
  | notFound
  | conflict
  | unprocessableEntity
  | tooManyRequests
  | internalServerError
  | serviceUnavailable
  deriving DecidableEq

/-- The part of `AppState` that requests change. -/
structure AppState where
  adminStore : AdminStore
  accounts : List Account
  queueStore : Queue.QueueStore
  auditStore : Audit.AuditStore
  sessions : AdminSessionRegistry
  loginThrottle : LoginThrottle

/-- The part of `AppState` that is fixed at startup. -/
structure Config where
  serverDomain : Text
  logging : Bool

structure Io where
  faults : Faults
  instants : ℕ → ℕ
  now : ℕ → ℤ
  nowNanos : ℤ
  /-- A permit of the password semaphore is given. -/
  permit : Bool
  tokenBytes : Block 32
  salt : Block 16
  nonce : ℕ → Block 24
  hpkeRandom : Bytes
  totpSecret : Bytes
  recoveryCodes : List Bytes
  domainToken : Block 16
  accountPub : Block 32
  generated : Except Text (Bytes × Bytes)
  txtRecords : List Text
  /-- The names and contents of the files in the log directory, if it can be listed. -/
  readDir : Option (List (Text × Option Text))

structure DomainResponse where
  id : ℤ
  name : Text
  catchAllLocalPart : Option Text
  verificationToken : Text
  verified : Bool
  deriving DecidableEq

structure AccountResponse where
  id : ℤ
  address : Text
  createdAt : ℤ
  deriving DecidableEq

structure RecentFailureResponse where
  id : ℤ
  rcptTo : Text
  domain : Text
  attempts : ℤ
  lastCode : Option ℕ
  lastStatus : Option Text
  lastDetail : Option Text
  deriving DecidableEq

inductive Response where
  | noContent
  | status (hasAdmin : Bool) (domainCount accountCount : ℕ)
  | login (token : Text) (mustChangePassword mfaRequired : Bool)
  | mfaVerify (mustChangePassword : Bool)
  | mfaEnroll (secret otpauthUrl : Text)
  | mfaConfirm (recoveryCodes : List Text)
  | domains (list : List DomainResponse)
  | domain (domain : DomainResponse)
  | dkim (domain selector recordName recordValue : Text)
  | verifyDomain (verified : Bool) (recordName recordValue : Text)
  | accounts (list : List AccountResponse)
  | account (account : AccountResponse)
  | queue (metrics : QueueMetrics) (recentFailures : List RecentFailureResponse)
  | audit (entries : List Audit.Entry)
  | logs (values : List Text)
  deriving DecidableEq

/-! ## Running store operations on the shared state -/

section
variable {α : Type}

def onAdmin (x : Exec AdminStore Error α) : Exec AppState Error α :=
  x.zoom AppState.adminStore fun a s => { s with adminStore := a }

def onAccounts (x : Exec (List Account) Error α) : Exec AppState Error α :=
  x.zoom AppState.accounts fun a s => { s with accounts := a }

def onQueueStore (x : Exec Queue.QueueStore Error α) : Exec AppState Error α :=
  x.zoom AppState.queueStore fun q s => { s with queueStore := q }

def onAudit (x : Exec Audit.AuditStore Error α) : Exec AppState Error α :=
  x.zoom AppState.auditStore fun a s => { s with auditStore := a }

def onSessions (f : AdminSessionRegistry → α × AdminSessionRegistry) :
    Exec AppState StatusCode α :=
  Exec.update fun s => ((f s.sessions).1, { s with sessions := (f s.sessions).2 })

def onThrottle (f : LoginThrottle → LoginThrottle) : Exec AppState StatusCode Unit :=
  Exec.modify fun s => { s with loginThrottle := f s.loginThrottle }

def orStatus (code : StatusCode) (x : Exec AppState Error α) : Exec AppState StatusCode α :=
  x.mapErr fun _ => code

def orInternal (x : Exec AppState Error α) : Exec AppState StatusCode α :=
  orStatus .internalServerError x

end

def showInt (n : ℤ) : Text := (toString n).toList

/-- `bearer_token`, of an `Authorization` header that is readable text. -/
def bearerToken (authorization : Option Text) : Option Text :=
  authorization.bind (stripStart "Bearer ")

namespace Handlers
variable (P : Primitives) (io : Io)

def audit (action : String) (detail : Text) : Exec AppState StatusCode Unit :=
  (onAudit (Audit.log P io.faults (io.now 1) (io.now 2) io.hpkeRandom action.toList detail)).ignore

/-- A look at the session of `token`, at the `k`-th reading of the clock. -/
def touchAt (k : ℕ) (token : Text) : Exec AppState StatusCode (Option Session) :=
  onSessions (AdminSessionRegistry.touch (io.instants k) token)

def acquirePermit : Exec AppState StatusCode Unit :=
  throwIf (!io.permit) .serviceUnavailable

def mfaKey (adminId : ℤ) : Text := "mfa:" ++ showInt adminId

inductive Factor where
  | totp
  | recoveryCode
  deriving DecidableEq

end Handlers

/-! ## Calls -/

inductive Op where
  | touch (k : ℕ) (token : Text)
  | createSession (adminId : ℤ) (wrapKey : Block 32) (mustChangePassword mfaPending : Bool)
  | removeSession (token : Text)
  | completePasswordChange (token : Text) (adminId : ℤ) (newWrapKey : Block 32)
  | completeMfa (token : Text) (adminId : ℤ)
  | throttled (k : ℕ) (key : Text)
  | recordFailure (k : ℕ) (key : Text)
  | recordSuccess (key : Text)
  | acquirePermit
  | verifyLogin (username password : Text)
  | usernameForId (adminId : ℤ)
  | changePassword (adminId : ℤ) (newPassword : Text)
  | rewrapAuditKey (oldWrapKey newWrapKey : Block 32)
  | rewrapTotpSecret (adminId : ℤ) (oldWrapKey newWrapKey : Block 32)
  | isTotpEnabled (adminId : ℤ)
  | generateSecret
  | setPendingTotp (adminId : ℤ) (wrapKey : Block 32) (secret : Bytes)
  | totpSecret (adminId : ℤ) (wrapKey : Block 32)
  | checkTotp (secret : Bytes) (username code : Text)
  | generateRecoveryCodes
  | confirmTotp (adminId : ℤ) (hashedRecoveryCodes : List Text)
  | disableTotp (adminId : ℤ)
  | recoveryCodes (adminId : ℤ)
  | setRecoveryCodes (adminId : ℤ) (codes : List Text)
  | audit (action : String) (detail : Text)

abbrev Op.Ret : Op → Type
  | .touch _ _ => Option Session
  | .createSession _ _ _ _ => Text
  | .completePasswordChange _ _ _ | .completeMfa _ _ | .throttled _ _ | .isTotpEnabled _
  | .checkTotp _ _ _ => Bool
  | .verifyLogin _ _ => Option (AdminRecord × Block 32)
  | .usernameForId _ => Option Text
  | .changePassword _ _ => Block 32
  | .generateSecret => Bytes
  | .totpSecret _ _ => Option Bytes
  | .generateRecoveryCodes => List Text × List Text
  | .recoveryCodes _ => List Text
  | .removeSession _ | .recordFailure _ _ | .recordSuccess _ | .acquirePermit
  | .rewrapAuditKey _ _ | .rewrapTotpSecret _ _ _ | .setPendingTotp _ _ _ | .confirmTotp _ _
  | .disableTotp _ | .setRecoveryCodes _ _ | .audit _ _ => Unit

def sem (P : Primitives) (config : Config) (io : Io) : (op : Op) → Exec AppState StatusCode op.Ret
  | .touch k token => Handlers.touchAt io k token
  | .createSession adminId wrapKey mustChangePassword mfaPending =>
    onSessions (AdminSessionRegistry.create io.tokenBytes (io.instants 1) adminId wrapKey
      mustChangePassword mfaPending)
  | .removeSession token => onSessions fun r => ((), r.remove token)
  | .completePasswordChange token adminId newWrapKey =>
    onSessions
      (AdminSessionRegistry.completePasswordChange (io.instants 2) token adminId newWrapKey)
  | .completeMfa token adminId =>
    onSessions (AdminSessionRegistry.completeMfa (io.instants 5) token adminId)
  | .throttled k key => do
    let state ← Exec.get
    pure (!(state.loginThrottle.check (io.instants k) key).isOk)
  | .recordFailure k key => onThrottle fun t => t.recordFailure (io.instants k) key
  | .recordSuccess key => onThrottle fun t => t.recordSuccess key
  | .acquirePermit => Handlers.acquirePermit io
  | .verifyLogin username password =>
    orInternal (onAdmin (AdminStore.verifyLogin P io.faults username (utf8 password)))
  | .usernameForId adminId => orInternal (onAdmin (AdminStore.usernameForId io.faults adminId))
  | .changePassword adminId newPassword =>
    orInternal (onAdmin
      (AdminStore.changePassword P io.faults io.salt adminId (utf8 newPassword)))
  | .rewrapAuditKey oldWrapKey newWrapKey =>
    orInternal (onAudit (Audit.rewrapAuditKey P io.faults (io.nonce 0) oldWrapKey newWrapKey))
  | .rewrapTotpSecret adminId oldWrapKey newWrapKey =>
    orInternal (onAdmin
      (AdminStore.rewrapTotpSecret P io.faults (io.nonce 1) adminId oldWrapKey newWrapKey))
  | .isTotpEnabled adminId => orInternal (onAdmin (AdminStore.isTotpEnabled io.faults adminId))
  | .generateSecret => pure io.totpSecret
  | .setPendingTotp adminId wrapKey secret =>
    orInternal (onAdmin
      (AdminStore.setPendingTotp P io.faults (io.nonce 0) adminId wrapKey secret))
  | .totpSecret adminId wrapKey =>
    orInternal (onAdmin (AdminStore.totpSecret P io.faults adminId wrapKey))
  | .checkTotp secret username code =>
    pure (P.totpCheck secret config.serverDomain username (io.now 0) code)
  | .generateRecoveryCodes => pure (generateRecoveryCodes P io.recoveryCodes)
  | .confirmTotp adminId hashedRecoveryCodes =>
    orInternal (onAdmin (AdminStore.confirmTotp io.faults adminId hashedRecoveryCodes))
  | .disableTotp adminId => orInternal (onAdmin (AdminStore.disableTotp io.faults adminId))
  | .recoveryCodes adminId => orInternal (onAdmin (AdminStore.recoveryCodes io.faults adminId))
  | .setRecoveryCodes adminId codes =>
    orInternal (onAdmin (AdminStore.setRecoveryCodes io.faults adminId codes))
  | .audit action detail => Handlers.audit P io action detail

/-! ## Programs -/

open Program

abbrev Prog (α : Type) := Program Op Op.Ret StatusCode α

abbrev call (op : Op) : Prog op.Ret := perform op

inductive Call where
  | login (username password : Text)
  | logout (authorization : Option Text)
  | changePassword (authorization : Option Text) (currentPassword newPassword : Text)
  | mfaVerify (authorization : Option Text) (code : Text)
  | mfaEnroll (authorization : Option Text)
  | mfaConfirm (authorization : Option Text) (code : Text)
  | mfaDisable (authorization : Option Text) (password : Text)
  deriving DecidableEq

namespace Programs

def requireAdmin (authorization : Option Text) : Prog ℤ := do
  let token ← ofOption .unauthorized (bearerToken authorization)
  let session ← call (.touch 0 token)
  let adminId ← ofOption .unauthorized (session.map Session.adminId)
  let session ← call (.touch 1 token)
  throwIf (session.map Session.mfaPending != some false) .forbidden
  let session ← call (.touch 2 token)
  throwIf (session.map Session.mustChangePassword != some false) .forbidden
  pure adminId

def usernameOf (adminId : ℤ) : Prog Text := do
  let username ← call (.usernameForId adminId)
  ofOption .unauthorized username

/-- `login` once the throttle has let it pass. -/
def loginUnlocked (username password : Text) : Prog Response := do
  call .acquirePermit
  let outcome ← call (.verifyLogin username password)
  match outcome with
  | none => do
    call (.recordFailure 1 username)
    call (.audit "auth.login_failed" username)
    throw .unauthorized
  | some (admin, wrapKey) => do
    call (.recordSuccess username)
    let token ← call (.createSession admin.id wrapKey admin.mustChangePassword admin.totpEnabled)
    call (.audit "auth.login" admin.username)
    pure (.login token admin.mustChangePassword admin.totpEnabled)

def login (username password : Text) : Prog Response := do
  let locked ← call (.throttled 0 username)
  throwIf locked .tooManyRequests
  loginUnlocked username password

def logout (authorization : Option Text) : Prog Response :=
  match bearerToken authorization with
  | none => pure .noContent
  | some token => do
    let session ← call (.touch 0 token)
    match session with
    | some s => call (.audit "session.close" (showInt s.adminId))
    | none => pure ()
    call (.removeSession token)
    pure .noContent

/-- The end of `change_password`: the calling session goes on with the new key. -/
def keepSession (token : Text) (adminId : ℤ) (username : Text) (newWrapKey : Block 32) :
    Prog Response := do
  let completed ← call (.completePasswordChange token adminId newWrapKey)
  throwIf (!completed) .unauthorized
  call (.audit "admin.password_change" username)
  pure .noContent

/-- `change_password` from the new password on. -/
def rekey (token : Text) (adminId : ℤ) (username : Text) (oldWrapKey : Block 32)
    (newPassword : Text) : Prog Response := do
  let newWrapKey ← call (.changePassword adminId newPassword)
  call (.rewrapAuditKey oldWrapKey newWrapKey)
  call (.rewrapTotpSecret adminId oldWrapKey newWrapKey)
  keepSession token adminId username newWrapKey

def changePassword (authorization : Option Text) (currentPassword newPassword : Text) :
    Prog Response := do
  throwIf (decide (byteLen newPassword < 12)) .unprocessableEntity
  let token ← ofOption .unauthorized (bearerToken authorization)
  let session ← call (.touch 0 token)
  let adminId ← ofOption .unauthorized (session.map Session.adminId)
  let session ← call (.touch 1 token)
  throwIf (session.map Session.mfaPending != some false) .forbidden
  let username ← usernameOf adminId
  call .acquirePermit
  let verified ← call (.verifyLogin username currentPassword)
  let found ← ofOption .unauthorized verified
  rekey token adminId username found.2 newPassword

def liveCode (secret : Option Bytes) (username code : Text) : Prog Bool :=
  match secret with
  | none => pure false
  | some secret => call (.checkTotp secret username code)

def settleFactor (token : Text) (adminId : ℤ) (username : Text) (factor : Option Handlers.Factor) :
    Prog Response :=
  match factor with
  | none => do
    call (.recordFailure 4 (Handlers.mfaKey adminId))
    call (.audit "auth.mfa_failed" username)
    throw .unauthorized
  | some factor => do
    call (.recordSuccess (Handlers.mfaKey adminId))
    let session ← call (.touch 4 token)
    let completed ← call (.completeMfa token adminId)
    throwIf (!completed) .unauthorized
    call (.audit
      (if factor = .recoveryCode then "auth.mfa_recovery_used" else "auth.mfa_verified") username)
    pure (.mfaVerify ((session.map Session.mustChangePassword).getD false))

def consumeCode (P : Primitives) (token : Text) (adminId : ℤ) (username code : Text) :
    Prog Response := do
  let codes ← call (.recoveryCodes adminId)
  match matchRecoveryCode P code codes with
  | none => settleFactor token adminId username none
  | some idx => do
    call (.setRecoveryCodes adminId (codes.eraseIdx idx))
    settleFactor token adminId username (some .recoveryCode)

def proveFactor (P : Primitives) (token : Text) (adminId : ℤ) (wrapKey : Block 32)
    (username code : Text) : Prog Response := do
  let secret ← call (.totpSecret adminId wrapKey)
  let live ← liveCode secret username code
  if live then settleFactor token adminId username (some .totp)
  else consumeCode P token adminId username code

def mfaVerify (P : Primitives) (authorization : Option Text) (code : Text) : Prog Response := do
  let token ← ofOption .unauthorized (bearerToken authorization)
  let session ← call (.touch 0 token)
  let adminId ← ofOption .unauthorized (session.map Session.adminId)
  let session ← call (.touch 1 token)
  throwIf (session.map Session.mfaPending != some true) .badRequest
  let session ← call (.touch 2 token)
  let wrapKey ← ofOption .unauthorized (session.map Session.wrapKey)
  let username ← usernameOf adminId
  let locked ← call (.throttled 3 (Handlers.mfaKey adminId))
  throwIf locked .tooManyRequests
  proveFactor P token adminId wrapKey username code

def sessionKey (authorization : Option Text) : Prog (Block 32) := do
  let token ← ofOption .unauthorized (bearerToken authorization)
  let session ← call (.touch 3 token)
  ofOption .unauthorized (session.map Session.wrapKey)

def mfaEnroll (P : Primitives) (config : Config) (authorization : Option Text) :
    Prog Response := do
  let adminId ← requireAdmin authorization
  let enabled ← call (.isTotpEnabled adminId)
  throwIf enabled .conflict
  let wrapKey ← sessionKey authorization
  let username ← usernameOf adminId
  let secret ← call .generateSecret
  call (.setPendingTotp adminId wrapKey secret)
  call (.audit "admin.mfa_enroll_started" username)
  pure (.mfaEnroll (P.totpSecretBase32 secret config.serverDomain username)
    (P.totpUrl secret config.serverDomain username))

def mfaConfirm (authorization : Option Text) (code : Text) : Prog Response := do
  let adminId ← requireAdmin authorization
  let wrapKey ← sessionKey authorization
  let username ← usernameOf adminId
  let secret ← call (.totpSecret adminId wrapKey)
  let secret ← ofOption .conflict secret
  let live ← call (.checkTotp secret username code)
  throwIf (!live) .unauthorized
  let codes ← call .generateRecoveryCodes
  call (.confirmTotp adminId codes.2)
  call (.audit "admin.mfa_enabled" username)
  pure (.mfaConfirm codes.1)

def mfaDisable (authorization : Option Text) (password : Text) : Prog Response := do
  let adminId ← requireAdmin authorization
  let username ← usernameOf adminId
  call .acquirePermit
  let verified ← call (.verifyLogin username password)
  throwIf verified.isNone .unauthorized
  call (.disableTotp adminId)
  call (.audit "admin.mfa_disabled" username)
  pure .noContent

end Programs

def program (P : Primitives) (config : Config) : Call → Prog Response
  | .login username password => Programs.login username password
  | .logout authorization => Programs.logout authorization
  | .changePassword authorization currentPassword newPassword =>
    Programs.changePassword authorization currentPassword newPassword
  | .mfaVerify authorization code => Programs.mfaVerify P authorization code
  | .mfaEnroll authorization => Programs.mfaEnroll P config authorization
  | .mfaConfirm authorization code => Programs.mfaConfirm authorization code
  | .mfaDisable authorization password => Programs.mfaDisable authorization password

def Call.authorization : Call → Option Text
  | .login _ _ => none
  | .logout authorization | .changePassword authorization _ _ | .mfaVerify authorization _
  | .mfaEnroll authorization | .mfaConfirm authorization _ | .mfaDisable authorization _ =>
    authorization

/-! ## What the programs call -/

/-- A call of a request that is no login: it names the token the request presents, and of the
throttle only keys of second factors. -/
def Op.Own (authorization : Option Text) : Op → Prop
  | .touch _ token | .removeSession token | .completePasswordChange token _ _
  | .completeMfa token _ => bearerToken authorization = some token
  | .throttled _ key | .recordFailure _ key | .recordSuccess key => ∃ adminId, key = Handlers.mfaKey adminId
  | _ => True

def Op.plain : Op → Bool
  | .disableTotp _ | .setRecoveryCodes _ _ | .verifyLogin _ _ | .changePassword _ _
  | .rewrapAuditKey _ _ | .rewrapTotpSecret _ _ _ | .createSession _ _ _ _
  | .completePasswordChange _ _ _ => false
  | _ => true

/-- The calls of a request that is no login, and none of those that check or change credentials. -/
def Modest (authorization : Option Text) {α : Type} (p : Prog α) : Prop :=
  p.Only fun op => op.Own authorization ∧ op.plain = true

section
variable {authorization : Option Text} {α : Type} {p : Prog α}

theorem Modest.own (h : Modest authorization p) : p.Only (Op.Own authorization) :=
  h.mono fun _ => And.left

theorem Modest.plain (h : Modest authorization p) : p.Only fun op => op.plain = true :=
  h.mono fun _ => And.right

theorem requireAdmin_only {Q : Op → Prop}
    (h : ∀ k token, bearerToken authorization = some token → Q (.touch k token)) :
    (Programs.requireAdmin authorization).Only Q :=
  .ofOption_bind fun _ htoken => .bind (.perform (h _ _ htoken)) fun _ => .bind .ofOption fun _ =>
    .bind (.perform (h _ _ htoken)) fun _ => .bind .throwIf fun _ =>
      .bind (.perform (h _ _ htoken)) fun _ => .bind .throwIf fun _ => trivial

theorem requireAdmin_modest : Modest authorization (Programs.requireAdmin authorization) :=
  requireAdmin_only fun _ _ htoken => ⟨htoken, rfl⟩

theorem usernameOf_modest {adminId : ℤ} : Modest authorization (Programs.usernameOf adminId) :=
  .bind (.perform ⟨trivial, rfl⟩) fun _ => .ofOption

theorem sessionKey_modest : Modest authorization (Programs.sessionKey authorization) :=
  .ofOption_bind fun _ htoken => .bind (.perform ⟨htoken, rfl⟩) fun _ => .ofOption

theorem logout_modest : Modest authorization (Programs.logout authorization) := by
  unfold Programs.logout
  split
  · trivial
  · next htoken =>
    refine .bind (.perform ⟨htoken, rfl⟩) fun session => ?_
    cases session with
    | none => exact .bind (.perform ⟨htoken, rfl⟩) fun _ => trivial
    | some =>
      exact .bind (.perform ⟨trivial, rfl⟩) fun _ => .bind (.perform ⟨htoken, rfl⟩) fun _ => trivial

theorem settleFactor_modest {token : Text} (htoken : bearerToken authorization = some token)
    {adminId : ℤ} {username : Text} {factor : Option Handlers.Factor} :
    Modest authorization (Programs.settleFactor token adminId username factor) := by
  cases factor with
  | none =>
    exact .bind (.perform ⟨⟨_, rfl⟩, rfl⟩) fun _ => .bind (.perform ⟨trivial, rfl⟩) fun _ => trivial
  | some =>
    refine .bind (.perform ⟨⟨_, rfl⟩, rfl⟩) fun _ => .bind (.perform ⟨htoken, rfl⟩) fun _ => ?_
    exact .bind (.perform ⟨htoken, rfl⟩) fun _ => .bind .throwIf fun _ =>
      .bind (.perform ⟨trivial, rfl⟩) fun _ => trivial

theorem mfaEnroll_modest {P : Primitives} {config : Config} :
    Modest authorization (Programs.mfaEnroll P config authorization) := by
  refine .bind requireAdmin_modest fun _ => .bind (.perform ⟨trivial, rfl⟩) fun _ => ?_
  refine .bind .throwIf fun _ => .bind sessionKey_modest fun _ => .bind usernameOf_modest fun _ => ?_
  exact .bind (.perform ⟨trivial, rfl⟩) fun _ => .bind (.perform ⟨trivial, rfl⟩) fun _ =>
    .bind (.perform ⟨trivial, rfl⟩) fun _ => trivial

theorem mfaConfirm_modest {code : Text} :
    Modest authorization (Programs.mfaConfirm authorization code) := by
  refine .bind requireAdmin_modest fun _ => .bind sessionKey_modest fun _ => ?_
  refine .bind usernameOf_modest fun _ => .bind (.perform ⟨trivial, rfl⟩) fun _ => ?_
  refine .bind .ofOption fun _ => .bind (.perform ⟨trivial, rfl⟩) fun _ => .bind .throwIf fun _ => ?_
  exact .bind (.perform ⟨trivial, rfl⟩) fun _ => .bind (.perform ⟨trivial, rfl⟩) fun _ =>
    .bind (.perform ⟨trivial, rfl⟩) fun _ => trivial

end
end Litterae.Admin
