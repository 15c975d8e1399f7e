import Litterae.Common.Throttle
import Litterae.Stores

/-! # Mailbox sessions (`jmap/src/{session_store,handlers}.rs`)

A token stands for an unlocked account: its id, its keys and the address it had when it was
unlocked. No lookup of the account follows; every later request works with what the session holds.
-/

namespace Litterae.Jmap
open Foundations Exec

structure UnlockedAccount where
  amk : Bytes
  accountPriv : Bytes
  deriving DecidableEq

structure SessionIdentity where
  accountPub : Bytes
  keyId : UInt16
  address : Text
  deriving DecidableEq

structure Doc where
  messageId : ℤ
  subject : Text
  body : Text
  deriving DecidableEq

/-- `searchIndex` is empty until the first search builds it. -/
structure Session where
  accountId : ℤ
  unlocked : UnlockedAccount
  identity : SessionIdentity
  lastSeen : ℕ
  searchIndex : Option (List Doc)
  deriving DecidableEq

structure SessionRegistry where
  sessions : Text → Option Session
  idleTimeout : ℕ

namespace SessionRegistry

def new (idleTimeout : ℕ) : SessionRegistry := { sessions := fun _ => none, idleTimeout }

def put (r : SessionRegistry) (token : Text) (s : Option Session) : SessionRegistry :=
  { r with sessions := fun t => if t = token then s else r.sessions t }

def create (bytes : Block 32) (now : ℕ) (accountId : ℤ) (unlocked : UnlockedAccount)
    (identity : SessionIdentity) (r : SessionRegistry) : Text × SessionRegistry :=
  (hexEncode bytes.val,
    r.put (hexEncode bytes.val)
      (some { accountId, unlocked, identity, lastSeen := now, searchIndex := none }))

/-- The part that `account_id`, `with_account` and `with_session` share. -/
def touch (now : ℕ) (token : Text) (r : SessionRegistry) : Option Session × SessionRegistry :=
  match r.sessions token with
  | none => (none, r)
  | some s =>
    if r.idleTimeout < now - s.lastSeen then (none, r.put token none)
    else (some { s with lastSeen := now }, r.put token (some { s with lastSeen := now }))

def remove (token : Text) (r : SessionRegistry) : SessionRegistry := r.put token none

@[simp] theorem put_self (r : SessionRegistry) (token : Text) (s : Option Session) :
    (r.put token s).sessions token = s := by
  simp [put]

@[simp] theorem put_of_ne (r : SessionRegistry) {token other : Text} (h : other ≠ token)
    (s : Option Session) : (r.put token s).sessions other = r.sessions other := by
  simp [put, h]

end SessionRegistry

inductive StatusCode where
  | badRequest
  | unauthorized
  | notFound
  | unprocessableEntity
  | tooManyRequests
  | internalServerError
  | serviceUnavailable
  deriving DecidableEq

structure AppState where
  stores : Stores
  sessions : SessionRegistry
  loginThrottle : LoginThrottle

/-- How `unlock_any` ends: its task is lost, no credential matches, or the password or the app
password of the given row does. -/
inductive UnlockOutcome where
  | lost
  | refused
  | unlocked (account : UnlockedAccount) (scope : AppPasswordScope) (used : Option ℤ)
  deriving DecidableEq

structure UnlockIo where
  faults : Faults
  instants : ℕ → ℕ
  now : ℤ
  permit : Bool
  unlockAny : Account → Text → UnlockOutcome
  tokenBytes : Block 32
  auditOk : Bool

def accountAddress (a : Account) : Text := a.localPart ++ '@' :: a.domain

def loginIdentity (localPart domain : Text) : Text := localPart ++ '@' :: domain

section
variable {ε : Type}

def onStores {α : Type} (x : Exec Stores ε α) : Exec AppState ε α :=
  x.zoom AppState.stores fun t s => { s with stores := t }

def audit (auditOk : Bool) (action : String) (detail : Text) : Exec AppState ε Unit :=
  Exec.modify fun s =>
    if auditOk then
      { s with stores := { s.stores with
          audit := s.stores.audit ++ [{ action := action.toList, detail }] } }
    else s

def onThrottle (f : LoginThrottle → LoginThrottle) : Exec AppState ε Unit :=
  Exec.modify fun s => { s with loginThrottle := f s.loginThrottle }

def onSessions {α : Type} (f : SessionRegistry → α × SessionRegistry) : Exec AppState ε α :=
  Exec.update fun s => ((f s.sessions).1, { s with sessions := (f s.sessions).2 })

def touchAppPassword (io : UnlockIo) (used : Option ℤ) : Exec Stores Error Unit :=
  whenSome used fun id => do
    sql io.faults .appPasswordTouch
    Exec.modify fun s =>
      { s with
        appPasswords := updateWhere (fun p => p.id == id)
          (fun p => { p with lastUsedAt := some io.now }) s.appPasswords }

end

section
variable (io : UnlockIo)

def unlockFailed (identity detail : Text) : Exec AppState StatusCode (Text × ℤ) := do
  onThrottle fun t => t.recordFailure (io.instants 1) identity
  audit io.auditOk "auth.unlock_failed" detail
  Exec.throw .unauthorized

def openSession (identity : Text) (account : Account) (unlocked : UnlockedAccount) :
    Exec AppState StatusCode (Text × ℤ) := do
  onThrottle fun t => t.recordSuccess identity
  let token ← onSessions (SessionRegistry.create io.tokenBytes (io.instants 1) account.id unlocked
    { accountPub := account.accountPub, keyId := account.keyId, address := accountAddress account })
  audit io.auditOk "auth.unlock" (accountAddress account)
  pure (token, account.id)

/-- `unlock` once the account is found: a credential of the wrong scope counts as a wrong one. -/
def unlockAccount (identity : Text) (account : Account) (password : Text) :
    Exec AppState StatusCode (Text × ℤ) := do
  throwIf (!io.permit) .serviceUnavailable
  match io.unlockAny account password with
  | .lost => Exec.throw .internalServerError
  | .refused => unlockFailed io identity (accountAddress account)
  | .unlocked unlocked scope used => do
    match ← (onStores (touchAppPassword io used)).attempt, scope with
    | .ok (), .full => openSession io identity account unlocked
    | _, _ => unlockFailed io identity (accountAddress account)

def unlock (localPart domain password : Text) : Exec AppState StatusCode (Text × ℤ) := do
  let s ← Exec.get
  throwIf (!(s.loginThrottle.check (io.instants 0) (loginIdentity localPart domain)).isOk)
    .tooManyRequests
  (onStores (sql io.faults (.accountByAddress 0))).mapErr fun _ => .internalServerError
  match findByAddress s.stores.accounts localPart domain with
  | none => unlockFailed io (loginIdentity localPart domain) (loginIdentity localPart domain)
  | some account => unlockAccount io (loginIdentity localPart domain) account password

end
end Litterae.Jmap
