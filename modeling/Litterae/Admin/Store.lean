import Litterae.Stores
import Litterae.Common.Input
import Mathlib.Data.List.Sort

/-! # Administrators and hosted domains (`admin/src/{store,mfa}.rs`, `auth/src/store.rs`)

One function for each method of `AdminStore`, and the account methods of `AuthStore` that the
administration interface calls. What a method draws at random is an argument.
-/

namespace Litterae.Admin
open Foundations Exec Crypto Input

/-- A row of `admins`. The recovery codes are stored as a JSON list of their hashes. -/
structure AdminRow where
  id : ℤ
  username : Text
  salt : Bytes
  derivedKey : Bytes
  mustChangePassword : Bool
  createdAt : ℤ
  totpWrappedSecret : Option Bytes
  totpKeyId : Option ℤ
  totpEnabled : Bool
  totpRecoveryCodes : Option (List Text)
  deriving DecidableEq

structure AdminStore where
  admins : List AdminRow
  domains : List Domain
  deriving DecidableEq

def AdminStore.empty : AdminStore := { admins := [], domains := [] }

structure AdminRecord where
  id : ℤ
  username : Text
  mustChangePassword : Bool
  createdAt : ℤ
  totpEnabled : Bool
  deriving DecidableEq

def noRows : Error := .storage "Query returned no rows"

/-- SQLite's order of texts: by code point, as UTF-8 keeps it. -/
def textLe : Text → Text → Bool
  | [], _ => true
  | _ :: _, [] => false
  | a :: as, b :: bs => decide (a.toNat < b.toNat) || (a == b && textLe as bs)

/-! ## Second factor (`mfa.rs`) -/

section
variable (P : Primitives)

def hashRecoveryCode (code : Text) : Text := hexEncode (P.sha256 (utf8 code))

/-- `generate_recovery_codes`, from the raw bytes of each code: the codes and their hashes. -/
def generateRecoveryCodes (raws : List Bytes) : List Text × List Text :=
  (raws.map hexEncode, raws.map fun raw => hashRecoveryCode P (hexEncode raw))

def matchRecoveryCode (candidate : Text) (hashed : List Text) : Option ℕ :=
  hashed.findIdx? fun stored => stored == hashRecoveryCode P candidate

end

/-! ## Administrators -/

namespace AdminStore

section
variable (P : Primitives) (faults : Faults)

def hasAdmin : Exec AdminStore Error Bool := do
  sql faults .adminCount
  let a ← Exec.get
  pure (decide (0 < a.admins.length))

def insertAdmin (now : ℤ) (salt : Block 16) (pk : Block 32) (username : Text) :
    Exec AdminStore Error Unit := do
  sql faults .adminInsert
  let a ← Exec.get
  if (a.admins.map AdminRow.username).contains username then
    Exec.throw (.storage "UNIQUE constraint failed: admins.username")
  else
    Exec.modify fun a =>
      { a with
        admins := a.admins ++
          [{ id := nextRowid AdminRow.id a.admins, username, salt := salt.val
             derivedKey := pk.val, mustChangePassword := true, createdAt := now
             totpWrappedSecret := none, totpKeyId := none, totpEnabled := false
             totpRecoveryCodes := none }] }

def bootstrap (now : ℤ) (salt : Block 16) (username : Text) (password : Bytes) :
    Exec AdminStore Error (Option (Block 32)) := do
  if ← hasAdmin faults then pure none
  else do
    let pk ← ofExcept ((derivePk P password salt).mapError cryptoErr)
    insertAdmin faults now salt pk username
    pure (some pk)

/-- The password check of `verify_login` on the row of the username. -/
def verifyRow (username : Text) (password : Bytes) (row : AdminRow) :
    Except Error (Option (AdminRecord × Block 32)) :=
  match Block.ofBytes 16 row.salt with
  | none => .ok none
  | some salt =>
    match derivePk P password salt with
    | .error e => .error (cryptoErr e)
    | .ok pk =>
      if pk.val ≠ row.derivedKey then .ok none
      else
        .ok (some
          ({ id := row.id, username, mustChangePassword := row.mustChangePassword
             createdAt := row.createdAt, totpEnabled := row.totpEnabled }, pk))

def verifyLogin (username : Text) (password : Bytes) :
    Exec AdminStore Error (Option (AdminRecord × Block 32)) := do
  sql faults .adminByUsername
  let a ← Exec.get
  match findBy AdminRow.username username a.admins with
  | none => pure none
  | some row => ofExcept (verifyRow P username password row)

def usernameForId (adminId : ℤ) : Exec AdminStore Error (Option Text) := do
  sql faults .adminUsername
  let a ← Exec.get
  pure ((findBy AdminRow.id adminId a.admins).map AdminRow.username)

def updateAdmin (site : Site) (adminId : ℤ) (f : AdminRow → AdminRow) :
    Exec AdminStore Error Unit := do
  sql faults site
  Exec.modify fun a => { a with admins := updateWhere (fun r => r.id == adminId) f a.admins }

def selectAdmin (site : Site) (adminId : ℤ) : Exec AdminStore Error AdminRow := do
  sql faults site
  let a ← Exec.get
  ofOption noRows (findBy AdminRow.id adminId a.admins)

def changePassword (salt : Block 16) (adminId : ℤ) (newPassword : Bytes) :
    Exec AdminStore Error (Block 32) := do
  let pk ← ofExcept ((derivePk P newPassword salt).mapError cryptoErr)
  updateAdmin faults .adminPassword adminId fun r =>
    { r with salt := salt.val, derivedKey := pk.val, mustChangePassword := false }
  pure pk

def isTotpEnabled (adminId : ℤ) : Exec AdminStore Error Bool := do
  let row ← selectAdmin faults .totpEnabled adminId
  pure row.totpEnabled

def setPendingTotp (nonce : Block 24) (adminId : ℤ) (wrapKey : Block 32) (secret : Bytes) :
    Exec AdminStore Error Unit :=
  updateAdmin faults .totpPending adminId fun r =>
    { r with
      totpWrappedSecret := some (committingSeal P wrapKey 1 nonce secret)
      totpKeyId := some 1
      totpEnabled := false
      totpRecoveryCodes := none }

def totpSecret (adminId : ℤ) (wrapKey : Block 32) : Exec AdminStore Error (Option Bytes) := do
  let row ← selectAdmin faults .totpSelect adminId
  match row.totpWrappedSecret with
  | none => pure none
  | some wrapped => do
    let secret ← ofExcept ((committingOpen P wrapKey wrapped).mapError cryptoErr)
    pure (some secret)

def confirmTotp (adminId : ℤ) (hashedRecoveryCodes : List Text) : Exec AdminStore Error Unit :=
  updateAdmin faults .totpConfirm adminId fun r =>
    { r with totpEnabled := true, totpRecoveryCodes := some hashedRecoveryCodes }

def disableTotp (adminId : ℤ) : Exec AdminStore Error Unit :=
  updateAdmin faults .totpDisable adminId fun r =>
    { r with
      totpWrappedSecret := none
      totpKeyId := none
      totpEnabled := false
      totpRecoveryCodes := none }

def recoveryCodes (adminId : ℤ) : Exec AdminStore Error (List Text) := do
  let row ← selectAdmin faults .recoverySelect adminId
  pure (row.totpRecoveryCodes.getD [])

def setRecoveryCodes (adminId : ℤ) (codes : List Text) : Exec AdminStore Error Unit :=
  updateAdmin faults .recoveryUpdate adminId fun r => { r with totpRecoveryCodes := some codes }

/-- `rewrap_totp_secret`; the key id is cast to `u16` where it is sealed. -/
def rewrapTotpSecret (nonce : Block 24) (adminId : ℤ) (oldWrapKey newWrapKey : Block 32) :
    Exec AdminStore Error Unit := do
  let row ← selectAdmin faults .totpRewrapSelect adminId
  match row.totpWrappedSecret, row.totpKeyId with
  | some wrapped, some keyId => do
    let secret ← ofExcept ((committingOpen P oldWrapKey wrapped).mapError cryptoErr)
    updateAdmin faults .totpRewrapUpdate adminId fun r =>
      { r with
        totpWrappedSecret := some (committingSeal P newWrapKey
          (UInt16.ofNat ((keyId + 1) % 2 ^ 16).toNat) nonce secret)
        totpKeyId := some (keyId + 1) }
  | _, _ => pure ()

end

/-! ## Domains -/

section
variable (faults : Faults)

def listDomains : Exec AdminStore Error (List Domain) := do
  sql faults .domainList
  let a ← Exec.get
  pure (a.domains.insertionSort fun d e => textLe d.name e.name)

def getDomain (id : ℤ) : Exec AdminStore Error (Option Domain) := do
  sql faults .domainById
  let a ← Exec.get
  pure (findBy Domain.id id a.domains)

def getDomainByName (name : Text) : Exec AdminStore Error (Option Domain) := do
  sql faults .domainByName
  let a ← Exec.get
  pure (findBy Domain.name (name.map Char.toLower) a.domains)

/-- `create_domain`; the name is unique, and `tokenBytes` make the verification token. -/
def createDomain (now : ℤ) (tokenBytes : Block 16) (name : Text)
    (catchAllLocalPart : Option Text) : Exec AdminStore Error Domain := do
  if !validDomainName name then Exec.throw (.config "invalid domain name")
  else do
    sql faults .domainInsert
    let a ← Exec.get
    if (a.domains.map Domain.name).contains (name.map Char.toLower) then
      Exec.throw (.storage "UNIQUE constraint failed: domains.name")
    else do
      let domain : Domain :=
        { id := nextRowid Domain.id a.domains, name := name.map Char.toLower, catchAllLocalPart
          verificationToken := hexEncode tokenBytes.val, verifiedAt := none, createdAt := now }
      Exec.modify fun a => { a with domains := a.domains ++ [domain] }
      pure domain

def updateDomain (site : Site) (id : ℤ) (f : Domain → Domain) : Exec AdminStore Error Unit := do
  sql faults site
  Exec.modify fun a => { a with domains := updateWhere (fun d => d.id == id) f a.domains }

def setCatchAll (id : ℤ) (catchAllLocalPart : Option Text) : Exec AdminStore Error Unit :=
  updateDomain faults .domainCatchAll id fun d => { d with catchAllLocalPart }

def markDomainVerified (id verifiedAt : ℤ) : Exec AdminStore Error Unit :=
  updateDomain faults .domainVerified id fun d => { d with verifiedAt := some verifiedAt }

def deleteDomain (id : ℤ) : Exec AdminStore Error Unit := do
  sql faults .domainDelete
  Exec.modify fun a => { a with domains := a.domains.filter fun d => d.id != id }

end
end AdminStore

/-! ## Accounts -/

def address (a : Account) : Text := a.localPart ++ ['@'] ++ a.domain

namespace AuthStore
variable (P : Primitives) (faults : Faults)

def listAccounts : Exec (List Account) Error (List Account) := do
  sql faults .accountList
  let accounts ← Exec.get
  pure (accounts.insertionSort fun a b => b.createdAt ≤ a.createdAt)

/-- `provision`; the pair of local part and domain is unique. -/
def provision (now : ℤ) (salt : Block 16) (accountPub : Block 32) (localPart domain : Text)
    (password : Bytes) : Exec (List Account) Error Account := do
  if !validLocalPart localPart || !validDomainName domain then
    Exec.throw (.config "invalid mailbox address")
  else do
    let _ ← ofExcept ((derivePk P password salt).mapError cryptoErr)
    sql faults .accountInsert
    let accounts ← Exec.get
    if accounts.any fun a => a.localPart == localPart && a.domain == domain.map Char.toLower then
      Exec.throw
        (.storage "UNIQUE constraint failed: accounts.local_part, accounts.domain")
    else do
      let account : Account :=
        { id := nextRowid Account.id accounts, localPart, domain := domain.map Char.toLower
          keyId := 1, accountPub := accountPub.val, createdAt := now }
      Exec.modify fun accounts => accounts ++ [account]
      pure account

def deleteAccount (id : ℤ) : Exec (List Account) Error Unit := do
  sql faults .accountDelete
  Exec.modify fun accounts => accounts.filter fun a => a.id != id

end AuthStore

/-! ## The queue as the administration interface shows it (`queue/src/query.rs`) -/

structure QueueMetrics where
  ready : ℕ
  claimed : ℕ
  deferred : ℕ
  delivered : ℕ
  failed : ℕ
  expired : ℕ
  deriving DecidableEq

section
variable (faults : Faults)

def metrics : Exec Queue.QueueStore Error QueueMetrics := do
  sql faults .queueMetrics
  let q ← Exec.get
  let count (state : Queue.RcptState) : ℕ := q.rcpts.countP fun r => r.state == state
  pure
    { ready := count .ready, claimed := count .claimed, deferred := count .deferred
      delivered := count .delivered, failed := count .failed, expired := count .expired }

def recentFailures (limit : ℕ) : Exec Queue.QueueStore Error (List Queue.OutboundRecipient) := do
  sql faults .queueFailures
  let q ← Exec.get
  pure ((q.rcpts.filter fun r => r.state == .failed || r.state == .expired).reverse.take limit)

end
/-! ## Queries -/

section
variable {P : Primitives} {faults : Faults}

theorem selectAdmin_same {site : Site} {adminId : ℤ} :
    Keeps (Same id) (AdminStore.selectAdmin faults site adminId) :=
  .bind sql_keeps fun _ => .bind .get fun _ => .ofOption

theorem verifyLogin_same (username : Text) (password : Bytes) :
    Keeps (Same id) (AdminStore.verifyLogin P faults username password) := by
  refine .bind sql_keeps fun _ => .bind .get fun a => ?_
  cases findBy AdminRow.username username a.admins with
  | none => exact .pure
  | some => exact .ofExcept

theorem totpSecret_same (adminId : ℤ) (wrapKey : Block 32) :
    Keeps (Same id) (AdminStore.totpSecret P faults adminId wrapKey) := by
  refine .bind selectAdmin_same fun row => ?_
  cases row.totpWrappedSecret with
  | none => exact .pure
  | some => exact .bind .ofExcept fun _ => .pure

end

end Litterae.Admin
