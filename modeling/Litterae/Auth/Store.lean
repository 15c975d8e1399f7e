import Litterae.Accounts
import Litterae.Jmap.Settings

/-! # Key material of accounts (`auth/src/store.rs`, `crypto/src/{amk,keys}.rs`)

A password or app password leads to the master key of an account through a committing wrap, and the
master key to the private key through a plain one. `unlock_any` tries the password and then the app
passwords of the account, and takes the first wrap that opens.
-/

namespace Litterae.Auth
open Foundations Jmap Exec Crypto

structure AccountKeys where
  id : ℤ
  salt : Block 16
  wrappedAmk : Bytes
  wrappedAccountPriv : Bytes
  deriving DecidableEq

structure Vault where
  stores : Stores
  keys : List AccountKeys

/-- The keys that `provision` mints, and the nonces of their wraps. -/
structure KeyDraw where
  amk : Block 32
  amkNonce : Block 24
  accountPriv : Block 32
  privNonce : Block 24
  deriving DecidableEq

def onStores {ε α : Type} (x : Exec Stores ε α) : Exec Vault ε α :=
  x.zoom Vault.stores fun s v => { v with stores := s }

theorem onStores_run {ε α : Type} (x : Exec Stores ε α) (v : Vault) :
    onStores x v = ((x v.stores).1, { v with stores := (x v.stores).2 }) := rfl

def scopeText : AppPasswordScope → Text
  | .full => "full"
  | .submission => "submission"

section
variable (P : Primitives)

def wrapAmk (pk : Block 32) (nonce : Block 24) (amk : Block 32) : Bytes :=
  committingSeal P pk 1 nonce amk.val

def wrapPrivKey (amk : Block 32) (nonce : Block 24) (priv : Block 32) : Bytes :=
  aeadSeal P amk.val 1 nonce.val priv.val

/-- `unwrap_amk`; an opened wrap of another length panics in `copy_from_slice`. -/
def unwrapAmk (pk : Block 32) (wrapped : Bytes) : Exec Vault Error (Block 32) := do
  let opened ← ofExcept ((committingOpen P pk wrapped).mapError cryptoErr)
  orPanic (Block.ofBytes 32 opened)

def finishUnlock (amk : Block 32) (wrappedAccountPriv : Bytes) : Exec Vault Error UnlockedAccount := do
  let bytes ← ofExcept ((aeadOpen P amk.val wrappedAccountPriv).mapError cryptoErr)
  let accountPriv ← orPanic (Block.ofBytes 32 bytes)
  pure { amk := amk.val, accountPriv := accountPriv.val }

def keysFor (c : ProvisionCall) (draw : KeyDraw) (pk : Block 32) (id : ℤ) : AccountKeys where
  id := id
  salt := c.salt
  wrappedAmk := wrapAmk P pk draw.amkNonce draw.amk
  wrappedAccountPriv := wrapPrivKey P draw.amk draw.privNonce draw.accountPriv

def provision (c : ProvisionCall) (draw : KeyDraw) : Exec Vault Error Account := do
  if !Input.validLocalPart c.localPart || !Input.validDomainName c.domain then
    Exec.throw (.config "invalid mailbox address")
  else do
    let pk ← ofExcept ((derivePk P c.password c.salt).mapError cryptoErr)
    sql c.faults .accountInsert
    let v ← Exec.get
    if v.stores.accounts.any fun a =>
        a.localPart == c.localPart && a.domain == c.domain.map Char.toLower then
      Exec.throw
        (.storage "UNIQUE constraint failed: accounts.local_part, accounts.domain")
    else do
      let account : Account :=
        { id := nextRowid Account.id v.stores.accounts, localPart := c.localPart
          domain := c.domain.map Char.toLower, keyId := 1, accountPub := c.accountPub.val
          createdAt := c.now }
      Exec.modify fun v =>
        { stores := { v.stores with accounts := v.stores.accounts ++ [account] }
          keys := v.keys ++ [keysFor P c draw pk account.id] }
      pure account

def unlock (keys : AccountKeys) (password : Bytes) : Exec Vault Error UnlockedAccount := do
  let pk ← ofExcept ((derivePk P password keys.salt).mapError cryptoErr)
  let amk ← unwrapAmk P pk keys.wrappedAmk
  finishUnlock P amk keys.wrappedAccountPriv

/-- The loop of `unlock_any` over the candidates, up to the touch of the row that matches. -/
def firstMatch (credential wrappedAccountPriv : Bytes) :
    List AppPassword → Exec Vault Error (UnlockedAccount × AppPasswordScope × Option ℤ)
  | [] => Exec.throw (.crypto "no matching credential")
  | p :: rest =>
    match Block.ofBytes 16 p.salt with
    | none => firstMatch credential wrappedAccountPriv rest
    | some salt => do
      let pk ← ofExcept ((derivePk P credential salt).mapError cryptoErr)
      match ← (unwrapAmk P pk p.wrappedAmk).attempt with
      | .error _ => firstMatch credential wrappedAccountPriv rest
      | .ok amk => do
        let unlocked ← finishUnlock P amk wrappedAccountPriv
        pure (unlocked, (parseScope (scopeText p.scope)).getD .full, some p.id)

/-- `unlock_any` before it touches the app password that matched. -/
def findCredential (faults : Faults) (keys : AccountKeys) (credential : Bytes) :
    Exec Vault Error (UnlockedAccount × AppPasswordScope × Option ℤ) := do
  match ← (unlock P keys credential).attempt with
  | .ok unlocked => pure (unlocked, .full, none)
  | .error _ => do
    sql faults .appPasswordList
    let v ← Exec.get
    firstMatch P credential keys.wrappedAccountPriv
      (v.stores.appPasswords.filter fun p => p.accountId == keys.id)

def touchUsed (faults : Faults) (now : ℤ) (used : Option ℤ) : Exec Stores Error Unit :=
  whenSome used fun id => do
    sql faults .appPasswordTouch
    Exec.modify fun s =>
      { s with
        appPasswords := updateWhere (fun p => p.id == id)
          (fun p => { p with lastUsedAt := some now }) s.appPasswords }

def unlockAny (faults : Faults) (now : ℤ) (keys : AccountKeys) (credential : Bytes) :
    Exec Vault Error (UnlockedAccount × AppPasswordScope) := do
  let (unlocked, scope, used) ← findCredential P faults keys credential
  onStores (touchUsed faults now used)
  pure (unlocked, scope)

/-- What the task of the JMAP `unlock` reports; the row it found the account in has the key columns. -/
def unlockOutcome (v : Vault) (account : Account) (password : Text) : UnlockOutcome :=
  match findBy AccountKeys.id account.id v.keys with
  | none => .refused
  | some keys =>
    match (findCredential P .none keys (utf8 password) v).1 with
    | .ok (unlocked, scope, used) => .unlocked unlocked scope used
    | .err _ => .refused
    | .panic => .lost

end

section
variable {P : Primitives} {v : Vault} {wrapped : Bytes} {amk : Block 32} (faults : Faults)
  (c : ProvisionCall) (keys : AccountKeys) (draw : KeyDraw)

@[simp] theorem parseScope_scopeText (scope : AppPasswordScope) :
    parseScope (scopeText scope) = some scope := by
  cases scope <;> rfl

theorem provision_cases (v : Vault) :
    ((provision P c draw v).2 = v ∧ (provision P c draw v).1.isOk = false) ∨
      ∃ pk account, derivePk P c.password c.salt = .ok pk ∧
        account.id = nextRowid Account.id v.stores.accounts ∧
        provision P c draw v = (.ok account,
          ⟨{ v.stores with accounts := v.stores.accounts ++ [account] },
            v.keys ++ [keysFor P c draw pk account.id]⟩) := by
  unfold provision
  split
  · exact .inl ⟨rfl, rfl⟩
  rw [ofExcept_bind_run]
  cases hderive : derivePk P c.password c.salt with
  | error => exact .inl ⟨rfl, rfl⟩
  | ok pk =>
    simp only [Except.mapError]
    rw [sql_bind_run]
    cases c.faults .accountInsert with
    | some => exact .inl ⟨rfl, rfl⟩
    | none =>
      simp only [get_bind_run, ite_run]
      split
      · exact .inl ⟨rfl, rfl⟩
      · exact .inr ⟨pk, _, rfl, rfl, rfl⟩

theorem createAppPassword_cases (draw : AppPasswordDraw) (accountId : ℤ) (amk : Bytes) (label : Text)
    (scope : AppPasswordScope) (s : Stores) :
    ((createAppPassword P accountId draw amk label scope s).2 = s ∧
        (createAppPassword P accountId draw amk label scope s).1.isOk = false) ∨
      ∃ pk, ∃ row : AppPassword,
        derivePk P (utf8 (hexEncode draw.secret.val)) draw.salt = .ok pk ∧
        row = { id := nextRowid AppPassword.id s.appPasswords, accountId, label, scope
                salt := draw.salt.val, wrappedAmk := committingSeal P pk 1 draw.nonce amk
                createdAt := draw.now, lastUsedAt := none } ∧
        createAppPassword P accountId draw amk label scope s =
          (.ok (summaryOf row, hexEncode draw.secret.val),
            { s with appPasswords := s.appPasswords ++ [row] }) := by
  unfold createAppPassword
  rw [ofExcept_bind_run]
  cases derivePk P (utf8 (hexEncode draw.secret.val)) draw.salt with
  | error => exact .inl ⟨rfl, rfl⟩
  | ok pk =>
    simp only [Except.mapError]
    rw [sql_bind_run]
    cases draw.faults .appPasswordInsert with
    | some => exact .inl ⟨rfl, rfl⟩
    | none => exact .inr ⟨pk, _, rfl, rfl, rfl⟩

theorem revokeAppPassword_cases (accountId id : ℤ) (s : Stores) :
    ((revokeAppPassword accountId faults id s).2 = s ∧
        (revokeAppPassword accountId faults id s).1.isOk = false) ∨
      revokeAppPassword accountId faults id s = (.ok (),
        { s with appPasswords := s.appPasswords.filter fun p =>
            !(p.id == id && p.accountId == accountId) }) := by
  unfold revokeAppPassword
  rw [sql_bind_run]
  cases faults .appPasswordDelete with
  | some => exact .inl ⟨rfl, rfl⟩
  | none => exact .inr rfl

theorem unwrapAmk_state {pk : Block 32} : Keeps (Same id) (unwrapAmk P pk wrapped) :=
  .bind .ofExcept fun _ => .orPanic

theorem finishUnlock_state : Keeps (Same id) (finishUnlock P amk wrapped) :=
  .bind .ofExcept fun _ => .bind .orPanic fun _ => .pure

theorem unlock_state (password : Bytes) :
    Keeps (Same id) (unlock P keys password) :=
  .bind .ofExcept fun _ => .bind unwrapAmk_state fun _ => finishUnlock_state

theorem firstMatch_state {credential wrapped : Bytes} {ps : List AppPassword} :
    Keeps (Same id) (firstMatch P credential wrapped ps) := by
  induction ps with
  | nil => exact .throw
  | cons _ _ ih =>
    unfold firstMatch
    split
    · exact ih
    · refine .bind .ofExcept fun pk => ?_
      refine .bind (.attempt unwrapAmk_state) fun opened => ?_
      cases opened with
      | error => exact ih
      | ok => exact .bind finishUnlock_state fun _ => .pure

theorem findCredential_state (credential : Bytes) (v : Vault) :
    (findCredential P faults keys credential v).2 = v := by
  have hkeeps : Keeps (Same id) (findCredential P faults keys credential) := by
    refine .bind (.attempt (unlock_state _ _)) fun outcome => ?_
    cases outcome with
    | ok => exact .pure
    | error => exact .bind sql_keeps fun _ => .bind .get fun _ => firstMatch_state
  exact hkeeps v

theorem finishUnlock_wrapped (hcipher : P.Deciphers) {nonce : Block 24} {priv : Block 32}
    (v : Vault) :
    finishUnlock P amk (wrapPrivKey P amk nonce priv) v =
      (.ok { amk := amk.val, accountPriv := priv.val }, v) := by
  rw [finishUnlock, wrapPrivKey, aeadOpen_aeadSeal hcipher nonce.property]
  simp only [Except.mapError]
  rw [ofExcept_bind_run]
  simp only [orPanic_bind_run, Block.ofBytes_val]
  rfl

end
end Litterae.Auth
