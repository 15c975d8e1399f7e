import Litterae.Auth.Store

/-! # What a credential opens

Over every history of `provision`, `create_app_password`, `revoke_app_password` and logins: a
credential opens an account exactly if it is its password or an app password of it that has not been
revoked, and it opens the account's own keys (`credentials_unlock`).
-/

namespace Litterae.Auth
open Foundations Jmap Exec Bool Crypto List Option

/-! ## Histories -/

structure Owner where
  id : ℤ
  password : Bytes
  salt : Block 16
  keys : KeyDraw
  deriving DecidableEq

def Owner.unlocked (o : Owner) : UnlockedAccount :=
  { amk := o.keys.amk.val, accountPriv := o.keys.accountPriv.val }

structure Grant where
  id : ℤ
  accountId : ℤ
  secret : Bytes
  salt : Block 16
  amk : Block 32
  scope : AppPasswordScope
  deriving DecidableEq

structure History where
  vault : Vault
  owners : List Owner
  grants : List Grant

def History.start (s : Stores) : History :=
  ⟨⟨{ s with accounts := [], appPasswords := [] }, []⟩, [], []⟩

inductive Act where
  | provision (call : ProvisionCall) (draw : KeyDraw)
  | createAppPassword (draw : AppPasswordDraw) (accountId : ℤ) (amk : Block 32) (label : Text)
      (scope : AppPasswordScope)
  | revokeAppPassword (faults : Faults) (accountId id : ℤ)
  /-- A login, which touches the app password it was made with. -/
  | unlockAny (faults : Faults) (now : ℤ) (keys : AccountKeys) (credential : Bytes)

def ownerOf (call : ProvisionCall) (draw : KeyDraw) : Res Error Account → List Owner
  | .ok account => [⟨account.id, call.password, call.salt, draw⟩]
  | _ => []

def grantOf (draw : AppPasswordDraw) (accountId : ℤ) (amk : Block 32) (scope : AppPasswordScope) :
    Res Error (AppPasswordSummary × Text) → List Grant
  | .ok (summary, plaintext) => [⟨summary.id, accountId, utf8 plaintext, draw.salt, amk, scope⟩]
  | _ => []

def step (P : Primitives) (h : History) : Act → Option History
  | .provision call draw =>
    let r := provision P call draw h.vault
    some { h with vault := r.2, owners := h.owners ++ ownerOf call draw r.1 }
  | .createAppPassword draw accountId amk label scope =>
    let r := onStores (createAppPassword P accountId draw amk.val label scope) h.vault
    some { h with vault := r.2, grants := h.grants ++ grantOf draw accountId amk scope r.1 }
  | .revokeAppPassword faults accountId id =>
    let r := onStores (revokeAppPassword accountId faults id) h.vault
    some { h with
      vault := r.2
      grants := if r.1.isOk then
          h.grants.filter fun g => !(g.id == id && g.accountId == accountId)
        else h.grants }
  | .unlockAny faults now keys credential =>
    some { h with vault := (unlockAny P faults now keys credential h.vault).2 }

/-- Who creates an app password has the account open, and so its master key. -/
def Opened (h : History) : Act → Prop
  | .createAppPassword _ accountId amk _ _ => ∃ o ∈ h.owners, o.id = accountId ∧ o.keys.amk = amk
  | _ => True

/-! ## Ideal wraps -/

structure IdealWrap (P : Primitives) : Prop where
  cipher : ∀ key nonce m, P.decrypt key nonce (P.encrypt key nonce m) = some m
  commits : ∀ key key' keyId nonce m, key' ≠ key →
    ∃ e, committingOpen P key' (committingSeal P key keyId nonce m) = .error e

/-- The key derivation works for `c`, and gives the key of the secret to no other credential. -/
def Discerns (P : Primitives) (c secret : Bytes) (salt : Block 16) : Prop :=
  (∃ pk, derivePk P c salt = .ok pk) ∧
    (derivePk P c salt = derivePk P secret salt → c = secret)

section
variable {P : Primitives} {c secret : Bytes} {salt : Block 16} {pk : Block 32}

theorem unwrapAmk_wrapAmk (hideal : IdealWrap P) (hc : Discerns P c secret salt)
    (hpk : derivePk P secret salt = .ok pk) (nonce : Block 24) (amk : Block 32) (v : Vault) :
    ∃ pk', derivePk P c salt = .ok pk' ∧
      (c = secret → unwrapAmk P pk' (wrapAmk P pk nonce amk) v = (.ok amk, v)) ∧
      (c ≠ secret → ∃ e, unwrapAmk P pk' (wrapAmk P pk nonce amk) v = (.err e, v)) := by
  obtain ⟨⟨pk', hpk'⟩, hapart⟩ := hc
  refine ⟨pk', hpk', ?_, ?_⟩
  · rintro rfl
    obtain rfl : pk' = pk := Except.ok.inj (hpk'.symm.trans hpk)
    rw [unwrapAmk, wrapAmk, committingOpen_committingSeal hideal.cipher]
    simp only [Except.mapError]
    rw [ofExcept_bind_run]
    simp only [Block.ofBytes_val]
    rfl
  · intro hne
    have hother : pk' ≠ pk := by
      rintro rfl
      exact hne (hapart (hpk'.trans hpk.symm))
    obtain ⟨e, he⟩ := hideal.commits pk pk' 1 nonce amk.val hother
    refine ⟨cryptoErr e, ?_⟩
    rw [unwrapAmk, wrapAmk, he]
    rfl

end

/-! ## The tables and what they stand for -/

structure Wraps (P : Primitives) (k : AccountKeys) (o : Owner) : Prop where
  id : k.id = o.id
  salt : k.salt = o.salt
  amk : ∃ pk, derivePk P o.password o.salt = .ok pk ∧
    k.wrappedAmk = wrapAmk P pk o.keys.amkNonce o.keys.amk
  priv : k.wrappedAccountPriv = wrapPrivKey P o.keys.amk o.keys.privNonce o.keys.accountPriv

structure Made (P : Primitives) (p : AppPassword) (g : Grant) : Prop where
  id : p.id = g.id
  accountId : p.accountId = g.accountId
  scope : p.scope = g.scope
  salt : p.salt = g.salt.val
  amk : ∃ pk nonce, derivePk P g.secret g.salt = .ok pk ∧ p.wrappedAmk = wrapAmk P pk nonce g.amk

structure Kept (P : Primitives) (h : History) : Prop where
  accounts : h.vault.stores.accounts.map Account.id = h.owners.map Owner.id
  ids : (h.owners.map Owner.id).Nodup
  keys : List.Forall₂ (Wraps P) h.vault.keys h.owners
  made : List.Forall₂ (Made P) h.vault.stores.appPasswords h.grants
  held : ∀ g ∈ h.grants, ∃ o ∈ h.owners, o.id = g.accountId ∧ o.keys.amk = g.amk

section
variable {P : Primitives} {h h' : History}

theorem kept_start (s : Stores) : Kept P (History.start s) :=
  ⟨rfl, nodup_nil, .nil, .nil, fun _ hg => absurd hg not_mem_nil⟩

theorem Kept.provision (hk : Kept P h) (call : ProvisionCall) (draw : KeyDraw)
    (hstep : step P h (.provision call draw) = some h') : Kept P h' := by
  obtain rfl := some.inj hstep
  rcases provision_cases call draw h.vault with ⟨hsame, hfail⟩ | ⟨pk, a, hpk, hid, hnew⟩
  · have hnone : ownerOf call draw (Auth.provision P call draw h.vault).1 = [] := by
      cases hr : (Auth.provision P call draw h.vault).1 with
      | ok => rw [hr] at hfail; cases hfail
      | err | panic => rfl
    simp only [hsame, hnone, append_nil]
    exact hk
  · simp only [hnew, ownerOf]
    have hnext : a.id = nextRowid Owner.id h.owners := by
      rw [hid, nextRowid, nextRowid, hk.accounts]
    refine ⟨?_, nodup_insert Owner.id hk.ids hnext, ?_, hk.made, fun g hg => ?_⟩
    · simp only [map_append, map_singleton, hk.accounts]
    · exact rel_append hk.keys (.cons ⟨rfl, rfl, ⟨pk, hpk, rfl⟩, rfl⟩ .nil)
    · obtain ⟨o, ho, heq⟩ := hk.held g hg
      exact ⟨o, mem_append_left _ ho, heq⟩

theorem Kept.createAppPassword (hk : Kept P h) {draw : AppPasswordDraw} {accountId : ℤ} {amk : Block 32}
    {label : Text} {scope : AppPasswordScope}
    (hopened : ∃ o ∈ h.owners, o.id = accountId ∧ o.keys.amk = amk)
    (hstep : step P h (.createAppPassword draw accountId amk label scope) = some h') :
    Kept P h' := by
  obtain rfl := some.inj hstep
  simp only [onStores_run]
  rcases createAppPassword_cases draw accountId amk.val label scope h.vault.stores with
    ⟨hsame, hfail⟩ | ⟨pk, row, hpk, rfl, hnew⟩
  · have hnone : grantOf draw accountId amk scope
        (Jmap.createAppPassword P accountId draw amk.val label scope h.vault.stores).1 = [] := by
      cases hr : (Jmap.createAppPassword P accountId draw amk.val label scope h.vault.stores).1 with
      | ok => rw [hr] at hfail; cases hfail
      | err | panic => rfl
    simp only [hsame, hnone, append_nil]
    exact hk
  · simp only [hnew, grantOf]
    refine ⟨hk.accounts, hk.ids, hk.keys, ?_, fun g hg => ?_⟩
    · exact rel_append hk.made (.cons ⟨rfl, rfl, rfl, rfl, pk, draw.nonce, hpk, rfl⟩ .nil)
    · rcases mem_append.mp hg with hold | hlast
      · exact hk.held g hold
      · obtain rfl := mem_singleton.mp hlast
        exact hopened

theorem Kept.revokeAppPassword (hk : Kept P h) {faults : Faults} {accountId id : ℤ}
    (hstep : step P h (.revokeAppPassword faults accountId id) = some h') : Kept P h' := by
  obtain rfl := some.inj hstep
  simp only [onStores_run]
  rcases revokeAppPassword_cases faults accountId id h.vault.stores with ⟨hsame, hfail⟩ | hdone
  · simp only [hsame, hfail]
    exact hk
  · simp only [hdone, Res.isOk, if_true]
    refine ⟨hk.accounts, hk.ids, hk.keys, ?_, fun g hg => hk.held g (mem_filter.mp hg).1⟩
    refine rel_filter (fun p g hpg => ?_) hk.made
    simp only [hpg.id, hpg.accountId]

theorem Kept.unlockAny (hk : Kept P h) {faults : Faults} {now : ℤ} {keys : AccountKeys}
    {credential : Bytes} (hstep : step P h (.unlockAny faults now keys credential) = some h') :
    Kept P h' := by
  obtain rfl := some.inj hstep
  have htouch : ∀ used, Kept P { h with vault := (onStores (touchUsed faults now used) h.vault).2 } := by
    intro used
    cases used with
    | none => exact hk
    | some =>
      rw [onStores_run, touchUsed, whenSome, sql_bind_run]
      cases faults .appPasswordTouch with
      | some => exact hk
      | none =>
        refine ⟨hk.accounts, hk.ids, hk.keys, paired_updateWhere (fun p g hpg => ?_) hk.made, hk.held⟩
        exact ⟨hpg.id, hpg.accountId, hpg.scope, hpg.salt, hpg.amk⟩
  refine state_bind (p := fun v => Kept P { h with vault := v }) ?_ fun found v hfound => ?_
  · rw [findCredential_state]
    exact hk
  obtain rfl : v = h.vault := by
    rw [← findCredential_state faults keys credential h.vault, hfound]
  refine state_bind (p := fun v => Kept P { h with vault := v }) (htouch _) fun _ w hw => ?_
  have hlast := htouch found.2.2
  rw [hw] at hlast
  exact hlast

theorem Kept.step {a : Act} (hk : Kept P h) (hopened : Opened h a) (hstep : step P h a = some h') :
    Kept P h' := by
  cases a with
  | provision call draw => exact hk.provision call draw hstep
  | createAppPassword => exact hk.createAppPassword hopened hstep
  | revokeAppPassword => exact hk.revokeAppPassword hstep
  | unlockAny => exact hk.unlockAny hstep

end

/-! ## What a login finds -/

def History.granted (h : History) (o : Owner) (c : Bytes) : Option (AppPasswordScope × Option ℤ) :=
  if c = o.password then some (.full, none)
  else (h.grants.find? fun g => g.accountId == o.id && g.secret == c).map fun g => (g.scope, some g.id)

/-- No credential of the history is taken for `c` but `c` itself. -/
def Told (P : Primitives) (c : Bytes) (h : History) : Prop :=
  (∀ o ∈ h.owners, Discerns P c o.password o.salt) ∧ ∀ g ∈ h.grants, Discerns P c g.secret g.salt

def noMatch : Error := .crypto "no matching credential"

section
variable {P : Primitives} {c : Bytes} {h : History} {o : Owner} {k : AccountKeys} {faults : Faults}

theorem firstMatch_made (hideal : IdealWrap P) {ps : List AppPassword} {gs : List Grant}
    (hmade : List.Forall₂ (Made P) ps gs) (hamk : ∀ g ∈ gs, o.keys.amk = g.amk)
    (hc : ∀ g ∈ gs, Discerns P c g.secret g.salt) (nonce : Block 24) (v : Vault) :
    firstMatch P c (wrapPrivKey P o.keys.amk nonce o.keys.accountPriv) ps v =
      ((gs.find? fun g => g.secret == c).elim (.err noMatch) fun g =>
        .ok (o.unlocked, g.scope, some g.id), v) := by
  induction hmade with
  | nil => rfl
  | @cons p g ps gs hpg _ ih =>
    obtain ⟨pk, made, hpk, hwrapped⟩ := hpg.amk
    obtain ⟨pk', hpk', hopens, hfails⟩ :=
      unwrapAmk_wrapAmk hideal (hc g mem_cons_self) hpk made g.amk v
    have ih' := ih (fun g' hg' => hamk g' (mem_cons_of_mem _ hg'))
      fun g' hg' => hc g' (mem_cons_of_mem _ hg')
    rw [firstMatch, hpg.salt, Block.ofBytes_val]
    simp only
    rw [hpk', hwrapped, ofExcept_bind_run]
    simp only [Except.mapError]
    rw [attempt_bind_run, List.find?_cons]
    by_cases hsecret : g.secret = c
    · rw [hopens hsecret.symm, hpg.scope, hpg.id, ← hamk g mem_cons_self]
      simp only [hsecret, beq_self_eq_true]
      rw [bind_of_ok (finishUnlock_wrapped hideal.cipher v), parseScope_scopeText]
      rfl
    · obtain ⟨e, he⟩ := hfails fun heq => hsecret heq.symm
      rw [he]
      simp only [beq_eq_false_iff_ne.mpr hsecret]
      exact ih'

theorem findCredential_granted (hideal : IdealWrap P) (hk : Kept P h) (ho : o ∈ h.owners)
    (hkeys : Wraps P k o) (hc : Told P c h) (hfault : faults .appPasswordList = none) :
    findCredential P faults k c h.vault =
      ((h.granted o c).elim (.err noMatch) fun r => .ok (o.unlocked, r.1, r.2), h.vault) := by
  obtain ⟨pk, hpk, hwrapped⟩ := hkeys.amk
  obtain ⟨pk', hpk', hopens, hfails⟩ :=
    unwrapAmk_wrapAmk hideal (hc.1 o ho) hpk o.keys.amkNonce o.keys.amk h.vault
  have hunlock : unlock P k c h.vault = (unwrapAmk P pk' k.wrappedAmk >>= fun amk =>
      finishUnlock P amk k.wrappedAccountPriv) h.vault := by
    rw [unlock, hkeys.salt, hpk', ofExcept_bind_run]
    rfl
  rw [findCredential, attempt_bind_run, hunlock, hwrapped, History.granted]
  by_cases hpassword : c = o.password
  · rw [bind_of_ok (hopens hpassword), hkeys.priv, finishUnlock_wrapped hideal.cipher, if_pos hpassword]
    rfl
  · obtain ⟨e, he⟩ := hfails hpassword
    rw [bind_of_err he, if_neg hpassword]
    simp only
    rw [sql_bind_run, hfault]
    simp only [get_bind_run]
    have hmade : List.Forall₂ (Made P)
        (h.vault.stores.appPasswords.filter fun p => p.accountId == k.id)
        (h.grants.filter fun g => g.accountId == o.id) :=
      rel_filter (fun p g hpg => by simp only [hpg.accountId, hkeys.id]) hk.made
    have hamk : ∀ g ∈ h.grants.filter fun g => g.accountId == o.id, o.keys.amk = g.amk := by
      intro g hg
      obtain ⟨hg, howner⟩ := mem_filter.mp hg
      obtain ⟨o', ho', hid, hsame⟩ := hk.held g hg
      obtain rfl : o' = o := inj_on_of_nodup_map hk.ids ho' ho (hid.trans (by simpa using howner))
      exact hsame
    rw [hkeys.priv, firstMatch_made hideal hmade hamk
      (fun g hg => hc.2 g (mem_filter.mp hg).1), List.find?_filter]
    simp only [decide_and, decide_eq_true]
    cases h.grants.find? fun g => g.accountId == o.id && g.secret == c <;> rfl

theorem unlockAny_granted (hideal : IdealWrap P) (hk : Kept P h) (ho : o ∈ h.owners)
    (hkeys : Wraps P k o) (hc : Told P c h) (hselect : faults .appPasswordList = none)
    (htouch : faults .appPasswordTouch = none) (now : ℤ) :
    (unlockAny P faults now k c h.vault).1 =
      (h.granted o c).elim (.err noMatch) fun r => .ok (o.unlocked, r.1) := by
  have hfind := findCredential_granted hideal hk ho hkeys hc hselect
  rw [unlockAny]
  cases hgranted : h.granted o c with
  | none =>
    rw [hgranted] at hfind
    rw [bind_of_err hfind]
    rfl
  | some r =>
    rw [hgranted] at hfind
    have hdone : ∃ v, onStores (touchUsed faults now r.2) h.vault = (.ok (), v) := by
      rw [onStores_run]
      cases r.2 with
      | none => exact ⟨_, rfl⟩
      | some =>
        rw [touchUsed, whenSome, sql_bind_run, htouch]
        exact ⟨_, rfl⟩
    obtain ⟨v, hv⟩ := hdone
    rw [bind_of_ok hfind]
    simp only
    rw [bind_of_ok hv]
    rfl

theorem granted_isSome_iff : (h.granted o c).isSome ↔
    c = o.password ∨ ∃ g ∈ h.grants, g.accountId = o.id ∧ g.secret = c := by
  rw [History.granted]
  split
  · next hpassword => simp [hpassword]
  · next hpassword => simp [hpassword]

theorem granted_scope {r : AppPasswordScope × Option ℤ} (hr : h.granted o c = some r) :
    (c = o.password → r.1 = .full) ∧
      (c ≠ o.password → ∃ g ∈ h.grants, g.accountId = o.id ∧ g.secret = c ∧ r.1 = g.scope) := by
  rw [History.granted] at hr
  split at hr
  · next hpassword =>
    cases hr
    exact ⟨fun _ => rfl, fun hne => absurd hpassword hne⟩
  · next hpassword =>
    obtain ⟨g, hg, rfl⟩ := map_eq_some_iff.mp hr
    have hmatch := List.find?_some hg
    simp only [and_eq_true, beq_iff_eq] at hmatch
    exact ⟨fun heq => absurd heq hpassword,
      fun _ => ⟨g, mem_of_find?_eq_some hg, hmatch.1, hmatch.2, rfl⟩⟩

end

/-! ## The JMAP listener -/

section
variable {io : UnlockIo} {s : AppState} {localPart domain password : Text} {account : Account}

structure Reaches (io : UnlockIo) (localPart domain : Text) (account : Account) (s : AppState) :
    Prop where
  lookup : io.faults (.accountByAddress 0) = none
  touch : io.faults .appPasswordTouch = none
  permit : io.permit = true
  found : findByAddress s.stores.accounts localPart domain = some account

def Allowed (io : UnlockIo) (localPart domain : Text) (s : AppState) : Prop :=
  (s.loginThrottle.check (io.instants 0) (loginIdentity localPart domain)).isOk = true

def sessionFor (io : UnlockIo) (account : Account) (unlocked : UnlockedAccount) : Jmap.Session where
  accountId := account.id
  unlocked := unlocked
  identity := { accountPub := account.accountPub, keyId := account.keyId, address := accountAddress account }
  lastSeen := io.instants 1
  searchIndex := none

theorem unlock_run (h : Reaches io localPart domain account s) :
    Jmap.unlock io localPart domain password s =
      if !(s.loginThrottle.check (io.instants 0) (loginIdentity localPart domain)).isOk then
        (.err .tooManyRequests, s)
      else unlockAccount io (loginIdentity localPart domain) account password s := by
  rw [Jmap.unlock, get_bind_run, throwIf_bind_run]
  have hlookup : (Jmap.onStores (sql io.faults (.accountByAddress 0))).mapErr
      (fun _ : Error => StatusCode.internalServerError) s = (.ok (), s) := by
    rw [mapErr_ok_iff, Jmap.onStores, zoom, sql_run, h.lookup]
  rw [bind_of_ok hlookup, h.found]

theorem unlockFailed_refuses {identity detail : Text} (s : AppState) :
    (unlockFailed io identity detail s).1.isOk = false ∧
      (unlockFailed io identity detail s).2.sessions = s.sessions := by
  simp only [unlockFailed, bind_run, onThrottle, audit, modify_run, throw_run]
  split <;> exact ⟨rfl, rfl⟩

theorem openSession_run (identity : Text) (unlocked : UnlockedAccount) (s : AppState) :
    ∃ t, openSession io identity account unlocked s =
        (.ok (hexEncode io.tokenBytes.val, account.id), t) ∧
      t.sessions =
        s.sessions.put (hexEncode io.tokenBytes.val) (some (sessionFor io account unlocked)) := by
  simp only [openSession, bind_run, onThrottle, onSessions, audit, modify_run, update_run, pure_run]
  split <;> exact ⟨_, rfl, rfl⟩

theorem unlockAccount_full (h : Reaches io localPart domain account s) (identity : Text)
    {unlocked : UnlockedAccount} {used : Option ℤ}
    (hcredential : io.unlockAny account password = .unlocked unlocked .full used) :
    ∃ t, unlockAccount io identity account password s =
        (.ok (hexEncode io.tokenBytes.val, account.id), t) ∧
      t.sessions =
        s.sessions.put (hexEncode io.tokenBytes.val) (some (sessionFor io account unlocked)) := by
  have htouch : ∃ t, Jmap.onStores (touchAppPassword io used) s = (.ok (), t) ∧
      t.sessions = s.sessions := by
    cases used with
    | none => exact ⟨s, rfl, rfl⟩
    | some =>
      rw [Jmap.onStores, zoom, touchAppPassword, whenSome, sql_bind_run, h.touch]
      exact ⟨_, rfl, rfl⟩
  obtain ⟨t, ht, hsessions⟩ := htouch
  obtain ⟨u, hu, hopened⟩ := @openSession_run io account identity unlocked t
  refine ⟨u, ?_, hopened.trans (by rw [hsessions])⟩
  rw [unlockAccount, throwIf_bind_run, h.permit, hcredential]
  simp only [Bool.not_true, Bool.false_eq_true, if_false]
  rw [attempt_bind_run, ht]
  exact hu

theorem unlockAccount_refuses (identity : Text)
    (hcredential : ∀ unlocked used, io.unlockAny account password ≠ .unlocked unlocked .full used)
    (s : AppState) :
    (unlockAccount io identity account password s).1.isOk = false ∧
      (unlockAccount io identity account password s).2.sessions = s.sessions := by
  rw [unlockAccount, throwIf_bind_run]
  split
  · exact ⟨rfl, rfl⟩
  cases houtcome : io.unlockAny account password with
  | lost => exact ⟨rfl, rfl⟩
  | refused => exact unlockFailed_refuses s
  | unlocked unlocked scope used =>
    cases scope with
    | full => exact absurd houtcome (hcredential unlocked used)
    | submission =>
      simp only
      rw [attempt_bind_run]
      have hsessions : (Jmap.onStores (touchAppPassword io used) s).2.sessions = s.sessions := rfl
      rcases htouch : Jmap.onStores (touchAppPassword io used) s with ⟨r, t⟩
      rw [htouch] at hsessions
      rw [← hsessions]
      cases r with
      | panic => exact ⟨rfl, rfl⟩
      | err e | ok u => exact unlockFailed_refuses t

end

/-- For every history of accounts and app passwords, every account and every credential: `unlock_any`
succeeds exactly for the password and the app passwords of the account that are not revoked, with the
keys of the account and the scope of the credential; and the JMAP listener opens a session for it
exactly when the throttle lets the attempt through and the scope is full. -/
theorem credentials_unlock {P : Primitives} (hideal : IdealWrap P) {s₀ : Stores} {acts : List Act}
    {h : History} (hrun : run (step P) (History.start s₀) acts = some h)
    (hopened : Along (step P) Opened (History.start s₀) acts) (o : Owner) (ho : o ∈ h.owners) (c : Bytes)
    (hc : Told P c h) :
    ∃ k, findBy AccountKeys.id o.id h.vault.keys = some k ∧
      (∀ (faults : Faults) (now : ℤ),
        faults .appPasswordList = none → faults .appPasswordTouch = none →
        ((unlockAny P faults now k c h.vault).1.isOk ↔
          c = o.password ∨ ∃ g ∈ h.grants, g.accountId = o.id ∧ g.secret = c) ∧
        ∀ unlocked scope, (unlockAny P faults now k c h.vault).1 = .ok (unlocked, scope) →
          unlocked = o.unlocked ∧ (c = o.password → scope = .full) ∧
            (c ≠ o.password →
              ∃ g ∈ h.grants, g.accountId = o.id ∧ g.secret = c ∧ scope = g.scope)) ∧
      ∀ io localPart domain account password (s : AppState), utf8 password = c → account.id = o.id →
        Reaches io localPart domain account s → io.unlockAny = unlockOutcome P h.vault →
        (Allowed io localPart domain s ∧
            (∃ unlocked, (unlockAny P .none io.now k c h.vault).1 = .ok (unlocked, .full)) →
          (Jmap.unlock io localPart domain password s).1 = .ok (hexEncode io.tokenBytes.val, o.id) ∧
            (Jmap.unlock io localPart domain password s).2.sessions =
              s.sessions.put (hexEncode io.tokenBytes.val) (some (sessionFor io account o.unlocked))) ∧
        (¬ (Allowed io localPart domain s ∧
            ∃ unlocked, (unlockAny P .none io.now k c h.vault).1 = .ok (unlocked, .full)) →
          (Jmap.unlock io localPart domain password s).1.isOk = false ∧
            (Jmap.unlock io localPart domain password s).2.sessions = s.sessions) := by
  have hk : Kept P h := run_invariant (fun _ _ _ hk ha hstep => hk.step ha hstep)
    (kept_start s₀) hopened hrun
  obtain ⟨k, hfound, hkeys⟩ := findBy_paired (fun k o hko => hko.id) hk.keys
    ((findBy_eq_some_iff Owner.id hk.ids).mpr ⟨ho, rfl⟩)
  refine ⟨k, hfound, fun faults now hselect htouch => ⟨?_, ?_⟩, ?_⟩
  · rw [unlockAny_granted hideal hk ho hkeys hc hselect htouch, ← granted_isSome_iff]
    cases h.granted o c <;> simp [Res.isOk]
  · intro unlocked scope hunlocked
    rw [unlockAny_granted hideal hk ho hkeys hc hselect htouch] at hunlocked
    cases hgranted : h.granted o c with
    | none => rw [hgranted] at hunlocked; cases hunlocked
    | some =>
      rw [hgranted] at hunlocked
      cases hunlocked
      exact ⟨rfl, granted_scope hgranted⟩
  · rintro io localPart domain account password s rfl hid hreaches hio
    have houtcome : io.unlockAny account password =
        (h.granted o (utf8 password)).elim .refused fun r => .unlocked o.unlocked r.1 r.2 := by
      have hfind := @findCredential_granted P (utf8 password) h o k .none hideal hk ho hkeys hc rfl
      rw [hio, unlockOutcome, hid, hfound]
      simp only [hfind]
      cases h.granted o (utf8 password) <;> rfl
    have hany := @unlockAny_granted P (utf8 password) h o k .none hideal hk ho hkeys hc rfl rfl io.now
    rw [unlock_run hreaches, hany]
    constructor
    · rintro ⟨hallowed, unlocked, hfull⟩
      have hfree : (s.loginThrottle.check (io.instants 0) (loginIdentity localPart domain)).isOk :=
        hallowed
      cases hgranted : h.granted o (utf8 password) with
      | none => rw [hgranted] at hfull; cases hfull
      | some r =>
        obtain ⟨scope, used⟩ := r
        rw [hgranted] at hfull houtcome
        cases hfull
        obtain ⟨t, ht, hsessions⟩ := unlockAccount_full hreaches (loginIdentity localPart domain) houtcome
        rw [hfree]
        simp only [Bool.not_true, Bool.false_eq_true, if_false, ht, hid]
        exact ⟨trivial, hsessions⟩
    · intro hnot
      split
      · exact ⟨rfl, rfl⟩
      · next hfree =>
        have hallowed : Allowed io localPart domain s := by
          rw [Allowed]
          simpa using hfree
        refine unlockAccount_refuses _ (fun unlocked used heq => hnot ⟨hallowed, ?_⟩) s
        rw [houtcome] at heq
        cases hgranted : h.granted o (utf8 password) with
        | none => rw [hgranted] at heq; cases heq
        | some r =>
          obtain ⟨scope, used'⟩ := r
          rw [hgranted] at heq
          cases heq
          exact ⟨_, rfl⟩

/-! An account with two app passwords, the first of which is revoked. -/

def sampleWrapper : Primitives :=
  { Primitives.sample fun _ => none with
    encrypt := fun key _ m => key ++ m
    decrypt := fun key _ ciphertext =>
      if key.isPrefixOf ciphertext then some (ciphertext.drop key.length) else none }

theorem sampleWrapper_ideal : IdealWrap sampleWrapper where
  cipher := fun key _ m => by
    have hstart : key.isPrefixOf (key ++ m) :=
      isPrefixOf_iff_prefix.mpr (prefix_append key m)
    simp only [sampleWrapper, hstart, if_true, drop_left]
  commits := by
    intro key key' keyId nonce m hne
    have hother : key'.val.isPrefixOf (key.val ++ (List.replicate zeroPrefixLen 0 ++ m)) = false := by
      rw [eq_false_iff]
      intro hstart
      obtain ⟨rest, hrest⟩ := isPrefixOf_iff_prefix.mp hstart
      have hlength : key'.val.length = key.val.length := by rw [key'.property, key.property]
      exact hne (Subtype.ext (append_inj hrest hlength).1)
    refine ⟨.openFailed, ?_⟩
    have hnonce : nonce.val.length = 24 := nonce.property
    rw [committingOpen, committingSeal, decodeHeader_encode (by omega)]
    simp only [bind, Except.bind, Crypto.AgilityHeader.new, ne_eq, not_true_eq_false, if_false, hnonce,
      sampleWrapper, hother]
    rfl

def sampleKeys : KeyDraw where
  amk := Block.padded [7]
  amkNonce := Block.padded [1]
  accountPriv := Block.padded [8]
  privNonce := Block.padded [2]

def sampleCall : ProvisionCall where
  localPart := "alice"
  domain := "example.com"
  password := utf8 "correct horse"
  now := 1700000000
  salt := Block.padded [3]
  accountPub := Block.padded [9]
  faults := .none

def sampleSecret (n : UInt8) : AppPasswordDraw where
  secret := Block.padded [n]
  salt := Block.padded [n]
  nonce := Block.padded [n]
  now := 1700000000
  faults := .none

def sampleActs : List Act :=
  [.provision sampleCall sampleKeys, .createAppPassword (sampleSecret 4) 1 sampleKeys.amk [] .full,
    .createAppPassword (sampleSecret 5) 1 sampleKeys.amk [] .submission, .revokeAppPassword .none 1 1]

def sampleOwner : Owner := ⟨1, sampleCall.password, sampleCall.salt, sampleKeys⟩

def sampleGrant : Grant :=
  ⟨2, 1, utf8 (hexEncode (sampleSecret 5).secret.val), (sampleSecret 5).salt, sampleKeys.amk, .submission⟩

instance (h : History) : (a : Act) → Decidable (Opened h a)
  | .provision _ _ => isTrue trivial
  | .createAppPassword _ accountId amk _ _ =>
    inferInstanceAs (Decidable (∃ o ∈ h.owners, o.id = accountId ∧ o.keys.amk = amk))
  | .revokeAppPassword _ _ _ => isTrue trivial
  | .unlockAny _ _ _ _ => isTrue trivial

theorem credentials_unlock_submission :
    ∃ h k, run (step sampleWrapper) (History.start .empty) sampleActs = some h ∧
      findBy AccountKeys.id 1 h.vault.keys = some k ∧
      (unlockAny sampleWrapper .none 0 k sampleGrant.secret h.vault).1.isOk ∧
      (unlockAny sampleWrapper .none 0 k sampleGrant.secret h.vault).1 =
        .ok (sampleOwner.unlocked, .submission) := by
  have hends : (run (step sampleWrapper) (History.start .empty) sampleActs).map
      (fun h => (h.owners, h.grants)) = some ([sampleOwner], [sampleGrant]) := by
    decide +kernel
  have hopened : Along (step sampleWrapper) Opened (History.start .empty) sampleActs := by
    decide +kernel
  obtain ⟨h, hrun, hfacts⟩ := map_eq_some_iff.mp hends
  obtain ⟨howners, hgrants⟩ := Prod.mk.inj hfacts
  have htold : Told sampleWrapper sampleGrant.secret h := by
    refine ⟨fun o ho => ?_, fun g hg => ?_⟩
    · rw [howners] at ho
      obtain rfl := mem_singleton.mp ho
      refine ⟨⟨_, rfl⟩, fun heq => absurd (Except.ok.inj heq) ?_⟩
      decide +kernel
    · rw [hgrants] at hg
      obtain rfl := mem_singleton.mp hg
      exact ⟨⟨_, rfl⟩, fun _ => rfl⟩
  have hgrant : sampleGrant ∈ h.grants := by
    rw [hgrants]
    exact mem_singleton_self _
  obtain ⟨k, hfound, hunlock, -⟩ := credentials_unlock sampleWrapper_ideal hrun hopened sampleOwner
    (by rw [howners]; exact mem_singleton_self _) sampleGrant.secret htold
  obtain ⟨hiff, hyields⟩ := hunlock .none 0 rfl rfl
  have hok := hiff.mpr (.inr ⟨sampleGrant, hgrant, rfl, rfl⟩)
  refine ⟨h, k, hrun, hfound, hok, ?_⟩
  obtain ⟨⟨unlocked, scope⟩, hresult⟩ := Res.isOk_iff.mp hok
  obtain ⟨rfl, -, hscope⟩ := hyields unlocked scope hresult
  obtain ⟨g, hg, -, -, rfl⟩ := hscope (by decide +kernel)
  rw [hgrants] at hg
  obtain rfl := mem_singleton.mp hg
  exact hresult

end Litterae.Auth
