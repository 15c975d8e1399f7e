import Litterae.Jmap.Session
import Litterae.Smtp.Submission

/-! # Throttled logins of the mailbox listeners

`find_by_address` compares the domain in lower case, and the throttle of both listeners is keyed by
the login as the client spelled it. A failed attempt locks out the spelling it was made under.
-/

namespace Litterae.Login
open Foundations Jmap Exec

variable {account : Account}

section
variable {accounts : List Account} {localPart domain otherLocalPart otherDomain : Text}

theorem findByAddress_some (h : findByAddress accounts localPart domain = some account) :
    account.localPart = localPart ∧ account.domain = domain.map Char.toLower := by
  have hfound := List.find?_some h
  simpa using hfound

theorem loginIdentity_eq_iff (h : findByAddress accounts localPart domain = some account)
    (hother : findByAddress accounts otherLocalPart otherDomain = some account) :
    loginIdentity otherLocalPart otherDomain = loginIdentity localPart domain ↔
      otherDomain = domain := by
  obtain ⟨hlocal, -⟩ := findByAddress_some h
  obtain ⟨hlocal', -⟩ := findByAddress_some hother
  rw [loginIdentity, loginIdentity, ← hlocal, ← hlocal']
  simp

end

section
variable {io : UnlockIo} {identity : Text} {s : AppState}

theorem unlockFailed_throttle {detail : Text} :
    (unlockFailed io identity detail s).2.loginThrottle =
      s.loginThrottle.recordFailure (io.instants 1) identity := by
  simp only [unlockFailed, bind_run, onThrottle, audit, modify_run, throw_run]
  split <;> rfl

theorem unlockAccount_throttle {password : Text}
    (h : (unlockAccount io identity account password s).1 = .err .unauthorized) :
    (unlockAccount io identity account password s).2.loginThrottle =
      s.loginThrottle.recordFailure (io.instants 1) identity := by
  rw [unlockAccount, throwIf_bind_run] at h ⊢
  cases hpermit : io.permit with
  | false => simp [hpermit] at h
  | true =>
    simp only [hpermit, Bool.not_true, Bool.false_eq_true, if_false] at h ⊢
    cases houtcome : io.unlockAny account password with
    | lost => simp [houtcome] at h
    | refused => exact unlockFailed_throttle
    | unlocked _ scope used =>
      simp only [houtcome, attempt_bind_run] at h ⊢
      have hthrottle : (onStores (touchAppPassword io used) s).2.loginThrottle = s.loginThrottle := rfl
      match hused : onStores (touchAppPassword io used) s with
      | (.panic, t) => simp [hused] at h
      | (.err e, t) =>
        rw [hused] at hthrottle
        simp only [← hthrottle]
        exact unlockFailed_throttle
      | (.ok (), t) =>
        rw [hused] at hthrottle
        simp only [hused] at h ⊢
        cases scope with
        | submission =>
          rw [← hthrottle]
          exact unlockFailed_throttle
        | full => cases h

theorem unlock_throttle {localPart domain password : Text}
    (h : (unlock io localPart domain password s).1 = .err .unauthorized) :
    (unlock io localPart domain password s).2.loginThrottle =
      s.loginThrottle.recordFailure (io.instants 1) (loginIdentity localPart domain) := by
  rw [unlock, get_bind_run, throwIf_bind_run] at h ⊢
  split at h
  · cases h
  · next hfree =>
    rw [if_neg hfree]
    have hlookup : ∀ f : Unit → Exec AppState StatusCode (Text × ℤ),
        ((onStores (sql io.faults (.accountByAddress 0))).mapErr (fun _ => .internalServerError) >>= f) s =
          (io.faults (.accountByAddress 0)).elim (f () s) fun _ => (.err .internalServerError, s) := by
      intro f
      rw [bind_run, mapErr, onStores, zoom, sql_run]
      cases io.faults (.accountByAddress 0) <;> rfl
    rw [hlookup] at h ⊢
    cases hfault : io.faults (.accountByAddress 0) with
    | some => simp [hfault] at h
    | none =>
      simp only [hfault, Option.elim_none] at h ⊢
      cases hfound : findByAddress s.stores.accounts localPart domain with
      | none => exact unlockFailed_throttle
      | some =>
        simp only [hfound] at h
        exact unlockAccount_throttle h

end

section
open Smtp.Submission

variable {P : Primitives} {io : Io} {w : World}

theorem authFailed_throttle (authcid : Text) :
    (authFailed io authcid w).throttle = w.throttle.recordFailure io.instant authcid := by
  unfold authFailed auditLog
  split <;> rfl

def Submitted (P : Primitives) (payload localPart domain passwd : Text) : Prop :=
  (P.base64Decode (trim payload)).bind (parseSaslPlain P) =
    some (loginIdentity localPart domain, passwd) ∧
    splitOnce '@' (loginIdentity localPart domain) = some (localPart, domain)

theorem checkCredentials_throttle {payload localPart domain passwd : Text}
    (hsubmitted : Submitted P payload localPart domain passwd)
    (hfree : w.throttle.check io.instant (loginIdentity localPart domain) = .ok ())
    (hlookup : io.faults (.accountByAddress 0) = none)
    (hfound : findByAddress w.stores.accounts localPart domain = some account)
    (hrefused : io.unlockAny account passwd = some false) :
    (checkCredentials P io payload w).2.throttle =
      w.throttle.recordFailure io.instant (loginIdentity localPart domain) := by
  obtain ⟨hpayload, hsplit⟩ := hsubmitted
  simp only [checkCredentials, hpayload, hsplit, hfree, hlookup, if_true, hfound, hrefused]
  exact authFailed_throttle _

end

/-- After a refused attempt, every other spelling of the same account's login is locked out as long
as the one that was used exactly if it spells the domain alike, or was already locked until that
very instant. -/
theorem spellings_lockedAlike_iff {localPart domain otherLocalPart otherDomain : Text}
    {account : Account} :
    (∀ (io : UnlockIo) (s : AppState) (password : Text),
      findByAddress s.stores.accounts localPart domain = some account →
      findByAddress s.stores.accounts otherLocalPart otherDomain = some account →
      (unlock io localPart domain password s).1 = .err .unauthorized →
      ((unlock io localPart domain password s).2.loginThrottle.LockedAlike (io.instants 1)
          (loginIdentity localPart domain) (loginIdentity otherLocalPart otherDomain) ↔
        otherDomain = domain ∨
          max (io.instants 1) (s.loginThrottle.lockEnd (loginIdentity otherLocalPart otherDomain)) =
            io.instants 1 + s.loginThrottle.failureDelay (loginIdentity localPart domain))) ∧
    ∀ (P : Primitives) (io : Smtp.Submission.Io) (w : Smtp.Submission.World) (payload passwd : Text),
      Submitted P payload localPart domain passwd →
      w.throttle.check io.instant (loginIdentity localPart domain) = .ok () →
      io.faults (.accountByAddress 0) = none →
      findByAddress w.stores.accounts localPart domain = some account →
      findByAddress w.stores.accounts otherLocalPart otherDomain = some account →
      io.unlockAny account passwd = some false →
      ((Smtp.Submission.checkCredentials P io payload w).2.throttle.LockedAlike io.instant
          (loginIdentity localPart domain) (loginIdentity otherLocalPart otherDomain) ↔
        otherDomain = domain ∨
          max io.instant (w.throttle.lockEnd (loginIdentity otherLocalPart otherDomain)) =
            io.instant + w.throttle.failureDelay (loginIdentity localPart domain)) := by
  constructor
  · intro io s password hfound hother hrefused
    rw [unlock_throttle hrefused, LoginThrottle.lockedAlike_recordFailure_iff,
      loginIdentity_eq_iff hfound hother]
  · intro P io w payload passwd hsubmitted hfree hlookup hfound hother hrefused
    rw [checkCredentials_throttle hsubmitted hfree hlookup hfound hrefused,
      LoginThrottle.lockedAlike_recordFailure_iff, loginIdentity_eq_iff hfound hother]

def aliceAccount : Account where
  id := 1
  localPart := "alice"
  domain := "example.com"
  keyId := 1
  accountPub := []
  createdAt := 0

def aliceStores : Stores := { Stores.empty with accounts := [aliceAccount] }

def aliceIo : UnlockIo where
  faults := .none
  instants := fun _ => 5
  now := 5
  permit := true
  unlockAny := fun _ password =>
    if password = "correct horse" then .unlocked { amk := [], accountPriv := [] } .full none
    else .refused
  tokenBytes := Block.padded [1]
  auditOk := true

def aliceState : AppState where
  stores := aliceStores
  sessions := .new 1800
  loginThrottle := .new 1 60

def aliceSubmissionIo : Smtp.Submission.Io where
  writeOk := fun _ => true
  faults := .none
  instant := 5
  unlockAny := fun _ passwd => some (decide (passwd = "correct horse"))
  auditOk := true
  now := 5
  generated := .error []
  sign := fun _ _ => .ok []
  others := id
  pipelined := false
  tlsStream := none

def alicePayload : Text :=
  Char.ofNat 0 :: "alice@example.com" ++ Char.ofNat 0 :: "guess"

theorem spellings_lockedAlike_iff_upperCase :
    ¬ (unlock aliceIo "alice" "example.com" "guess"
        aliceState).2.loginThrottle.LockedAlike 5 (loginIdentity "alice" "example.com")
        (loginIdentity "alice" "EXAMPLE.com") ∧
      ¬ (Smtp.Submission.checkCredentials (Primitives.sample fun _ => none) aliceSubmissionIo
          alicePayload { stores := aliceStores, throttle := .new 1 60 }).2.throttle.LockedAlike 5
        (loginIdentity "alice" "example.com")
        (loginIdentity "alice" "EXAMPLE.com") := by
  have h := @spellings_lockedAlike_iff "alice" "example.com" "alice"
    "EXAMPLE.com" aliceAccount
  constructor
  · refine mt (h.1 aliceIo aliceState "guess" (by decide +kernel) (by decide +kernel)
      (by decide +kernel)).mp ?_
    decide +kernel
  · refine mt (h.2 (Primitives.sample fun _ => none) aliceSubmissionIo
      { stores := aliceStores, throttle := .new 1 60 } alicePayload "guess"
      ⟨by decide +kernel, by decide +kernel⟩ (by decide +kernel) rfl (by decide +kernel)
      (by decide +kernel) (by decide +kernel)).mp ?_
    decide +kernel

/-- A wrong password locks out the spelling it was sent with; with the domain in capitals the next
password is verified in the same instant. -/
theorem other_spelling_not_locked :
    let refused := unlock aliceIo "alice" "example.com" "guess" aliceState
    refused.1 = .err .unauthorized ∧
      (unlock aliceIo "alice" "example.com" "correct horse" refused.2).1 =
        .err .tooManyRequests ∧
      (unlock aliceIo "alice" "EXAMPLE.com" "correct horse" refused.2).1.isOk =
        true := by
  decide +kernel

end Litterae.Login
