import Litterae.Admin.Gate
import Litterae.Audit.Chain
import Litterae.Foundations.Run

/-! # The second factor and the login share a throttle

`login` and `mfa_verify` keep their failures in one map, under the username that was sent and under
`mfa:` with the id of the administrator. Two runs are compared: a history of requests, and the same
history with further login attempts in between.
-/

namespace Litterae.Admin
open Foundations Exec Handlers AdminSessionRegistry Option Audit

/-! ## Parts of the state -/

variable {token : Text} {adminId : ℤ} {T : Text → Prop}

section
variable {r r' : AdminSessionRegistry} {t t' : LoginThrottle} {key : Text}

/-- Equal but for the sessions of the tokens in `T`. -/
def SessionsAgree (T : Text → Prop) (r r' : AdminSessionRegistry) : Prop :=
  r.idleTimeout = r'.idleTimeout ∧ ∀ token, ¬ T token → r.sessions token = r'.sessions token

def ThrottleAgree (t t' : LoginThrottle) : Prop :=
  t.baseDelay = t'.baseDelay ∧ t.maxDelay = t'.maxDelay ∧
    ∀ adminId, t.entries (mfaKey adminId) = t'.entries (mfaKey adminId)

/-- The same keys; a next entry can be appended to both logs or to neither. -/
def AuditAgree (a a' : Audit.AuditStore) : Prop :=
  a.keys = a'.keys ∧ (Audit.headHash a.rows).isSome = (Audit.headHash a'.rows).isSome

structure Agree (T : Text → Prop) (s s' : AppState) : Prop where
  adminStore : s.adminStore = s'.adminStore
  accounts : s.accounts = s'.accounts
  queueStore : s.queueStore = s'.queueStore
  auditStore : AuditAgree s.auditStore s'.auditStore
  sessions : SessionsAgree T s.sessions s'.sessions
  loginThrottle : ThrottleAgree s.loginThrottle s'.loginThrottle

theorem Agree.rfl (s : AppState) : Agree T s s :=
  ⟨Eq.refl _, Eq.refl _, Eq.refl _, ⟨Eq.refl _, Eq.refl _⟩, ⟨Eq.refl _, fun _ _ => Eq.refl _⟩,
    ⟨Eq.refl _, Eq.refl _, fun _ => Eq.refl _⟩⟩

instance : IsPreorder AppState (Agree T) where
  refl := Agree.rfl
  trans := fun _ _ _ h h' =>
    { adminStore := h.adminStore.trans h'.adminStore
      accounts := h.accounts.trans h'.accounts
      queueStore := h.queueStore.trans h'.queueStore
      auditStore := ⟨h.auditStore.1.trans h'.auditStore.1, h.auditStore.2.trans h'.auditStore.2⟩
      sessions := ⟨h.sessions.1.trans h'.sessions.1, fun token htoken =>
        (h.sessions.2 token htoken).trans (h'.sessions.2 token htoken)⟩
      loginThrottle := ⟨h.loginThrottle.1.trans h'.loginThrottle.1,
        h.loginThrottle.2.1.trans h'.loginThrottle.2.1, fun adminId =>
          (h.loginThrottle.2.2 adminId).trans (h'.loginThrottle.2.2 adminId)⟩ }

theorem Agree.symm {s s' : AppState} (h : Agree T s s') : Agree T s' s where
  adminStore := h.adminStore.symm
  accounts := h.accounts.symm
  queueStore := h.queueStore.symm
  auditStore := ⟨h.auditStore.1.symm, h.auditStore.2.symm⟩
  sessions := ⟨h.sessions.1.symm, fun token htoken => (h.sessions.2 token htoken).symm⟩
  loginThrottle := ⟨h.loginThrottle.1.symm, h.loginThrottle.2.1.symm, fun adminId =>
    (h.loginThrottle.2.2 adminId).symm⟩

theorem SessionsAgree.put (h : SessionsAgree T r r') (token : Text) (session : Option Session) :
    SessionsAgree T (r.put token session) (r'.put token session) := by
  refine ⟨h.1, fun other hother => ?_⟩
  by_cases heq : other = token
  · rw [heq, put_self, put_self]
  · rw [put_of_ne _ heq, put_of_ne _ heq, h.2 other hother]

theorem touch_agree (h : SessionsAgree T r r') (htoken : ¬ T token) (now : ℕ) :
    (r.touch now token).1 = (r'.touch now token).1 ∧
      SessionsAgree T (r.touch now token).2 (r'.touch now token).2 := by
  unfold AdminSessionRegistry.touch
  rw [← h.2 token htoken, ← h.1]
  cases r.sessions token with
  | none => exact ⟨rfl, h⟩
  | some session =>
    dsimp only
    split
    · exact ⟨rfl, h.put token none⟩
    · exact ⟨rfl, h.put token _⟩

theorem completeMfa_agree (h : SessionsAgree T r r') (htoken : ¬ T token) (now : ℕ) :
    (r.completeMfa now token adminId).1 = (r'.completeMfa now token adminId).1 ∧
      SessionsAgree T (r.completeMfa now token adminId).2 (r'.completeMfa now token adminId).2 := by
  unfold AdminSessionRegistry.completeMfa
  rw [← h.2 token htoken]
  cases r.sessions token with
  | none => exact ⟨rfl, h⟩
  | some session =>
    dsimp only
    split
    · exact ⟨rfl, h⟩
    · exact ⟨rfl, h.put token _⟩

theorem completePasswordChange_agree (h : SessionsAgree T r r') (htoken : ¬ T token) {now : ℕ}
    {key : Block 32} :
    (r.completePasswordChange now token adminId key).1 =
        (r'.completePasswordChange now token adminId key).1 ∧
      SessionsAgree T (r.completePasswordChange now token adminId key).2
        (r'.completePasswordChange now token adminId key).2 := by
  unfold AdminSessionRegistry.completePasswordChange
  rw [← h.2 token htoken]
  cases r.sessions token with
  | none => exact ⟨rfl, h⟩
  | some session =>
    dsimp only
    split
    · exact ⟨rfl, h⟩
    · exact ⟨rfl, h.1, fun _ _ => rfl⟩

theorem ThrottleAgree.put (h : ThrottleAgree t t') (key : Text)
    {entry entry' : Option ThrottleEntry} (hentry : ∀ adminId, key = mfaKey adminId → entry = entry') :
    ThrottleAgree (t.put key entry) (t'.put key entry') := by
  refine ⟨h.1, h.2.1, fun adminId => ?_⟩
  unfold LoginThrottle.put
  dsimp only
  split
  · next heq => exact hentry adminId heq.symm
  · exact h.2.2 adminId

theorem recordFailure_agree (h : ThrottleAgree t t') {now : ℕ} :
    ThrottleAgree (t.recordFailure now key) (t'.recordFailure now key) := by
  refine h.put key fun adminId hkey => ?_
  simp only [LoginThrottle.failureDelay, LoginThrottle.nextFailures, h.1, h.2.1, hkey, h.2.2 adminId]

theorem recordSuccess_agree (h : ThrottleAgree t t') :
    ThrottleAgree (t.recordSuccess key) (t'.recordSuccess key) := h.put key fun _ _ => rfl

theorem check_agree (h : ThrottleAgree t t') (now : ℕ) :
    t.check now (mfaKey adminId) = t'.check now (mfaKey adminId) := by
  unfold LoginThrottle.check
  rw [h.2.2 adminId]

theorem throttleAgree_put (hkey : ∀ adminId, key ≠ mfaKey adminId)
    (entry : Option ThrottleEntry) : ThrottleAgree t (t.put key entry) := by
  refine ⟨rfl, rfl, fun adminId => ?_⟩
  unfold LoginThrottle.put
  simp only [if_neg (hkey adminId).symm]

end

/-! ## The audit log -/

variable {P : Primitives}

section
variable {faults : Faults}

theorem headHash_concat {rows : List Audit.AuditRow} {row : Audit.AuditRow} {hash : Block 32}
    (h : row.hash = hash.val) : Audit.headHash (rows ++ [row]) = some hash := by
  rw [Audit.headHash, List.getLast?_concat]
  simp only [h]
  exact Block.ofBytes_val hash

theorem effect_head {a b : Audit.AuditStore} (h : Audit.Effect P a b) :
    (Audit.headHash a.rows).isSome = (Audit.headHash b.rows).isSome := by
  cases h with
  | unchanged | rewrapped | signed => rfl
  | logged _ hprev _ _ hhash =>
    rw [hprev]
    simp only [headHash_concat hhash, isSome_some]

theorem log_agree {now signedAt : ℤ} {random : Bytes} {action detail : Text} :
    Keeps AuditAgree (Audit.log P faults now signedAt random action detail) := fun a =>
  ⟨(log_keys now signedAt random action detail a).symm,
    effect_head (log_effect now signedAt random action detail a)⟩

theorem log_returns (now signedAt : ℤ) (random : Bytes) (action detail : Text)
    (a : Audit.AuditStore) :
    (Audit.log P faults now signedAt random action detail a).1.returns =
      ((faults .auditKeys).isSome || a.keys.isNone || (faults .auditHead).isSome ||
        (Audit.headHash a.rows).isSome) := by
  unfold Audit.log
  rw [bind_run, loadKeys_run]
  cases faults .auditKeys with
  | some => rfl
  | none =>
    cases a.keys with
    | none => rfl
    | some =>
      simp only [sql_bind_run]
      cases faults .auditHead with
      | some => rfl
      | none =>
        simp only [get_bind_run, orPanic_bind_run]
        cases Audit.headHash a.rows with
        | none => rfl
        | some =>
          refine returns_bind (NoPanic.ofExcept _) fun sealedDetail t _ => ?_
          refine returns_bind (sql_noPanic _) fun _ t _ => ?_
          refine returns_bind (NoPanic.update _ _) fun seq t _ => ?_
          exact NoPanic.ite (.bind sql_noPanic fun _ => .modify _) .pure t

end

/-! ## What the handlers are made of -/

variable {io : Io} {f : LoginThrottle → LoginThrottle} {authorization : Option Text}
  {config : Config}

section
variable {α : Type}

theorem onAdmin_respects (x : Exec AdminStore Error α) : Respects (Agree T) (onAdmin x) :=
  .zoom (S := Eq) (fun _ _ h => h.adminStore) (fun _ _ _ _ h ha => { h with adminStore := ha })
    (.eq x)

theorem onAccounts_respects {x : Exec (List Account) Error α} : Respects (Agree T) (onAccounts x) :=
  .zoom (S := Eq) (fun _ _ h => h.accounts) (fun _ _ _ _ h ha => { h with accounts := ha })
    (.eq x)

theorem onQueueStore_respects {x : Exec Queue.QueueStore Error α} :
    Respects (Agree T) (onQueueStore x) :=
  .zoom (S := Eq) (fun _ _ h => h.queueStore) (fun _ _ _ _ h hq => { h with queueStore := hq })
    (.eq x)

theorem orInternal_respects {x : Exec AppState Error α} (hx : Respects (Agree T) x) :
    Respects (Agree T) (orInternal x) := Respects.mapErr hx

theorem admin_respects {x : Exec AdminStore Error α} : Respects (Agree T) (orInternal (onAdmin x)) :=
  orInternal_respects (onAdmin_respects x)

theorem rewrapAuditKey_respects {nonce : Block 24} {oldWrapKey newWrapKey : Block 32} :
    Respects (Agree T)
      (onAudit (Audit.rewrapAuditKey P io.faults nonce oldWrapKey newWrapKey)) := by
  refine .zoom (fun _ _ h => h.auditStore) (fun _ _ _ _ h ha => { h with auditStore := ha }) ?_
  refine .bind sql_respects fun _ => ?_
  refine .get_bind (fun a a' h => by rw [h.1]) fun a => ?_
  refine .bind .ofOption fun keys => ?_
  refine .bind .ofExcept fun privBytes => ?_
  refine .bind sql_respects fun _ => .modify fun a a' h => ?_
  exact ⟨rfl, h.2⟩

theorem audit_agree (action : String) (detail : Text) :
    Keeps (Agree T) (audit P io action detail) := by
  refine .ignore fun s => ?_
  exact { Agree.rfl s with auditStore := log_agree s.auditStore }

theorem audit_respects {action : String} {detail : Text} :
    Respects (Agree T) (audit P io action detail) := by
  refine .of_keeps (fun _ _ h => h.symm) (audit_agree action detail) fun s s' h => ?_
  unfold audit
  rw [ignore_outcome, ignore_outcome]
  simp only [onAudit, zoom, log_returns, h.auditStore.1, h.auditStore.2]

theorem onSessions_respects {f : AdminSessionRegistry → α × AdminSessionRegistry}
    (hf : ∀ r r', SessionsAgree T r r' →
      (f r).1 = (f r').1 ∧ SessionsAgree T (f r).2 (f r').2) :
    Respects (Agree T) (onSessions f) :=
  .update fun s s' h =>
    ⟨(hf s.sessions s'.sessions h.sessions).1,
      { h with sessions := (hf s.sessions s'.sessions h.sessions).2 }⟩

theorem touchAt_respects (k : ℕ) (htoken : ¬ T token) :
    Respects (Agree T) (touchAt io k token) :=
  onSessions_respects fun _ _ h => touch_agree h htoken _

theorem onThrottle_respects (hf : ∀ t t', ThrottleAgree t t' → ThrottleAgree (f t) (f t')) :
    Respects (Agree T) (onThrottle f) :=
  .modify fun _ _ h => { h with loginThrottle := hf _ _ h.loginThrottle }

def Presents (T : Text → Prop) (authorization : Option Text) : Prop :=
  ∀ token, bearerToken authorization = some token → ¬ T token

end

/-! ## The requests on credentials -/

/-- A call of a request that presents none of the tokens in `T`. -/
def Op.Known (T : Text → Prop) : Op → Prop
  | .touch _ token | .completePasswordChange token _ _ | .completeMfa token _ => ¬ T token
  | .throttled _ key => ∃ adminId, key = mfaKey adminId
  | _ => True

theorem Op.Own.known {op : Op} (h : op.Own authorization) (hT : Presents T authorization) :
    op.Known T := by
  cases op with
  | touch | completePasswordChange | completeMfa => exact hT _ h
  | throttled => exact h
  | _ => trivial

theorem sem_respects {op : Op} (h : op.Known T) : Respects (Agree T) (sem P config io op) := by
  cases op with
  | touch k => exact touchAt_respects k h
  | createSession | removeSession => exact onSessions_respects fun _ _ hr => ⟨rfl, hr.put _ _⟩
  | completePasswordChange => exact onSessions_respects fun _ _ hr => completePasswordChange_agree hr h
  | completeMfa => exact onSessions_respects fun _ _ hr => completeMfa_agree hr h _
  | throttled =>
    obtain ⟨adminId, rfl⟩ := h
    exact .get_bind (fun s s' hs => by rw [check_agree hs.loginThrottle]) fun s => .pure
  | recordFailure => exact onThrottle_respects fun _ _ ht => recordFailure_agree ht
  | recordSuccess => exact onThrottle_respects fun _ _ ht => recordSuccess_agree ht
  | acquirePermit => exact .throwIf
  | rewrapAuditKey => exact orInternal_respects rewrapAuditKey_respects
  | generateSecret | checkTotp | generateRecoveryCodes => exact .pure
  | audit => exact audit_respects
  | _ => exact admin_respects

section
variable {code : Text}

theorem changePassword_own {currentPassword newPassword : Text} :
    (Programs.changePassword authorization currentPassword newPassword).Only
      (Op.Own authorization) := by
  refine .bind .throwIf fun _ => .ofOption_bind fun _ htoken => ?_
  refine .bind (.perform htoken) fun _ => .bind .ofOption fun _ => ?_
  refine .bind (.perform htoken) fun _ => .bind .throwIf fun _ => ?_
  refine .bind usernameOf_modest.own fun _ => .bind (.perform trivial) fun _ => ?_
  refine .bind (.perform trivial) fun _ => .bind .ofOption fun _ => ?_
  refine .bind (.perform trivial) fun _ => .bind (.perform trivial) fun _ => ?_
  refine .bind (.perform trivial) fun _ => .bind (.perform htoken) fun _ => ?_
  exact .bind .throwIf fun _ => .bind (.perform trivial) fun _ => trivial

theorem mfaVerify_own : (Programs.mfaVerify P authorization code).Only (Op.Own authorization) := by
  refine .ofOption_bind fun _ htoken => .bind (.perform htoken) fun _ => .bind .ofOption fun _ => ?_
  refine .bind (.perform htoken) fun _ => .bind .throwIf fun _ => ?_
  refine .bind (.perform htoken) fun _ => .bind .ofOption fun _ => ?_
  refine .bind usernameOf_modest.own fun _ => .bind (.perform ⟨_, rfl⟩) fun _ => .bind .throwIf fun _ => ?_
  refine .bind (.perform trivial) fun secret => .bind ?_ fun live => ?_
  · cases secret with
    | none => trivial
    | some => exact .perform trivial
  · split
    · exact (settleFactor_modest htoken).own
    · refine .bind (.perform trivial) fun codes => ?_
      split
      · exact (settleFactor_modest htoken).own
      · exact .bind (.perform trivial) fun _ => (settleFactor_modest htoken).own

theorem program_own {c : Call} (hc : ∀ username password, c ≠ .login username password) :
    (program P config c).Only (Op.Own c.authorization) := by
  cases c with
  | login username password => exact absurd rfl (hc username password)
  | logout => exact logout_modest.own
  | changePassword => exact changePassword_own
  | mfaVerify => exact mfaVerify_own
  | mfaEnroll => exact mfaEnroll_modest.own
  | mfaConfirm => exact mfaConfirm_modest.own
  | mfaDisable =>
    refine .bind requireAdmin_modest.own fun _ => .bind usernameOf_modest.own fun _ => ?_
    refine .bind (.perform trivial) fun _ => .bind (.perform trivial) fun _ => .bind .throwIf fun _ => ?_
    exact .bind (.perform trivial) fun _ => .bind (.perform trivial) fun _ => trivial

theorem alone_respects {c : Call} (hc : ∀ username password, c ≠ .login username password)
    (h : Presents T c.authorization) : Respects (Agree T) (alone P config io c) :=
  (program_own hc).respects fun _ hop => sem_respects (hop.known h)

theorem loginUnlocked_respects (username password : Text) :
    Respects (Agree T) ((Programs.loginUnlocked username password).exec (sem P config io)) := by
  refine Program.Only.respects (Q := Op.Known T) (fun _ => sem_respects) ?_
  refine .bind (.perform trivial) fun _ => .bind (.perform trivial) fun outcome => ?_
  cases outcome with
  | none => exact .bind (.perform trivial) fun _ => .bind (.perform trivial) fun _ => trivial
  | some =>
    exact .bind (.perform trivial) fun _ => .bind (.perform trivial) fun _ =>
      .bind (.perform trivial) fun _ => trivial

end

/-! ## The handlers -/

section

theorem status_respects : Respects (Agree T) (status io) :=
  .bind admin_respects fun _ => .bind admin_respects fun _ =>
    .bind (orInternal_respects onAccounts_respects) fun _ => .pure

section
variable (h : Presents T authorization)
include h

theorem requireAdmin_respects : Respects (Agree T) (requireAdmin P config io authorization) :=
  requireAdmin_modest.own.respects fun _ hop => sem_respects (hop.known h)

theorem createDomain_respects (name : Text) (catchAllLocalPart : Option Text) :
    Respects (Agree T) (createDomain P config io authorization name catchAllLocalPart) := by
  refine .bind (requireAdmin_respects h) fun _ => ?_
  refine .bind .throwIf fun _ => ?_
  refine .bind (.mapErr (onAdmin_respects _)) fun _ => ?_
  exact .bind audit_respects fun _ => .pure

theorem domainDkim_respects (id : ℤ) : Respects (Agree T) (domainDkim P config io authorization id) := by
  refine .bind (requireAdmin_respects h) fun _ => ?_
  refine .bind admin_respects fun _ => ?_
  refine .bind .ofOption fun _ => ?_
  refine .bind (orInternal_respects onQueueStore_respects) fun _ => ?_
  exact .bind .orPanic fun _ => .pure

theorem verifyDomain_respects (id : ℤ) :
    Respects (Agree T) (verifyDomain P config io authorization id) := by
  refine .bind (requireAdmin_respects h) fun _ => ?_
  refine .bind admin_respects fun _ => ?_
  refine .bind .ofOption fun domain => ?_
  refine .ite ?_ .pure
  refine .bind admin_respects fun _ => ?_
  exact .bind audit_respects fun _ => .pure

theorem createAccount_respects {localPart domain password : Text} :
    Respects (Agree T) (createAccount P config io authorization localPart domain password) := by
  refine .bind (requireAdmin_respects h) fun _ => ?_
  refine .bind .throwIf fun _ => ?_
  refine .bind admin_respects fun _ => ?_
  refine .bind .throwIf fun _ => ?_
  refine .bind (.mapErr onAccounts_respects) fun _ => ?_
  exact .bind audit_respects fun _ => .pure

theorem logs_respects (query : LogQuery) :
    Respects (Agree T) (logs P config io authorization query) := by
  refine .bind (requireAdmin_respects h) fun _ => .ite .pure ?_
  exact .bind .ofOption fun _ => .pure

theorem handle_respects {endpoint : Endpoint}
    (hlogin : ∀ username password, endpoint ≠ .login username password)
    (haudit : endpoint ≠ .auditLog) :
    Respects (Agree T) (handle P config io authorization endpoint) := by
  cases endpoint with
  | status => exact status_respects
  | login username password => exact absurd rfl (hlogin username password)
  | logout | changePassword | mfaVerify | mfaEnroll | mfaConfirm | mfaDisable =>
    exact alone_respects nofun h
  | listDomains =>
    exact .bind (requireAdmin_respects h) fun _ => .bind admin_respects fun _ => .pure
  | createDomain => exact createDomain_respects h _ _
  | updateDomain =>
    exact .bind (requireAdmin_respects h) fun _ =>
      .bind .throwIf fun _ => .bind admin_respects fun _ => .bind audit_respects fun _ => .pure
  | deleteDomain =>
    exact .bind (requireAdmin_respects h) fun _ => .bind admin_respects fun _ =>
      .bind audit_respects fun _ => .pure
  | domainDkim => exact domainDkim_respects h _
  | verifyDomain => exact verifyDomain_respects h _
  | listAccounts =>
    exact .bind (requireAdmin_respects h) fun _ =>
      .bind (orInternal_respects onAccounts_respects) fun _ => .pure
  | createAccount => exact createAccount_respects h
  | deleteAccount =>
    exact .bind (requireAdmin_respects h) fun _ =>
      .bind (orInternal_respects onAccounts_respects) fun _ => .bind audit_respects fun _ => .pure
  | queueStatus =>
    exact .bind (requireAdmin_respects h) fun _ =>
      .bind (orInternal_respects onQueueStore_respects) fun _ =>
        .bind (orInternal_respects onQueueStore_respects) fun _ => .pure
  | auditLog => exact absurd rfl haudit
  | logs query => exact logs_respects h query

theorem auditLog_agree {s s' : AppState} (hs : Agree T s s') :
    Agree T (auditLog P io authorization s).2 (auditLog P io authorization s').2 := by
  unfold auditLog
  cases htoken : bearerToken authorization with
  | none => exact hs
  | some token =>
    rw [ofOption_some_bind]
    refine Respects.state_bind (touchAt_respects 0 (h token htoken)) (fun _ t t' ht => ?_) hs
    refine Respects.state_bind .ofOption (fun _ t t' ht => ?_) ht
    refine Respects.state_bind (touchAt_respects 1 (h token htoken)) (fun _ t t' ht => ?_) ht
    refine Respects.state_bind .ofOption (fun wrapKey t t' ht => ?_) ht
    have hread : Keeps (Same id) (do
        let entries ← orInternal (onAudit (Audit.readRecent P io.faults wrapKey 100))
        pure (Response.audit entries)) := by
      refine .bind (.mapErr fun u => ?_) fun _ => .pure
      simp only [Same, onAudit, zoom, readRecent_state]
    exact (congrArg₂ (Agree T) (hread t) (hread t')).mpr ht

end

theorem login_run (username password : Text) (s : AppState) :
    alone P config io (.login username password) s =
      if (s.loginThrottle.check (io.instants 0) username).isOk then
        (Programs.loginUnlocked username password).exec (sem P config io) s
      else (.err .tooManyRequests, s) := by
  simp only [alone, program, Programs.login, Program.exec_bind, Program.exec_perform,
    Program.exec_throwIf]
  have hlocked : sem P config io (.throttled 0 username) s =
      (.ok (!(s.loginThrottle.check (io.instants 0) username).isOk), s) := rfl
  rw [bind_of_ok hlocked, throwIf_bind_run]
  cases (s.loginThrottle.check (io.instants 0) username).isOk <;> rfl

theorem login_agree {username password : Text} (hkey : ∀ adminId, username ≠ mfaKey adminId)
    (htoken : T (hexEncode io.tokenBytes.val)) :
    Keeps (Agree T) (alone P config io (.login username password)) := by
  have hthrottle : ∀ f : LoginThrottle → LoginThrottle, (∀ t, ThrottleAgree t (f t)) →
      Keeps (Agree T) (onThrottle f) := fun f hf => .modify fun s =>
    { Agree.rfl s with loginThrottle := hf s.loginThrottle }
  have hsession : ∀ session : Option Session, ∀ r : AdminSessionRegistry,
      SessionsAgree T r (r.put (hexEncode io.tokenBytes.val) session) := by
    intro session r
    refine ⟨rfl, fun other hother => ?_⟩
    have hne : other ≠ hexEncode io.tokenBytes.val := by
      rintro rfl
      exact hother htoken
    rw [put_of_ne _ hne]
  have hverify : Keeps (Agree T)
      (orInternal (onAdmin (AdminStore.verifyLogin P io.faults username (utf8 password)))) :=
    .mapErr fun s =>
      { Agree.rfl s with adminStore := (verifyLogin_same username (utf8 password) s.adminStore).symm }
  have hpass : Keeps (Agree T)
      ((Programs.loginUnlocked username password).exec (sem P config io)) := by
    simp only [Programs.loginUnlocked, Program.exec_bind, Program.exec_perform]
    refine .bind .throwIf fun _ => ?_
    refine .bind hverify fun outcome => ?_
    cases outcome with
    | none =>
      simp only [Program.exec_bind, Program.exec_perform]
      refine .bind (hthrottle _ fun t => throttleAgree_put hkey _) fun _ => ?_
      exact .bind (audit_agree _ _) fun _ => .throw
    | some =>
      simp only [Program.exec_bind, Program.exec_perform]
      refine .bind (hthrottle _ fun t => throttleAgree_put hkey _) fun _ => ?_
      refine .bind (.update fun s => ?_) fun _ => .bind (audit_agree _ _) fun _ => .pure
      exact { Agree.rfl (T := T) s with sessions := hsession _ s.sessions }
  intro s
  rw [login_run]
  split
  · exact hpass s
  · exact Agree.rfl s

end

/-! ## Two runs -/

section
variable (P : Primitives) (config : Config) (T : Text → Prop)

inductive Event where
  | request (req : Request)
  | attempt (io : Io) (username password : Text)

structure Runs where
  attempted : AppState
  plain : AppState

def Runs.step (r : Runs) : Event → Option Runs
  | .request req => some ⟨serve P config r.attempted req, serve P config r.plain req⟩
  | .attempt io username password =>
    some { r with attempted := serve P config r.attempted ⟨io, none, .login username password⟩ }

/-- The throttle lets a login pass. -/
def letsPass (s : AppState) (io : Io) (username : Text) : Bool :=
  (s.loginThrottle.check (io.instants 0) username).isOk

/-- An attempt does not name a key of the second factor. Its token, if it gets one, is in `T`; the
history presents no such token, and the throttle decides its logins the same way in both runs. -/
def Runs.Separated (r : Runs) : Event → Prop
  | .request req =>
    Presents T req.authorization ∧ ∀ username password, req.endpoint = .login username password →
      letsPass r.attempted req.io username = letsPass r.plain req.io username
  | .attempt io username _ => T (hexEncode io.tokenBytes.val) ∧ ∀ adminId, username ≠ mfaKey adminId

/-- Whatever second factor is shown, both runs answer the same. -/
def Runs.SameVerdicts (r : Runs) : Prop :=
  ∀ io authorization code, Presents T authorization →
    (mfaVerify P config io authorization code r.attempted).1 =
      (mfaVerify P config io authorization code r.plain).1

def afterFactors (s : AppState) (attempts : List (Io × Option Text × Text)) : AppState :=
  attempts.foldl (fun s a => serve P config s ⟨a.1, a.2.1, .mfaVerify a.2.2⟩) s

variable {P config T}

theorem Runs.step_agree {r r' : Runs} {e : Event} (h : Agree T r.attempted r.plain)
    (hsep : r.Separated T e) (hstep : r.step P config e = some r') :
    Agree T r'.attempted r'.plain := by
  cases e with
  | attempt io username password =>
    obtain rfl : _ = r' := some.inj hstep
    exact trans_of (Agree T) (login_agree hsep.2 hsep.1 r.attempted).symm h
  | request req =>
    obtain rfl : _ = r' := some.inj hstep
    obtain ⟨hpresents, hlogin⟩ := hsep
    by_cases haudit : req.endpoint = .auditLog
    · simp only [serve, haudit]
      exact auditLog_agree hpresents h
    by_cases hkind : ∃ username password, req.endpoint = .login username password
    · obtain ⟨username, password, hkind⟩ := hkind
      have hpass := hlogin username password hkind
      unfold letsPass at hpass
      simp only [serve, hkind, handle, login_run, hpass]
      split
      · exact (loginUnlocked_respects username password _ _ h).2
      · exact h
    · refine (handle_respects hpresents (fun username password heq => ?_) haudit _ _ h).2
      exact hkind ⟨username, password, heq⟩

def LoginEntries (s t : AppState) : Prop :=
  ∀ key, (∀ adminId, key ≠ mfaKey adminId) → t.loginThrottle.entries key = s.loginThrottle.entries key

instance : IsPreorder AppState LoginEntries where
  refl := fun _ _ _ => rfl
  trans := fun _ _ _ h h' key hkey => (h' key hkey).trans (h key hkey)

theorem LoginEntries.of_same {α ε : Type} {x : Exec AppState ε α}
    (hx : Keeps (Same AppState.loginThrottle) x) : Keeps LoginEntries x := by
  intro s key _
  have hthrottle : (x s).2.loginThrottle = s.loginThrottle := hx s
  rw [hthrottle]

theorem sem_loginEntries {op : Op} (hop : op.Own authorization) :
    Keeps LoginEntries (sem P config io op) := by
  have hput : ∀ (f : LoginThrottle → LoginThrottle) (key : Text) (entry : LoginThrottle → _),
      (∀ t, f t = t.put key (entry t)) → (∃ adminId, key = mfaKey adminId) →
      Keeps LoginEntries (onThrottle f) := by
    rintro f _ entry hf ⟨adminId, rfl⟩
    refine .modify fun s key hkey => ?_
    simp [hf, LoginThrottle.put, hkey adminId]
  cases op with
  | touch | createSession | removeSession | completePasswordChange | completeMfa =>
    exact LoginEntries.of_same fun _ => Eq.refl _
  | throttled => exact .bind .get fun _ => .pure
  | recordFailure => exact hput _ _ _ (fun _ => rfl) hop
  | recordSuccess => exact hput _ _ _ (fun _ => rfl) hop
  | acquirePermit => exact .throwIf
  | generateSecret | checkTotp | generateRecoveryCodes => exact .pure
  | audit => exact LoginEntries.of_same (.ignore fun _ => Eq.refl _)
  | _ => exact LoginEntries.of_same (.mapErr fun _ => Eq.refl _)

theorem mfaVerify_loginEntries (authorization : Option Text) (code : Text) :
    Keeps LoginEntries (mfaVerify P config io authorization code) :=
  mfaVerify_own.keeps fun _ => sem_loginEntries

theorem afterFactors_loginEntries (s : AppState) (attempts : List (Io × Option Text × Text)) :
    LoginEntries s (afterFactors P config s attempts) := by
  induction attempts generalizing s with
  | nil => exact refl s
  | cons a _ ih => exact trans_of _ (mfaVerify_loginEntries a.2.1 a.2.2 s) (ih _)

end

/-- Login attempts that name no key of the second factor have no influence on `mfa_verify`, and
`mfa_verify` has none on the throttling of an administrator whose name is not such a key. -/
theorem second_factor_throttled_apart (P : Primitives) (config : Config) :
    (∀ (T : Text → Prop) (s : AppState) (events : List Event) (r : Runs),
      Along (Runs.step P config) (Runs.Separated T) ⟨s, s⟩ events →
      run (Runs.step P config) ⟨s, s⟩ events = some r → r.SameVerdicts P config T) ∧
    ∀ (s : AppState) (attempts : List (Io × Option Text × Text)), ∀ admin ∈ s.adminStore.admins,
      (∀ adminId, admin.username ≠ mfaKey adminId) → ∀ now,
        (afterFactors P config s attempts).loginThrottle.check now admin.username =
          s.loginThrottle.check now admin.username := by
  refine ⟨fun T s events r hsep hrun io authorization code hpresents => ?_,
    fun s attempts admin _ hname now => ?_⟩
  · have hagree : Agree T r.attempted r.plain :=
      run_invariant (fun _ _ _ h hG hstep => Runs.step_agree h hG hstep) (Agree.rfl s) hsep hrun
    have hverify : Respects (Agree T) (alone P config io (.mfaVerify authorization code)) :=
      alone_respects nofun hpresents
    exact (hverify _ _ hagree).1
  · unfold LoginThrottle.check
    rw [afterFactors_loginEntries s attempts admin.username hname]

theorem ne_mfaKey_of_head {c : Char} {rest : Text} (h : c ≠ 'm') (adminId : ℤ) :
    c :: rest ≠ mfaKey adminId := by
  intro heq
  exact h (List.cons.inj heq).1

/-- A wrong password for the administrator while a session of theirs owes the second factor. -/
def guessedName (username : String) : List Event :=
  [.attempt (sampleIo 9) username.toList "guess"]

theorem second_factor_throttled_apart_guess :
    (∃ r, run (Runs.step samplePrimitives sampleConfig)
        ⟨sampleAfter sampleSecondFactor, sampleAfter sampleSecondFactor⟩ (guessedName "admin") = some r ∧
      letsPass r.attempted (sampleIo 9) "admin" = false ∧
      (mfaVerify samplePrimitives sampleConfig (sampleIo 8) (sampleAuthorization 6) "123456"
        r.attempted).1 =
      (mfaVerify samplePrimitives sampleConfig (sampleIo 8) (sampleAuthorization 6) "123456"
        r.plain).1) ∧
    (afterFactors samplePrimitives sampleConfig (sampleAfter sampleSecondFactor)
        [(sampleIo 8, sampleAuthorization 6, "000000")]).loginThrottle.check 0 "admin" =
      (sampleAfter sampleSecondFactor).loginThrottle.check 0 "admin" := by
  obtain ⟨hverdicts, hlogins⟩ := second_factor_throttled_apart samplePrimitives sampleConfig
  have hname : ∀ adminId, "admin" ≠ mfaKey adminId := ne_mfaKey_of_head (by decide)
  constructor
  · refine ⟨_, rfl, by decide +kernel, ?_⟩
    refine hverdicts (fun token => token = sampleToken 9) _ (guessedName "admin") _ ?_ rfl _ _ _ ?_
    · exact ⟨⟨rfl, hname⟩, fun _ _ => trivial⟩
    · intro token htoken
      have hbearer : bearerToken (sampleAuthorization 6) = some (sampleToken 6) := by decide +kernel
      obtain rfl := some.inj (hbearer.symm.trans htoken)
      decide +kernel
  · obtain ⟨admin, hadmin, husername⟩ : ∃ admin ∈ (sampleAfter sampleSecondFactor).adminStore.admins,
        admin.username = "admin" := by
      decide +kernel
    rw [← husername] at hname ⊢
    exact hlogins _ _ admin hadmin hname 0

def secondFactorOf (username : Text) : AppState :=
  [⟨sampleIo 1, none, .login username "first password"⟩,
    ⟨sampleIo 2, sampleAuthorization 1,
      .changePassword "first password" "second password"⟩,
    ⟨sampleIo 3, sampleAuthorization 1, .mfaEnroll⟩,
    ⟨sampleIo 4, sampleAuthorization 1, .mfaConfirm "123456"⟩,
    ⟨sampleIo 5, sampleAuthorization 1, .logout⟩,
    ⟨sampleIo 6, none, .login username "second password"⟩].foldl
    (serve samplePrimitives sampleConfig)
    ((startup samplePrimitives (sampleIo 0) sampleKeys username "first password" .fresh).getD
      .fresh)

/-- One login attempt in the name `mfa:1` locks the second factor of administrator 1, and a wrong
second factor locks the login of an administrator of that name. -/
theorem login_locks_second_factor :
    (run (Runs.step samplePrimitives sampleConfig)
        ⟨sampleAfter sampleSecondFactor, sampleAfter sampleSecondFactor⟩ (guessedName "mfa:1")).map
      (fun r =>
        ((mfaVerify samplePrimitives sampleConfig (sampleIo 8) (sampleAuthorization 6)
            "123456" r.attempted).1,
          (mfaVerify samplePrimitives sampleConfig (sampleIo 8) (sampleAuthorization 6)
            "123456" r.plain).1)) =
      some (.err .tooManyRequests, .ok (.mfaVerify false)) ∧
    letsPass (secondFactorOf "mfa:1") (sampleIo 7) "mfa:1" = true ∧
    letsPass (afterFactors samplePrimitives sampleConfig (secondFactorOf "mfa:1")
      [(sampleIo 8, sampleAuthorization 6, "000000")]) (sampleIo 7) "mfa:1" = false := by
  refine ⟨?_, ?_, ?_⟩ <;> decide +kernel

end Litterae.Admin
