import Litterae.Admin.Handlers

/-! # What a session may do before it owes nothing

A session that owes the second factor may only prove it or end; one that owes a new password may
also set it. `require_admin` is the gate, and each handler calls it by hand: `handle_guarded` says
which do. The audit log's handler does not.
-/

namespace Litterae.Admin
open Foundations Exec AdminSessionRegistry Option

/-- Nothing changes but that looks at `token` renew or end its session. -/
def Untouched (token : Text) (s t : AppState) : Prop :=
  ∃ r, Refreshed token s.sessions r ∧ t = { s with sessions := r }

instance {token : Text} : IsPreorder AppState (Untouched token) where
  refl := fun s => ⟨s.sessions, Refreshed.refl token s.sessions, rfl⟩
  trans := by
    rintro s _ _ ⟨r, hr, rfl⟩ ⟨r', hr', rfl⟩
    exact ⟨r', hr.trans hr', rfl⟩

theorem Untouched.session {token : Text} {s t : AppState} (h : Untouched token s t) {after : Session}
    (hafter : t.sessions.sessions token = some after) :
    ∃ before, s.sessions.sessions token = some before ∧
      after = { before with lastSeen := after.lastSeen } := by
  obtain ⟨r, hr, rfl⟩ := h
  exact hr.session hafter

def Refused (token : Text) (x : Exec AppState StatusCode Response) (s : AppState) : Prop :=
  (x s).1.isOk = false ∧ Untouched token s (x s).2

/-- The requests that a session which owes something must not make. -/
def lockedOut (session : Session) : Endpoint → Bool
  | .status | .login _ _ | .logout | .mfaVerify _ => false
  | .changePassword _ _ => session.mfaPending
  | _ => session.mfaPending || session.mustChangePassword

def Endpoint.guarded : Endpoint → Bool
  | .status | .login _ _ | .logout | .changePassword _ _ | .mfaVerify _ | .auditLog => false
  | _ => true

section
variable {P : Primitives} {config : Config} {io : Io} {authorization : Option Text} {token : Text}
  {session : Session} {s : AppState} {k : ℕ} {t : AppState} {found : Option Session}

theorem touchAt_untouched (k : ℕ) : Keeps (Untouched token) (Handlers.touchAt io k token) :=
  fun s => ⟨_, Refreshed.touch (io.instants k) token s.sessions, rfl⟩

theorem touchAt_ok (h : Handlers.touchAt io k token s = (.ok found, t)) :
    Untouched token s t ∧ ∀ after, found = some after →
      ∃ before, s.sessions.sessions token = some before ∧
        after = { before with lastSeen := after.lastSeen } := by
  refine ⟨(touchAt_untouched k).run h, fun after hafter => ?_⟩
  cases h
  obtain ⟨before, hlive, rfl⟩ := touch_some hafter
  exact ⟨before, hlive.1, rfl⟩

theorem touchAt_of_live (h : s.sessions.Live (io.instants k) token session) :
    Handlers.touchAt io k token s =
      (.ok (some { session with lastSeen := io.instants k }),
        { s with
          sessions :=
            s.sessions.put token (some { session with lastSeen := io.instants k }) }) := by
  have htouch := touch_of_live h
  rw [Handlers.touchAt, onSessions, update_run, htouch]

theorem touchAt_of_idle (hsession : s.sessions.sessions token = some session)
    (hidle : s.sessions.idleTimeout < io.instants k - session.lastSeen) :
    Handlers.touchAt io k token s = (.ok none, { s with sessions := s.sessions.put token none }) := by
  have htouch : s.sessions.touch (io.instants k) token = (none, s.sessions.put token none) := by
    rw [AdminSessionRegistry.touch, hsession]
    exact if_pos hidle
  rw [Handlers.touchAt, onSessions, update_run, htouch]

theorem touchAt_owes {flag : Session → Bool} {t u : AppState}
    (hflag : ∀ x seen, flag { x with lastSeen := seen } = flag x) (hst : Untouched token s t)
    (hsession : s.sessions.sessions token = some session)
    (h : Handlers.touchAt io k token t = (.ok found, u)) (hclear : found.map flag = some false) :
    flag session = false := by
  obtain ⟨after, hafter, hcleared⟩ := map_eq_some_iff.mp hclear
  obtain ⟨between, hbetween, hsame⟩ := (touchAt_ok h).2 after hafter
  obtain ⟨before, hbefore, hsame'⟩ := hst.session hbetween
  rw [hsession, some.injEq] at hbefore
  rw [hbefore, ← hflag before between.lastSeen, ← hsame', ← hflag between after.lastSeen, ← hsame]
  exact hcleared

theorem requireAdmin_untouched (hbearer : bearerToken authorization = some token) :
    Keeps (Untouched token) (Handlers.requireAdmin P config io authorization) := by
  refine Program.Only.keeps (Q := fun op => ∃ k, op = .touch k token) ?_ (requireAdmin_only ?_)
  · rintro _ ⟨k, rfl⟩
    exact touchAt_untouched k
  · intro k other hother
    exact ⟨k, by rw [some.inj (hbearer.symm.trans hother)]⟩

theorem requireAdmin_ok {adminId : ℤ} (hbearer : bearerToken authorization = some token)
    (h : Handlers.requireAdmin P config io authorization s = (.ok adminId, t)) :
    ∃ session, s.sessions.sessions token = some session ∧ session.adminId = adminId ∧
      session.mfaPending = false ∧ session.mustChangePassword = false := by
  simp only [Handlers.requireAdmin, Programs.requireAdmin, Program.exec_bind, Program.exec_perform,
    Program.exec_ofOption, Program.exec_throwIf, Program.exec_pure, hbearer, sem] at h
  rw [ofOption_some_bind] at h
  obtain ⟨found₀, s₀, hlook₀, h₀⟩ := bind_ok h
  obtain ⟨id, _, hthrow₀, h₁⟩ := bind_ok h₀
  obtain ⟨hid, rfl⟩ := ofOption_ok hthrow₀
  obtain ⟨found₁, s₁, hlook₁, h₂⟩ := bind_ok h₁
  obtain ⟨_, _, hthrow₁, h₃⟩ := bind_ok h₂
  obtain ⟨hmfa, rfl⟩ := throwIf_ok hthrow₁
  obtain ⟨found₂, s₂, hlook₂, h₄⟩ := bind_ok h₃
  obtain ⟨_, _, hthrow₂, h₅⟩ := bind_ok h₄
  obtain ⟨hpassword, rfl⟩ := throwIf_ok hthrow₂
  cases h₅
  obtain ⟨after, rfl, hafter⟩ := map_eq_some_iff.mp hid
  obtain ⟨hst₀, hstored⟩ := touchAt_ok hlook₀
  obtain ⟨session, hsession, hsame⟩ := hstored after rfl
  have hst₁ := trans_of _ hst₀ (touchAt_ok hlook₁).1
  refine ⟨session, hsession, ?_, ?_, ?_⟩
  · rw [← hafter, hsame]
  · exact touchAt_owes (fun _ _ => rfl) hst₀ hsession hlook₁ (by simpa using hmfa)
  · exact touchAt_owes (fun _ _ => rfl) hst₁ hsession hlook₂ (by simpa using hpassword)

theorem refused_of_requireAdmin (f : ℤ → Exec AppState StatusCode Response)
    (hbearer : bearerToken authorization = some token)
    (hsession : s.sessions.sessions token = some session)
    (howes : (session.mfaPending || session.mustChangePassword)) :
    Refused token (Handlers.requireAdmin P config io authorization >>= f) s := by
  have hkeeps : Untouched token s (Handlers.requireAdmin P config io authorization s).2 :=
    requireAdmin_untouched hbearer s
  match hrun : Handlers.requireAdmin P config io authorization s with
  | (.ok adminId, t) =>
    obtain ⟨stored, hstored, -, hmfa, hpassword⟩ := requireAdmin_ok hbearer hrun
    rw [hsession, some.injEq] at hstored
    rw [hstored, hmfa, hpassword] at howes
    cases howes
  | (.err e, t) =>
    rw [hrun] at hkeeps
    rw [Refused, bind_of_err hrun]
    exact ⟨rfl, hkeeps⟩
  | (.panic, t) =>
    rw [hrun] at hkeeps
    rw [Refused, bind_of_panic hrun]
    exact ⟨rfl, hkeeps⟩

theorem handle_guarded {e : Endpoint} (h : e.guarded) :
    ∃ f, handle P config io authorization e = Handlers.requireAdmin P config io authorization >>= f := by
  cases e with
  | mfaEnroll | mfaConfirm | mfaDisable =>
    exact ⟨_, Program.exec_bind _ _ _⟩
  | _ => first | exact ⟨_, rfl⟩ | cases h

variable (currentPassword newPassword : Text)

theorem changePassword_refused (hbearer : bearerToken authorization = some token)
    (hsession : s.sessions.sessions token = some session) (hmfa : session.mfaPending) :
    Refused token
      (Handlers.alone P config io (.changePassword authorization currentPassword newPassword)) s := by
  simp only [Refused, Handlers.alone, program, Programs.changePassword, Program.exec_bind,
    Program.exec_throwIf, Program.exec_ofOption, Program.exec_perform, hbearer, sem]
  rw [throwIf_bind_run]
  split
  · exact ⟨rfl, refl s⟩
  obtain ⟨found₀, s₀, hlook₀⟩ : ∃ found t, Handlers.touchAt io 0 token s = (.ok found, t) :=
    ⟨_, _, rfl⟩
  have hst₀ := (touchAt_ok hlook₀).1
  rw [ofOption_some_bind, bind_of_ok hlook₀, ofOption_bind_run]
  split
  · obtain ⟨found₁, s₁, hlook₁⟩ : ∃ found t, Handlers.touchAt io 1 token s₀ = (.ok found, t) :=
      ⟨_, _, rfl⟩
    have hst₁ := trans_of _ hst₀ (touchAt_ok hlook₁).1
    have hpending : (found₁.map Session.mfaPending != some false) := by
      rw [bne_iff_ne]
      intro hclear
      have := touchAt_owes (fun _ _ => rfl) hst₀ hsession hlook₁ hclear
      rw [hmfa] at this
      cases this
    rw [bind_of_ok hlook₁, throwIf_bind_run, if_pos hpending]
    exact ⟨rfl, hst₁⟩
  · exact ⟨rfl, hst₀⟩

/-! ## The audit log -/

theorem auditLog_untouched (hbearer : bearerToken authorization = some token) :
    Keeps (Untouched token) (Handlers.auditLog P io authorization) := by
  rw [Handlers.auditLog, hbearer, ofOption_some_bind]
  have hread : ∀ wrapKey, Keeps (Untouched token)
      (orInternal (onAudit (Audit.readRecent P io.faults wrapKey 100))) := by
    intro wrapKey
    refine .mapErr fun s => ?_
    have hstate : (onAudit (Audit.readRecent P io.faults wrapKey 100) s).2 = s := by
      rw [onAudit, zoom, Audit.readRecent_state]
    rw [hstate]
    exact refl s
  refine .bind (touchAt_untouched 0) fun found => ?_
  refine .bind .ofOption fun adminId => ?_
  refine .bind (touchAt_untouched 1) fun found => ?_
  refine .bind .ofOption fun wrapKey => ?_
  exact .bind (hread wrapKey) fun entries => .pure

/-- A live session gets the entries, whatever it owes: it must only stay live between the handler's
two looks, and its key must open the log. -/
theorem auditLog_isOk_iff (hbearer : bearerToken authorization = some token)
    (hlive : s.sessions.Live (io.instants 0) token session) :
    (Handlers.auditLog P io authorization s).1.isOk ↔
      io.instants 1 - io.instants 0 ≤ s.sessions.idleTimeout ∧
        Audit.Readable P io.faults session.wrapKey 100 s.auditStore := by
  rw [Handlers.auditLog, hbearer, ofOption_some_bind, bind_of_ok (touchAt_of_live hlive),
    ofOption_bind_run]
  by_cases hidle : io.instants 1 - io.instants 0 ≤ s.sessions.idleTimeout
  · rw [bind_of_ok (touchAt_of_live ⟨put_self _ _ _, hidle⟩),
      ofOption_bind_run]
    simp only [map_some]
    rw [isOk_bind_pure, orInternal, orStatus, isOk_mapErr]
    exact Audit.readRecent_isOk_iff.trans (and_iff_right hidle).symm
  · have hlong : s.sessions.idleTimeout < io.instants 1 - io.instants 0 := by omega
    rw [bind_of_ok (touchAt_of_idle (put_self _ _ _) hlong),
      ofOption_bind_run]
    exact iff_of_false (by simp [Res.isOk]) fun h => hidle h.1

/-- Every endpoint refuses a session that owes too much for it, except that the audit log is given
to any session whose key opens it. -/
theorem lockedOut_refused_iff (P : Primitives) (config : Config) (io : Io)
    (authorization : Option Text) (token : Text) (session : Session) (s : AppState) (e : Endpoint)
    (hbearer : bearerToken authorization = some token)
    (hlive : s.sessions.Live (io.instants 0) token session) (hlocked : lockedOut session e) :
    Refused token (handle P config io authorization e) s ↔
      ¬(e = .auditLog ∧ io.instants 1 - io.instants 0 ≤ s.sessions.idleTimeout ∧
        Audit.Readable P io.faults session.wrapKey 100 s.auditStore) := by
  by_cases hguarded : e.guarded
  · have hother : e ≠ .auditLog := fun he => by rw [he] at hguarded; cases hguarded
    obtain ⟨f, hf⟩ := @handle_guarded P config io authorization e hguarded
    have howes : (session.mfaPending || session.mustChangePassword) := by
      cases e <;> first | exact hlocked | cases hguarded
    rw [hf]
    exact iff_of_true (refused_of_requireAdmin f hbearer hlive.1 howes) fun h => hother h.1
  · cases e with
    | changePassword currentPassword newPassword =>
      exact iff_of_true (changePassword_refused currentPassword newPassword hbearer hlive.1 hlocked)
        fun h => by cases h.1
    | auditLog =>
      have hkeeps : Untouched token s (Handlers.auditLog P io authorization s).2 :=
        auditLog_untouched hbearer s
      have hhandle : handle P config io authorization .auditLog =
          Handlers.auditLog P io authorization := rfl
      rw [hhandle, Refused, and_iff_left hkeeps, ← Bool.not_eq_true, auditLog_isOk_iff hbearer hlive,
        and_iff_right rfl]
    | status | login | logout | mfaVerify => cases hlocked
    | _ => exact absurd rfl hguarded

end

/-! ## A first administrator -/

def sampleConfig : Config := { serverDomain := "example.com", logging := false }

def samplePrimitives : Primitives := Primitives.sample fun _ => none

/-- A request on which nothing fails; `seed` tells its random bytes apart. -/
def sampleIo (seed : UInt8) : Io where
  faults := .none
  instants := fun _ => 0
  now := fun _ => 1700000000
  nowNanos := 1700000000000000000
  permit := true
  tokenBytes := Block.padded [seed]
  salt := Block.padded [seed]
  nonce := fun _ => Block.padded [seed]
  hpkeRandom := []
  totpSecret := [1, 2, 3]
  recoveryCodes := [[4], [5]]
  domainToken := Block.padded [seed]
  accountPub := Block.padded [seed]
  generated := .ok ([], [])
  txtRecords := []
  readDir := none

def sampleToken (seed : UInt8) : Text := hexEncode (sampleIo seed).tokenBytes.val

def sampleKeys : Audit.KeyDraw where
  auditPub := Block.padded [1]
  auditPriv := Block.padded [2]
  signPub := Block.padded [3]
  signPriv := Block.padded [4]
  chainKey := Block.padded [5]
  nonce := Block.padded [6]

def sampleAuthorization (seed : UInt8) : Option Text := some ("Bearer " ++ sampleToken seed)

def sampleAfter (requests : List Request) : AppState :=
  requests.foldl (serve samplePrimitives sampleConfig)
    ((startup samplePrimitives (sampleIo 0) sampleKeys "admin" "first password"
      .fresh).getD .fresh)

def sampleLogin : List Request := [⟨sampleIo 1, none, .login "admin" "first password"⟩]

/-- They set a password and a second factor, log out, and log in with the password alone. -/
def sampleSecondFactor : List Request :=
  sampleLogin ++
    [⟨sampleIo 2, sampleAuthorization 1,
        .changePassword "first password" "second password"⟩,
     ⟨sampleIo 3, sampleAuthorization 1, .mfaEnroll⟩,
     ⟨sampleIo 4, sampleAuthorization 1, .mfaConfirm "123456"⟩,
     ⟨sampleIo 5, sampleAuthorization 1, .logout⟩,
     ⟨sampleIo 6, none, .login "admin" "second password"⟩]

def sampleEntry (seq : ℤ) (action detail : String) : Audit.Entry :=
  { seq, at_ := 1700000000, action := action.toList, detail := detail.toList }

/-- What a session of `sampleAfter` owes, and what it gets when it asks for the audit log. -/
def sampleAudit (requests : List Request) (seed : UInt8) :
    Option (Bool × Bool) × Res StatusCode Response :=
  (((sampleAfter requests).sessions.sessions (sampleToken seed)).map fun session =>
      (session.mustChangePassword, session.mfaPending),
    (handle samplePrimitives sampleConfig (sampleIo 7) (sampleAuthorization seed) .auditLog
      (sampleAfter requests)).1)

theorem lockedOut_refused_iff_listDomains :
    Refused (sampleToken 1)
      (handle samplePrimitives sampleConfig (sampleIo 7) (sampleAuthorization 1) .listDomains)
      (sampleAfter sampleLogin) := by
  have hsession : (sampleAfter sampleLogin).sessions.sessions (sampleToken 1) =
      some { adminId := 1, wrapKey := Block.padded (utf8 "first password")
             mustChangePassword := true, mfaPending := false, lastSeen := 0 } := by
    decide +kernel
  refine (lockedOut_refused_iff samplePrimitives sampleConfig (sampleIo 7) (sampleAuthorization 1)
    (sampleToken 1) _ (sampleAfter sampleLogin) .listDomains (by decide +kernel)
    ⟨hsession, Nat.zero_le _⟩ rfl).mpr ?_
  rintro ⟨hother, -⟩
  cases hother

/-- The audit log is read by a session that still owes its new password, and by one that still owes
its second factor. -/
theorem auditLog_before_second_factor :
    sampleAudit sampleLogin 1 =
        (some (true, false), .ok (.audit [sampleEntry 1 "auth.login" "admin"])) ∧
      sampleAudit sampleSecondFactor 6 =
        (some (false, true),
          .ok (.audit
            [sampleEntry 6 "auth.login" "admin", sampleEntry 5 "session.close" "1",
             sampleEntry 4 "admin.mfa_enabled" "admin",
             sampleEntry 3 "admin.mfa_enroll_started" "admin",
             sampleEntry 2 "admin.password_change" "admin",
             sampleEntry 1 "auth.login" "admin"])) := by
  constructor
  · decide +kernel
  · decide +kernel

end Litterae.Admin
