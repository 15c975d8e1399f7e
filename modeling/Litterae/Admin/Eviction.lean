import Litterae.Admin.Concurrent

/-! # What a password change ends

A password change keeps the session it came from and ends every other one, so that a password that
is no longer valid leaves no session behind. The passwords of an administrator are numbered by the
writes before them.
-/

namespace Litterae.Admin
open Foundations Exec AdminSessionRegistry List Option

def Op.setsPassword (adminId : ℤ) : Op → Bool
  | .changePassword id _ => id == adminId
  | _ => false

def verifies (adminId : ℤ) : Done Op.Ret → Bool
  | ⟨.verifyLogin _ _, some (admin, _)⟩ => admin.id == adminId
  | _ => false

def opens (token : Text) : Done Op.Ret → Bool
  | ⟨.createSession _ _ _ _, answer⟩ => answer == token
  | _ => false

/-! What has happened is read from the end: `past` has the newest event first. -/

/-- The number of the administrator's password, which is how often it has been written. -/
def passwordNumber (adminId : ℤ) (past : List (Event Op.Ret)) : ℕ :=
  past.countP fun e => e.did.op.setsPassword adminId

def provedNumber (i : ℕ) (adminId : ℤ) : List (Event Op.Ret) → ℕ
  | [] => 0
  | e :: past =>
    if e.flight = i ∧ verifies adminId e.did = true then passwordNumber adminId past
    else provedNumber i adminId past

def writtenNumber (i : ℕ) (adminId : ℤ) : List (Event Op.Ret) → ℕ
  | [] => 0
  | e :: past =>
    if e.flight = i ∧ e.did.op.setsPassword adminId = true then passwordNumber adminId past + 1
    else writtenNumber i adminId past

def opener (token : Text) : List (Event Op.Ret) → Option ℕ
  | [] => none
  | e :: past => if opens token e.did then some e.flight else opener token past

/-- A login that opens its session has proved the password that is valid now. -/
def upToDate (p : Server) : Act → Bool
  | .perform i _ =>
    match p.next i with
    | some (.createSession adminId _ _ _) =>
      provedNumber i adminId p.log.reverse == passwordNumber adminId p.log.reverse
    | _ => true
  | _ => true

/-- Once a change is completed, the sessions that are left have proved its password or a later one,
but for the session it came from. -/
def Evicted (r : AdminSessionRegistry) (log : List (Event Op.Ret)) : Prop :=
  ∀ c kept adminId newWrapKey,
    ⟨c, .completePasswordChange kept adminId newWrapKey, true⟩ ∈ log →
    ∀ token session i, token ≠ kept → r.sessions token = some session →
      opener token log.reverse = some i →
      writtenNumber c session.adminId log.reverse ≤ provedNumber i session.adminId log.reverse

variable {token : Text} {i : ℕ} {adminId : ℤ}

section
variable {past : List (Event Op.Ret)} {e : Event Op.Ret}

theorem writtenNumber_le (i : ℕ) (adminId : ℤ) (past : List (Event Op.Ret)) :
    writtenNumber i adminId past ≤ passwordNumber adminId past := by
  induction past with
  | nil => exact Nat.le_refl _
  | cons e past ih =>
    have hcount : passwordNumber adminId (e :: past) = passwordNumber adminId past +
        if e.did.op.setsPassword adminId = true then 1 else 0 := countP_cons
    rw [writtenNumber, hcount]
    split
    · next h => rw [if_pos h.2]
    · exact Nat.le_trans ih (Nat.le_add_right _ _)

theorem opener_mem (h : opener token past = some i) :
    ∃ d, opens token d ∧ (⟨i, d⟩ : Event Op.Ret) ∈ past := by
  induction past with
  | nil => cases h
  | cons e _ ih =>
    rw [opener] at h
    split at h
    · next hopens =>
      obtain rfl : e.flight = i := some.inj h
      exact ⟨e.did, hopens, mem_cons_self⟩
    · obtain ⟨d, hd, hmem⟩ := ih h
      exact ⟨d, hd, mem_cons_of_mem _ hmem⟩

theorem provedNumber_cons_of_not (h : ¬(e.flight = i ∧ verifies adminId e.did)) :
    provedNumber i adminId (e :: past) = provedNumber i adminId past := if_neg h

theorem writtenNumber_cons_of_not (h : ¬(e.flight = i ∧ e.did.op.setsPassword adminId)) :
    writtenNumber i adminId (e :: past) = writtenNumber i adminId past := if_neg h

end

variable {r : AdminSessionRegistry}

/-! ## What a call does to the sessions -/

/-- Every session that is there afterwards was there before, for the same administrator. -/
def Kept (r r' : AdminSessionRegistry) : Prop :=
  ∀ token after, r'.sessions token = some after →
    ∃ before, r.sessions token = some before ∧ before.adminId = after.adminId

theorem Kept.refl (r : AdminSessionRegistry) : Kept r r := fun _ after h => ⟨after, h, rfl⟩

theorem Kept.of_put {session : Option Session} (h : ∀ after, session = some after →
      ∃ before, r.sessions token = some before ∧ before.adminId = after.adminId) :
    Kept r (r.put token session) := by
  intro other after hafter
  by_cases hother : other = token
  · subst hother
    rw [put_self] at hafter
    exact h after hafter
  · rw [put_of_ne r hother] at hafter
    exact ⟨after, hafter, rfl⟩

theorem Kept.touch (now : ℕ) (token : Text) (r : AdminSessionRegistry) :
    Kept r (r.touch now token).2 := by
  unfold AdminSessionRegistry.touch
  split
  · exact Kept.refl r
  · next s hs =>
    split
    · exact Kept.of_put nofun
    · exact Kept.of_put fun after hafter => ⟨s, hs, by rw [← some.inj hafter]⟩

theorem Kept.completeMfa (now : ℕ) (token : Text) (adminId : ℤ) (r : AdminSessionRegistry) :
    Kept r (r.completeMfa now token adminId).2 := by
  unfold AdminSessionRegistry.completeMfa
  split
  · exact Kept.refl r
  · next s hs =>
    split
    · exact Kept.refl r
    · exact Kept.of_put fun after hafter => ⟨s, hs, by rw [← some.inj hafter]⟩

variable {newWrapKey : Block 32}

theorem completePasswordChange_sessions {now : ℕ} :
    Kept r (r.completePasswordChange now token adminId newWrapKey).2 ∧
      ((r.completePasswordChange now token adminId newWrapKey).1 →
        ∀ other, other ≠ token →
          (r.completePasswordChange now token adminId newWrapKey).2.sessions other = none) := by
  unfold AdminSessionRegistry.completePasswordChange
  split
  · exact ⟨Kept.refl r, nofun⟩
  · next s hs =>
    split
    · exact ⟨Kept.refl r, nofun⟩
    · refine ⟨fun other after hafter => ?_, fun _ other hother => if_neg hother⟩
      by_cases hother : other = token
      · subst hother
        simp only [if_true, some.injEq] at hafter
        exact ⟨s, hs, by rw [← hafter]⟩
      · simp [hother] at hafter

variable {config : Config} {op : Op} {io : Io} {P : Primitives}

section
variable {s : AppState}

theorem sem_kept (h : ∀ adminId wrapKey mustChangePassword mfaPending,
      op ≠ .createSession adminId wrapKey mustChangePassword mfaPending) :
    Kept s.sessions (sem P config io op s).2.sessions := by
  have hadmin : ∀ {α : Type} (x : Exec AdminStore Error α),
      Kept s.sessions (orInternal (onAdmin x) s).2.sessions := fun x => by
    rw [onAdmin_state]
    exact Kept.refl _
  cases op with
  | touch k token => exact Kept.touch (io.instants k) token s.sessions
  | createSession => exact absurd rfl (h _ _ _ _)
  | removeSession => exact Kept.of_put nofun
  | completePasswordChange => exact completePasswordChange_sessions.1
  | completeMfa token adminId => exact Kept.completeMfa (io.instants 5) token adminId s.sessions
  | acquirePermit => rw [acquirePermit_state]; exact Kept.refl _
  | rewrapAuditKey => rw [rewrapAuditKey_state.choose_spec]; exact Kept.refl _
  | audit => rw [audit_state]; exact Kept.refl _
  | verifyLogin | usernameForId | changePassword | rewrapTotpSecret | isTotpEnabled
  | setPendingTotp | totpSecret | confirmTotp | disableTotp | recoveryCodes | setRecoveryCodes =>
    exact hadmin _
  | throttled | recordFailure | recordSuccess | generateSecret | checkTotp
  | generateRecoveryCodes => exact Kept.refl _

end

/-! ## Every interleaving -/

section
variable {p q : Server} {a : Act} {c : Call} {t : AppState} {k : op.Ret → Prog Response}

theorem Orderly.not_verifies (hO : Orderly P p) (hi : p.flights[i]? = some ⟨c, .call op k⟩)
    (hopener : opener token p.log.reverse = some i) (b : op.Ret) (adminId : ℤ) :
    verifies adminId ⟨op, b⟩ = false := by
  cases op with
  | verifyLogin =>
    obtain ⟨⟨op, answer⟩, hopens, hmem⟩ := opener_mem hopener
    rw [mem_reverse] at hmem
    cases op with
    | createSession => exact absurd (mem_trace.mpr hmem) (hO.next hi _ _ _ _ _)
    | _ => cases hopens
  | _ => rfl

theorem Orderly.not_setsPassword (hO : Orderly P p) (hi : p.flights[i]? = some ⟨c, .call op k⟩)
    {kept : Text} {id : ℤ} {answer : Bool}
    (hmem : ⟨i, .completePasswordChange kept id newWrapKey, answer⟩ ∈ p.log) (adminId : ℤ) :
    op.setsPassword adminId = false := by
  cases op with
  | changePassword => exact absurd (mem_trace.mpr hmem) ((hO.next hi).2 _ _ _ _)
  | _ => rfl

theorem Evicted.opened (hE : Evicted p.shared.sessions p.log) {wrapKey : Block 32}
    {mustChangePassword mfaPending : Bool}
    (hnext : p.next i = some (.createSession adminId wrapKey mustChangePassword mfaPending))
    (hG : upToDate p (.perform i io)) {b : Text}
    (hsem : sem P config io (.createSession adminId wrapKey mustChangePassword mfaPending) p.shared =
      (.ok b, t)) :
    Evicted t.sessions
      (p.log ++ [⟨i, .createSession adminId wrapKey mustChangePassword mfaPending, b⟩]) := by
  have hb : hexEncode io.tokenBytes.val = b := Res.ok.inj (congrArg Prod.fst hsem)
  have ht : t.sessions = p.shared.sessions.put b (some
      { adminId, wrapKey, mustChangePassword, mfaPending, lastSeen := io.instants 1 }) := by
    rw [← hb]
    exact (congrArg (fun x => x.2.sessions) hsem).symm
  intro changer kept id newWrapKey hmem token session j hne hsession hopener
  have hmem' : ⟨changer, .completePasswordChange kept id newWrapKey, true⟩ ∈ p.log := by
    rcases mem_append.mp hmem with hmem | hmem
    · exact hmem
    · cases mem_singleton.mp hmem
  rw [reverse_concat] at hopener ⊢
  rw [writtenNumber_cons_of_not (by rintro ⟨-, ⟨⟩⟩), provedNumber_cons_of_not (by rintro ⟨-, ⟨⟩⟩)]
  rw [ht] at hsession
  by_cases htoken : token = b
  · subst htoken
    rw [put_self, some.injEq] at hsession
    obtain rfl : i = j := by simpa [opener, opens] using hopener
    have hproved : provedNumber i adminId p.log.reverse = passwordNumber adminId p.log.reverse := by
      simpa [upToDate, hnext] using hG
    rw [← hsession, hproved]
    exact writtenNumber_le changer adminId _
  · rw [put_of_ne _ htoken] at hsession
    have hopener' : opener token p.log.reverse = some j := by
      simpa [opener, opens, Ne.symm htoken] using hopener
    exact hE changer kept id newWrapKey hmem' token session j hne hsession hopener'

theorem Evicted.answered (hO : Orderly P p) (hE : Evicted p.shared.sessions p.log)
    (hi : p.flights[i]? = some ⟨c, .call op k⟩) (hG : upToDate p (.perform i io)) {b : op.Ret}
    (hsem : sem P config io op p.shared = (.ok b, t)) :
    Evicted t.sessions (p.log ++ [⟨i, op, b⟩]) := by
  by_cases hopen : ∃ adminId wrapKey mustChangePassword mfaPending,
      op = .createSession adminId wrapKey mustChangePassword mfaPending
  · obtain ⟨adminId, wrapKey, mustChangePassword, mfaPending, rfl⟩ := hopen
    exact hE.opened (Pool.next_of_flight hi) hG hsem
  have hkept : Kept p.shared.sessions (sem P config io op p.shared).2.sessions :=
    sem_kept fun a w m f h => hopen ⟨a, w, m, f, h⟩
  rw [hsem] at hkept
  have hopens : ∀ token, opens token ⟨op, b⟩ = false := by
    intro token
    cases op with
    | createSession => exact absurd ⟨_, _, _, _, rfl⟩ hopen
    | _ => rfl
  intro changer kept id newWrapKey hmem token session j hne hsession hopener
  obtain ⟨before, hbefore, hadmin⟩ := hkept token session hsession
  rw [reverse_concat] at hopener ⊢
  have hopener' : opener token p.log.reverse = some j := by
    rw [opener, hopens] at hopener
    exact hopener
  rcases mem_append.mp hmem with hmem | hmem
  · -- A change that was completed before: neither number moves.
    have hwritten : ¬(i = changer ∧ op.setsPassword session.adminId) := by
      rintro ⟨rfl, hsets⟩
      rw [hO.not_setsPassword hi hmem] at hsets
      cases hsets
    have hproved : ¬(i = j ∧ verifies session.adminId ⟨op, b⟩ = true) := by
      rintro ⟨rfl, hverifies⟩
      rw [hO.not_verifies hi hopener'] at hverifies
      cases hverifies
    rw [writtenNumber_cons_of_not hwritten, provedNumber_cons_of_not hproved, ← hadmin]
    exact hE changer kept id newWrapKey hmem token before j hne hbefore hopener'
  · -- The change that is being completed leaves no other session.
    cases mem_singleton.mp hmem
    have hdone := congrArg Prod.fst hsem
    have hnone := completePasswordChange_sessions.2 (Res.ok.inj hdone) token hne
    have hsessions := congrArg (fun x => x.2.sessions.sessions token) hsem
    rw [show t.sessions.sessions token = none from hsessions.symm.trans hnone] at hsession
    cases hsession

theorem Evicted.step (hO : Orderly P p) (hE : Evicted p.shared.sessions p.log) (hG : upToDate p a)
    (hstep : step P config p a = some q) :
    Evicted q.shared.sessions q.log := by
  cases a with
  | boot =>
    obtain ⟨s, hs, rfl⟩ := map_eq_some_iff.mp hstep
    have hsessions : s.sessions = AppState.fresh.sessions := by
      rcases startup_cases hs with rfl | ⟨-, -, -, -, -, -, rfl⟩ <;> rfl
    intro c kept adminId newWrapKey _ token session i _ hsession
    rw [hsessions] at hsession
    cases hsession
  | launch =>
    cases hstep
    exact hE
  | perform i io =>
    cases Pool.performed (some.inj hstep) with
    | idle => exact hE
    | answered hi hsem => exact hE.answered hO hi hG hsem
    | @failed c op k r t hi ht hfail =>
      have hkept : Kept p.shared.sessions (sem P config io op p.shared).2.sessions := by
        refine sem_kept fun a w m f hop => ?_
        subst hop
        cases hfail
      rw [ht] at hkept
      intro changer kept id newWrapKey hmem token session j hne hsession hopener
      obtain ⟨before, hbefore, hadmin⟩ := hkept token session hsession
      rw [← hadmin]
      exact hE changer kept id newWrapKey hmem token before j hne hbefore hopener

/-- In every interleaving in which logins open their sessions up to date, once a password change has
succeeded every session that proved an earlier password is gone for good, but for the session that
made the change. -/
theorem changed_password_evicts (P : Primitives) (config : Config) (acts : List Act) (p : Server)
    (hrun : run (step P config) .fresh acts = some p)
    (hcurrent : Along (step P config) (fun p a => upToDate p a = true) .fresh acts) (c : ℕ)
    (authorization : Option Text) (currentPassword newPassword : Text) (response : Response)
    (hsuccess : p.flights[c]? = some
      ⟨.changePassword authorization currentPassword newPassword, .done (.ok response)⟩)
    (token : Text) (session : Session) (i : ℕ)
    (hsession : p.shared.sessions.sessions token = some session)
    (hopener : opener token p.log.reverse = some i)
    (hearlier : provedNumber i session.adminId p.log.reverse <
      writtenNumber c session.adminId p.log.reverse) :
    bearerToken authorization = some token := by
  have hinv : Orderly P p ∧ Evicted p.shared.sessions p.log :=
    run_invariant (I := fun p => Orderly P p ∧ Evicted p.shared.sessions p.log)
      (fun p a q hp hG hstep => ⟨hp.1.step hstep, hp.2.step hp.1 hG hstep⟩)
      ⟨orderly_fresh, fun _ _ _ _ hmem => nomatch hmem⟩ hcurrent hrun
  obtain ⟨kept, adminId, newWrapKey, hbearer, hcompleted⟩ :=
    ((hinv.1.heeds c _ hsuccess).here).1 authorization currentPassword newPassword rfl
  by_cases hkept : token = kept
  · rw [hbearer, hkept]
  · have hle := hinv.2 c kept adminId newWrapKey (mem_trace.mp hcompleted) token session i hkept
      hsession hopener
    omega

end

/-! ## A login overtaken by a password change -/

/-- A login has its password checked; the password is changed; then the login goes on. -/
def sampleOvertaken : List Act :=
  sampleSettled ++
    [.launch (.login "admin" "second password")] ++ Act.performs 2 3 (sampleIo 3) ++
    [.launch (.changePassword (sampleAuthorization 1) "second password"
      "third password")] ++
    Act.performs 3 10 (sampleIo 4) ++ Act.performs 2 3 (sampleIo 3)

/-- The session of a token, the request that opened it, and the numbers of the password it proved
and of the one that request `c` wrote. -/
def sampleSession (acts : List Act) (seed : UInt8) (i c : ℕ) :
    Option ℤ × Option ℕ × ℕ × ℕ :=
  let p := sampleServer samplePrimitives acts
  ((p.shared.sessions.sessions (sampleToken seed)).map Session.adminId,
    opener (sampleToken seed) p.log.reverse,
    provedNumber i 1 p.log.reverse, writtenNumber c 1 p.log.reverse)

def sampleEnd (acts : List Act) (c : ℕ) : Option (Res StatusCode Response) :=
  (sampleServer samplePrimitives acts).flights[c]?.bind fun f =>
    match f.program with
    | .done r => some r
    | .call _ _ => none

/-- The password change has succeeded, and there is a session for the password it has replaced. It
is not the one that made the change. -/
theorem session_survives_password_change :
    sampleEnd sampleOvertaken 3 = some (.ok .noContent) ∧
      sampleSession sampleOvertaken 3 2 3 = (some 1, some 2, 1, 2) ∧
      bearerToken (sampleAuthorization 1) ≠ some (sampleToken 3) := by
  refine ⟨?_, ?_, ?_⟩ <;> decide +kernel

/-- The session that makes the change is the one that stays. -/
theorem changed_password_evicts_settled :
    bearerToken (sampleAuthorization 1) = some (sampleToken 1) := by
  have hsession : (sampleServer samplePrimitives sampleSettled).shared.sessions.sessions
      (sampleToken 1) = some
        { adminId := 1
          wrapKey := Block.padded (utf8 "second password" ++ (sampleIo 2).salt.val)
          mustChangePassword := false, mfaPending := false, lastSeen := 0 } := by
    decide +kernel
  have hend : ((sampleServer samplePrimitives sampleSettled).flights[1]?.map fun f =>
      (f.request, match f.program with
        | .done r => some r
        | .call _ _ => none)) =
      some (.changePassword (sampleAuthorization 1) "first password"
        "second password", some (.ok .noContent)) := by
    decide +kernel
  obtain ⟨⟨request, program⟩, hflight, hend⟩ := map_eq_some_iff.mp hend
  cases program with
  | call => cases congrArg Prod.snd hend
  | done =>
    obtain ⟨rfl, hr⟩ := Prod.mk.inj hend
    obtain rfl := some.inj hr
    exact changed_password_evicts samplePrimitives sampleConfig sampleSettled _
      (sampleServer_run (by decide +kernel)) (by decide +kernel) 1 _ _ _ _ hflight
      (sampleToken 1) _ 0 hsession (by decide +kernel) (by decide +kernel)

end Litterae.Admin
