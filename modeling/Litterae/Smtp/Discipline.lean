import Litterae.Smtp.Submission

/-! # Who may submit

RCPT and DATA do not look at the authenticated account, and MAIL does not look at the encryption.
That a message is queued only for the account that authenticated, under its own address and over an
encrypted stream, rests on what the earlier commands let through.
-/

namespace Litterae.Smtp.Submission
open Foundations Queue Option

/-- An account authenticated under encryption, a sender is that account's address, and recipients
come after a sender. -/
structure Disciplined (isTls : Bool) (e : Envelope) : Prop where
  encrypted : e.authenticated.isSome = true → isTls = true
  sender : ∀ addr, e.mailFrom = some addr →
    ∃ account, e.authenticated = some account ∧ eqIgnoreAsciiCase addr (address account) = true
  recipients : e.rcptTo ≠ [] → e.mailFrom.isSome = true

theorem Disciplined.account {isTls : Bool} {e : Envelope} (h : Disciplined isTls e)
    (hfrom : e.mailFrom.isSome) : e.authenticated.isSome := by
  obtain ⟨addr, haddr⟩ := isSome_iff_exists.mp hfrom
  obtain ⟨account, haccount, -⟩ := h.sender addr haddr
  exact isSome_iff_exists.mpr ⟨account, haccount⟩

theorem Disciplined.default (isTls : Bool) : Disciplined isTls .default where
  encrypted := by simp [Envelope.default]
  sender := by simp [Envelope.default]
  recipients := by simp [Envelope.default]

theorem Disciplined.turn {isTls : Bool} {e e' : Envelope} (h : Disciplined isTls e)
    (hturn : Turn isTls e e') : Disciplined isTls e' := by
  cases hturn with
  | kept => exact h
  | reset =>
    refine ⟨h.encrypted, ?_, ?_⟩
    · simp [Envelope.reset]
    · simp [Envelope.reset]
  | auth _ htls hnone =>
    -- nobody has authenticated, so there is no sender yet
    have hsender : e.mailFrom = none := by
      by_contra hsome
      obtain ⟨addr, haddr⟩ := ne_none_iff_exists'.mp hsome
      obtain ⟨account', hsomeone, -⟩ := h.sender addr haddr
      rw [hnone] at hsomeone
      cases hsomeone
    refine ⟨fun _ => htls, fun addr haddr => ?_, h.recipients⟩
    rw [hsender] at haddr
    cases haddr
  | @mail account hsome addr haddr =>
    refine ⟨h.encrypted, fun addr' haddr' => ?_, ?_⟩
    · obtain rfl : addr = addr' := some.inj haddr'
      exact ⟨account, hsome, haddr⟩
    · simp
  | rcpt hsome => exact ⟨h.encrypted, h.sender, fun _ => hsome⟩

/-! ## One turn -/

section
variable {P : Primitives} {deps : Deps} {io : Io} {s : Session}

def TurnTo (s t : Session) : Prop := t.isTls = s.isTls ∧ Turn s.isTls s.envelope t.envelope

theorem step_turn :
    TurnTo s (step P deps io s) ∨
      ((step P deps io s).isTls ∧ (step P deps io s).envelope = .default ∧
        io.pipelined = false ∧ io.tlsStream = some (step P deps io s).reader) := by
  have htakes : (server P deps).Takes io s (step P deps io s) := Server.step_takes
  generalize step P deps io s = t at htakes ⊢
  cases htakes with
  | @command l r verb rest hs =>
    have hreacts := @command_reacts P deps io { s with reader := r, world := io.others s.world }
      verb rest hs
    exact .inl ⟨hreacts.isTls, hreacts.envelope⟩
  | upgrades _ hpipelined hstream => exact .inr ⟨rfl, rfl, hpipelined, hstream⟩
  | _ => exact .inl ⟨rfl, .kept⟩

theorem step_disciplined (h : Disciplined s.isTls s.envelope) :
    Disciplined (step P deps io s).isTls (step P deps io s).envelope := by
  rcases step_turn with ⟨htls, hturn⟩ | ⟨-, henv, -⟩
  · rw [htls]
    exact h.turn hturn
  · rw [henv]
    exact .default _

theorem run_disciplined (ios : List Io) (h : Disciplined s.isTls s.envelope) :
    Disciplined (run P deps ios s).isTls (run P deps ios s).envelope :=
  Server.run_invariant (I := fun s => Disciplined s.isTls s.envelope)
    (fun _ _ => step_disciplined) ios h

end

/-! ## What reaches the queue -/

section
variable (P : Primitives) (deps : Deps)

/-- The message that a turn hands to the queue: DATA was let through and its block was read. -/
def handsOver (io : Io) (s : Session) : Option Bytes :=
  match s.status with
  | .reading =>
    match readLineBounded maxCommandLine s.reader with
    | (.line l, r) =>
      if (parseCommand P.fromUtf8Lossy l).1 = .data ∧ s.envelope.mailFrom.isSome = true ∧
          s.envelope.rcptTo ≠ [] ∧ io.writeOk 0 = true then
        (readData deps.maxMessageSize r).1.toOption
      else none
    | _ => none
  | _ => none

def SameButAudit (w w' : World) : Prop := { w'.stores with audit := w.stores.audit } = w.stores

variable {P deps} {io : Io} {s : Session}

theorem SameButAudit.rfl (w : World) : SameButAudit w w := Eq.refl _

theorem auditLog_sameButAudit (action : String) (detail : Text) (w : World) :
    SameButAudit w (auditLog io action detail w) := by
  unfold auditLog
  split
  · exact Eq.refl _
  · exact Eq.refl _

theorem checkCredentials_sameButAudit {payload : Text} {w : World} :
    SameButAudit w (checkCredentials P io payload w).2 := by
  have hlog : ∀ (action : String) (authcid : Text) (throttle : LoginThrottle),
      SameButAudit w (auditLog io action authcid { w with throttle }) := fun action authcid throttle =>
    auditLog_sameButAudit action authcid { w with throttle }
  unfold checkCredentials
  split
  · exact .rfl w
  split
  · exact .rfl w
  split
  · exact .rfl w
  · simp only
    split
    · exact hlog _ _ _
    split
    · exact .rfl w
    · exact hlog _ _ _
    · exact hlog _ _ _

variable (rest : Text)

theorem handleAuth_sameButAudit :
    SameButAudit s.world (handleAuth P io rest s).2.world := by
  unfold handleAuth
  simp only
  split
  · exact .rfl _
  split
  · split
    · split
      · exact checkCredentials_sameButAudit
      · exact .rfl _
    · exact .rfl _
  · exact checkCredentials_sameButAudit

theorem auth_sameButAudit : SameButAudit s.world (auth P io rest s).world := by
  have hworld : SameButAudit s.world (handleAuth P io rest s).2.world :=
    handleAuth_sameButAudit rest
  unfold auth
  split
  · exact .rfl _
  split
  · exact .rfl _
  split
  · next t hres => rw [hres] at hworld; exact hworld
  · next t hres => rw [hres] at hworld; exact hworld
  · next t hres => rw [hres] at hworld; exact hworld

theorem mail_world : (mail rest s).world = s.world := by
  unfold mail
  repeat' split
  all_goals rfl

theorem rcpt_world : (rcpt rest s).world = s.world := by
  unfold rcpt
  repeat' split
  all_goals rfl

theorem command_sameButAudit {verb : Verb} (hverb : verb ≠ .data) (rest : Text) :
    SameButAudit s.world (command P deps io verb rest s).world := by
  have hhelo : ∀ verb, (helo P deps io verb rest s).world = s.world := by
    intro verb
    unfold helo Session.helo
    split
    · rfl
    · rfl
  have hstart : (starttls io rest s).world = s.world := by
    unfold starttls Session.startTls
    split
    · rfl
    split
    · rfl
    · split
      · rfl
      · rfl
  cases verb with
  | ehlo | helo => rw [command, hhelo]; exact .rfl _
  | starttls => rw [command, hstart]; exact .rfl _
  | auth => exact auth_sameButAudit rest
  | mail => rw [command, mail_world]; exact .rfl _
  | rcpt => rw [command, rcpt_world]; exact .rfl _
  | data => exact absurd rfl hverb
  | rset | noop | quit | other => exact .rfl _

theorem accept_stores {account : Account} (haccount : s.envelope.authenticated = some account)
    (raw : Bytes) :
    (accept P io raw s).world.stores =
      (enqueueSubmission P io account (s.envelope.mailFrom.getD []) s.envelope.rcptTo raw
        s.world.stores).2 := by
  unfold accept
  rw [haccount]
  simp only
  split
  · rfl
  split
  · rfl
  · rfl

theorem step_of_handsOver {raw : Bytes} (h : handsOver P deps io s = some raw) :
    s.status = .reading ∧ s.envelope.mailFrom.isSome ∧ s.envelope.rcptTo ≠ [] ∧
      ∃ t : Session, t.envelope = s.envelope ∧ t.world = io.others s.world ∧
        handedOn t.log = handedOn s.log ∧ step P deps io s = accept P io raw t := by
  unfold handsOver at h
  unfold step Server.step
  split at h
  · next hstatus =>
    rw [hstatus]
    split at h
    · next l r hline =>
      simp only [server, hline]
      split at h
      · next hready =>
        obtain ⟨hverb, hfrom, hrcpt, hwrite⟩ := hready
        refine ⟨trivial, hfrom, hrcpt, ?_⟩
        rcases hcommand : parseCommand P.fromUtf8Lossy l with ⟨verb, rest⟩
        rw [hcommand] at hverb
        obtain rfl : verb = .data := hverb
        have hopen : (s.envelope.mailFrom.isNone || s.envelope.rcptTo.isEmpty) = false := by
          simp [isNone_eq_false_iff.mpr hfrom, hrcpt]
        simp only [command, data, Session.data, hopen, hwrite, if_true, Bool.false_eq_true, if_false,
          Session.receive, Session.answer]
        rcases hread : readData deps.maxMessageSize r with ⟨e | raw', r'⟩
        · rw [hread] at h
          cases h
        · rw [hread] at h
          obtain rfl : raw' = raw := some.inj h
          exact ⟨⟨r', s.envelope, s.isTls, .reading, io.others s.world,
            .command .data rest Session.startInput :: s.log⟩, rfl, rfl, rfl, rfl⟩
      · cases h
    · cases h
  · cases h

theorem step_of_not_handsOver (h : handsOver P deps io s = none) :
    (SameButAudit s.world (step P deps io s).world ∨
      SameButAudit (io.others s.world) (step P deps io s).world) ∧
    handedOn (step P deps io s).log = handedOn s.log := by
  have htakes : (server P deps).Takes io s (step P deps io s) := Server.step_takes
  generalize step P deps io s = t at htakes ⊢
  cases htakes with
  | @command l r verb rest hstatus hline hcommand =>
    by_cases hverb : verb = .data
    · subst hverb
      unfold handsOver at h
      simp only [server] at hline hcommand
      simp only [hstatus, hline, hcommand] at h
      simp only [server, command, data, Session.data]
      split
      · exact ⟨.inr (.rfl _), rfl⟩
      next hopen =>
      split
      · next hwrite =>
        simp only [Bool.or_eq_true, isNone_iff_eq_none, List.isEmpty_iff, not_or] at hopen
        rw [if_pos ⟨trivial, isSome_iff_ne_none.mpr hopen.1, hopen.2, hwrite⟩] at h
        simp only [Session.receive, Session.answer]
        rcases hread : readData deps.maxMessageSize r with ⟨(_ | _) | raw, r'⟩
        · exact ⟨.inr (.rfl _), rfl⟩
        · exact ⟨.inr (.rfl _), rfl⟩
        · rw [hread] at h
          cases h
      · exact ⟨.inr (.rfl _), rfl⟩
    · have hreacts := @command_reacts P deps io
        { s with reader := r, world := io.others s.world } verb rest hstatus
      exact ⟨.inr (command_sameButAudit hverb rest), hreacts.handedOn hverb⟩
  | _ => exact ⟨.inl (.rfl _), rfl⟩

/-- The rows that a submission adds to the queue are of the account and the sender. -/
theorem enqueueSubmission_rows (account : Account) (sender : Text) (recipients : List Text)
    (raw : Bytes) (w : Stores) :
    ∃ os rs,
      (enqueueSubmission P io account sender recipients raw w).2.queue.outbound =
        w.queue.outbound ++ os ∧
      (enqueueSubmission P io account sender recipients raw w).2.queue.rcpts = w.queue.rcpts ++ rs ∧
      Enqueued account.id sender recipients
        (enqueueSubmission P io account sender recipients raw w).1.isOk os rs := by
  have hkey : ∀ {β : Type} {g : QueueStore → β}, (∀ q dkimKeys, g { q with dkimKeys } = g q) →
      g (onQueue (ensureDkimKey io.faults io.generated account.domain) w).2.queue = g w.queue :=
    fun hg => ensureDkimKey_same io.faults hg io.generated account.domain w.queue
  have houtbound := hkey (g := QueueStore.outbound) fun _ _ => rfl
  have hrcpts := hkey (g := QueueStore.rcpts) fun _ _ => rfl
  rw [enqueueSubmission]
  match hd : onQueue (ensureDkimKey io.faults io.generated account.domain) w with
  | (.panic, u) | (.err e, u) =>
    rw [hd] at houtbound hrcpts
    simp only [Exec.bind_run, hd]
    exact ⟨[], [], by simpa using houtbound, by simpa using hrcpts, .nothing⟩
  | (.ok key, u) =>
    rw [hd] at houtbound hrcpts
    rw [Exec.bind_of_ok hd]
    match he : enqueue P io.faults io.sign io.now key
      { accountId := account.id, envelopeFrom := sender, rawMessage := raw, recipients,
        isDsn := false, dsnEnvid := none, dsnRet := none } u with
    | (r, u') =>
      obtain ⟨os, rs, hos, hrs, hrows⟩ := enqueue_rows he
      refine ⟨os, rs, ?_⟩
      cases r with
      | ok | err | panic =>
        simp only [Exec.bind_run, he]
        exact ⟨hos.trans (by rw [houtbound]), hrs.trans (by rw [hrcpts]), hrows⟩

theorem step_plain (h : s.isTls = false) (unlockAny : Account → Text → Option Bool) :
    step P deps { io with unlockAny } s = step P deps io s := by
  have hauth : ∀ (io : Io) (rest : Text) (t : Session), t.isTls = false →
      auth P io rest t = t.answer .auth rest (reply 530 "Must issue STARTTLS first") := by
    intro io rest t ht
    simp [auth, ht]
  have hcommand : ∀ (verb : Verb) (rest : Text) (t : Session), t.isTls = false →
      command P deps { io with unlockAny } verb rest t = command P deps io verb rest t := by
    intro verb rest t ht
    cases verb with
    | auth => rw [command, command, hauth _ _ _ ht, hauth _ _ _ ht]
    | _ => rfl
  unfold step Server.step
  cases s.status with
  | reading =>
    simp only [server]
    split
    · rfl
    · rfl
    · exact hcommand _ _ _ h
  | _ => rfl

end

/-- Every session, on either port: an authenticated account means encryption, a sender is that
account's address, recipients have a sender. The rows that a message adds to the queue are of that
account and that sender, nothing else changes the stores, no password is tested over a plain stream,
and the encrypted stream starts with nobody authenticated. -/
theorem submission_disciplined (P : Primitives) (deps : Deps) (isTls : Bool) (r : Reader)
    (world : World) (ios : List Io) :
    let s := run P deps ios (connect isTls r world)
    Disciplined s.isTls s.envelope ∧
      ∀ io : Io,
        (∀ raw, handsOver P deps io s = some raw →
          ∃ account sender, s.isTls ∧ s.envelope.authenticated = some account ∧
            s.envelope.mailFrom = some sender ∧ eqIgnoreAsciiCase sender (address account) ∧
            (step P deps io s).world.stores =
              (enqueueSubmission P io account sender s.envelope.rcptTo raw
                (io.others s.world).stores).2 ∧
            ∃ os rs, Enqueued account.id sender s.envelope.rcptTo
                (enqueueSubmission P io account sender s.envelope.rcptTo raw
                  (io.others s.world).stores).1.isOk os rs ∧
              (step P deps io s).world.stores.queue.outbound =
                (io.others s.world).stores.queue.outbound ++ os ∧
              (step P deps io s).world.stores.queue.rcpts =
                (io.others s.world).stores.queue.rcpts ++ rs) ∧
        (handsOver P deps io s = none →
          SameButAudit s.world (step P deps io s).world ∨
            SameButAudit (io.others s.world) (step P deps io s).world) ∧
        (s.isTls = false →
          (∀ unlockAny, step P deps { io with unlockAny } s = step P deps io s) ∧
            ((step P deps io s).isTls → (step P deps io s).envelope = .default ∧
              io.pipelined = false ∧ io.tlsStream = some (step P deps io s).reader)) := by
  intro s
  have hs : Disciplined s.isTls s.envelope := run_disciplined ios (.default isTls)
  refine ⟨hs, fun io => ⟨fun raw hraw => ?_, fun hnone => (step_of_not_handsOver hnone).1,
    fun hplain => ⟨?_, ?_⟩⟩⟩
  · obtain ⟨-, hfrom, -, t, henv, hworld, -, hstep⟩ := step_of_handsOver hraw
    obtain ⟨sender, hsender⟩ := isSome_iff_exists.mp hfrom
    obtain ⟨account, haccount, haddr⟩ := hs.sender sender hsender
    have hstores : (step P deps io s).world.stores = (enqueueSubmission P io account sender
        s.envelope.rcptTo raw (io.others s.world).stores).2 := by
      rw [hstep, accept_stores (henv ▸ haccount), henv, hworld, hsender, getD_some]
    obtain ⟨os, rs, hos, hrs, hrows⟩ := @enqueueSubmission_rows P io account sender
      s.envelope.rcptTo raw (io.others s.world).stores
    exact ⟨account, sender, hs.encrypted (by simp [haccount]), haccount, hsender, haddr, hstores,
      os, rs, hrows, by rw [hstores, hos], by rw [hstores, hrs]⟩
  · exact step_plain hplain
  · intro htls
    rcases step_turn with ⟨hsame, -⟩ | ⟨-, henv, hpipelined, hstream⟩
    · rw [hsame, hplain] at htls
      cases htls
    · exact ⟨henv, hpipelined, hstream⟩

end Litterae.Smtp.Submission
