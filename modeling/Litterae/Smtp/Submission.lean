import Litterae.Common.Throttle
import Litterae.Queue.Enqueue
import Litterae.Smtp.Session

/-! # The submission server (`submission/src/session.rs`)

Port 587 starts in plain text and is upgraded by STARTTLS; port 465 is encrypted from the first
byte. AUTH PLAIN opens the way to MAIL, whose address must be the account's own, and DATA hands the
message to the queue.
-/

namespace Litterae.Smtp.Submission
open Foundations Queue

def maxCommandLine : ℕ := 4096
def maxDataLine : ℕ := 65536
def maxRecipients : ℕ := 100

structure Deps where
  hostname : Text
  maxMessageSize : ℕ

structure Envelope where
  heloDomain : Option Text
  authenticated : Option Account
  mailFrom : Option Text
  rcptTo : List Text
  deriving DecidableEq

def Envelope.default : Envelope :=
  { heloDomain := none, authenticated := none, mailFrom := none, rcptTo := [] }

def Envelope.reset (e : Envelope) : Envelope := { e with mailFrom := none, rcptTo := [] }

structure World where
  stores : Stores
  throttle : LoginThrottle

structure Io extends TurnIo World where
  faults : Faults
  instant : ℕ
  /-- `unlock_any`, run on the blocking pool: `none` if the task is lost. -/
  unlockAny : Account → Text → Option Bool
  auditOk : Bool
  now : ℤ
  generated : Except Text (Bytes × Bytes)
  sign : DomainKey → Bytes → Except Error Text

abbrev Session := Smtp.Session Envelope World

def readData (maxSize : ℕ) (r : Reader) : Except DataError Bytes × Reader :=
  Smtp.readData maxDataLine maxSize r

def address (a : Account) : Text := a.localPart ++ '@' :: a.domain

section
variable (P : Primitives) (deps : Deps) (io : Io)

def hello (ehlo isTls : Bool) : Reply where
  code := 250
  lines := (deps.hostname ++ " Hello") ::
    if ehlo then
      ["SIZE " ++ (toString deps.maxMessageSize).toList,
        if isTls then "AUTH PLAIN" else "STARTTLS", "8BITMIME"]
    else []

def helo (verb : Verb) (rest : Text) (s : Session) : Session :=
  s.helo (Input.validHeloDomain P.isIpv4 P.isIpv6 (trim rest))
    (hello deps (verb == Verb.ehlo) s.isTls)
    { s.envelope with heloDomain := some (trim rest) }.reset (io.writeOk 0) verb rest

def starttls (rest : Text) (s : Session) : Session :=
  if s.isTls then s.answer .starttls rest (reply 503 "Already using TLS")
  else s.startTls (io.writeOk 0) rest

/-! ## AUTH -/

def parseSaslPlain (payload : Bytes) : Option (Text × Text) := do
  let (_, rest) ← splitOnce 0 payload
  let (authcid, passwd) ← splitOnce 0 rest
  let authcid ← P.fromUtf8 authcid
  let passwd ← P.fromUtf8 passwd
  some (authcid, passwd)

def auditLog (action : String) (detail : Text) (w : World) : World :=
  if io.auditOk then
    { w with stores := { w.stores with
        audit := w.stores.audit ++ [{ action := action.toList, detail }] } }
  else w

def authFailed (authcid : Text) (w : World) : World :=
  auditLog io "auth.submission_failed" authcid
    { w with throttle := w.throttle.recordFailure io.instant authcid }

def authSucceeded (authcid : Text) (w : World) : World :=
  auditLog io "auth.submission" authcid { w with throttle := w.throttle.recordSuccess authcid }

/-- The credentials of the base64 payload against the accounts; the outer `none` closes the
connection. -/
def checkCredentials (payload : Text) (w : World) : Option (Option Account) × World :=
  match (P.base64Decode (trim payload)).bind (parseSaslPlain P) with
  | none => (some none, w)
  | some (authcid, passwd) =>
    match splitOnce '@' authcid with
    | none => (some none, w)
    | some (localPart, domain) =>
      match w.throttle.check io.instant authcid with
      | .error _ => (some none, w)
      | .ok () =>
        let found :=
          if io.faults (.accountByAddress 0) = none then
            findByAddress w.stores.accounts localPart domain
          else none
        match found with
        | none => (some none, authFailed io authcid w)
        | some account =>
          match io.unlockAny account passwd with
          | none => (none, w)
          | some true => (some (some account), authSucceeded io authcid w)
          | some false => (some none, authFailed io authcid w)

def handleAuth (rest : Text) (s : Session) : Option (Option Account) × Session :=
  let (mechanism, initial) := splitCommand rest
  if !eqIgnoreAsciiCase mechanism "PLAIN" then
    (some none, s.note (reply 504 "Unsupported authentication mechanism"))
  else if initial.isEmpty then
    let s := s.note (reply 334 "")
    if io.writeOk 0 then
      match readLineBounded maxCommandLine s.reader with
      | (.line l, r) =>
        let (result, w) := checkCredentials P io (trimLineEnd (P.fromUtf8Lossy l)) s.world
        (result, { s with reader := r, world := w })
      | (_, r) => (none, { s with reader := r })
    else (none, s)
  else
    let (result, w) := checkCredentials P io initial s.world
    (result, { s with world := w })

def auth (rest : Text) (s : Session) : Session :=
  if !s.isTls then s.answer .auth rest (reply 530 "Must issue STARTTLS first")
  else if s.envelope.authenticated.isSome then
    s.answer .auth rest (reply 503 "Already authenticated")
  else
    match handleAuth P io rest s with
    | (some (some account), s) =>
      { s.answer .auth rest (reply 235 "Authentication successful") with
        envelope := { s.envelope with authenticated := some account } }
    | (some none, s) => s.answer .auth rest (reply 535 "Authentication failed")
    | (none, s) => s.close

/-! ## Transactions -/

def mail (rest : Text) (s : Session) : Session :=
  match s.envelope.authenticated with
  | none => s.answer .mail rest (reply 530 "Authentication required")
  | some account =>
    match parseAddrParam rest fromParam with
    | none => s.abort
    | some (some addr) =>
      if eqIgnoreAsciiCase addr (address account) then
        { s.answer .mail rest (reply 250 "OK") with
          envelope := { s.envelope with mailFrom := some addr, rcptTo := [] } }
      else
        s.answer .mail rest (reply 553 "Sender address does not match authenticated identity")
    | some none => s.answer .mail rest (reply 501 "Syntax error in parameters")

def rcpt (rest : Text) (s : Session) : Session :=
  if s.envelope.mailFrom.isNone then s.answer .rcpt rest (reply 503 "Bad sequence of commands")
  else
    match parseAddrParam rest toParam with
    | none => s.abort
    | some (some addr) =>
      if s.envelope.rcptTo.length ≥ maxRecipients then
        s.answer .rcpt rest (reply 452 "Too many recipients")
      else if Input.validEmailAddress addr then
        { s.answer .rcpt rest (reply 250 "OK") with
          envelope := { s.envelope with rcptTo := s.envelope.rcptTo ++ [addr] } }
      else s.answer .rcpt rest (reply 501 "Syntax error in parameters")
    | some none => s.answer .rcpt rest (reply 501 "Syntax error in parameters")

def enqueueSubmission (account : Account) (sender : Text) (recipients : List Text) (raw : Bytes) :
    Exec Stores Error Unit := do
  let domainKey ← onQueue (ensureDkimKey io.faults io.generated account.domain)
  let _ ← enqueue P io.faults io.sign io.now domainKey
    { accountId := account.id, envelopeFrom := sender, rawMessage := raw, recipients,
      isDsn := false, dsnEnvid := none, dsnRet := none }
  pure ()

def enqueueReply : Res Error Unit → Option Reply
  | .ok () => some (reply 250 "OK: message queued")
  | .err (.rateLimited _) => some (reply 450 "Rate limit exceeded, try again later")
  | .err _ => some (reply 451 "Local error in processing")
  | .panic => none

/-- A message was read. Without an account `expect("checked above")` panics. -/
def accept (raw : Bytes) (s : Session) : Session :=
  match s.envelope.authenticated with
  | none => s.abort
  | some account =>
    let sender := s.envelope.mailFrom.getD []
    let handed := Entry.handed sender s.envelope.rcptTo :: s.log
    let (result, stores) := enqueueSubmission P io account sender s.envelope.rcptTo raw s.world.stores
    let s := { s with world := { s.world with stores }, log := handed }
    match enqueueReply result with
    | none => s.abort
    | some r =>
      if io.writeOk 1 then { s with envelope := s.envelope.reset, log := .dataEnd r :: handed }
      else { s with log := .dataEnd r :: handed, status := .closed }

def data (rest : Text) (s : Session) : Session :=
  s.data (s.envelope.mailFrom.isNone || s.envelope.rcptTo.isEmpty) (io.writeOk 0)
    (Session.receive (readData deps.maxMessageSize) (accept P io)) rest

/-! ## The loop -/

def command (verb : Verb) (rest : Text) (s : Session) : Session :=
  match verb with
  | .ehlo | .helo => helo P deps io verb rest s
  | .starttls => starttls io rest s
  | .auth => auth P io rest s
  | .mail => mail rest s
  | .rcpt => rcpt rest s
  | .data => data P deps io rest s
  | .rset => { s.answer .rset rest (reply 250 "OK") with envelope := s.envelope.reset }
  | .noop => s.answer .noop rest (reply 250 "OK")
  | .quit => (s.answer .quit rest (reply 221 "Bye")).close
  | .other => s.answer .other rest (reply 502 "Command not implemented")

end

section
variable (P : Primitives) (deps : Deps)

def server : Server Envelope World Io where
  decode := P.fromUtf8Lossy
  maxLine := maxCommandLine
  greeting := { code := 220, lines := [deps.hostname ++ " ESMTP Litterae Submission"] }
  turn := Io.toTurnIo
  offersTls := true
  fresh := .default
  command := command P deps

def step (io : Io) (s : Session) : Session := (server P deps).step io s

def run (ios : List Io) (s : Session) : Session := (server P deps).run ios s

end

def connect (isTls : Bool) (r : Reader) (world : World) : Session := .connect .default isTls r world

/-! ## Transaction isolation -/

def view (e : Envelope) : Option Text × List Text := (e.mailFrom, e.rcptTo)

/-- All that a command can do to the envelope. -/
inductive Turn (isTls : Bool) (e : Envelope) : Envelope → Prop where
  | kept : Turn isTls e e
  | reset (heloDomain : Option Text) : Turn isTls e { e with heloDomain }.reset
  | auth (account : Account) (htls : isTls = true) (h : e.authenticated = none) :
    Turn isTls e { e with authenticated := some account }
  | mail {account : Account} (h : e.authenticated = some account) {addr : Text}
      (haddr : eqIgnoreAsciiCase addr (address account) = true) :
    Turn isTls e { e with mailFrom := some addr, rcptTo := [] }
  | rcpt (h : e.mailFrom.isSome = true) (addr : Text) :
    Turn isTls e { e with rcptTo := e.rcptTo ++ [addr] }

/-- The command is no AUTH that gets past the checks, or it names the mechanism PLAIN. -/
def NamesPlain (verb : Verb) (rest : Text) (s : Session) : Prop :=
  verb = .auth → s.isTls = true → s.envelope.authenticated.isSome = false →
    eqIgnoreAsciiCase (splitCommand rest).1 "PLAIN" = true

instance (verb : Verb) (rest : Text) (s : Session) : Decidable (NamesPlain verb rest s) :=
  inferInstanceAs (Decidable (_ → _ → _ → _))

/-- Nothing panics under the command. -/
structure Steady (verb : Verb) (rest : Text) (s : Session) : Prop where
  argument : SafeArgument verb rest
  account : s.envelope.mailFrom.isSome = true → s.envelope.authenticated.isSome = true

/-- A reply cannot be written, the client ends the stream inside a DATA block, the line after a 334
cannot be read, or the task that checks a password is lost. -/
def CutOff (deps : Deps) (io : Io) (verb : Verb) (rest : Text) (s : Session) : Prop :=
  verb.waits = true ∧ io.writeOk 0 = false ∨
    verb = .data ∧
      (io.writeOk 1 = false ∨ (readData deps.maxMessageSize s.reader).1 = .error .io) ∨
    verb = .auth ∧
      ((splitCommand rest).2 = [] ∧ (∀ l, (readLineBounded maxCommandLine s.reader).1 ≠ .line l) ∨
        ∃ account passwd, io.unlockAny account passwd = none)

section
variable {P : Primitives} {deps : Deps} {io : Io} {s : Session} {verb : Verb} {r : Reply}

def Reaction (deps : Deps) (io : Io) (verb : Verb) (rest : Text) (s t : Session) : Prop :=
  Reacts (Steady verb rest s) (NamesPlain verb rest s) (CutOff deps io verb rest s) maxRecipients
    view (Turn s.isTls) verb rest s t

theorem Reaction.refused {rest : Text} (hs : s.status = .reading) (hr : r.Refuses := by decide)
    (hverb : verb ≠ .rset := by decide) : Reaction deps io verb rest s (s.answer verb rest r) :=
  Reacts.refused hs hr hverb .kept

theorem helo_reacts (hverb : verb = .ehlo ∨ verb = .helo) (rest : Text) (hs : s.status = .reading) :
    Reaction deps io verb rest s (helo P deps io verb rest s) :=
  Reacts.helo hs .kept hverb rfl rfl (fun _ => .reset _) fun hwrite =>
    .inl ⟨by rcases hverb with rfl | rfl <;> rfl, hwrite⟩

variable (rest : Text)

theorem starttls_reacts (hs : s.status = .reading) :
    Reaction deps io .starttls rest s (starttls io rest s) := by
  unfold starttls
  split
  · exact .refused hs
  · exact Reacts.startTls hs .kept fun hwrite => .inl ⟨rfl, hwrite⟩

/-- `handle_auth` adds at most one interim reply. -/
theorem handleAuth_interim :
    (∃ world reader, (handleAuth P io rest s).2 = { s with reader, world }) ∨
      ∃ i world reader, (handleAuth P io rest s).2 = { s.note i with reader, world } ∧
        (eqIgnoreAsciiCase (splitCommand rest).1 "PLAIN" = true → i.code = 334) := by
  unfold handleAuth
  simp only
  split
  · next hother => exact .inr ⟨_, _, _, rfl, fun hplain => by rw [hplain] at hother; cases hother⟩
  split
  · split
    · split
      · exact .inr ⟨_, _, _, rfl, fun _ => rfl⟩
      · exact .inr ⟨_, _, _, rfl, fun _ => rfl⟩
    · exact .inr ⟨_, _, _, rfl, fun _ => rfl⟩
  · exact .inl ⟨_, _, rfl⟩

theorem checkCredentials_lost {payload : Text} {w : World}
    (h : (checkCredentials P io payload w).1 = none) :
    ∃ account passwd, io.unlockAny account passwd = none := by
  unfold checkCredentials at h
  split at h
  · cases h
  split at h
  · cases h
  split at h
  · cases h
  simp only at h
  split at h
  · cases h
  split at h
  · next hlost => exact ⟨_, _, hlost⟩
  · cases h
  · cases h

theorem handleAuth_cutOff (h : (handleAuth P io rest s).1 = none) : CutOff deps io .auth rest s := by
  unfold handleAuth at h
  simp only at h
  split at h
  · cases h
  split at h
  · next hinitial =>
    split at h
    · split at h
      · exact .inr (.inr ⟨rfl, .inr (checkCredentials_lost h)⟩)
      · next hunread hread =>
        refine .inr (.inr ⟨rfl, .inl ⟨List.isEmpty_iff.mp hinitial, fun l hl => ?_⟩⟩)
        exact hunread l ((congrArg Prod.fst hread).symm.trans hl)
    · next hwrite => exact .inl ⟨rfl, Bool.eq_false_iff.mpr hwrite⟩
  · exact .inr (.inr ⟨rfl, .inr (checkCredentials_lost h)⟩)

theorem auth_reacts (hs : s.status = .reading) :
    Reaction deps io .auth rest s (auth P io rest s) := by
  have hinterim := @handleAuth_interim P io s rest
  unfold auth
  split
  · exact .refused hs
  next hplain =>
  split
  · exact .refused hs
  next hsome =>
  have htls : s.isTls = true := by simpa using hplain
  have hnone : s.envelope.authenticated = none := by simpa using hsome
  have hi : ∀ {i : Reply}, (eqIgnoreAsciiCase (splitCommand rest).1 "PLAIN" = true → i.code = 334) →
      NamesPlain .auth rest s → i.code = 334 := fun hi hplain => hi (hplain rfl htls (by simp [hnone]))
  split
  · next account t hres =>
    rw [hres] at hinterim
    rcases hinterim with ⟨w, r, rfl⟩ | ⟨i, w, r, rfl, hcode⟩
    · exact ⟨⟨[_], .kept, rfl, .answered (by decide) (by decide) (by decide) (by decide) (.inl hs), rfl⟩,
        .auth account htls hnone, rfl⟩
    · exact ⟨⟨[_, _], .kept, rfl, .auth (hi hcode) (by decide) (by decide) (by decide) hs, rfl⟩,
        .auth account htls hnone, rfl⟩
  · next t hres =>
    rw [hres] at hinterim
    rcases hinterim with ⟨w, r, rfl⟩ | ⟨i, w, r, rfl, hcode⟩
    · exact ⟨⟨[_], .kept, rfl, .answered (by decide) (by decide) (by decide) (by decide) (.inl hs), rfl⟩,
        .kept, rfl⟩
    · exact ⟨⟨[_, _], .kept, rfl, .auth (hi hcode) (by decide) (by decide) (by decide) hs, rfl⟩, .kept, rfl⟩
  · next t hres =>
    have hcut : CutOff deps io .auth rest s := handleAuth_cutOff rest (congrArg Prod.fst hres)
    rw [hres] at hinterim
    rcases hinterim with ⟨w, r, rfl⟩ | ⟨i, w, r, rfl, hcode⟩
    · exact ⟨⟨[], .kept, rfl, .silent (.inl ⟨rfl, hcut⟩), rfl⟩, .kept, rfl⟩
    · exact ⟨⟨[_], .kept, rfl, .authCut (hi hcode) rfl hcut, rfl⟩, .kept, rfl⟩

theorem mail_reacts (hs : s.status = .reading) :
    Reaction deps io .mail rest s (mail rest s) := by
  unfold mail
  split
  · exact .refused hs
  next account haccount =>
  split
  · next hpanic => exact Reacts.abort .kept fun hG => hG.argument.ne_none rfl hpanic
  · next addr haddr =>
    split
    · next hown => exact ⟨⟨[_], .mail addr, rfl, .mail rfl haddr hs, rfl⟩, .mail haccount hown, rfl⟩
    · exact .refused hs
  · exact .refused hs

theorem rcpt_reacts (hs : s.status = .reading) :
    Reaction deps io .rcpt rest s (rcpt rest s) := by
  unfold rcpt
  split
  · exact .refused hs
  next hnone =>
  have hsome : s.envelope.mailFrom.isSome := by
    rw [← Option.not_isNone, Bool.eq_false_iff.mpr hnone]
    rfl
  split
  · next hpanic => exact Reacts.abort .kept fun hG => hG.argument.ne_none rfl hpanic
  · next addr haddr =>
    split
    · exact .refused hs
    next hroom =>
    split
    · exact ⟨⟨[_], .rcpt addr, rfl, .rcpt rfl haddr (by simpa [view] using hroom) hs, rfl⟩,
        .rcpt hsome addr, rfl⟩
    · exact .refused hs
  · exact .refused hs

theorem enqueueReply_completes {result : Res Error Unit} (h : enqueueReply result = some r) :
    r.Completes := by
  unfold enqueueReply at h
  split at h <;> cases h <;> decide

theorem enqueue_noPanic {faults : Faults} {sign : DomainKey → Bytes → Except Error Text} {now : ℤ}
    {domainKey : DomainKey} {new : NewOutbound} :
    Exec.NoPanic (enqueue P faults sign now domainKey new) := by
  intro w
  by_cases h : BlobWritten P faults sign domainKey new w ∧ RowInserted faults now new w.queue
  · exact (enqueue_inserted h.1 h.2).2.1
  · exact (enqueue_refused h).2.2

theorem enqueueReply_isSome {account : Account} {sender : Text} {recipients : List Text} {raw : Bytes}
    {w : Stores} :
    (enqueueReply (enqueueSubmission P io account sender recipients raw w).1).isSome := by
  have hreturns : Exec.NoPanic (enqueueSubmission P io account sender recipients raw) :=
    .bind (.zoom (ensureDkimKey_noPanic _ _ _)) fun _ => .bind enqueue_noPanic fun _ => .pure
  have hreturns := hreturns w
  unfold enqueueReply
  split
  · rfl
  · rfl
  · rfl
  · next hpanic =>
    rw [hpanic] at hreturns
    cases hreturns

theorem accept_block {G cut : Prop} (raw : Bytes) (hs : s.status = .reading)
    (hG : G → s.envelope.authenticated.isSome) (hcut : io.writeOk 1 = false → cut) :
    Smtp.Accepts G cut view (Turn s.isTls) s (accept P io raw s) := by
  unfold accept
  split
  · next hnone =>
    refine ⟨[], .kept, rfl, .gone (.inr ⟨rfl, fun hsome => ?_⟩), rfl, .kept, rfl⟩
    simpa [hnone] using hG hsome
  simp only
  split
  · next hpanic => exact absurd hpanic (Option.isSome_iff_ne_none.mp enqueueReply_isSome)
  next r hreply =>
  have hr := enqueueReply_completes hreply
  split
  · exact ⟨[_, _], .reset, rfl, .answered hr hs, rfl, .reset s.envelope.heloDomain, rfl⟩
  · next hwrite =>
    exact ⟨[_, _], .kept, rfl, .lost hr (hcut (Bool.eq_false_iff.mpr hwrite)), rfl, .kept, rfl⟩

theorem data_reacts (hs : s.status = .reading) :
    Reaction deps io .data rest s (data P deps io rest s) := by
  have hready : (s.envelope.mailFrom.isNone || s.envelope.rcptTo.isEmpty) = false →
      s.envelope.mailFrom ≠ none ∧ s.envelope.rcptTo ≠ [] := by
    simp +contextual [Option.isSome_iff_ne_none]
  refine Reacts.data hs .kept hready (fun hwrite => .inl ⟨rfl, hwrite⟩)
    (fun hread => .inr (.inl ⟨rfl, .inr hread⟩)) fun raw r hopen _ => ?_
  exact accept_block raw hs (fun hG => hG.account (Option.isSome_iff_ne_none.mpr (hready hopen).1))
    fun hwrite => .inr (.inl ⟨rfl, .inl hwrite⟩)

theorem command_reacts (verb : Verb) (rest : Text) (hs : s.status = .reading) :
    Reaction deps io verb rest s (command P deps io verb rest s) := by
  cases verb with
  | ehlo => exact helo_reacts (.inl rfl) rest hs
  | helo => exact helo_reacts (.inr rfl) rest hs
  | starttls => exact starttls_reacts rest hs
  | auth => exact auth_reacts rest hs
  | mail => exact mail_reacts rest hs
  | rcpt => exact rcpt_reacts rest hs
  | data => exact data_reacts rest hs
  | rset =>
    exact ⟨⟨[_], .reset, rfl, .cleared (by decide) rfl (by decide) (.inl hs), rfl⟩,
      .reset s.envelope.heloDomain, rfl⟩
  | noop => exact Reacts.noop hs .kept
  | quit => exact Reacts.quit .kept
  | other => exact .refused hs

theorem run_agrees (ios : List Io) (h : Agrees maxRecipients view s) :
    Agrees maxRecipients view (run P deps ios s) :=
  Server.run_invariant (Server.step_agrees rfl fun _ verb rest _ hs h =>
    (command_reacts verb rest hs).agrees h hs) ios h

theorem connect_agrees (isTls : Bool) (r : Reader) (world : World) :
    Agrees maxRecipients view (connect isTls r world) := Isolated.start

end
end Litterae.Smtp.Submission
