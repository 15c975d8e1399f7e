import Litterae.Common.Input
import Litterae.Smtp.Session
import Litterae.Delivery.Deliver

/-! # The inbound server (`smtp-in/src/session.rs`)

One `step` is one turn of `command_loop`. What a turn takes from outside (writes that fail, the
scanner's verdict, the results of SPF, DKIM and DMARC, the clock) is its `Io`.
-/

namespace Litterae.Smtp.Inbound
open Foundations Delivery Input Option

def maxCommandLine : ℕ := 4096
def maxDataLine : ℕ := 65536
def maxRecipients : ℕ := 100

structure Deps where
  hostname : Text
  maxMessageSize : ℕ
  tlsAcceptor : Bool

structure ResolvedRecipient where
  address : Text
  accountId : ℤ
  accountPub : Bytes
  accountKeyId : UInt16
  deriving DecidableEq

structure Envelope where
  heloDomain : Option Text
  mailFrom : Option Text
  rcptTo : List ResolvedRecipient
  deriving DecidableEq

def Envelope.default : Envelope := { heloDomain := none, mailFrom := none, rcptTo := [] }

def Envelope.reset (e : Envelope) : Envelope := { e with mailFrom := none, rcptTo := [] }

inductive Verdict where
  | clean
  | spam (reason : Text)
  | defer (reason : Text)
  | reject (reason : Text)
  deriving DecidableEq

structure ScanResult where
  verdict : Verdict
  warnings : List Text
  spamScore : Option ℚ
  avClean : Option Bool

structure Io extends TurnIo Stores where
  faults : Faults
  scan : ScanResult
  auditOk : ℕ → Bool
  results : AuthResults
  receivedAt : ℤ
  /-- The surroundings of the `k`-th delivery. -/
  draws : ℕ → Draw

abbrev Session := Smtp.Session Envelope Stores

def readData (maxSize : ℕ) (r : Reader) : Except DataError Bytes × Reader :=
  Smtp.readData maxDataLine maxSize r

def getDomainByName (domains : List Domain) (name : Text) : Option Domain :=
  domains.find? fun d => d.name == name.map Char.toLower

/-- The account a failed query does not give (`.ok()?`). -/
def lookup {α : Type} (faults : Faults) (site : Site) (found : Option α) : Option (Option α) :=
  if faults site = none then some found else none

def resolveAccount (faults : Faults) (s : Stores) (localPart domain : Text) : Option Account := do
  match ← lookup faults (.accountByAddress 0) (findByAddress s.accounts localPart domain) with
  | some account => some account
  | none =>
    let found ← lookup faults .domainByName (getDomainByName s.domains domain)
    let catchAll ← (← found).catchAllLocalPart
    (← lookup faults (.accountByAddress 1) (findByAddress s.accounts catchAll domain))

def resolveRecipient (faults : Faults) (s : Stores) (addr : Text) : Option ResolvedRecipient := do
  let (localPart, domain) ← rsplitOnce '@' addr
  let account ← resolveAccount faults s localPart domain
  some { address := addr, accountId := account.id, accountPub := account.accountPub,
         accountKeyId := account.keyId }

section
variable (P : Primitives) (deps : Deps) (remoteIp : Text) (io : Io)

def hello (ehlo isTls : Bool) : Reply where
  code := 250
  lines := (deps.hostname ++ " Hello") ::
    if ehlo then
      ["SIZE ".toList ++ (toString deps.maxMessageSize).toList, "8BITMIME".toList,
        "SMTPUTF8".toList] ++ if !isTls && deps.tlsAcceptor then ["STARTTLS".toList] else []
    else []

def helo (verb : Verb) (rest : Text) (s : Session) : Session :=
  s.helo (validHeloDomain P.isIpv4 P.isIpv6 (trim rest)) (hello deps (verb == Verb.ehlo) s.isTls)
    { s.envelope with heloDomain := some (trim rest) }.reset (io.writeOk 0) verb rest

def starttls (rest : Text) (s : Session) : Session :=
  if s.isTls then s.answer .starttls rest (reply 503 "Already using TLS")
  else if !deps.tlsAcceptor then s.answer .starttls rest (reply 502 "STARTTLS not supported")
  else s.startTls (io.writeOk 0) rest

def mail (rest : Text) (s : Session) : Session :=
  if s.envelope.heloDomain.isNone then s.answer .mail rest (reply 503 "Bad sequence of commands")
  else
    match parseAddrParam rest fromParam with
    | none => s.abort
    | some (some addr) =>
      { s.answer .mail rest (reply 250 "OK") with
        envelope := { s.envelope with mailFrom := some addr, rcptTo := [] } }
    | some none => s.answer .mail rest (reply 501 "Syntax error in parameters")

def rcpt (rest : Text) (s : Session) : Session :=
  if s.envelope.mailFrom.isNone then s.answer .rcpt rest (reply 503 "Bad sequence of commands")
  else if s.envelope.rcptTo.length ≥ maxRecipients then
    s.answer .rcpt rest (reply 452 "Too many recipients")
  else
    match parseAddrParam rest toParam with
    | none => s.abort
    | some (some addr) =>
      if validEmailAddress addr then
        match resolveRecipient io.faults s.world addr with
        | some resolved =>
          { s.answer .rcpt rest (reply 250 "OK") with
            envelope := { s.envelope with rcptTo := s.envelope.rcptTo ++ [resolved] } }
        | none => s.answer .rcpt rest (reply 550 "No such user here")
      else s.answer .rcpt rest (reply 501 "Syntax error in parameters")
    | some none => s.answer .rcpt rest (reply 501 "Syntax error in parameters")

/-! ## DATA -/

/-- `audit.log`, whose result every caller here ignores. -/
def auditLog (ok : Bool) (action : String) (detail : Text) (s : Stores) : Stores :=
  if ok then { s with audit := s.audit ++ [{ action := action.toList, detail }] } else s

def auditWarnings : ℕ → List Text → Stores → Stores
  | _, [], s => s
  | k, w :: ws, s => auditWarnings (k + 1) ws (auditLog (io.auditOk k) "smtp.scan_unreachable" w s)

def deliverOne (draw : Draw) (sender : Text) (r : ResolvedRecipient) (raw : Bytes)
    (spamReason : Option Text) : Exec Stores Error Unit := do
  let _ ← deliver P draw { id := r.accountId, accountPub := r.accountPub, keyId := r.accountKeyId }
    { mailFrom := sender, rcptTo := r.address, remoteIp } io.results raw io.receivedAt spamReason
    { spamScore := io.scan.spamScore, avClean := io.scan.avClean }
  Exec.modify (notify r.accountId)

/-- The loop over the recipients, from the `k`-th on: which deliveries succeeded, or `none` if one
panicked. -/
def deliverAll (sender : Text) (raw : Bytes) (spamReason : Option Text) :
    ℕ → List ResolvedRecipient → Stores → Option (List Bool) × Stores
  | _, [], s => (some [], s)
  | k, r :: rs, s =>
    match deliverOne P remoteIp io (io.draws k) sender r raw spamReason s with
    | (.panic, t) => (none, t)
    | (res, t) =>
      let (pattern, u) := deliverAll sender raw spamReason (k + 1) rs t
      (pattern.map (res.isOk :: ·), u)

/-- The reply to a message whose deliveries succeeded as in `pattern`. -/
def deliveryReply (pattern : List Bool) : Reply :=
  if pattern.any id then reply 250 "OK: message accepted"
  else reply 451 "Requested action aborted: local error in processing"

/-- A scanner verdict that ends the transaction, or else the reason to file the message as spam. -/
def verdictReply : Verdict → Except (String × Text × Reply) (Option Text)
  | .reject reason =>
    .error ("smtp.scan_reject", reason, reply 550 "Message rejected by content policy")
  | .defer reason =>
    .error ("smtp.scan_defer", reason, reply 451 "Requested action aborted: try again later")
  | .spam reason => .ok (some reason)
  | .clean => .ok none

def accept (raw : Bytes) (s : Session) : Session :=
  let scanned := auditWarnings io 0 io.scan.warnings s.world
  match verdictReply io.scan.verdict with
  | .error (action, reason, r) =>
    { s with
      world := auditLog (io.auditOk io.scan.warnings.length) action reason scanned
      envelope := s.envelope.reset
      log := .dataEnd r :: s.log }
  | .ok spamReason =>
    let sender := s.envelope.mailFrom.getD []
    let handed := Entry.handed sender (s.envelope.rcptTo.map ResolvedRecipient.address) :: s.log
    match deliverAll P remoteIp io sender raw spamReason 0 s.envelope.rcptTo scanned with
    | (none, t) => { s with world := t, log := handed, status := .aborted }
    | (some pattern, t) =>
      if io.writeOk 1 then
        { s with
          world := t
          envelope := s.envelope.reset
          log := .dataEnd (deliveryReply pattern) :: handed }
      else
        { s with world := t, log := .dataEnd (deliveryReply pattern) :: handed, status := .closed }

def data (rest : Text) (s : Session) : Session :=
  s.data (s.envelope.mailFrom.isNone || s.envelope.rcptTo.isEmpty) (io.writeOk 0)
    (Session.receive (readData deps.maxMessageSize) (accept P remoteIp io)) rest

/-! ## The loop -/

def command (verb : Verb) (rest : Text) (s : Session) : Session :=
  match verb with
  | .ehlo | .helo => helo P deps io verb rest s
  | .starttls => starttls deps io rest s
  | .mail => mail rest s
  | .rcpt => rcpt io rest s
  | .data => data P deps remoteIp io rest s
  | .rset => { s.answer .rset rest (reply 250 "OK") with envelope := s.envelope.reset }
  | .noop => s.answer .noop rest (reply 250 "OK")
  | .quit => (s.answer .quit rest (reply 221 "Bye")).close
  | .auth | .other => s.answer verb rest (reply 502 "Command not implemented")

end

section
variable (P : Primitives) (deps : Deps) (remoteIp : Text)

def server : Server Envelope Stores Io where
  decode := P.fromUtf8Lossy
  maxLine := maxCommandLine
  greeting := { code := 220, lines := [deps.hostname ++ " ESMTP Litterae"] }
  turn := Io.toTurnIo
  offersTls := deps.tlsAcceptor
  fresh := .default
  command := command P deps remoteIp

def step (io : Io) (s : Session) : Session := (server P deps remoteIp).step io s

def run (ios : List Io) (s : Session) : Session := (server P deps remoteIp).run ios s

end

def connect (r : Reader) (world : Stores) : Session := .connect .default false r world

/-! ## Transaction isolation -/

def view (e : Envelope) : Option Text × List Text :=
  (e.mailFrom, e.rcptTo.map ResolvedRecipient.address)

/-- What a command may do to the envelope: every value that enters it has been checked, but for the
sender. -/
inductive Becomes (P : Primitives) (verb : Verb) (rest : Text) (e : Envelope) : Envelope → Prop
  | kept : Becomes P verb rest e e
  | reset : Becomes P verb rest e e.reset
  | helo {name : Text} (h : validHeloDomain P.isIpv4 P.isIpv6 name = true) :
    Becomes P verb rest e { e with heloDomain := some name }.reset
  | mail {addr : Text} (hverb : verb = .mail) (hhelo : e.heloDomain.isNone = false)
      (h : parseAddrParam rest fromParam = some (some addr)) :
    Becomes P verb rest e { e with mailFrom := some addr, rcptTo := [] }
  | rcpt {r : ResolvedRecipient} (h : validEmailAddress r.address = true) :
    Becomes P verb rest e { e with rcptTo := e.rcptTo ++ [r] }

/-- The subject of the message, if it has one, can be normalised. -/
def SafeMessage (P : Primitives) (raw : Bytes) : Prop :=
  ∀ parsed ∈ P.parse raw, ∀ subject ∈ parsed.subject, Store.SubjectSafe subject

/-- Nothing panics under the command: its argument is sliced at a boundary, and the message that a
DATA reads has a subject that can be normalised. -/
def Steady (P : Primitives) (deps : Deps) (verb : Verb) (rest : Text) (s : Session) : Prop :=
  SafeArgument verb rest ∧
    ∀ raw, verb = .data → (readData deps.maxMessageSize s.reader).1 = .ok raw → SafeMessage P raw

/-- A reply cannot be written, or the client ends the stream inside a DATA block. -/
def CutOff (deps : Deps) (io : Io) (verb : Verb) (s : Session) : Prop :=
  verb.waits = true ∧ io.writeOk 0 = false ∨
    verb = .data ∧ (io.writeOk 1 = false ∨ (readData deps.maxMessageSize s.reader).1 = .error .io)

section
variable {P : Primitives} {deps : Deps} {remoteIp : Text} {io : Io} {s : Session} {verb : Verb}
  {r : Reply}

def Reaction (P : Primitives) (deps : Deps) (io : Io) (verb : Verb) (rest : Text) (s t : Session) :
    Prop :=
  Reacts (Steady P deps verb rest s) True (CutOff deps io verb s) maxRecipients view
    (Becomes P verb rest) verb rest s t

theorem Reaction.refused {rest : Text} (hs : s.status = .reading) (hr : r.Refuses := by decide)
    (hverb : verb ≠ .rset := by decide) : Reaction P deps io verb rest s (s.answer verb rest r) :=
  Reacts.refused hs hr hverb .kept

theorem helo_reacts (hverb : verb = .ehlo ∨ verb = .helo) (rest : Text) (hs : s.status = .reading) :
    Reaction P deps io verb rest s (helo P deps io verb rest s) :=
  Reacts.helo hs .kept hverb rfl rfl .helo fun hwrite =>
    .inl ⟨by rcases hverb with rfl | rfl <;> rfl, hwrite⟩

variable (rest : Text)

theorem starttls_reacts (hs : s.status = .reading) :
    Reaction P deps io .starttls rest s (starttls deps io rest s) := by
  unfold starttls
  split
  · exact .refused hs
  split
  · exact .refused hs
  · exact Reacts.startTls hs .kept fun hwrite => .inl ⟨rfl, hwrite⟩

theorem mail_reacts (hs : s.status = .reading) :
    Reaction P deps io .mail rest s (mail rest s) := by
  unfold mail
  split
  · exact .refused hs
  next hhelo =>
  split
  · next hnone => exact Reacts.abort .kept fun hG => hG.1.ne_none rfl hnone
  · next addr haddr =>
    exact ⟨⟨[_], .mail addr, rfl, .mail rfl haddr hs, rfl⟩,
      .mail rfl (Bool.eq_false_iff.mpr hhelo) haddr, rfl⟩
  · exact .refused hs

theorem resolveRecipient_address {faults : Faults} {w : Stores} {addr : Text}
    {r : ResolvedRecipient} (h : resolveRecipient faults w addr = some r) : r.address = addr := by
  simp only [resolveRecipient, bind_eq_bind, bind_eq_some_iff, some.injEq] at h
  obtain ⟨_, _, _, _, rfl⟩ := h
  rfl

theorem rcpt_reacts (hs : s.status = .reading) :
    Reaction P deps io .rcpt rest s (rcpt io rest s) := by
  unfold rcpt
  split
  · exact .refused hs
  split
  · exact .refused hs
  next hroom =>
  split
  · next hnone => exact Reacts.abort .kept fun hG => hG.1.ne_none rfl hnone
  · next addr haddr =>
    split
    · next hvalid =>
      split
      · next resolved hresolved =>
        obtain rfl := resolveRecipient_address hresolved
        refine ⟨⟨[_], .rcpt _, rfl, .rcpt rfl haddr ?_ hs, ?_⟩, .rcpt hvalid, rfl⟩
        · simpa [view] using hroom
        · simp [view, Change.view]
      · exact .refused hs
    · exact .refused hs
  · exact .refused hs

theorem deliveryReply_completes (pattern : List Bool) : (deliveryReply pattern).Completes := by
  unfold deliveryReply
  split <;> decide

theorem verdictReply_completes {v : Verdict} {action : String} {reason : Text}
    (h : verdictReply v = .error (action, reason, r)) : r.Completes := by
  cases v <;> cases h <;> decide

theorem deliverAll_isSome {raw : Bytes} (hraw : SafeMessage P raw) (sender : Text)
    (spamReason : Option Text) (k : ℕ) (rs : List ResolvedRecipient) (w : Stores) :
    (deliverAll P remoteIp io sender raw spamReason k rs w).1.isSome := by
  induction rs generalizing k w with
  | nil => rfl
  | cons r rs ih =>
    have hone : Exec.NoPanic (deliverOne P remoteIp io (io.draws k) sender r raw spamReason) :=
      .bind (fun w => (deliver_returns_iff w).mpr hraw) fun _ => .modify _
    have hone := hone w
    rw [deliverAll]
    split
    · next hpanic =>
      rw [hpanic] at hone
      cases hone
    · simpa using ih ..

theorem accept_block {G cut : Prop} (raw : Bytes) (rest : Text) (hs : s.status = .reading)
    (hG : G → SafeMessage P raw) (hcut : io.writeOk 1 = false → cut) :
    Accepts G cut view (Becomes P .data rest) s (accept P remoteIp io raw s) := by
  unfold accept
  split
  · next hverdict => exact ⟨[_], .reset, rfl, .ended (verdictReply_completes hverdict) hs, rfl, .reset, rfl⟩
  simp only
  split
  · next hnone =>
    refine ⟨[_], .kept, rfl, .panicked fun hraw => ?_, rfl, .kept, rfl⟩
    have hsome := @deliverAll_isSome P remoteIp io raw (hG hraw)
    exact absurd (congrArg Prod.fst hnone) (isSome_iff_ne_none.mp (hsome ..))
  split
  · exact ⟨[_, _], .reset, rfl, .answered (deliveryReply_completes _) hs, rfl, .reset, rfl⟩
  · next hwrite =>
    have hlost := hcut (Bool.eq_false_iff.mpr hwrite)
    exact ⟨[_, _], .kept, rfl, .lost (deliveryReply_completes _) hlost, rfl, .kept, rfl⟩

theorem data_reacts (hs : s.status = .reading) :
    Reaction P deps io .data rest s (data P deps remoteIp io rest s) := by
  have hready : (s.envelope.mailFrom.isNone || s.envelope.rcptTo.isEmpty) = false →
      (view s.envelope).1 ≠ none ∧ (view s.envelope).2 ≠ [] := by
    simp +contextual [view, isSome_iff_ne_none]
  refine Reacts.data hs .kept hready (fun hwrite => .inl ⟨rfl, hwrite⟩)
    (fun hread => .inr ⟨rfl, .inr hread⟩) fun raw r _ hraw => ?_
  exact accept_block raw rest hs (fun hG => hG.2 raw rfl hraw) fun hwrite => .inr ⟨rfl, .inl hwrite⟩

theorem command_reacts (verb : Verb) (rest : Text) (hs : s.status = .reading) :
    Reaction P deps io verb rest s (command P deps remoteIp io verb rest s) := by
  cases verb with
  | ehlo => exact helo_reacts (.inl rfl) rest hs
  | helo => exact helo_reacts (.inr rfl) rest hs
  | starttls => exact starttls_reacts rest hs
  | mail => exact mail_reacts rest hs
  | rcpt => exact rcpt_reacts rest hs
  | data => exact data_reacts rest hs
  | rset =>
    exact ⟨⟨[_], .reset, rfl, .cleared (by decide) rfl (by decide) (.inl hs), rfl⟩, .reset, rfl⟩
  | noop => exact Reacts.noop hs .kept
  | quit => exact Reacts.quit .kept
  | auth | other => exact .refused hs

theorem run_agrees (ios : List Io) (h : Agrees maxRecipients view s) :
    Agrees maxRecipients view (run P deps remoteIp ios s) :=
  Server.run_invariant (Server.step_agrees rfl fun _ verb rest _ hs h =>
    (command_reacts verb rest hs).agrees h hs) ios h

theorem connect_agrees (r : Reader) (world : Stores) :
    Agrees maxRecipients view (connect r world) := Isolated.start

end
end Litterae.Smtp.Inbound
