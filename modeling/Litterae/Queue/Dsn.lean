import Litterae.Delivery.Deliver
import Litterae.Queue.Send

/-! # Delivery status notifications (`queue/src/dsn.rs`, `Worker::maybe_send_dsn`)

The worker delivers a notification to the sending account itself, through local delivery: if it goes
out, the account has one message row more.
-/

namespace Litterae.Queue
open Foundations Delivery

inductive DsnAction where
  | failed
  | delayed
  deriving DecidableEq

def DsnAction.asStr : DsnAction → Text
  | .failed => "failed"
  | .delayed => "delayed"

structure FailedRecipient where
  rcptTo : Text
  action : DsnAction
  status : Option Text
  diagnostic : Text

structure DsnInput where
  reportingMta : Text
  originalEnvelopeFrom : Text
  recipients : List FailedRecipient
  originalMessage : Option Bytes

def crlf : Text := "\r\n"

def humanLine (r : FailedRecipient) : Text :=
  (match r.action with
    | .failed => "Delivery to the following recipient failed permanently:"
    | .delayed => "Delivery to the following recipient has been delayed:") ++
    crlf ++ crlf ++ "  " ++ r.rcptTo ++ crlf ++ crlf ++ r.diagnostic ++ crlf ++ crlf

def statusFields (r : FailedRecipient) : Text :=
  "Final-Recipient: rfc822;" ++ r.rcptTo ++ crlf ++
    "Action: " ++ r.action.asStr ++ crlf ++
    (match r.status with
      | some s => "Status: " ++ s ++ crlf
      | none => []) ++
    "Diagnostic-Code: smtp;" ++ r.diagnostic ++ crlf ++ crlf

def reportOf (input : DsnInput) : Report where
  fromName := "Mail Delivery Subsystem"
  fromAddress := "mailer-daemon@" ++ input.reportingMta
  toAddress := input.originalEnvelopeFrom
  subject :=
    match input.recipients.head?.map FailedRecipient.action with
    | some .delayed => "Delivery delayed"
    | _ => "Delivery Status Notification (Failure)"
  autoSubmitted := "auto-replied"
  humanReadable :=
    "This is an automatically generated Delivery Status Notification." ++ crlf ++ crlf ++
      input.recipients.flatMap humanLine
  deliveryStatus :=
    "Reporting-MTA: dns;" ++ input.reportingMta ++ crlf ++ crlf ++
      input.recipients.flatMap statusFields
  original := input.originalMessage

def buildDsn (P : Primitives) (input : DsnInput) : Except Error Bytes :=
  match P.buildReport (reportOf input) with
  | .ok bytes => .ok bytes
  | .error detail => .error (.storage ("failed to build DSN: " ++ detail))

structure DsnIo where
  faults : Faults
  draw : Draw
  now : ℤ

section
variable (P : Primitives) (hostname : Text) (io : DsnIo)

/-- The loop guards: no notification for a null sender, for a notification, or against NEVER. -/
def suppressed (rcpt : ClaimedRcpt) (outbound : OutboundMessage) : Bool :=
  outbound.envelopeFrom.isEmpty || outbound.isDsn || rcpt.dsnNotify == "NEVER"

def dsnInput (rcpt : ClaimedRcpt) (outbound : OutboundMessage) (action : DsnAction)
    (code : Option ℕ) (status : Option Text) (detail : Text) : DsnInput where
  reportingMta := hostname
  originalEnvelopeFrom := outbound.envelopeFrom
  recipients :=
    let statusString := status.getD ((code.map fun c => (toString c).toList).getD [])
    [{ rcptTo := rcpt.rcptTo
       action
       status := if statusString.isEmpty then none else some statusString
       diagnostic := if detail.isEmpty then "delivery failed" else detail }]
  originalMessage := none

def deliverLocally (outbound : OutboundMessage) (account : Account) (bytes : Bytes) :
    Exec Stores Error DeliveredMessage :=
  deliver P io.draw
    { id := account.id, accountPub := account.accountPub, keyId := account.keyId }
    { mailFrom := [], rcptTo := outbound.envelopeFrom, remoteIp := "127.0.0.1" }
    { spf := "n/a", dkim := "n/a", dmarc := "n/a" } bytes io.now none .default

/-- The delivery of a built notification to the account, and the change notification after it. -/
def deliverDsn (outbound : OutboundMessage) (account : Account) (bytes : Bytes) :
    Exec Stores Error Unit := fun s =>
  match deliverLocally P io outbound account bytes s with
  | (.ok _, t) => (.ok (), notify account.id t)
  | (.err _, t) => (.ok (), t)
  | (.panic, t) => (.panic, t)

/-- `find_by_id`, a failed query counting as no account. -/
def dsnAccount (outbound : OutboundMessage) (s : Stores) : Option Account :=
  if io.faults .accountById = none then findById s.accounts outbound.accountId else none

def sendBuiltDsn (outbound : OutboundMessage) (bytes : Bytes) : Exec Stores Error Unit := fun s =>
  match dsnAccount io outbound s with
  | none => (.ok (), s)
  | some account => deliverDsn P io outbound account bytes s

def maybeSendDsn (rcpt : ClaimedRcpt) (outbound : OutboundMessage) (action : DsnAction)
    (code : Option ℕ) (status : Option Text) (detail : Text) : Exec Stores Error Unit :=
  if suppressed rcpt outbound then pure ()
  else
    match buildDsn P (dsnInput hostname rcpt outbound action code status detail) with
    | .error _ => pure ()
    | .ok bytes => sendBuiltDsn P io outbound bytes

end

/-! ## What a notification leaves behind -/

section
variable {outbound : OutboundMessage} {s : Stores} {P : Primitives} {hostname : Text} {io : DsnIo}
  {rcpt : ClaimedRcpt} {action : DsnAction} {code : Option ℕ} {status : Option Text} {detail : Text}
  {t : Stores}
open Exec

theorem dsnAccount_id {account : Account} (h : dsnAccount io outbound s = some account) :
    account.id = outbound.accountId := by
  unfold dsnAccount at h
  split at h
  · exact (findBy_some Account.id h).2
  · cases h

/-- A notification is one local delivery of the report, to the account of the message, and a change
notification if it succeeds. -/
theorem maybeSendDsn_cases (P : Primitives) (hostname : Text) (io : DsnIo) (rcpt : ClaimedRcpt)
    (outbound : OutboundMessage) (action : DsnAction) (code : Option ℕ) (status : Option Text)
    (detail : Text) (s : Stores) :
    (maybeSendDsn P hostname io rcpt outbound action code status detail s).2 = s ∨
      ∃ account bytes, suppressed rcpt outbound = false ∧
        buildDsn P (dsnInput hostname rcpt outbound action code status detail) = .ok bytes ∧
        account.id = outbound.accountId ∧
        ((maybeSendDsn P hostname io rcpt outbound action code status detail s).2 =
            (deliverLocally P io outbound account bytes s).2 ∨
          (maybeSendDsn P hostname io rcpt outbound action code status detail s).2 =
            notify account.id (deliverLocally P io outbound account bytes s).2) := by
  unfold maybeSendDsn
  by_cases hsup : suppressed rcpt outbound
  · exact .inl (by rw [if_pos hsup]; rfl)
  · rw [if_neg hsup]
    cases hbuild : buildDsn P (dsnInput hostname rcpt outbound action code status detail) with
    | error => exact .inl rfl
    | ok bytes =>
      cases haccount : dsnAccount io outbound s with
      | none => exact .inl (by simp only [sendBuiltDsn, haccount])
      | some account =>
        have hsent : (sendBuiltDsn P io outbound bytes s).2 =
              (deliverLocally P io outbound account bytes s).2 ∨
            (sendBuiltDsn P io outbound bytes s).2 =
              notify account.id (deliverLocally P io outbound account bytes s).2 := by
          simp only [sendBuiltDsn, haccount, deliverDsn]
          split
          · next h => exact .inr (by rw [h])
          · next h => exact .inl (by rw [h])
          · next h => exact .inl (by rw [h])
        exact .inr ⟨account, bytes, by simpa using hsup, rfl, dsnAccount_id haccount, hsent⟩

theorem maybeSendDsn_relates {R : Stores → Stores → Prop} [IsPreorder Stores R]
    (hnotify : ∀ accountId s, R s (notify accountId s))
    (hdeliver : ∀ account bytes, account.id = outbound.accountId →
      Keeps R (deliverLocally P io outbound account bytes))
    : Keeps R (maybeSendDsn P hostname io rcpt outbound action code status detail) := by
  intro s
  obtain hsame | ⟨account, bytes, -, -, hid, hdelivered | hnotified⟩ :=
    maybeSendDsn_cases P hostname io rcpt outbound action code status detail s
  · rw [hsame]
    exact refl s
  · rw [hdelivered]
    exact hdeliver account bytes hid s
  · rw [hnotified]
    exact trans_of R (hdeliver account bytes hid s) (hnotify _ _)

theorem maybeSendDsn_same :
    Keeps (Same fun s : Stores => (s.queue, s.audit))
      (maybeSendDsn P hostname io rcpt outbound action code status detail) :=
  maybeSendDsn_relates (fun _ _ => rfl) fun _ _ _ s =>
    congrArg₂ Prod.mk (deliver_mailOnly s).queue (deliver_mailOnly s).audit

/-- The notification can be built, the account is found, and local delivery takes it. -/
def goesOut (P : Primitives) (hostname : Text) (io : DsnIo) (rcpt : ClaimedRcpt)
    (outbound : OutboundMessage) (action : DsnAction) (code : Option ℕ) (status : Option Text)
    (detail : Text) (s : Stores) : Bool :=
  match buildDsn P (dsnInput hostname rcpt outbound action code status detail),
      dsnAccount io outbound s with
  | .ok bytes, some account => (deliverLocally P io outbound account bytes s).1.isOk
  | _, _ => false

theorem maybeSendDsn_of_goesOut (hsup : suppressed rcpt outbound = false)
    (h : goesOut P hostname io rcpt outbound action code status detail s) :
    ∃ m, (maybeSendDsn P hostname io rcpt outbound action code status detail s).2.metadata.messages =
      s.metadata.messages ++ [m] := by
  unfold goesOut at h
  split at h
  · next bytes account hbuild haccount =>
    rcases hrun : deliverLocally P io outbound account bytes s with ⟨r, t⟩
    rw [hrun] at h
    obtain ⟨delivered, rfl⟩ := Res.isOk_iff.mp h
    obtain ⟨row, hrow⟩ := deliver_ok hrun
    simp only [maybeSendDsn, hsup, Bool.false_eq_true, if_false, hbuild, sendBuiltDsn, haccount,
      deliverDsn, hrun]
    exact ⟨row, hrow.messages⟩
  · cases h

end
end Litterae.Queue
