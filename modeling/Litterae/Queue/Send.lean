import Litterae.Stores
import Mathlib.Data.Rat.Floor

/-! # Sending one unit (`queue/src/{classify,backoff,worker}.rs`)

A unit is the recipients of one message at one domain. Its send gives one outcome for each
recipient, in order (`sendOutcomes_length`); the remote server, the resolver and the connection are
what `SendIo` says.
-/

namespace Litterae.Queue
open Foundations List List.Perm

inductive Outcome where
  | delivered
  | transient (code : Option ℕ) (status : Option Text) (detail : Text)
  | permanent (code : Option ℕ) (status : Option Text) (detail : Text)
  deriving DecidableEq

def Outcome.isPermanent : Outcome → Bool
  | .permanent _ _ _ => true
  | _ => false

def Outcome.isTransient : Outcome → Bool
  | .transient _ _ _ => true
  | _ => false

/-- The result of a client call: `mail_send::Error` as far as it is told apart. -/
inductive SendResult where
  | ok
  | unexpectedReply (code : ℕ) (esc : ℕ × ℕ × ℕ) (message : Text)
  | failed (detail : Text)
  deriving DecidableEq

def classifyCode (code : ℕ) (status : Option Text) (detail : Text) : Outcome :=
  match code / 100 with
  | 2 => .delivered
  | 4 => .transient (some code) status detail
  | 5 => .permanent (some code) status detail
  | _ => .transient (some code) status detail

def formatEsc (esc : ℕ × ℕ × ℕ) : Option Text :=
  if esc = (0, 0, 0) then none
  else
    some ((toString esc.1).toList ++ '.' :: (toString esc.2.1).toList ++
      '.' :: (toString esc.2.2).toList)

def classifySendResult : SendResult → Outcome
  | .ok => .delivered
  | .unexpectedReply code esc message => classifyCode code (formatEsc esc) message
  | .failed detail => .transient none none detail

def classifyConnectFailure (detail : Text) (hardDnsFailure : Bool) : Outcome :=
  if hardDnsFailure then .permanent none none detail else .transient none none detail

def classifyDaneFailure (detail : Text) : Outcome := .permanent none none detail

/-! ## Backoff -/

def delayedDsnThresholdSecs : ℤ := 30 * 60

def scheduleMinutes : List ℤ := [5, 15, 30, 60, 120, 240]

def capMinutes : ℤ := 480

/-- `next_delay_secs`, with the jitter drawn from ±0.15. -/
def nextDelaySecs (jitterFrac : ℚ) (attempts : ℤ) : ℤ :=
  let baseMinutes :=
    if 1 ≤ attempts then scheduleMinutes.getD (attempts - 1).toNat capMinutes else capMinutes
  ((baseMinutes * 60 : ℤ) * (1 + jitterFrac)).floor

/-! ## Units -/

structure ClaimedRcpt where
  id : ℤ
  rcptTo : Text
  domain : Text
  dsnNotify : Text
  attempts : ℤ
  delayedDsnSent : Bool
  deriving DecidableEq

structure DeliveryUnit where
  outboundId : ℤ
  domain : Text
  rcpts : List ClaimedRcpt
  deriving DecidableEq

def pushUnit (outboundId : ℤ) (rcpt : ClaimedRcpt) : List DeliveryUnit → List DeliveryUnit
  | [] => [{ outboundId, domain := rcpt.domain, rcpts := [rcpt] }]
  | u :: us =>
    if u.outboundId = outboundId ∧ u.domain = rcpt.domain then
      { u with rcpts := u.rcpts ++ [rcpt] } :: us
    else u :: pushUnit outboundId rcpt us

def groupUnits (claimed : List (ℤ × ClaimedRcpt)) : List DeliveryUnit :=
  claimed.foldl (fun us c => pushUnit c.1 c.2 us) []

def DeliveryUnit.claims (u : DeliveryUnit) : List (ℤ × ClaimedRcpt) :=
  u.rcpts.map fun r => (u.outboundId, r)

theorem pushUnit_perm (outboundId : ℤ) (rcpt : ClaimedRcpt) (us : List DeliveryUnit) :
    ((pushUnit outboundId rcpt us).flatMap DeliveryUnit.claims).Perm
      (us.flatMap DeliveryUnit.claims ++ [(outboundId, rcpt)]) := by
  induction us with
  | nil => simp [pushUnit, DeliveryUnit.claims]
  | cons u _ ih =>
    rw [pushUnit]
    split
    · next hkey =>
      have hclaims : DeliveryUnit.claims { u with rcpts := u.rcpts ++ [rcpt] } =
          u.claims ++ [(outboundId, rcpt)] := by
        simp [DeliveryUnit.claims, hkey.1]
      simp only [flatMap_cons, hclaims, append_assoc]
      exact append_left _ perm_append_comm
    · simp only [flatMap_cons, append_assoc]
      exact append_left _ ih

theorem groupUnits_perm (claimed : List (ℤ × ClaimedRcpt)) :
    ((groupUnits claimed).flatMap DeliveryUnit.claims).Perm claimed := by
  have hfold : ∀ us : List DeliveryUnit,
      ((claimed.foldl (fun us c => pushUnit c.1 c.2 us) us).flatMap DeliveryUnit.claims).Perm
        (us.flatMap DeliveryUnit.claims ++ claimed) := by
    induction claimed with
    | nil => simp
    | cons c _ ih =>
      intro us
      refine (ih _).trans ?_
      refine (append_right _ (pushUnit_perm c.1 c.2 us)).trans ?_
      simp
  exact (hfold []).trans (by simp)

/-! ## The exchange with the remote server -/

structure Client where
  mailFrom : SendResult
  rcptTo : ℕ → SendResult
  data : SendResult

/-- `run_envelope`: the recipients from the `k`-th on. DATA is sent once, when some RCPT was
accepted, and its result is the outcome of each of those. -/
def rcptOutcomes (client : Client) : ℕ → List ClaimedRcpt → List Outcome
  | _, [] => []
  | k, _ :: rest =>
    (match client.rcptTo k with
      | .ok => classifySendResult client.data
      | refused => classifySendResult refused) :: rcptOutcomes client (k + 1) rest

def runEnvelope (client : Client) (rcpts : List ClaimedRcpt) : List Outcome :=
  match client.mailFrom with
  | .ok => rcptOutcomes client 0 rcpts
  | refused => rcpts.map fun _ => classifySendResult refused

inductive ConnectOutcome where
  | connected (client : Client)
  | failed (daneRequired : Bool)

/-- What a send finds outside: whether the blob can be read, the MX hosts, the connection. -/
structure SendIo where
  faults : Faults
  instant : ℕ
  mxRecords : Except Text (List Text)
  connect : ConnectOutcome

def nullMx : Text := "domain publishes a null MX (RFC 7505): does not accept mail"

def daneMismatch : Text :=
  "no certificate offered by any MX host matched its DNSSEC-validated TLSA record"

def noConnection : Text := "could not connect to any MX host"

/-- The outcomes `send_unit` finalizes with, and whether the domain starts to cool down. -/
def sendOutcomes (P : Primitives) (io : SendIo) (messageBlob : Text) (rcpts : List ClaimedRcpt)
    (blobs : Store.BlobStore) : List Outcome × Bool :=
  let all := fun outcome : Outcome => rcpts.map fun _ => outcome
  match (Store.read P io.faults messageBlob blobs).1 with
  | .ok _ =>
    match io.mxRecords with
    | .error detail => (all (classifyConnectFailure detail false), false)
    | .ok records =>
      if records = [".".toList] then (all (classifyConnectFailure nullMx true), false)
      else
        match io.connect with
        | .connected client => (runEnvelope client rcpts, false)
        | .failed true => (all (classifyDaneFailure daneMismatch), true)
        | .failed false => (all (classifyConnectFailure noConnection false), true)
  | _ => (all (.transient none none "local storage error"), false)

theorem rcptOutcomes_length (client : Client) (k : ℕ) (rcpts : List ClaimedRcpt) :
    (rcptOutcomes client k rcpts).length = rcpts.length := by
  induction rcpts generalizing k with
  | nil => rfl
  | cons _ _ ih => simp [rcptOutcomes, ih]

theorem runEnvelope_length (client : Client) (rcpts : List ClaimedRcpt) :
    (runEnvelope client rcpts).length = rcpts.length := by
  unfold runEnvelope
  split
  · exact rcptOutcomes_length client 0 rcpts
  · simp

theorem sendOutcomes_length (P : Primitives) (io : SendIo) (messageBlob : Text)
    (rcpts : List ClaimedRcpt) (blobs : Store.BlobStore) :
    (sendOutcomes P io messageBlob rcpts blobs).1.length = rcpts.length := by
  unfold sendOutcomes
  split
  · split
    · simp
    · split
      · simp
      · split
        · exact runEnvelope_length _ _
        · simp
        · simp
  · simp

end Litterae.Queue
