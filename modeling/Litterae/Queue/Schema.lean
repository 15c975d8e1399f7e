import Litterae.Foundations.Text
import Litterae.Foundations.Table

/-! # Tables of the outbound queue (`queue/src/{schema,types,scheduled}.rs`) -/

namespace Litterae.Queue
open Foundations

inductive RcptState where
  | ready | claimed | deferred | delivered | failed | expired
  deriving DecidableEq

def RcptState.isTerminal : RcptState → Bool
  | .delivered | .failed | .expired => true
  | _ => false

def RcptState.isWaiting : RcptState → Bool
  | .ready | .deferred => true
  | _ => false

theorem RcptState.not_isTerminal_iff {st : RcptState} :
    st.isTerminal = false ↔ st.isWaiting ∨ st = .claimed := by
  cases st <;> simp [RcptState.isTerminal, RcptState.isWaiting]

structure OutboundMessage where
  id : ℤ
  accountId : ℤ
  messageBlob : Text
  envelopeFrom : Text
  createdAt : ℤ
  expiresAt : ℤ
  dsnEnvid : Option Text
  dsnRet : Option Text
  isDsn : Bool
  deriving DecidableEq

structure OutboundRecipient where
  id : ℤ
  outboundId : ℤ
  rcptTo : Text
  domain : Text
  dsnNotify : Text
  state : RcptState
  attempts : ℤ
  nextAttemptAt : ℤ
  claimedBy : Option Text
  claimedAt : Option ℤ
  lastCode : Option ℕ
  lastStatus : Option Text
  lastDetail : Option Text
  delayedDsnSent : Bool
  deriving DecidableEq

structure DomainKey where
  domain : Text
  selector : Text
  privateDer : Bytes
  publicDer : Bytes
  deriving DecidableEq

inductive ScheduledKind where
  | remind | snoozeResurface | followupNudge
  deriving DecidableEq

inductive EventState where
  | pending | fired | cancelled
  deriving DecidableEq

/-- A row of `scheduled_events`; a kind that `from_db_str` does not know is `none`. -/
structure ScheduledEvent where
  id : ℤ
  accountId : ℤ
  kind : Option ScheduledKind
  fireAt : ℤ
  threadId : Option Text
  payload : Option Text
  state : EventState
  deriving DecidableEq

structure QueueStore where
  outbound : List OutboundMessage
  rcpts : List OutboundRecipient
  dkimKeys : List DomainKey
  events : List ScheduledEvent
  deriving DecidableEq

def QueueStore.empty : QueueStore := { outbound := [], rcpts := [], dkimKeys := [], events := [] }

structure NewOutbound where
  accountId : ℤ
  envelopeFrom : Text
  rawMessage : Bytes
  recipients : List Text
  isDsn : Bool
  dsnEnvid : Option Text
  dsnRet : Option Text
  deriving DecidableEq

end Litterae.Queue
