import Litterae.Common.Error
import Litterae.Queue.Schema

/-! # Scheduled events (`queue/src/scheduled.rs`)

The statements the mailbox API runs on `scheduled_events`; the worker's are in `Queue/Worker`. An
event is never deleted, so its id names it for good.
-/

namespace Litterae.Queue
open Foundations

structure NewScheduledEvent where
  accountId : ℤ
  kind : ScheduledKind
  fireAt : ℤ
  threadId : Option Text
  payload : Option Text
  deriving DecidableEq

section
variable (faults : Faults)

def insertScheduledEvent (new : NewScheduledEvent) : Exec QueueStore Error ℤ := do
  sql faults .eventInsert
  Exec.update fun q =>
    let id := nextRowid ScheduledEvent.id q.events
    (id, { q with events := q.events ++
      [{ id, accountId := new.accountId, kind := some new.kind, fireAt := new.fireAt
         threadId := new.threadId, payload := new.payload, state := .pending }] })

def pendingEventsForAccount (accountId : ℤ) (kind : ScheduledKind) :
    Exec QueueStore Error (List ScheduledEvent) := do
  sql faults .eventsPending
  let q ← Exec.get
  pure (q.events.filter fun ev =>
    ev.accountId == accountId && ev.kind == some kind && ev.state == .pending)

/-- `mark_event_cancelled`, in the `k`-th round of its caller's loop. -/
def markEventCancelled (k : ℕ) (id : ℤ) : Exec QueueStore Error Unit := do
  sql faults (.eventCancel k)
  Exec.modify fun q =>
    { q with
      events := updateWhere (fun ev => ev.id == id)
        (fun ev => { ev with state := .cancelled }) q.events }

end
end Litterae.Queue
