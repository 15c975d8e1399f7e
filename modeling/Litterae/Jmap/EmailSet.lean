import Litterae.Jmap.Compose
import Litterae.Queue.Enqueue
import Litterae.Queue.Scheduled
import Litterae.Queue.Worker
import Litterae.Store.Queries

/-! # Creating, changing and destroying messages (`Email/set` in `jmap/src/api.rs`)

A request is handled item by item, each item with its own statements and its own error: nothing is
undone when a later item fails. A patch is walked entry by entry in the order its map yields them.
-/

namespace Litterae.Jmap
open Foundations Store Delivery Queue

/-- What the handlers tell apart in a `serde_json::Value`. -/
inductive Value where
  | bool (b : Bool)
  | int (n : ℤ)
  | str (s : Text)
  | object (fields : List (Text × Value))
  | other

namespace Value

def asBool : Value → Option Bool
  | .bool b => some b
  | _ => none

def asI64 : Value → Option ℤ
  | .int n => if -2 ^ 63 ≤ n ∧ n < 2 ^ 63 then some n else none
  | _ => none

def asStr : Value → Option Text
  | .str s => some s
  | _ => none

def asObject : Value → Option (List (Text × Value))
  | .object fields => some fields
  | _ => none

def isTrue (v : Value) : Bool := v.asBool == some true

end Value

def mailboxRowId : Text → Option ℤ
  | 'b' :: digits => parseI64 digits
  | _ => none

def afterStart (start s : Text) : Option Text :=
  if start.isPrefixOf s then some (s.drop start.length) else none

inductive PatchPath where
  | mailboxIds
  | mailbox (id : Text)
  | keywords
  | keyword (keyword : Text)
  | timer (kind : ScheduledKind)
  | other
  deriving DecidableEq

def patchPath (path : Text) : PatchPath :=
  if path = "mailboxIds" then .mailboxIds
  else match afterStart "mailboxIds/" path with
    | some id => .mailbox id
    | none =>
      if path = "keywords" then .keywords
      else match afterStart "keywords/" path with
        | some keyword => .keyword keyword
        | none =>
          if path = "snoozeUntil" then .timer .snoozeResurface
          else if path = "nudgeAt" then .timer .followupNudge
          else .other

structure Patching where
  newMailboxId : Option ℤ
  newKeywords : Option (List Text)
  currentKeywords : List Text
  deriving DecidableEq

/-- `keywords/{keyword}`: the keyword is added at the end or taken out. -/
def Patching.setKeyword (p : Patching) (keyword : Text) (on : Bool) : Patching :=
  let current :=
    if on then
      if p.currentKeywords.contains keyword then p.currentKeywords
      else p.currentKeywords ++ [keyword]
    else p.currentKeywords.filter fun k => k != keyword
  { p with newKeywords := some current, currentKeywords := current }

/-- What one entry does to the variables; a timer does nothing to them. -/
def Patching.apply (p : Patching) (path : PatchPath) (value : Value) : Patching :=
  match path with
  | .mailboxIds =>
    match value.asObject with
    | some fields =>
      { p with newMailboxId := (fields.find? fun f => f.2.isTrue).bind fun f => mailboxRowId f.1 }
    | none => p
  | .mailbox id => if value.isTrue then { p with newMailboxId := mailboxRowId id } else p
  | .keywords =>
    match value.asObject with
    | some fields =>
      { p with newKeywords := some ((fields.filter fun f => f.2.isTrue).map Prod.fst) }
    | none => p
  | .keyword keyword => p.setKeyword keyword value.isTrue
  | .timer _ => p
  | .other => p

/-- The errors of one item, by the `type` they are reported under. -/
inductive SetError where
  | invalidPatch
  | notFound
  | serverFail (description : Text)
  deriving DecidableEq

section
variable (faults : Faults)

def cancelEach : ℕ → List ScheduledEvent → Exec QueueStore Error Unit
  | _, [] => pure ()
  | k, ev :: rest => do
    (markEventCancelled faults k ev.id).ignore
    cancelEach (k + 1) rest

/-- `cancel_pending_events`: the payload must be the same text, not only name the same row. -/
def cancelPendingEvents (accountId : ℤ) (kind : ScheduledKind) (messageId : Text) :
    Exec QueueStore Error Unit := do
  match ← (pendingEventsForAccount faults accountId kind).attempt with
  | .error _ => pure ()
  | .ok events => cancelEach faults 0 (events.filter fun ev => ev.payload == some messageId)

/-- `snoozeUntil` and `nudgeAt`: the pending timer is replaced, or only cancelled. -/
def setTimer (accountId : ℤ) (kind : ScheduledKind) (id : Text) (threadId : ℤ) (value : Value) :
    Exec QueueStore Error Unit := do
  cancelPendingEvents faults accountId kind id
  Exec.whenSome value.asI64 fun fireAt =>
    (insertScheduledEvent faults
      { accountId, kind, fireAt, threadId := some (showInt threadId), payload := some id }).ignore

end

/-- The calls of one update that fail: its own, and those of the `k`-th entry of its patch. -/
structure UpdateIo where
  faults : Faults
  entries : ℕ → Faults

section
variable (accountId : ℤ)

/-- The message an item names, if it is there and the account's; a failed query counts as none. -/
def ownMessage (faults : Faults) (rowId : ℤ) : Exec Stores SetError StoredMessage := do
  match ← (onMetadata (getMessage faults rowId)).attempt with
  | .ok (some m) => if m.accountId = accountId then pure m else Exec.throw .notFound
  | _ => Exec.throw .notFound

def patchTimer (faults : Faults) (id : Text) (existing : StoredMessage) (path : PatchPath)
    (value : Value) : Exec Stores SetError Unit :=
  match path with
  | .timer kind => (onQueue (setTimer faults accountId kind id existing.threadId value)).ignore
  | _ => pure ()

def patchEntries (faults : ℕ → Faults) (id : Text) (existing : StoredMessage) :
    ℕ → List (Text × Value) → Patching → Exec Stores SetError Patching
  | _, [], p => pure p
  | k, (path, value) :: rest, p => do
    patchTimer accountId (faults k) id existing (patchPath path) value
    patchEntries faults id existing (k + 1) rest (p.apply (patchPath path) value)

def emailUpdate (io : UpdateIo) (id : Text) (patch : List (Text × Value)) :
    Exec Stores SetError Unit :=
  match emailRowId id with
  | none => Exec.throw .invalidPatch
  | some rowId => do
    let existing ← ownMessage accountId io.faults rowId
    let p ← patchEntries accountId io.entries id existing 0 patch
      { newMailboxId := none, newKeywords := none
        currentKeywords := splitKeywords existing.keywords }
    (onMetadata (updateMessage io.faults rowId p.newMailboxId
      (p.newKeywords.map (join ",")))).mapErr fun e => .serverFail e.display

def trashOrDelete (faults : Faults) (rowId : ℤ) (existing : StoredMessage) (trash : Mailbox) :
    Exec Stores Error Unit :=
  if existing.mailboxId = trash.id then do
    onMetadata (deleteMessage faults rowId)
    onBlobs (remove faults existing.blobHash)
  else onMetadata (updateMessage faults rowId (some trash.id) none)

def emailDestroy (faults : Faults) (id : Text) : Exec Stores SetError Unit :=
  match emailRowId id with
  | none => Exec.throw .notFound
  | some rowId => do
    let existing ← ownMessage accountId faults rowId
    let trash ← (onMetadata (ensureMailbox faults accountId .trash)).mapErr
      fun e => .serverFail e.display
    (trashOrDelete faults rowId existing trash).mapErr fun e => .serverFail e.display

end

def eachItem {ε ε' ι α : Type} (op : ℕ → ι → Exec Stores ε α) :
    ℕ → List ι → Exec Stores ε' (List (ι × Except ε α))
  | _, [] => pure []
  | k, item :: rest => do
    let outcome ← (op k item).attempt
    let outcomes ← eachItem op (k + 1) rest
    pure ((item, outcome) :: outcomes)

/-- `EmailSetArgs`, its maps in the order they are walked. -/
structure EmailSetArgs where
  create : List (Text × EmailCreateRequest)
  update : List (Text × List (Text × Value))
  destroy : List Text

structure EmailSetIo where
  drafts : ℕ → ComposeDraw
  updates : ℕ → UpdateIo
  destroys : ℕ → Faults

/-- What `Email/set` reports for each item: the row and the thread created, nothing, or an error. -/
structure EmailSetResult where
  created : List (Text × Except Text (ℤ × ℤ))
  updated : List (Text × Except SetError Unit)
  destroyed : List (Text × Except SetError Unit)

def EmailSetResult.changed (r : EmailSetResult) : Bool :=
  r.created.any (fun i => i.2.isOk) || r.updated.any (fun i => i.2.isOk) ||
    r.destroyed.any fun i => i.2.isOk

section
variable {ε : Type} (P : Primitives) (C : Composer) (io : EmailSetIo) (ctx : AccountContext)
  (accountId : ℤ)

/-- The three loops of `email_set`. -/
def emailSetItems (args : EmailSetArgs) : Exec Stores ε EmailSetResult := do
  let created ← eachItem (fun k i => createDraft P C (io.drafts k) ctx accountId i.2) 0 args.create
  let updated ← eachItem (fun k i => emailUpdate accountId (io.updates k) i.1 i.2) 0 args.update
  let destroyed ← eachItem (fun k id => emailDestroy accountId (io.destroys k) id) 0 args.destroy
  pure
    { created := created.map fun i => (i.1.1, i.2), updated := updated.map fun i => (i.1.1, i.2)
      destroyed }

def emailSet (args : EmailSetArgs) : Exec Stores ε EmailSetResult := do
  let result ← emailSetItems P C io ctx accountId args
  Exec.modify fun s => if result.changed then notify accountId s else s
  pure result

end
end Litterae.Jmap
