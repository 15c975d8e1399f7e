import Litterae.Foundations.Program
import Litterae.Foundations.Run
import Litterae.Jmap.EmailSet
import Litterae.Jmap.Submission

/-! # Updates, submissions and the worker's timers, call by call

Requests of any number of sessions run beside each other and beside the worker, and each holds a
store's lock for one call.
-/

namespace Litterae.Races
open Foundations Store Delivery Queue Jmap Exec Program

inductive Cause where
  | patch (patch : List (Text × Value))
  | submission
  | snooze (event : ℤ)
  | nudge (event : ℤ)

inductive Op where
  | getMessage (cause : Cause) (rowId : ℤ)
  | updateMessage (cause : Cause) (rowId : ℤ) (mailboxId : Option ℤ) (keywords : Option Text)
  | pendingEvents (accountId : ℤ) (kind : ScheduledKind) (messageId : Text)
  | cancelEvent (k : ℕ) (id : ℤ)
  | insertEvent (new : NewScheduledEvent)
  | openMessage (existing : StoredMessage) (accountPriv : Bytes)
  | ensureDkimKey (domain : Text)
  | enqueue (domainKey : DomainKey) (new : NewOutbound)
  | ensureMailbox (accountId : ℤ) (role : Role)
  | dueEvents
  | messagesInThread (accountId threadId : ℤ)
  | notify (accountId : ℤ)
  | markEvent (id : ℤ) (state : EventState)

/-- What a call answers; an error is part of the answer where the caller looks at it. -/
abbrev Op.Ret : Op → Type
  | .getMessage _ _ => Except Error (Option StoredMessage)
  | .updateMessage _ _ _ _ => Except Error Unit
  | .pendingEvents _ _ _ => Except Error (List ScheduledEvent)
  | .openMessage _ _ => Bytes
  | .ensureDkimKey _ => DomainKey
  | .enqueue _ _ => ℤ
  | .ensureMailbox _ _ => Except Error Mailbox
  | .dueEvents => List ScheduledEvent
  | .messagesInThread _ _ => List StoredMessage
  | .cancelEvent _ _ | .insertEvent _ | .notify _ | .markEvent _ _ => Unit

inductive Failure where
  | update (e : SetError)
  | submission (e : Text)
  deriving DecidableEq

section
variable (P : Primitives) (io : SubmitDraw)

def sem : (op : Op) → Exec Stores Failure op.Ret
  | .getMessage _ rowId => (onMetadata (getMessage io.faults rowId)).attempt
  | .updateMessage _ rowId mailboxId keywords =>
    (onMetadata (updateMessage io.faults rowId mailboxId keywords)).attempt
  | .pendingEvents accountId kind _ =>
    (onQueue (pendingEventsForAccount io.faults accountId kind)).attempt
  | .cancelEvent k id => (onQueue (markEventCancelled io.faults k id)).ignore
  | .insertEvent new => (onQueue (insertScheduledEvent io.faults new)).ignore
  | .openMessage existing accountPriv =>
    (openMessage P io.faults existing accountPriv).mapErr fun e => .submission e.display
  | .ensureDkimKey domain =>
    (onQueue (ensureDkimKey io.faults io.generated domain)).mapErr fun e => .submission e.display
  | .enqueue domainKey new =>
    (enqueue P io.faults io.sign io.now domainKey new).mapErr fun e => .submission e.display
  | .ensureMailbox accountId role => (onMetadata (ensureMailbox io.faults accountId role)).attempt
  | .dueEvents => fun s => (.ok (dueScheduledEvents io.faults io.now s.queue), s)
  | .messagesInThread accountId threadId => fun s =>
    (.ok (threadMessages io.faults accountId threadId s), s)
  | .notify accountId => Exec.modify (notify accountId)
  | .markEvent id state => Exec.modify (markEvent io.faults id state)

end

abbrev Prog (α : Type) := Program Op Op.Ret Failure α

abbrev call (op : Op) : Prog op.Ret := perform op

/-! ## The programs -/

section
variable (accountId : ℤ)

def cancelEach : ℕ → List ScheduledEvent → Prog Unit
  | _, [] => pure ()
  | k, ev :: rest => do
    call (.cancelEvent k ev.id)
    cancelEach (k + 1) rest

def cancelPendingEvents (kind : ScheduledKind) (messageId : Text) : Prog Unit := do
  match ← call (.pendingEvents accountId kind messageId) with
  | .error _ => pure ()
  | .ok events => cancelEach 0 (events.filter fun ev => ev.payload == some messageId)

def insertTimer (kind : ScheduledKind) (id : Text) (threadId : ℤ) (value : Value) : Prog Unit :=
  match value.asI64 with
  | some fireAt =>
    call (.insertEvent
      { accountId, kind, fireAt, threadId := some (showInt threadId), payload := some id })
  | none => pure ()

def patchTimer (id : Text) (existing : StoredMessage) (path : PatchPath) (value : Value) :
    Prog Unit :=
  match path with
  | .timer kind => do
    cancelPendingEvents accountId kind id
    insertTimer accountId kind id existing.threadId value
  | _ => pure ()

def patchEntries (id : Text) (existing : StoredMessage) :
    List (Text × Value) → Patching → Prog Patching
  | [], p => pure p
  | (path, value) :: rest, p => do
    patchTimer accountId id existing (patchPath path) value
    patchEntries id existing rest (p.apply (patchPath path) value)

def unpatched (keywords : Text) : Patching :=
  { newMailboxId := none, newKeywords := none, currentKeywords := splitKeywords keywords }

def storePatch (rowId : ℤ) (patch : List (Text × Value)) (p : Patching) : Prog Unit := do
  match ← call (.updateMessage (.patch patch) rowId p.newMailboxId
      (p.newKeywords.map (join ","))) with
  | .ok () => pure ()
  | .error e => throw (.update (.serverFail e.display))

def ownMessage (rowId : ℤ) (patch : List (Text × Value)) : Prog StoredMessage := do
  match ← call (.getMessage (.patch patch) rowId) with
  | .ok (some m) => if m.accountId = accountId then pure m else throw (.update .notFound)
  | _ => throw (.update .notFound)

def update (id : Text) (patch : List (Text × Value)) : Prog Unit :=
  match emailRowId id with
  | none => throw (.update .invalidPatch)
  | some rowId => do
    let existing ← ownMessage accountId rowId patch
    let p ← patchEntries accountId id existing patch (unpatched existing.keywords)
    storePatch rowId patch p

end

section
variable (ctx : AccountContext) (accountId : ℤ)

def findOwn (rowId : ℤ) : Prog StoredMessage := do
  match ← call (.getMessage .submission rowId) with
  | .ok (some m) =>
    if m.accountId = accountId then pure m
    else throw (.submission "no such email")
  | .ok none => throw (.submission "no such email")
  | .error e => throw (.submission e.display)

def fileSent (rowId : ℤ) (existing : StoredMessage) : Prog Unit := do
  match ← call (.ensureMailbox accountId .sent) with
  | .error e => throw (.submission e.display)
  | .ok sent =>
    match ← call (.updateMessage .submission rowId (some sent.id)
        (some (sentKeywords existing.keywords))) with
    | .ok () => pure ()
    | .error e => throw (.submission e.display)

def checked (rcptTo : List Text) : Prog Unit :=
  match checkEnvelope rcptTo with
  | .ok () => pure ()
  | .error e => throw (.submission e)

def submit (req : EmailSubmissionCreateRequest) : Prog Unit :=
  match emailRowId req.emailId with
  | none => throw (.submission "invalid emailId")
  | some rowId => do
    let existing ← findOwn accountId rowId
    checked req.rcptTo
    let raw ← call (.openMessage existing ctx.accountPriv)
    let key ← call (.ensureDkimKey (addressDomain ctx.address))
    let _ ← call (.enqueue key (newOutbound ctx accountId raw req))
    fileSent accountId rowId existing

end

def unsnoozed (keywords : Text) : Text :=
  join "," ((splitKeywords keywords).filter (· != keywordSnoozed))

def nudged (keywords : Text) : Text :=
  if (keywords.splitOn ',').contains keywordNudge then keywords
  else join "," (splitKeywords keywords ++ [keywordNudge])

/-- `get_message` as the worker calls it; an error counts as no message. -/
def load (cause : Cause) (rowId : Option ℤ) : Prog (Option (ℤ × StoredMessage)) :=
  match rowId with
  | none => pure none
  | some rowId => do
    match ← call (.getMessage cause rowId) with
    | .ok (some msg) => pure (some (rowId, msg))
    | _ => pure none

def resurface (ev : ScheduledEvent) : Option (ℤ × StoredMessage) → Prog Unit
  | none => pure ()
  | some (rowId, msg) => do
    let _ ← call (.updateMessage (.snooze ev.id) rowId none (some (unsnoozed msg.keywords)))
    call (.notify ev.accountId)

def fireSnoozeResurface (ev : ScheduledEvent) : Prog Unit := do
  let found ← load (.snooze ev.id) (scheduledMessageRowId ev)
  resurface ev found
  call (.markEvent ev.id .fired)

def addNudge (ev : ScheduledEvent) (rowId : ℤ) (msg : StoredMessage) : Prog Unit :=
  if (msg.keywords.splitOn ',').contains keywordNudge then pure ()
  else do
    let _ ← call (.updateMessage (.nudge ev.id) rowId none (some (nudged msg.keywords)))
    pure ()

def nudgeOrCancel (ev : ScheduledEvent) (threadId rowId : ℤ) (msg : StoredMessage) : Prog Unit := do
  let sent ← call (.ensureMailbox ev.accountId .sent)
  let drafts ← call (.ensureMailbox ev.accountId .drafts)
  let thread ← call (.messagesInThread ev.accountId threadId)
  if thread.any (isReply rowId sent.toOption drafts.toOption) then
    call (.markEvent ev.id .cancelled)
  else do
    addNudge ev rowId msg
    call (.notify ev.accountId)
    call (.markEvent ev.id .fired)

def fireFollowupNudge (ev : ScheduledEvent) : Prog Unit :=
  match ev.threadId.bind parseI64 with
  | none => call (.markEvent ev.id .fired)
  | some threadId => do
    match ← load (.nudge ev.id) (scheduledMessageRowId ev) with
    | some (rowId, msg) => nudgeOrCancel ev threadId rowId msg
    | none => call (.markEvent ev.id .fired)

def fireEvent (ev : ScheduledEvent) : Prog Unit :=
  match ev.kind with
  | some .snoozeResurface => fireSnoozeResurface ev
  | some .followupNudge => fireFollowupNudge ev
  | _ => call (.markEvent ev.id .fired)

def fireAll : List ScheduledEvent → Prog Unit
  | [] => pure ()
  | ev :: rest => do
    fireEvent ev
    fireAll rest

def fireDue : Prog Unit := do
  let due ← call .dueEvents
  fireAll due

inductive Call where
  | update (accountId : ℤ) (id : Text) (patch : List (Text × Value))
  | submit (ctx : AccountContext) (accountId : ℤ) (req : EmailSubmissionCreateRequest)
  | fireDue

def program : Call → Prog Unit
  | .update accountId id patch => update accountId id patch
  | .submit ctx accountId req => submit ctx accountId req
  | .fireDue => fireDue

/-! ## A program that is not interrupted is its function -/

section
variable {P : Primitives} {io : SubmitDraw} (ev : ScheduledEvent) (k : ℕ) (s : Stores)

theorem load_exec {cause : Cause} {rowId : Option ℤ} :
    (load cause rowId).exec (sem P io) s =
      (.ok ((rowId.bind fun id => loadMessage io.faults id s).map fun msg => (msg.id, msg)), s) := by
  cases rowId with
  | none => rfl
  | some id =>
    rw [load, exec_bind, exec_perform, sem, attempt_bind_run, onMetadata_run,
      getMessage, sql_bind_run, Option.bind_some, loadMessage]
    cases io.faults .messageById with
    | some => rfl
    | none =>
      simp only [get_bind_run, if_true]
      cases hfound : findBy StoredMessage.id id s.metadata.messages with
      | none => rfl
      | some msg =>
        obtain rfl : msg.id = id := (findBy_some StoredMessage.id hfound).2
        rfl

theorem updateMessage_exec (P : Primitives) (io : SubmitDraw) (cause : Cause) (rowId : ℤ)
    (keywords : List Text) (s : Stores) :
    ∃ answer, sem P io (.updateMessage cause rowId none (some (join "," keywords))) s =
      (.ok answer, storeKeywords io.faults rowId keywords s) :=
  attempt_of_returns (x := onMetadata (updateMessage io.faults rowId none (some (join "," keywords))))
    (updateMessage_noPanic rowId none _ s.metadata)

theorem ensureMailbox_exec (P : Primitives) (io : SubmitDraw) (accountId : ℤ) (role : Role)
    (s : Stores) :
    ∃ answer, sem P io (.ensureMailbox accountId role) s =
        (.ok answer, (mailboxOr io.faults accountId role s).2) ∧
      answer.toOption = (mailboxOr io.faults accountId role s).1 := by
  rw [sem, attempt, mailboxOr]
  have hreturns : (onMetadata (ensureMailbox io.faults accountId role) s).1.returns :=
    ensureMailbox_noPanic accountId role s.metadata
  rcases hrun : onMetadata (ensureMailbox io.faults accountId role) s with ⟨mailbox | e | _, t⟩
  · exact ⟨_, rfl, rfl⟩
  · exact ⟨_, rfl, rfl⟩
  · rw [hrun] at hreturns
    cases hreturns

theorem fireSnoozeResurface_exec :
    (fireSnoozeResurface ev).exec (sem P io) s =
      (.ok (), Queue.fireSnoozeResurface io.faults ev s) := by
  rw [fireSnoozeResurface, exec_bind, bind_of_ok (load_exec s), exec_bind,
    Queue.fireSnoozeResurface]
  cases (scheduledMessageRowId ev).bind fun id => loadMessage io.faults id s with
  | none => rfl
  | some msg =>
    obtain ⟨answer, hupdate⟩ := updateMessage_exec P io (.snooze ev.id) msg.id
      ((splitKeywords msg.keywords).filter (· != keywordSnoozed)) s
    have hshown : (resurface ev (some (msg.id, msg))).exec (sem P io) s =
        (.ok (), notify ev.accountId (storeKeywords io.faults msg.id
          ((splitKeywords msg.keywords).filter (· != keywordSnoozed)) s)) := by
      rw [resurface, exec_bind, exec_perform, unsnoozed, bind_of_ok hupdate]
      rfl
    rw [Option.map_some, bind_of_ok hshown]
    rfl

theorem addNudge_exec (msg : StoredMessage) (s : Stores) :
    (addNudge ev msg.id msg).exec (sem P io) s = (.ok (), Queue.addNudge io.faults msg s) := by
  rw [addNudge, Queue.addNudge]
  by_cases hthere : (msg.keywords.splitOn ',').contains keywordNudge
  · simp only [hthere, if_true]
    rfl
  · obtain ⟨answer, hupdate⟩ := updateMessage_exec P io (.nudge ev.id) msg.id
      (splitKeywords msg.keywords ++ [keywordNudge]) s
    have hkeywords : nudged msg.keywords =
        join "," (splitKeywords msg.keywords ++ [keywordNudge]) := if_neg hthere
    rw [if_neg hthere, if_neg hthere, hkeywords, exec_bind, exec_perform,
      bind_of_ok hupdate]
    rfl

theorem nudgeOrCancel_exec (threadId : ℤ) (msg : StoredMessage) (s : Stores) :
    (nudgeOrCancel ev threadId msg.id msg).exec (sem P io) s =
      (.ok (), Queue.nudgeOrCancel io.faults ev threadId msg s) := by
  obtain ⟨sent, hsent, hsent'⟩ := ensureMailbox_exec P io ev.accountId .sent s
  obtain ⟨drafts, hdrafts, hdrafts'⟩ := ensureMailbox_exec P io ev.accountId .drafts
    (mailboxOr io.faults ev.accountId .sent s).2
  rw [nudgeOrCancel, exec_bind, exec_perform, bind_of_ok hsent, exec_bind,
    exec_perform, bind_of_ok hdrafts, exec_bind, exec_perform, hsent',
    hdrafts', Queue.nudgeOrCancel]
  generalize (mailboxOr io.faults ev.accountId .sent s) = sentFound
  obtain ⟨sentBox, s'⟩ := sentFound
  simp only
  generalize (mailboxOr io.faults ev.accountId .drafts s') = draftsFound
  obtain ⟨draftsBox, t⟩ := draftsFound
  have hthread : sem P io (.messagesInThread ev.accountId threadId) t =
      (.ok (threadMessages io.faults ev.accountId threadId t), t) := rfl
  rw [bind_of_ok hthread]
  by_cases hreplied : (threadMessages io.faults ev.accountId threadId t).any
      (isReply msg.id sentBox draftsBox)
  · simp only [hreplied, if_true]
    rfl
  · rw [if_neg hreplied, if_neg hreplied, exec_bind, bind_of_ok (addNudge_exec ev msg t)]
    rfl

theorem fireFollowupNudge_exec :
    (fireFollowupNudge ev).exec (sem P io) s =
      (.ok (), Queue.fireFollowupNudge io.faults ev s) := by
  rw [fireFollowupNudge, Queue.fireFollowupNudge]
  cases ev.threadId.bind parseI64 with
  | none => rfl
  | some threadId =>
    simp only [exec_bind]
    rw [bind_of_ok (load_exec s)]
    cases (scheduledMessageRowId ev).bind fun id => loadMessage io.faults id s with
    | none => rfl
    | some msg => exact nudgeOrCancel_exec ev threadId msg s

theorem fireEvent_exec :
    (fireEvent ev).exec (sem P io) s = (.ok (), Queue.fireEvent io.faults ev s) := by
  rw [fireEvent, Queue.fireEvent]
  rcases ev.kind with _ | kind
  · rfl
  · cases kind with
    | snoozeResurface => exact fireSnoozeResurface_exec ev s
    | followupNudge => exact fireFollowupNudge_exec ev s
    | _ => rfl

theorem fireAll_exec (evs : List ScheduledEvent) (s : Stores) :
    (fireAll evs).exec (sem P io) s = (.ok (), Queue.fireAll (fun _ => io.faults) k evs s) := by
  induction evs generalizing k s with
  | nil => rfl
  | cons ev _ ih =>
    rw [fireAll, exec_bind, bind_of_ok (fireEvent_exec ev s), Queue.fireAll]
    exact ih (k + 1) _

/-- Call by call, without interruption, the worker fires as `fire_due_scheduled_events`. -/
theorem fireDue_exec :
    fireDue.exec (sem P io) s =
      (.ok (), fireDueScheduledEvents io.faults (fun _ => io.faults) io.now s) := by
  exact fireAll_exec 0 _ s

end

/-! ## Requests and the worker in flight together -/

abbrev Server := Pool Stores Call Op Op.Ret Failure Unit

abbrev History := List (Done Op.Ret)

inductive Act where
  | launch (c : Call)
  | perform (i : ℕ) (io : SubmitDraw)

def step (P : Primitives) (p : Server) : Act → Option Server
  | .launch c => some (p.launch program c)
  | .perform i io => some (p.perform (sem P io) i)

def Server.start (s : Stores) : Server := { shared := s, flights := [], log := [] }

section
variable {P : Primitives} {R : Call → History → Op → Prop} {p q : Server} {a : Act}

/-- What is in flight makes each call after a history that allows it. -/
structure Orderly (R : Call → History → Op → Prop) (p : Server) : Prop where
  heeds : p.Lawful fun c tr rest => ∀ op, rest.next = some op → R c tr op
  counted : Pool.Lawful.Counted p

theorem Orderly.start (s : Stores) : Orderly R (.start s) :=
  ⟨fun i f hi => by simp [Server.start] at hi, fun _ he => nomatch he⟩

theorem Orderly.step (hprogram : ∀ c, (program c).Leads (R c) (fun _ _ => True) [])
    (h : Orderly R p) (hstep : step P p a = some q) : Orderly R q := by
  cases a with
  | launch c =>
    cases hstep
    exact ⟨h.heeds.launch (fun c => (hprogram c).always) h.counted c, h.counted.launch c⟩
  | perform i =>
    cases hstep
    exact ⟨h.heeds.perform (fun _ _ _ _ op hop => nomatch hop) i, h.counted.perform i⟩

theorem Orderly.next (h : Orderly R p) {i : ℕ} {c : Call} {op : Op} {k : op.Ret → Prog Unit}
    (hi : p.flights[i]? = some ⟨c, .call op k⟩) : R c (trace i p.log) op :=
  (h.heeds i _ hi).here op rfl

end

/-! ## A message to try the races on -/

def sampleMessage (keywords : String) : StoredMessage :=
  { sampleRow 1 1 keywords with
    mailFrom := "carol@example.net", rcptTo := "box@example.com", remoteIp := "203.0.113.5"
    spfResult := "pass", dkimResult := "pass", dmarcResult := "pass" }

def sampleInbox (keywords : String) (events : List ScheduledEvent) : Stores :=
  { Stores.empty with
    metadata := { MetadataStore.empty with messages := [sampleMessage keywords] }
    queue := { QueueStore.empty with events } }

def sampleIo : SubmitDraw where
  now := 1700000200
  sign := fun _ _ => .error (.storage [])
  generated := .error []
  faults := .none

def sampleCalls (i n : ℕ) : List Act := List.replicate n (.perform i sampleIo)

end Litterae.Races
