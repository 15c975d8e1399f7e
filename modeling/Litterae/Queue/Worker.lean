import Litterae.Queue.Dsn

/-! # The statements of the worker (`queue/src/worker.rs`)

Each function below is one of the worker's, on the stores. Their SQL errors are ignored by the
callers, so a failed statement leaves the table as it was and the worker goes on.
-/

namespace Litterae.Queue
open Foundations Store Delivery Exec List

def batchSize : ℕ := 100
def leaseTtlSecs : ℤ := 300
def cooldownSecs : ℕ := 60
def workerId : Text := "worker-1"
def keywordSnoozed : Text := "$snoozed"
def keywordNudge : Text := "$nudge"

/-! ## Updates of the recipient table -/

section
variable (faults : Faults)

/-- An `UPDATE outbound_rcpt` whose error is ignored. -/
def updateRcpts (site : Site) (p : OutboundRecipient → Bool)
    (f : OutboundRecipient → OutboundRecipient) (q : QueueStore) : QueueStore :=
  if faults site = none then { q with rcpts := updateWhere p f q.rcpts } else q

def isStale (now : ℤ) (r : OutboundRecipient) : Bool :=
  r.state == .claimed && r.claimedAt.any fun t => decide (t < now - leaseTtlSecs)

def toReady (r : OutboundRecipient) : OutboundRecipient :=
  { r with state := .ready, claimedBy := none }

def reapStaleClaims (now : ℤ) (q : QueueStore) : QueueStore :=
  updateRcpts faults .reapUpdate (isStale now) toReady q

/-- `outbound_id IN (SELECT id FROM outbound WHERE expires_at < now)`. -/
def isOverdue (now : ℤ) (q : QueueStore) (r : OutboundRecipient) : Bool :=
  r.state.isWaiting && q.outbound.any fun o => o.id == r.outboundId && decide (o.expiresAt < now)

def toExpired (r : OutboundRecipient) : OutboundRecipient := { r with state := .expired }

def expireOverdue (now : ℤ) (q : QueueStore) : QueueStore :=
  updateRcpts faults .expireUpdate (isOverdue now q) toExpired q

def releaseOne (k : ℕ) (id : ℤ) (q : QueueStore) : QueueStore :=
  updateRcpts faults (.releaseUpdate k) (fun r => r.id == id) toReady q

def releaseToReady : ℕ → List ClaimedRcpt → QueueStore → QueueStore
  | _, [], q => q
  | k, rcpt :: rest, q => releaseToReady (k + 1) rest (releaseOne faults k rcpt.id q)

/-! ## Claiming -/

def isDue (now : ℤ) (r : OutboundRecipient) : Bool :=
  r.state.isWaiting && decide (r.nextAttemptAt ≤ now)

def toClaimed (now : ℤ) (r : OutboundRecipient) : OutboundRecipient :=
  { r with state := .claimed, claimedBy := some workerId, claimedAt := some now }

/-- The columns `RETURNING` gives back. -/
def claimedRcpt (r : OutboundRecipient) : ℤ × ClaimedRcpt :=
  (r.outboundId,
    { id := r.id, rcptTo := r.rcptTo, domain := r.domain, dsnNotify := r.dsnNotify,
      attempts := r.attempts, delayedDsnSent := r.delayedDsnSent })

/-- `order` is a result the claiming query may have: due rows only, as many as the limit allows, none
left out in favour of one whose turn is later. -/
def ValidBatch (now : ℤ) (q : QueueStore) (order : List ℤ) : Prop :=
  order.Nodup ∧ (∀ id ∈ order, ∃ r ∈ q.rcpts, r.id = id ∧ isDue now r = true) ∧
    order.length = min batchSize (q.rcpts.filter (isDue now)).length ∧
    ∀ r ∈ q.rcpts, isDue now r = true → r.id ∉ order →
      ∀ r' ∈ q.rcpts, r'.id ∈ order → r'.nextAttemptAt ≤ r.nextAttemptAt

instance (now : ℤ) (q : QueueStore) (order : List ℤ) : Decidable (ValidBatch now q order) := by
  unfold ValidBatch
  infer_instance

def claimRows (now : ℤ) (order : List ℤ) (q : QueueStore) : QueueStore :=
  updateRcpts faults .claimUpdate (fun r => order.contains r.id) (toClaimed now) q

def claimedRows (order : List ℤ) (q : QueueStore) : List (ℤ × ClaimedRcpt) :=
  if faults .claimUpdate = none then
    order.filterMap fun id => (findBy OutboundRecipient.id id q.rcpts).map claimedRcpt
  else []

def loadOutbound (outboundId : ℤ) (q : QueueStore) : Option OutboundMessage :=
  if faults .loadOutbound = none then findBy OutboundMessage.id outboundId q.outbound else none

/-- `COUNT(*) = 0` of the recipients not yet terminal, over all messages with this blob. -/
def noActiveReference (messageBlob : Text) (q : QueueStore) : Bool :=
  decide (faults .countActive = none) && q.rcpts.all fun r =>
    r.state.isTerminal ||
      !q.outbound.any fun o => o.id == r.outboundId && o.messageBlob == messageBlob

end

/-! ## Settling a recipient -/

structure Settlement where
  state : RcptState
  nextAttemptAt : ℤ
  code : Option ℕ
  status : Option Text
  detail : Text
  deriving DecidableEq

/-- The first match of `finalize`. -/
def settlement (now : ℤ) (jitterFrac : ℚ) (expiresAt : ℤ) (rcpt : ClaimedRcpt) :
    Outcome → Settlement
  | .delivered => { state := .delivered, nextAttemptAt := now, code := none, status := none, detail := [] }
  | .permanent code status detail => { state := .failed, nextAttemptAt := now, code, status, detail }
  | .transient code status detail =>
    if expiresAt ≤ now then { state := .expired, nextAttemptAt := now, code, status, detail }
    else
      { state := .deferred, nextAttemptAt := now + nextDelaySecs jitterFrac (rcpt.attempts + 1), code,
        status, detail }

def settleRow (st : Settlement) (outcome : Outcome) (r : OutboundRecipient) : OutboundRecipient :=
  { r with
    state := st.state
    nextAttemptAt := st.nextAttemptAt
    claimedBy := none
    attempts := r.attempts + if outcome = .delivered then 0 else 1
    lastCode := st.code
    lastStatus := st.status
    lastDetail := some st.detail }

def markDelayed (r : OutboundRecipient) : OutboundRecipient := { r with delayedDsnSent := true }

def auditAction : RcptState → Option Text
  | .delivered => some "queue.delivered"
  | .failed => some "queue.failed"
  | .expired => some "queue.expired"
  | _ => none

def wantsDelay (dsnNotify : Text) : Bool :=
  dsnNotify.tails.any fun t => "DELAY".toList.isPrefixOf t

/-- The notification `finalize` asks for. -/
def dsnDue (now createdAt : ℤ) (rcpt : ClaimedRcpt) (state : RcptState) : Option DsnAction :=
  if state.isTerminal && state != .delivered then some .failed
  else if state == .deferred && !rcpt.delayedDsnSent && wantsDelay rcpt.dsnNotify &&
      decide (delayedDsnThresholdSecs ≤ now - createdAt) then some .delayed
  else none

structure FinalizeIo where
  now : ℤ
  jitterFrac : ℚ
  faults : Faults
  auditOk : Bool
  dsn : DsnIo

section
variable (P : Primitives) (hostname : Text) (io : FinalizeIo)

def recordOutcome (outbound : OutboundMessage) (rcpt : ClaimedRcpt) (outcome : Outcome)
    (s : Stores) : Stores :=
  let st := settlement io.now io.jitterFrac outbound.expiresAt rcpt outcome
  let q := updateRcpts io.faults .finalizeUpdate (fun r => r.id == rcpt.id) (settleRow st outcome) s.queue
  match auditAction st.state with
  | some action =>
    if io.auditOk then
      { s with queue := q, audit := s.audit ++ [{ action, detail := rcpt.rcptTo }] }
    else { s with queue := q }
  | none => { s with queue := q }

/-- The end of a `settle`: whether local delivery panicked, and the stores. -/
structure Settled where
  panicked : Bool
  stores : Stores

def sendDue (outbound : OutboundMessage) (rcpt : ClaimedRcpt) (st : Settlement) (action : DsnAction)
    (s : Stores) : Settled :=
  let q :=
    if action = .delayed then
      updateRcpts io.faults .delayedUpdate (fun r => r.id == rcpt.id) markDelayed s.queue
    else s.queue
  match maybeSendDsn P hostname io.dsn rcpt outbound action st.code st.status st.detail
      { s with queue := q } with
  | (.panic, t) => ⟨true, t⟩
  | (_, t) => ⟨false, t⟩

/-- `finalize` without its last call, the cleanup. -/
def settle (outbound : OutboundMessage) (rcpt : ClaimedRcpt) (outcome : Outcome) (s : Stores) :
    Settled :=
  let st := settlement io.now io.jitterFrac outbound.expiresAt rcpt outcome
  let recorded := recordOutcome io outbound rcpt outcome s
  match dsnDue io.now outbound.createdAt rcpt st.state with
  | none => ⟨false, recorded⟩
  | some action => sendDue P hostname io outbound rcpt st action recorded

end

/-! ## Scheduled events -/

section
variable (faults : Faults)

def dueScheduledEvents (now : ℤ) (q : QueueStore) : List ScheduledEvent :=
  if faults .dueEvents = none then
    q.events.filter fun ev => ev.state == .pending && decide (ev.fireAt ≤ now)
  else []

def markEvent (id : ℤ) (state : EventState) (s : Stores) : Stores :=
  if faults .eventMark = none then
    { s with queue := { s.queue with
        events := updateWhere (fun ev => ev.id == id) (fun ev => { ev with state }) s.queue.events } }
  else s

def scheduledMessageRowId (ev : ScheduledEvent) : Option ℤ :=
  match ev.payload with
  | some ('m' :: digits) => parseI64 digits
  | _ => none

def splitKeywords (keywords : Text) : List Text := (keywords.splitOn ',').filter fun k => !k.isEmpty

def storeKeywords (rowId : ℤ) (keywords : List Text) (s : Stores) : Stores :=
  (onMetadata (updateMessage faults rowId none (some (join "," keywords))) s).2

def loadMessage (rowId : ℤ) (s : Stores) : Option StoredMessage :=
  if faults .messageById = none then findBy StoredMessage.id rowId s.metadata.messages else none

def fireSnoozeResurface (ev : ScheduledEvent) (s : Stores) : Stores :=
  let shown :=
    match (scheduledMessageRowId ev).bind fun id => loadMessage faults id s with
    | some msg =>
      notify ev.accountId
        (storeKeywords faults msg.id ((splitKeywords msg.keywords).filter (· != keywordSnoozed)) s)
    | none => s
  markEvent faults ev.id .fired shown

def mailboxOr (accountId : ℤ) (role : Role) (s : Stores) : Option Mailbox × Stores :=
  match onMetadata (ensureMailbox faults accountId role) s with
  | (.ok mailbox, t) => (some mailbox, t)
  | (_, t) => (none, t)

def isReply (rowId : ℤ) (sent drafts : Option Mailbox) (m : StoredMessage) : Bool :=
  m.id != rowId && (sent.all fun mb => m.mailboxId != mb.id) &&
    drafts.all fun mb => m.mailboxId != mb.id

def threadMessages (accountId threadId : ℤ) (s : Stores) : List StoredMessage :=
  if faults .messagesInThread = none then
    s.metadata.messages.filter fun r => r.accountId == accountId && r.threadId == threadId
  else []

def addNudge (msg : StoredMessage) (s : Stores) : Stores :=
  if (msg.keywords.splitOn ',').contains keywordNudge then s
  else storeKeywords faults msg.id (splitKeywords msg.keywords ++ [keywordNudge]) s

def nudgeOrCancel (ev : ScheduledEvent) (threadId : ℤ) (msg : StoredMessage) (s : Stores) : Stores :=
  let (sent, s) := mailboxOr faults ev.accountId .sent s
  let (drafts, s) := mailboxOr faults ev.accountId .drafts s
  if (threadMessages faults ev.accountId threadId s).any (isReply msg.id sent drafts) then
    markEvent faults ev.id .cancelled s
  else markEvent faults ev.id .fired (notify ev.accountId (addNudge faults msg s))

def fireFollowupNudge (ev : ScheduledEvent) (s : Stores) : Stores :=
  match ev.threadId.bind parseI64 with
  | none => markEvent faults ev.id .fired s
  | some threadId =>
    match (scheduledMessageRowId ev).bind fun id => loadMessage faults id s with
    | some msg => nudgeOrCancel faults ev threadId msg s
    | none => markEvent faults ev.id .fired s

def fireEvent (ev : ScheduledEvent) (s : Stores) : Stores :=
  match ev.kind with
  | some .snoozeResurface => fireSnoozeResurface faults ev s
  | some .followupNudge => fireFollowupNudge faults ev s
  | _ => markEvent faults ev.id .fired s

end

def fireAll (faults : ℕ → Faults) : ℕ → List ScheduledEvent → Stores → Stores
  | _, [], s => s
  | k, ev :: evs, s => fireAll faults (k + 1) evs (fireEvent (faults k) ev s)

/-- `fire_due_scheduled_events`; `faults k` are the failures while the `k`-th event is handled. -/
def fireDueScheduledEvents (query : Faults) (faults : ℕ → Faults) (now : ℤ) (s : Stores) : Stores :=
  fireAll faults 0 (dueScheduledEvents query now s.queue) s

/-! ## What the statements do to the tables -/

section
variable {faults : Faults}

theorem updateRcpts_eq (site : Site) (p : OutboundRecipient → Bool)
    (f : OutboundRecipient → OutboundRecipient) (q : QueueStore) :
    updateRcpts faults site p f q =
      { q with rcpts := q.rcpts.map fun r => if faults site = none ∧ p r = true then f r else r } := by
  unfold updateRcpts
  by_cases h : faults site = none
  · simp [h, updateWhere]
  · simp [h]

theorem releaseToReady_eq (k : ℕ) (rcpts : List ClaimedRcpt) (q : QueueStore) :
    ∃ f : OutboundRecipient → OutboundRecipient,
      releaseToReady faults k rcpts q = { q with rcpts := q.rcpts.map f } ∧
      (∀ r, f r = r ∨ (r.id ∈ rcpts.map ClaimedRcpt.id ∧ f r = toReady r)) ∧
      ((∀ i, faults (.releaseUpdate i) = none) →
        ∀ r, r.id ∈ rcpts.map ClaimedRcpt.id → f r = toReady r) := by
  induction rcpts generalizing k q with
  | nil => exact ⟨id, by simp [releaseToReady], fun r => .inl rfl, fun _ _ h => absurd h not_mem_nil⟩
  | cons rcpt rest ih =>
    obtain ⟨f, hf, hrow, hall⟩ := ih (k + 1) (releaseOne faults k rcpt.id q)
    rw [releaseToReady, hf, releaseOne, updateRcpts_eq]
    have hready : ∀ r, f (toReady r) = toReady r := fun r =>
      (hrow (toReady r)).elim (fun h => h) And.right
    refine ⟨fun r => f (if faults (.releaseUpdate k) = none ∧ (r.id == rcpt.id) = true then toReady r
      else r), by simp [Function.comp_def], fun r => ?_, fun hok r hmem => ?_⟩
    · by_cases h : faults (.releaseUpdate k) = none ∧ (r.id == rcpt.id)
      · have hid : r.id = rcpt.id := by simpa using h.2
        exact .inr ⟨by simp [hid], by simp only [h, and_self, if_true, hready]⟩
      · simp only [h, if_false]
        exact (hrow r).imp_right fun ⟨hmem, heq⟩ => ⟨mem_cons_of_mem _ hmem, heq⟩
    · by_cases hid : r.id = rcpt.id
      · simp only [hok k, hid, beq_self_eq_true, and_self, if_true, hready]
      · simp only [hid, beq_iff_eq, and_false, if_false]
        exact hall hok r ((mem_cons.mp hmem).resolve_left hid)

/-- The row a `settle` leaves, given the statements that succeeded. -/
def settledRow (io : FinalizeIo) (outbound : OutboundMessage) (rcpt : ClaimedRcpt)
    (outcome : Outcome) (r : OutboundRecipient) : OutboundRecipient :=
  let st := settlement io.now io.jitterFrac outbound.expiresAt rcpt outcome
  let updated := if io.faults .finalizeUpdate = none then settleRow st outcome r else r
  if dsnDue io.now outbound.createdAt rcpt st.state = some .delayed ∧
      io.faults .delayedUpdate = none then markDelayed updated
  else updated

variable (P : Primitives) (hostname : Text) (io : FinalizeIo) (outbound : OutboundMessage)
  (rcpt : ClaimedRcpt) (outcome : Outcome) (s : Stores)

theorem recordOutcome_queue :
    (recordOutcome io outbound rcpt outcome s).queue =
      updateRcpts io.faults .finalizeUpdate (fun r => r.id == rcpt.id)
        (settleRow (settlement io.now io.jitterFrac outbound.expiresAt rcpt outcome) outcome)
        s.queue := by
  unfold recordOutcome
  simp only
  split
  · split <;> rfl
  · rfl

theorem sendDue_stores (st : Settlement) (action : DsnAction) (s : Stores) :
    (sendDue P hostname io outbound rcpt st action s).stores =
      (maybeSendDsn P hostname io.dsn rcpt outbound action st.code st.status st.detail
        { s with queue := if action = .delayed then
            updateRcpts io.faults .delayedUpdate (fun r => r.id == rcpt.id) markDelayed s.queue
          else s.queue }).2 := by
  unfold sendDue
  simp only
  split <;> next h => rw [h]

theorem sendDue_queue (st : Settlement) (action : DsnAction) (s : Stores) :
    (sendDue P hostname io outbound rcpt st action s).stores.queue =
      if action = .delayed then
        updateRcpts io.faults .delayedUpdate (fun r => r.id == rcpt.id) markDelayed s.queue
      else s.queue := by
  rw [sendDue_stores]
  exact congrArg Prod.fst (maybeSendDsn_same _)

theorem settle_queue :
    (settle P hostname io outbound rcpt outcome s).stores.queue =
      { s.queue with rcpts := s.queue.rcpts.map fun r =>
          if r.id = rcpt.id then settledRow io outbound rcpt outcome r else r } := by
  unfold settle
  simp only
  cases hdue : dsnDue io.now outbound.createdAt rcpt
      (settlement io.now io.jitterFrac outbound.expiresAt rcpt outcome).state with
  | none =>
    simp only [recordOutcome_queue, updateRcpts_eq, QueueStore.mk.injEq, true_and, and_true]
    refine map_congr_left fun r _ => ?_
    by_cases hid : r.id = rcpt.id <;> simp [hid, settledRow, hdue]
  | some action =>
    simp only [sendDue_queue, recordOutcome_queue, updateRcpts_eq]
    cases action with
    | failed =>
      simp only [reduceCtorEq, if_false, QueueStore.mk.injEq, true_and, and_true]
      refine map_congr_left fun r _ => ?_
      by_cases hid : r.id = rcpt.id <;> simp [hid, settledRow, hdue]
    | delayed =>
      simp only [if_true, map_map, QueueStore.mk.injEq, true_and, and_true]
      refine map_congr_left fun r _ => ?_
      by_cases hid : r.id = rcpt.id
      · by_cases hupdate : io.faults .finalizeUpdate = none <;>
          simp [hid, settledRow, hdue, hupdate, settleRow]
      · simp [hid]

/-- Two states with the same mail, blobs and accounts, and in the queue the same messages and timers. -/
structure MailUntouched (s t : Stores) : Prop where
  metadata : t.metadata = s.metadata
  blobs : t.blobs = s.blobs
  accounts : t.accounts = s.accounts
  outbound : t.queue.outbound = s.queue.outbound
  events : t.queue.events = s.queue.events

theorem recordOutcome_mailUntouched :
    MailUntouched s (recordOutcome io outbound rcpt outcome s) := by
  unfold recordOutcome
  simp only [updateRcpts_eq]
  split
  · split <;> exact ⟨rfl, rfl, rfl, rfl, rfl⟩
  · exact ⟨rfl, rfl, rfl, rfl, rfl⟩

/-- The notification a `settle` sends, if one is due and nothing suppresses it. -/
def noticeOf (P : Primitives) (hostname : Text) (io : FinalizeIo) (outbound : OutboundMessage)
    (rcpt : ClaimedRcpt) (outcome : Outcome) : Option Bytes :=
  let st := settlement io.now io.jitterFrac outbound.expiresAt rcpt outcome
  (dsnDue io.now outbound.createdAt rcpt st.state).bind fun action =>
    if suppressed rcpt outbound then none
    else (buildDsn P (dsnInput hostname rcpt outbound action st.code st.status st.detail)).toOption

/-- The ciphertext under which the notification is stored. -/
def sealedNotice (P : Primitives) (hostname : Text) (io : FinalizeIo) (outbound : OutboundMessage)
    (rcpt : ClaimedRcpt) (outcome : Outcome) : Option Bytes :=
  (noticeOf P hostname io outbound rcpt outcome).map
    (Crypto.aeadSeal P io.dsn.draw.dek 1 io.dsn.draw.nonce)

theorem settle_cases :
    ∃ s₁, MailUntouched s s₁ ∧
      ((settle P hostname io outbound rcpt outcome s).stores = s₁ ∨
        ∃ account bytes, noticeOf P hostname io outbound rcpt outcome = some bytes ∧
          account.id = outbound.accountId ∧
          ((settle P hostname io outbound rcpt outcome s).stores =
              (deliverLocally P io.dsn outbound account bytes s₁).2 ∨
            (settle P hostname io outbound rcpt outcome s).stores =
              notify account.id (deliverLocally P io.dsn outbound account bytes s₁).2)) := by
  have hrecord := recordOutcome_mailUntouched io outbound rcpt outcome s
  unfold settle noticeOf
  simp only
  cases hdue : dsnDue io.now outbound.createdAt rcpt
      (settlement io.now io.jitterFrac outbound.expiresAt rcpt outcome).state with
  | none => exact ⟨_, hrecord, .inl rfl⟩
  | some action =>
    rw [sendDue_stores]
    generalize hq : (if action = .delayed then _ else _) = q
    have hmarked : MailUntouched s { recordOutcome io outbound rcpt outcome s with queue := q } := by
      refine ⟨hrecord.metadata, hrecord.blobs, hrecord.accounts, ?_, ?_⟩
      all_goals
        rw [← hq]
        split
      · rw [updateRcpts_eq]
        exact hrecord.outbound
      · exact hrecord.outbound
      · rw [updateRcpts_eq]
        exact hrecord.events
      · exact hrecord.events
    refine ⟨_, hmarked, ?_⟩
    obtain hsame | ⟨account, bytes, hsup, hbuild, hid, hsent⟩ := maybeSendDsn_cases P hostname io.dsn
      rcpt outbound action _ _ _ { recordOutcome io outbound rcpt outcome s with queue := q }
    · exact .inl hsame
    · exact .inr ⟨account, bytes, by simp [hsup, hbuild, Except.toOption], hid, hsent⟩

theorem settle_mail :
    let t := (settle P hostname io outbound rcpt outcome s).stores
    (∀ h, (∀ c ∈ sealedNotice P hostname io outbound rcpt outcome, h ≠ hashHex P c) →
      t.blobs.file h = s.blobs.file h) ∧
      ∀ h, (s.blobs.file h).isSome → (t.blobs.file h).isSome := by
  obtain ⟨s₁, hs₁, hnone | ⟨account, bytes, hnotice, -, hsent⟩⟩ :=
    settle_cases P hostname io outbound rcpt outcome s
  · simp only [hnone, hs₁.blobs]
    exact ⟨fun _ _ => trivial, fun _ h => h⟩
  · have hmail : MailOnly P _ s₁ (deliverLocally P io.dsn outbound account bytes s₁).2 :=
      deliver_mailOnly s₁
    simp only [← hs₁.blobs, sealedNotice, hnotice, Option.map_some, Option.mem_some_iff, forall_eq']
    obtain hsent | hsent := hsent <;> rw [hsent] <;> exact ⟨hmail.file, hmail.stays⟩

/-- A `settle` adds at most one message: the notification that is due, for the account of the message. -/
theorem settle_messages :
    (settle P hostname io outbound rcpt outcome s).stores.metadata.messages = s.metadata.messages ∨
      ∃ m action, dsnDue io.now outbound.createdAt rcpt
          (settlement io.now io.jitterFrac outbound.expiresAt rcpt outcome).state = some action ∧
        suppressed rcpt outbound = false ∧ m.accountId = outbound.accountId ∧
        (settle P hostname io outbound rcpt outcome s).stores.metadata.messages =
          s.metadata.messages ++ [m] := by
  obtain ⟨s₁, hs₁, hnone | ⟨account, bytes, hnotice, hid, hsent⟩⟩ :=
    settle_cases P hostname io outbound rcpt outcome s
  · exact .inl (by rw [hnone, hs₁.metadata])
  · have hmessages : (settle P hostname io outbound rcpt outcome s).stores.metadata.messages =
        (deliverLocally P io.dsn outbound account bytes s₁).2.metadata.messages := by
      obtain hsent | hsent := hsent
      · rw [hsent]
      · rw [hsent]
        rfl
    obtain ⟨action, hdue, hbytes⟩ := Option.bind_eq_some_iff.mp hnotice
    have hsup : suppressed rcpt outbound = false := by
      by_contra h
      simp [h] at hbytes
    rcases hrun : deliverLocally P io.dsn outbound account bytes s₁ with ⟨r, t⟩
    rw [hmessages, hrun, ← hs₁.metadata]
    by_cases hok : r.isOk
    · obtain ⟨delivered, rfl⟩ := Res.isOk_iff.mp hok
      obtain ⟨m, hm⟩ := deliver_ok hrun
      exact .inr ⟨m, action, hdue, hsup, hm.accountId.trans hid, hm.messages⟩
    · exact .inl (deliver_failure.run hrun (by simpa using hok))

theorem settle_audit :
    (settle P hostname io outbound rcpt outcome s).stores.audit = s.audit ++
      if io.auditOk then
        (auditAction (settlement io.now io.jitterFrac outbound.expiresAt rcpt outcome).state).toList.map
          fun action => { action, detail := rcpt.rcptTo }
      else [] := by
  have hrecord : (recordOutcome io outbound rcpt outcome s).audit = s.audit ++
      if io.auditOk then
        (auditAction (settlement io.now io.jitterFrac outbound.expiresAt rcpt outcome).state).toList.map
          fun action => { action, detail := rcpt.rcptTo }
      else [] := by
    unfold recordOutcome
    simp only
    split
    · next h => split <;> simp [h]
    · next h => simp [h]
  rw [← hrecord]
  unfold settle
  simp only
  split
  · rfl
  · rw [sendDue_stores]
    exact congrArg Prod.snd (maybeSendDsn_same _)

end

/-! ## Scheduled events -/

section
variable {faults : Faults} {R : Stores → Stores → Prop}

theorem loadMessage_id {s : Stores} {rowId : ℤ} {m : StoredMessage}
    (h : loadMessage faults rowId s = some m) : m.id = rowId := by
  unfold loadMessage at h
  split at h
  · exact (findBy_some _ h).2
  · cases h

theorem fireEvent_relates [IsPreorder Stores R] {ev : ScheduledEvent}
    (hmark : ∀ id state s, state ≠ .pending → R s (markEvent faults id state s))
    (hkeywords : ∀ rowId keywords s, scheduledMessageRowId ev = some rowId →
      R s (storeKeywords faults rowId keywords s))
    (hnotify : ∀ accountId s, R s (notify accountId s))
    (hmailbox : ∀ accountId role s, R s (mailboxOr faults accountId role s).2) (s : Stores) :
    R s (fireEvent faults ev s) := by
  have hnamed : ∀ {m : StoredMessage} {s : Stores},
      ((scheduledMessageRowId ev).bind fun id => loadMessage faults id s) = some m →
      scheduledMessageRowId ev = some m.id := by
    intro m s h
    obtain ⟨rowId, hrow, hm⟩ := Option.bind_eq_some_iff.mp h
    rw [hrow, loadMessage_id hm]
  unfold fireEvent
  split
  · refine trans_of R ?_ (hmark _ _ _ (by decide))
    split
    · next m hm => exact trans_of R (hkeywords _ _ s (hnamed hm)) (hnotify _ _)
    · exact refl s
  · unfold fireFollowupNudge
    split
    · exact hmark _ _ s (by decide)
    · split
      · next m hm =>
        unfold nudgeOrCancel
        simp only
        have hboxes := trans_of R (hmailbox ev.accountId .sent s) (hmailbox ev.accountId .drafts _)
        split
        · exact trans_of R hboxes (hmark _ _ _ (by decide))
        · refine trans_of R hboxes (trans_of R ?_ (hmark _ _ _ (by decide)))
          unfold addNudge
          split
          · exact hnotify _ _
          · exact trans_of R (hkeywords _ _ _ (hnamed hm)) (hnotify _ _)
      · exact hmark _ _ s (by decide)
  · exact hmark _ _ s (by decide)

theorem fireAll_relates [IsPreorder Stores R] {faults : ℕ → Faults}
    (hfire : ∀ k ev s, R s (fireEvent (faults k) ev s)) (k : ℕ) (evs : List ScheduledEvent)
    (s : Stores) : R s (fireAll faults k evs s) := by
  induction evs generalizing k s with
  | nil => exact refl s
  | cons ev _ ih => exact trans_of R (hfire k ev s) (ih (k + 1) _)

theorem storeKeywords_run (rowId : ℤ) (keywords : List Text) (s : Stores) :
    storeKeywords faults rowId keywords s = s ∨
      storeKeywords faults rowId keywords s =
        { s with metadata := setKeywords rowId (join "," keywords) s.metadata } := by
  unfold storeKeywords
  rw [onMetadata_run, updateMessage]
  simp only [whenSome]
  rw [bind_run]
  simp only [Exec.pure]
  rw [sql_bind_run]
  cases faults .messageSetKeywords with
  | some => exact .inl rfl
  | none => exact .inr rfl

theorem mailboxOr_run (accountId : ℤ) (role : Role) (s : Stores) :
    (mailboxOr faults accountId role s).2 =
      (onMetadata (ensureMailbox faults accountId role) s).2 := by
  unfold mailboxOr
  split <;> next h => rw [h]

structure EventsOnly (s t : Stores) : Prop where
  blobs : t.blobs = s.blobs
  outbound : t.queue.outbound = s.queue.outbound
  rcpts : t.queue.rcpts = s.queue.rcpts
  accounts : t.accounts = s.accounts

instance : IsPreorder Stores EventsOnly where
  refl := fun _ => ⟨rfl, rfl, rfl, rfl⟩
  trans := fun _ _ _ h h' => ⟨h'.blobs.trans h.blobs, h'.outbound.trans h.outbound,
    h'.rcpts.trans h.rcpts, h'.accounts.trans h.accounts⟩

theorem markEvent_eventsOnly (id : ℤ) (state : EventState) (s : Stores) :
    EventsOnly s (markEvent faults id state s) := by
  unfold markEvent
  split
  · exact ⟨rfl, rfl, rfl, rfl⟩
  · exact refl s

theorem fireDueScheduledEvents_eventsOnly (query : Faults) (faults : ℕ → Faults) (now : ℤ)
    (s : Stores) : EventsOnly s (fireDueScheduledEvents query faults now s) := by
  refine fireAll_relates (fun k ev s => ?_) 0 _ s
  refine fireEvent_relates (fun id state s _ => markEvent_eventsOnly id state s)
    (fun _ _ s _ => ⟨rfl, rfl, rfl, rfl⟩) (fun _ s => ⟨rfl, rfl, rfl, rfl⟩) (fun accountId role s => ?_) s
  rw [mailboxOr_run]
  exact ⟨rfl, rfl, rfl, rfl⟩

end

end Litterae.Queue
