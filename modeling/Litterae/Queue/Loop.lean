import Litterae.Foundations.Run
import Litterae.Queue.Enqueue
import Litterae.Queue.Worker

/-! # The worker loop among enqueues

The loop of `Worker::run` is a machine: one action for each of its calls, `finalize` split where
other tasks can come between its statements (settle, count the active references, remove the blob).
Enqueues run beside it in their two steps, any number at a time.
-/

namespace Litterae.Queue
open Foundations Store Option

structure Inflight where
  new : NewOutbound
  messageBlob : Text
  deriving DecidableEq

inductive Pc where
  | reap
  | expire
  | fire
  | claim
  | units (us : List DeliveryUnit)
  | finalize (outbound : OutboundMessage) (todo : List (ClaimedRcpt × Outcome))
      (us : List DeliveryUnit)
  | count (outbound : OutboundMessage) (todo : List (ClaimedRcpt × Outcome)) (us : List DeliveryUnit)
  | remove (outbound : OutboundMessage) (todo : List (ClaimedRcpt × Outcome))
      (us : List DeliveryUnit)
  /-- The task panicked while it held these rows. -/
  | dead (left : List (ℤ × ClaimedRcpt))
  deriving DecidableEq

/-- The rows of the batch that are neither finalized nor released yet, each with its message. -/
def Pc.pending : Pc → List (ℤ × ClaimedRcpt)
  | .units us => us.flatMap DeliveryUnit.claims
  | .finalize outbound todo us | .count outbound todo us | .remove outbound todo us =>
    todo.map (fun p => (outbound.id, p.1)) ++ us.flatMap DeliveryUnit.claims
  | .dead left => left
  | _ => []

/-- One call of `finalize`: its recipient and the notification that was due, and the message rows and
audit entries that the stores have after it and did not have before. -/
structure Finalized where
  id : ℤ
  due : Option DsnAction
  mail : List StoredMessage
  entries : List AuditEntry
  deriving DecidableEq

structure Loop where
  stores : Stores
  cooldowns : Text → Option ℕ
  pc : Pc
  inflight : List Inflight
  /-- The calls of `finalize` so far, newest first. -/
  finalized : List Finalized

inductive Act where
  | write (faults : Faults) (sign : DomainKey → Bytes → Except Error Text) (domainKey : DomainKey)
      (new : NewOutbound)
  | insert (k : ℕ) (faults : Faults) (now : ℤ)
  | reap (faults : Faults) (now : ℤ)
  | expire (faults : Faults) (now : ℤ)
  | fire (query : Faults) (faults : ℕ → Faults) (now : ℤ)
  | claim (faults : Faults) (now : ℤ) (order : List ℤ) (units : List DeliveryUnit)
  | unit (io : SendIo)
  | finalize (io : FinalizeIo)
  | count (faults : Faults)
  | remove (faults : Faults)

def Pc.next : List DeliveryUnit → Pc
  | [] => .reap
  | us => .units us

def Pc.after (outbound : OutboundMessage) (todo : List (ClaimedRcpt × Outcome))
    (us : List DeliveryUnit) : Pc :=
  match todo with
  | [] => .next us
  | todo => .finalize outbound todo us

@[simp] theorem Pc.next_pending (us : List DeliveryUnit) :
    (Pc.next us).pending = us.flatMap DeliveryUnit.claims := by
  cases us <;> rfl

@[simp] theorem Pc.after_pending (outbound : OutboundMessage) (todo : List (ClaimedRcpt × Outcome))
    (us : List DeliveryUnit) : (Pc.after outbound todo us).pending =
      todo.map (fun p => (outbound.id, p.1)) ++ us.flatMap DeliveryUnit.claims := by
  cases todo with
  | nil => exact Pc.next_pending us
  | cons => rfl

namespace Loop

def queue (s : Loop) : QueueStore := s.stores.queue

def withQueue (q : QueueStore) (s : Loop) : Loop := { s with stores := { s.stores with queue := q } }

def isCoolingDown (s : Loop) (instant : ℕ) (domain : Text) : Bool :=
  (s.cooldowns domain).any fun t => decide (instant < t)

def setCooldown (cooling : Bool) (instant : ℕ) (domain : Text) (s : Loop) : Loop :=
  if cooling then
    { s with cooldowns := fun d => if d = domain then some (instant + cooldownSecs) else s.cooldowns d }
  else s

end Loop

section
variable (P : Primitives) (hostname : Text)

def ids (rcpts : List ClaimedRcpt) : List ℤ := rcpts.map ClaimedRcpt.id

def unitStep (io : SendIo) (u : DeliveryUnit) (us : List DeliveryUnit) (s : Loop) : Loop :=
  if s.isCoolingDown io.instant u.domain then
    { s.withQueue (releaseToReady io.faults 0 u.rcpts s.queue) with pc := .next us }
  else
    match loadOutbound io.faults u.outboundId s.queue with
    | none => { s with pc := .next us }
    | some outbound =>
      let (outcomes, cooling) := sendOutcomes P io outbound.messageBlob u.rcpts s.stores.blobs
      { s.setCooldown cooling io.instant u.domain with
        pc := .after outbound (u.rcpts.zip outcomes) us }

/-- The record of a `finalize`, read off the stores before and after it. -/
def Finalized.of (io : FinalizeIo) (outbound : OutboundMessage) (rcpt : ClaimedRcpt)
    (outcome : Outcome) (s t : Stores) : Finalized where
  id := rcpt.id
  due := dsnDue io.now outbound.createdAt rcpt
    (settlement io.now io.jitterFrac outbound.expiresAt rcpt outcome).state
  mail := t.metadata.messages.drop s.metadata.messages.length
  entries := t.audit.drop s.audit.length

def finalizeStep (io : FinalizeIo) (outbound : OutboundMessage) (rcpt : ClaimedRcpt)
    (outcome : Outcome) (todo : List (ClaimedRcpt × Outcome)) (us : List DeliveryUnit) (s : Loop) :
    Loop :=
  let r := settle P hostname io outbound rcpt outcome s.stores
  { s with
    stores := r.stores
    pc := if r.panicked then .dead (Pc.count outbound todo us).pending else .count outbound todo us
    finalized := .of io outbound rcpt outcome s.stores r.stores :: s.finalized }

def workerStep (s : Loop) : Pc → Act → Option Loop
  | .reap, .reap faults now =>
    some { s.withQueue (reapStaleClaims faults now s.queue) with pc := .expire }
  | .expire, .expire faults now =>
    some { s.withQueue (expireOverdue faults now s.queue) with pc := .fire }
  | .fire, .fire query faults now =>
    some { s with stores := fireDueScheduledEvents query faults now s.stores, pc := .claim }
  | .claim, .claim faults now order units =>
    if ValidBatch now s.queue order ∧ units.Perm (groupUnits (claimedRows faults order s.queue)) then
      some { s.withQueue (claimRows faults now order s.queue) with pc := .next units }
    else none
  | .units (u :: us), .unit io => some (unitStep P io u us s)
  | .finalize outbound ((rcpt, outcome) :: todo) us, .finalize io =>
    some (finalizeStep P hostname io outbound rcpt outcome todo us s)
  | .count outbound todo us, .count faults =>
    some { s with
      pc := if noActiveReference faults outbound.messageBlob s.queue then .remove outbound todo us
        else .after outbound todo us }
  | .remove outbound todo us, .remove faults =>
    some { s with
      stores := (onBlobs (remove faults outbound.messageBlob) s.stores).2
      pc := .after outbound todo us }
  | _, _ => none

def step (s : Loop) (a : Act) : Option Loop :=
  match a with
  | .write faults sign domainKey new =>
    match enqueueWrite P faults sign domainKey new s.stores with
    | (.ok hash, t) => some { s with stores := t, inflight := s.inflight ++ [⟨new, hash⟩] }
    | (_, t) => some { s with stores := t }
  | .insert k faults now =>
    match s.inflight[k]? with
    | none => none
    | some e =>
      some { s with
        stores := (onQueue (enqueueInsert faults now e.new e.messageBlob) s.stores).2
        inflight := s.inflight.eraseIdx k }
  | a => workerStep P hostname s s.pc a

end

def Loop.start (stores : Stores) : Loop where
  stores := stores
  cooldowns := fun _ => none
  pc := .reap
  inflight := []
  finalized := []

/-! ## What an action does to a recipient row -/

structure Tables (q : QueueStore) : Prop where
  rcptIds : (q.rcpts.map OutboundRecipient.id).Nodup
  outboundIds : (q.outbound.map OutboundMessage.id).Nodup
  owned : ∀ r ∈ q.rcpts, r.outboundId ∈ q.outbound.map OutboundMessage.id

/-- The row `r` becomes `r'` by the action. -/
inductive Change (s : Loop) : Act → OutboundRecipient → OutboundRecipient → Prop where
  | keep (a : Act) (r : OutboundRecipient) : Change s a r r
  | reaped {faults : Faults} {now : ℤ} {r : OutboundRecipient} (hpc : s.pc = .reap)
      (hstale : isStale now r = true) : Change s (.reap faults now) r (toReady r)
  | expired {faults : Faults} {now : ℤ} {r : OutboundRecipient} (hpc : s.pc = .expire)
      (hsql : faults .expireUpdate = none) (hoverdue : isOverdue now s.queue r = true) :
      Change s (.expire faults now) r (toExpired r)
  | claimed {faults : Faults} {now : ℤ} {order : List ℤ} {units : List DeliveryUnit}
      {r : OutboundRecipient} (hpc : s.pc = .claim) (hsql : faults .claimUpdate = none)
      (hmem : r.id ∈ order) (hdue : isDue now r = true) :
      Change s (.claim faults now order units) r (toClaimed now r)
  | released {io : SendIo} {u : DeliveryUnit} {us : List DeliveryUnit} {r : OutboundRecipient}
      (hpc : s.pc = .units (u :: us)) (hcooling : s.isCoolingDown io.instant u.domain = true)
      (hmem : r.id ∈ ids u.rcpts) : Change s (.unit io) r (toReady r)
  | settled {io : FinalizeIo} {outbound : OutboundMessage} {rcpt : ClaimedRcpt} {outcome : Outcome}
      {todo : List (ClaimedRcpt × Outcome)} {us : List DeliveryUnit} {r : OutboundRecipient}
      (hpc : s.pc = .finalize outbound ((rcpt, outcome) :: todo) us) (hid : r.id = rcpt.id) :
      Change s (.finalize io) r (settledRow io outbound rcpt outcome r)

/-- The rows an insert adds: one message with the blob of its enqueue, and recipients that are
ready, under new ids. -/
structure Inserted (s : Loop) (k : ℕ) (news : List OutboundRecipient) (o : OutboundMessage) : Prop where
  blob : ∃ e, s.inflight[k]? = some e ∧ o.messageBlob = e.messageBlob
  rows : ∀ r ∈ news, r.outboundId = o.id ∧ r.state = .ready ∧ r.delayedDsnSent = false ∧
    r.id ∉ s.queue.rcpts.map OutboundRecipient.id
  rcptIds : (s.queue.rcpts.map OutboundRecipient.id).Nodup →
    ((s.queue.rcpts ++ news).map OutboundRecipient.id).Nodup
  outboundId : o.id = nextRowid OutboundMessage.id s.queue.outbound

/-- The tables after an action: the old rows, each changed as `Change` says, and for an insert that
got as far as the message row the rows it added. -/
structure TableStep (s : Loop) (a : Act) (t : Loop) (f : OutboundRecipient → OutboundRecipient)
    (news : List OutboundRecipient) (newMessages : List OutboundMessage) : Prop where
  rcpts : t.queue.rcpts = s.queue.rcpts.map f ++ news
  outbound : t.queue.outbound = s.queue.outbound ++ newMessages
  change : ∀ r ∈ s.queue.rcpts, Change s a r (f r)
  added : (news = [] ∧ newMessages = []) ∨
    ∃ k faults now o, a = .insert k faults now ∧ newMessages = [o] ∧ Inserted s k news o

variable {faults : Faults} {f : OutboundRecipient → OutboundRecipient} {site : Site}
  {p : OutboundRecipient → Bool} {hostname : Text} {P : Primitives}

section
variable {s t : Loop} {a : Act}

theorem TableStep.new_row {news : List OutboundRecipient} {newMessages : List OutboundMessage}
    {r : OutboundRecipient} (h : TableStep s a t f news newMessages) (hr : r ∈ news) :
    r.state = .ready ∧ r.id ∉ s.queue.rcpts.map OutboundRecipient.id := by
  rcases h.added with ⟨rfl, -⟩ | ⟨k, faults, now, o, -, -, hins⟩
  · cases hr
  · exact ⟨(hins.rows r hr).2.1, (hins.rows r hr).2.2.2⟩

theorem TableStep.same (hr : t.queue.rcpts = s.queue.rcpts)
    (ho : t.queue.outbound = s.queue.outbound) : TableStep s a t id [] [] :=
  ⟨by simp [hr], by simp [ho], fun r _ => .keep a r, .inl ⟨rfl, rfl⟩⟩

theorem TableStep.map (hr : t.queue.rcpts = s.queue.rcpts.map f)
    (ho : t.queue.outbound = s.queue.outbound) (hchange : ∀ r ∈ s.queue.rcpts, Change s a r (f r)) :
    TableStep s a t f [] [] :=
  ⟨by simp [hr], by simp [ho], hchange, .inl ⟨rfl, rfl⟩⟩

theorem insert_tableStep {k : ℕ} {now : ℤ} {e : Inflight} (he : s.inflight[k]? = some e)
    (hq : t.queue = (enqueueInsert faults now e.new e.messageBlob s.queue).2) :
    ∃ news newMessages, TableStep s (.insert k faults now) t id news newMessages := by
  rcases enqueueInsert_queue faults now e.new e.messageBlob s.queue with ⟨hsame, -⟩ | ⟨n, -, hins, -⟩
  · rw [hsame] at hq
    exact ⟨[], [], .same (by rw [hq]) (by rw [hq])⟩
  · rw [hins] at hq
    obtain ⟨news, hnews, -, hrows, hnodup⟩ := addRcpts_rcpts
      (nextRowid OutboundMessage.id s.queue.outbound) now (e.new.recipients.take n)
      (addOutbound e.new e.messageBlob now s.queue)
    refine ⟨news, [outboundRow e.new e.messageBlob now
      (nextRowid OutboundMessage.id s.queue.outbound)], ?_, ?_, fun r _ => .keep _ r, ?_⟩
    · rw [hq, hnews, List.map_id]
      rfl
    · rw [hq, addRcpts_outbound]
      rfl
    · exact .inr ⟨k, faults, now, _, rfl, rfl, ⟨e, he, rfl⟩, hrows, hnodup, rfl⟩

inductive WorkerStep (P : Primitives) (hostname : Text) (s : Loop) : Act → Loop → Prop where
  | reap {faults : Faults} {now : ℤ} (hpc : s.pc = .reap) :
      WorkerStep P hostname s (.reap faults now)
        { s.withQueue (reapStaleClaims faults now s.queue) with pc := .expire }
  | expire {faults : Faults} {now : ℤ} (hpc : s.pc = .expire) :
      WorkerStep P hostname s (.expire faults now)
        { s.withQueue (expireOverdue faults now s.queue) with pc := .fire }
  | fire {query : Faults} {faults : ℕ → Faults} {now : ℤ} (hpc : s.pc = .fire) :
      WorkerStep P hostname s (.fire query faults now)
        { s with stores := fireDueScheduledEvents query faults now s.stores, pc := .claim }
  | claim {faults : Faults} {now : ℤ} {order : List ℤ} {units : List DeliveryUnit}
      (hpc : s.pc = .claim) (hvalid : ValidBatch now s.queue order)
      (hunits : units.Perm (groupUnits (claimedRows faults order s.queue))) :
      WorkerStep P hostname s (.claim faults now order units)
        { s.withQueue (claimRows faults now order s.queue) with pc := .next units }
  | unit {io : SendIo} {u : DeliveryUnit} {us : List DeliveryUnit} (hpc : s.pc = .units (u :: us)) :
      WorkerStep P hostname s (.unit io) (unitStep P io u us s)
  | finalize {io : FinalizeIo} {outbound : OutboundMessage} {rcpt : ClaimedRcpt} {outcome : Outcome}
      {todo : List (ClaimedRcpt × Outcome)} {us : List DeliveryUnit}
      (hpc : s.pc = .finalize outbound ((rcpt, outcome) :: todo) us) :
      WorkerStep P hostname s (.finalize io)
        (finalizeStep P hostname io outbound rcpt outcome todo us s)
  | count {faults : Faults} {outbound : OutboundMessage} {todo : List (ClaimedRcpt × Outcome)}
      {us : List DeliveryUnit} (hpc : s.pc = .count outbound todo us) :
      WorkerStep P hostname s (.count faults)
        { s with
          pc := if noActiveReference faults outbound.messageBlob s.queue then
            .remove outbound todo us else .after outbound todo us }
  | remove {faults : Faults} {outbound : OutboundMessage} {todo : List (ClaimedRcpt × Outcome)}
      {us : List DeliveryUnit} (hpc : s.pc = .remove outbound todo us) :
      WorkerStep P hostname s (.remove faults)
        { s with
          stores := (onBlobs (remove faults outbound.messageBlob) s.stores).2
          pc := .after outbound todo us }

/-- The inversion of `step`: an enqueue's first or second step, or one of the worker. -/
inductive Taken (P : Primitives) (hostname : Text) (s : Loop) : Act → Loop → Prop where
  | written {faults : Faults} {sign : DomainKey → Bytes → Except Error Text} {domainKey : DomainKey}
      {new : NewOutbound} {hash : Text} {stores : Stores}
      (hwrite : enqueueWrite P faults sign domainKey new s.stores = (.ok hash, stores)) :
      Taken P hostname s (.write faults sign domainKey new)
        { s with stores := stores, inflight := s.inflight ++ [⟨new, hash⟩] }
  | notWritten {faults : Faults} {sign : DomainKey → Bytes → Except Error Text}
      {domainKey : DomainKey} {new : NewOutbound} {r : Res Error Text} {stores : Stores}
      (hwrite : enqueueWrite P faults sign domainKey new s.stores = (r, stores))
      (hfailed : r.isOk = false) :
      Taken P hostname s (.write faults sign domainKey new) { s with stores := stores }
  | inserted {k : ℕ} {faults : Faults} {now : ℤ} {e : Inflight} (he : s.inflight[k]? = some e) :
      Taken P hostname s (.insert k faults now)
        { s with
          stores := (onQueue (enqueueInsert faults now e.new e.messageBlob) s.stores).2
          inflight := s.inflight.eraseIdx k }
  | worker {a : Act} {t : Loop} (h : WorkerStep P hostname s a t) : Taken P hostname s a t

theorem workerStep_taken {pc : Pc} (hpc : s.pc = pc) (h : workerStep P hostname s pc a = some t) :
    WorkerStep P hostname s a t := by
  unfold workerStep at h
  split at h
  · obtain rfl := some.inj h; exact .reap hpc
  · obtain rfl := some.inj h; exact .expire hpc
  · obtain rfl := some.inj h; exact .fire hpc
  · split at h
    · next hvalid => obtain rfl := some.inj h; exact .claim hpc hvalid.1 hvalid.2
    · cases h
  · obtain rfl := some.inj h; exact .unit hpc
  · obtain rfl := some.inj h; exact .finalize hpc
  · obtain rfl := some.inj h; exact .count hpc
  · obtain rfl := some.inj h; exact .remove hpc
  · cases h

theorem taken_of_step (h : step P hostname s a = some t) : Taken P hostname s a t := by
  unfold step at h
  split at h
  · split at h
    · next hwrite => obtain rfl := some.inj h; exact .written hwrite
    · next r stores hfailed hwrite =>
      obtain rfl := some.inj h
      refine .notWritten hwrite ?_
      cases r with
      | ok hash => exact absurd rfl (hfailed hash)
      | _ => rfl
  · split at h
    · cases h
    · next he => obtain rfl := some.inj h; exact .inserted he
  · exact .worker (workerStep_taken rfl h)

theorem TableStep.update {g : OutboundRecipient → OutboundRecipient}
    (hq : t.queue = updateRcpts faults site p g s.queue)
    (hchange : ∀ r ∈ s.queue.rcpts, faults site = none → p r → Change s a r (g r)) :
    ∃ f news newMessages, TableStep s a t f news newMessages := by
  rw [updateRcpts_eq] at hq
  refine ⟨_, [], [], .map (by rw [hq]) (by rw [hq]) fun r hr => ?_⟩
  split
  · next h => exact hchange r hr h.1 h.2
  · exact .keep a r

theorem unitStep_tableStep {io : SendIo} {u : DeliveryUnit} {us : List DeliveryUnit}
    (hpc : s.pc = .units (u :: us)) :
    ∃ f, TableStep s (.unit io) (unitStep P io u us s) f [] [] := by
  unfold unitStep
  split
  · next hcooling =>
    obtain ⟨f, hf, hrow, -⟩ := @releaseToReady_eq io.faults 0 u.rcpts s.queue
    refine ⟨f, .map (by simp [Loop.queue, Loop.withQueue] at hf ⊢; rw [hf]) ?_ fun r _ => ?_⟩
    · simp only [Loop.queue, Loop.withQueue] at hf ⊢
      rw [hf]
    · rcases hrow r with heq | ⟨hmem, heq⟩
      · rw [heq]
        exact .keep _ r
      · rw [heq]
        exact .released hpc hcooling hmem
  · split
    · exact ⟨id, .same rfl rfl⟩
    · refine ⟨id, .same ?_ ?_⟩ <;>
        · simp only [Loop.queue, Loop.setCooldown]
          split <;> rfl

theorem step_tables (hT : Tables s.queue) (h : step P hostname s a = some t) :
    ∃ f news newMessages, TableStep s a t f news newMessages := by
  cases taken_of_step h with
  | written hwrite | notWritten hwrite =>
    obtain ⟨b, hb⟩ := enqueueWrite_stores P _ _ _ _ s.stores
    rw [hwrite] at hb
    subst hb
    exact ⟨id, [], [], .same rfl rfl⟩
  | inserted he => exact ⟨id, insert_tableStep he rfl⟩
  | worker hw =>
    cases hw with
    | reap hpc => exact TableStep.update rfl fun r _ _ hstale => .reaped hpc hstale
    | expire hpc => exact TableStep.update rfl fun r _ hsql hover => .expired hpc hsql hover
    | fire =>
      exact ⟨id, [], [], .same (fireDueScheduledEvents_eventsOnly _ _ _ s.stores).rcpts
        (fireDueScheduledEvents_eventsOnly _ _ _ s.stores).outbound⟩
    | claim hpc hvalid =>
      refine TableStep.update rfl fun r hr hsql hmem => ?_
      have hin := List.contains_iff_mem.mp hmem
      obtain ⟨r', hr', hid, hdue⟩ := hvalid.2.1 r.id hin
      obtain rfl : r' = r := List.inj_on_of_nodup_map hT.rcptIds hr' hr hid
      exact .claimed hpc hsql hin hdue
    | unit hpc =>
      obtain ⟨f, hf⟩ := unitStep_tableStep hpc
      exact ⟨f, [], [], hf⟩
    | @finalize io outbound rcpt outcome todo us hpc =>
      have hq : (finalizeStep P hostname io outbound rcpt outcome todo us s).queue = _ :=
        settle_queue P hostname io outbound rcpt outcome s.stores
      refine ⟨_, [], [], .map (by rw [hq]; rfl) (by rw [hq]; rfl) fun r _ => ?_⟩
      split
      · next hid => exact .settled hpc hid
      · exact .keep _ r
    | count hpc | remove hpc => exact ⟨id, [], [], .same rfl rfl⟩

end

/-! ## What an action does to the mail -/

section
variable {R : Stores → Stores → Prop}
  (hsame : ∀ s t : Stores, t.metadata = s.metadata → t.queue.events = s.queue.events → R s t)
  [IsTrans Stores R]
  (hdeliver : ∀ io outbound account bytes, Exec.Keeps R (deliverLocally P io outbound account bytes))

theorem updateRcpts_events (q : QueueStore) :
    (updateRcpts faults site p f q).events = q.events := by
  rw [updateRcpts_eq]

include hsame hdeliver

theorem settle_relates {io : FinalizeIo} {outbound : OutboundMessage} {rcpt : ClaimedRcpt}
    {outcome : Outcome} (s : Stores) :
    R s (settle P hostname io outbound rcpt outcome s).stores := by
  obtain ⟨s₁, hs₁, hnone | ⟨account, bytes, -, -, hsent⟩⟩ :=
    settle_cases P hostname io outbound rcpt outcome s
  · rw [hnone]
    exact hsame s s₁ hs₁.metadata hs₁.events
  · have hdelivered : R s (deliverLocally P io.dsn outbound account bytes s₁).2 :=
      trans_of R (hsame s s₁ hs₁.metadata hs₁.events) (hdeliver _ _ _ _ s₁)
    obtain hsent | hsent := hsent
    · rw [hsent]
      exact hdelivered
    · rw [hsent]
      exact trans_of R hdelivered (hsame _ (notify _ _) rfl rfl)

theorem step_relates (hfire : ∀ faults ev s, R s (fireEvent faults ev s)) {s t : Loop} {a : Act}
    (h : step P hostname s a = some t) : R s.stores t.stores := by
  cases taken_of_step h with
  | written hwrite | notWritten hwrite =>
    obtain ⟨b, hb⟩ := enqueueWrite_stores P _ _ _ _ s.stores
    rw [hwrite] at hb
    subst hb
    exact hsame _ _ rfl rfl
  | @inserted k faults now e he =>
    refine hsame _ _ rfl ?_
    rw [onQueue_run]
    rcases enqueueInsert_queue faults now e.new e.messageBlob s.stores.queue with
      ⟨hq, -⟩ | ⟨n, -, hq, -⟩
    · rw [hq]
    · rw [hq, addRcpts_events]
      rfl
  | worker hw =>
    cases hw with
    | reap hpc | expire hpc | claim hpc hvalid hunits => exact hsame _ _ rfl (updateRcpts_events _)
    | fire =>
      have : IsPreorder Stores R := { refl := fun s => hsame s s rfl rfl }
      exact fireAll_relates (fun _ ev s => hfire _ ev s) 0 _ s.stores
    | @unit io u us hpc =>
      unfold unitStep
      split
      · obtain ⟨f, hf, -⟩ := @releaseToReady_eq io.faults 0 u.rcpts s.queue
        refine hsame _ _ rfl ?_
        simp only [Loop.withQueue, hf]
        rfl
      · split
        · exact hsame _ _ rfl rfl
        · simp only [Loop.setCooldown]
          split <;> exact hsame _ _ rfl rfl
    | finalize => exact settle_relates hsame hdeliver s.stores
    | count hpc | remove hpc => exact hsame _ _ rfl rfl

end
end Litterae.Queue
