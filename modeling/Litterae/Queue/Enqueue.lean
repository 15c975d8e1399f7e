import Litterae.Stores
import Litterae.Common.Input

/-! # Accepting a message into the queue (`queue/src/{enqueue,dkim}.rs`)

`enqueue` works in two steps: it writes the signed bytes to the blob store, then, under the queue
mutex, checks the sending limits and inserts one `outbound` row and one `outbound_rcpt` row for each
recipient, statement by statement.
-/

namespace Litterae.Queue
open Foundations Store Exec List

def selector : Text := "litterae"

def maxLifetimeSecs : ℤ := 5 * 24 * 3600

def rateLimitWindowSecs : ℤ := 3600

def maxMessagesPerWindow : ℤ := 200

def maxRecipientsPerWindow : ℤ := 500

/-! ## Signing keys -/

section
variable (faults : Faults)

def loadDkimKey (domain : Text) : Exec QueueStore Error (Option DomainKey) := do
  sql faults .dkimSelect
  let q ← Exec.get
  pure (findBy DomainKey.domain domain q.dkimKeys)

/-- `ensure_dkim_key`; `generated` is what the RSA key generation gives, private key first. -/
def ensureDkimKey (generated : Except Text (Bytes × Bytes)) (domain : Text) :
    Exec QueueStore Error DomainKey := do
  match ← loadDkimKey faults domain with
  | some key => pure key
  | none =>
    match generated with
    | .error detail => Exec.throw (.crypto ("DKIM key generation failed: " ++ detail))
    | .ok (privateDer, publicDer) => do
      sql faults .dkimInsert
      let key : DomainKey := { domain, selector, privateDer, publicDer }
      Exec.modify fun q => { q with dkimKeys := q.dkimKeys ++ [key] }
      pure key

theorem ensureDkimKey_same {β : Type} {g : QueueStore → β}
    (hg : ∀ q dkimKeys, g { q with dkimKeys } = g q) (generated : Except Text (Bytes × Bytes))
    (domain : Text) : Keeps (Same g) (ensureDkimKey faults generated domain) := by
  refine .bind query_same fun found => ?_
  cases found with
  | some => exact .pure
  | none =>
    cases generated with
    | error => exact .throw
    | ok => exact .bind sql_keeps fun _ => .bind (.modify fun q => hg q _) fun _ => .pure

theorem ensureDkimKey_noPanic (generated : Except Text (Bytes × Bytes)) (domain : Text) :
    NoPanic (ensureDkimKey faults generated domain) := by
  refine .bind (.bind sql_noPanic fun _ => .bind .get fun _ => .pure) fun found => ?_
  cases found with
  | some => exact .pure
  | none =>
    cases generated with
    | error => exact .throw
    | ok => exact .bind sql_noPanic fun _ => .bind (.modify _) fun _ => .pure

end

/-! ## Writing the blob -/

def invalidEnvelope (new : NewOutbound) : Bool :=
  (!new.envelopeFrom.isEmpty && !Input.validEmailAddress new.envelopeFrom) ||
    new.recipients.isEmpty || decide (100 < new.recipients.length) ||
    new.recipients.any fun rcpt => !Input.validEmailAddress rcpt

/-- The first step of `enqueue`: check, sign, write. Signing is any function of key and message. -/
def enqueueWrite (P : Primitives) (faults : Faults) (sign : DomainKey → Bytes → Except Error Text)
    (domainKey : DomainKey) (new : NewOutbound) : Exec Stores Error Text :=
  if invalidEnvelope new then Exec.throw (.config "invalid outbound envelope")
  else
    match sign domainKey new.rawMessage with
    | .error e => Exec.throw e
    | .ok dkimHeader => onBlobs (write P faults (utf8 dkimHeader ++ new.rawMessage))

/-! ## Inserting the rows -/

/-- Messages the account sent after `since`, local DSNs apart. -/
def messageCount (q : QueueStore) (accountId since : ℤ) : ℤ :=
  (q.outbound.filter fun o => o.accountId == accountId && decide (since < o.createdAt) && !o.isDsn).length

def recipientCount (q : QueueStore) (accountId since : ℤ) : ℤ :=
  (q.rcpts.flatMap fun r => q.outbound.filter fun o =>
    o.id == r.outboundId && o.accountId == accountId && decide (since < o.createdAt) && !o.isDsn).length

def showInt (n : ℤ) : Text := (toString n).toList

def checkRate (faults : Faults) (now : ℤ) (new : NewOutbound) : Exec QueueStore Error Unit := do
  let since := now - rateLimitWindowSecs
  sql faults .countMessages
  let q ← Exec.get
  if maxMessagesPerWindow ≤ messageCount q new.accountId since then
    Exec.throw (.rateLimited ("account has sent " ++
      showInt (messageCount q new.accountId since) ++ " messages in the last hour (limit 200)"))
  else do
    sql faults .countRecipients
    if maxRecipientsPerWindow < recipientCount q new.accountId since + new.recipients.length then
      Exec.throw (.rateLimited ("account has addressed " ++
        showInt (recipientCount q new.accountId since) ++
        " recipients in the last hour (limit 500)"))
    else pure ()

def outboundRow (new : NewOutbound) (messageBlob : Text) (now id : ℤ) : OutboundMessage where
  id := id
  accountId := new.accountId
  messageBlob := messageBlob
  envelopeFrom := new.envelopeFrom
  createdAt := now
  expiresAt := now + maxLifetimeSecs
  dsnEnvid := new.dsnEnvid
  dsnRet := new.dsnRet
  isDsn := new.isDsn

/-- The domain a recipient is grouped under: what follows the last `@`, in ASCII lower case. -/
def rcptDomain (rcpt : Text) : Text :=
  (match rsplitOnce '@' rcpt with
    | some (_, domain) => domain
    | none => rcpt).map Char.toLower

def rcptRow (outboundId now : ℤ) (rcpt : Text) (id : ℤ) : OutboundRecipient where
  id := id
  outboundId := outboundId
  rcptTo := rcpt
  domain := rcptDomain rcpt
  dsnNotify := "FAILURE"
  state := .ready
  attempts := 0
  nextAttemptAt := now
  claimedBy := none
  claimedAt := none
  lastCode := none
  lastStatus := none
  lastDetail := none
  delayedDsnSent := false

def addRcpt (outboundId now : ℤ) (rcpt : Text) (q : QueueStore) : QueueStore :=
  { q with rcpts := q.rcpts ++
      [rcptRow outboundId now rcpt (nextRowid OutboundRecipient.id q.rcpts)] }

def insertRcpts (faults : Faults) (outboundId now : ℤ) :
    ℕ → List Text → Exec QueueStore Error Unit
  | _, [] => pure ()
  | k, rcpt :: rest => do
    sql faults (.rcptInsert k)
    Exec.modify (addRcpt outboundId now rcpt)
    insertRcpts faults outboundId now (k + 1) rest

def addOutbound (new : NewOutbound) (messageBlob : Text) (now : ℤ) (q : QueueStore) : QueueStore :=
  { q with outbound := q.outbound ++
      [outboundRow new messageBlob now (nextRowid OutboundMessage.id q.outbound)] }

def rateGate (faults : Faults) (now : ℤ) (new : NewOutbound) : Exec QueueStore Error Unit :=
  if new.isDsn then pure () else checkRate faults now new

/-- The second step of `enqueue`, under the queue mutex. -/
def enqueueInsert (faults : Faults) (now : ℤ) (new : NewOutbound) (messageBlob : Text) :
    Exec QueueStore Error ℤ := do
  rateGate faults now new
  sql faults .outboundInsert
  let q ← Exec.get
  let outboundId := nextRowid OutboundMessage.id q.outbound
  Exec.modify (addOutbound new messageBlob now)
  insertRcpts faults outboundId now 0 new.recipients
  pure outboundId

def enqueue (P : Primitives) (faults : Faults) (sign : DomainKey → Bytes → Except Error Text)
    (now : ℤ) (domainKey : DomainKey) (new : NewOutbound) : Exec Stores Error ℤ := do
  let messageBlob ← enqueueWrite P faults sign domainKey new
  onQueue (enqueueInsert faults now new messageBlob)

/-! ## What the steps leave behind -/

variable {q : QueueStore} {now : ℤ}

section
variable (faults : Faults)

def addRcpts (outboundId now : ℤ) (rcpts : List Text) (q : QueueStore) : QueueStore :=
  rcpts.foldl (fun q rcpt => addRcpt outboundId now rcpt q) q

theorem rateGate_noPanic (now : ℤ) (new : NewOutbound) : NoPanic (rateGate faults now new) := by
  refine .ite .pure ?_
  refine .bind sql_noPanic fun _ => .bind .get fun q => ?_
  refine .ite .throw ?_
  exact .bind sql_noPanic fun _ => .ite .throw .pure

theorem rateGate_queue (now : ℤ) (new : NewOutbound) :
    Keeps (fun s t => t = s) (rateGate faults now new) := by
  have htrans : ∀ s t u : QueueStore, t = s → u = t → u = s := fun _ _ _ h h' => h'.trans h
  have hsql : ∀ site, Keeps (fun s t : QueueStore => t = s) (sql faults site) :=
    fun site s => sql_state faults site s
  have hpure : Keeps (fun s t : QueueStore => t = s) (pure () : Exec QueueStore Error Unit) :=
    fun _ => rfl
  have hthrow : ∀ e, Keeps (fun s t : QueueStore => t = s)
      (Exec.throw e : Exec QueueStore Error Unit) := fun _ _ => rfl
  refine .ite hpure ?_
  refine .bind (hsql _) fun _ => .bind (fun _ => rfl) fun q => ?_
  refine .ite (hthrow _) ?_
  exact .bind (hsql _) fun _ => .ite (hthrow _) hpure

/-- The limits of the last hour leave room for the message, and the counts can be read. -/
def RatePasses (now : ℤ) (new : NewOutbound) (q : QueueStore) : Prop :=
  new.isDsn = true ∨
    (faults .countMessages = none ∧
      messageCount q new.accountId (now - rateLimitWindowSecs) < maxMessagesPerWindow ∧
      faults .countRecipients = none ∧
      recipientCount q new.accountId (now - rateLimitWindowSecs) + new.recipients.length ≤
        maxRecipientsPerWindow)

theorem rateGate_ok_iff (now : ℤ) (new : NewOutbound) (q : QueueStore) :
    rateGate faults now new q = (.ok (), q) ↔ RatePasses faults now new q := by
  unfold rateGate RatePasses
  by_cases hdsn : new.isDsn
  · simp [hdsn]
  · simp only [hdsn, if_false, false_or, Bool.false_eq_true, checkRate, sql_bind_run]
    cases faults .countMessages with
    | some => simp
    | none =>
      rw [bind_of_ok (get_run q), ite_run, sql_bind_run]
      by_cases hmsg : maxMessagesPerWindow ≤
          messageCount q new.accountId (now - rateLimitWindowSecs)
      · simp [hmsg, not_lt.mpr hmsg]
      · simp only [hmsg, if_false, not_le.mp hmsg, true_and]
        cases faults .countRecipients with
        | some => simp
        | none =>
          by_cases hrcpt : maxRecipientsPerWindow <
              recipientCount q new.accountId (now - rateLimitWindowSecs) + new.recipients.length
          · simp [hrcpt, not_le.mpr hrcpt]
          · simp [hrcpt, not_lt.mp hrcpt]

theorem insertRcpts_run (outboundId now : ℤ) (k : ℕ) (rcpts : List Text) (q : QueueStore) :
    ∃ n ≤ rcpts.length,
      (insertRcpts faults outboundId now k rcpts q).2 = addRcpts outboundId now (rcpts.take n) q ∧
      (insertRcpts faults outboundId now k rcpts q).1.returns ∧
      ((insertRcpts faults outboundId now k rcpts q).1.isOk ↔ n = rcpts.length) ∧
      (n = rcpts.length ↔ ∀ i < rcpts.length, faults (.rcptInsert (k + i)) = none) := by
  induction rcpts generalizing k q with
  | nil => exact ⟨0, le_refl _, rfl, rfl, by simp [insertRcpts, Res.isOk], by simp⟩
  | cons rcpt _ ih =>
    rw [insertRcpts, sql_bind_run, length_cons,
      forall_rounds_succ (p := fun i => faults (.rcptInsert i) = none)]
    cases faults (.rcptInsert k) with
    | some => exact ⟨0, Nat.zero_le _, rfl, rfl, by simp [Res.isOk], by simp⟩
    | none =>
      obtain ⟨n, hn, hstate, hret, hok, hall⟩ := ih (k + 1) (addRcpt outboundId now rcpt q)
      rw [bind_of_ok (modify_run q)]
      refine ⟨n + 1, Nat.succ_le_succ hn, ?_, hret, ?_, ?_⟩
      · rw [hstate]
        rfl
      · rw [hok]
        simp
      · rw [← hall]
        simp

/-- The statement that inserts the message row is reached and succeeds. -/
def RowInserted (now : ℤ) (new : NewOutbound) (q : QueueStore) : Prop :=
  RatePasses faults now new q ∧ faults .outboundInsert = none

theorem enqueueInsert_refused {now : ℤ} {new : NewOutbound} {messageBlob : Text} {q : QueueStore}
    (h : ¬ RowInserted faults now new q) :
    (enqueueInsert faults now new messageBlob q).2 = q ∧
      (enqueueInsert faults now new messageBlob q).1.isOk = false ∧
      (enqueueInsert faults now new messageBlob q).1.returns := by
  have hgate := rateGate_queue faults now new q
  have hpanic := rateGate_noPanic faults now new q
  rw [enqueueInsert]
  match hg : rateGate faults now new q with
  | (.err e, t) =>
    rw [hg] at hgate
    rw [bind_of_err hg]
    exact ⟨hgate, rfl, rfl⟩
  | (.panic, t) => rw [hg] at hpanic; simp [Res.returns] at hpanic
  | (.ok u, t) =>
    rw [hg] at hgate
    obtain rfl : t = q := hgate
    have hpass : RatePasses faults now new t := (rateGate_ok_iff faults now new t).mp hg
    rw [bind_of_ok hg, sql_bind_run]
    cases hins : faults .outboundInsert with
    | some => exact ⟨rfl, rfl, rfl⟩
    | none => exact absurd ⟨hpass, hins⟩ h

theorem enqueueInsert_inserted {now : ℤ} {new : NewOutbound} {messageBlob : Text} {q : QueueStore}
    (h : RowInserted faults now new q) :
    ∃ n ≤ new.recipients.length,
      (enqueueInsert faults now new messageBlob q).2 =
        addRcpts (nextRowid OutboundMessage.id q.outbound) now (new.recipients.take n)
          (addOutbound new messageBlob now q) ∧
      (enqueueInsert faults now new messageBlob q).1.returns ∧
      ((enqueueInsert faults now new messageBlob q).1.isOk ↔ n = new.recipients.length) ∧
      (n = new.recipients.length ↔
        ∀ k < new.recipients.length, faults (.rcptInsert k) = none) := by
  obtain ⟨n, hn, hstate, hret, hok, hall⟩ := insertRcpts_run faults
    (nextRowid OutboundMessage.id q.outbound) now 0 new.recipients
    (addOutbound new messageBlob now q)
  simp only [Nat.zero_add] at hall
  refine ⟨n, hn, ?_⟩
  rw [enqueueInsert, bind_of_ok ((rateGate_ok_iff faults now new q).mpr h.1), sql_bind_run, h.2]
  rw [bind_of_ok (get_run q), bind_of_ok (modify_run q)]
  match hi : insertRcpts faults (nextRowid OutboundMessage.id q.outbound) now 0 new.recipients
      (addOutbound new messageBlob now q) with
  | (.ok u, t) =>
    rw [hi] at hstate hok
    rw [bind_of_ok hi]
    exact ⟨hstate, rfl, hok, hall⟩
  | (.err e, t) =>
    rw [hi] at hstate hok
    rw [bind_of_err hi]
    exact ⟨hstate, rfl, hok, hall⟩
  | (.panic, t) => rw [hi] at hret; simp [Res.returns] at hret

/-- What the second step can leave in the tables: nothing new, or the message row with the
recipients inserted before the first failure. All of them are there exactly if it succeeds. -/
theorem enqueueInsert_queue (now : ℤ) (new : NewOutbound) (messageBlob : Text) (q : QueueStore) :
    ((enqueueInsert faults now new messageBlob q).2 = q ∧
        (enqueueInsert faults now new messageBlob q).1.isOk = false) ∨
      ∃ n ≤ new.recipients.length,
        (enqueueInsert faults now new messageBlob q).2 =
          addRcpts (nextRowid OutboundMessage.id q.outbound) now (new.recipients.take n)
            (addOutbound new messageBlob now q) ∧
        ((enqueueInsert faults now new messageBlob q).1.isOk ↔
          n = new.recipients.length) := by
  by_cases h : RowInserted faults now new q
  · obtain ⟨n, hn, hstate, -, hok, -⟩ := enqueueInsert_inserted faults h
    exact .inr ⟨n, hn, hstate, hok⟩
  · obtain ⟨hstate, hok, -⟩ := enqueueInsert_refused faults h
    exact .inl ⟨hstate, hok⟩

end

section
variable (P : Primitives) (faults : Faults) (sign : DomainKey → Bytes → Except Error Text)
  (domainKey : DomainKey) (new : NewOutbound)

/-- The envelope is accepted, the message signs, and its signed bytes are or can be stored. -/
def BlobWritten (s : Stores) : Prop :=
  invalidEnvelope new = false ∧ ∃ header, sign domainKey new.rawMessage = .ok header ∧
    ((s.blobs.file (hashHex P (utf8 header ++ new.rawMessage))).isSome = true ∨
      (faults .blobPrepare = none ∧ faults .blobSyncDir = none))

theorem enqueueWrite_noPanic : NoPanic (enqueueWrite P faults sign domainKey new) := by
  refine .ite .throw ?_
  cases sign domainKey new.rawMessage with
  | error => exact .throw
  | ok => exact .zoom write_noPanic

theorem enqueueWrite_stores (s : Stores) :
    ∃ b, (enqueueWrite P faults sign domainKey new s).2 = { s with blobs := b } := by
  unfold enqueueWrite
  by_cases henv : invalidEnvelope new
  · exact ⟨s.blobs, by simp [henv]⟩
  · simp only [henv]
    cases sign domainKey new.rawMessage with
    | error => exact ⟨s.blobs, rfl⟩
    | ok => exact ⟨_, rfl⟩

theorem enqueueWrite_cases (s : Stores) :
    ((enqueueWrite P faults sign domainKey new s).2 = s ∧
        (enqueueWrite P faults sign domainKey new s).1.isOk = false) ∨
      (invalidEnvelope new = false ∧ ∃ header, sign domainKey new.rawMessage = .ok header ∧
        enqueueWrite P faults sign domainKey new s =
          onBlobs (write P faults (utf8 header ++ new.rawMessage)) s) := by
  unfold enqueueWrite
  by_cases henv : invalidEnvelope new
  · exact .inl (by simp [henv, Res.isOk])
  · cases hsign : sign domainKey new.rawMessage with
    | error => exact .inl (by simp [henv, Res.isOk])
    | ok header => exact .inr ⟨by simpa using henv, header, rfl, by simp [henv]⟩

theorem enqueueWrite_isOk_iff (s : Stores) :
    (enqueueWrite P faults sign domainKey new s).1.isOk ↔
      BlobWritten P faults sign domainKey new s := by
  unfold enqueueWrite BlobWritten
  by_cases henv : invalidEnvelope new
  · simp [henv, Res.isOk]
  · simp only [henv]
    cases sign domainKey new.rawMessage with
    | error => simp [Res.isOk]
    | ok header =>
      simp only [Bool.false_eq_true, if_false, true_and, onBlobs_run, write_run]
      cases hfile : s.blobs.file (hashHex P (utf8 header ++ new.rawMessage)) with
      | some => simp [hfile, Res.isOk]
      | none =>
        cases hprep : faults .blobPrepare with
        | some => simp [hfile, Res.isOk]
        | none =>
          cases hsync : faults .blobSyncDir with
          | some => simp [hfile, Res.isOk]
          | none => simp [Res.isOk]

end

/-! ## The whole of `enqueue` -/

section
variable {P : Primitives} {faults : Faults} {sign : DomainKey → Bytes → Except Error Text}
  {domainKey : DomainKey} {new : NewOutbound} {s : Stores} {rcpts : List Text}

@[simp] theorem addRcpts_outbound {outboundId : ℤ} :
    (addRcpts outboundId now rcpts q).outbound = q.outbound := by
  induction rcpts generalizing q with
  | nil => rfl
  | cons _ _ ih => exact ih

@[simp] theorem addRcpts_events {outboundId : ℤ} :
    (addRcpts outboundId now rcpts q).events = q.events := by
  induction rcpts generalizing q with
  | nil => rfl
  | cons _ _ ih => exact ih

theorem enqueue_metadata :
    Keeps (Same Stores.metadata) (enqueue P faults sign now domainKey new) := by
  refine .bind (fun s => ?_) fun _ _ => rfl
  obtain ⟨b, hb⟩ := enqueueWrite_stores P faults sign domainKey new s
  rw [hb]
  rfl

theorem enqueue_events :
    Keeps (Same fun s : Stores => s.queue.events) (enqueue P faults sign now domainKey new) := by
  refine .bind (fun s => ?_) fun messageBlob s => ?_
  · obtain ⟨b, hb⟩ := enqueueWrite_stores P faults sign domainKey new s
    rw [hb]
    rfl
  · rw [onQueue_run]
    rcases enqueueInsert_queue faults now new messageBlob s.queue with ⟨hq, -⟩ | ⟨n, -, hq, -⟩
    · rw [hq]
      rfl
    · rw [hq]
      exact addRcpts_events

theorem addRcpts_rcpts (outboundId now : ℤ) (rcpts : List Text) (q : QueueStore) :
    ∃ news, (addRcpts outboundId now rcpts q).rcpts = q.rcpts ++ news ∧
      news.map OutboundRecipient.rcptTo = rcpts ∧
      (∀ r ∈ news, r.outboundId = outboundId ∧ r.state = .ready ∧ r.delayedDsnSent = false ∧
        r.id ∉ q.rcpts.map OutboundRecipient.id) ∧
      ((q.rcpts.map OutboundRecipient.id).Nodup →
        ((q.rcpts ++ news).map OutboundRecipient.id).Nodup) := by
  induction rcpts generalizing q with
  | nil => exact ⟨[], by simp [addRcpts], rfl, by simp, by simp⟩
  | cons rcpt _ ih =>
    obtain ⟨news, hnews, hrcpts, hrows, hnodup⟩ := ih (addRcpt outboundId now rcpt q)
    have hfree := nextRowid_not_mem OutboundRecipient.id q.rcpts
    refine ⟨rcptRow outboundId now rcpt (nextRowid OutboundRecipient.id q.rcpts) :: news, ?_, ?_, ?_,
      fun h => ?_⟩
    · rw [append_cons]
      exact hnews
    · simp [hrcpts, rcptRow]
    · simp only [forall_mem_cons]
      refine ⟨⟨rfl, rfl, rfl, hfree⟩, fun r hr => ?_⟩
      obtain ⟨howner, hstate, hdelayed, hid⟩ := hrows r hr
      refine ⟨howner, hstate, hdelayed, fun hold => hid ?_⟩
      rw [addRcpt, map_append]
      exact mem_append_left _ hold
    · rw [append_cons]
      exact hnodup (nodup_insert OutboundRecipient.id h rfl)

/-- What an `enqueue` can add to the tables: nothing, or a message row of the account and the sender with
rows for the recipients up to the first that cannot be inserted; for all of them if it is `ok`. -/
structure Enqueued (accountId : ℤ) (sender : Text) (rcpts : List Text) (ok : Bool)
    (os : List OutboundMessage) (rs : List OutboundRecipient) : Prop where
  message : ∀ o ∈ os, o.accountId = accountId ∧ o.envelopeFrom = sender
  owner : ∀ r ∈ rs, ∃ o ∈ os, r.outboundId = o.id
  recipients : rs.map OutboundRecipient.rcptTo <+: rcpts
  whole : ok = true → os.length = 1 ∧ rs.map OutboundRecipient.rcptTo = rcpts

theorem Enqueued.nothing {accountId : ℤ} {sender : Text} :
    Enqueued accountId sender rcpts false [] [] where
  message := by simp
  owner := by simp
  recipients := nil_prefix
  whole := nofun

theorem enqueue_rows {res : Res Error ℤ} {t : Stores}
    (h : enqueue P faults sign now domainKey new s = (res, t)) :
    ∃ os rs, t.queue.outbound = s.queue.outbound ++ os ∧ t.queue.rcpts = s.queue.rcpts ++ rs ∧
      Enqueued new.accountId new.envelopeFrom new.recipients res.isOk os rs := by
  obtain ⟨b, hb⟩ := enqueueWrite_stores P faults sign domainKey new s
  rw [enqueue] at h
  match hw : enqueueWrite P faults sign domainKey new s with
  | (.panic, u) | (.err e, u) =>
    rw [hw] at hb
    obtain rfl : u = { s with blobs := b } := hb
    simp only [bind_run, hw, Prod.mk.injEq] at h
    obtain ⟨rfl, rfl⟩ := h
    exact ⟨[], [], by simp, by simp, .nothing⟩
  | (.ok hash, u) =>
    rw [hw] at hb
    obtain rfl : u = { s with blobs := b } := hb
    rw [bind_of_ok hw, onQueue_run] at h
    obtain ⟨rfl, rfl⟩ := h
    rcases enqueueInsert_queue faults now new hash s.queue with ⟨hq, hok⟩ | ⟨n, -, hq, hok⟩
    · rw [hq, hok]
      exact ⟨[], [], by simp, by simp, .nothing⟩
    · obtain ⟨news, hnews, hrcpts, hrows, -⟩ := addRcpts_rcpts
        (nextRowid OutboundMessage.id s.queue.outbound) now (new.recipients.take n)
        (addOutbound new hash now s.queue)
      simp only [hq]
      refine ⟨[_], news, by rw [addRcpts_outbound]; rfl, hnews, ⟨?_, ?_, ?_, fun h => ?_⟩⟩
      · simp [outboundRow]
      · exact fun r hr => ⟨_, mem_singleton_self _, (hrows r hr).1⟩
      · rw [hrcpts]
        exact take_prefix n _
      · exact ⟨rfl, by rw [hrcpts, hok.mp h, take_length]⟩

theorem rowInserted_congr {q' : QueueStore} (ho : q'.outbound = q.outbound)
    (hr : q'.rcpts = q.rcpts) : RowInserted faults now new q' ↔ RowInserted faults now new q := by
  simp only [RowInserted, RatePasses, messageCount, recipientCount, ho, hr]

theorem enqueue_refused
    (h : ¬ (BlobWritten P faults sign domainKey new s ∧ RowInserted faults now new s.queue)) :
    (enqueue P faults sign now domainKey new s).2.queue = s.queue ∧
      (enqueue P faults sign now domainKey new s).1.isOk = false ∧
      (enqueue P faults sign now domainKey new s).1.returns := by
  have hwrite := enqueueWrite_isOk_iff P faults sign domainKey new s
  have hret := enqueueWrite_noPanic P faults sign domainKey new s
  obtain ⟨b, hb⟩ := enqueueWrite_stores P faults sign domainKey new s
  rw [enqueue]
  match hw : enqueueWrite P faults sign domainKey new s with
  | (.panic, t) => rw [hw] at hret; simp [Res.returns] at hret
  | (.err e, t) =>
    rw [hw] at hb
    obtain rfl : t = { s with blobs := b } := hb
    rw [bind_of_err hw]
    exact ⟨rfl, rfl, rfl⟩
  | (.ok hash, t) =>
    rw [hw] at hwrite hb
    obtain rfl : t = { s with blobs := b } := hb
    have hins : ¬ RowInserted faults now new s.queue := fun hins => h ⟨hwrite.mp rfl, hins⟩
    rw [bind_of_ok hw, onQueue_run]
    exact enqueueInsert_refused faults hins

theorem enqueue_inserted (hblob : BlobWritten P faults sign domainKey new s)
    (hrow : RowInserted faults now new s.queue) :
    (∃ o, (enqueue P faults sign now domainKey new s).2.queue.outbound = s.queue.outbound ++ [o]) ∧
      (enqueue P faults sign now domainKey new s).1.returns ∧
      ((enqueue P faults sign now domainKey new s).1.isOk ↔
        ∀ k < new.recipients.length, faults (.rcptInsert k) = none) := by
  have hwrite := (enqueueWrite_isOk_iff P faults sign domainKey new s).mpr hblob
  obtain ⟨b, hb⟩ := enqueueWrite_stores P faults sign domainKey new s
  rw [enqueue]
  match hw : enqueueWrite P faults sign domainKey new s with
  | (.panic, t) => rw [hw] at hwrite; simp [Res.isOk] at hwrite
  | (.err e, t) => rw [hw] at hwrite; simp [Res.isOk] at hwrite
  | (.ok hash, t) =>
    rw [hw] at hb
    obtain rfl : t = { s with blobs := b } := hb
    rw [bind_of_ok hw, onQueue_run]
    obtain ⟨n, -, hstate, hret, hok, hall⟩ := enqueueInsert_inserted faults hrow
    refine ⟨⟨outboundRow new hash now (nextRowid OutboundMessage.id s.queue.outbound), ?_⟩, hret,
      hok.trans hall⟩
    simp only [hstate, addRcpts_outbound]
    rfl

end
end Litterae.Queue
