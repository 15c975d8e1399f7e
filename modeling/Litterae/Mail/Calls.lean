import Litterae.Mail.Ledger
import Litterae.Mail.Runs
import Litterae.Queue.Cleanup

/-! # Store calls in any order

The requests of `Mail.Runs` taken apart: each store call is an action of its own, so any number of
requests interleave, and what a request keeps between two of its calls is part of the state. A world
also remembers all bytes that were handed to the blob store.
-/

namespace Litterae.Mail
open Foundations Store Delivery Queue Jmap Exec Crypto List Option

structure World where
  loop : Loop
  held : List Held
  written : List Bytes

inductive Call where
  /-- The worker, or an enqueue beside it. -/
  | worker (a : Queue.Act)
  | ensureMailbox (faults : Faults) (accountId : ℤ) (role : Role)
  | findOrCreateThread (faults : Faults) (pick : ℕ) (q : ThreadMatch)
  | sealForAccount (draw : Draw) (accountPub : Bytes) (keyId : UInt16) (raw : Bytes)
  /-- With the sealed blob the request holds at place `k`. -/
  | insertMessage (faults : Faults) (k : ℕ) (new : NewMessage)
  | insertUpload (faults : Faults) (k : ℕ) (new : NewUpload)
  | updateMessage (faults : Faults) (rowId : ℤ) (mailboxId : Option ℤ) (keywords : Option Text)
  /-- The lookup of a destroy. -/
  | ownMessage (faults : Faults) (accountId rowId : ℤ)
  | deleteMessage (faults : Faults) (k : ℕ)
  | removeBlob (faults : Faults) (k : ℕ)
  | setTimer (faults : Faults) (accountId : ℤ) (kind : ScheduledKind) (id : Text) (threadId : ℤ)
      (value : Value)
  | ensureDkimKey (faults : Faults) (generated : Except Text (Bytes × Bytes)) (domain : Text)
  /-- No call to a store: a request that ends forgets what it held. -/
  | forget (k : ℕ)

namespace World

def stores (w : World) : Stores := w.loop.stores

/-- One call: `next` is held after it succeeded, `failed` otherwise. -/
def call {ε α : Type} (w : World) (x : Exec Stores ε α) (next : α → List Held) (failed : List Held) :
    Loop × List Held :=
  ({ w.loop with stores := (x w.stores).2 },
    match (x w.stores).1 with
    | .ok a => next a
    | _ => failed)

end World

section
variable (P : Primitives) (hostname : Text)

def perform (w : World) : Call → Option (Loop × List Held)
  | .worker a => (Queue.step P hostname w.loop a).map fun l => (l, w.held)
  | .ensureMailbox faults accountId role =>
    some (w.call (onMetadata (ensureMailbox faults accountId role)) (fun _ => w.held) w.held)
  | .findOrCreateThread faults pick q =>
    some (w.call (onMetadata (findOrCreateThread faults pick q)) (fun _ => w.held) w.held)
  | .sealForAccount draw accountPub keyId raw =>
    some (w.call (sealForAccount P draw accountPub keyId raw)
      (fun r => w.held ++ [.sealedBlob r.1 r.2]) w.held)
  | .insertMessage faults k new =>
    if w.held[k]? = some (.sealedBlob new.blobHash new.dekWrap) then
      some (w.call (onMetadata (insertMessage faults new)) (fun _ => w.held.eraseIdx k)
        (w.held.eraseIdx k))
    else none
  | .insertUpload faults k new =>
    if w.held[k]? = some (.sealedBlob new.blobHash new.dekWrap) then
      some (w.call (onMetadata (insertUpload faults new)) (fun _ => w.held.eraseIdx k)
        (w.held.eraseIdx k))
    else none
  | .updateMessage faults rowId mailboxId keywords =>
    some (w.call (onMetadata (updateMessage faults rowId mailboxId keywords)) (fun _ => w.held) w.held)
  | .ownMessage faults accountId rowId =>
    some (w.call (ownMessage accountId faults rowId) (fun m => w.held ++ [.found m]) w.held)
  | .deleteMessage faults k =>
    match w.held[k]? with
    | some (.found m) =>
      some (w.call (onMetadata (deleteMessage faults m.id))
        (fun _ => w.held.set k (.deleted m.blobHash)) (w.held.eraseIdx k))
    | _ => none
  | .removeBlob faults k =>
    match w.held[k]? with
    | some (.deleted blobHash) =>
      some (w.call (onBlobs (remove faults blobHash)) (fun _ => w.held.eraseIdx k) (w.held.eraseIdx k))
    | _ => none
  | .setTimer faults accountId kind id threadId value =>
    some (w.call (onQueue (setTimer faults accountId kind id threadId value)) (fun _ => w.held) w.held)
  | .ensureDkimKey faults generated domain =>
    some (w.call (onQueue (ensureDkimKey faults generated domain)) (fun _ => w.held) w.held)
  | .forget k => some (w.loop, w.held.eraseIdx k)

def seals (l : Loop) : Call → List Bytes
  | .sealForAccount draw _ _ raw => [aeadSeal P draw.dek 1 draw.nonce raw]
  | .worker (.finalize io) =>
    match l.pc with
    | .finalize outbound ((rcpt, outcome) :: _) _ =>
      (sealedNotice P hostname io outbound rcpt outcome).toList
    | _ => []
  | _ => []

def spools : Call → List Bytes
  | .worker (.write _ sign domainKey new) =>
    if invalidEnvelope new then []
    else match sign domainKey new.rawMessage with
      | .ok header => [utf8 header ++ new.rawMessage]
      | .error _ => []
  | _ => []

def callStep (w : World) (c : Call) : Option World :=
  (perform P hostname w c).map fun r =>
    ⟨r.1, r.2, w.written ++ (seals P hostname w.loop c ++ spools c)⟩

def dkimField : Text := "DKIM-Signature:"

def signsField : Except Error Text → Bool
  | .ok header => dkimField.isPrefixOf header
  | .error _ => true

def signs : Call → Bool
  | .worker (.write _ sign domainKey new) => signsField (sign domainKey new.rawMessage)
  | _ => true

/-- A ciphertext is one that was never produced before, the hash tells what is written from all that
was written before, and a signature is a `DKIM-Signature` field. -/
def Ideal (w : World) (c : Call) : Prop :=
  (∀ b ∈ seals P hostname w.loop c, b ∉ w.written) ∧
    (∀ b ∈ seals P hostname w.loop c ++ spools c, ∀ b' ∈ w.written,
      hashHex P b' = hashHex P b → b' = b) ∧
    signs c = true

instance (w : World) (c : Call) : Decidable (Ideal P hostname w c) :=
  inferInstanceAs (Decidable ((∀ b ∈ seals P hostname w.loop c, b ∉ w.written) ∧
    (∀ b ∈ seals P hostname w.loop c ++ spools c, ∀ b' ∈ w.written,
      hashHex P b' = hashHex P b → b' = b) ∧
    signs c = true))

end

/-! ## A call on the ledger -/

/-- What is spoken for in the metadata: id, blob and wrapped key of each message, and the blobs of the
uploads. -/
def mailNames (m : MetadataStore) : List (ℤ × Text × Bytes) × List Text :=
  (m.messages.map fun r => (r.id, r.blobHash, r.dekWrap), m.uploads.map StoredUpload.blobHash)

theorem mailNames_ids (m : MetadataStore) :
    (mailNames m).1.map Prod.fst = m.messages.map StoredMessage.id := by
  rw [mailNames, List.map_map]
  rfl

def spoolNames (l : Loop) : Set Text :=
  {h | (∃ o ∈ l.queue.outbound, o.messageBlob = h) ∨ ∃ e ∈ l.inflight, e.messageBlob = h}

def World.ledger (w : World) : Ledger where
  rows := (mailNames w.stores.metadata).1
  uploads := (mailNames w.stores.metadata).2
  held := w.held
  file := w.stores.blobs.file
  written := w.written
  spool := spoolNames w.loop

/-- Nobody speaks for another name, and the files are the same. -/
structure NamesKept (s t : Stores) : Prop where
  names : mailNames t.metadata = mailNames s.metadata
  blobs : t.blobs = s.blobs
  outbound : t.queue.outbound = s.queue.outbound
  rcpts : t.queue.rcpts = s.queue.rcpts

variable {faults : Faults} {α : Type} {x : Exec MetadataStore Error α}

section
variable {accountId : ℤ}

theorem onMetadata_namesKept (hx : Keeps (Same mailNames) x) :
    Keeps NamesKept (onMetadata x) := fun s =>
  ⟨hx s.metadata, Eq.refl _, Eq.refl _, Eq.refl _⟩

theorem onQueue_namesKept {x : Exec QueueStore Error α}
    (hx : Keeps (Same fun q => (q.outbound, q.rcpts)) x) : Keeps NamesKept (onQueue x) := fun s =>
  ⟨Eq.refl _, Eq.refl _, congrArg Prod.fst (hx s.queue), congrArg Prod.snd (hx s.queue)⟩

theorem mailNames_updateWhere {p : StoredMessage → Bool} {f : StoredMessage → StoredMessage}
    (hf : ∀ r, ((f r).id, (f r).blobHash, (f r).dekWrap) = (r.id, r.blobHash, r.dekWrap))
    (m : MetadataStore) : mailNames { m with messages := updateWhere p f m.messages } = mailNames m := by
  simp only [mailNames, map_updateWhere (fun r => (StoredMessage.id r, r.blobHash, r.dekWrap)) hf]

theorem updateMessage_names {rowId : ℤ} {mailboxId : Option ℤ} {keywords : Option Text} :
    Keeps (Same mailNames) (updateMessage faults rowId mailboxId keywords) := by
  refine .bind (.whenSome fun mailboxId => ?_) fun _ => .whenSome fun keywords => ?_
  all_goals
    refine .bind sql_keeps fun _ => .modify fun m => ?_
    exact mailNames_updateWhere (by exact fun _ => rfl) m

theorem setTimer_same {β : Type} {g : QueueStore → β} (hg : ∀ q events, g { q with events } = g q)
    (kind : ScheduledKind) (id : Text) (threadId : ℤ) (value : Value) :
    Keeps (Same g) (setTimer faults accountId kind id threadId value) := by
  have hcancel : ∀ k events, Keeps (Same g) (cancelEach faults k events) := by
    intro k events
    induction events generalizing k with
    | nil => exact .pure
    | cons _ _ ih =>
      refine .bind (.ignore ?_) fun _ => ih (k + 1)
      exact .bind sql_keeps fun _ => .modify fun q => hg q _
  refine .bind ?_ fun _ => .whenSome fun fireAt => .ignore ?_
  · refine .bind (.attempt (query_keeps _ _ _)) fun found => ?_
    cases found with
    | error => exact .pure
    | ok => exact hcancel 0 _
  · exact .bind sql_keeps fun _ => .update fun q => hg q _

theorem fireDueScheduledEvents_namesKept (query : Faults) (eventFaults : ℕ → Faults) (now : ℤ)
    (s : Stores) : NamesKept s (fireDueScheduledEvents query eventFaults now s) := by
  have hqueue := fireDueScheduledEvents_eventsOnly query eventFaults now s
  refine ⟨?_, hqueue.blobs, hqueue.outbound, hqueue.rcpts⟩
  refine fireAll_relates (R := Same fun s => mailNames s.metadata) (fun k ev s => ?_) 0 _ s
  refine fireEvent_relates (fun id state s _ => ?_) (fun rowId keywords s _ => ?_)
    (fun _ _ => refl _) (fun accountId role s => ?_) s
  · unfold markEvent
    split <;> rfl
  · exact updateMessage_names s.metadata
  · rw [mailboxOr_run]
    exact ensureMailbox_same (fun _ _ => rfl) accountId role s.metadata

end

section
variable {P : Primitives} {hostname : Text} {D : ℤ → Prop} {w : World} {draw : Draw} {raw : Bytes}
  {a : Queue.Act} {l' : Loop} {k : ℕ} {c : Call} {v : World} {ε : Type}

theorem ledger_congr {l : Loop} (hnames : mailNames l.stores.metadata = mailNames w.loop.stores.metadata)
    (hblobs : l.stores.blobs = w.loop.stores.blobs)
    (houtbound : l.stores.queue.outbound = w.loop.stores.queue.outbound)
    (hflight : l.inflight = w.loop.inflight) : World.ledger ⟨l, w.held, w.written⟩ = w.ledger := by
  have hspool : spoolNames l = spoolNames w.loop := by
    simp only [spoolNames, Loop.queue, houtbound, hflight]
  simp only [World.ledger, World.stores]
  rw [hnames, hblobs, hspool]

/-- One sealing: the file of one name, perhaps, and nothing else that is not metadata. -/
structure Sealing (P : Primitives) (c : Bytes) (s t : Stores) : Prop where
  put : Put P c s.blobs.file t.blobs.file
  uploads : t.metadata.uploads = s.metadata.uploads
  queue : t.queue = s.queue

instance {c : Bytes} : IsPreorder Stores (Sealing P c) where
  refl := fun _ => ⟨Put.rfl _, rfl, rfl⟩
  trans := fun _ _ _ h h' => ⟨h.put.trans h'.put, h'.uploads.trans h.uploads, h'.queue.trans h.queue⟩

theorem onMetadata_sealing {c : Bytes} (hx : Keeps (Same MetadataStore.uploads) x) :
    Keeps (Sealing P c) (onMetadata x) := fun s =>
  ⟨Put.rfl _, hx s.metadata, Eq.refl _⟩

theorem sealForAccount_sealing (accountPub : Bytes) (keyId : UInt16) (raw : Bytes) :
    Keeps (Sealing P (aeadSeal P draw.dek 1 draw.nonce raw))
      (sealForAccount P draw accountPub keyId raw) :=
  sealForAccount_keeps fun _ => ⟨write_put P _ _ _, Eq.refl _, Eq.refl _⟩

variable {account : RecipientAccount} {envelope : InboundEnvelope} {results : AuthResults}
  {receivedAt : ℤ} {spamReason : Option Text} {scan : ScanMetadata}

theorem deliver_sealing :
    Keeps (Sealing P (aeadSeal P draw.dek 1 draw.nonce raw))
      (deliver P draw account envelope results raw receivedAt spamReason scan) := by
  refine deliver_keeps (fun role => onMetadata_sealing (ensureMailbox_same (fun _ _ => rfl) _ role))
    (fun q _ => onMetadata_sealing (findOrCreateThread_same (fun _ _ => rfl) q))
    (sealForAccount_sealing _ _ _) fun new _ _ => onMetadata_sealing fun m => ?_
  rw [insertMessage_run]
  cases draw.faults .messageInsert <;> rfl

theorem LedgerStep.to {L L₁ L₂ : Ledger} (h : LedgerStep P D L L₁) (heq : L₂ = L₁) : LedgerStep P D L L₂ :=
  heq ▸ h

theorem deliver_ledger {r : Res Error DeliveredMessage} {t : Stores}
    (hnew : aeadSeal P draw.dek 1 draw.nonce raw ∉ w.written)
    (hapart : Apart P (aeadSeal P draw.dek 1 draw.nonce raw) w.ledger)
    (h : deliver P draw account envelope results raw receivedAt spamReason scan w.stores = (r, t)) :
    LedgerSteps P D w.ledger (World.ledger ⟨{ w.loop with stores := t }, w.held,
      w.written ++ [aeadSeal P draw.dek 1 draw.nonce raw]⟩) := by
  have hsealing := deliver_sealing.run h
  have hspool : spoolNames { w.loop with stores := t } = spoolNames w.loop := by
    simp only [spoolNames, Loop.queue, hsealing.queue]
    rfl
  have hmagic := aeadSeal_head P draw.dek 1 draw.nonce raw
  by_cases hok : r.isOk
  · obtain ⟨d, rfl⟩ := Res.isOk_iff.mp hok
    obtain ⟨row, hrow⟩ := deliver_ok h
    have hmessages : t.metadata.messages = w.loop.stores.metadata.messages ++ [row] := hrow.messages
    have hblob := hrow.blobHash
    have hstored := hrow.stored
    rw [hrow.name] at hblob hstored
    generalize aeadSeal P draw.dek 1 draw.nonce raw = c at *
    have hsealed : LedgerStep P D w.ledger _ :=
      .sealed hmagic hnew hapart hsealing.put (.inr ⟨row.dekWrap, rfl, hstored⟩)
    refine .tail (.single hsealed) ?_
    have hid : row.id ∉ w.ledger.rows.map Prod.fst := by
      rw [hrow.id, hrow.fresh, World.ledger, mailNames_ids]
      exact nextRowid_not_mem _ _
    refine .to (.filed List.getElem?_concat_length hid) ?_
    simp only [World.ledger, World.stores, mailNames, hmessages, hspool, hsealing.uploads, hblob, map_append,
      map_cons, map_nil, Ledger.mk.injEq, and_true, true_and]
    rw [eraseIdx_append_of_length_le (Nat.le_refl _), Nat.sub_self]
    exact (append_nil _).symm
  · have hfailed : t.metadata.messages = w.loop.stores.metadata.messages :=
      deliver_failure.run h (by simpa using hok)
    generalize aeadSeal P draw.dek 1 draw.nonce raw = c at *
    refine .single (.to (.sealed hmagic hnew hapart hsealing.put (.inl rfl)) ?_)
    simp only [World.ledger, World.stores, mailNames, hfailed, hspool, hsealing.uploads, append_nil]

theorem signed_head {header : Text} (h : dkimField.isPrefixOf header) :
    (utf8 header ++ raw).head? = some signedByte := by
  obtain ⟨rest, rfl⟩ := isPrefixOf_iff_prefix.mp h
  rfl

theorem enqueueWrite_spools (faults : Faults) (sign : DomainKey → Bytes → Except Error Text)
    (domainKey : DomainKey) (new : NewOutbound) (s : Stores) :
    (spools (.worker (.write faults sign domainKey new)) = [] ∧
        (enqueueWrite P faults sign domainKey new s).2 = s) ∨
      ∃ b, spools (.worker (.write faults sign domainKey new)) = [b] ∧
        (signs (.worker (.write faults sign domainKey new)) → b.head? = some signedByte) ∧
        enqueueWrite P faults sign domainKey new s = onBlobs (write P faults b) s := by
  simp only [spools, signs, enqueueWrite]
  by_cases henv : invalidEnvelope new
  · exact .inl (by simp [henv])
  · cases hsign : sign domainKey new.rawMessage with
    | error => exact .inl (by simp [henv])
    | ok header => exact .inr ⟨utf8 header ++ new.rawMessage, by simp [henv], signed_head, by simp [henv]⟩

theorem spoolNames_step {l l' : Loop} (hT : Tables l.queue)
    (h : Queue.step P hostname l a = some l') {name : Text} (hname : name ∈ spoolNames l') :
    name ∈ spoolNames l ∨ ∃ b ∈ spools (.worker a), name = hashHex P b := by
  obtain ⟨o, ho, rfl⟩ | ⟨e, he, rfl⟩ := hname
  · obtain ⟨f, news, newMessages, htables⟩ := step_tables hT h
    rw [htables.outbound] at ho
    rcases mem_append.mp ho with hold | hnew
    · exact .inl (.inl ⟨o, hold, rfl⟩)
    · obtain ⟨-, rfl⟩ | ⟨k, faults, now, o', -, rfl, hins⟩ := htables.added
      · cases hnew
      · obtain rfl := mem_singleton.mp hnew
        obtain ⟨e, he, hblob⟩ := hins.blob
        exact .inl (.inr ⟨e, mem_of_getElem? he, hblob.symm⟩)
  · obtain hold | ⟨faults, sign, domainKey, header, rfl, henv, hsign, hblob, -⟩ := inflight_of_step h he
    · exact .inl (.inr ⟨e, hold, rfl⟩)
    · refine .inr ⟨utf8 header ++ e.new.rawMessage, ?_, hblob⟩
      simp [spools, henv, hsign]

theorem quiet_ledger (hT : Tables w.loop.queue) (h : Queue.step P hostname w.loop a = some l')
    (hseals : seals P hostname w.loop (.worker a) = []) (hspools : spools (.worker a) = [])
    (hnames : mailNames l'.stores.metadata = mailNames w.stores.metadata)
    (hblobs : l'.stores.blobs = w.stores.blobs) :
    LedgerSteps P D w.ledger (World.ledger ⟨l', w.held,
      w.written ++ (seals P hostname w.loop (.worker a) ++ spools (.worker a))⟩) := by
  have hspool : spoolNames l' ⊆ spoolNames w.loop := by
    intro name hname
    obtain hold | ⟨b, hb, -⟩ := spoolNames_step hT h hname
    · exact hold
    · rw [hspools] at hb
      cases hb
  rw [hseals, hspools, append_nil, append_nil]
  refine .single (.to (.queued hspool) ?_)
  simp only [World.ledger, World.stores] at hnames hblobs ⊢
  rw [hnames, hblobs]

theorem finalize_ledger {io : FinalizeIo} {outbound : OutboundMessage} {rcpt : ClaimedRcpt}
    {outcome : Outcome} {todo : List (ClaimedRcpt × Outcome)} {us : List DeliveryUnit}
    (hpc : w.loop.pc = .finalize outbound ((rcpt, outcome) :: todo) us)
    (hideal : Ideal P hostname w (.worker (.finalize io))) :
    LedgerSteps P D w.ledger (World.ledger
      ⟨finalizeStep P hostname io outbound rcpt outcome todo us w.loop, w.held,
        w.written ++ seals P hostname w.loop (.worker (.finalize io))⟩) := by
  have hseals : seals P hostname w.loop (.worker (.finalize io)) =
      ((noticeOf P hostname io outbound rcpt outcome).map
        (aeadSeal P io.dsn.draw.dek 1 io.dsn.draw.nonce)).toList := by
    simp only [seals, hpc, sealedNotice]
  obtain ⟨hnew, hapart, -⟩ := hideal
  rw [hseals] at hnew hapart ⊢
  change LedgerSteps P D w.ledger (World.ledger ⟨{ w.loop with
    stores := (settle P hostname io outbound rcpt outcome w.stores).stores }, w.held, _⟩)
  obtain ⟨s₁, hs₁, hsettled⟩ := settle_cases P hostname io outbound rcpt outcome w.stores
  have hkept : World.ledger ⟨{ w.loop with stores := s₁ }, w.held, w.written⟩ = w.ledger :=
    ledger_congr (congrArg mailNames hs₁.metadata) hs₁.blobs hs₁.outbound rfl
  cases hnotice : noticeOf P hostname io outbound rcpt outcome with
  | none =>
    obtain hnone | ⟨account, bytes, hbytes, -⟩ := hsettled
    · rw [hnone, map_none, toList_none, append_nil, hkept]
    · cases hbytes.symm.trans hnotice
  | some raw =>
    rw [hnotice] at hnew hapart
    have hnew := hnew _ (mem_singleton_self _)
    have hapart : Apart P (aeadSeal P io.dsn.draw.dek 1 io.dsn.draw.nonce raw) w.ledger :=
      hapart _ (mem_append_left _ (mem_singleton_self _))
    obtain hnone | ⟨account, bytes, hbytes, -, hsent⟩ := hsettled
    · rw [hnone]
      refine .single (.to (.sealed (aeadSeal_head P _ 1 _ raw) hnew hapart (Put.rfl _) (.inl rfl)) ?_)
      rw [← hkept, append_nil]
      rfl
    · obtain rfl : bytes = raw := some.inj (hbytes.symm.trans hnotice)
      rcases ht : deliverLocally P io.dsn outbound account bytes s₁ with ⟨r, t⟩
      have hdelivered : LedgerSteps P D w.ledger _ :=
        hkept ▸ deliver_ledger (w := ⟨{ w.loop with stores := s₁ }, w.held, w.written⟩) hnew
          (hkept.symm ▸ hapart) ht
      rw [ht] at hsent
      obtain hsent | hsent := hsent <;> rw [hsent] <;> exact hdelivered

theorem write_ledger {sign : DomainKey → Bytes → Except Error Text} {domainKey : DomainKey}
    {new : NewOutbound} (hT : Tables w.loop.queue)
    (hideal : Ideal P hostname w (.worker (.write faults sign domainKey new)))
    (h : Queue.step P hostname w.loop (.write faults sign domainKey new) = some l')
    (hstores : l'.stores = (enqueueWrite P faults sign domainKey new w.stores).2) :
    LedgerSteps P D w.ledger (World.ledger ⟨l', w.held, w.written ++
      (seals P hostname w.loop (.worker (.write faults sign domainKey new)) ++
        spools (.worker (.write faults sign domainKey new)))⟩) := by
  obtain ⟨hspools, hsame⟩ | ⟨b, hspools, hsigned, hrun⟩ :=
    enqueueWrite_spools faults sign domainKey new w.stores
  · rw [hsame] at hstores
    exact quiet_ledger hT h rfl hspools (by rw [hstores]) (by rw [hstores])
  · obtain ⟨-, hapart, hsigns⟩ := hideal
    have hapart : Apart P b w.ledger :=
      hapart b (mem_append_right _ (hspools ▸ mem_singleton_self b))
    have hspool : spoolNames l' ⊆ insert (hashHex P b) (spoolNames w.loop) := by
      intro name hname
      obtain hold | ⟨b', hb', rfl⟩ := spoolNames_step hT h hname
      · exact .inr hold
      · rw [hspools, mem_singleton] at hb'
        exact .inl (hb' ▸ rfl)
    rw [hrun] at hstores
    have hseals : seals P hostname w.loop (.worker (.write faults sign domainKey new)) = [] := rfl
    rw [hspools, hseals, nil_append]
    refine .single (.to (.spooled (hsigned hsigns) hapart (write_put P faults b _) hspool) ?_)
    simp only [World.ledger, World.stores, hstores, onBlobs_run]

theorem unitStep_mail (io : SendIo) (u : DeliveryUnit) (us : List DeliveryUnit) (l : Loop) :
    (unitStep P io u us l).stores.metadata = l.stores.metadata ∧
      (unitStep P io u us l).stores.blobs = l.stores.blobs := by
  unfold unitStep
  split
  · exact ⟨rfl, rfl⟩
  · split
    · exact ⟨rfl, rfl⟩
    · simp only [Loop.setCooldown]
      split <;> exact ⟨rfl, rfl⟩

theorem worker_ledger (hS : Sound w.loop) (hideal : Ideal P hostname w (.worker a))
    (h : Queue.step P hostname w.loop a = some l') :
    LedgerSteps P D w.ledger (World.ledger ⟨l', w.held,
      w.written ++ (seals P hostname w.loop (.worker a) ++ spools (.worker a))⟩) := by
  cases taken_of_step h with
  | written hwrite | notWritten hwrite =>
    exact write_ledger hS.tables hideal h (congrArg Prod.snd hwrite).symm
  | inserted => exact quiet_ledger hS.tables h rfl rfl rfl rfl
  | worker hw =>
    cases hw with
    | reap hpc | expire hpc | claim hpc | count hpc => exact quiet_ledger hS.tables h rfl rfl rfl rfl
    | @fire query faults now hpc =>
      have hfired := fireDueScheduledEvents_namesKept query faults now w.loop.stores
      exact quiet_ledger hS.tables h rfl rfl hfired.names hfired.blobs
    | @unit io u us hpc =>
      have hunit := unitStep_mail (P := P) io u us w.loop
      exact quiet_ledger hS.tables h rfl rfl (congrArg mailNames hunit.1) hunit.2
    | finalize hpc =>
      have hspools : ∀ io, spools (.worker (.finalize io)) = [] := fun _ => rfl
      rw [hspools, append_nil]
      exact finalize_ledger hpc hideal
    | @remove faults outbound todo us hpc =>
      have hspool : outbound.messageBlob ∈ spoolNames w.loop :=
        .inl ⟨outbound, hS.message outbound (by rw [hpc]; rfl), rfl⟩
      obtain ⟨hothers, hgone⟩ := remove_file faults outbound.messageBlob w.stores.blobs
      have hseals : seals P hostname w.loop (.worker (.remove faults)) = [] := rfl
      have hspools : spools (.worker (.remove faults)) = [] := rfl
      rw [hseals, hspools, append_nil, append_nil]
      exact .single (.wiped hspool hothers hgone)

theorem call_held {x : Exec Stores ε α} {held : List Held} :
    (w.call x (fun _ => held) held).2 = held := by
  simp only [World.call]
  split <;> rfl

theorem call_ledger {x : Exec Stores ε α} (hx : Keeps NamesKept x) :
    World.ledger ⟨(w.call x (fun _ => w.held) w.held).1, (w.call x (fun _ => w.held) w.held).2,
      w.written⟩ = w.ledger := by
  have hkept : NamesKept w.loop.stores (x w.loop.stores).2 := hx w.loop.stores
  rw [call_held]
  exact ledger_congr hkept.names hkept.blobs hkept.outbound rfl

theorem sealForAccount_ledger {accountPub : Bytes} {keyId : UInt16} {v : Loop × List Held}
    (hv : w.call (sealForAccount P draw accountPub keyId raw)
      (fun r => w.held ++ [.sealedBlob r.1 r.2]) w.held = v)
    (hnew : aeadSeal P draw.dek 1 draw.nonce raw ∉ w.written)
    (hapart : Apart P (aeadSeal P draw.dek 1 draw.nonce raw) w.ledger) :
    LedgerStep P D w.ledger
      (World.ledger ⟨v.1, v.2, w.written ++ [aeadSeal P draw.dek 1 draw.nonce raw]⟩) := by
  subst hv
  rcases ht : sealForAccount P draw accountPub keyId raw w.loop.stores with ⟨r, t⟩
  have hsealing := (sealForAccount_sealing accountPub keyId raw).run ht
  have hmessages : t.metadata.messages = w.loop.stores.metadata.messages :=
    sealForAccount_sameMail.run ht
  have hspool : spoolNames { w.loop with stores := t } = spoolNames w.loop := by
    simp only [spoolNames, Loop.queue, hsealing.queue]
  have hmagic := aeadSeal_head P draw.dek 1 draw.nonce raw
  simp only [World.call, World.stores, ht]
  cases r with
  | ok r =>
    obtain ⟨hname, hstored, -⟩ := sealForAccount_ok ht
    rw [hname] at hstored
    refine .to (.sealed hmagic hnew hapart hsealing.put (.inr ⟨r.2, rfl, hstored⟩)) ?_
    simp only [World.ledger, World.stores, mailNames, hmessages, hsealing.uploads, hspool, hname]
  | err e | panic =>
    refine .to (.sealed hmagic hnew hapart hsealing.put (.inl rfl)) ?_
    simp only [World.ledger, World.stores, mailNames, hmessages, hsealing.uploads, hspool, append_nil]

def deletes (w : World) : Call → Option ℤ
  | .deleteMessage _ k =>
    match w.held[k]? with
    | some (.found m) => some m.id
    | _ => none
  | _ => none

theorem insertMessage_ledger {new : NewMessage}
    (hk : w.held[k]? = some (.sealedBlob new.blobHash new.dekWrap)) :
    LedgerStep P D w.ledger (World.ledger
      ⟨{ w.loop with stores := (onMetadata (insertMessage faults new) w.loop.stores).2 },
        w.held.eraseIdx k, w.written⟩) := by
  rw [onMetadata_run, insertMessage_run]
  cases faults .messageInsert with
  | some => exact .dropped k
  | none =>
    have hnew : nextRowid StoredMessage.id w.stores.metadata.messages ∉ w.ledger.rows.map Prod.fst :=
      mailNames_ids w.stores.metadata ▸ nextRowid_not_mem _ _
    refine .to (.filed hk hnew) ?_
    simp only [World.ledger, World.stores, mailNames, map_append, map_cons, map_nil]
    rfl

theorem insertUpload_ledger {new : NewUpload}
    (hk : w.held[k]? = some (.sealedBlob new.blobHash new.dekWrap)) :
    LedgerStep P D w.ledger (World.ledger
      ⟨{ w.loop with stores := (onMetadata (insertUpload faults new) w.loop.stores).2 },
        w.held.eraseIdx k, w.written⟩) := by
  rw [onMetadata_run, insertUpload, sql_bind_run]
  cases faults .uploadInsert with
  | some => exact .dropped k
  | none =>
    refine .to (.uploaded hk) ?_
    simp only [World.ledger, World.stores, mailNames, Exec.update, map_append, map_cons, map_nil]
    rfl

theorem deleteMessage_ledger {m : StoredMessage} {v : Loop × List Held}
    (hv : w.call (onMetadata (deleteMessage faults m.id)) (fun _ => w.held.set k (.deleted m.blobHash))
      (w.held.eraseIdx k) = v) (hk : w.held[k]? = some (.found m)) (hD : D m.id) :
    LedgerStep P D w.ledger (World.ledger ⟨v.1, v.2, w.written⟩) := by
  subst hv
  simp only [World.call, onMetadata_run, deleteMessage, sql_bind_run]
  cases faults .messageDelete with
  | some => exact .dropped k
  | none =>
    refine .to (.deleted hk hD) ?_
    simp only [World.ledger, mailNames, List.filter_map]
    rfl

theorem ownMessage_ledger {accountId rowId : ℤ} {v : Loop × List Held}
    (hv : w.call (ownMessage accountId faults rowId) (fun m => w.held ++ [.found m]) w.held = v) :
    LedgerSteps P D w.ledger (World.ledger ⟨v.1, v.2, w.written⟩) := by
  subst hv
  rcases ht : ownMessage accountId faults rowId w.loop.stores with ⟨r, t⟩
  obtain rfl : t = w.loop.stores := (congrArg Prod.snd ht).symm.trans (ownMessage_state rowId _)
  simp only [World.call, World.stores, ht]
  cases r with
  | ok m =>
    obtain ⟨-, hfound, -⟩ := ownMessage_ok ht
    have hrow : (m.id, m.blobHash, m.dekWrap) ∈ w.ledger.rows :=
      mem_map.mpr ⟨m, (findBy_some _ hfound).1, rfl⟩
    exact .single (.found hrow)
  | err e | panic => exact .refl

theorem callStep_inv (h : callStep P hostname w c = some v) :
    ∃ r, perform P hostname w c = some r ∧
      v = ⟨r.1, r.2, w.written ++ (seals P hostname w.loop c ++ spools c)⟩ := by
  obtain ⟨r, hr, rfl⟩ := map_eq_some_iff.mp h
  exact ⟨r, hr, rfl⟩

theorem callStep_ledger (hS : Sound w.loop) (hideal : Ideal P hostname w c)
    (h : callStep P hostname w c = some v) :
    LedgerSteps P (fun id => deletes w c = some id) w.ledger v.ledger := by
  obtain ⟨r, hr, rfl⟩ := callStep_inv h
  have hwritten : seals P hostname w.loop c = [] → spools c = [] →
      w.written ++ (seals P hostname w.loop c ++ spools c) = w.written := by
    intro hseals hspools
    rw [hseals, hspools, append_nil, append_nil]
  cases c with
  | worker =>
    obtain ⟨l, hl, rfl⟩ := map_eq_some_iff.mp hr
    exact worker_ledger hS hideal hl
  | ensureMailbox =>
    cases hr
    rw [hwritten rfl rfl, call_ledger (onMetadata_namesKept (ensureMailbox_same (fun _ _ => rfl) _ _))]
  | findOrCreateThread =>
    cases hr
    rw [hwritten rfl rfl, call_ledger (onMetadata_namesKept (findOrCreateThread_same (fun _ _ => rfl) _))]
  | sealForAccount =>
    cases hr
    obtain ⟨hnew, hapart, -⟩ := hideal
    exact .single (sealForAccount_ledger rfl (hnew _ (mem_singleton_self _))
      (hapart _ (mem_append_left _ (mem_singleton_self _))))
  | insertMessage | insertUpload =>
    simp only [perform] at hr
    split at hr
    · next hk =>
      cases hr
      rw [hwritten rfl rfl, call_held]
      first | exact .single (insertMessage_ledger hk) | exact .single (insertUpload_ledger hk)
    · cases hr
  | updateMessage =>
    cases hr
    rw [hwritten rfl rfl, call_ledger (onMetadata_namesKept updateMessage_names)]
  | ownMessage =>
    cases hr
    rw [hwritten rfl rfl]
    exact ownMessage_ledger rfl
  | deleteMessage =>
    simp only [perform] at hr
    split at hr
    · next m hk =>
      cases hr
      rw [hwritten rfl rfl]
      exact .single (deleteMessage_ledger rfl hk (by simp only [deletes, hk]))
    · cases hr
  | removeBlob faults =>
    simp only [perform] at hr
    split at hr
    · next blobHash hk =>
      cases hr
      rw [hwritten rfl rfl, call_held]
      obtain ⟨hothers, hgone⟩ := remove_file faults blobHash w.stores.blobs
      exact .single (.removed hk hothers hgone)
    · cases hr
  | setTimer =>
    cases hr
    rw [hwritten rfl rfl, call_ledger (onQueue_namesKept (setTimer_same (fun _ _ => rfl) _ _ _ _))]
  | ensureDkimKey =>
    cases hr
    rw [hwritten rfl rfl, call_ledger (onQueue_namesKept (ensureDkimKey_same _ (fun _ _ => rfl) _ _))]
  | forget k =>
    cases hr
    rw [hwritten rfl rfl]
    exact .single (.dropped k)

theorem callStep_sound (hS : Sound w.loop) (h : callStep P hostname w c = some v) :
    Sound v.loop := by
  obtain ⟨r, hr, rfl⟩ := callStep_inv h
  have hcall : ∀ {t : Stores}, Same (fun q => (q.outbound, q.rcpts)) w.loop.queue t.queue →
      Sound { w.loop with stores := t } :=
    fun hsame => hS.congr (congrArg Prod.snd hsame) (congrArg Prod.fst hsame) rfl
  cases c with
  | worker =>
    obtain ⟨l, hl, rfl⟩ := map_eq_some_iff.mp hr
    exact hS.step hl
  | ensureMailbox faults accountId role | findOrCreateThread faults pick q
  | updateMessage =>
    cases hr
    exact hcall rfl
  | sealForAccount draw accountPub keyId raw =>
    cases hr
    have hqueue : (sealForAccount P draw accountPub keyId raw w.stores).2.queue = w.stores.queue :=
      (sealForAccount_sealing accountPub keyId raw w.stores).queue
    exact hcall (by rw [Same, hqueue]; rfl)
  | insertMessage faults k new | insertUpload faults k new | deleteMessage faults k
  | removeBlob =>
    simp only [perform] at hr
    split at hr
    · cases hr
      exact hcall rfl
    · cases hr
  | ownMessage faults accountId rowId =>
    cases hr
    exact hcall (by rw [Same, ownMessage_state]; rfl)
  | setTimer =>
    cases hr
    exact hcall (setTimer_same (fun _ _ => rfl) _ _ _ _ _)
  | ensureDkimKey =>
    cases hr
    exact hcall (ensureDkimKey_same _ (fun _ _ => rfl) _ _ _)
  | forget =>
    cases hr
    exact hS

end

/-! ## Runs of calls -/

def World.start (accounts : List Account) (domains : List Domain) : World where
  loop := Mail.start accounts domains
  held := []
  written := []

structure Ordered (P : Primitives) (w : World) : Prop where
  sound : Sound w.loop
  kept : Kept P w.ledger

section
variable {P : Primitives} {hostname : Text}

theorem ordered_start (accounts : List Account) (domains : List Domain) :
    Ordered P (World.start accounts domains) where
  sound := start_sound ⟨nodup_nil, nodup_nil, fun _ hr => absurd hr not_mem_nil⟩
  kept :=
    { ids := nodup_nil
      injective := fun _ hb => absurd hb not_mem_nil
      content := fun _ _ hfile => absurd hfile (some_ne_none _).symm
      stored := fun _ hh => absurd hh not_mem_nil
      distinct := nodup_nil
      keptNamed := fun _ hh => absurd hh not_mem_nil
      spoolNamed := by
        rintro h (⟨o, ho, -⟩ | ⟨e, he, -⟩)
        · exact absurd ho not_mem_nil
        · exact absurd he not_mem_nil
      found := fun _ hm => absurd hm not_mem_nil
      deleted := fun _ hh => absurd hh not_mem_nil }

theorem Ordered.step {w v : World} {c : Call} (hw : Ordered P w) (hideal : Ideal P hostname w c)
    (h : callStep P hostname w c = some v) : Ordered P v :=
  ⟨callStep_sound hw.sound h, (callStep_ledger hw.sound hideal h).kept hw.kept⟩

theorem Ordered.run {w v : World} {calls : List Call} (hw : Ordered P w)
    (hideal : Along (callStep P hostname) (Ideal P hostname) w calls)
    (hrun : run (callStep P hostname) w calls = some v) : Ordered P v :=
  run_invariant (fun _ _ _ hw hideal hstep => hw.step hideal hstep) hw hideal hrun

end

end Litterae.Mail
