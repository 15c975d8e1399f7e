import Litterae.Foundations.Owned
import Litterae.Jmap.Api

/-! # Stores that look the same to an account

`Twin V s s'`: the account of the view `V` has the same rows in `s` and `s'`, and new rows get the
same ids; of the rest nothing is said but that its row ids are unique. Every statement the mailbox
API makes for the account answers the same on both and leaves twins behind (`Respects (Twin V)`).
-/

namespace Litterae
open Foundations Store Delivery Queue Exec Crypto List

structure View where
  account : ℤ
  /-- The domain whose key signs the account's mail. -/
  domain : Text
  reads : Text → Prop
  tries : Text → Prop
  guards : Text → Bytes → Prop
  /-- New messages and contacts get the same row ids. -/
  numbered : Prop
  /-- The blobs of the account's messages are among `reads`. -/
  opened : Prop
  /-- None of the account's messages names a guarded file. -/
  kept : Prop

structure TwinBlobs (V : View) (b b' : BlobStore) : Prop where
  reads : ∀ h, V.reads h → b.file h = b'.file h
  tries : ∀ h, V.tries h → (b.file h).isSome = (b'.file h).isSome
  guards : ∀ h c, V.guards h c → b.file h = some c

structure TwinMetadata (V : View) (m m' : MetadataStore) : Prop where
  messages : Alike StoredMessage.id (fun r => r.accountId) V.account m.messages m'.messages
  messageIds : V.numbered → nextRowid StoredMessage.id m.messages = nextRowid StoredMessage.id m'.messages
  mailboxes : Alike Mailbox.id Mailbox.accountId V.account m.mailboxes m'.mailboxes
  mailboxIds : nextRowid Mailbox.id m.mailboxes = nextRowid Mailbox.id m'.mailboxes
  threadIds : nextRowid Thread.id m.threads = nextRowid Thread.id m'.threads
  uploads : Alike StoredUpload.id StoredUpload.accountId V.account m.uploads m'.uploads
  contacts : Alike StoredContact.id StoredContact.accountId V.account m.contacts m'.contacts
  contactIds : V.numbered → nextRowid StoredContact.id m.contacts = nextRowid StoredContact.id m'.contacts
  messageBlobs : V.opened → ∀ r ∈ m.messages, r.accountId = V.account → V.reads r.blobHash
  uploadBlobs : ∀ u ∈ m.uploads, u.accountId = V.account → V.reads u.blobHash
  unguarded : V.kept → ∀ r ∈ m.messages, r.accountId = V.account → ∀ c, ¬ V.guards r.blobHash c

def rcptsOf (q : QueueStore) (outboundId : ℤ) : ℕ :=
  (q.rcpts.filter fun r => r.outboundId == outboundId).length

structure TwinQueue (V : View) (q q' : QueueStore) : Prop where
  outbound : Alike OutboundMessage.id OutboundMessage.accountId V.account q.outbound q'.outbound
  outboundIds : nextRowid OutboundMessage.id q.outbound = nextRowid OutboundMessage.id q'.outbound
  /-- For messages of the account, and for those still to come. -/
  rcpts : ∀ k, ((∃ o ∈ q.outbound, o.accountId = V.account ∧ o.id = k) ∨
    nextRowid OutboundMessage.id q.outbound ≤ k) → rcptsOf q k = rcptsOf q' k
  events : Alike ScheduledEvent.id ScheduledEvent.accountId V.account q.events q'.events
  eventIds : nextRowid ScheduledEvent.id q.events = nextRowid ScheduledEvent.id q'.events
  signingKey : findBy DomainKey.domain V.domain q.dkimKeys = findBy DomainKey.domain V.domain q'.dkimKeys

structure Twin (V : View) (s s' : Stores) : Prop where
  blobs : TwinBlobs V s.blobs s'.blobs
  metadata : TwinMetadata V s.metadata s'.metadata
  queue : TwinQueue V s.queue s'.queue
  account : findById s.accounts V.account = findById s'.accounts V.account

variable {V : View}

section
variable {α : Type} {s s' : Stores}

def View.loosened (V : View) : View := { V with numbered := False, opened := False }

theorem Twin.loosened (hs : Twin V s s') : Twin V.loosened s s' where
  blobs := ⟨hs.blobs.reads, hs.blobs.tries, hs.blobs.guards⟩
  metadata := { hs.metadata with
    messageIds := fun h => h.elim, contactIds := fun h => h.elim, messageBlobs := fun h => h.elim }
  queue := { hs.queue with }
  account := hs.account

def View.filing (V : View) : View := { V with opened := False, kept := False }

theorem Twin.filing (hs : Twin V s s') : Twin V.filing s s' where
  blobs := ⟨hs.blobs.reads, hs.blobs.tries, hs.blobs.guards⟩
  metadata := { hs.metadata with messageBlobs := fun h => h.elim, unguarded := fun h => h.elim }
  queue := { hs.queue with }
  account := hs.account

theorem Twin.filed (hs : Twin V.filing s s') (hfiles : V.kept →
    ∀ r ∈ s.metadata.messages, r.accountId = V.account → ∀ c, ¬ V.guards r.blobHash c) :
    Twin V.loosened s s' where
  blobs := ⟨hs.blobs.reads, hs.blobs.tries, hs.blobs.guards⟩
  metadata := { hs.metadata with
    messageIds := fun h => h.elim, contactIds := fun h => h.elim, messageBlobs := fun h => h.elim
    unguarded := hfiles }
  queue := { hs.queue with }
  account := hs.account

theorem onBlobs_respects {x : Exec BlobStore Error α} (hx : Respects (TwinBlobs V) x) :
    Respects (Twin V) (onBlobs x) :=
  .zoom (fun _ _ h => h.blobs) (fun _ _ _ _ h hb => { h with blobs := hb }) hx

theorem onMetadata_respects {x : Exec MetadataStore Error α} (hx : Respects (TwinMetadata V) x) :
    Respects (Twin V) (onMetadata x) :=
  .zoom (fun _ _ h => h.metadata) (fun _ _ _ _ h hm => { h with metadata := hm }) hx

theorem onQueue_respects {x : Exec QueueStore Error α} (hx : Respects (TwinQueue V) x) :
    Respects (Twin V) (onQueue x) :=
  .zoom (fun _ _ h => h.queue) (fun _ _ _ _ h hq => { h with queue := hq }) hx

theorem notify_respects {ε : Type} (accountId : ℤ) :
    Respects (Twin V) (Exec.modify (notify accountId) : Exec Stores ε Unit) :=
  .modify fun _ _ h => ⟨h.blobs, h.metadata, h.queue, h.account⟩

end

/-! ## Files -/

variable {faults : Faults}

section
variable {P : Primitives} {b b' : BlobStore} {h : Text} {bytes : Bytes}

theorem TwinBlobs.put (hb : TwinBlobs V b b') (hnone : b.file h = none) :
    TwinBlobs V (b.put h bytes) (b'.put h bytes) where
  reads k hk := by rw [put_file, put_file, hb.reads k hk]
  tries k hk := by
    rw [put_file, put_file]
    split
    · rfl
    · exact hb.tries k hk
  guards k c hk := by
    have hkept := hb.guards k c hk
    have hne : k ≠ h := by
      rintro rfl
      rw [hnone] at hkept
      cases hkept
    rw [put_file, if_neg hne, hkept]

theorem TwinBlobs.put_left (hb : TwinBlobs V b b') (hnone : b.file h = none)
    (hsome : (b'.file h).isSome) : TwinBlobs V (b.put h bytes) b' where
  reads k hk := by
    have hne : k ≠ h := by
      rintro rfl
      rw [← hb.reads k hk, hnone] at hsome
      cases hsome
    rw [put_file, if_neg hne, hb.reads k hk]
  tries k hk := by
    have hne : k ≠ h := by
      rintro rfl
      rw [← hb.tries k hk, hnone] at hsome
      cases hsome
    rw [put_file, if_neg hne, hb.tries k hk]
  guards k c hk := by
    have hkept := hb.guards k c hk
    have hne : k ≠ h := by
      rintro rfl
      rw [hnone] at hkept
      cases hkept
    rw [put_file, if_neg hne, hkept]

theorem TwinBlobs.put_right (hb : TwinBlobs V b b') (hnone : b'.file h = none)
    (hsome : (b.file h).isSome) : TwinBlobs V b (b'.put h bytes) where
  reads k hk := by
    have hne : k ≠ h := by
      rintro rfl
      rw [hb.reads k hk, hnone] at hsome
      cases hsome
    rw [put_file, if_neg hne, hb.reads k hk]
  tries k hk := by
    have hne : k ≠ h := by
      rintro rfl
      rw [hb.tries k hk, hnone] at hsome
      cases hsome
    rw [put_file, if_neg hne, hb.tries k hk]
  guards := hb.guards

/-- A write of the account cannot fail, or is tried on both stores or on none. -/
def Settled (V : View) (faults : Faults) (name : Text) : Prop :=
  (faults .blobPrepare = none ∧ faults .blobSyncDir = none) ∨ V.tries name

theorem write_respects (hname : Settled V faults (hashHex P bytes)) :
    Respects (TwinBlobs V) (write P faults bytes) := by
  intro b b' hb
  rw [write_run, write_run]
  cases hfile : b.file (hashHex P bytes) with
  | some =>
    cases hfile' : b'.file (hashHex P bytes) with
    | some => exact ⟨rfl, hb⟩
    | none =>
      -- only the second store is written to: the write goes through
      obtain ⟨hprepare, hsync⟩ | htries := hname
      · simp only [hprepare, hsync]
        exact ⟨rfl, hb.put_right hfile' (by rw [hfile]; rfl)⟩
      · have hboth := hb.tries _ htries
        rw [hfile, hfile'] at hboth
        cases hboth
  | none =>
    cases hfile' : b'.file (hashHex P bytes) with
    | some =>
      obtain ⟨hprepare, hsync⟩ | htries := hname
      · simp only [hprepare, hsync]
        exact ⟨rfl, hb.put_left hfile (by rw [hfile']; rfl)⟩
      · have hboth := hb.tries _ htries
        rw [hfile, hfile'] at hboth
        cases hboth
    | none =>
      cases faults .blobPrepare with
      | some => exact ⟨rfl, hb⟩
      | none =>
        cases faults .blobSyncDir with
        | some detail | none => exact ⟨rfl, hb.put hfile⟩

theorem read_respects (hread : V.reads h) : Respects (TwinBlobs V) (Store.read P faults h) := by
  have hpath : Respects (TwinBlobs V) (pathFor h) :=
    .ite .pure .throw
  have hfile : Respects (TwinBlobs V) (file faults .blobRead : Exec BlobStore Error Unit) := by
    intro b b' hb
    rw [file_run, file_run]
    cases faults .blobRead with
    | none | some detail => exact ⟨rfl, hb⟩
  refine .bind hpath fun _ => .bind hfile fun _ => ?_
  refine .get_bind (fun b b' hb => by rw [hb.reads h hread]) fun b => ?_
  cases b.file h with
  | none => exact .throw
  | some => exact .ite .throw .pure

theorem remove_respects (hguard : ∀ c, ¬ V.guards h c) :
    Respects (TwinBlobs V) (remove faults h) := by
  intro b b' hb
  rw [remove_run, remove_run]
  split
  · cases faults .blobRemove with
    | some => exact ⟨rfl, hb⟩
    | none =>
      refine ⟨rfl, ⟨fun k hk => ?_, fun k hk => ?_, fun k c hk => ?_⟩⟩
      · rw [erase_file, erase_file, hb.reads k hk]
      · rw [erase_file, erase_file]
        split
        · rfl
        · exact hb.tries k hk
      · have hne : k ≠ h := fun heq => hguard c (heq ▸ hk)
        rw [erase_file, if_neg hne, hb.guards k c hk]
  · exact ⟨rfl, hb⟩

theorem openBlob_respects {dekWrap accountPriv : Bytes} (hread : V.reads h) :
    Respects (Twin V) (openBlob P faults h dekWrap accountPriv) := by
  unfold openBlob
  cases hpkeOpen P accountPriv dekSealInfo dekWrap with
  | error => exact .throw
  | ok dek =>
    refine .ite .panic (.bind (onBlobs_respects (read_respects hread)) fun sealedBlob => ?_)
    cases aeadOpen P dek sealedBlob with
    | ok => exact .pure
    | error => exact .throw

theorem sealForAccount_respects {draw : Draw} {accountPub raw : Bytes} {keyId : UInt16}
    (hname : Settled V draw.faults (hashHex P (aeadSeal P draw.dek 1 draw.nonce raw))) :
    Respects (Twin V) (sealForAccount P draw accountPub keyId raw) := by
  refine .bind (onBlobs_respects (write_respects hname)) fun _ => ?_
  cases hpkeSeal P accountPub keyId dekSealInfo draw.dek draw.hpkeRandom with
  | ok => exact .pure
  | error => exact .throw

end

/-! ## Metadata -/

variable {now : ℤ}

section
variable {m m' : MetadataStore} {p : StoredMessage → Bool} {rowId : ℤ}

theorem selectMessages_respects {site : Site} :
    Respects (TwinMetadata V) (selectMessages faults site V.account p) :=
  query_respects fun _ _ h => by rw [h.messages.select]

theorem selectLike_respects {k : Text} :
    Respects (TwinMetadata V) (selectLike faults V.account k p) :=
  .bind selectMessages_respects fun _ => .ite .throw .pure

theorem insertOrIgnoreMailbox_twin (hm : TwinMetadata V m m') (role : Role) (name : Text) :
    TwinMetadata V (insertOrIgnoreMailbox V.account role name m)
      (insertOrIgnoreMailbox V.account role name m') := by
  unfold insertOrIgnoreMailbox
  rw [hm.mailboxes.any fun b => b.role == role]
  split
  · exact hm
  · have hnext := hm.mailboxIds
    exact { hm with
      mailboxes := hnext ▸ hm.mailboxes.insert rfl hnext
      mailboxIds := by rw [nextRowid_insert _ rfl, nextRowid_insert _ rfl, hnext] }

theorem ensureMailbox_respects {role : Role} :
    Respects (TwinMetadata V) (ensureMailbox faults V.account role) := by
  have hfill : ∀ k roles, Respects (TwinMetadata V) (backfillMailboxes faults V.account k roles) := by
    intro k roles
    induction roles generalizing k with
    | nil => exact .pure
    | cons _ _ ih =>
      refine .bind sql_respects fun _ => ?_
      refine .bind (.modify fun m m' hm => ?_) fun _ => ih (k + 1)
      exact insertOrIgnoreMailbox_twin hm _ _
  have hfind : Respects (TwinMetadata V) (getMailboxByRole faults V.account role) :=
    query_respects fun _ _ h => h.mailboxes.first fun b => b.role == role
  refine .bind (hfill _ _) fun _ => .bind hfind fun found => ?_
  cases found with
  | some => exact .pure
  | none => exact .throw

theorem createThread_respects : Respects (TwinMetadata V) (createThread faults V.account) := by
  refine .bind sql_respects fun _ => .update fun m m' hm => ⟨hm.threadIds, ?_⟩
  have hnext := hm.threadIds
  exact { hm with threadIds := by rw [nextRowid_insert _ rfl, nextRowid_insert _ rfl, hnext] }

theorem findOrCreateThread_respects {pick : ℕ} {q : ThreadMatch} (hq : q.accountId = V.account) :
    Respects (TwinMetadata V) (findOrCreateThread faults pick q) := by
  have hreference : Respects (TwinMetadata V)
      (threadByReference faults pick q.accountId q.referenceIds) := by
    rw [hq]
    exact .ite .pure (query_respects fun m m' h => by rw [h.messages.select])
  refine .bind hreference fun found => ?_
  rw [hq]
  cases found with
  | some => exact .pure
  | none =>
    cases q.subjectHash with
    | none => exact createThread_respects
    | some hash =>
      have hsubject : Respects (TwinMetadata V) (threadBySubjectHash faults pick V.account hash) :=
        query_respects fun m m' h => by rw [h.messages.select]
      refine .bind hsubject fun found => ?_
      cases found with
      | some => exact .pure
      | none => exact createThread_respects

theorem insertMessage_respects {new : NewMessage} (hnum : V.numbered) (hopened : ¬ V.opened)
    (hkept : ¬ V.kept) : Respects (TwinMetadata V) (insertMessage faults new) := by
  refine .bind sql_respects fun _ => .update fun m m' hm => ⟨hm.messageIds hnum, ?_⟩
  have hnext := hm.messageIds hnum
  simp only [← hnext]
  refine { hm with messages := ?_, messageIds := ?_, messageBlobs := ?_, unguarded := ?_ }
  · exact hm.messages.insert rfl hnext
  · intro _
    rw [nextRowid_insert _ rfl, nextRowid_insert _ hnext, hnext]
  · exact fun h => absurd h hopened
  · exact fun h => absurd h hkept

theorem updateMessages_twin (hm : TwinMetadata V m m') {f : StoredMessage → StoredMessage}
    (hid : ∀ r, (f r).id = r.id) (howner : ∀ r, (f r).accountId = r.accountId)
    (hblob : ∀ r, (f r).blobHash = r.blobHash) :
    TwinMetadata V { m with messages := updateWhere p f m.messages }
      { m' with messages := updateWhere p f m'.messages } := by
  have hrow : ∀ r ∈ updateWhere p f m.messages, ∃ r₀ ∈ m.messages, r₀.accountId = r.accountId ∧
      r₀.blobHash = r.blobHash := by
    intro r hr
    obtain ⟨r₀, hr₀, rfl⟩ := mem_updateWhere.mp hr
    refine ⟨r₀, hr₀, ?_⟩
    split
    · exact ⟨(howner r₀).symm, (hblob r₀).symm⟩
    · exact ⟨rfl, rfl⟩
  refine { hm with messages := ?_, messageIds := ?_, messageBlobs := ?_, unguarded := ?_ }
  · exact hm.messages.update hid howner
  · exact fun hnum => nextRowid_updateWhere_congr hid (hm.messageIds hnum)
  · intro hopened r hr hown
    obtain ⟨r₀, hr₀, heq, hsame⟩ := hrow r hr
    exact hsame ▸ hm.messageBlobs hopened r₀ hr₀ (heq.trans hown)
  · intro hkept r hr hown c
    obtain ⟨r₀, hr₀, heq, hsame⟩ := hrow r hr
    exact hsame ▸ hm.unguarded hkept r₀ hr₀ (heq.trans hown) c

theorem updateMessage_respects {mailboxId : Option ℤ} {keywords : Option Text} :
    Respects (TwinMetadata V) (updateMessage faults rowId mailboxId keywords) := by
  refine .bind (.whenSome fun _ => ?_) fun _ => .whenSome fun _ => ?_
  · exact .bind sql_respects fun _ => .modify fun _ _ hm =>
      updateMessages_twin hm (fun _ => rfl) (fun _ => rfl) fun _ => rfl
  · exact .bind sql_respects fun _ => .modify fun _ _ hm =>
      updateMessages_twin hm (fun _ => rfl) (fun _ => rfl) fun _ => rfl

theorem deleteMessage_respects (hnum : ¬ V.numbered) :
    Respects (TwinMetadata V) (deleteMessage faults rowId) := by
  refine .bind sql_respects fun _ => .modify fun m m' hm => ?_
  have hmem : ∀ r ∈ m.messages.filter (fun r => r.id != rowId), r ∈ m.messages :=
    fun r hr => (mem_filter.mp hr).1
  exact { hm with
    messages := hm.messages.delete _
    messageIds := fun h => absurd h hnum
    messageBlobs := fun hopened r hr => hm.messageBlobs hopened r (hmem r hr)
    unguarded := fun hkept r hr => hm.unguarded hkept r (hmem r hr) }

theorem insertContact_respects (hnum : V.numbered) (sealedEntry : Bytes) :
    Respects (TwinMetadata V) (insertContact faults V.account sealedEntry now) := by
  refine .bind sql_respects fun _ => .update fun m m' hm => ⟨hm.contactIds hnum, ?_⟩
  have hnext := hm.contactIds hnum
  simp only [← hnext]
  refine { hm with contacts := hm.contacts.insert rfl hnext, contactIds := fun _ => ?_ }
  rw [nextRowid_insert _ rfl, nextRowid_insert _ hnext, hnext]

theorem updateContact_respects {sealedEntry : Bytes} :
    Respects (TwinMetadata V) (updateContact faults rowId sealedEntry now) := by
  refine .bind sql_respects fun _ => .modify fun m m' hm => ?_
  refine { hm with
    contacts := hm.contacts.update (fun _ => rfl) fun _ => rfl
    contactIds := fun hnum => ?_ }
  refine nextRowid_updateWhere_congr ?_ (hm.contactIds hnum)
  exact fun _ => rfl

theorem deleteContact_respects (hnum : ¬ V.numbered) :
    Respects (TwinMetadata V) (deleteContact faults rowId) :=
  .bind sql_respects fun _ => .modify fun _ _ hm =>
    { hm with contacts := hm.contacts.delete _, contactIds := fun h => absurd h hnum }

theorem contactsForAccount_respects :
    Respects (TwinMetadata V) (contactsForAccount faults V.account) :=
  query_respects fun _ _ h => h.contacts.own

end

/-! ## The queue -/

section
variable {q q' : QueueStore} {new : NewOutbound}

theorem pendingEventsForAccount_respects (kind : ScheduledKind) :
    Respects (TwinQueue V) (pendingEventsForAccount faults V.account kind) := by
  refine query_respects fun q q' h => ?_
  simpa only [Bool.and_assoc] using h.events.select fun ev => ev.kind == some kind && ev.state == .pending

theorem markEventCancelled_respects (k : ℕ) (id : ℤ) :
    Respects (TwinQueue V) (markEventCancelled faults k id) := by
  refine .bind sql_respects fun _ => .modify fun q q' hq => ?_
  refine { hq with events := hq.events.update (fun _ => rfl) (fun _ => rfl), eventIds := ?_ }
  refine nextRowid_updateWhere_congr ?_ hq.eventIds
  exact fun _ => rfl

theorem insertScheduledEvent_respects (new : NewScheduledEvent) :
    Respects (TwinQueue V) (insertScheduledEvent faults new) := by
  refine .bind sql_respects fun _ => .update fun q q' hq => ⟨hq.eventIds, ?_⟩
  have hnext := hq.eventIds
  simp only [← hnext]
  refine { hq with events := hq.events.insert rfl hnext, eventIds := ?_ }
  rw [nextRowid_insert _ rfl, nextRowid_insert _ hnext, hnext]

theorem ensureDkimKey_respects (generated : Except Text (Bytes × Bytes)) :
    Respects (TwinQueue V) (ensureDkimKey faults generated V.domain) := by
  have hload : Respects (TwinQueue V) (loadDkimKey faults V.domain) :=
    query_respects fun _ _ h => h.signingKey
  refine .bind hload fun found => ?_
  cases found with
  | some => exact .pure
  | none =>
    cases generated with
    | error => exact .throw
    | ok =>
      refine .bind sql_respects fun _ => .bind (.modify fun q q' hq => ?_) fun _ => .pure
      have hkey := hq.signingKey
      rw [findBy, findBy] at hkey
      refine { hq with signingKey := ?_ }
      rw [findBy, findBy, List.find?_append, List.find?_append, hkey]

theorem length_filter_eq_sum {α : Type} (p : α → Bool) (l : List α) :
    (l.filter p).length = (l.map fun a => if p a then 1 else 0).sum := by
  induction l with
  | nil => rfl
  | cons a l ih =>
    rw [map_cons, sum_cons, ← ih]
    by_cases hp : p a
    · simp only [hp, if_true, filter_cons_of_pos, length_cons]
      omega
    · simp [hp]

theorem recipientCount_eq (accountId since : ℤ) :
    recipientCount q accountId since =
      (((q.outbound.filter fun o => o.accountId == accountId && (decide (since < o.createdAt) && !o.isDsn)).map
        fun o => rcptsOf q o.id).sum : ℕ) := by
  unfold recipientCount rcptsOf
  congr 1
  induction q.rcpts with
  | nil => simp
  | cons r rest ih =>
    -- one more recipient counts once at each message it belongs to
    have hone : ∀ o : OutboundMessage, ((r :: rest).filter fun r => r.outboundId == o.id).length =
        (if r.outboundId == o.id then 1 else 0) + (rest.filter fun r => r.outboundId == o.id).length := by
      intro o
      rw [length_filter_eq_sum, length_filter_eq_sum]
      rfl
    simp only [hone, flatMap_cons, length_append, ih, sum_map_add]
    rw [← length_filter_eq_sum, filter_filter]
    congr 2
    refine filter_congr fun o _ => ?_
    grind

theorem rateGate_respects (hnew : new.accountId = V.account) :
    Respects (TwinQueue V) (rateGate faults now new) := by
  have hmessages : ∀ q q' since, TwinQueue V q q' →
      messageCount q V.account since = messageCount q' V.account since := by
    intro q q' since hq
    unfold messageCount
    simp only [Bool.and_assoc, hq.outbound.select]
  have hrcpts : ∀ q q' since, TwinQueue V q q' →
      recipientCount q V.account since = recipientCount q' V.account since := by
    intro q q' since hq
    rw [recipientCount_eq, recipientCount_eq, ← hq.outbound.select]
    congr 2
    refine map_congr_left fun o ho => hq.rcpts _ (.inl ?_)
    obtain ⟨hmem, hown⟩ := mem_filter.mp ho
    simp only [Bool.and_eq_true, beq_iff_eq] at hown
    exact ⟨o, hmem, hown.1, rfl⟩
  refine .ite .pure (.bind sql_respects fun _ => ?_)
  rw [hnew]
  refine .get_bind (fun q q' hq => by rw [hmessages q q' _ hq, hrcpts q q' _ hq]) fun q => ?_
  refine .ite .throw (.bind sql_respects fun _ => ?_)
  exact .ite .throw .pure

theorem rcptsOf_append (r : OutboundRecipient) (k : ℤ) :
    rcptsOf { q with rcpts := q.rcpts ++ [r] } k =
      rcptsOf q k + if r.outboundId == k then 1 else 0 := by
  unfold rcptsOf
  by_cases hk : (r.outboundId == k)
  · simp [hk]
  · simp [hk]

theorem insertRcpts_respects {outboundId : ℤ} {k : ℕ} {rcpts : List Text} :
    Respects (TwinQueue V) (insertRcpts faults outboundId now k rcpts) := by
  induction rcpts generalizing k with
  | nil => exact .pure
  | cons _ _ ih =>
    refine .bind sql_respects fun _ => .bind (.modify fun q q' hq => ?_) fun _ => ih
    refine { hq with rcpts := fun j hj => ?_ }
    have hcount : rcptsOf q j = rcptsOf q' j := hq.rcpts j hj
    rw [addRcpt, addRcpt, rcptsOf_append, rcptsOf_append, hcount]
    rfl

theorem addOutbound_twin (hq : TwinQueue V q q') {messageBlob : Text} :
    TwinQueue V (addOutbound new messageBlob now q) (addOutbound new messageBlob now q') := by
  have hnext := hq.outboundIds
  unfold addOutbound
  rw [← hnext]
  refine { hq with outbound := hq.outbound.insert rfl hnext, outboundIds := ?_, rcpts := fun k hk => ?_ }
  · rw [nextRowid_insert _ rfl, nextRowid_insert _ hnext, hnext]
  · refine hq.rcpts k ?_
    rw [nextRowid_insert _ rfl] at hk
    rcases hk with ⟨o, ho, hown, hid⟩ | hlater
    · rcases mem_append.mp ho with hold | hnew
      · exact .inl ⟨o, hold, hown, hid⟩
      · obtain rfl := mem_singleton.mp hnew
        exact .inr hid.le
    · exact .inr (by omega)

theorem enqueueInsert_respects (hnew : new.accountId = V.account) (messageBlob : Text) :
    Respects (TwinQueue V) (enqueueInsert faults now new messageBlob) := by
  refine .bind (rateGate_respects hnew) fun _ => .bind sql_respects fun _ => ?_
  refine .get_bind (fun q q' hq => by rw [hq.outboundIds]) fun q => ?_
  refine .bind (.modify fun _ _ hq => addOutbound_twin hq) fun _ => ?_
  exact .bind insertRcpts_respects fun _ => .pure

end
end Litterae
