import Litterae.Jmap.Api
import Litterae.Writes

/-! # A mailbox request writes for its account

Each operation of the mailbox API, run for an account, is a sequence of writes for that account.
The rows it is given by id are looked up and their owner compared before they are written; with
unique row ids that is enough (`Given Unique`).
-/

namespace Litterae.Jmap
open Foundations Store Delivery Queue Exec List

variable {accountId : ℤ} {D : ℤ → Prop} {P : Primitives} {C : Composer} {faults : Faults}
  {ctx : AccountContext}

section
variable {draw : ComposeDraw}

theorem openBlob_writes {blobHash : Text} {dekWrap accountPriv : Bytes} :
    Keeps (Writes accountId D) (openBlob P faults blobHash dekWrap accountPriv) :=
  .of_state (openBlob_state _ _ _ _)

theorem createDraft_writes (req : EmailCreateRequest) :
    Keeps (Writes accountId D) (createDraft P C draw ctx accountId req) :=
  createDraft_keeps (fun _ => findOrCreateThread_writes) (fun _ => onBlobs_writes)
    ensureMailbox_writes (fun _ => insertMessage_writes) req

end

/-! ## Timers -/

variable {id : Text} {rowId : ℤ}

section
variable {s t : Stores} {events : List ScheduledEvent} {ev : ScheduledEvent}

def HasEvent (accountId id : ℤ) (s : Stores) : Prop :=
  ∃ ev, findBy ScheduledEvent.id id s.queue.events = some ev ∧ ev.accountId = accountId

theorem writes_hasEvent {owner id : ℤ} (h : Writes accountId D s t) (hs : HasEvent owner id s) :
    HasEvent owner id t := by
  refine Writes.relate (R := fun s t => HasEvent owner id s → HasEvent owner id t)
    (fun _ h => h) (fun _ _ _ h h' hs => h' (h hs)) (fun s t hw hs => ?_) h hs
  cases hw with
  | events h =>
    obtain ⟨ev, hev, howner⟩ := hs
    obtain ⟨ev', hev', howner'⟩ := h.keeps not_false hev
    exact ⟨ev', hev', howner'.trans howner⟩
  | _ => exact hs

theorem HasEvent.owns {id : ℤ} (h : HasEvent accountId id s) (hs : Unique s)
    (hev : ev ∈ s.queue.events) (hid : ev.id = id) : ev.accountId = accountId := by
  obtain ⟨ev', hfound, howner⟩ := h
  rw [eq_of_findBy _ hs.events hfound hev hid]
  exact howner

theorem scheduledMessageRowId_payload (h : ev.payload = some id) :
    scheduledMessageRowId ev = emailRowId id := by
  unfold scheduledMessageRowId
  rw [h]
  cases id with
  | nil => rfl
  | cons c =>
    by_cases hc : c = 'm'
    · subst hc
      rfl
    · simp only [emailRowId]
      split <;> simp_all

def Cancellable (accountId : ℤ) (events : List ScheduledEvent) (s : Stores) : Prop :=
  Unique s ∧ ∀ ev ∈ events, HasEvent accountId ev.id s

instance : Stable (Cancellable accountId events) (Writes accountId D) :=
  ⟨fun _ _ h hs => ⟨h.unique hs.1, fun ev hev => writes_hasEvent h (hs.2 ev hev)⟩⟩

theorem markEventCancelled_writes (k : ℕ) (hev : ev ∈ events) :
    Keeps (ThroughQueue (Given (Cancellable accountId events) (Writes accountId D)))
      (markEventCancelled faults k ev.id) := by
  intro q
  rw [markEventCancelled, sql_bind_run]
  cases faults (.eventCancel k) with
  | some => exact fun s _ => refl _
  | none =>
    rintro s ⟨hunique, howned⟩
    refine .single (.events (.update ?_ ?_ ?_) ?_)
    · intro e hmem hid
      exact (howned ev hev).owns hunique hmem (by simpa using hid)
    · exact fun e => rfl
    · exact fun e => rfl
    · intro e hmem hpending
      obtain ⟨e₀, he₀, rfl⟩ := mem_updateWhere.mp hmem
      by_cases hid : (e₀.id == ev.id)
      · simp [hid] at hpending
      · simpa [hid] using .inl he₀

theorem cancelEach_writes (k : ℕ) (rest : List ScheduledEvent) (hrest : ∀ ev ∈ rest, ev ∈ events) :
    Keeps (ThroughQueue (Given (Cancellable accountId events) (Writes accountId D)))
      (cancelEach faults k rest) := by
  induction rest generalizing k with
  | nil => exact fun q s _ => refl _
  | cons ev _ ih =>
    have hmark : Keeps (ThroughQueue (Given (Cancellable accountId events) (Writes accountId D)))
        (markEventCancelled faults k ev.id) :=
      markEventCancelled_writes k (hrest ev mem_cons_self)
    refine .bind (.ignore hmark) fun _ => ?_
    exact ih (k + 1) fun e he => hrest e (mem_cons_of_mem _ he)

theorem pendingEventsForAccount_run (kind : ScheduledKind) (q : QueueStore) :
    pendingEventsForAccount faults accountId kind q = match faults .eventsPending with
      | some detail => (.err (.storage detail), q)
      | none => (.ok (q.events.filter fun ev =>
          ev.accountId == accountId && ev.kind == some kind && ev.state == .pending), q) := by
  rw [pendingEventsForAccount, sql_bind_run]
  cases faults .eventsPending <;> rfl

theorem cancelPendingEvents_writes (kind : ScheduledKind) (messageId : Text) :
    Keeps (ThroughQueue (Given Unique (Writes accountId D)))
      (cancelPendingEvents faults accountId kind messageId) := by
  intro q
  rw [cancelPendingEvents, attempt_bind_run, pendingEventsForAccount_run]
  cases faults .eventsPending with
  | some => exact fun s _ => refl _
  | none =>
    intro s hunique
    have howned : Cancellable accountId (q.events.filter fun ev => ev.accountId == accountId)
        { s with queue := q } := by
      refine ⟨hunique, fun ev hev => ?_⟩
      obtain ⟨hmem, howner⟩ := mem_filter.mp hev
      exact ⟨ev, (findBy_eq_some_iff _ hunique.events).mpr ⟨hmem, rfl⟩, by simpa using howner⟩
    refine cancelEach_writes 0 _ (fun ev hev => ?_) q s howned
    simp only [mem_filter, Bool.and_eq_true] at hev ⊢
    exact ⟨hev.1.1, hev.1.2.1.1⟩

abbrev Holds (accountId rowId : ℤ) (s : Stores) : Prop := Unique s ∧ HasMessage accountId rowId s

instance {rowId : ℤ} : Stable (Holds accountId rowId) (Writes accountId fun _ => False) :=
  ⟨fun _ _ h hs => ⟨h.unique hs.1, h.hasMessage not_false hs.2⟩⟩

theorem setTimer_writes (hid : emailRowId id = some rowId) {kind : ScheduledKind} {threadId : ℤ}
    {value : Value} :
    Keeps (ThroughQueue (Given (Holds accountId rowId) (Writes accountId fun _ => False)))
      (setTimer faults accountId kind id threadId value) := by
  refine .bind ?_ fun _ => ?_
  · exact .mono (fun q q' h s hs => h s hs.1) (cancelPendingEvents_writes kind id)
  · refine .whenSome fun fireAt => .ignore ?_
    intro q
    rw [insertScheduledEvent, sql_bind_run]
    cases faults .eventInsert with
    | some => exact fun s _ => refl _
    | none =>
      rintro s ⟨hunique, hrow⟩
      refine .single (.events (.insert rfl rfl) fun ev hev _ => ?_)
      rcases mem_append.mp hev with hold | hnew
      · exact .inl hold
      · obtain rfl := mem_singleton.mp hnew
        exact .inr ⟨nextRowid_not_mem _ _, rowId,
          (scheduledMessageRowId_payload rfl).trans hid, hrow⟩

end

/-! ## Items of `Email/set` -/

theorem ownMessage_run (rowId : ℤ) (s : Stores) :
    ownMessage accountId faults rowId s =
      (lookedUp ((faults .messageById).map fun _ => .notFound) .notFound
        ((findBy StoredMessage.id rowId s.metadata.messages).filter fun m =>
          decide (m.accountId = accountId)), s) := by
  rw [ownMessage, attempt_bind_run, onMetadata_run, getMessage, sql_bind_run]
  cases faults .messageById with
  | some => rfl
  | none =>
    simp only [bind_run, get_run, pure_run]
    cases findBy StoredMessage.id rowId s.metadata.messages with
    | none => rfl
    | some => exact check_run

theorem ownMessage_ok {s t : Stores} {m : StoredMessage}
    (h : ownMessage accountId faults rowId s = (.ok m, t)) :
    t = s ∧ findBy StoredMessage.id rowId s.metadata.messages = some m ∧ m.accountId = accountId := by
  rw [ownMessage_run, Prod.mk.injEq, lookedUp_ok, Option.filter_eq_some_iff] at h
  obtain ⟨⟨-, hfound, howner⟩, rfl⟩ := h
  exact ⟨rfl, hfound, of_decide_eq_true howner⟩

theorem ownMessage_state (rowId : ℤ) (s : Stores) : (ownMessage accountId faults rowId s).2 = s := by
  rw [ownMessage_run]

theorem updateMessage_writes (rowId : ℤ) {mailboxId : Option ℤ} {keywords : Option Text} :
    Keeps (Given (Holds accountId rowId) (Writes accountId fun _ => False))
      (onMetadata (updateMessage faults rowId mailboxId keywords)) := by
  have hset : ∀ (f : StoredMessage → StoredMessage) (site : Site), (∀ m, (f m).id = m.id) →
      (∀ m, (f m).accountId = m.accountId) →
      Keeps (ThroughMetadata (Given (Holds accountId rowId) (Writes accountId fun _ => False)))
        (do sql faults site
            Exec.modify fun m : MetadataStore =>
              { m with messages := updateWhere (fun r => r.id == rowId) f m.messages }) := by
    intro f site hid howner
    refine .bind sql_keeps fun _ => .modify ?_
    rintro m s ⟨hunique, hrow⟩
    refine .single (.messages (.update ?_ hid howner))
    intro r hr hrid
    exact hrow.owns hunique hr (by simpa using hrid)
  refine onMetadata_keeps (.bind ?_ fun _ => ?_)
  · exact .whenSome fun _ => hset _ .messageSetMailbox (fun _ => rfl) fun _ => rfl
  · exact .whenSome fun _ => hset _ .messageSetKeywords (fun _ => rfl) fun _ => rfl

/-- A patch keeps what each of the timers it sets keeps. -/
theorem patchEntries_keeps {R : Stores → Stores → Prop} [IsPreorder Stores R]
    (h : ∀ faults kind threadId value,
      Keeps R (onQueue (setTimer faults accountId kind id threadId value)))
    (entryFaults : ℕ → Faults) (existing : StoredMessage) (k : ℕ) (patch : List (Text × Value))
    (p : Patching) : Keeps R (patchEntries accountId entryFaults id existing k patch p) := by
  induction patch generalizing k p with
  | nil => exact .pure
  | cons _ _ ih =>
    refine .bind ?_ fun _ => ih (k + 1) _
    unfold patchTimer
    split
    · exact .ignore (h _ _ _ _)
    · exact .pure

theorem emailUpdate_writes (io : UpdateIo) (id : Text) (patch : List (Text × Value)) :
    Keeps (Given Unique (Writes accountId fun _ => False)) (emailUpdate accountId io id patch) := by
  unfold emailUpdate
  cases hid : emailRowId id with
  | none => exact .throw
  | some rowId =>
    refine .bind_run (.of_state (ownMessage_state rowId)) fun s existing t hown hunique => ?_
    obtain ⟨rfl, hfound, howner⟩ := ownMessage_ok hown
    exact Keeps.bind (patchEntries_keeps (fun _ _ _ _ => onQueue_keeps (setTimer_writes hid)) _ _ _ _ _)
      (fun p => Keeps.mapErr (updateMessage_writes rowId)) t ⟨hunique, existing, hfound, howner⟩

theorem trashOrDelete_writes (rowId : ℤ) (existing : StoredMessage) (trash : Mailbox) :
    Keeps (Given (Holds accountId rowId) (Writes accountId fun k => k = rowId))
      (trashOrDelete faults rowId existing trash) := by
  refine .ite (fun s hs => ?_) (fun s hs => ?_)
  · have hdelete : Writes accountId (fun k => k = rowId) s
        (onMetadata (deleteMessage faults rowId) s).2 := by
      rw [onMetadata_run, deleteMessage, sql_bind_run]
      cases faults .messageDelete with
      | some => exact refl s
      | none =>
        refine .single (.messages (.delete (fun m hm hid => ?_) fun m hm hid => ?_))
        · exact hs.2.owns hs.1 hm (by simpa using hid)
        · simpa using hid
    refine state_bind hdelete fun _ t ht => ?_
    have hdeleted : Writes accountId (fun k => k = rowId) s t := by
      rw [ht] at hdelete
      exact hdelete
    exact trans_of _ hdeleted (onBlobs_writes t)
  · exact (updateMessage_writes rowId s hs).mono fun _ hk => hk.elim

theorem emailDestroy_writes (id : Text) :
    Keeps (Given Unique (Writes accountId fun k => emailRowId id = some k))
      (emailDestroy accountId faults id) := by
  unfold emailDestroy
  cases hid : emailRowId id with
  | none => exact .throw
  | some rowId =>
    refine .bind_run (.of_state (ownMessage_state rowId)) fun s existing t hown hunique => ?_
    obtain ⟨rfl, hfound, howner⟩ := ownMessage_ok hown
    have hensure : Keeps (Writes accountId fun _ => False)
        ((onMetadata (ensureMailbox faults accountId .trash)).mapErr
          fun e => SetError.serverFail e.display) := .mapErr ensureMailbox_writes
    refine state_bind ((hensure t).mono fun _ hk => hk.elim) fun trash u htrash => ?_
    have hu : Writes accountId (fun _ => False) t u := hensure.run htrash
    have hholds : Holds accountId rowId u := Stable.step t u hu ⟨hunique, existing, hfound, howner⟩
    refine trans_of _ (hu.mono fun _ hk => hk.elim) ?_
    rw [state_mapErr]
    refine (trashOrDelete_writes rowId existing trash u hholds).mono fun k hk => ?_
    rw [hk]

/-! ## Loops over items -/

variable {ε : Type} {k : ℕ}

section
variable {ε' ι α β : Type} {R : Stores → Stores → Prop} {items : List ι}

theorem eachItem_keeps [IsPreorder Stores R] {op : ℕ → ι → Exec Stores ε α}
    (hop : ∀ k i, Keeps R (op k i)) :
    Keeps R (eachItem op k items : Exec Stores ε' (List (ι × Except ε α))) := by
  induction items generalizing k with
  | nil => exact .pure
  | cons item _ ih => exact .bind (.attempt (hop k item)) fun _ => .bind ih fun _ => .pure

theorem eachWith_keeps [IsPreorder Stores R] {op : ℕ → ι → β → Exec Stores ε α} {next : β → α → β}
    (hop : ∀ k i b, Keeps R (op k i b)) {b : β} :
    Keeps R (eachWith op next k items b : Exec Stores ε' (List (ι × Except ε α) × β)) := by
  induction items generalizing k b with
  | nil => exact .pure
  | cons item _ ih => exact .bind (.attempt (hop k item b)) fun _ => .bind ih fun _ => .pure

end

/-! ## Submissions -/

section
variable {draw : SubmitDraw}

theorem prepare_writes (rowId : ℤ) (req : EmailSubmissionCreateRequest) :
    Keeps (Writes accountId D) (prepare P draw ctx accountId rowId req) := by
  refine .bind (.of_state (findOwn_state rowId)) fun existing => ?_
  refine .bind .ofExcept fun _ => ?_
  refine .bind (.mapErr openBlob_writes) fun raw => ?_
  exact .bind (.mapErr (ensureDkimKey_writes _ _)) fun _ => .pure

theorem fileSent_writes (rowId : ℤ) (existing : StoredMessage) :
    Keeps (Given (Holds accountId rowId) (Writes accountId fun _ => False))
      (fileSent draw accountId rowId existing) := by
  refine .bind ?_ fun _ => ?_
  · exact .given (.mapErr ensureMailbox_writes)
  · exact .mapErr (updateMessage_writes _)

theorem submitEmail_writes (req : EmailSubmissionCreateRequest) :
    Keeps (Given Unique (Writes accountId fun _ => False)) (submitEmail P draw ctx accountId req) := by
  unfold submitEmail
  cases hid : emailRowId req.emailId with
  | none => exact .throw
  | some rowId =>
    have hprepare : Keeps (Writes accountId fun _ => False)
        (prepare P draw ctx accountId rowId req) := prepare_writes rowId req
    refine .bind_run (.given hprepare) fun s p t hrun hunique => ?_
    obtain ⟨existing, raw, key⟩ := p
    have hprep := prepare_ok hrun
    have hholds : Holds accountId rowId t :=
      ⟨hunique, (hprepare.run hrun).hasMessage not_false ⟨existing, hprep.found, hprep.owner⟩⟩
    have henqueue : Keeps (Writes accountId fun _ => False) (enqueue P draw.faults draw.sign draw.now
        key (newOutbound ctx accountId raw req)) := enqueue_writes _ _ rfl
    exact Keeps.bind (.given (.mapErr henqueue))
      (fun _ => .bind (fileSent_writes rowId existing)
        fun _ => .pure) t hholds

theorem emailSubmissionSet_writes {draws : ℕ → SubmitDraw}
    {create : List (Text × EmailSubmissionCreateRequest)} :
    Keeps (Given Unique (Writes accountId fun _ => False))
      (emailSubmissionSet P ctx accountId draws k create :
        Exec Stores ε EmailSubmissionSetResult) := by
  induction create generalizing k with
  | nil => exact .pure
  | cons item _ ih =>
    refine .bind (.attempt (submitEmail_writes item.2)) fun outcome => ?_
    cases outcome with
    | ok =>
      refine .bind (.modify fun s _ => .single (.notified _)) fun _ => ?_
      exact .bind ih fun _ => .pure
    | error => exact .bind ih fun _ => .pure

end

/-! ## Reading -/

section
variable {R : Reader} {accountPriv : Bytes} {searched : ℤ} {messages : ℕ → Faults}

theorem mailboxGet_writes (totals : ℕ → Faults) :
    Keeps (Writes accountId D) (mailboxGet accountId faults totals) := by
  have htotals : ∀ k mailboxes,
      Keeps (ThroughMetadata (Writes accountId D)) (mailboxTotals accountId totals k mailboxes) := by
    intro k mailboxes
    induction mailboxes generalizing k with
    | nil => exact .pure
    | cons _ _ ih =>
      refine .bind (.attempt ?_) fun _ => .bind (ih (k + 1)) fun _ => .pure
      exact query_keeps _ _ _
  refine .bind (.mapErr (onMetadata_keeps ?_)) fun mailboxes =>
    .mapErr (onMetadata_keeps (htotals 0 mailboxes))
  exact .bind (ensureMailbox_through _) fun _ =>
    query_keeps _ _ _

theorem buildIndex_writes :
    Keeps (Writes accountId D) (buildIndex P R accountPriv searched faults messages) := by
  have hdocs : ∀ k rows, Keeps (Writes accountId D) (indexDocs P R accountPriv messages k rows) := by
    intro k rows
    induction rows generalizing k with
    | nil => exact .pure
    | cons _ _ ih =>
      exact .bind (.attempt openBlob_writes) fun _ => .bind (ih (k + 1)) fun _ => .pure
  exact .bind sql_keeps fun _ => .bind onMetadata_query fun rows => hdocs 0 rows

abbrev CallWrites (accountId : ℤ) (D : ℤ → Prop) (s t : CallState) : Prop :=
  Writes accountId D s.stores t.stores

instance : IsPreorder CallState (CallWrites accountId D) where
  refl := fun _ => refl _
  trans := fun _ _ _ => trans_of (Writes accountId D)

instance : Stable (fun c : CallState => Unique c.stores) (CallWrites accountId D) :=
  ⟨fun _ _ h => h.unique⟩

theorem inStores_writes {α : Type} {x : Exec Stores ε α} (hx : Keeps (Writes accountId D) x) :
    Keeps (CallWrites accountId D) (inStores x) := fun s => hx s.stores

theorem emailQuery_writes {args : EmailQueryArgs} :
    Keeps (CallWrites accountId D)
      (emailQuery P R accountPriv accountId searched faults messages args) := by
  refine .bind (.mapErr ?_) fun _ => .pure
  unfold matchingIds
  split
  · refine .bind ?_ fun _ => .ofExcept
    refine .bind .get fun s => ?_
    cases s.searchIndex with
    | some => exact .pure
    | none =>
      exact .bind (inStores_writes buildIndex_writes) fun _ =>
        .bind (.modify fun s => refl _) fun _ => .pure
  · exact .bind (inStores_writes (onMetadata_keeps selectLike_keeps)) fun _ => .pure
  · exact .bind (inStores_writes (onMetadata_keeps selectLike_keeps)) fun _ => .pure
  · refine .bind (inStores_writes (onMetadata_keeps ?_)) fun _ =>
      .bind (inStores_writes onMetadata_query) fun _ => .pure
    unfold queriedMailbox
    split
    · exact .pure
    · exact .bind (ensureMailbox_through _) fun _ => .pure

theorem emailGet_writes (io : EmailGetIo) (args : EmailGetArgs) :
    Keeps (Writes accountId D) (emailGet P R accountPriv accountId io args) := by
  have hget : ∀ rows properties faults id rowId, Keeps (Writes accountId D)
      (getEmail P R accountPriv accountId rows properties faults id rowId) := by
    intro rows properties faults id rowId
    unfold getEmail
    split
    · exact .throw
    · exact .mapErr (.bind openBlob_writes fun _ => .pure)
  have hrows : ∀ ids, Keeps (Writes accountId D) (onMetadata (getMessages io.rows ids)) := by
    intro ids
    refine onMetadata_keeps (.ite .pure ?_)
    exact query_keeps _ _ _
  refine .bind (.mapErr (hrows _)) fun rows => ?_
  refine .bind (eachItem_keeps (fun k i => hget _ _ _ _ _)) fun outcomes => ?_
  exact .bind (.attempt onQueue_query) fun _ => .bind (.attempt onQueue_query) fun _ => .pure

theorem threadGet_writes (faults : ℕ → Faults) (ids : List Text) :
    Keeps (Writes accountId D) (threadGet accountId faults ids) := by
  have hget : ∀ faults id, Keeps (Writes accountId D) (getThread accountId faults id) := by
    intro faults id
    unfold getThread
    cases threadRowId id with
    | none => exact .throw
    | some =>
      refine .bind (.attempt onMetadata_query) fun found => ?_
      split
      · exact .pure
      · exact .throw
  exact .bind (eachItem_keeps (fun k i => hget _ _)) fun _ => .pure

end

/-! ## Settings -/

section
variable {J : ContactCodec} {amk : Bytes} {existing : List (ℤ × ContactPlain)} {c : StoredContact}

theorem identityGet_writes {address : Text} {ids : Option (List Text)} :
    Keeps (Writes accountId D) (identityGet P accountId amk faults address ids) := by
  refine .bind ?_ fun identity => ?_
  · refine .bind (.attempt ?_) fun _ => .pure
    exact query_keeps _ _ _
  · cases ids with
    | none | some ids => exact .pure

theorem identitySet_writes (draws : ℕ → SealDraw) (update : List (Text × Option Text)) :
    Keeps (Writes accountId D) (identitySet P accountId amk draws update) := by
  have hupdate : ∀ draw id text,
      Keeps (Writes accountId D) (identityUpdate P accountId amk draw id text) := by
    intro draw id text
    refine .ite .throw (.whenSome fun text => ?_)
    refine .bind (.mapErr ?_) fun _ => .modify fun s => .single (.notified _)
    exact .bind sql_keeps fun _ => .modify fun s => .single (.signature _)
  exact .bind (eachItem_keeps (fun k i => hupdate _ _ _)) fun _ => .pure

theorem contactGet_writes (faults : ℕ → Faults) (ids : Option (List Text)) :
    Keeps (Writes accountId D) (contactGet P J accountId amk faults ids) := by
  have hget : ∀ faults id, Keeps (Writes accountId D) (getContactObject P J accountId amk faults id) := by
    intro faults id
    unfold getContactObject
    cases contactRowId id with
    | none => exact .throw
    | some => exact .bind (.attempt onMetadata_query) fun _ => .ofOption
  cases ids with
  | none => exact .bind (.attempt onMetadata_query) fun _ => .pure
  | some => exact .bind (eachItem_keeps (fun k i => hget _ _)) fun _ => .pure

variable {draw : SealDraw}

theorem contactCreate_writes {req : ContactCreateRequest} :
    Keeps (Writes accountId D) (contactCreate P J accountId amk draw req existing) := by
  refine .bind .ofExcept fun _ => ?_
  refine .bind .throwIf fun _ => ?_
  refine .bind (.mapErr (onMetadata_keeps ?_)) fun _ => .pure
  refine .bind sql_keeps fun _ => .update fun m s => ?_
  exact .single (.contacts (.insert rfl rfl))

theorem ownContact_run (rowId : ℤ) (s : Stores) :
    ownContact accountId faults rowId s =
      (lookedUp ((faults .contactById).map fun detail => (Error.storage detail).display)
        "notFound" ((findBy StoredContact.id rowId s.metadata.contacts).filter fun c =>
          decide (c.accountId = accountId)), s) := by
  rw [ownContact, bind_run, mapErr, onMetadata_run, getContact, sql_bind_run]
  cases faults .contactById with
  | some => rfl
  | none =>
    simp only [get_bind_run, pure_run]
    cases (findBy StoredContact.id rowId s.metadata.contacts).filter fun c =>
      decide (c.accountId = accountId) <;> rfl

theorem ownContact_writes :
    Keeps (Writes accountId D) (ownContact accountId faults rowId) :=
  .bind (.mapErr onMetadata_query) fun _ => .ofOption

def OwnsContact (accountId rowId : ℤ) (s : Stores) : Prop :=
  ∀ c ∈ s.metadata.contacts, c.id = rowId → c.accountId = accountId

theorem ownsContact_of_found {s t : Stores} (hunique : Unique t)
    (h : ownContact accountId faults rowId s = (.ok c, t)) :
    c.id = rowId ∧ OwnsContact accountId rowId t := by
  rw [ownContact_run, Prod.mk.injEq, lookedUp_ok, Option.filter_eq_some_iff] at h
  obtain ⟨⟨-, hfound, howner⟩, rfl⟩ := h
  refine ⟨(findBy_some _ hfound).2, fun c' hc' hid => ?_⟩
  rw [eq_of_findBy _ hunique.contacts hfound hc' hid]
  exact of_decide_eq_true howner

theorem updateContact_writes (sealedEntry : Bytes) (now : ℤ) :
    Keeps (Given (OwnsContact accountId rowId) (Writes accountId D))
      (onMetadata (updateContact faults rowId sealedEntry now)) := by
  refine onMetadata_keeps (.unchanged_bind sql_keeps fun _ => .modify fun m s hown => ?_)
  exact .single (.contacts
    (.update (fun c hc hid => hown c hc (by simpa using hid)) (fun _ => rfl) fun _ => rfl))

theorem deleteContact_writes :
    Keeps (Given (OwnsContact accountId rowId) (Writes accountId D))
      (onMetadata (deleteContact faults rowId)) := by
  refine onMetadata_keeps (.unchanged_bind sql_keeps fun _ => .modify fun m s hown => ?_)
  exact .single (.contacts (.delete (fun c hc hid => hown c hc (by simpa using hid))
      fun _ _ _ => trivial))

theorem contactUpdate_writes {patch : List (Text × Value)} :
    Keeps (Given Unique (Writes accountId D))
      (contactUpdate P J accountId amk draw id patch existing) := by
  unfold contactUpdate
  cases contactRowId id with
  | none => exact .throw
  | some rowId =>
    refine .bind_run (.given ownContact_writes) fun s stored t hown hunique => ?_
    refine Keeps.unchanged_bind (R := Given (OwnsContact accountId rowId) (Writes accountId D))
      .ofExcept (fun current => ?_) t (ownsContact_of_found hunique hown).2
    refine .unchanged_bind .ofExcept fun _ => .unchanged_bind .throwIf fun _ => ?_
    exact .map (.mapErr (updateContact_writes _ _))

theorem contactDestroy_writes :
    Keeps (Given Unique (Writes accountId D)) (contactDestroy accountId faults id) := by
  unfold contactDestroy
  cases contactRowId id with
  | none => exact .throw
  | some rowId =>
    refine .bind_run (.given ownContact_writes) fun s stored t hown hunique => ?_
    obtain ⟨hid, howns⟩ := ownsContact_of_found hunique hown
    rw [hid]
    exact Keeps.mapErr deleteContact_writes t howns

theorem contactSet_writes (io : ContactSetIo) (args : ContactSetArgs) :
    Keeps (Given Unique (Writes accountId D)) (contactSet P J accountId amk io args) := by
  refine .bind ?_ fun result => .bind (.modify fun s _ => ?_) fun _ => .pure
  · refine .bind (.given (.attempt onMetadata_query)) fun rows => ?_
    refine .bind (eachWith_keeps (fun k i book => .given contactCreate_writes)) fun creates => ?_
    refine .bind (eachWith_keeps (fun k i book => contactUpdate_writes)) fun updates => ?_
    exact .bind (eachItem_keeps (fun k id => contactDestroy_writes)) fun _ => .pure
  · split
    · exact .single (.notified _)
    · exact refl _

end

/-! ## Method calls -/

section
variable {E : Environment} {io : CallIo} {ctx : CallContext}

theorem emailSet_writes {ctx : AccountContext} (io : EmailSetIo) (args : EmailSetArgs) :
    Keeps (Given Unique (Writes accountId fun _ => True))
      (emailSet P C io ctx accountId args : Exec Stores ε EmailSetResult) := by
  have hupdate : ∀ io id patch, Keeps (Given Unique (Writes accountId fun _ => True))
      (emailUpdate accountId io id patch) := fun io id patch s hs =>
    (emailUpdate_writes io id patch s hs).mono fun _ _ => trivial
  have hdestroy : ∀ faults id, Keeps (Given Unique (Writes accountId fun _ => True))
      (emailDestroy accountId faults id) := fun faults id s hs =>
    (emailDestroy_writes id s hs).mono fun _ _ => trivial
  refine .bind ?_ fun result => .bind (.modify fun s _ => ?_) fun _ => .pure
  · refine .bind (eachItem_keeps (fun k i => .given (createDraft_writes _))) fun created => ?_
    refine .bind (eachItem_keeps (fun k i => hupdate _ _ _)) fun updated => ?_
    exact .bind (eachItem_keeps (fun k id => hdestroy _ _)) fun _ => .pure
  · split
    · exact .single (.notified _)
    · exact refl _

theorem dispatch_writes (call : MethodCall) :
    Keeps (Given (fun c => Unique c.stores) (CallWrites ctx.accountId fun _ => True))
      (dispatch E io ctx call : Exec CallState ε MethodResponse) := by
  have hstores : ∀ {α β : Type} {args : Parsed α} {x : α → Exec Stores MethodError β} {f : β → Answer},
      (∀ a, Keeps (Given Unique (Writes ctx.accountId fun _ => True)) (x a)) →
      Keeps (Given (fun c => Unique c.stores) (CallWrites ctx.accountId fun _ => True))
        (withArgs ctx.accountId args fun a => do
          let result ← inStores (x a)
          pure (f result)) := by
    intro α β args x f hx
    cases args with
    | error => exact .throw
    | ok =>
      refine .ite .throw ?_
      exact .bind (fun c hc => hx _ c.stores hc) fun _ => .pure
  refine .bind (.attempt ?_) fun _ => .pure
  cases call.invocation with
  | mailboxGet => exact hstores fun _ => .given (mailboxGet_writes _)
  | emailQuery args =>
    cases args with
    | error => exact .throw
    | ok =>
      refine .ite .throw ?_
      exact .bind (.given emailQuery_writes) fun _ => .pure
  | emailGet => exact hstores fun _ => .given (emailGet_writes _ _)
  | emailSet => exact hstores fun _ => emailSet_writes _ _
  | emailSubmissionSet =>
    exact hstores fun _ s hs => (emailSubmissionSet_writes s hs).mono fun _ hk => hk.elim
  | threadGet => exact hstores fun _ => .given (threadGet_writes _ _)
  | identityGet => exact hstores fun _ => .given identityGet_writes
  | identitySet => exact hstores fun _ => .given (identitySet_writes _ _)
  | contactGet => exact hstores fun _ => .given (contactGet_writes _ _)
  | contactSet => exact hstores fun _ => contactSet_writes _ _
  | unknown => exact .throw

end
end Litterae.Jmap
