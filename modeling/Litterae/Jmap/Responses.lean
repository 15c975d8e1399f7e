import Litterae.Jmap.Ownership
import Litterae.Twins

/-! # What a response depends on

Every method call of the mailbox API, made for an account on two databases that look the same to the
account, gives the same response (`dispatch_leads`). Creates come before destroys within a call, so that
new rows get the same ids even where a destroy frees an id in one of the databases only.
-/

namespace Litterae.Jmap
open Foundations Store Delivery Queue Exec Option List

/-! ## Lookups that compare the owner -/

variable {faults : Faults} {V : View} {rowId : ℤ} {draw : ComposeDraw}

section
variable {accountId : ℤ} {s t : Stores} {blobId : Text}

theorem ownMessage_respects : Respects (Twin V) (ownMessage V.account faults rowId) :=
  .lookup (ownMessage_run rowId) fun _ _ h => h.metadata.messages.find rowId

theorem findOwn_respects {draw : SubmitDraw} : Respects (Twin V) (findOwn draw V.account rowId) :=
  .lookup (findOwn_run rowId) fun _ _ h => h.metadata.messages.find rowId

theorem resolveUpload_respects (k : ℕ) (blobId : Text) :
    Respects (Twin V) (resolveUpload draw V.account k blobId) :=
  .lookup (resolveUpload_run k blobId) fun _ _ h => by simp only [h.metadata.uploads.find]

end

/-! ## Drafts -/

variable {P : Primitives} {C : Composer}

section
variable {ctx : AccountContext}

theorem resolveParts_respects {name : Text → StoredUpload → Text} {k : ℕ} {blobIds : List Text} :
    Respects (Twin V) (resolveParts P draw ctx V.account name k blobIds) := by
  induction blobIds generalizing k with
  | nil => exact .pure
  | cons blobId rest ih =>
    refine .bind_run (resolveUpload_respects k blobId) fun s s' stored t t' hs hok _ ht => ?_
    have hread : V.reads stored.blobHash :=
      hs.metadata.uploadBlobs stored (resolveUpload_ok hok).1.1 (resolveUpload_ok hok).1.2
    have hrest : Respects (Twin V) (do
        let bytes ← (openBlob P (draw.uploadFaults k) stored.blobHash stored.dekWrap
          ctx.accountPriv).mapErr Error.display
        let parts ← resolveParts P draw ctx V.account name (k + 1) rest
        pure ({ name := name blobId stored, contentType := stored.contentType, bytes } :: parts)) :=
      .bind (.mapErr (openBlob_respects hread)) fun _ => .bind ih fun _ => .pure
    exact hrest t t' ht

theorem replyTo_eq (inReplyTo : Option Text) {s s' : Stores} (hs : Twin V s s') :
    replyTo draw V.account inReplyTo s = replyTo draw V.account inReplyTo s' := by
  simp only [replyTo_run, hs.metadata.messages.find]

def Drafts (V : View) (P : Primitives) (draw : Draw) : Prop :=
  ∀ raw, Settled V draw.faults (hashHex P (Crypto.aeadSeal P draw.dek 1 draw.nonce raw))

theorem fileDraft_respects (hnum : V.numbered) (hopened : ¬ V.opened) (hkept : ¬ V.kept)
    (hdraw : Drafts V P draw.sealing) {req : EmailCreateRequest} {reply : ReplyTo}
    {hash : Option Text} :
    Respects (Twin V) (fileDraft P C draw ctx V.account req reply hash) := by
  have hthread : Respects (Twin V) (draftThread draw V.account reply hash) := by
    unfold draftThread
    cases reply.threadId with
    | some => exact .pure
    | none => exact .mapErr (onMetadata_respects (findOrCreateThread_respects rfl))
  refine .bind hthread fun threadId => ?_
  refine .bind (.bind resolveParts_respects fun _ => .bind resolveParts_respects fun _ => .pure)
    fun input => .bind .ofExcept fun raw => ?_
  refine .ite .throw ?_
  refine .bind (.mapErr (sealForAccount_respects (hdraw raw))) fun sealedBlob => ?_
  refine .bind (.mapErr (onMetadata_respects ensureMailbox_respects)) fun drafts => ?_
  exact .bind (.mapErr (onMetadata_respects
    (insertMessage_respects hnum hopened hkept))) fun _ => .pure

theorem createDraft_respects (hnum : V.numbered) (hopened : ¬ V.opened) (hkept : ¬ V.kept)
    (hdraw : Drafts V P draw.sealing) (req : EmailCreateRequest) :
    Respects (Twin V) (createDraft P C draw ctx V.account req) := by
  refine .bind .ofExcept fun _ => ?_
  refine .get_bind (fun s s' hs => by rw [replyTo_eq _ hs]) fun s => ?_
  exact .bind .orPanic fun _ => fileDraft_respects hnum hopened hkept hdraw

end

/-! ## Loops over items -/

variable {ε : Type}

section
variable {ε' ι α β : Type} {R : Stores → Stores → Prop}

theorem eachItem_respects {op : ℕ → ι → Exec Stores ε α} (hop : ∀ k i, Respects R (op k i)) (k : ℕ)
    (items : List ι) : Respects R (eachItem op k items : Exec Stores ε' (List (ι × Except ε α))) := by
  induction items generalizing k with
  | nil => exact .pure
  | cons item _ ih => exact .bind (.attempt (hop k item)) fun _ => .bind (ih (k + 1)) fun _ => .pure

theorem eachWith_respects {op : ℕ → ι → β → Exec Stores ε α} {next : β → α → β}
    (hop : ∀ k i b, Respects R (op k i b)) {k : ℕ} {items : List ι} {b : β} :
    Respects R (eachWith op next k items b : Exec Stores ε' (List (ι × Except ε α) × β)) := by
  induction items generalizing k b with
  | nil => exact .pure
  | cons item _ ih => exact .bind (.attempt (hop k item b)) fun _ => .bind ih fun _ => .pure

end

/-! ## `Email/set` -/

variable {id : Text} {patch : List (Text × Value)}

section
variable {ctx : AccountContext}

theorem setTimer_respects {kind : ScheduledKind} {threadId : ℤ} {value : Value} :
    Respects (TwinQueue V) (setTimer faults V.account kind id threadId value) := by
  have hcancel : ∀ k events, Respects (TwinQueue V) (cancelEach faults k events) := by
    intro k events
    induction events generalizing k with
    | nil => exact .pure
    | cons ev _ ih =>
      exact .bind (.ignore (markEventCancelled_respects k ev.id)) fun _ => ih (k + 1)
  refine .bind ?_ fun _ => .whenSome fun fireAt => .ignore (insertScheduledEvent_respects _)
  refine .bind (.attempt (pendingEventsForAccount_respects kind)) fun found => ?_
  cases found with
  | error => exact .pure
  | ok => exact hcancel 0 _

theorem emailUpdate_respects {io : UpdateIo} :
    Respects (Twin V) (emailUpdate V.account io id patch) := by
  have hentries : ∀ existing k patch p,
      Respects (Twin V) (patchEntries V.account io.entries id existing k patch p) := by
    intro existing k patch p
    induction patch generalizing k p with
    | nil => exact .pure
    | cons _ _ ih =>
      refine .bind ?_ fun _ => ih (k + 1) _
      unfold patchTimer
      split
      · exact .ignore (onQueue_respects setTimer_respects)
      · exact .pure
  unfold emailUpdate
  cases emailRowId id with
  | none => exact .throw
  | some =>
    exact .bind ownMessage_respects fun existing => .bind (hentries existing 0 patch _) fun p =>
        .mapErr (onMetadata_respects updateMessage_respects)

theorem emailDestroy_respects (hnum : ¬ V.numbered) (hkept : V.kept) (id : Text) :
    Respects (Twin V) (emailDestroy V.account faults id) := by
  unfold emailDestroy
  cases emailRowId id with
  | none => exact .throw
  | some rowId =>
    refine .bind_run ownMessage_respects fun s s' existing t t' hs hok _ ht => ?_
    obtain ⟨-, hfound, howner⟩ := ownMessage_ok hok
    have hguard := hs.metadata.unguarded hkept existing (findBy_some _ hfound).1 howner
    have hdiscard : ∀ trash, Respects (Twin V) (trashOrDelete faults rowId existing trash) := by
      intro trash
      refine Respects.ite (.bind (onMetadata_respects (deleteMessage_respects hnum)) fun _ => ?_) ?_
      · exact onBlobs_respects (remove_respects hguard)
      · exact onMetadata_respects updateMessage_respects
    exact Respects.bind (.mapErr (onMetadata_respects ensureMailbox_respects))
      (fun trash => Respects.mapErr (hdiscard trash)) t t' ht

def draftsFiled (P : Primitives) (C : Composer) (io : EmailSetIo) (ctx : AccountContext) (accountId : ℤ)
    (args : EmailSetArgs) (s : Stores) : Stores :=
  ((eachItem (fun k i => createDraft P C (io.drafts k) ctx accountId i.2) 0 args.create :
    Exec Stores MethodError _) s).2

/-- None of the account's messages names a guarded file, drafts included. -/
def Unguarded (V : View) (s : Stores) : Prop :=
  ∀ r ∈ s.metadata.messages, r.accountId = V.account → ∀ c, ¬ V.guards r.blobHash c

theorem emailSet_leads (hnum : V.numbered) (hkept : V.kept) (io : EmailSetIo)
    (hdrafts : ∀ k, Drafts V P (io.drafts k).sealing) (args : EmailSetArgs) :
    Leads (fun s s' => Twin V s s' ∧ Unguarded V (draftsFiled P C io ctx V.account args s))
      (Twin V.loosened) (emailSet P C io ctx V.account args : Exec Stores MethodError EmailSetResult) := by
  have hcreate : ∀ k i, Respects (Twin V.filing)
      (createDraft P C (io.drafts k) ctx V.account (i : Text × EmailCreateRequest).2) := fun k i =>
    createDraft_respects (V := V.filing) hnum not_false not_false (hdrafts k) i.2
  have hcreates : Leads (fun s s' => Twin V s s' ∧ Unguarded V (draftsFiled P C io ctx V.account args s))
      (Twin V.loosened) (eachItem (fun k i => createDraft P C (io.drafts k) ctx V.account i.2) 0
        args.create : Exec Stores MethodError _) := by
    rintro s s' ⟨hs, hfiles⟩
    obtain ⟨hres, hstate⟩ := eachItem_respects hcreate 0 args.create s s' hs.filing
    exact ⟨hres, hstate.filed fun _ => hfiles⟩
  have hupdate : ∀ k i, Respects (Twin V.loosened)
      (emailUpdate V.account (io.updates k) (i : Text × List (Text × Value)).1 i.2) := fun k i =>
    emailUpdate_respects
  have hdestroy : ∀ k id, Respects (Twin V.loosened) (emailDestroy V.account (io.destroys k) id) :=
    fun k id => emailDestroy_respects (V := V.loosened) not_false hkept id
  have hitems : Leads (fun s s' => Twin V s s' ∧ Unguarded V (draftsFiled P C io ctx V.account args s))
      (Twin V.loosened) (emailSetItems P C io ctx V.account args : Exec Stores MethodError _) := by
    refine Leads.bind hcreates (fun created => ?_) fun _ _ h => h
    exact Respects.bind (eachItem_respects hupdate 0 args.update) fun updated =>
      Respects.bind (eachItem_respects hdestroy 0 args.destroy) fun _ => .pure
  refine Leads.bind hitems (fun result => ?_) fun _ _ h => h
  refine Respects.bind (.modify fun s s' hs => ?_) fun _ => .pure
  split
  · exact ⟨hs.blobs, hs.metadata, hs.queue, hs.account⟩
  · exact hs

end

/-! ## `EmailSubmission/set` -/

section
variable {ctx : AccountContext}

def Submits (V : View) (P : Primitives) (draw : SubmitDraw) : Prop :=
  ∀ key raw header, draw.sign key raw = .ok header →
    Settled V draw.faults (hashHex P (utf8 header ++ raw))

theorem submitEmail_respects {draw : SubmitDraw} (hopened : V.opened)
    (hdomain : addressDomain ctx.address = V.domain) (hdraw : Submits V P draw)
    (req : EmailSubmissionCreateRequest) : Respects (Twin V) (submitEmail P draw ctx V.account req) := by
  have hprepare : ∀ rowId, Respects (Twin V) (prepare P draw ctx V.account rowId req) := by
    intro rowId
    refine Respects.bind_run findOwn_respects fun s s' existing t t' hs hok _ ht => ?_
    obtain ⟨-, hfound, howner⟩ := findOwn_ok hok
    have hread := hs.metadata.messageBlobs hopened existing (findBy_some _ hfound).1 howner
    exact Respects.bind .ofExcept (fun _ =>
      Respects.bind (.mapErr (openBlob_respects hread)) fun _ =>
        Respects.bind (.mapErr (onQueue_respects (hdomain ▸ ensureDkimKey_respects _))) fun _ =>
          Respects.pure) t t' ht
  have henqueue : ∀ key raw, Respects (Twin V) (enqueue P draw.faults draw.sign draw.now key
      (newOutbound ctx V.account raw req)) := by
    intro key raw
    refine .bind (.ite .throw ?_) fun blob =>
      onQueue_respects (enqueueInsert_respects rfl blob)
    cases hsign : draw.sign key (newOutbound ctx V.account raw req).rawMessage with
    | error => exact .throw
    | ok header => exact onBlobs_respects (write_respects (hdraw key _ header hsign))
  unfold submitEmail
  cases emailRowId req.emailId with
  | none => exact .throw
  | some rowId =>
    refine .bind (hprepare rowId) fun p => ?_
    refine .bind (.mapErr (henqueue p.2.2 p.2.1)) fun _ => ?_
    refine .bind (.bind (.mapErr (onMetadata_respects
      ensureMailbox_respects)) fun sent => ?_) fun _ => .pure
    exact .mapErr (onMetadata_respects updateMessage_respects)

theorem emailSubmissionSet_respects {draws : ℕ → SubmitDraw} (hopened : V.opened)
    (hdomain : addressDomain ctx.address = V.domain) (hdraws : ∀ k, Submits V P (draws k))
    (k : ℕ) (create : List (Text × EmailSubmissionCreateRequest)) :
    Respects (Twin V)
      (emailSubmissionSet P ctx V.account draws k create : Exec Stores ε EmailSubmissionSetResult) := by
  induction create generalizing k with
  | nil => exact .pure
  | cons item _ ih =>
    refine .bind (.attempt (submitEmail_respects hopened hdomain (hdraws k) item.2))
      fun outcome => ?_
    cases outcome with
    | ok => exact .bind (notify_respects _) fun _ => .bind (ih (k + 1)) fun _ => .pure
    | error => exact .bind (ih (k + 1)) fun _ => .pure

end

/-! ## Reading -/

section
variable {R : Reader} {accountPriv : Bytes}

theorem mailboxGet_respects (totals : ℕ → Faults) :
    Respects (Twin V) (mailboxGet V.account faults totals) := by
  have htotals : ∀ k mailboxes,
      Respects (TwinMetadata V) (mailboxTotals V.account totals k mailboxes) := by
    intro k mailboxes
    induction mailboxes generalizing k with
    | nil => exact .pure
    | cons _ _ ih =>
      exact .bind (.attempt selectMessages_respects) fun _ => .bind (ih (k + 1)) fun _ => .pure
  refine .bind (.mapErr (onMetadata_respects ?_)) fun mailboxes =>
    .mapErr (onMetadata_respects (htotals 0 mailboxes))
  exact .bind ensureMailbox_respects fun _ =>
    query_respects fun _ _ h => h.mailboxes.own

/-- The stores of a call are twins, and its session has the same search index. -/
structure CallTwin (V : View) (c c' : CallState) : Prop where
  stores : Twin V c.stores c'.stores
  searchIndex : c.searchIndex = c'.searchIndex

theorem inStores_respects {α : Type} {x : Exec Stores ε α} (hx : Respects (Twin V) x) :
    Respects (CallTwin V) (inStores x) :=
  .zoom (fun _ _ h => h.stores) (fun _ _ _ _ h ht => { h with stores := ht }) hx

theorem buildIndex_respects (hopened : V.opened) (messages : ℕ → Faults) :
    Respects (Twin V) (buildIndex P R accountPriv V.account faults messages) := by
  have hdocs : ∀ k rows, (∀ m ∈ rows, V.reads m.blobHash) →
      Respects (Twin V) (indexDocs P R accountPriv messages k rows) := by
    intro k rows hrows
    induction rows generalizing k with
    | nil => exact .pure
    | cons stored _ ih =>
      refine .bind (.attempt (openBlob_respects (hrows stored mem_cons_self)))
        fun _ => .bind (ih (k + 1) fun m hm => hrows m (mem_cons_of_mem _ hm))
          fun _ => .pure
  refine .bind sql_respects fun _ => ?_
  refine .bind_run (onMetadata_respects selectMessages_respects)
    fun s s' rows t t' hs hok _ ht => hdocs 0 rows (fun m hm => ?_) t t' ht
  have hquery := (onMetadata_eq hok).1
  rw [messagesForAccount, selectMessages, sql_bind_run] at hquery
  cases hfault : faults .messagesForAccount with
  | some => rw [hfault] at hquery; cases hquery
  | none =>
    rw [hfault] at hquery
    simp only [get_bind_run, pure_run, Prod.mk.injEq, Res.ok.injEq] at hquery
    rw [← hquery.1, latestFirst_perm.mem_iff, mem_filter] at hm
    exact hs.metadata.messageBlobs hopened m hm.1 (by simpa using hm.2)

theorem emailQuery_respects (hopened : V.opened) {messages : ℕ → Faults} {args : EmailQueryArgs} :
    Respects (CallTwin V)
      (emailQuery P R accountPriv V.account V.account faults messages args) := by
  refine .bind (.mapErr ?_) fun _ => .pure
  unfold matchingIds
  split
  · refine .bind ?_ fun _ => .ofExcept
    refine .get_bind (fun c c' hc => by rw [hc.searchIndex]) fun c => ?_
    cases c.searchIndex with
    | some => exact .pure
    | none =>
      refine .bind (inStores_respects (buildIndex_respects hopened _)) fun docs => ?_
      exact .bind (.modify fun _ _ hc => ⟨hc.stores, rfl⟩) fun _ => .pure
  · exact .bind (inStores_respects (onMetadata_respects selectLike_respects)) fun _ => .pure
  · exact .bind (inStores_respects (onMetadata_respects selectLike_respects)) fun _ => .pure
  · refine .bind (inStores_respects (onMetadata_respects ?_)) fun _ =>
      .bind (inStores_respects (onMetadata_respects selectMessages_respects))
        fun _ => .pure
    unfold queriedMailbox
    split
    · exact .pure
    · exact .bind ensureMailbox_respects fun _ => .pure

theorem threadGet_respects (faults : ℕ → Faults) (ids : List Text) :
    Respects (Twin V) (threadGet V.account faults ids) := by
  have hget : ∀ faults id, Respects (Twin V) (getThread V.account faults id) := by
    intro faults id
    unfold getThread
    cases threadRowId id with
    | none => exact .throw
    | some rowId =>
      have hquery : Respects (TwinMetadata V) (messagesInThread faults V.account rowId) :=
        query_respects fun _ _ h => h.messages.select fun r => r.threadId == rowId
      refine .bind (.attempt (onMetadata_respects hquery)) fun found => ?_
      split
      · exact .pure
      · exact .throw
  exact .bind (eachItem_respects (fun k id => hget _ _) _ _) fun _ => .pure

theorem getEmail_respects {rows : List StoredMessage}
    (hrows : ∀ m ∈ rows, m.accountId = V.account → V.reads m.blobHash) {properties : Option (List Text)} :
    Respects (Twin V) (getEmail P R accountPriv V.account rows properties faults id rowId) := by
  unfold getEmail
  cases hfound : (findBy StoredMessage.id rowId rows).filter fun m => m.accountId = V.account with
  | none => exact .throw
  | some stored =>
    obtain ⟨hmem, howner⟩ := filter_eq_some_iff.mp hfound
    have hread := hrows stored (findBy_some _ hmem).1 (by simpa using howner)
    exact .mapErr (.bind (openBlob_respects hread) fun _ => .pure)

theorem getEmail_congr {rows rows' : List StoredMessage}
    (h : Alike StoredMessage.id (fun r => r.accountId) V.account rows rows') :
    getEmail P R accountPriv V.account rows = getEmail P R accountPriv V.account rows' := by
  funext properties faults id rowId
  unfold getEmail
  rw [h.find rowId]

theorem getMessages_cases (faults : Faults) (ids : List ℤ) :
    (∃ e, ∀ m, getMessages faults ids m = (.err e, m)) ∨
      ∃ p : StoredMessage → Bool, ∀ m, getMessages faults ids m = (.ok (m.messages.filter p), m) := by
  unfold getMessages
  split
  · exact .inr ⟨fun _ => false, fun m => by simp⟩
  · cases hfault : faults .messagesByIds with
    | some detail => exact .inl ⟨.storage detail, fun m => by rw [sql_bind_run, hfault]⟩
    | none => exact .inr ⟨_, fun m => by rw [sql_bind_run, hfault]; rfl⟩

theorem emailGet_respects (hopened : V.opened) (io : EmailGetIo) (args : EmailGetArgs) :
    Respects (Twin V) (emailGet P R accountPriv V.account io args) := by
  unfold emailGet
  generalize args.ids.filterMap (fun id => (emailRowId id).map fun rowId => (id, rowId)) = requested
  rcases getMessages_cases io.rows (requested.map Prod.snd) with ⟨e, herr⟩ | ⟨p, hok⟩
  · refine .const (r := .err (serverFail e)) fun s => bind_of_err ?_
    rw [mapErr, onMetadata_run, herr]
  · refine .query_bind (g := fun s => s.metadata.messages.filter p) (fun s => ?_)
      (fun s s' hs => ?_) fun s s' hs => ?_
    · rw [mapErr_ok_iff, onMetadata_run, hok]
    · rw [getEmail_congr (hs.metadata.messages.delete p)]
    · have hrows : ∀ m ∈ s.metadata.messages.filter p, m.accountId = V.account → V.reads m.blobHash :=
        fun m hm => hs.metadata.messageBlobs hopened m (mem_filter.mp hm).1
      exact Respects.bind (eachItem_respects (fun k i => getEmail_respects hrows) 0 requested)
        (fun _ => .bind (.attempt (onQueue_respects
          (pendingEventsForAccount_respects _))) fun _ => .bind (.attempt
            (onQueue_respects (pendingEventsForAccount_respects _))) fun _ => .pure) s s' hs

end

/-! ## Settings -/

section
variable {J : ContactCodec} {amk : Bytes} {existing : List (ℤ × ContactPlain)}

theorem identityGet_respects {address : Text} {ids : Option (List Text)} :
    Respects (Twin V) (identityGet P V.account amk faults address ids) := by
  have hsealed : Respects (Twin V) (getSignatureSealed faults V.account) :=
    query_respects fun _ _ hs => by rw [hs.account]
  refine .bind (.bind (.attempt hsealed) fun _ => .pure) fun _ => ?_
  cases ids with
  | none | some => exact .pure

theorem identitySet_respects (draws : ℕ → SealDraw) (update : List (Text × Option Text)) :
    Respects (Twin V) (identitySet P V.account amk draws update) := by
  have hsealed : ∀ faults sealedText, Respects (Twin V)
      (setSignatureSealed faults V.account sealedText) := by
    intro faults sealedText
    have hfind := fun accounts : List Account => findBy_updateWhere (t := accounts) Account.id
      (p := fun a => a.id == V.account) (f := fun a => { a with signatureSealed := sealedText })
      (fun _ => rfl) V.account
    refine .bind sql_respects fun _ => .modify fun s s' hs => { hs with account := ?_ }
    exact (hfind _).trans ((congrArg _ hs.account).trans (hfind _).symm)
  have hupdate : ∀ draw id text,
      Respects (Twin V) (identityUpdate P V.account amk draw id text) := fun draw id text =>
    .ite .throw (.whenSome fun _ => .bind (.mapErr (hsealed _ _)) fun _ => notify_respects _)
  exact .bind (eachItem_respects (fun k i => hupdate _ _ _) _ _) fun _ => .pure

theorem ownContact_respects (rowId : ℤ) :
    Respects (Twin V) (ownContact V.account faults rowId) :=
  .lookup (ownContact_run rowId) fun _ _ h => h.metadata.contacts.find rowId

theorem getContactObject_respects :
    Respects (Twin V) (getContactObject P J V.account amk faults id) := by
  unfold getContactObject
  cases contactRowId id with
  | none => exact .throw
  | some rowId =>
    have hrun : ∀ s, (onMetadata (getContact faults rowId)).attempt s =
        ((.ok ((faults .contactById).elim (.ok (findBy StoredContact.id rowId s.metadata.contacts))
          fun detail => .error (.storage detail)), s) : Res Unit _ × Stores) := fun s => by
      rw [attempt, onMetadata_run, getContact, sql_bind_run]
      cases faults .contactById <;> rfl
    refine .query_bind hrun (fun s s' hs => ?_) fun s s' hs => Respects.ofOption s s' hs
    cases faults .contactById with
    | some => rfl
    | none => simp only [Option.elim, Except.toOption, join_some, hs.metadata.contacts.find rowId]

theorem contactGet_respects (faults : ℕ → Faults) (ids : Option (List Text)) :
    Respects (Twin V) (contactGet P J V.account amk faults ids) := by
  cases ids with
  | none => exact .bind (.attempt (onMetadata_respects contactsForAccount_respects)) fun _ => .pure
  | some =>
    exact .bind (eachItem_respects (fun k id => getContactObject_respects) _ _) fun _ => .pure

theorem contactCreate_respects (hnum : V.numbered) {draw : SealDraw} {req : ContactCreateRequest} :
    Respects (Twin V) (contactCreate P J V.account amk draw req existing) :=
  .bind .ofExcept fun _ => .bind .throwIf fun _ =>
    .bind (.mapErr (onMetadata_respects (insertContact_respects hnum _))) fun _ => .pure

theorem contactUpdate_respects {draw : SealDraw} :
    Respects (Twin V) (contactUpdate P J V.account amk draw id patch existing) := by
  unfold contactUpdate
  cases contactRowId id with
  | none => exact .throw
  | some rowId =>
    refine .bind (ownContact_respects rowId) fun stored => ?_
    refine .bind .ofExcept fun current => ?_
    refine .bind .ofExcept fun _ => .bind .throwIf fun _ => ?_
    exact .bind (.mapErr (onMetadata_respects updateContact_respects)) fun _ => .pure

theorem contactDestroy_respects (hnum : ¬ V.numbered) :
    Respects (Twin V) (contactDestroy V.account faults id) := by
  unfold contactDestroy
  cases contactRowId id with
  | none => exact .throw
  | some rowId =>
    exact .bind (ownContact_respects rowId) fun stored =>
      .mapErr (onMetadata_respects (deleteContact_respects hnum))

theorem contactSet_leads (hnum : V.numbered) (io : ContactSetIo) (args : ContactSetArgs) :
    Leads (Twin V) (Twin V.loosened) (contactSet P J V.account amk io args) := by
  have hloosen : ∀ s s', Twin V s s' → Twin V.loosened s s' := fun s s' hs => hs.loosened
  have hdestroy : ∀ k id, Respects (Twin V.loosened) (contactDestroy V.account (io.destroys k) id) :=
    fun k id => contactDestroy_respects not_false
  have hitems : Leads (Twin V) (Twin V.loosened) (contactSetItems P J V.account amk io args) := by
    refine .bind (.attempt (onMetadata_respects contactsForAccount_respects))
      (fun rows => ?_) hloosen
    refine .bind (eachWith_respects (fun k i book => contactCreate_respects hnum))
      (fun creates => ?_) hloosen
    refine Leads.bind (eachWith_respects (fun k i book => contactUpdate_respects))
      (fun updates => ?_) hloosen
    refine Leads.weaken ?_ hloosen
    exact Respects.bind (eachItem_respects hdestroy _ _) fun _ => .pure
  refine Leads.bind hitems (fun result => ?_) fun _ _ h => h
  refine Respects.bind (.modify fun s s' hs => ?_) fun _ => .pure
  split
  · exact ⟨hs.blobs, hs.metadata, hs.queue, hs.account⟩
  · exact hs

end

/-! ## Method calls -/

section
variable {E : Environment} {io : CallIo} {ctx : CallContext}

/-- The view of a call: it is for the account of the call's context, and nothing fails in a way that
would tell of files of other accounts. -/
structure CallView (V : View) (E : Environment) (io : CallIo) (ctx : CallContext) : Prop where
  account : V.account = ctx.accountId
  domain : V.domain = addressDomain ctx.address
  numbered : V.numbered
  opened : V.opened
  kept : V.kept
  searched : ctx.searched = ctx.accountId
  drafts : ∀ k, Drafts V E.P (io.emailSet.drafts k).sealing
  submits : ∀ k, Submits V E.P (io.submissions k)

theorem CallTwin.loosened {c c' : CallState} (h : CallTwin V c c') : CallTwin V.loosened c c' :=
  ⟨h.stores.loosened, h.searchIndex⟩

def afterDrafts (E : Environment) (io : CallIo) (ctx : CallContext) (call : MethodCall) (s : Stores) :
    Stores :=
  match call.invocation with
  | .emailSet (.ok (_, args)) =>
    draftsFiled E.P E.C io.emailSet ctx.toAccountContext ctx.accountId args s
  | _ => s

theorem dispatch_leads (hV : CallView V E io ctx) (call : MethodCall) :
    Leads (fun c c' => CallTwin V c c' ∧ Unguarded V (afterDrafts E io ctx call c.stores))
      (CallTwin V.loosened) (dispatch E io ctx call : Exec CallState ε MethodResponse) := by
  have hloosen : ∀ c c', CallTwin V c c' → CallTwin V.loosened c c' := fun c c' h => h.loosened
  -- a method on the stores, with what `Q` says of the states it is called in
  have hstores : ∀ {α β : Type} {Q : CallState → CallState → Prop} {args : Parsed α}
      {x : α → Exec Stores MethodError β} {f : β → Answer}, (∀ c c', Q c c' → CallTwin V c c') →
      (∀ id a, args = .ok (id, a) → ∀ c c', Q c c' → (x a c.stores).1 = (x a c'.stores).1 ∧
        Twin V.loosened (x a c.stores).2 (x a c'.stores).2) →
      Leads Q (CallTwin V.loosened) (withArgs ctx.accountId args fun a => do
        let result ← inStores (x a)
        pure (f result)) := by
    intro α β Q args x f hQ hx
    unfold withArgs
    cases args with
    | error => exact Leads.weaken (Respects.leads .throw hloosen) hQ
    | ok pair =>
      dsimp only
      split
      · exact Leads.weaken (Respects.leads .throw hloosen) hQ
      · refine Leads.bind (fun c c' hc => ?_) (fun _ => Respects.pure) fun _ _ h => h
        obtain ⟨hres, hstate⟩ := hx pair.1 pair.2 rfl c c' hc
        exact ⟨hres, hstate, (hQ c c' hc).searchIndex⟩
  have hmethod : ∀ {α β : Type} {Q : CallState → CallState → Prop} {args : Parsed α}
      {x : α → Exec Stores MethodError β} {f : β → Answer}, (∀ c c', Q c c' → CallTwin V c c') →
      (∀ a, Respects (Twin V) (x a)) →
      Leads Q (CallTwin V.loosened) (withArgs ctx.accountId args fun a => do
        let result ← inStores (x a)
        pure (f result)) := by
    intro α β Q args x f hQ hx
    refine hstores hQ fun _ a _ c c' hc => ?_
    exact (hx a).leads (fun s s' hs => hs.loosened) _ _ (hQ c c' hc).stores
  refine Leads.bind (Leads.attempt ?_) (fun _ => Respects.pure) fun _ _ h => h
  unfold afterDrafts
  cases call.invocation with
  | mailboxGet => exact hmethod (fun _ _ h => h.1) fun _ => hV.account ▸ mailboxGet_respects _
  | emailQuery args =>
    simp only [invoke, withArgs]
    refine Leads.weaken ?_ fun _ _ h => h.1
    cases args with
    | error => exact Respects.leads .throw hloosen
    | ok =>
      dsimp only
      split
      · exact Respects.leads .throw hloosen
      · rw [hV.searched, ← hV.account]
        exact Respects.leads (.bind (emailQuery_respects hV.opened) fun _ =>
          Respects.pure) hloosen
  | emailGet =>
    exact hmethod (fun _ _ h => h.1) fun _ => hV.account ▸ emailGet_respects hV.opened _ _
  | emailSet =>
    refine hstores (fun _ _ h => h.1) fun id a hargs c c' hc => ?_
    subst hargs
    rw [← hV.account] at hc ⊢
    exact emailSet_leads hV.numbered hV.kept _ hV.drafts a _ _ ⟨hc.1.stores, hc.2⟩
  | emailSubmissionSet =>
    exact hmethod (fun _ _ h => h.1) fun _ => hV.account ▸
      emailSubmissionSet_respects hV.opened hV.domain.symm hV.submits _ _
  | threadGet => exact hmethod (fun _ _ h => h.1) fun _ => hV.account ▸ threadGet_respects _ _
  | identityGet => exact hmethod (fun _ _ h => h.1) fun _ => hV.account ▸ identityGet_respects
  | identitySet => exact hmethod (fun _ _ h => h.1) fun _ => hV.account ▸ identitySet_respects _ _
  | contactGet => exact hmethod (fun _ _ h => h.1) fun _ => hV.account ▸ contactGet_respects _ _
  | contactSet =>
    refine hstores (fun _ _ h => h.1) fun _ a _ c c' hc => ?_
    rw [← hV.account]
    exact contactSet_leads hV.numbered _ a _ _ hc.1.stores
  | unknown => exact Leads.weaken (Respects.leads .throw hloosen) fun _ _ h => h.1

end
end Litterae.Jmap
