import Litterae.Jmap.Compose
import Litterae.Queue.Enqueue

/-! # Submitting a draft (`EmailSubmission/set` in `jmap/src/api.rs`)

`submitEmail` opens the stored message, enqueues it for the envelope's recipients and only then
files it under Sent. `submitEmail_error_keeps_queue_iff` says for which failure patterns an error
reported to the client means that nothing was queued.
-/

namespace Litterae.Jmap
open Foundations Store Delivery Queue Exec

structure EmailSubmissionCreateRequest where
  emailId : Text
  rcptTo : List Text
  deriving DecidableEq

/-- What one submission draws from its surroundings: the clock, the signer, a fresh DKIM key pair
should it need one, and which of its calls fail. -/
structure SubmitDraw where
  now : ℤ
  sign : DomainKey → Bytes → Except Error Text
  generated : Except Text (Bytes × Bytes)
  faults : Faults

def checkEnvelope (rcptTo : List Text) : Except Text Unit :=
  if rcptTo.isEmpty then .error "envelope has no recipients"
  else if 100 < rcptTo.length then .error "envelope has too many recipients"
  else
    match rcptTo.find? fun a => !Input.validEmailAddress a with
    | some invalid => .error ("invalid envelope recipient: " ++ invalid)
    | none => .ok ()

def addressDomain (address : Text) : Text :=
  match rsplitOnce '@' address with
  | some (_, domain) => domain
  | none => address

def sentKeywords (keywords : Text) : Text :=
  join "," ((keywords.splitOn ',').filter fun k => !k.isEmpty && k != keywordDraft)

section
variable (P : Primitives) (draw : SubmitDraw) (ctx : AccountContext) (accountId : ℤ)

def findOwn (rowId : ℤ) : Exec Stores Text StoredMessage := do
  match ← (onMetadata (getMessage draw.faults rowId)).mapErr Error.display with
  | some m => if m.accountId = accountId then pure m else Exec.throw "no such email"
  | none => Exec.throw "no such email"

def newOutbound (raw : Bytes) (req : EmailSubmissionCreateRequest) : NewOutbound where
  accountId := accountId
  envelopeFrom := ctx.address
  rawMessage := raw
  recipients := req.rcptTo
  isDsn := false
  dsnEnvid := none
  dsnRet := none

/-- `submit_email` up to the call of `enqueue`: the message row, its content and the signing key. -/
def prepare (rowId : ℤ) (req : EmailSubmissionCreateRequest) :
    Exec Stores Text (StoredMessage × Bytes × DomainKey) := do
  let existing ← findOwn draw accountId rowId
  ofExcept (checkEnvelope req.rcptTo)
  let raw ← (openMessage P draw.faults existing ctx.accountPriv).mapErr Error.display
  let key ← (onQueue (ensureDkimKey draw.faults draw.generated
    (addressDomain ctx.address))).mapErr Error.display
  pure (existing, raw, key)

/-- `submit_email` after `enqueue`. -/
def fileSent (rowId : ℤ) (existing : StoredMessage) : Exec Stores Text Unit := do
  let sent ← (onMetadata (ensureMailbox draw.faults accountId .sent)).mapErr Error.display
  (onMetadata (updateMessage draw.faults rowId (some sent.id)
    (some (sentKeywords existing.keywords)))).mapErr Error.display

def submitEmail (req : EmailSubmissionCreateRequest) : Exec Stores Text ℤ :=
  match emailRowId req.emailId with
  | none => Exec.throw "invalid emailId"
  | some rowId => do
    let (existing, raw, key) ← prepare P draw ctx accountId rowId req
    let _ ← (enqueue P draw.faults draw.sign draw.now key
      (newOutbound ctx accountId raw req)).mapErr Error.display
    fileSent draw accountId rowId existing
    pure rowId

/-- What `EmailSubmission/set` reports: for each key a created row or the error's text. -/
structure EmailSubmissionSetResult where
  created : List (Text × ℤ)
  notCreated : List (Text × Text)
  deriving DecidableEq

/-- The loop of `email_submission_set` over the requests in the order the map yields them; the
`k`-th has its own draw. -/
def emailSubmissionSet {ε : Type} (draws : ℕ → SubmitDraw) :
    ℕ → List (Text × EmailSubmissionCreateRequest) → Exec Stores ε EmailSubmissionSetResult
  | _, [] => pure { created := [], notCreated := [] }
  | k, (key, req) :: rest => do
    match ← (submitEmail P (draws k) ctx accountId req).attempt with
    | .ok emailId => do
      Exec.modify (notify accountId)
      let r ← emailSubmissionSet draws (k + 1) rest
      pure { r with created := (key, emailId) :: r.created }
    | .error e => do
      let r ← emailSubmissionSet draws (k + 1) rest
      pure { r with notCreated := (key, e) :: r.notCreated }

end

/-! ## What an error means for the queue -/

section
variable (P : Primitives) (draw : SubmitDraw) (ctx : AccountContext) (accountId : ℤ)
  {req : EmailSubmissionCreateRequest} {existing : StoredMessage} {s : Stores} {rowId : ℤ}
  {raw : Bytes} {key : DomainKey}

/-- The message exists, belongs to the account and opens, the envelope is acceptable, and the
domain has or gets a signing key. -/
structure Prepared (rowId : ℤ) (req : EmailSubmissionCreateRequest) (s : Stores)
    (existing : StoredMessage) (raw : Bytes) (key : DomainKey) : Prop where
  query : draw.faults .messageById = none
  found : findBy StoredMessage.id rowId s.metadata.messages = some existing
  owner : existing.accountId = accountId
  envelope : checkEnvelope req.rcptTo = .ok ()
  opens : (openMessage P draw.faults existing ctx.accountPriv s).1 = .ok raw
  signer : (ensureDkimKey draw.faults draw.generated (addressDomain ctx.address) s.queue).1 = .ok key

/-- The submission gets as far as inserting the `outbound` row. -/
def Admitted (req : EmailSubmissionCreateRequest) (s : Stores) : Prop :=
  ∃ rowId existing raw key, emailRowId req.emailId = some rowId ∧
    Prepared P draw ctx accountId rowId req s existing raw key ∧
    BlobWritten P draw.faults draw.sign key (newOutbound ctx accountId raw req) s ∧
    RowInserted draw.faults draw.now (newOutbound ctx accountId raw req) s.queue

/-- None of the calls that follow the insert of the `outbound` row fails: the recipient inserts,
the lookup of the Sent mailbox and the two updates of the message. -/
def LaterCallsSucceed (faults : Faults) (recipients : ℕ) : Prop :=
  (∀ k < recipients, faults (.rcptInsert k) = none) ∧
    (∀ k < 6, faults (.mailboxInsert k) = none) ∧ faults .mailboxByRole = none ∧
    faults .messageSetMailbox = none ∧ faults .messageSetKeywords = none

def SameRows (s t : Stores) : Prop :=
  t.queue.outbound = s.queue.outbound ∧ t.queue.rcpts = s.queue.rcpts

variable {P draw ctx accountId}

theorem findOwn_run (rowId : ℤ) (s : Stores) :
    findOwn draw accountId rowId s =
      (lookedUp ((draw.faults .messageById).map fun detail => (Error.storage detail).display)
        "no such email" ((findBy StoredMessage.id rowId s.metadata.messages).filter fun m =>
          decide (m.accountId = accountId)), s) := by
  rw [findOwn, bind_run, mapErr, onMetadata_run, getMessage, sql_bind_run]
  cases draw.faults .messageById with
  | some => rfl
  | none =>
    simp only [get_bind_run, pure_run]
    cases findBy StoredMessage.id rowId s.metadata.messages with
    | none => rfl
    | some => exact check_run

theorem findOwn_ok {t : Stores} {m : StoredMessage} (h : findOwn draw accountId rowId s = (.ok m, t)) :
    (t = s ∧ draw.faults .messageById = none) ∧
      findBy StoredMessage.id rowId s.metadata.messages = some m ∧ m.accountId = accountId := by
  rw [findOwn_run, Prod.mk.injEq, lookedUp_ok, Option.filter_eq_some_iff, Option.map_eq_none_iff] at h
  obtain ⟨⟨hquery, hfound, howner⟩, rfl⟩ := h
  exact ⟨⟨rfl, hquery⟩, hfound, of_decide_eq_true howner⟩

theorem findOwn_state (rowId : ℤ) (s : Stores) : (findOwn draw accountId rowId s).2 = s := by
  rw [findOwn_run]

theorem prepare_ok {t : Stores}
    (h : prepare P draw ctx accountId rowId req s = (.ok (existing, raw, key), t)) :
    Prepared P draw ctx accountId rowId req s existing raw key := by
  obtain ⟨m, s₁, hown, h₁⟩ := bind_ok h
  obtain ⟨u, s₂, hcheck, h₂⟩ := bind_ok h₁
  obtain ⟨bytes, s₃, hopen, h₃⟩ := bind_ok h₂
  obtain ⟨k, s₄, hkey, h₄⟩ := bind_ok h₃
  obtain ⟨⟨rfl, rfl, rfl⟩, rfl⟩ := h₄
  obtain ⟨⟨rfl, hquery⟩, hfound, howner⟩ := findOwn_ok hown
  obtain ⟨henv, rfl⟩ := ofExcept_ok hcheck
  have hraw := mapErr_ok_iff.mp hopen
  obtain rfl := (congrArg Prod.snd hraw).symm.trans (openBlob_state _ _ _ _ _)
  have hsigner := (onQueue_eq (mapErr_ok_iff.mp hkey)).1
  exact ⟨hquery, hfound, howner, henv, congrArg Prod.fst hraw, congrArg Prod.fst hsigner⟩

theorem prepare_of_prepared (h : Prepared P draw ctx accountId rowId req s existing raw key) :
    ∃ q, prepare P draw ctx accountId rowId req s = (.ok (existing, raw, key), { s with queue := q }) ∧
      q.outbound = s.queue.outbound ∧ q.rcpts = s.queue.rcpts := by
  have hown : findOwn draw accountId rowId s = (.ok existing, s) := by
    rw [findOwn_run, h.query, h.found]
    simp [lookedUp, Option.filter, h.owner]
  have hcheck : (ofExcept (checkEnvelope req.rcptTo) : Exec Stores Text Unit) s = (.ok (), s) := by
    rw [h.envelope]
    rfl
  have hopen : (openMessage P draw.faults existing ctx.accountPriv).mapErr Error.display s =
      (.ok raw, s) := by
    rw [mapErr_ok_iff]
    exact Prod.ext h.opens (openBlob_state _ _ _ _ s)
  refine ⟨(ensureDkimKey draw.faults draw.generated (addressDomain ctx.address) s.queue).2, ?_,
    ensureDkimKey_same _ (fun _ _ => rfl) _ _ s.queue,
    ensureDkimKey_same _ (fun _ _ => rfl) _ _ s.queue⟩
  have hkey : (onQueue (ensureDkimKey draw.faults draw.generated
      (addressDomain ctx.address))).mapErr Error.display s =
      (.ok key, { s with queue := (ensureDkimKey draw.faults draw.generated
        (addressDomain ctx.address) s.queue).2 }) := by
    rw [mapErr_ok_iff, onQueue_run, h.signer]
  rw [prepare, bind_of_ok hown, bind_of_ok hcheck, bind_of_ok hopen, bind_of_ok hkey]
  rfl

instance : IsPreorder Stores SameRows where
  refl := fun _ => ⟨rfl, rfl⟩
  trans := fun _ _ _ h h' => ⟨h'.1.trans h.1, h'.2.trans h.2⟩

theorem prepare_rows :
    Keeps SameRows (prepare P draw ctx accountId rowId req) := by
  refine .bind ?_ fun existing => ?_
  · refine .bind (.mapErr fun s => ⟨rfl, rfl⟩) fun found => ?_
    cases found with
    | none => exact .throw
    | some => exact .ite .pure .throw
  · refine .bind .ofExcept fun _ => ?_
    refine .bind (.mapErr fun s => ?_) fun raw => ?_
    · rw [openMessage, openBlob_state]
      exact refl s
    · refine .bind (.mapErr fun s => ?_) fun _ => .pure
      exact ⟨ensureDkimKey_same _ (fun _ _ => rfl) _ _ s.queue,
        ensureDkimKey_same _ (fun _ _ => rfl) _ _ s.queue⟩

theorem fileSent_isOk_iff (draw : SubmitDraw) (accountId rowId : ℤ) (existing : StoredMessage) (s : Stores) :
    (fileSent draw accountId rowId existing s).1.isOk ↔
      (∀ k < 6, draw.faults (.mailboxInsert k) = none) ∧ draw.faults .mailboxByRole = none ∧
        draw.faults .messageSetMailbox = none ∧ draw.faults .messageSetKeywords = none := by
  have hupdate : ∀ (mailbox : Mailbox) (t : Stores), (((onMetadata (updateMessage draw.faults rowId
      (some mailbox.id) (some (sentKeywords existing.keywords)))).mapErr Error.display t).1.isOk ↔
      draw.faults .messageSetMailbox = none ∧ draw.faults .messageSetKeywords = none) := by
    intro mailbox t
    rw [isOk_mapErr, onMetadata_run]
    exact updateMessage_isOk_iff draw.faults rowId mailbox.id _ t.metadata
  rw [fileSent, isOk_bind, ← and_assoc, ← ensureMailbox_isOk_iff draw.faults accountId .sent s.metadata,
    Res.isOk_iff]
  constructor
  · rintro ⟨mailbox, t, hsent, hdone⟩
    have hm := (onMetadata_eq (mapErr_ok_iff.mp hsent)).1
    exact ⟨⟨mailbox, congrArg Prod.fst hm⟩, (hupdate mailbox t).mp hdone⟩
  · rintro ⟨⟨mailbox, hm⟩, hset⟩
    refine ⟨mailbox, _, mapErr_ok_iff.mpr (Prod.ext hm rfl), (hupdate mailbox _).mpr hset⟩

theorem fileSent_noPanic : NoPanic (fileSent draw accountId rowId existing) :=
  .bind (.mapErr (.zoom (ensureMailbox_noPanic _ _))) fun _ =>
    .mapErr (.zoom (updateMessage_noPanic _ _ _))

theorem fileSent_queue : Keeps (Same Stores.queue) (fileSent draw accountId rowId existing) :=
  .bind (.mapErr fun _ => rfl) fun _ => .mapErr fun _ => rfl

theorem submitEmail_of_prepared (hid : emailRowId req.emailId = some rowId)
    (hprep : Prepared P draw ctx accountId rowId req s existing raw key) :
    ∃ q, q.outbound = s.queue.outbound ∧ q.rcpts = s.queue.rcpts ∧
      submitEmail P draw ctx accountId req s = ((enqueue P draw.faults draw.sign draw.now key
            (newOutbound ctx accountId raw req)).mapErr Error.display >>= fun _ =>
          (fileSent draw accountId rowId existing >>= fun _ => pure rowId))
          { s with queue := q } := by
  obtain ⟨q, hrun, ho, hr⟩ := prepare_of_prepared hprep
  refine ⟨q, ho, hr, ?_⟩
  unfold submitEmail
  rw [hid]
  exact bind_of_ok hrun

theorem submitEmail_admitted (h : Admitted P draw ctx accountId req s) :
    (∃ o, (submitEmail P draw ctx accountId req s).2.queue.outbound = s.queue.outbound ++ [o]) ∧
      (submitEmail P draw ctx accountId req s).1.returns ∧
      ((submitEmail P draw ctx accountId req s).1.isOk ↔
        LaterCallsSucceed draw.faults req.rcptTo.length) := by
  obtain ⟨rowId, existing, raw, key, hid, hprep, hblob, hrow⟩ := h
  obtain ⟨q, ho, hr, hrun⟩ := submitEmail_of_prepared hid hprep
  have hrow' := (rowInserted_congr ho hr).mpr hrow
  obtain ⟨⟨o, hout⟩, hret, hok⟩ :=
    enqueue_inserted (s := { s with queue := q }) hblob hrow'
  have hrest : ∀ t, ((fileSent draw accountId rowId existing >>= fun _ => pure rowId :
      Exec Stores Text ℤ) t).2.queue = t.queue := fun t =>
    Keeps.bind fileSent_queue (fun _ => Keeps.pure) t
  rw [hrun]
  refine ⟨⟨o, ?_⟩, ?_, ?_⟩
  · refine state_bind (p := fun t : Stores => t.queue.outbound = s.queue.outbound ++ [o]) ?_
      fun a t ht => ?_
    · rw [state_mapErr, hout, ho]
    · rw [hrest, ← ho, ← hout, ← state_mapErr Error.display, ht]
  · refine returns_bind (by rw [returns_mapErr]; exact hret) fun a t _ => ?_
    exact NoPanic.bind fileSent_noPanic (fun _ => NoPanic.pure) t
  · rw [isOk_bind, LaterCallsSucceed]
    constructor
    · rintro ⟨a, t, hq, hfile⟩
      obtain ⟨u, t', hsent, -⟩ := isOk_bind.mp hfile
      refine ⟨hok.mp ?_, (fileSent_isOk_iff draw accountId rowId existing t).mp ?_⟩
      · rw [mapErr_ok_iff.mp hq]
        rfl
      · rw [hsent]
        rfl
    · rintro ⟨hinserts, hfile⟩
      obtain ⟨a, ha⟩ := Res.isOk_iff.mp (hok.mpr hinserts)
      refine ⟨a, _, mapErr_ok_iff.mpr (Prod.ext ha rfl), isOk_bind.mpr ?_⟩
      obtain ⟨u, hu⟩ := Res.isOk_iff.mp ((fileSent_isOk_iff draw accountId rowId existing _).mpr hfile)
      exact ⟨u, _, Prod.ext hu rfl, rfl⟩

theorem submitEmail_not_admitted (h : ¬ Admitted P draw ctx accountId req s) :
    SameRows s (submitEmail P draw ctx accountId req s).2 := by
  cases hid : emailRowId req.emailId with
  | none =>
    unfold submitEmail
    rw [hid]
    exact ⟨rfl, rfl⟩
  | some rowId =>
    match hrun : prepare P draw ctx accountId rowId req s with
    | (.ok (existing, raw, key), t) =>
      have hprep := prepare_ok hrun
      obtain ⟨q, ho, hr, hsubmit⟩ := submitEmail_of_prepared hid hprep
      have hno : ¬ (BlobWritten P draw.faults draw.sign key (newOutbound ctx accountId raw req)
          { s with queue := q } ∧
          RowInserted draw.faults draw.now (newOutbound ctx accountId raw req) q) := by
        rintro ⟨hblob, hrow⟩
        exact h ⟨rowId, existing, raw, key, hid, hprep, hblob, (rowInserted_congr ho hr).mp hrow⟩
      obtain ⟨hqueue, hok, -⟩ := enqueue_refused hno
      rw [hsubmit]
      refine state_bind ?_ fun a t ht => ?_
      · rw [state_mapErr, SameRows, hqueue]
        exact ⟨ho, hr⟩
      · rw [mapErr_ok_iff.mp ht] at hok
        simp [Res.isOk] at hok
    | (.err e, t) =>
      have hsame := prepare_rows.run hrun
      unfold submitEmail
      simp only [hid]
      rw [bind_of_err hrun]
      exact hsame
    | (.panic, t) =>
      have hsame := prepare_rows.run hrun
      unfold submitEmail
      simp only [hid]
      rw [bind_of_panic hrun]
      exact hsame

/-- An error of `submit_email` leaves the mail tables of the queue as they were exactly when the
submission does not get as far as its `outbound` row, or no later call fails. -/
theorem submitEmail_error_keeps_queue_iff (P : Primitives) (draw : SubmitDraw) (ctx : AccountContext)
    (accountId : ℤ) (req : EmailSubmissionCreateRequest) (s : Stores) :
    ((∃ e, (submitEmail P draw ctx accountId req s).1 = .err e) →
        SameRows s (submitEmail P draw ctx accountId req s).2) ↔
      (Admitted P draw ctx accountId req s →
        LaterCallsSucceed draw.faults req.rcptTo.length) := by
  constructor
  · intro hkeeps hadm
    obtain ⟨⟨o, hout⟩, hret, hok⟩ := submitEmail_admitted hadm
    by_contra hlater
    have hfail := mt hok.mp hlater
    have herr : ∃ e, (submitEmail P draw ctx accountId req s).1 = .err e := by
      cases hres : (submitEmail P draw ctx accountId req s).1 with
      | ok => rw [hres] at hfail; simp [Res.isOk] at hfail
      | err e => exact ⟨e, rfl⟩
      | panic => rw [hres] at hret; simp [Res.returns] at hret
    have hlen := congrArg List.length ((hkeeps herr).1.symm.trans hout)
    simp at hlen
  · rintro hlater ⟨e, he⟩
    by_cases hadm : Admitted P draw ctx accountId req s
    · have hok := (submitEmail_admitted hadm).2.2.mpr (hlater hadm)
      rw [he] at hok
      simp [Res.isOk] at hok
    · exact submitEmail_not_admitted hadm

end

/-! ## A reported failure that is sent twice -/

def sampleSign (_ : DomainKey) (_ : Bytes) : Except Error Text :=
  .ok "DKIM-Signature: v=1\r\n"

def sampleSubmitDraw (faults : Faults) : SubmitDraw :=
  { now := 1700000000, sign := sampleSign, generated := .ok ([1], [2]), faults }

def sampleDraftStores : Stores :=
  (createDraft (Primitives.sample fun _ => none) sampleComposer sampleComposeDraw sampleContext 1
    (sampleRequest "hi") Stores.empty).2

def sampleSubmit (faults : Faults) (s : Stores) : Res Text ℤ × Stores :=
  submitEmail (Primitives.sample fun _ => none) (sampleSubmitDraw faults) sampleContext 1
    { emailId := "m1", rcptTo := ["bob@example.net"] } s

/-- The lookup of the Sent mailbox fails: the client is told so and tries again, and the message is
queued for its recipient twice. -/
theorem submitEmail_error_then_retry :
    let first := sampleSubmit (Faults.only .mailboxByRole "database is locked") sampleDraftStores
    let second := sampleSubmit Faults.none first.2
    first.1 = .err "storage error: database is locked" ∧
      first.2.queue.rcpts.map OutboundRecipient.rcptTo = ["bob@example.net".toList] ∧
      second.1 = .ok 1 ∧
      second.2.queue.rcpts.map OutboundRecipient.rcptTo =
        ["bob@example.net".toList, "bob@example.net"] := by
  decide +kernel

end Litterae.Jmap
