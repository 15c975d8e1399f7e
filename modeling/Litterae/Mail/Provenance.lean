import Litterae.Mail.Reading

/-! # Whose messages are sent

`submit_email` asks of a stored message that its row is the account's, not that the account composed
it. What `create_draft` stored is told apart from what was delivered by the empty `remote_ip`, and a
submission of such a row sends a message the account composed (`submits_own_compositions`).
-/

namespace Litterae.Mail
open Foundations Store Delivery Queue Jmap Exec Crypto List Option

/-! ## Where rows come from -/

/-- The columns of a message row that no update touches and that lead to its content. -/
structure Origin where
  accountId : ℤ
  remoteIp : Text
  blobHash : Text
  dekWrap : Bytes

def originOf (m : NewMessage) : Origin := ⟨m.accountId, m.remoteIp, m.blobHash, m.dekWrap⟩

def origins (s : Stores) : List Origin := s.metadata.messages.map fun m => originOf m.toNewMessage

/-- The rows after are rows from before, in these columns, or new ones as `N` says. -/
def Adds (N : Origin → Prop) (s t : Stores) : Prop := ∀ o ∈ origins t, o ∈ origins s ∨ N o

variable {N : Origin → Prop}

section
variable {s t : Stores}

instance : IsPreorder Stores (Adds N) where
  refl := fun _ _ ho => .inl ho
  trans := fun _ _ _ h h' o ho => (h' o ho).elim (h o) .inr

theorem Adds.of_origins (h : origins t = origins s) : Adds N s t := fun _ ho => .inl (h ▸ ho)

theorem Adds.of_messages (h : t.metadata.messages = s.metadata.messages) : Adds N s t :=
  .of_origins (by rw [origins, origins, h])

theorem setMailbox_origins (rowId mailboxId : ℤ) (s : Stores) :
    origins { s with metadata := setMailbox rowId mailboxId s.metadata } = origins s :=
  map_updateWhere (f := fun r : StoredMessage => { r with mailboxId })
    (fun m => originOf m.toNewMessage) (fun _ => Eq.refl _) s.metadata.messages

theorem setKeywords_origins (rowId : ℤ) (keywords : Text) (s : Stores) :
    origins { s with metadata := setKeywords rowId keywords s.metadata } = origins s :=
  map_updateWhere (f := fun r : StoredMessage => { r with keywords })
    (fun m => originOf m.toNewMessage) (fun _ => Eq.refl _) s.metadata.messages

end

/-! ## What each operation adds -/

variable {faults : Faults} {raw : Bytes} {hostname : Text} {P : Primitives} {accountId : ℤ}
  {ctx : AccountContext} {draw : SubmitDraw}

section

theorem ensureMailbox_adds (role : Role) :
    Keeps (Adds N) (onMetadata (ensureMailbox faults accountId role)) := fun s =>
  .of_messages (ensureMailbox_same (g := MetadataStore.messages) (fun _ _ => rfl) _ _ s.metadata)

theorem updateMessage_adds {rowId : ℤ} {mailboxId : Option ℤ} {keywords : Option Text} :
    Keeps (Adds N) (onMetadata (updateMessage faults rowId mailboxId keywords)) := by
  refine onMetadata_keeps (.bind (.whenSome fun b => ?_) fun _ => .whenSome fun k => ?_)
  · exact .bind sql_keeps fun _ => .modify fun m s =>
      .of_origins (setMailbox_origins rowId b { s with metadata := m })
  · exact .bind sql_keeps fun _ => .modify fun m s =>
      .of_origins (setKeywords_origins rowId k { s with metadata := m })

theorem deleteMessage_adds (rowId : ℤ) :
    Keeps (Adds N) (onMetadata (deleteMessage faults rowId)) := by
  refine onMetadata_keeps (.bind sql_keeps fun _ => .modify fun m s o ho => ?_)
  obtain ⟨r, hr, rfl⟩ := mem_map.mp ho
  exact .inl (mem_map.mpr ⟨r, (mem_filter.mp hr).1, rfl⟩)

theorem insertMessage_adds {new : NewMessage} (hnew : N (originOf new)) :
    Keeps (Adds N) (onMetadata (insertMessage faults new)) := by
  refine onMetadata_keeps (.bind sql_keeps fun _ => .update fun m s o ho => ?_)
  obtain ⟨r, hr, rfl⟩ := mem_map.mp ho
  rcases mem_append.mp hr with hold | hadded
  · exact .inl (mem_map.mpr ⟨r, hold, rfl⟩)
  · obtain rfl := mem_singleton.mp hadded
    exact .inr hnew

theorem deliver_adds {draw : Draw} {account : RecipientAccount} {envelope : InboundEnvelope}
    {results : AuthResults} {receivedAt : ℤ} {spamReason : Option Text} {scan : ScanMetadata}
    (hnew : ∀ o, o.remoteIp = envelope.remoteIp → N o) :
    Keeps (Adds N) (deliver P draw account envelope results raw receivedAt spamReason scan) := by
  refine deliver_keeps ensureMailbox_adds (fun q _ s => ?_)
    (fun s => .of_messages (sealForAccount_sameMail s)) fun new _ h => insertMessage_adds (hnew _ h)
  exact .of_messages (findOrCreateThread_same (fun _ _ => rfl) q s.metadata)

theorem emailUpdate_adds (io : UpdateIo) (id : Text) (patch : List (Text × Value)) :
    Keeps (Adds N) (emailUpdate accountId io id patch) := by
  unfold emailUpdate
  cases emailRowId id with
  | none => exact .throw
  | some =>
    refine .bind (.of_state (ownMessage_state _)) fun existing => ?_
    refine .bind (fun s => .of_messages ?_) fun p => ?_
    · exact congrArg MetadataStore.messages (patchEntries_metadata _ _ _ _ _ _ s)
    · exact .mapErr updateMessage_adds

theorem emailDestroy_adds (id : Text) : Keeps (Adds N) (emailDestroy accountId faults id) := by
  unfold emailDestroy
  cases emailRowId id with
  | none => exact .throw
  | some rowId =>
    refine .bind (.of_state (ownMessage_state _)) fun existing => ?_
    refine .bind (.mapErr (ensureMailbox_adds _)) fun trash => ?_
    refine .mapErr (.ite ?_ updateMessage_adds)
    exact .bind (deleteMessage_adds rowId) fun _ s => .of_messages rfl

theorem submitEmail_adds (req : EmailSubmissionCreateRequest) :
    Keeps (Adds N) (submitEmail P draw ctx accountId req) := by
  unfold submitEmail
  cases emailRowId req.emailId with
  | none => exact .throw
  | some rowId =>
    refine .bind (fun s => .of_messages ?_) fun p => ?_
    · exact congrArg MetadataStore.messages (prepare_metadata rowId req s)
    refine .bind (.mapErr fun s => .of_messages ?_) fun _ => ?_
    · exact congrArg MetadataStore.messages (enqueue_metadata s)
    refine .bind ?_ fun _ => .pure
    exact .bind (.mapErr (ensureMailbox_adds _)) fun _ => .mapErr updateMessage_adds

theorem storeUpload_adds {E : Environment} {io : RequestIo} (session : Jmap.Session)
    (filename contentType : Text) (body : Bytes) :
    Keeps (Adds N) (storeUpload E io session filename contentType body) := by
  refine .bind (.mapErr fun s => ?_) fun sealedBlob => ?_
  · exact .of_messages (sealForAccount_sameMail s)
  refine .map (.mapErr (onMetadata_keeps ?_))
  exact .bind sql_keeps fun _ => .update fun m s => .of_messages rfl

theorem worker_adds {l l' : Loop} {a : Queue.Act} (hnew : ∀ o : Origin, o.remoteIp ≠ [] → N o)
    (h : Queue.step P hostname l a = some l') :
    Adds N l.stores l'.stores := by
  refine step_relates (fun s t hsame _ => .of_messages (congrArg MetadataStore.messages hsame))
    (fun io outbound account bytes => ?_) (fun faults ev s => ?_) h
  · exact deliver_adds fun o ho => hnew o (ho.trans_ne (by simp))
  · refine fireEvent_relates (R := Adds N) (fun id state s _ => .of_messages ?_)
      (fun rowId keywords s _ => ?_) (fun _ _ => .of_messages rfl) (fun owner role s => ?_) s
    · unfold markEvent
      split <;> rfl
    · rcases storeKeywords_run rowId keywords s with hsame | hset
      · rw [hsame]
        exact refl s
      · rw [hset]
        exact .of_origins (setKeywords_origins _ _ s)
    · rw [mailboxOr_run]
      exact ensureMailbox_adds role s

end

/-! ## What a draft composes -/

section
variable (P : Primitives) (C : Composer) (draw : ComposeDraw) (ctx : AccountContext) (accountId : ℤ)

/-- `create_draft` up to the call of `compose::build`. -/
def draftInput (req : EmailCreateRequest) : Exec Stores Text BuildInput := do
  ofExcept (checkRequest req)
  let s ← Exec.get
  let reply := replyTo draw accountId req.inReplyTo s
  let hash ← orPanic (subjectHash P ctx.accountPub req.subject)
  let _ ← draftThread draw accountId reply hash
  composeInput P C draw ctx accountId req reply

/-- A message that a call of `create_draft` assembled, with the sender it wrote into it. -/
structure Composition where
  accountId : ℤ
  fromAddress : Text
  raw : Bytes
  sealing : Draw

def Composition.ciphertext (c : Composition) : Bytes :=
  aeadSeal P c.sealing.dek 1 c.sealing.nonce c.raw

/-- What `create_draft` composes, if it succeeds. -/
def composition (req : EmailCreateRequest) (s : Stores) : Option Composition :=
  match (createDraft P C draw ctx accountId req s).1, (draftInput P C draw ctx accountId req s).1 with
  | .ok _, .ok input =>
    match build C input with
    | .ok raw => some { accountId, fromAddress := input.fromAddress, raw, sealing := draw.sealing }
    | .error _ => none
  | _, _ => none

variable {P C draw ctx accountId}

theorem composeInput_ok {req : EmailCreateRequest} {reply : ReplyTo} {input : BuildInput}
    {s t : Stores} (h : composeInput P C draw ctx accountId req reply s = (.ok input, t)) :
    input.fromAddress = ctx.address ∧ t = s := by
  obtain rfl : s = t := (Keeps.of_state (composeInput_state _ _)).run h
  obtain ⟨_, _, -, h⟩ := bind_ok h
  obtain ⟨_, _, -, h⟩ := bind_ok h
  cases h
  exact ⟨rfl, rfl⟩

theorem draftThread_sameMail {reply : ReplyTo} {hash : Option Text} :
    Keeps SameMail (draftThread draw accountId reply hash) :=
  draftThread_keeps fun q _ s => findOrCreateThread_same (fun _ _ => rfl) q s.metadata

theorem createDraft_failure (req : EmailCreateRequest) :
    KeepsOnFailure SameMail (createDraft P C draw ctx accountId req) := by
  refine .bind .ofExcept fun _ => .bind .get fun s => .bind .orPanic fun hash => ?_
  refine .bind draftThread_sameMail fun threadId => ?_
  refine .bind (Keeps.of_state (composeInput_state _ _)) fun input => .bind .ofExcept fun raw => ?_
  refine .ite Keeps.throw.onFailure ?_
  refine .bind (.mapErr sealForAccount_sameMail) fun sealedBlob => ?_
  refine .bind (.mapErr fun s => ?_) fun drafts => ?_
  · exact ensureMailbox_same (fun _ _ => rfl) _ _ s.metadata
  · exact .bind_ok (.mapErr (insertMessage_failure _)) fun _ _ => rfl

theorem createDraft_ok {req : EmailCreateRequest} {s t : Stores} {r : ℤ × ℤ}
    (h : createDraft P C draw ctx accountId req s = (.ok r, t)) :
    ∃ c row, composition P C draw ctx accountId req s = some c ∧ c.accountId = accountId ∧
      c.fromAddress = ctx.address ∧ c.sealing = draw.sealing ∧
      t.metadata.messages = s.metadata.messages ++ [row] ∧ row.accountId = accountId ∧
      row.remoteIp = [] ∧ row.blobHash = hashHex P (c.ciphertext P) ∧
      hpkeSeal P ctx.accountPub ctx.keyId dekSealInfo draw.sealing.dek
        draw.sealing.hpkeRandom = .ok row.dekWrap := by
  have hcreated := h
  obtain ⟨_, s₁, hcheck, h⟩ := bind_ok h
  obtain ⟨_, _, hget, h⟩ := bind_ok h
  cases hget
  obtain ⟨hash, s₂, hhash, h⟩ := bind_ok h
  obtain ⟨threadId, s₃, hthread, h⟩ := bind_ok h
  obtain ⟨input, s₅, hcompose, h⟩ := bind_ok h
  obtain ⟨raw, s₆, hbuild, h⟩ := bind_ok h
  have hinput : draftInput P C draw ctx accountId req s = (.ok input, s₅) := by
    rw [draftInput, bind_of_ok hcheck, bind_of_ok (get_run _), bind_of_ok hhash, bind_of_ok hthread]
    exact hcompose
  obtain ⟨hfrom, hstate⟩ := composeInput_ok hcompose
  split at h
  · cases h
  obtain ⟨⟨blobHash, dekWrap⟩, s₇, hseal, h⟩ := bind_ok h
  obtain ⟨drafts, s₈, hdrafts, h⟩ := bind_ok h
  obtain ⟨rowId, s₉, hinsert, h⟩ := bind_ok h
  cases h
  obtain ⟨hname, -, hwrap⟩ := sealForAccount_ok (mapErr_ok_iff.mp hseal)
  obtain ⟨hrows, -, -⟩ := insertMessage_ok (mapErr_ok_iff.mp hinsert)
  have h₃ : s₃.metadata.messages = s₂.metadata.messages := draftThread_sameMail.run hthread
  have h₇ : s₇.metadata.messages = s₆.metadata.messages :=
    sealForAccount_sameMail.run (mapErr_ok_iff.mp hseal)
  rw [ensureMailbox_messages (mapErr_ok_iff.mp hdrafts), h₇, (ofExcept_ok hbuild).2, hstate, h₃,
    (orPanic_ok hhash).2, (ofExcept_ok hcheck).2] at hrows
  refine ⟨⟨accountId, ctx.address, raw, draw.sealing⟩, _, ?_, rfl, rfl, rfl, hrows, rfl, rfl, hname,
    hwrap⟩
  rw [composition, hcreated, hinput]
  simp only [(ofExcept_ok hbuild).1, hfrom]

end

/-! ## What a submission sends -/

section
variable {req : EmailSubmissionCreateRequest} {s t : Stores}

def Signs (P : Primitives) (sign : DomainKey → Bytes → Except Error Text) (raw : Bytes)
    (s t : Stores) : Prop :=
  ∃ key header o, sign key raw = .ok header ∧ t.queue.outbound = s.queue.outbound ++ [o] ∧
    o.messageBlob = hashHex P (utf8 header ++ raw)

theorem enqueue_signs {sign : DomainKey → Bytes → Except Error Text} {now id : ℤ} {key : DomainKey}
    {new : NewOutbound} (h : enqueue P faults sign now key new s = (.ok id, t)) :
    Signs P sign new.rawMessage s t := by
  obtain ⟨hash, s₁, hwrite, hinsert⟩ := bind_ok h
  obtain ⟨b, hb⟩ := enqueueWrite_stores P faults sign key new s
  rw [hwrite] at hb
  subst hb
  rcases enqueueWrite_cases P faults sign key new s with ⟨-, hrefused⟩ | ⟨-, header, hheader, hrun⟩
  · rw [hwrite] at hrefused
    cases hrefused
  · rw [hwrite] at hrun
    obtain ⟨hname, -⟩ := write_ok (onBlobs_eq hrun.symm).1
    obtain ⟨hrow, ht⟩ := onQueue_eq hinsert
    rcases enqueueInsert_queue faults now new hash s.queue with ⟨-, hfail⟩ | ⟨n, -, hqueue, -⟩
    · rw [hrow] at hfail
      cases hfail
    · rw [hrow] at hqueue
      have hout : t.queue.outbound = (addOutbound new hash now s.queue).outbound := by
        exact (congrArg QueueStore.outbound hqueue).trans addRcpts_outbound
      exact ⟨key, header, _, hheader, hout, hname⟩

theorem submitEmail_signs {id : ℤ} (h : submitEmail P draw ctx accountId req s = (.ok id, t)) :
    ∃ rowId existing raw key, emailRowId req.emailId = some rowId ∧
      Prepared P draw ctx accountId rowId req s existing raw key ∧ Signs P draw.sign raw s t := by
  unfold submitEmail at h
  cases hid : emailRowId req.emailId with
  | none => rw [hid] at h; cases h
  | some =>
    rw [hid] at h
    obtain ⟨⟨existing, raw, key⟩, s₁, hprepare, h⟩ := bind_ok h
    obtain ⟨queued, s₂, henqueue, h⟩ := bind_ok h
    obtain ⟨u, s₃, hfile, h⟩ := bind_ok h
    cases h
    obtain ⟨signer, header, o, hheader, hout, hblob⟩ := enqueue_signs (mapErr_ok_iff.mp henqueue)
    have hqueue : t.queue = s₂.queue := by
      have hkeeps : Keeps (Same Stores.queue) (fileSent draw accountId id existing) :=
        .bind (.mapErr fun _ => rfl) fun _ => .mapErr fun _ => rfl
      exact hkeeps.run hfile
    have hrows := prepare_rows.run hprepare
    refine ⟨id, existing, raw, key, rfl, prepare_ok hprepare, signer, header, o, hheader, ?_, hblob⟩
    rw [hqueue, hout, hrows.1]

theorem openBlob_ok {blobHash : Text} {dekWrap priv : Bytes}
    (h : openBlob P faults blobHash dekWrap priv s = (.ok raw, t)) :
    faults .blobRead = none ∧ ∃ bytes, s.blobs.file blobHash = some bytes ∧
      hashHex P bytes = blobHash := by
  unfold openBlob at h
  cases hkey : hpkeOpen P priv dekSealInfo dekWrap with
  | error => rw [hkey] at h; cases h
  | ok =>
    rw [hkey] at h
    simp only [ite_run] at h
    split at h
    · cases h
    · obtain ⟨bytes, s₁, hread, -⟩ := bind_ok h
      obtain ⟨hfault, hfile, hname⟩ := read_ok (onBlobs_eq hread).1
      exact ⟨hfault, bytes, hfile, hname⟩

end

/-! ## Runs that remember what was composed -/

/-- The stores and worker, with what `create_draft` has composed so far. -/
structure Traced where
  loop : Loop
  composed : List Composition

def Traced.stores (w : Traced) : Stores := w.loop.stores

def Traced.start (accounts : List Account) (domains : List Domain) : Traced :=
  ⟨Mail.start accounts domains, []⟩

def composedBy (P : Primitives) (s : Stores) : Act → Option Composition
  | .draft C draw ctx accountId req => composition P C draw ctx accountId req s
  | _ => none

def traceStep (P : Primitives) (hostname : Text) (w : Traced) (a : Act) : Option Traced :=
  (step P hostname w.loop a).map fun l => ⟨l, w.composed ++ (composedBy P w.stores a).toList⟩

/-- The action is one the server takes: an account works with its own keys and address, keys and nonces
have their lengths, and a delivery knows the address of the peer. -/
def Genuine (ctxOf : ℤ → AccountContext) : Act → Prop
  | .deliver _ _ envelope _ _ _ _ _ => envelope.remoteIp ≠ []
  | .draft _ draw ctx accountId _ =>
    ctx = ctxOf accountId ∧ draw.sealing.dek.length = 32 ∧ draw.sealing.nonce.length = 24
  | _ => True

/-- No file in the store has the hash of a composition's ciphertext and other content. -/
def Collisionless (P : Primitives) (w : Traced) : Prop :=
  ∀ c ∈ w.composed, ∀ bytes ∈ w.stores.blobs.file (hashHex P (c.ciphertext P)),
    hashHex P bytes = hashHex P (c.ciphertext P) → bytes = c.ciphertext P

/-- The row the request names, if there is one, has the empty `remote_ip` of a draft. -/
def namesDraft (s : Stores) (req : EmailSubmissionCreateRequest) : Bool :=
  (emailRowId req.emailId).all fun rowId =>
    (findBy StoredMessage.id rowId s.metadata.messages).all fun m => m.remoteIp.isEmpty

structure Holds (P : Primitives) (ctxOf : ℤ → AccountContext) (o : Origin) (c : Composition) :
    Prop where
  accountId : c.accountId = o.accountId
  fromAddress : c.fromAddress = (ctxOf o.accountId).address
  blobHash : o.blobHash = hashHex P (c.ciphertext P)
  wrap : hpkeSeal P (ctxOf o.accountId).accountPub (ctxOf o.accountId).keyId dekSealInfo
    c.sealing.dek c.sealing.hpkeRandom = .ok o.dekWrap
  dek : c.sealing.dek.length = 32
  nonce : c.sealing.nonce.length = 24

/-- Every row without a remote address is a composition of its account. -/
def Traceable (P : Primitives) (ctxOf : ℤ → AccountContext) (w : Traced) : Prop :=
  ∀ o ∈ origins w.stores, o.remoteIp = [] → ∃ c ∈ w.composed, Holds P ctxOf o c

section
variable {ctxOf : ℤ → AccountContext} {w v : Traced} {a : Act}

theorem step_adds {l : Loop} (ha : Genuine ctxOf a) (h : step P hostname w.loop a = some l) :
    Adds (fun o => o.remoteIp ≠ [] ∨ ∃ c ∈ composedBy P w.stores a, Holds P ctxOf o c) w.stores
      l.stores := by
  cases a with
  | worker => exact worker_adds (fun o ho => .inl ho) h
  | deliver =>
    cases h
    exact deliver_adds (fun o ho => .inl (ho.trans_ne ha)) _
  | draft C draw _ accountId req =>
    cases h
    obtain ⟨rfl, hdek, hnonce⟩ := ha
    rcases hdraft : createDraft P C draw (ctxOf accountId) accountId req w.loop.stores with ⟨r, t⟩
    cases hr : r.isOk with
    | false => exact .of_messages ((createDraft_failure req).run hdraft hr)
    | true =>
      obtain ⟨ids, rfl⟩ := Res.isOk_iff.mp hr
      obtain ⟨c, row, hc, howner, hfrom, hsealing, hrows, hrow, hip, hhash, hwrap⟩ :=
        createDraft_ok hdraft
      intro o ho
      obtain ⟨m, hm, rfl⟩ := mem_map.mp ho
      rw [hrows] at hm
      rcases mem_append.mp hm with hold | hnew
      · exact .inl (mem_map.mpr ⟨m, hold, rfl⟩)
      · obtain rfl := mem_singleton.mp hnew
        subst hrow
        refine .inr (.inr ⟨c, hc, howner, hfrom, hhash, ?_, ?_, ?_⟩)
        · rw [hsealing]
          exact hwrap
        · rw [hsealing]
          exact hdek
        · rw [hsealing]
          exact hnonce
  | submit _ _ _ req =>
    cases h
    exact submitEmail_adds req _
  | upload _ _ session filename contentType body =>
    cases h
    exact storeUpload_adds session filename contentType body _
  | update io _ id patch =>
    cases h
    exact emailUpdate_adds io id patch _
  | destroy _ _ id =>
    cases h
    exact emailDestroy_adds id _

theorem Traceable.step (hw : Traceable P ctxOf w) (ha : Genuine ctxOf a)
    (h : traceStep P hostname w a = some v) : Traceable P ctxOf v := by
  obtain ⟨l, hl, rfl⟩ := map_eq_some_iff.mp h
  intro o ho hip
  rcases step_adds ha hl o ho with hold | hremote | ⟨c, hc, hholds⟩
  · obtain ⟨c, hc, hholds⟩ := hw o hold hip
    exact ⟨c, mem_append_left _ hc, hholds⟩
  · exact absurd hip hremote
  · exact ⟨c, mem_append_right _ (mem_toList.mpr hc), hholds⟩

theorem traceable_run {accounts : List Account} {domains : List Domain} {acts : List Act}
    (hacts : Along (traceStep P hostname) (fun _ a => Genuine ctxOf a) (Traced.start accounts domains)
      acts)
    (hrun : run (traceStep P hostname) (Traced.start accounts domains) acts = some w) :
    Traceable P ctxOf w :=
  run_invariant (I := Traceable P ctxOf) (fun _ _ _ hw ha hstep => hw.step ha hstep)
    (fun _ ho => absurd ho not_mem_nil) hacts hrun

theorem Holds.opens {pub : Bytes → Bytes} (hideal : IdealCiphers P pub)
    (hkeys : ∀ a, (ctxOf a).accountPub = pub (ctxOf a).accountPriv) (hapart : Collisionless P w)
    {c : Composition} (hc : c ∈ w.composed) {m : StoredMessage}
    (hm : Holds P ctxOf (originOf m.toNewMessage) c) {t : Stores}
    (h : openMessage P faults m (ctxOf m.accountId).accountPriv w.stores = (.ok raw, t)) :
    raw = c.raw := by
  obtain ⟨hfault, bytes, hfile, hname⟩ := openBlob_ok h
  have hblob : m.blobHash = hashHex P (c.ciphertext P) := hm.blobHash
  rw [hblob] at hfile hname
  obtain rfl := hapart c hc bytes hfile hname
  have hwrap : hpkeSeal P (pub (ctxOf m.accountId).accountPriv) (ctxOf m.accountId).keyId
      dekSealInfo c.sealing.dek c.sealing.hpkeRandom = .ok m.dekWrap := by
    rw [← hkeys]
    exact hm.wrap
  have hopen := openBlob_sealed hideal hm.dek hm.nonce hwrap hfault hfile
  rw [openMessage, hblob] at h
  cases h.symm.trans hopen
  rfl

end

/-- In every run: a submission that succeeds and names a row without a remote address signs and queues
a message that its own account composed, under the address of the account. -/
theorem submits_own_compositions {P : Primitives} {pub : Bytes → Bytes} (hideal : IdealCiphers P pub)
    {ctxOf : ℤ → AccountContext} (hkeys : ∀ a, (ctxOf a).accountPub = pub (ctxOf a).accountPriv)
    {hostname : Text} {accounts : List Account} {domains : List Domain} {acts : List Act} {w : Traced}
    (hrun : run (traceStep P hostname) (Traced.start accounts domains) acts = some w)
    (hacts : Along (traceStep P hostname) (fun _ a => Genuine ctxOf a) (Traced.start accounts domains)
      acts)
    (hapart : Collisionless P w) (draw : SubmitDraw) (accountId : ℤ)
    (req : EmailSubmissionCreateRequest) (hdraft : namesDraft w.stores req) (id : ℤ) (t : Stores)
    (h : submitEmail P draw (ctxOf accountId) accountId req w.stores = (.ok id, t)) :
    ∃ c ∈ w.composed, c.accountId = accountId ∧ c.fromAddress = (ctxOf accountId).address ∧
      Signs P draw.sign c.raw w.stores t := by
  obtain ⟨rowId, m, raw, key, hid, hprepared, hsigns⟩ := submitEmail_signs h
  have hip : m.remoteIp = [] := by
    simpa [namesDraft, hid, hprepared.found] using hdraft
  have hmem : originOf m.toNewMessage ∈ origins w.stores :=
    mem_map.mpr ⟨m, (findBy_some _ hprepared.found).1, rfl⟩
  obtain ⟨c, hc, hholds⟩ := traceable_run hacts hrun _ hmem hip
  obtain rfl : m.accountId = accountId := hprepared.owner
  obtain rfl := hholds.opens hideal hkeys hapart hc
    (Prod.ext hprepared.opens rfl : openMessage P draw.faults m _ w.stores = (.ok raw, _))
  exact ⟨c, hc, hholds.accountId, hholds.fromAddress, hsigns⟩

/-! Account 1 composes a message and receives one. -/

def sampleOwnContext : AccountContext := { sampleContext with accountPriv := [2] }

def sampleOwnDraft : Act :=
  .draft sampleComposer sampleComposeDraw sampleOwnContext 1 (sampleRequest "hi")

def sampleSend (emailId : String) (s : Stores) : Res Text ℤ × Stores :=
  submitEmail sampleSealer (sampleSubmitDraw .none) sampleOwnContext 1
    { emailId := emailId.toList, rcptTo := ["bob@example.net"] } s

def sampleMailbox : List Act := [sampleOwnDraft, sampleDelivery 1 sampleOriginal]

instance (P : Primitives) (w : Traced) : Decidable (Collisionless P w) :=
  inferInstanceAs (Decidable (∀ c ∈ w.composed,
    ∀ bytes ∈ w.stores.blobs.file (hashHex P (c.ciphertext P)),
      hashHex P bytes = hashHex P (c.ciphertext P) → bytes = c.ciphertext P))

theorem submits_own_compositions_draft :
    ∃ w t, run (traceStep sampleSealer []) (Traced.start [] []) sampleMailbox = some w ∧
      sampleSend "m1" w.stores = (.ok 1, t) ∧
      ∃ c ∈ w.composed, c.accountId = 1 ∧ c.fromAddress = "alice@example.com" ∧
        Signs sampleSealer Jmap.sampleSign c.raw w.stores t := by
  have hends : ((run (traceStep sampleSealer []) (Traced.start [] []) sampleMailbox).map fun w =>
      (decide (Collisionless sampleSealer w),
        namesDraft w.stores ⟨"m1", ["bob@example.net"]⟩,
        (sampleSend "m1" w.stores).1)) = some (true, true, .ok 1) := by
    decide +kernel
  have hacts : Along (traceStep sampleSealer []) (fun _ a => Genuine (fun _ => sampleOwnContext) a)
      (Traced.start [] []) sampleMailbox :=
    ⟨⟨rfl, rfl, rfl⟩, fun _ _ => ⟨cons_ne_nil _ _, fun _ _ => trivial⟩⟩
  obtain ⟨w, hrun, hfacts⟩ := map_eq_some_iff.mp hends
  simp only [Prod.mk.injEq, decide_eq_true_eq] at hfacts
  obtain ⟨hapart, hdraft, hsent⟩ := hfacts
  have hsend : sampleSend "m1" w.stores = (.ok 1, (sampleSend "m1" w.stores).2) := Prod.ext hsent rfl
  exact ⟨w, _, hrun, hsend, submits_own_compositions sampleSealer_ideal (fun _ => rfl) hrun hacts hapart
    _ 1 _ hdraft 1 _ hsend⟩

def sampleQueued (s : Stores) : List (Text × Option Bytes) :=
  s.queue.outbound.map fun o => (o.envelopeFrom, s.blobs.file o.messageBlob)

/-- The message of someone else that account 1 received is signed and queued as well, though nothing
was ever composed. -/
theorem submits_received_message :
    ∃ w, run (traceStep sampleSealer []) (Traced.start [] []) [sampleDelivery 1 sampleOriginal] = some w ∧
      w.composed.length = 0 ∧ (sampleSend "m1" w.stores).1 = .ok 1 ∧
      sampleQueued (sampleSend "m1" w.stores).2 = [("alice@example.com".toList,
        some (utf8 "DKIM-Signature: v=1\r\n".toList ++ sampleOriginal))] := by
  have hends : ((run (traceStep sampleSealer []) (Traced.start [] [])
      [sampleDelivery 1 sampleOriginal]).map fun w =>
        ((w.composed.length, (sampleSend "m1" w.stores).1),
          sampleQueued (sampleSend "m1" w.stores).2)) =
      some ((0, .ok 1), [("alice@example.com".toList,
        some (utf8 "DKIM-Signature: v=1\r\n".toList ++ sampleOriginal))]) := by
    decide +kernel
  obtain ⟨w, hrun, hfacts⟩ := map_eq_some_iff.mp hends
  simp only [Prod.mk.injEq, and_assoc] at hfacts
  exact ⟨w, hrun, hfacts⟩

end Litterae.Mail
