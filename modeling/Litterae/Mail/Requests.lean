import Litterae.Mail.Calls

/-! # Requests as runs of calls

`Replays` says of a request that it is a run of calls, whatever others hold, and what it holds
itself before and after.
-/

namespace Litterae.Mail
open Foundations Store Delivery Queue Jmap Exec List Nat Option

/-- The request is a run of calls. It holds `pre` at its start, after what others hold, and `post` in
its place when it succeeds. -/
def Replays {ε α : Type} (P : Primitives) (hostname : Text) (pre : List Held) (x : Exec Stores ε α)
    (post : α → List Held) : Prop :=
  ∀ (w : World) (base : List Held), w.held = base ++ pre → ∃ calls v,
    run (callStep P hostname) w calls = some v ∧
      v.loop = { w.loop with stores := (x w.stores).2 } ∧
        ∀ a, (x w.stores).1 = .ok a → v.held = base ++ post a

variable {pre : List Held} {hostname : Text} {P : Primitives}

section
variable {ε ε' α β : Type} {x : Exec Stores ε α} {post : α → List Held}

theorem Replays.still (hx : ∀ s, (x s).2 = s) :
    Replays P hostname pre x fun _ => pre := by
  intro w base hw
  refine ⟨[], w, rfl, ?_, fun _ _ => hw⟩
  rw [hx]
  rfl

theorem Replays.ofExcept {o : Except ε α} :
    Replays P hostname pre (ofExcept o) fun _ => pre := by
  refine .still fun s => ?_
  cases o <;> rfl

theorem Replays.orPanic {o : Option α} :
    Replays P hostname pre (orPanic o : Exec Stores ε α) fun _ => pre := by
  refine .still fun s => ?_
  cases o <;> rfl

theorem Replays.ite {c : Prop} [Decidable c] {x y : Exec Stores ε α}
    (hx : c → Replays P hostname pre x post) (hy : ¬ c → Replays P hostname pre y post) :
    Replays P hostname pre (if c then x else y) post := by
  split
  · next hc => exact hx hc
  · next hc => exact hy hc

theorem Replays.bind {f : α → Exec Stores ε β} {mid : α → List Held} {post : β → List Held}
    (hx : Replays P hostname pre x mid)
    (hf : ∀ a s t, x s = (.ok a, t) → Replays P hostname (mid a) (f a) post) :
    Replays P hostname pre (x >>= f) post := by
  intro w base hw
  obtain ⟨calls, v, hrun, hloop, hheld⟩ := hx w base hw
  rcases hres : x w.stores with ⟨r, t⟩
  rw [hres] at hloop hheld
  cases r with
  | ok a =>
    obtain ⟨calls', u, hrun', hloop', hheld'⟩ := hf a _ _ hres v base (hheld a rfl)
    have hv : v.stores = t := congrArg Loop.stores hloop
    rw [hv, hloop] at hloop'
    rw [hv] at hheld'
    refine ⟨calls ++ calls', u, ?_, ?_, ?_⟩
    · rw [run_append, hrun]
      exact hrun'
    · rw [bind_of_ok hres]
      exact hloop'
    · rw [bind_of_ok hres]
      exact hheld'
  | err | panic =>
    refine ⟨calls, v, hrun, ?_, ?_⟩
    · rw [bind_run, hres]
      exact hloop
    · intro b hb
      rw [bind_run, hres] at hb
      cases hb

theorem Replays.mapErr {f : ε → ε'} (hx : Replays P hostname pre x post) :
    Replays P hostname pre (x.mapErr f) post := by
  intro w base hw
  obtain ⟨calls, v, hrun, hloop, hheld⟩ := hx w base hw
  refine ⟨calls, v, hrun, ?_, fun a ha => ?_⟩
  · rw [state_mapErr]
    exact hloop
  · have hok : x w.stores = (.ok a, ((x.mapErr f) w.stores).2) :=
      mapErr_ok_iff.mp (Prod.ext ha rfl)
    exact hheld a (congrArg Prod.fst hok)

theorem Replays.call (c : ℕ → Call)
    (hc : ∀ w base, w.held = base ++ pre → perform P hostname w (c base.length) =
      some (w.call x (fun a => base ++ post a) base)) : Replays P hostname pre x post := by
  intro w base hw
  refine ⟨[c base.length], ⟨(w.call x (fun a => base ++ post a) base).1,
    (w.call x (fun a => base ++ post a) base).2,
    w.written ++ (seals P hostname w.loop (c base.length) ++ spools (c base.length))⟩, ?_, rfl, ?_⟩
  · simp only [run, callStep, hc w base hw, map_some, bind_some]
  · intro a ha
    simp only [World.call, ha]

theorem Replays.quiet {y : Exec Stores ε' β} (c : Call)
    (hc : ∀ w, perform P hostname w c = some (w.call x (fun _ => w.held) w.held))
    (hy : ∀ s, (y s).2 = (x s).2) : Replays P hostname pre y fun _ => pre := by
  intro w base hw
  refine ⟨[c], ⟨(w.call x (fun _ => w.held) w.held).1, (w.call x (fun _ => w.held) w.held).2,
    w.written ++ (seals P hostname w.loop c ++ spools c)⟩, ?_, ?_, fun _ _ => call_held.trans hw⟩
  · simp only [run, callStep, hc w, map_some, bind_some]
  · rw [hy]
    rfl

theorem eraseIdx_concat (base : List Held) (x : Held) : (base ++ [x]).eraseIdx base.length = base := by
  rw [List.eraseIdx_append_of_length_le (Nat.le_refl _), Nat.sub_self]
  exact append_nil _

theorem Replays.forget {post : α → Held} (hx : Replays P hostname pre x fun a => [post a]) :
    Replays P hostname pre x fun _ => [] := by
  intro w base hw
  obtain ⟨calls, v, hrun, hloop, hheld⟩ := hx w base hw
  have hforget : callStep P hostname v (.forget base.length) =
      some ⟨v.loop, v.held.eraseIdx base.length, v.written ++ ([] ++ [])⟩ := rfl
  refine ⟨calls ++ [.forget base.length], ⟨v.loop, v.held.eraseIdx base.length, v.written ++ ([] ++ [])⟩,
    ?_, hloop, fun a ha => ?_⟩
  · rw [run_append, hrun]
    simp only [run, hforget, bind_some]
  · simp only [hheld a ha, eraseIdx_concat, append_nil]

end

variable {l : Loop}

section
variable {faults : Faults} {accountId : ℤ} {blobHash : Text} {id : Text} {rowId : ℤ} {draw : Draw}
  {raw : Bytes} {dekWrap : Bytes} {ctx : AccountContext}

theorem ensureMailbox_replays {role : Role} :
    Replays P hostname pre (onMetadata (ensureMailbox faults accountId role)) fun _ => pre :=
  .quiet (.ensureMailbox faults accountId role) (fun _ => rfl) fun _ => rfl

theorem findOrCreateThread_replays {pick : ℕ} {q : ThreadMatch} :
    Replays P hostname pre (onMetadata (findOrCreateThread faults pick q)) fun _ => pre :=
  .quiet (.findOrCreateThread faults pick q) (fun _ => rfl) fun _ => rfl

theorem updateMessage_replays {mailboxId : Option ℤ} {keywords : Option Text} :
    Replays P hostname pre (onMetadata (updateMessage faults rowId mailboxId keywords)) fun _ => pre :=
  .quiet (.updateMessage faults rowId mailboxId keywords) (fun _ => rfl) fun _ => rfl

theorem ensureDkimKey_replays {generated : Except Text (Bytes × Bytes)} {domain : Text} :
    Replays P hostname pre (onQueue (ensureDkimKey faults generated domain)) fun _ => pre :=
  .quiet (.ensureDkimKey faults generated domain) (fun _ => rfl) fun _ => rfl

theorem sealForAccount_replays {accountPub : Bytes} {keyId : UInt16} :
    Replays P hostname [] (sealForAccount P draw accountPub keyId raw)
      fun r => [.sealedBlob r.1 r.2] := by
  refine .call (fun _ => .sealForAccount draw accountPub keyId raw) fun w base hw => ?_
  rw [append_nil] at hw
  simp only [perform, hw]

theorem ownMessage_replays :
    Replays P hostname [] (ownMessage accountId faults rowId) fun m => [.found m] := by
  refine .call (fun _ => .ownMessage faults accountId rowId) fun w base hw => ?_
  rw [append_nil] at hw
  simp only [perform, hw]

theorem held_last {w : World} {base : List Held} {x : Held} (hw : w.held = base ++ [x]) :
    w.held[base.length]? = some x ∧ w.held.eraseIdx base.length = base := by
  rw [hw]
  exact ⟨List.getElem?_concat_length, eraseIdx_concat base x⟩

theorem insertMessage_replays {new : NewMessage} (hblob : new.blobHash = blobHash)
    (hwrap : new.dekWrap = dekWrap) :
    Replays P hostname [.sealedBlob blobHash dekWrap] (onMetadata (insertMessage faults new))
      fun _ => [] := by
  subst hblob hwrap
  refine .call (fun k => .insertMessage faults k new) fun w base hw => ?_
  simp only [perform, held_last hw, if_true, append_nil]

theorem insertUpload_replays {new : NewUpload} (hblob : new.blobHash = blobHash)
    (hwrap : new.dekWrap = dekWrap) :
    Replays P hostname [.sealedBlob blobHash dekWrap] (onMetadata (insertUpload faults new))
      fun _ => [] := by
  subst hblob hwrap
  refine .call (fun k => .insertUpload faults k new) fun w base hw => ?_
  simp only [perform, held_last hw, if_true, append_nil]

theorem deleteMessage_replays {m : StoredMessage} :
    Replays P hostname [.found m] (onMetadata (deleteMessage faults m.id))
      fun _ => [.deleted m.blobHash] := by
  refine .call (fun k => .deleteMessage faults k) fun w base hw => ?_
  have hset : w.held.set base.length (.deleted m.blobHash) = base ++ [.deleted m.blobHash] := by
    rw [hw]
    simp
  simp only [perform, held_last hw, hset]

theorem remove_replays :
    Replays P hostname [.deleted blobHash] (onBlobs (remove faults blobHash)) fun _ => [] := by
  refine .call (fun k => .removeBlob faults k) fun w base hw => ?_
  simp only [perform, held_last hw, append_nil]

theorem worker_call (w : World) (a : Queue.Act) (h : Queue.step P hostname w.loop a = some l) :
    ∃ v, callStep P hostname w (.worker a) = some v ∧ v.loop = l ∧ v.held = w.held := by
  refine ⟨⟨l, w.held, w.written ++ (seals P hostname w.loop (.worker a) ++ spools (.worker a))⟩, ?_,
    rfl, rfl⟩
  simp only [callStep, perform, h, map_some]

theorem enqueue_replays {sign : DomainKey → Bytes → Except Error Text} {now : ℤ}
    {domainKey : DomainKey} {new : NewOutbound} :
    Replays P hostname pre (enqueue P faults sign now domainKey new) fun _ => pre := by
  intro w base hw
  rcases hwrite : enqueueWrite P faults sign domainKey new w.loop.stores with ⟨r, t⟩
  cases hr : r with
  | ok hash =>
    subst hr
    have hwritten : Queue.step P hostname w.loop (.write faults sign domainKey new) =
        some { w.loop with stores := t, inflight := w.loop.inflight ++ [⟨new, hash⟩] } := by
      simp only [Queue.step, hwrite]
    obtain ⟨v, hv, hloop, hheld⟩ := worker_call w _ hwritten
    have hinsert : Queue.step P hostname v.loop (.insert w.loop.inflight.length faults now) =
        some { w.loop with stores := (onQueue (enqueueInsert faults now new hash) t).2 } := by
      simp only [Queue.step, hloop, List.getElem?_concat_length]
      rw [List.eraseIdx_append_of_length_le (Nat.le_refl _), Nat.sub_self]
      simp
    obtain ⟨u, hu, hloop', hheld'⟩ := worker_call v _ hinsert
    refine ⟨[.worker (.write faults sign domainKey new),
      .worker (.insert w.loop.inflight.length faults now)], u, ?_, ?_, fun _ _ => ?_⟩
    · simp only [run, hv, hu, bind_some]
    · rw [hloop', enqueue, World.stores, bind_of_ok hwrite]
    · rw [hheld', hheld, hw]
  | err e | panic =>
    have hfailed : (enqueue P faults sign now domainKey new w.loop.stores).2 = t ∧
        (enqueue P faults sign now domainKey new w.loop.stores).1.isOk = false := by
      rw [enqueue, bind_run, hwrite, hr]
      exact ⟨rfl, rfl⟩
    have hrefused : Queue.step P hostname w.loop (.write faults sign domainKey new) =
        some { w.loop with stores := t } := by
      simp only [Queue.step, hwrite, hr]
    obtain ⟨v, hv, hloop, hheld⟩ := worker_call w _ hrefused
    refine ⟨[.worker (.write faults sign domainKey new)], v, ?_, ?_, fun a ha => ?_⟩
    · simp only [run, hv, bind_some]
    · rw [hloop, World.stores, hfailed.1]
    · rw [World.stores] at ha
      rw [ha] at hfailed
      exact absurd hfailed.2 (by simp [Res.isOk])

theorem deliver_replays {account : RecipientAccount} {envelope : InboundEnvelope}
    {results : AuthResults} {receivedAt : ℤ} {spamReason : Option Text} {scan : ScanMetadata} :
    Replays P hostname [] (deliver P draw account envelope results raw receivedAt spamReason scan)
      fun _ => [] := by
  unfold deliver
  cases P.parse raw with
  | none => exact .still fun _ => rfl
  | some =>
    refine .bind .orPanic fun hash _ _ _ => ?_
    refine .bind ensureMailbox_replays fun mailbox _ _ _ => ?_
    refine .bind findOrCreateThread_replays fun threadId _ _ _ => ?_
    refine .bind sealForAccount_replays fun r _ _ _ => ?_
    exact .bind (insertMessage_replays rfl rfl) fun _ _ _ _ => .still fun _ => rfl

theorem draftThread_replays {draw : ComposeDraw} (reply : ReplyTo) (hash : Option Text) :
    Replays P hostname pre (draftThread draw accountId reply hash) fun _ => pre := by
  unfold draftThread
  cases reply.threadId with
  | some => exact .still fun _ => rfl
  | none => exact .mapErr findOrCreateThread_replays

theorem createDraft_replays {C : Composer} {draw : ComposeDraw} {req : EmailCreateRequest} :
    Replays P hostname [] (createDraft P C draw ctx accountId req) fun _ => [] := by
  refine .bind .ofExcept fun _ _ _ _ => .bind (.still fun _ => rfl) fun s _ _ _ => ?_
  refine .bind .orPanic fun hash _ _ _ => .bind (draftThread_replays _ _) fun threadId _ _ _ => ?_
  refine .bind (.still (composeInput_state _ _)) fun input _ _ _ => ?_
  refine .bind .ofExcept fun raw _ _ _ => .ite (fun _ => .still fun _ => rfl) fun _ => ?_
  refine .bind (.mapErr sealForAccount_replays) fun r _ _ _ => ?_
  refine .bind (.mapErr ensureMailbox_replays) fun drafts _ _ _ => ?_
  exact .bind (.mapErr (insertMessage_replays rfl rfl)) fun _ _ _ _ => .still fun _ => rfl

theorem storeUpload_replays {E : Environment} {io : RequestIo} {session : Jmap.Session}
    {filename contentType : Text} {body : Bytes} :
    Replays P hostname [] (storeUpload { E with P } io session filename contentType body)
      fun _ => [] := by
  refine .bind (.mapErr sealForAccount_replays) fun r _ _ _ => ?_
  exact .bind (.mapErr (insertUpload_replays rfl rfl)) fun _ _ _ _ => .still fun _ => rfl

theorem submitEmail_replays {draw : SubmitDraw} {req : EmailSubmissionCreateRequest} :
    Replays P hostname [] (submitEmail P draw ctx accountId req) fun _ => [] := by
  unfold submitEmail
  cases emailRowId req.emailId with
  | none => exact .still fun _ => rfl
  | some rowId =>
    have hprepare : Replays P hostname [] (prepare P draw ctx accountId rowId req) fun _ => [] := by
      refine .bind (.still (findOwn_state rowId)) fun existing _ _ _ => ?_
      refine .bind .ofExcept fun _ _ _ _ => ?_
      refine .bind (.mapErr (.still fun s => openBlob_state _ _ _ _ s)) fun raw _ _ _ => ?_
      exact .bind (.mapErr ensureDkimKey_replays) fun _ _ _ _ => .still fun _ => rfl
    refine .bind hprepare fun p _ _ _ => .bind (.mapErr enqueue_replays) fun _ _ _ _ => ?_
    refine .bind ?_ fun _ _ _ _ => .still fun _ => rfl
    exact .bind (.mapErr ensureMailbox_replays) fun _ _ _ _ => .mapErr updateMessage_replays

theorem patchEntries_replays {entryFaults : ℕ → Faults} {existing : StoredMessage} (k : ℕ)
    (patch : List (Text × Value)) (p : Patching) :
    Replays P hostname pre (patchEntries accountId entryFaults id existing k patch p) fun _ => pre := by
  induction patch generalizing k p with
  | nil => exact .still fun _ => rfl
  | cons entry _ ih =>
    refine .bind ?_ fun _ _ _ _ => ih (k + 1) _
    unfold patchTimer
    split
    · next kind _ =>
      exact .quiet (.setTimer (entryFaults k) accountId kind id existing.threadId entry.2)
        (fun _ => rfl) (state_ignore _)
    · exact .still fun _ => rfl

theorem emailUpdate_replays {io : UpdateIo} {patch : List (Text × Value)} :
    Replays P hostname [] (emailUpdate accountId io id patch) fun _ => [] := by
  unfold emailUpdate
  cases emailRowId id with
  | none => exact .still fun _ => rfl
  | some rowId =>
    refine .bind (.still (ownMessage_state rowId)) fun existing _ _ _ => ?_
    exact .bind (patchEntries_replays 0 patch _) fun _ _ _ _ => .mapErr updateMessage_replays

theorem emailDestroy_replays :
    Replays P hostname [] (emailDestroy accountId faults id) fun _ => [] := by
  unfold emailDestroy
  cases emailRowId id with
  | none => exact .still fun _ => rfl
  | some rowId =>
    refine .bind ownMessage_replays fun existing s t hown => ?_
    refine .bind (.mapErr ensureMailbox_replays) fun trash _ _ _ => .mapErr ?_
    obtain ⟨-, hfound, -⟩ := ownMessage_ok hown
    obtain rfl : existing.id = rowId := (findBy_some _ hfound).2
    refine .ite (fun _ => ?_) fun _ => .forget updateMessage_replays
    exact .bind deleteMessage_replays fun _ _ _ _ => remove_replays

end

section
variable {w : World}

theorem Replays.whole {ε α : Type} {x : Exec Stores ε α} {post : α → List Held}
    (hx : Replays P hostname [] x post) (w : World) :
    ∃ calls v, run (callStep P hostname) w calls = some v ∧
      v.loop = { w.loop with stores := (x w.stores).2 } := by
  obtain ⟨calls, v, hrun, hloop, -⟩ := hx w w.held (append_nil _).symm
  exact ⟨calls, v, hrun, hloop⟩

theorem step_replays {a : Act} (h : step P hostname w.loop a = some l) :
    ∃ calls v, run (callStep P hostname) w calls = some v ∧ v.loop = l := by
  cases a with
  | worker a =>
    obtain ⟨v, hv, hloop, -⟩ := worker_call w a h
    exact ⟨[.worker a], v, by simp only [run, hv, bind_some], hloop⟩
  | deliver =>
    cases h
    exact deliver_replays.whole w
  | draft =>
    cases h
    exact createDraft_replays.whole w
  | submit =>
    cases h
    exact submitEmail_replays.whole w
  | upload =>
    cases h
    exact storeUpload_replays.whole w
  | update =>
    cases h
    exact emailUpdate_replays.whole w
  | destroy =>
    cases h
    exact emailDestroy_replays.whole w

theorem requests_replay {acts : List Act} (h : run (step P hostname) w.loop acts = some l) :
    ∃ calls v, run (callStep P hostname) w calls = some v ∧ v.loop = l := by
  induction acts generalizing w with
  | nil =>
    cases h
    exact ⟨[], w, rfl, rfl⟩
  | cons _ _ ih =>
    obtain ⟨l₁, hstep, hrest⟩ := run_cons h
    obtain ⟨calls, v, hrun, rfl⟩ := step_replays hstep
    obtain ⟨calls', u, hrun', hloop⟩ := ih hrest
    refine ⟨calls ++ calls', u, ?_, hloop⟩
    rw [run_append, hrun]
    exact hrun'

end

/-- Requests of any number of accounts run as store calls in any order, and as whole requests in
particular. As long as every ciphertext is new and no two byte strings that are written have one hash,
the blob of each row of `messages` and `uploads` is in the blob store. -/
theorem blobs_stay (P : Primitives) (hostname : Text) (accounts : List Account) (domains : List Domain) :
    (∀ acts l, run (step P hostname) (start accounts domains) acts = some l → ∃ calls w,
      run (callStep P hostname) (World.start accounts domains) calls = some w ∧ w.loop = l) ∧
    ∀ calls w, run (callStep P hostname) (World.start accounts domains) calls = some w →
      Along (callStep P hostname) (Ideal P hostname) (World.start accounts domains) calls →
      (∀ m ∈ w.stores.metadata.messages, blobExists w.stores.blobs m.blobHash) ∧
        ∀ u ∈ w.stores.metadata.uploads, blobExists w.stores.blobs u.blobHash := by
  refine ⟨fun acts l h => requests_replay h, fun calls w hrun hideal => ?_⟩
  have hkept := ((ordered_start accounts domains).run hideal hrun).kept
  have hexists : ∀ h ∈ w.ledger.kept, blobExists w.stores.blobs h := by
    intro h hh
    obtain ⟨c, -, -, rfl⟩ := hkept.keptNamed h hh
    rw [blobExists, validHash_hashHex, Bool.true_and]
    exact hkept.stored _ hh
  constructor
  · intro m hm
    refine hexists _ (mem_append_left _ (mem_append_left _ ?_))
    exact mem_map.mpr ⟨_, mem_map_of_mem hm, rfl⟩
  · intro u hu
    exact hexists _ (mem_append_left _ (mem_append_right _ (mem_map_of_mem hu)))

def sampleDrawOf (n : UInt8) : Draw := { sampleDraw with nonce := List.replicate 24 n }

def sampleSealing (n : UInt8) : Call := .sealForAccount (sampleDrawOf n) [2] 1 sampleOriginal

def sampleName (n : UInt8) : Text :=
  hashHex sampleMailer (Crypto.aeadSeal sampleMailer sampleDraw.dek 1 (sampleDrawOf n).nonce sampleOriginal)

def sampleWrap : Bytes :=
  ((Crypto.hpkeSeal sampleMailer [2] 1 dekSealInfo sampleDraw.dek []).toOption).getD []

def sampleRow (n : UInt8) : NewMessage :=
  newMessageOf { messageId := none, inReplyTo := .other, references := .other, subject := none } none
    (sampleRecipient 1) sampleEnvelope sampleResults sampleOriginal 1700000000 none .default 1 1
    (sampleName n) sampleWrap

def sampleUpload (n : UInt8) : NewUpload :=
  { accountId := 1, blobHash := sampleName n, dekWrap := sampleWrap, keyId := 1, filename := []
    contentType := [], sizeBytes := 0, createdAt := 1700000000 }

/-- A delivery and an upload seal before either files its row, a message is enqueued, two requests find
the delivered message and both delete it, and the next delivery gets its row id. -/
def sampleCalls : List Call :=
  [sampleSealing 1, sampleSealing 2, .insertMessage .none 0 (sampleRow 1),
    .insertUpload .none 0 (sampleUpload 2), .worker sampleWrite, .worker (.insert 0 .none 1700000000),
    .ownMessage .none 1 1, .ownMessage .none 1 1, .deleteMessage .none 0, sampleSealing 3,
    .insertMessage .none 2 (sampleRow 3), .removeBlob .none 0, .deleteMessage .none 0,
    sampleSealing 4, .insertMessage .none 1 (sampleRow 4), .removeBlob .none 0]

theorem blobs_stay_interleaved :
    ∃ w, run (callStep sampleMailer []) (World.start [] []) sampleCalls = some w ∧
      w.stores.metadata.messages.map (fun m => (m.id, m.blobHash)) = [(1, sampleName 4)] ∧
      (∀ m ∈ w.stores.metadata.messages, blobExists w.stores.blobs m.blobHash) ∧
        ∀ u ∈ w.stores.metadata.uploads, blobExists w.stores.blobs u.blobHash := by
  have hends : ((run (callStep sampleMailer []) (World.start [] []) sampleCalls).map fun w =>
      w.stores.metadata.messages.map fun m => (m.id, m.blobHash)) = some [(1, sampleName 4)] := by
    decide +kernel
  have hideal : Along (callStep sampleMailer []) (Ideal sampleMailer []) (World.start [] [])
      sampleCalls := by decide +kernel
  obtain ⟨w, hrun, hrows⟩ := map_eq_some_iff.mp hends
  exact ⟨w, hrun, hrows, (blobs_stay sampleMailer [] [] []).2 sampleCalls w hrun hideal⟩

end Litterae.Mail
