import Litterae.Mail.Filing

/-! # Runs of the mail store

Deliveries, drafts, submissions, uploads, updates and destroys of any number of accounts, one after
the other, with the actions of the worker and of enqueues between them. * `threads_assigned`: every
message is in a thread of its account, and which thread a delivery joins. * `mailboxes_sound`: every
message is in one mailbox of its account, in runs whose updates name mailboxes of their account.
-/

namespace Litterae.Mail
open Foundations Store Delivery Queue Jmap Exec List

inductive Act where
  /-- The worker, or an enqueue beside it. -/
  | worker (a : Queue.Act)
  | deliver (draw : Draw) (account : RecipientAccount) (envelope : InboundEnvelope)
      (results : AuthResults) (raw : Bytes) (receivedAt : ℤ) (spamReason : Option Text)
      (scan : ScanMetadata)
  | draft (C : Composer) (draw : ComposeDraw) (ctx : AccountContext) (accountId : ℤ)
      (req : EmailCreateRequest)
  | submit (draw : SubmitDraw) (ctx : AccountContext) (accountId : ℤ)
      (req : EmailSubmissionCreateRequest)
  | upload (E : Environment) (io : RequestIo) (session : Jmap.Session) (filename contentType : Text)
      (body : Bytes)
  | update (io : UpdateIo) (accountId : ℤ) (id : Text) (patch : List (Text × Value))
  | destroy (faults : Faults) (accountId : ℤ) (id : Text)

section
variable (P : Primitives) (hostname : Text)

def step (l : Loop) : Act → Option Loop
  | .worker a => Queue.step P hostname l a
  | .deliver draw account envelope results raw receivedAt spamReason scan =>
    some { l with
      stores := (deliver P draw account envelope results raw receivedAt spamReason scan l.stores).2 }
  | .draft C draw ctx accountId req =>
    some { l with stores := (createDraft P C draw ctx accountId req l.stores).2 }
  | .submit draw ctx accountId req =>
    some { l with stores := (submitEmail P draw ctx accountId req l.stores).2 }
  | .upload E io session filename contentType body =>
    some { l with
      stores := (storeUpload { E with P } io session filename contentType body l.stores).2 }
  | .update io accountId id patch =>
    some { l with stores := (emailUpdate accountId io id patch l.stores).2 }
  | .destroy faults accountId id =>
    some { l with stores := (emailDestroy accountId faults id l.stores).2 }

end

def start (accounts : List Account) (domains : List Domain) : Loop :=
  Loop.start { Stores.empty with accounts, domains }

def Names (l : Loop) : Act → ℤ → ℤ → Prop
  | .update _ accountId id patch => UpdateNames accountId id patch l.stores
  | _ => fun _ _ => False

variable {acts : List Act} {domains : List Domain} {accounts : List Account} {hostname : Text}
  {P : Primitives}

section
variable {l l' : Loop} {a : Act}

theorem step_files (hl : Filed l.stores.metadata) (h : step P hostname l a = some l') :
    Files (Names l a) l.stores l'.stores := by
  cases a with
  | worker => exact worker_files hl h
  | deliver =>
    cases h
    exact deliver_files hl
  | draft _ _ _ _ req =>
    cases h
    exact createDraft_files req hl
  | submit _ _ _ req =>
    cases h
    exact submitEmail_files req hl
  | upload _ _ session filename contentType body =>
    cases h
    exact storeUpload_files session filename contentType body l.stores
  | update io _ id patch =>
    cases h
    exact emailUpdate_files io id patch hl
  | destroy _ _ id =>
    cases h
    exact emailDestroy_files id hl

theorem filed_start (accounts : List Account) (domains : List Domain) :
    Filed (start accounts domains).stores.metadata :=
  ⟨nodup_nil, nodup_nil, fun _ hr => absurd hr not_mem_nil⟩

theorem filed_run (hrun : run (step P hostname) (start accounts domains) acts = some l) :
    Filed l.stores.metadata :=
  run_invariant (I := fun l => Filed l.stores.metadata)
    (fun _ _ _ hl _ hstep => (step_files hl hstep).filed hl) (filed_start accounts domains)
    (Along.of_forall (fun _ _ => trivial) _ _) hrun

end

/-! ## The thread of a delivered message -/

def Answers (account : RecipientAccount) (parsed : ParsedMail) (m : StoredMessage) : Prop :=
  m.accountId = account.id ∧
    ∃ id ∈ headerValueIds parsed.inReplyTo ++ headerValueIds parsed.references,
      m.messageIdHeader = some id

def UnderSubject (account : RecipientAccount) (hash : Option Text) (m : StoredMessage) : Prop :=
  m.accountId = account.id ∧ hash.isSome = true ∧ m.subjectHash = hash

variable {r : StoredMessage} {m : MetadataStore}

section
variable {draw : Draw} {account : RecipientAccount} {envelope : InboundEnvelope}
  {results : AuthResults} {raw : Bytes} {receivedAt : ℤ} {spamReason : Option Text}
  {scan : ScanMetadata} {s t : Stores} {d : DeliveredMessage} {parsed : ParsedMail}
  {hash : Option Text} {rows : List StoredMessage}

def threadMatch (account : RecipientAccount) (parsed : ParsedMail) (hash : Option Text) :
    ThreadMatch where
  accountId := account.id
  referenceIds := headerValueIds parsed.inReplyTo ++ headerValueIds parsed.references
  subjectHash := hash

def chosenThread (pick : ℕ) (q : ThreadMatch) (m : MetadataStore) : ℤ :=
  ((joined pick q m).map fun r => r.threadId).getD (nextRowid Thread.id m.threads)

theorem deliver_thread
    (h : deliver P draw account envelope results raw receivedAt spamReason scan s = (.ok d, t)) :
    ∃ parsed hash row, P.parse raw = some parsed ∧
      subjectHash P account.accountPub parsed.subject = some hash ∧
      t.metadata.messages = s.metadata.messages ++ [row] ∧ row.accountId = account.id ∧
      row.threadId = chosenThread draw.pick (threadMatch account parsed hash) s.metadata := by
  unfold deliver at h
  cases hparse : P.parse raw with
  | none => rw [hparse] at h; cases h
  | some parsed =>
    rw [hparse] at h
    obtain ⟨hash, s₁, hhash, h₁⟩ := bind_ok h
    obtain ⟨mailbox, s₂, hmailbox, h₂⟩ := bind_ok h₁
    obtain ⟨threadId, s₃, hthread, h₃⟩ := bind_ok h₂
    obtain ⟨⟨blobHash, dekWrap⟩, s₄, hseal, h₄⟩ := bind_ok h₃
    obtain ⟨messageId, s₅, hinsert, h₅⟩ := bind_ok h₄
    cases h₅
    obtain ⟨hsome, rfl⟩ : subjectHash P account.accountPub parsed.subject = some hash ∧ s₁ = s := by
      cases hsubject : subjectHash P account.accountPub parsed.subject with
      | none => rw [hsubject] at hhash; cases hhash
      | some => rw [hsubject] at hhash; cases hhash; exact ⟨rfl, rfl⟩
    have hmessages₂ : s₂.metadata.messages = s₁.metadata.messages := ensureMailbox_messages hmailbox
    have hthreads₂ : s₂.metadata.threads = s₁.metadata.threads :=
      (ensureMailbox_same (fun _ _ => rfl) _ _).run
        (onMetadata_eq hmailbox).1
    have hjoined : joined draw.pick (threadMatch account parsed hash) s₂.metadata =
        joined draw.pick (threadMatch account parsed hash) s₁.metadata :=
      joined_congr (by rw [hmessages₂])
    have hchosen : threadId = chosenThread draw.pick (threadMatch account parsed hash) s₁.metadata := by
      rw [chosenThread, ← hjoined, ← hthreads₂]
      rcases findOrCreateThread_ok (onMetadata_eq hthread).1 with ⟨r, hr, rfl, -⟩ | ⟨hr, rfl, -⟩
      · have hr' : joined draw.pick (threadMatch account parsed hash) s₂.metadata = some r := hr
        rw [hr']
        rfl
      · have hr' : joined draw.pick (threadMatch account parsed hash) s₂.metadata = none := hr
        rw [hr']
        rfl
    have hmessages₃ : s₃.metadata.messages = s₂.metadata.messages :=
      (findOrCreateThread_same (fun _ _ => rfl) _).run
        (onMetadata_eq hthread).1
    have hmessages₄ : s₄.metadata.messages = s₃.metadata.messages :=
      sealForAccount_sameMail.run hseal
    obtain ⟨hrow, -⟩ := insertMessage_ok hinsert
    rw [hmessages₄, hmessages₃, hmessages₂] at hrow
    exact ⟨parsed, hash, _, rfl, hsome, hrow, rfl, hchosen⟩

theorem mem_answered :
    r ∈ answered (threadMatch account parsed hash) m ↔
      r ∈ m.messages ∧ Answers account parsed r := by
  simp only [answered, threadMatch, Answers, mem_filter, Bool.and_eq_true, beq_iff_eq,
    Option.any_eq_true, contains_iff_mem]
  constructor
  · rintro ⟨hr, howner, id, hid, hrefs⟩
    exact ⟨hr, howner, id, hrefs, hid⟩
  · rintro ⟨hr, howner, id, hrefs, hid⟩
    exact ⟨hr, howner, id, hid, hrefs⟩

theorem mem_alike :
    r ∈ alike (threadMatch account parsed hash) m ↔
      r ∈ m.messages ∧ UnderSubject account hash r := by
  simp only [alike, threadMatch, UnderSubject, mem_filter, Bool.and_eq_true, beq_iff_eq,
    and_assoc]

theorem mem_latest :
    r ∈ latest rows ↔ r ∈ rows ∧ ∀ r' ∈ rows, r'.receivedAt ≤ r.receivedAt := by
  simp [latest]

theorem latest_ne_nil (h : rows ≠ []) : latest rows ≠ [] := by
  obtain ⟨r, hr⟩ : ∃ r, rows.argmax (fun r => r.receivedAt) = some r :=
    Option.ne_none_iff_exists'.mp fun hnone => h (argmax_eq_none.mp hnone)
  have hmax : ∀ r' ∈ rows, r'.receivedAt ≤ r.receivedAt :=
    fun r' hr' => le_of_mem_argmax (f := fun r : StoredMessage => r.receivedAt) hr' hr
  exact ne_nil_of_mem (mem_latest.mpr ⟨argmax_mem hr, hmax⟩)

end

/-- In every reachable state each message is in a thread of its account. A delivery joins the thread
of a message it answers, else that of a latest one under its subject, else a thread of its own; of the
other accounts' messages nothing but the next free thread id counts. -/
theorem threads_assigned (P : Primitives) (hostname : Text) (accounts : List Account)
    (domains : List Domain) (acts : List Act) (l : Loop)
    (hrun : run (step P hostname) (start accounts domains) acts = some l) :
    (∀ m ∈ l.stores.metadata.messages, ∃ thread ∈ l.stores.metadata.threads,
      thread.id = m.threadId ∧ thread.accountId = m.accountId) ∧
    ∀ draw account envelope results raw receivedAt spamReason scan d t,
      deliver P draw account envelope results raw receivedAt spamReason scan l.stores = (.ok d, t) →
      ∃ parsed hash row, P.parse raw = some parsed ∧
        subjectHash P account.accountPub parsed.subject = some hash ∧
        t.metadata.messages = l.stores.metadata.messages ++ [row] ∧ row.accountId = account.id ∧
        ((∃ m ∈ l.stores.metadata.messages, Answers account parsed m) →
          ∃ m ∈ l.stores.metadata.messages, Answers account parsed m ∧ row.threadId = m.threadId) ∧
        ((∀ m ∈ l.stores.metadata.messages, ¬ Answers account parsed m) →
          (∃ m ∈ l.stores.metadata.messages, UnderSubject account hash m) →
          ∃ m ∈ l.stores.metadata.messages, UnderSubject account hash m ∧
            (∀ m' ∈ l.stores.metadata.messages, UnderSubject account hash m' →
              m'.receivedAt ≤ m.receivedAt) ∧ row.threadId = m.threadId) ∧
        ((∀ m ∈ l.stores.metadata.messages,
            ¬ Answers account parsed m ∧ ¬ UnderSubject account hash m) →
          ∀ m ∈ l.stores.metadata.messages, m.threadId ≠ row.threadId) ∧
        ∀ s' d' t', s'.metadata.messages.filter (fun m => m.accountId == account.id) =
            l.stores.metadata.messages.filter (fun m => m.accountId == account.id) →
          nextRowid Thread.id s'.metadata.threads = nextRowid Thread.id l.stores.metadata.threads →
          deliver P draw account envelope results raw receivedAt spamReason scan s' = (.ok d', t') →
          ∃ row', t'.metadata.messages = s'.metadata.messages ++ [row'] ∧
            row'.threadId = row.threadId := by
  have hfiled : Filed l.stores.metadata := filed_run hrun
  refine ⟨hfiled.threads, ?_⟩
  intro draw account envelope results raw receivedAt spamReason scan d t hdeliver
  obtain ⟨parsed, hash, row, hparse, hhash, hrow, howner, hthread⟩ := deliver_thread hdeliver
  refine ⟨parsed, hash, row, hparse, hhash, hrow, howner, ?_, ?_, ?_, ?_⟩
  · rintro ⟨m, hm, hanswers⟩
    have hsome : answered (threadMatch account parsed hash) l.stores.metadata ≠ [] :=
      ne_nil_of_mem (mem_answered.mpr ⟨hm, hanswers⟩)
    obtain ⟨r, hr⟩ := Option.ne_none_iff_exists'.mp (mt pickFrom_eq_none_iff.mp hsome)
    have hmem := mem_answered.mp (pickFrom_mem hr)
    refine ⟨r, hmem.1, hmem.2, ?_⟩
    rw [hthread, chosenThread, joined, hr]
    rfl
  · rintro hnone ⟨m, hm, hsubject⟩
    have hempty : answered (threadMatch account parsed hash) l.stores.metadata = [] :=
      eq_nil_iff_forall_not_mem.mpr fun r hr =>
        hnone r (mem_answered.mp hr).1 (mem_answered.mp hr).2
    have hsome : latest (alike (threadMatch account parsed hash) l.stores.metadata) ≠ [] :=
      latest_ne_nil (ne_nil_of_mem (mem_alike.mpr ⟨hm, hsubject⟩))
    obtain ⟨r, hr⟩ := Option.ne_none_iff_exists'.mp (mt pickFrom_eq_none_iff.mp hsome)
    obtain ⟨halike, hlatest⟩ := mem_latest.mp (pickFrom_mem hr)
    refine ⟨r, (mem_alike.mp halike).1, (mem_alike.mp halike).2, fun m' hm' hunder => ?_, ?_⟩
    · exact hlatest m' (mem_alike.mpr ⟨hm', hunder⟩)
    · rw [hthread, chosenThread, joined, pickFrom_eq_none_iff.mpr hempty, Option.none_or, hr]
      rfl
  · intro hnone m hm hsame
    have hanswered : answered (threadMatch account parsed hash) l.stores.metadata = [] :=
      eq_nil_iff_forall_not_mem.mpr fun r hr =>
        (hnone r (mem_answered.mp hr).1).1 (mem_answered.mp hr).2
    have halike : alike (threadMatch account parsed hash) l.stores.metadata = [] :=
      eq_nil_iff_forall_not_mem.mpr fun r hr =>
        (hnone r (mem_alike.mp hr).1).2 (mem_alike.mp hr).2
    have hnew : row.threadId = nextRowid Thread.id l.stores.metadata.threads := by
      rw [hthread, chosenThread, joined, halike, pickFrom_eq_none_iff.mpr hanswered]
      rfl
    -- Threads are never deleted, so the next free id is above the thread of every message.
    obtain ⟨thread, hmem, hid, -⟩ := hfiled.threads m hm
    have hlt := lt_nextRowid Thread.id hmem
    omega
  · intro s' d' t' hsame hnext hdeliver'
    obtain ⟨parsed', hash', row', hparse', hhash', hrow', -, hthread'⟩ := deliver_thread hdeliver'
    obtain rfl : parsed = parsed' := Option.some.inj (hparse.symm.trans hparse')
    obtain rfl : hash = hash' := Option.some.inj (hhash.symm.trans hhash')
    refine ⟨row', hrow', ?_⟩
    rw [hthread, hthread', chosenThread, chosenThread, joined_congr hsame, hnext]

/-! Two accounts receive the same message; then the second receives an answer to it. -/

def sampleOriginal : Bytes := utf8 "Message-ID: <1@example.net>\r\n\r\nhi\r\n"

def sampleAnswer : Bytes := utf8 "In-Reply-To: <1@example.net>\r\n\r\nho\r\n"

def sampleHeaders (raw : Bytes) : Option ParsedMail :=
  if raw = sampleOriginal then
    some { messageId := some "1@example.net", inReplyTo := .other, references := .other
           subject := none }
  else
    some { messageId := none, inReplyTo := .text "1@example.net", references := .other
           subject := none }

def sampleMailer : Primitives := .sample sampleHeaders

def sampleEnvelope : InboundEnvelope :=
  { mailFrom := "carol@example.net", rcptTo := "box@example.com"
    remoteIp := "203.0.113.5" }

def sampleResults : AuthResults :=
  { spf := "pass", dkim := "pass", dmarc := "pass" }

def sampleRecipient (accountId : ℤ) : RecipientAccount :=
  { id := accountId, accountPub := [2], keyId := 1 }

def sampleDelivery (accountId : ℤ) (raw : Bytes) : Act :=
  .deliver sampleDraw (sampleRecipient accountId) sampleEnvelope sampleResults raw 1700000000 none
    .default

def sampleThreads (s : Stores) : List (ℤ × ℤ) :=
  s.metadata.messages.map fun m => (m.accountId, m.threadId)

theorem threads_assigned_answer :
    ∃ l d t, run (step sampleMailer []) (start [] [])
        [sampleDelivery 1 sampleOriginal, sampleDelivery 2 sampleOriginal] = some l ∧
      deliver sampleMailer sampleDraw (sampleRecipient 2) sampleEnvelope sampleResults sampleAnswer
        1700000000 none .default l.stores = (.ok d, t) ∧
      sampleThreads t = [(1, 1), (2, 2), (2, 2)] ∧
      ∃ row, t.metadata.messages = l.stores.metadata.messages ++ [row] ∧
        ∃ m ∈ l.stores.metadata.messages, m.accountId = 2 ∧ row.threadId = m.threadId := by
  have hends : ((run (step sampleMailer []) (start [] [])
      [sampleDelivery 1 sampleOriginal, sampleDelivery 2 sampleOriginal]).map fun l =>
        let r := deliver sampleMailer sampleDraw (sampleRecipient 2) sampleEnvelope sampleResults
          sampleAnswer 1700000000 none .default l.stores
        (l.stores.metadata.messages.any fun m =>
            m.accountId == 2 && m.messageIdHeader == some "1@example.net",
          r.1.isOk, sampleThreads r.2)) = some (true, true, [(1, 1), (2, 2), (2, 2)]) := by
    decide +kernel
  obtain ⟨l, hrun, hfacts⟩ := Option.map_eq_some_iff.mp hends
  generalize hdeliver : deliver sampleMailer sampleDraw (sampleRecipient 2) sampleEnvelope
    sampleResults sampleAnswer 1700000000 none .default l.stores = r at hfacts
  obtain ⟨outcome, t⟩ := r
  simp only [Prod.mk.injEq, any_eq_true, Bool.and_eq_true, beq_iff_eq, Res.isOk_iff] at hfacts
  obtain ⟨⟨m, hm, howner, hid⟩, ⟨d, rfl⟩, hthreads⟩ := hfacts
  refine ⟨l, d, t, hrun, hdeliver, hthreads, ?_⟩
  obtain ⟨-, hdelivered⟩ := threads_assigned sampleMailer [] [] [] _ l hrun
  obtain ⟨parsed, hash, row, hparse, -, hrow, -, hjoins, -⟩ :=
    hdelivered _ _ _ _ _ _ _ _ _ _ hdeliver
  obtain rfl : _ = parsed := Option.some.inj hparse
  obtain ⟨m', hm', hanswers, hthread⟩ := hjoins ⟨m, hm, howner, "1@example.net",
    mem_singleton.mpr rfl, hid⟩
  exact ⟨row, hrow, m', hm', hanswers.1, hthread⟩

/-! ## The mailbox of a message -/

/-- An update whose message is there and the account's names a mailbox of the account, if any. -/
def namesOwn (l : Loop) : Act → Bool
  | .update _ accountId id patch =>
    (emailRowId id).all fun rowId =>
      (findBy StoredMessage.id rowId l.stores.metadata.messages).all fun m =>
        m.accountId != accountId || (targetMailbox patch).all fun mailboxId =>
          l.stores.metadata.mailboxes.any fun b => b.id == mailboxId && b.accountId == accountId
  | _ => true

def Lists (b : Mailbox) (r : StoredMessage) (m : MetadataStore) : Prop :=
  ∃ rows, (messagesInMailbox .none b.accountId b.id m).1 = .ok rows ∧ r ∈ rows

section
variable {l l' : Loop} {a : Act}

theorem names_own (h : namesOwn l a) {accountId mailboxId : ℤ}
    (hnames : Names l a accountId mailboxId) : HasMailbox accountId mailboxId l.stores.metadata := by
  cases a with
  | update =>
    obtain ⟨rfl, htarget, rowId, hid, m, hfound, howner⟩ := hnames
    simp only [namesOwn, hid, Option.all_some, hfound, howner, bne_self_eq_false, Bool.false_or,
      htarget, any_eq_true, Bool.and_eq_true, beq_iff_eq] at h
    exact h
  | _ => exact hnames.elim

theorem lists_iff {b : Mailbox} :
    Lists b r m ↔ r ∈ m.messages ∧ r.accountId = b.accountId ∧ r.mailboxId = b.id := by
  have hquery : (messagesInMailbox .none b.accountId b.id m).1 = .ok (latestFirst
      (m.messages.filter fun r => r.accountId == b.accountId && r.mailboxId == b.id)) := rfl
  simp only [Lists, hquery, Res.ok.injEq, exists_eq_left', latestFirst_perm.mem_iff,
    mem_filter, Bool.and_eq_true, beq_iff_eq]

theorem boxed_run (hrun : run (step P hostname) (start accounts domains) acts = some l)
    (hown : Along (step P hostname) (fun l a => namesOwn l a = true) (start accounts domains) acts) :
    Filed l.stores.metadata ∧ Boxed l.stores.metadata := by
  refine run_invariant (I := fun l => Filed l.stores.metadata ∧ Boxed l.stores.metadata) ?_
    ⟨filed_start accounts domains, fun _ hr => absurd hr not_mem_nil⟩ hown hrun
  rintro l a l' ⟨hfiled, hboxed⟩ hG hstep
  have hfiles := step_files hfiled hstep
  exact ⟨hfiles.filed hfiled, Filings.boxed hfiles (fun _ _ => names_own hG) hboxed⟩

end

/-- In every run whose updates name mailboxes of their account, each message is in a mailbox of its own
account, and exactly one mailbox of the account lists it. -/
theorem mailboxes_sound (P : Primitives) (hostname : Text) (accounts : List Account)
    (domains : List Domain) (acts : List Act) (l : Loop)
    (hrun : run (step P hostname) (start accounts domains) acts = some l)
    (hown : Along (step P hostname) (fun l a => namesOwn l a = true) (start accounts domains) acts) :
    ∀ m ∈ l.stores.metadata.messages,
      (∃ b ∈ l.stores.metadata.mailboxes, b.id = m.mailboxId ∧ b.accountId = m.accountId) ∧
      ∃! b : Mailbox, b ∈ l.stores.metadata.mailboxes ∧ b.accountId = m.accountId ∧
        Lists b m l.stores.metadata := by
  intro m hm
  obtain ⟨hfiled, hboxed⟩ := boxed_run hrun hown
  obtain ⟨b, hb, hid, howner⟩ := hboxed m hm
  refine ⟨⟨b, hb, hid, howner⟩, b, ⟨hb, howner, lists_iff.mpr ⟨hm, howner.symm, hid.symm⟩⟩, ?_⟩
  rintro b' ⟨hb', -, hlists⟩
  obtain ⟨-, -, hid'⟩ := lists_iff.mp hlists
  exact inj_on_of_nodup_map hfiled.mailboxIds hb' hb (hid'.symm.trans hid.symm)

def sampleMove (accountId : ℤ) (id mailbox : String) : Act :=
  .update { faults := .none, entries := fun _ => .none } accountId id.toList
    [("mailboxIds/" ++ mailbox.toList, .bool true)]

/-- Account 1 files its message under the archive of account 1, account 2 throws its own away. -/
def sampleMoves : List Act :=
  [sampleDelivery 1 sampleOriginal, sampleDelivery 2 sampleOriginal, sampleMove 1 "m1" "b2",
    .destroy .none 2 "m2"]

theorem mailboxes_sound_moves :
    ∃ l, run (step sampleMailer []) (start [] []) sampleMoves = some l ∧
      l.stores.metadata.messages.map (fun m => (m.accountId, m.mailboxId)) = [(1, 2), (2, 9)] ∧
      ∀ m ∈ l.stores.metadata.messages,
        (∃ b ∈ l.stores.metadata.mailboxes, b.id = m.mailboxId ∧ b.accountId = m.accountId) ∧
        ∃! b : Mailbox, b ∈ l.stores.metadata.mailboxes ∧ b.accountId = m.accountId ∧
          Lists b m l.stores.metadata := by
  have hends : ((run (step sampleMailer []) (start [] []) sampleMoves).map fun l =>
      l.stores.metadata.messages.map fun m => (m.accountId, m.mailboxId)) =
        some [(1, 2), (2, 9)] := by
    decide +kernel
  have hown : Along (step sampleMailer []) (fun l a => namesOwn l a = true) (start [] [])
      sampleMoves := by decide +kernel
  obtain ⟨l, hrun, hrows⟩ := Option.map_eq_some_iff.mp hends
  exact ⟨l, hrun, hrows, mailboxes_sound sampleMailer [] [] [] sampleMoves l hrun hown⟩

/-- Account 1 names a mailbox of account 2 for its message, and one that does not exist for another:
neither message is in a mailbox of account 1 any more. -/
theorem update_names_foreign_mailbox :
    (run (step sampleMailer []) (start [] [])
      [sampleDelivery 1 sampleOriginal, sampleDelivery 1 sampleAnswer,
        sampleDelivery 2 sampleOriginal, sampleMove 1 "m1" "b7", sampleMove 1 "m2" "b99"]).map
      (fun l => l.stores.metadata.messages.map fun m =>
        (m.accountId, m.mailboxId, l.stores.metadata.mailboxes.any fun b =>
          b.id == m.mailboxId && b.accountId == m.accountId)) =
    some [(1, 7, false), (1, 99, false), (2, 7, true)] := by
  decide +kernel

end Litterae.Mail
