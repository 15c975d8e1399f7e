import Litterae.Jmap.Ownership
import Litterae.Queue.Loop
import Mathlib.Data.List.MinMax

/-! # Where messages are filed

A message row names a mailbox and a thread by their row ids, and no foreign key stands behind
either.
-/

namespace Litterae.Mail
open Foundations Store Delivery Queue Jmap Exec Bool List Relation.ReflTransGen

def HasMailbox (accountId id : ℤ) (m : MetadataStore) : Prop :=
  ∃ b ∈ m.mailboxes, b.id = id ∧ b.accountId = accountId

def HasThread (accountId id : ℤ) (m : MetadataStore) : Prop :=
  ∃ t ∈ m.threads, t.id = id ∧ t.accountId = accountId

/-- One statement. A message is moved to a mailbox of its account, or to one that `B` lets the client
name. -/
inductive Filing (B : ℤ → ℤ → Prop) (m : MetadataStore) : MetadataStore → Prop where
  | upload (uploads : List StoredUpload) : Filing B m { m with uploads }
  | mailbox (b : Mailbox) (hid : b.id = nextRowid Mailbox.id m.mailboxes) :
      Filing B m { m with mailboxes := m.mailboxes ++ [b] }
  | thread (accountId : ℤ) :
      Filing B m { m with threads := m.threads ++ [{ id := nextRowid Thread.id m.threads, accountId }] }
  | message (new : NewMessage) (hmailbox : HasMailbox new.accountId new.mailboxId m)
      (hthread : HasThread new.accountId new.threadId m) :
      Filing B m { m with messages := m.messages ++
        [{ new with id := nextRowid StoredMessage.id m.messages }] }
  | move (rowId mailboxId : ℤ)
      (h : ∀ r ∈ m.messages, r.id = rowId →
        HasMailbox r.accountId mailboxId m ∨ B r.accountId mailboxId) :
      Filing B m (setMailbox rowId mailboxId m)
  | keywords (rowId : ℤ) (keywords : Text) : Filing B m (setKeywords rowId keywords m)
  | delete (rowId : ℤ) :
      Filing B m { m with messages := m.messages.filter fun r => r.id != rowId }

abbrev Filings (B : ℤ → ℤ → Prop) : MetadataStore → MetadataStore → Prop :=
  Relation.ReflTransGen (Filing B)

instance {B : ℤ → ℤ → Prop} : IsPreorder MetadataStore (Filings B) where
  refl := fun _ => .refl
  trans := fun _ _ _ => .trans

def Files (B : ℤ → ℤ → Prop) (s t : Stores) : Prop := Filings B s.metadata t.metadata

/-- Row ids name rows, and every message is in a thread of its account. -/
structure Filed (m : MetadataStore) : Prop where
  messageIds : (m.messages.map StoredMessage.id).Nodup
  mailboxIds : (m.mailboxes.map Mailbox.id).Nodup
  threads : ∀ r ∈ m.messages, HasThread r.accountId r.threadId m

def Boxed (m : MetadataStore) : Prop := ∀ r ∈ m.messages, HasMailbox r.accountId r.mailboxId m

/-! ## What one statement preserves -/

variable {id accountId : ℤ} {B : ℤ → ℤ → Prop} {r : StoredMessage} {α : Type}

section
variable {m m' : MetadataStore} {s t : Stores}

section
variable (h : Filing B m m')
include h

theorem Filing.hasMailbox (hm : HasMailbox accountId id m) : HasMailbox accountId id m' := by
  obtain ⟨b, hb, heq⟩ := hm
  cases h with
  | mailbox => exact ⟨b, mem_append_left _ hb, heq⟩
  | _ => exact ⟨b, hb, heq⟩

theorem Filing.hasThread (hm : HasThread accountId id m) : HasThread accountId id m' := by
  obtain ⟨t, ht, heq⟩ := hm
  cases h with
  | thread => exact ⟨t, mem_append_left _ ht, heq⟩
  | _ => exact ⟨t, ht, heq⟩

theorem Filing.row (hr : r ∈ m'.messages) :
    (HasMailbox r.accountId r.mailboxId m ∧ HasThread r.accountId r.threadId m) ∨
      ∃ r₀ ∈ m.messages, r₀.accountId = r.accountId ∧ r₀.threadId = r.threadId ∧
        (r₀.mailboxId = r.mailboxId ∨ HasMailbox r.accountId r.mailboxId m ∨
          B r.accountId r.mailboxId) := by
  cases h with
  | message _ hmailbox hthread =>
    rcases mem_append.mp hr with hold | hnew
    · exact .inr ⟨r, hold, rfl, rfl, .inl rfl⟩
    · obtain rfl := mem_singleton.mp hnew
      exact .inl ⟨hmailbox, hthread⟩
  | move rowId _ hmove =>
    obtain ⟨r₀, hr₀, rfl⟩ := mem_updateWhere.mp hr
    by_cases hid : (r₀.id == rowId)
    · simp only [hid, if_true]
      exact .inr ⟨r₀, hr₀, rfl, rfl, .inr (hmove r₀ hr₀ (by simpa using hid))⟩
    · simp only [hid]
      exact .inr ⟨r₀, hr₀, rfl, rfl, .inl rfl⟩
  | keywords =>
    obtain ⟨r₀, hr₀, rfl⟩ := mem_updateWhere.mp hr
    refine .inr ⟨r₀, hr₀, ?_⟩
    split <;> exact ⟨rfl, rfl, .inl rfl⟩
  | delete => exact .inr ⟨r, (mem_filter.mp hr).1, rfl, rfl, .inl rfl⟩
  | _ => exact .inr ⟨r, hr, rfl, rfl, .inl rfl⟩

theorem Filing.messageIds (hm : (m.messages.map StoredMessage.id).Nodup) :
    (m'.messages.map StoredMessage.id).Nodup := by
  cases h with
  | message => exact nodup_insert _ hm rfl
  | move _ mailboxId =>
    rw [setMailbox, map_updateWhere (f := fun r : StoredMessage => { r with mailboxId }) _ fun _ => rfl]
    exact hm
  | keywords _ keywords =>
    rw [setKeywords, map_updateWhere (f := fun r : StoredMessage => { r with keywords }) _ fun _ => rfl]
    exact hm
  | delete => exact hm.sublist (filter_sublist.map _)
  | _ => exact hm

theorem Filing.filed (hm : Filed m) : Filed m' where
  messageIds := h.messageIds hm.messageIds
  mailboxIds := by
    cases h with
    | mailbox b hid => exact nodup_insert _ hm.mailboxIds hid
    | _ => exact hm.mailboxIds
  threads r hr := by
    rcases h.row hr with ⟨-, hthread⟩ | ⟨r₀, hr₀, howner, hthread, -⟩
    · exact h.hasThread hthread
    · rw [← howner, ← hthread]
      exact h.hasThread (hm.threads r₀ hr₀)

theorem Filing.boxed (hB : ∀ a b, B a b → HasMailbox a b m) (hm : Boxed m) : Boxed m' := by
  intro r hr
  apply h.hasMailbox
  rcases h.row hr with ⟨hmailbox, -⟩ | ⟨r₀, hr₀, howner, -, hsame | hmailbox | hnamed⟩
  · exact hmailbox
  · rw [← howner, ← hsame]
    exact hm r₀ hr₀
  · exact hmailbox
  · exact hB _ _ hnamed

end

/-! ### Sequences of statements -/

instance : IsPreorder Stores (Files B) where
  refl := fun _ => .refl
  trans := fun _ _ _ => trans

theorem Files.of_same (h : t.metadata = s.metadata) : Files B s t := by
  unfold Files
  rw [h]

theorem Filings.preserves {I : MetadataStore → Prop} (hstep : ∀ l n, Filing B l n → I l → I n)
    (h : Filings B m m') (hm : I m) : I m' := by
  induction h with
  | refl => exact hm
  | tail _ hstatement ih => exact hstep _ _ hstatement ih

theorem Filings.hasMailbox (h : Filings B m m') (hm : HasMailbox accountId id m) :
    HasMailbox accountId id m' := h.preserves (fun _ _ h => h.hasMailbox) hm

theorem Filings.hasThread (h : Filings B m m') (hm : HasThread accountId id m) :
    HasThread accountId id m' := h.preserves (fun _ _ h => h.hasThread) hm

theorem Filings.filed (h : Filings B m m') (hm : Filed m) : Filed m' :=
  h.preserves (fun _ _ h => h.filed) hm

theorem Files.filed (h : Files B s t) (hs : Filed s.metadata) : Filed t.metadata :=
  Filings.filed h hs

theorem Filings.boxed (h : Filings B m m') (hB : ∀ a b, B a b → HasMailbox a b m) (hm : Boxed m) :
    Boxed m' := by
  induction h with
  | refl => exact hm
  | tail hbefore hstatement ih =>
    exact hstatement.boxed (fun a b hab => Filings.hasMailbox hbefore (hB a b hab)) ih

theorem Files.bind {ε β : Type} {x : Exec Stores ε α} {f : α → Exec Stores ε β}
    (hx : Files B s (x s).2) (hf : ∀ a t, x s = (.ok a, t) → Files B s t → Files B t (f a t).2) :
    Files B s ((x >>= f) s).2 := by
  refine state_bind hx fun a t h => ?_
  rw [h] at hx
  exact trans_of _ hx (hf a t h hx)

end

/-! ## The thread a message joins -/

variable {faults : Faults} {q : ThreadMatch} {pick : ℕ}

theorem pickFrom_eq_none_iff {l : List α} : pickFrom pick l = none ↔ l = [] := by
  unfold pickFrom
  rw [List.getElem?_eq_none_iff]
  constructor
  · intro h
    by_contra hne
    have hpos : 0 < l.length := length_pos_of_ne_nil hne
    have hlt := Nat.mod_lt pick hpos
    omega
  · rintro rfl
    simp

def answered (q : ThreadMatch) (m : MetadataStore) : List StoredMessage :=
  m.messages.filter fun r => r.accountId == q.accountId && r.messageIdHeader.any q.referenceIds.contains

def alike (q : ThreadMatch) (m : MetadataStore) : List StoredMessage :=
  m.messages.filter fun r =>
    r.accountId == q.accountId && q.subjectHash.isSome && r.subjectHash == q.subjectHash

def latest (rows : List StoredMessage) : List StoredMessage :=
  rows.filter fun r => rows.all fun r' => decide (r'.receivedAt ≤ r.receivedAt)

def joined (pick : ℕ) (q : ThreadMatch) (m : MetadataStore) : Option StoredMessage :=
  (pickFrom pick (answered q m)).or (pickFrom pick (latest (alike q m)))

theorem threadByReference_run (m : MetadataStore) :
    threadByReference faults pick q.accountId q.referenceIds m =
      if q.referenceIds = [] then (.ok none, m)
      else match faults .threadByReference with
        | some detail => (.err (.storage detail), m)
        | none => (.ok ((pickFrom pick (answered q m)).map fun r => r.threadId), m) := by
  unfold threadByReference
  rw [ite_run, sql_bind_run]
  by_cases hrefs : q.referenceIds = []
  · simp [hrefs]
  · simp only [List.isEmpty_iff, hrefs, if_false]
    cases faults .threadByReference <;> rfl

theorem threadBySubjectHash_run {hash : Text} (hq : q.subjectHash = some hash) (m : MetadataStore) :
    threadBySubjectHash faults pick q.accountId hash m = match faults .threadBySubjectHash with
      | some detail => (.err (.storage detail), m)
      | none => (.ok ((pickFrom pick (latest (alike q m))).map fun r => r.threadId), m) := by
  have halike : alike q m =
      m.messages.filter fun r => r.accountId == q.accountId && r.subjectHash == some hash := by
    simp [alike, hq]
  rw [threadBySubjectHash, sql_bind_run, halike]
  cases faults .threadBySubjectHash <;> rfl

theorem createThread_ok {m m' : MetadataStore}
    (h : createThread faults accountId m = (.ok id, m')) :
    id = nextRowid Thread.id m.threads ∧ m' = { m with threads := m.threads ++ [{ id, accountId }] } := by
  rw [createThread, sql_bind_run] at h
  cases hfault : faults .threadInsert with
  | some => rw [hfault] at h; cases h
  | none =>
    rw [hfault] at h
    cases h
    exact ⟨rfl, rfl⟩

theorem findOrCreateThread_ok {m m' : MetadataStore}
    (h : findOrCreateThread faults pick q m = (.ok id, m')) :
    (∃ r, joined pick q m = some r ∧ id = r.threadId ∧ m' = m) ∨
      (joined pick q m = none ∧ id = nextRowid Thread.id m.threads ∧
        m' = { m with threads := m.threads ++ [{ id, accountId := q.accountId }] }) := by
  obtain ⟨found, m₁, href, h₁⟩ := bind_ok h
  have hfound : found = (pickFrom pick (answered q m)).map (fun r => r.threadId) ∧ m₁ = m := by
    rw [threadByReference_run] at href
    split at href
    · next hrefs =>
      cases href
      have hnone : answered q m = [] := by
        refine filter_eq_nil_iff.mpr fun r _ => ?_
        cases r.messageIdHeader <;> simp [hrefs]
      rw [hnone]
      exact ⟨rfl, rfl⟩
    · split at href
      · cases href
      · cases href
        exact ⟨rfl, rfl⟩
  obtain ⟨rfl, rfl⟩ := hfound
  unfold joined
  cases hanswered : pickFrom pick (answered q m₁) with
  | some r =>
    rw [hanswered] at h₁
    cases h₁
    exact .inl ⟨r, rfl, rfl, rfl⟩
  | none =>
    rw [hanswered] at h₁
    cases hhash : q.subjectHash with
    | none =>
      rw [hhash] at h₁
      have hnone : latest (alike q m₁) = [] := by simp [latest, alike, hhash]
      rw [pickFrom_eq_none_iff.mpr hnone]
      exact .inr ⟨rfl, createThread_ok h₁⟩
    | some =>
      rw [hhash] at h₁
      obtain ⟨found, m₂, hsubject, h₂⟩ := bind_ok h₁
      rw [threadBySubjectHash_run hhash] at hsubject
      split at hsubject
      · cases hsubject
      · cases hsubject
        cases hlatest : pickFrom pick (latest (alike q m₁)) with
        | some r =>
          rw [hlatest] at h₂
          cases h₂
          exact .inl ⟨r, rfl, rfl, rfl⟩
        | none =>
          rw [hlatest] at h₂
          exact .inr ⟨rfl, createThread_ok h₂⟩

theorem joined_mem {m : MetadataStore} (h : joined pick q m = some r) :
    r ∈ m.messages ∧ r.accountId = q.accountId := by
  rcases Option.or_eq_some_iff.mp h with hanswered | ⟨-, hlatest⟩
  · have hmem := mem_filter.mp (pickFrom_mem hanswered)
    simp only [and_eq_true, beq_iff_eq] at hmem
    exact ⟨hmem.1, hmem.2.1⟩
  · have hmem := mem_filter.mp (mem_filter.mp (pickFrom_mem hlatest)).1
    simp only [and_eq_true, beq_iff_eq] at hmem
    exact ⟨hmem.1, hmem.2.1.1⟩

theorem joined_congr {m m' : MetadataStore}
    (h : m'.messages.filter (fun r => r.accountId == q.accountId) =
      m.messages.filter fun r => r.accountId == q.accountId) :
    joined pick q m' = joined pick q m := by
  have hselect : ∀ p : StoredMessage → Bool,
      m'.messages.filter (fun r => r.accountId == q.accountId && p r) =
        m.messages.filter fun r => r.accountId == q.accountId && p r := by
    intro p
    have hsplit : ∀ l : List StoredMessage, l.filter (fun r => r.accountId == q.accountId && p r) =
        (l.filter fun r => r.accountId == q.accountId).filter p := by
      intro l
      rw [filter_filter]
      exact filter_congr fun r _ => and_comm _ _
    rw [hsplit, hsplit, h]
  have hanswered : answered q m' = answered q m := hselect _
  have halike : alike q m' = alike q m := by
    simp only [alike, Bool.and_assoc]
    exact hselect _
  rw [joined, joined, hanswered, halike]

/-! ## What each operation files -/

section
variable {P : Primitives} {s t : Stores} {existing : StoredMessage} {raw : Bytes}

theorem onMetadata_files {x : Exec MetadataStore Error α}
    (h : Filings B s.metadata (x s.metadata).2) : Files B s (onMetadata x s).2 := h

theorem ensureMailbox_files (role : Role) :
    Keeps (Files B) (onMetadata (ensureMailbox faults accountId role)) := by
  intro s
  refine onMetadata_files (ensureMailbox_keeps (fun role name m => ?_) role s.metadata)
  unfold insertOrIgnoreMailbox
  split
  · exact .refl
  · exact .single (.mailbox _ rfl)

variable {b : Mailbox} {role : Role}

theorem ensureMailbox_has (h : onMetadata (ensureMailbox faults accountId role) s = (.ok b, t)) :
    HasMailbox accountId b.id t.metadata := by
  have hfound := ensureMailbox_ok (onMetadata_eq h).1
  have hb := List.find?_some hfound
  simp only [and_eq_true, beq_iff_eq] at hb
  exact ⟨b, mem_of_find?_eq_some hfound, rfl, hb.1⟩

theorem findOrCreateThread_files (q : ThreadMatch) :
    Keeps (Files B) (onMetadata (findOrCreateThread faults pick q)) := fun s =>
  onMetadata_files (findOrCreateThread_keeps q (fun _ => .single (.thread q.accountId)) s.metadata)

theorem findOrCreateThread_has (hs : Filed s.metadata)
    (h : onMetadata (findOrCreateThread faults pick q) s = (.ok id, t)) :
    HasThread q.accountId id t.metadata := by
  obtain ⟨hrun, ht⟩ := onMetadata_eq h
  rcases findOrCreateThread_ok hrun with ⟨r, hjoined, rfl, hsame⟩ | ⟨-, -, hnew⟩
  · obtain ⟨hr, howner⟩ := joined_mem hjoined
    rw [hsame, ← howner]
    exact hs.threads r hr
  · rw [hnew]
    exact ⟨_, mem_append_right _ (mem_singleton.mpr rfl), rfl, rfl⟩

theorem insertMessage_files {new : NewMessage}
    (hmailbox : HasMailbox new.accountId new.mailboxId s.metadata)
    (hthread : HasThread new.accountId new.threadId s.metadata) :
    Files B s (onMetadata (insertMessage faults new) s).2 := by
  refine onMetadata_files ?_
  rw [insertMessage_run]
  cases faults .messageInsert with
  | some => exact .refl
  | none => exact .single (.message new hmailbox hthread)

theorem sealForAccount_files {draw : Draw} {accountPub : Bytes} {keyId : UInt16} :
    Keeps (Files B) (sealForAccount P draw accountPub keyId raw) :=
  sealForAccount_keeps fun _ => Files.of_same rfl

theorem deliver_files {draw : Draw} {account : RecipientAccount} {envelope : InboundEnvelope}
    {results : AuthResults} {receivedAt : ℤ} {spamReason : Option Text} {scan : ScanMetadata}
    (hs : Filed s.metadata) :
    Files B s (deliver P draw account envelope results raw receivedAt spamReason scan s).2 := by
  unfold deliver
  cases P.parse raw with
  | none => exact refl s
  | some =>
    refine Files.bind (Keeps.orPanic s) fun hash s₁ _ h₀₁ => ?_
    refine Files.bind (ensureMailbox_files _ s₁) fun mailbox s₂ hmailbox h₁₂ => ?_
    refine Files.bind (findOrCreateThread_files _ s₂) fun threadId s₃ hthread h₂₃ => ?_
    refine Files.bind (sealForAccount_files s₃) fun sealedBlob s₄ _ h₃₄ => ?_
    have hs₂ : Filed s₂.metadata := Filings.filed h₁₂ (Filings.filed h₀₁ hs)
    have hbox : HasMailbox account.id mailbox.id s₄.metadata :=
      Filings.hasMailbox h₃₄ (Filings.hasMailbox h₂₃ (ensureMailbox_has hmailbox))
    have hthr : HasThread account.id threadId s₄.metadata :=
      Filings.hasThread h₃₄ (findOrCreateThread_has hs₂ hthread)
    exact Files.bind (insertMessage_files hbox hthr) fun _ t _ _ => refl t

/-! ### Drafts -/

variable {ctx : AccountContext}

section
variable {C : Composer} {draw : ComposeDraw}

theorem replyTo_has {inReplyTo : Option Text} (hs : Filed s.metadata)
    (h : (replyTo draw accountId inReplyTo s).threadId = some id) :
    HasThread accountId id s.metadata := by
  rw [replyTo_run] at h
  cases hparent : (inReplyTo.bind emailRowId).bind fun row =>
      (draw.sealing.faults .messageById).elim ((findBy StoredMessage.id row s.metadata.messages).filter
        fun m => decide (m.accountId = accountId)) fun _ => none with
  | none => rw [hparent] at h; cases h
  | some parent =>
    rw [hparent] at h
    cases h
    obtain ⟨row, -, hparent⟩ := Option.bind_eq_some_iff.mp hparent
    cases hfault : draw.sealing.faults .messageById with
    | some => rw [hfault] at hparent; cases hparent
    | none =>
      rw [hfault] at hparent
      obtain ⟨hfound, howner⟩ := Option.filter_eq_some_iff.mp hparent
      rw [← of_decide_eq_true howner]
      exact hs.threads parent (findBy_some _ hfound).1

theorem draftThread_has {reply : ReplyTo} {hash : Option Text} (hs : Filed s.metadata)
    (hreply : ∀ parent, reply.threadId = some parent → HasThread accountId parent s.metadata)
    (h : draftThread draw accountId reply hash s = (.ok id, t)) :
    HasThread accountId id t.metadata := by
  unfold draftThread at h
  cases hparent : reply.threadId with
  | some =>
    rw [hparent] at h
    cases h
    exact hreply _ hparent
  | none =>
    rw [hparent] at h
    exact findOrCreateThread_has hs (mapErr_ok_iff.mp h)

theorem createDraft_files (req : EmailCreateRequest) (hs : Filed s.metadata) :
    Files B s (createDraft P C draw ctx accountId req s).2 := by
  refine Files.bind (Keeps.ofExcept s) fun _ s₁ hcheck h₀₁ => ?_
  refine Files.bind (refl s₁) fun s₁' s₂ hget _ => ?_
  obtain ⟨rfl, rfl⟩ : s₁ = s₁' ∧ s₁ = s₂ := by
    cases hget
    exact ⟨rfl, rfl⟩
  have hs₁ : Filed s₁.metadata := Filings.filed h₀₁ hs
  refine Files.bind (Keeps.orPanic s₁) fun hash s₂ hhash _ => ?_
  obtain rfl := (orPanic_ok hhash).2
  refine Files.bind (draftThread_keeps (fun q _ => findOrCreateThread_files q) s₂)
    fun threadId s₂ hthread h₁₂ => ?_
  have hthr : HasThread accountId threadId s₂.metadata :=
    draftThread_has hs₁ (fun parent => replyTo_has hs₁) hthread
  refine Files.bind (Files.of_same (congrArg _ (composeInput_state _ _ s₂))) fun input s₄ _ h₂₄ => ?_
  refine Files.bind (Keeps.ofExcept s₄) fun raw s₅ _ h₄₅ => ?_
  split
  · exact refl s₅
  · refine Files.bind (Keeps.mapErr sealForAccount_files s₅) fun sealedBlob s₆ _ h₅₆ => ?_
    refine Files.bind (Keeps.mapErr (ensureMailbox_files _) s₆) fun drafts s₇ hdrafts h₆₇ => ?_
    have hlater : Filings B s₂.metadata s₇.metadata :=
      ((Relation.ReflTransGen.trans h₂₄ h₄₅).trans h₅₆).trans h₆₇
    refine Files.bind ?_ fun _ t _ _ => refl t
    rw [state_mapErr]
    exact insertMessage_files (ensureMailbox_has (mapErr_ok_iff.mp hdrafts))
      (Filings.hasThread hlater hthr)

end

variable {rowId : ℤ}

/-! ### Updates, destroys and submissions -/

theorem updateMessage_files {mailboxId : Option ℤ} {keywords : Option Text}
    (h : ∀ b, mailboxId = some b → ∀ r ∈ s.metadata.messages, r.id = rowId →
      HasMailbox r.accountId b s.metadata ∨ B r.accountId b) :
    Files B s (onMetadata (updateMessage faults rowId mailboxId keywords) s).2 := by
  have hkeywords : Keeps (Filings B) (whenSome keywords fun keywords => do
      sql faults .messageSetKeywords
      Exec.modify (setKeywords rowId keywords)) :=
    .whenSome fun k => .bind sql_keeps fun _ => .modify fun _ => .single (.keywords rowId k)
  have hmove : Filings B s.metadata (whenSome mailboxId (fun mailboxId => do
      sql faults .messageSetMailbox
      Exec.modify (setMailbox rowId mailboxId)) s.metadata).2 := by
    cases mailboxId with
    | none => exact .refl
    | some b =>
      simp only [whenSome]
      rw [sql_bind_run]
      cases faults .messageSetMailbox with
      | some => exact .refl
      | none => exact .single (.move rowId b (h b rfl))
  refine onMetadata_files (state_bind hmove fun _ m hm => ?_)
  rw [hm] at hmove
  exact hmove.trans (hkeywords m)

theorem Filed.owns (hs : Filed s.metadata)
    (hfound : findBy StoredMessage.id rowId s.metadata.messages = some existing)
    (howner : existing.accountId = accountId) (hr : r ∈ s.metadata.messages) (hid : r.id = rowId) :
    r.accountId = accountId := by
  rw [eq_of_findBy _ hs.messageIds hfound hr hid]
  exact howner

/-- The mailbox a patch leaves in `new_mailbox_id`: the last entry about mailboxes decides. -/
def targetMailbox (patch : List (Text × Value)) : Option ℤ :=
  patch.foldl (fun target entry =>
    (Patching.apply ⟨target, none, []⟩ (patchPath entry.1) entry.2).newMailboxId) none

theorem Patching.apply_newMailboxId (p : Patching) (path : PatchPath) (value : Value) :
    (p.apply path value).newMailboxId =
      (Patching.apply ⟨p.newMailboxId, none, []⟩ path value).newMailboxId := by
  cases path with
  | mailboxIds | keywords => cases h : value.asObject <;> simp [Patching.apply, h]
  | mailbox => cases h : value.isTrue <;> simp [Patching.apply, h]
  | keyword | timer | other => rfl

theorem patchEntries_metadata (entryFaults : ℕ → Faults) (id : Text) (existing : StoredMessage)
    (k : ℕ) (patch : List (Text × Value)) (p : Patching) :
    Keeps (Same Stores.metadata) (patchEntries accountId entryFaults id existing k patch p) :=
  patchEntries_keeps (fun _ _ _ _ _ => rfl) _ _ _ _ _

theorem patchEntries_ok {entryFaults : ℕ → Faults} {id : Text} {k : ℕ} {patch : List (Text × Value)}
    {p p' : Patching}
    (h : patchEntries accountId entryFaults id existing k patch p s = (.ok p', t)) :
    p'.newMailboxId = patch.foldl (fun target entry =>
      (Patching.apply ⟨target, none, []⟩ (patchPath entry.1) entry.2).newMailboxId)
      p.newMailboxId := by
  induction patch generalizing k p s with
  | nil =>
    cases h
    rfl
  | cons _ _ ih =>
    obtain ⟨u, s₁, -, hrest⟩ := bind_ok h
    rw [ih hrest, Patching.apply_newMailboxId]
    rfl

/-- What the client of an update may name: where its own message is to go. -/
def UpdateNames (accountId : ℤ) (id : Text) (patch : List (Text × Value)) (s : Stores) (a b : ℤ) :
    Prop :=
  a = accountId ∧ targetMailbox patch = some b ∧
    ∃ rowId, emailRowId id = some rowId ∧ HasMessage accountId rowId s

theorem emailUpdate_files (io : UpdateIo) (id : Text) (patch : List (Text × Value))
    (hs : Filed s.metadata) :
    Files (UpdateNames accountId id patch s) s (emailUpdate accountId io id patch s).2 := by
  unfold emailUpdate
  cases hid : emailRowId id with
  | none => exact refl s
  | some rowId =>
    refine Files.bind (Files.of_same (by rw [ownMessage_state])) fun existing s₁ hown _ => ?_
    obtain ⟨rfl, hfound, howner⟩ := ownMessage_ok hown
    have hsame := @patchEntries_metadata accountId io.entries id existing 0 patch
      { newMailboxId := none, newKeywords := none, currentKeywords := splitKeywords existing.keywords }
    refine Files.bind (Files.of_same (hsame s₁)) fun p s₂ hpatch _ => ?_
    rw [state_mapErr]
    refine updateMessage_files fun b hb r hr hrow => .inr ⟨?_, ?_, rowId, hid, existing, hfound, howner⟩
    · rw [hsame.run hpatch] at hr
      exact hs.owns hfound howner hr hrow
    · exact (patchEntries_ok hpatch).symm.trans hb

theorem Filed.moves (hs : Filed s.metadata)
    (hfound : findBy StoredMessage.id rowId s.metadata.messages = some existing)
    (howner : existing.accountId = accountId) (hsame : t.metadata.messages = s.metadata.messages)
    (hb : HasMailbox accountId b.id t.metadata) :
    ∀ b', some b.id = some b' → ∀ r ∈ t.metadata.messages, r.id = rowId →
      HasMailbox r.accountId b' t.metadata ∨ B r.accountId b' := by
  rintro _ ⟨⟩ r hr hid
  rw [hsame] at hr
  rw [hs.owns hfound howner hr hid]
  exact .inl hb

theorem ensureMailbox_messages
    (h : onMetadata (ensureMailbox faults accountId role) s = (.ok b, t)) :
    t.metadata.messages = s.metadata.messages := by
  obtain ⟨hrun, ht⟩ := onMetadata_eq h
  exact (ensureMailbox_same (fun _ _ => rfl) _ _).run hrun

theorem emailDestroy_files (id : Text) (hs : Filed s.metadata) :
    Files B s (emailDestroy accountId faults id s).2 := by
  unfold emailDestroy
  cases emailRowId id with
  | none => exact refl s
  | some rowId =>
    refine Files.bind (Files.of_same (by rw [ownMessage_state])) fun existing s₁ hown _ => ?_
    obtain ⟨rfl, hfound, howner⟩ := ownMessage_ok hown
    refine Files.bind (Keeps.mapErr (ensureMailbox_files _) s₁) fun trash s₂ htrash _ => ?_
    have hensure := mapErr_ok_iff.mp htrash
    rw [state_mapErr, trashOrDelete, ite_run]
    split
    · refine Files.bind ?_ fun _ t _ _ => Files.of_same rfl
      refine onMetadata_files ?_
      rw [deleteMessage, sql_bind_run]
      cases faults .messageDelete with
      | some => exact .refl
      | none => exact .single (.delete rowId)
    · exact updateMessage_files
        (hs.moves hfound howner (ensureMailbox_messages hensure) (ensureMailbox_has hensure))

section
variable {draw : SubmitDraw}

theorem prepare_metadata (rowId : ℤ) (req : EmailSubmissionCreateRequest) :
    Keeps (Same Stores.metadata) (prepare P draw ctx accountId rowId req) := by
  refine .bind (.of_state (findOwn_state rowId)) fun existing => .bind .ofExcept fun _ => ?_
  refine .bind (.mapErr (.of_state (openBlob_state _ _ _ _))) fun raw => ?_
  exact .map (.mapErr fun _ => rfl)

theorem submitEmail_files (req : EmailSubmissionCreateRequest) (hs : Filed s.metadata) :
    Files B s (submitEmail P draw ctx accountId req s).2 := by
  unfold submitEmail
  cases emailRowId req.emailId with
  | none => exact refl s
  | some rowId =>
    refine Files.bind (Files.of_same (prepare_metadata rowId req s)) fun p s₁ hprepare _ => ?_
    obtain ⟨existing, raw, key⟩ := p
    have hprep := prepare_ok hprepare
    have hsame₁ : s₁.metadata = s.metadata := (prepare_metadata rowId req).run hprepare
    refine Files.bind (Keeps.mapErr (fun s => Files.of_same (enqueue_metadata s)) s₁)
      fun _ s₂ henqueue _ => ?_
    have hsame₂ : s₂.metadata = s₁.metadata := enqueue_metadata.run (mapErr_ok_iff.mp henqueue)
    refine Files.bind ?_ fun _ t _ _ => refl t
    refine Files.bind (Keeps.mapErr (ensureMailbox_files _) s₂) fun sent s₃ hsent _ => ?_
    have hensure := mapErr_ok_iff.mp hsent
    have hmessages : s₃.metadata.messages = s.metadata.messages := by
      rw [ensureMailbox_messages hensure, hsame₂, hsame₁]
    rw [state_mapErr]
    exact updateMessage_files
      (hs.moves hprep.found hprep.owner hmessages (ensureMailbox_has hensure))

end

theorem storeUpload_files {E : Environment} {io : RequestIo} (session : Jmap.Session)
    (filename contentType : Text) (body : Bytes) :
    Keeps (Files B) (storeUpload E io session filename contentType body) := by
  refine .bind (.mapErr sealForAccount_files) fun sealedBlob => .map (.mapErr fun s => onMetadata_files ?_)
  exact Keeps.bind sql_keeps (fun _ => .update fun m => .single (.upload _)) s.metadata

theorem worker_files {hostname : Text} {l l' : Loop} {a : Queue.Act} (hl : Filed l.stores.metadata)
    (h : Queue.step P hostname l a = some l') : Files B l.stores l'.stores := by
  have : Stable (fun s : Stores => Filed s.metadata) (Files B) := ⟨fun _ _ => Filings.filed⟩
  have hgiven : Given (fun s => Filed s.metadata) (Files B) l.stores l'.stores := by
    refine step_relates (R := Given (fun s => Filed s.metadata) (Files B))
      (fun s t hsame _ _ => Files.of_same hsame)
      (fun _ _ _ _ s hs => deliver_files hs) (fun faults ev s _ => ?_) h
    refine fireEvent_relates (fun id state s _ => Files.of_same ?_)
      (fun rowId keywords s _ => ?_) (fun _ _ => Files.of_same rfl) (fun accountId role s => ?_) s
    · unfold markEvent
      split <;> rfl
    · rcases storeKeywords_run rowId keywords s with hsame | hset
      · rw [hsame]
        exact refl s
      · rw [hset]
        exact .single (.keywords rowId _)
    · rw [mailboxOr_run]
      exact ensureMailbox_files role s
  exact hgiven hl

end
end Litterae.Mail
