import Litterae.Jmap.Races
import Mathlib.Data.List.Permutation

/-! # Changing keywords side by side

A patch, a submission and a timer each read the keywords of a message, work out new ones and write
them back, in two calls with nothing between them that keeps others out.
-/

namespace Litterae.Races
open Foundations Store Delivery Queue Jmap Exec List Option

def patchedKeywords (patch : List (Text × Value)) (keywords : Text) : Text :=
  let p := patch.foldl (fun p entry => p.apply (patchPath entry.1) entry.2) (unpatched keywords)
  (p.newKeywords.map (join ",")).getD keywords

def Cause.apply : Cause → Text → Text
  | .patch entries => patchedKeywords entries
  | .submission => sentKeywords
  | .snooze _ => unsnoozed
  | .nudge _ => nudged

def keywordsOf (rowId : ℤ) (m : MetadataStore) : Option Text :=
  (findBy StoredMessage.id rowId m.messages).map fun msg => msg.keywords

def readOf (rowId : ℤ) : Done Op.Ret → Option StoredMessage
  | ⟨.getMessage _ r, .ok (some m)⟩ => if r = rowId then some m else none
  | _ => none

def lastRead (rowId : ℤ) (tr : History) : Option StoredMessage :=
  (tr.filterMap (readOf rowId)).getLast?

/-- The change that is complete with the call: a write of keywords that succeeds, and a nudge that
finds its keyword already there, which then writes nothing. -/
def completes (rowId : ℤ) : Done Op.Ret → Option Cause
  | ⟨.updateMessage cause r _ (some _), .ok ()⟩ => if r = rowId then some cause else none
  | ⟨.getMessage (.nudge ev) r, .ok (some m)⟩ =>
    if r = rowId ∧ (m.keywords.splitOn ',').contains keywordNudge = true then some (.nudge ev)
    else none
  | _ => none

def completed (rowId : ℤ) (log : List (Foundations.Event Op.Ret)) : List Cause :=
  log.filterMap fun e => completes rowId e.did

/-! ## Every write rests on a read -/

def Computes (tr : History) : Op → Prop
  | .updateMessage cause rowId _ (some keywords) =>
    ∃ m, lastRead rowId tr = some m ∧ keywords = cause.apply m.keywords
  | _ => True

def Op.aside : Op → Bool
  | .getMessage _ _ => false
  | .updateMessage _ _ _ (some _) => false
  | _ => true

variable {rowId : ℤ} {tr : History} {cause : Cause} {m : StoredMessage}

theorem lastRead_getMessage (m : StoredMessage) :
    lastRead rowId (tr ++ [⟨.getMessage cause rowId, .ok (some m)⟩]) = some m := by
  simp [lastRead, readOf]

theorem lastRead_aside (op : Op) (h : op.aside) (b : op.Ret) :
    lastRead rowId (tr ++ [⟨op, b⟩]) = lastRead rowId tr := by
  have hnone : readOf rowId ⟨op, b⟩ = none := by
    cases op <;> first | rfl | cases h
  rw [lastRead, filterMap_append, filterMap_cons_none hnone, filterMap_nil,
    append_nil, lastRead]

theorem computes_aside {op : Op} (h : op.aside) : Computes tr op := by
  cases op with
  | updateMessage _ _ _ keywords =>
    cases keywords with
    | none => trivial
    | some => cases h
  | _ => trivial

theorem leads_of_only {α : Type} {p : Prog α} (h : p.Only fun op => op.aside = true)
    (hm : lastRead rowId tr = some m) :
    p.Leads Computes (fun tr _ => lastRead rowId tr = some m) tr := by
  induction p generalizing tr with
  | done r =>
    cases r with
    | ok => exact hm
    | err | panic => trivial
  | call op k ih =>
    exact ⟨computes_aside h.1, fun b => ih b (h.2 b) ((lastRead_aside op h.1 b).trans hm)⟩

section

theorem cancelEach_aside (k : ℕ) (events : List ScheduledEvent) :
    (cancelEach k events).Only fun op => op.aside = true := by
  induction events generalizing k with
  | nil => trivial
  | cons _ _ ih => exact .bind (.perform rfl) fun _ => ih (k + 1)

variable (ev : ScheduledEvent) (accountId : ℤ) (id : Text) (existing : StoredMessage)
  (patch : List (Text × Value))

theorem patchTimer_aside (path : PatchPath) (value : Value) :
    (patchTimer accountId id existing path value).Only fun op => op.aside = true := by
  cases path with
  | timer =>
    refine .bind (.bind (.perform rfl) fun answer => ?_) fun _ => ?_
    · cases answer with
      | error => trivial
      | ok => exact cancelEach_aside 0 _
    · rw [insertTimer]
      cases value.asI64 with
      | none => trivial
      | some => exact .perform rfl
  | _ => trivial

theorem patchEntries_leads (p : Patching) (hm : lastRead rowId tr = some m) :
    (patchEntries accountId id existing patch p).Leads Computes
      (fun tr q => lastRead rowId tr = some m ∧
        q = patch.foldl (fun p entry => p.apply (patchPath entry.1) entry.2) p) tr := by
  induction patch generalizing p tr with
  | nil => exact ⟨hm, rfl⟩
  | cons _ _ ih =>
    exact .bind (leads_of_only (patchTimer_aside accountId id existing _ _) hm) fun _ _ hm' =>
      ih _ hm'

theorem ownMessage_leads (accountId rowId : ℤ) (patch : List (Text × Value)) :
    (ownMessage accountId rowId patch).Leads Computes (fun tr m => lastRead rowId tr = some m) tr := by
  refine .perform_bind trivial fun answer => ?_
  rcases answer with e | _ | m
  · trivial
  · trivial
  · exact .ite (fun _ => lastRead_getMessage m) fun _ => trivial

theorem update_leads :
    (update accountId id patch).Leads Computes (fun _ _ => True) [] := by
  rw [update]
  cases emailRowId id with
  | none => trivial
  | some rowId =>
    refine .bind (ownMessage_leads accountId rowId patch) fun tr existing hread => ?_
    refine .bind (patchEntries_leads accountId id existing patch _ hread) fun tr p hp => ?_
    obtain ⟨hread, rfl⟩ := hp
    refine .perform_bind ?_ fun answer => ?_
    · cases hnew : (patch.foldl (fun p entry => p.apply (patchPath entry.1) entry.2)
          (unpatched existing.keywords)).newKeywords with
      | none => trivial
      | some keywords =>
        refine ⟨existing, hread, ?_⟩
        simp [Cause.apply, patchedKeywords, hnew]
    · cases answer <;> trivial

theorem findOwn_leads (accountId rowId : ℤ) :
    (findOwn accountId rowId).Leads Computes (fun tr m => lastRead rowId tr = some m) tr := by
  refine .perform_bind trivial fun answer => ?_
  rcases answer with e | _ | m
  · trivial
  · trivial
  · exact .ite (fun _ => lastRead_getMessage m) fun _ => trivial

theorem submit_leads (ctx : AccountContext) (accountId : ℤ) (req : EmailSubmissionCreateRequest) :
    (submit ctx accountId req).Leads Computes (fun _ _ => True) [] := by
  rw [submit]
  cases emailRowId req.emailId with
  | none => trivial
  | some rowId =>
    refine .bind (findOwn_leads accountId rowId) fun tr existing hread => ?_
    have hchecked : (checked req.rcptTo).Only fun op => op.aside = true := by
      rw [checked]
      cases checkEnvelope req.rcptTo <;> trivial
    refine .bind (leads_of_only hchecked hread) fun tr _ hread => ?_
    refine .perform_bind trivial fun raw => .perform_bind trivial fun key => ?_
    refine .perform_bind trivial fun _ => .perform_bind trivial fun sent => ?_
    cases sent with
    | error => trivial
    | ok =>
      refine .perform_bind ⟨existing, ?_, rfl⟩ fun answer => ?_
      · simp only [lastRead_aside (.openMessage _ _) rfl,
          lastRead_aside (.ensureDkimKey _) rfl, lastRead_aside (.enqueue _ _) rfl,
          lastRead_aside (.ensureMailbox _ _) rfl, hread]
      · cases answer <;> trivial

theorem load_leads {rowId : Option ℤ} :
    (load cause rowId).Leads Computes
      (fun tr found => ∀ r m, found = some (r, m) → lastRead r tr = some m) tr := by
  cases rowId with
  | none => exact fun r m h => nomatch h
  | some =>
    refine .perform_bind trivial fun answer => ?_
    rcases answer with e | _ | msg
    · exact fun r m h => nomatch h
    · exact fun r m h => nomatch h
    · rintro r m ⟨⟩
      exact lastRead_getMessage msg

theorem fireSnoozeResurface_leads :
    (fireSnoozeResurface ev).Leads Computes (fun _ _ => True) tr := by
  refine .bind load_leads fun tr found hfound => ?_
  refine .seq ?_ fun tr _ => .perform trivial fun _ => trivial
  rcases found with _ | ⟨rowId, msg⟩
  · trivial
  · exact .perform_bind ⟨msg, hfound rowId msg rfl, rfl⟩ fun _ => .perform trivial fun _ => trivial

theorem nudgeOrCancel_leads (threadId rowId : ℤ) (msg : StoredMessage)
    (hread : lastRead rowId tr = some msg) :
    (nudgeOrCancel ev threadId rowId msg).Leads Computes (fun _ _ => True) tr := by
  refine .perform_bind trivial fun sent => .perform_bind trivial fun drafts => ?_
  refine .perform_bind trivial fun thread => ?_
  refine .ite (fun _ => .perform trivial fun _ => trivial) fun _ => ?_
  refine .seq ?_ fun tr _ => .perform_bind trivial fun _ => .perform trivial fun _ => trivial
  refine .ite (fun _ => trivial) fun _ => .perform_bind ⟨msg, ?_, rfl⟩ fun _ => trivial
  simp only [lastRead_aside (.ensureMailbox _ _) rfl, lastRead_aside (.messagesInThread _ _) rfl,
    hread]

theorem fireFollowupNudge_leads :
    (fireFollowupNudge ev).Leads Computes (fun _ _ => True) tr := by
  rw [fireFollowupNudge]
  cases ev.threadId.bind parseI64 with
  | none => exact .perform trivial fun _ => trivial
  | some threadId =>
    refine .bind load_leads fun tr found hfound => ?_
    rcases found with _ | ⟨rowId, msg⟩
    · exact .perform trivial fun _ => trivial
    · exact nudgeOrCancel_leads ev threadId rowId msg (hfound rowId msg rfl)

theorem fireAll_leads (evs : List ScheduledEvent) :
    (fireAll evs).Leads Computes (fun _ _ => True) tr := by
  induction evs generalizing tr with
  | nil => trivial
  | cons ev _ ih =>
    refine .seq ?_ fun tr _ => ih
    rw [fireEvent]
    rcases ev.kind with _ | kind
    · exact .perform trivial fun _ => trivial
    · cases kind with
      | snoozeResurface => exact fireSnoozeResurface_leads ev
      | followupNudge => exact fireFollowupNudge_leads ev
      | _ => exact .perform trivial fun _ => trivial

theorem program_computes (c : Call) : (program c).Leads Computes (fun _ _ => True) [] := by
  cases c with
  | update accountId id patch => exact update_leads accountId id patch
  | submit ctx accountId req => exact submit_leads ctx accountId req
  | fireDue => exact .perform_bind trivial fun due => fireAll_leads due

end

/-! ## What a call does to the keywords of a row -/

def Op.setsKeywords : Op → Option (ℤ × Text)
  | .updateMessage _ rowId _ (some keywords) => some (rowId, keywords)
  | _ => none

variable {P : Primitives}

section
variable {io : SubmitDraw} {faults : Faults} {op : Op}

theorem keywordsOf_setMailbox (r mailboxId : ℤ) (m : MetadataStore) :
    keywordsOf rowId (setMailbox r mailboxId m) = keywordsOf rowId m := by
  have hfind := findBy_updateWhere (p := fun msg : StoredMessage => msg.id == r)
    (f := fun msg => { msg with mailboxId }) StoredMessage.id (fun _ => rfl) rowId m.messages
  rw [keywordsOf, setMailbox, hfind, Option.map_map, keywordsOf]
  congr 1
  funext msg
  by_cases hid : (msg.id == r)
  · simp only [Function.comp_apply, if_pos hid]
  · simp only [Function.comp_apply, if_neg hid]

theorem keywordsOf_setKeywords (r : ℤ) (keywords : Text) (m : MetadataStore) :
    keywordsOf rowId (setKeywords r keywords m) =
      if r = rowId then (keywordsOf rowId m).map fun _ => keywords else keywordsOf rowId m := by
  have hfind := findBy_updateWhere (p := fun msg : StoredMessage => msg.id == r)
    (f := fun msg => { msg with keywords }) StoredMessage.id (fun _ => rfl) rowId m.messages
  rw [keywordsOf, setKeywords, hfind, Option.map_map, keywordsOf]
  cases hfound : findBy StoredMessage.id rowId m.messages with
  | none => simp
  | some msg =>
    obtain rfl : msg.id = rowId := (findBy_some StoredMessage.id hfound).2
    by_cases hid : r = msg.id
    · simp [hid]
    · have hne : msg.id ≠ r := fun h => hid h.symm
      simp [hid, hne]

theorem updateMailbox_run (faults : Faults) (r : ℤ) (mailboxId : Option ℤ) (m : MetadataStore) :
    ∃ res m', (whenSome mailboxId fun mailboxId => do
        sql faults .messageSetMailbox
        Exec.modify (setMailbox r mailboxId) : Exec MetadataStore Error Unit) m = (res, m') ∧
      (res = .ok () ∨ ∃ e, res = .err e) ∧ ∀ rowId, keywordsOf rowId m' = keywordsOf rowId m := by
  cases mailboxId with
  | none => exact ⟨_, _, rfl, .inl rfl, fun _ => rfl⟩
  | some mailboxId =>
    simp only [whenSome, sql_bind_run]
    cases faults .messageSetMailbox with
    | some => exact ⟨_, _, rfl, .inr ⟨_, rfl⟩, fun _ => rfl⟩
    | none => exact ⟨_, _, rfl, .inl rfl, fun _ => keywordsOf_setMailbox r mailboxId m⟩

theorem updateMessage_keywords (faults : Faults) (r : ℤ) (mailboxId : Option ℤ) (keywords : Text)
    (m : MetadataStore) :
    (∃ m', updateMessage faults r mailboxId (some keywords) m = (.ok (), m') ∧
        ∀ rowId, keywordsOf rowId m' =
          if r = rowId then (keywordsOf rowId m).map fun _ => keywords else keywordsOf rowId m) ∨
      ∃ e m', updateMessage faults r mailboxId (some keywords) m = (.err e, m') ∧
        ∀ rowId, keywordsOf rowId m' = keywordsOf rowId m := by
  obtain ⟨res, m₁, hfirst, hres, hsame⟩ := updateMailbox_run faults r mailboxId m
  rcases hres with rfl | ⟨e, rfl⟩
  · rw [updateMessage, bind_of_ok hfirst]
    simp only [whenSome, sql_bind_run]
    cases faults .messageSetKeywords with
    | some => exact .inr ⟨_, m₁, rfl, hsame⟩
    | none => exact .inl ⟨_, rfl, fun rowId => by rw [keywordsOf_setKeywords, hsame]⟩
  · rw [updateMessage, bind_of_err hfirst]
    exact .inr ⟨e, m₁, rfl, hsame⟩

theorem sem_keywords (P : Primitives) (io : SubmitDraw) (rowId : ℤ) (h : op.setsKeywords = none)
    (s : Stores) :
    keywordsOf rowId (sem P io op s).2.metadata = keywordsOf rowId s.metadata := by
  cases op with
  | getMessage =>
    rw [sem, state_attempt, onMetadata_run, getMessage, sql_bind_run]
    cases io.faults .messageById <;> rfl
  | updateMessage _ r mailboxId keywords =>
    cases keywords with
    | some => cases h
    | none =>
      obtain ⟨res, m₁, hfirst, hres, hsame⟩ := updateMailbox_run io.faults r mailboxId s.metadata
      rw [sem, state_attempt, onMetadata_run, updateMessage]
      rcases hres with rfl | ⟨e, rfl⟩
      · rw [bind_of_ok hfirst]
        exact hsame rowId
      · rw [bind_of_err hfirst]
        exact hsame rowId
  | pendingEvents => rw [sem, state_attempt, onQueue_run]
  | cancelEvent k id | insertEvent new => rw [sem, state_ignore, onQueue_run]
  | openMessage => rw [sem, state_mapErr, openMessage, openBlob_state]
  | ensureDkimKey => rw [sem, state_mapErr, onQueue_run]
  | enqueue domainKey new =>
    have hsame : (enqueue P io.faults io.sign io.now domainKey new s).2.metadata = s.metadata :=
      enqueue_metadata s
    rw [sem, state_mapErr, hsame]
  | ensureMailbox accountId role =>
    have hsame : (ensureMailbox io.faults accountId role s.metadata).2.messages =
        s.metadata.messages :=
      ensureMailbox_same (fun _ _ => rfl) _ _ s.metadata
    rw [sem, state_attempt, onMetadata_run, keywordsOf, hsame, keywordsOf]
  | dueEvents | messagesInThread | notify => rfl
  | markEvent =>
    rw [sem, modify_run, markEvent]
    split <;> rfl

theorem op_of_setsKeywords {r : ℤ} {keywords : Text} (h : op.setsKeywords = some (r, keywords)) :
    ∃ cause mailboxId, op = .updateMessage cause r mailboxId (some keywords) := by
  cases op with
  | updateMessage cause _ mailboxId k =>
    cases k with
    | none => cases h
    | some =>
      cases h
      exact ⟨cause, mailboxId, rfl⟩
  | _ => cases h

theorem sem_updateMessage (P : Primitives) (io : SubmitDraw) (cause : Cause) (r : ℤ)
    (mailboxId : Option ℤ) (keywords : Text) (s : Stores) :
    ∃ b t, sem P io (.updateMessage cause r mailboxId (some keywords)) s = (.ok b, t) ∧
      ((b = .ok () ∧ ∀ rowId, keywordsOf rowId t.metadata =
          if r = rowId then (keywordsOf rowId s.metadata).map fun _ => keywords
          else keywordsOf rowId s.metadata) ∨
        ∃ e, b = .error e ∧ ∀ rowId, keywordsOf rowId t.metadata = keywordsOf rowId s.metadata) := by
  rw [sem, attempt, onMetadata_run]
  rcases updateMessage_keywords io.faults r mailboxId keywords s.metadata with
    ⟨m', hrun, hset⟩ | ⟨e, m', hrun, hsame⟩
  · rw [hrun]
    exact ⟨_, _, rfl, .inl ⟨rfl, hset⟩⟩
  · rw [hrun]
    exact ⟨_, _, rfl, .inr ⟨e, rfl, hsame⟩⟩

theorem completes_unwritten (rowId : ℤ) (h : op.setsKeywords = none) {s t : Stores} {b : op.Ret}
    (hsem : sem P io op s = (.ok b, t)) :
    completes rowId ⟨op, b⟩ = none ∨
      ∃ cause keywords, completes rowId ⟨op, b⟩ = some cause ∧
        keywordsOf rowId s.metadata = some keywords ∧ cause.apply keywords = keywords := by
  cases op with
  | getMessage cause r =>
    rcases b with e | _ | m
    · cases cause <;> exact .inl rfl
    · cases cause <;> exact .inl rfl
    · cases cause with
      | nudge ev =>
        by_cases hthere : r = rowId ∧ (m.keywords.splitOn ',').contains keywordNudge
        · refine .inr ⟨.nudge ev, m.keywords, if_pos hthere, ?_, if_pos hthere.2⟩
          obtain ⟨rfl, -⟩ := hthere
          rw [sem, attempt, onMetadata_run, getMessage, sql_bind_run] at hsem
          cases hfault : io.faults .messageById with
          | some =>
            rw [hfault] at hsem
            cases hsem
          | none =>
            rw [hfault] at hsem
            have hfound : findBy StoredMessage.id r s.metadata.messages = some m := by
              have hanswer := congrArg Prod.fst hsem
              simpa [get_bind_run] using hanswer
            rw [keywordsOf, hfound]
            rfl
        · exact .inl (if_neg hthere)
      | _ => exact .inl rfl
  | updateMessage _ _ _ keywords =>
    cases keywords with
    | some => cases h
    | none => exact .inl rfl
  | _ => exact .inl rfl

end

/-! ## Runs -/

/-- Nobody has written the keywords between the read and the write that rests on it. -/
def undisturbed (p : Server) : Act → Bool
  | .launch _ => true
  | .perform i _ =>
    match (p.next i).bind Op.setsKeywords with
    | some (rowId, _) =>
      keywordsOf rowId p.shared.metadata ==
        (lastRead rowId (trace i p.log)).map fun m => m.keywords
    | none => true

def applyAll (causes : List Cause) (keywords : Text) : Text :=
  causes.foldl (fun t c => c.apply t) keywords

section
variable {s₀ : Stores} {p q : Server} {a : Act}

/-- The keywords of every row are what the complete changes make of the first ones. -/
def Explained (s₀ : Stores) (p : Server) : Prop :=
  ∀ rowId, keywordsOf rowId p.shared.metadata =
    (keywordsOf rowId s₀.metadata).map (applyAll (completed rowId p.log))

theorem completed_append (log : List (Foundations.Event Op.Ret)) (i : ℕ)
    (d : Done Op.Ret) :
    completed rowId (log ++ [⟨i, d⟩]) = completed rowId log ++ (completes rowId d).toList := by
  rw [completed, filterMap_append, completed]
  cases h : completes rowId d <;> simp [h]

theorem Explained.snoc (h : Explained s₀ p) {i : ℕ} {d : Done Op.Ret} {t : Stores}
    {flights : List (Flight Call Op Op.Ret Failure Unit)}
    (hd : ∀ rowId, keywordsOf rowId t.metadata =
      (keywordsOf rowId p.shared.metadata).map (applyAll (completes rowId d).toList)) :
    Explained s₀ ⟨t, flights, p.log ++ [⟨i, d⟩]⟩ := by
  intro rowId
  rw [completed_append, hd rowId, h rowId, Option.map_map]
  congr 1
  funext keywords
  exact (foldl_append ..).symm

theorem map_applyAll_nil {keywords : Option Text} : keywords.map (applyAll []) = keywords := by
  cases keywords <;> rfl

theorem Explained.step (ho : Orderly (fun _ => Computes) p) (h : Explained s₀ p)
    (hguard : undisturbed p a) (hstep : step P p a = some q) : Explained s₀ q := by
  cases a with
  | launch =>
    cases hstep
    exact h
  | perform i io =>
    cases Pool.performed (some.inj hstep) with
    | idle => exact h
    | @answered request op k b t hi hsem =>
      have hnext : (p.next i).bind Op.setsKeywords = op.setsKeywords := by
        rw [Pool.next_of_flight hi, bind_some]
      cases hset : op.setsKeywords with
      | none =>
        refine h.snoc fun rowId => ?_
        have hsame : keywordsOf rowId t.metadata = keywordsOf rowId p.shared.metadata := by
          have := sem_keywords P io rowId hset p.shared
          rwa [hsem] at this
        rcases completes_unwritten rowId hset hsem with hc | ⟨cause, keywords, hc, hnow, hid⟩
        · rw [hc, hsame]
          exact map_applyAll_nil.symm
        · rw [hc, hsame, hnow]
          exact congrArg some hid.symm
      | some set =>
        obtain ⟨r, keywords⟩ := set
        obtain ⟨cause, mailboxId, rfl⟩ := op_of_setsKeywords hset
        obtain ⟨m, hread, rfl⟩ : ∃ m, lastRead r (trace i p.log) = some m ∧
            keywords = cause.apply m.keywords := ho.next hi
        have hnow : keywordsOf r p.shared.metadata = some m.keywords := by
          rw [undisturbed, hnext, hset] at hguard
          simpa [hread] using hguard
        obtain ⟨b', t', hsem', hwritten⟩ := sem_updateMessage P io cause r mailboxId
          (cause.apply m.keywords) p.shared
        obtain ⟨hb, ht⟩ := Prod.mk.inj (hsem.symm.trans hsem')
        obtain rfl : b = b' := Res.ok.inj hb
        subst ht
        refine h.snoc fun rowId => ?_
        rcases hwritten with ⟨rfl, hkeywords⟩ | ⟨e, rfl, hkeywords⟩
        · rw [hkeywords rowId, completes]
          by_cases hrow : r = rowId
          · subst hrow
            rw [if_pos rfl, if_pos rfl, hnow]
            rfl
          · rw [if_neg hrow, if_neg hrow]
            exact map_applyAll_nil.symm
        · rw [hkeywords rowId]
          exact map_applyAll_nil.symm
    | @failed request op k r t hi ht hsem hr =>
      intro rowId
      have hset : op.setsKeywords = none := by
        by_contra hne
        obtain ⟨⟨r, keywords⟩, hset⟩ := ne_none_iff_exists'.mp hne
        obtain ⟨cause, mailboxId, rfl⟩ := op_of_setsKeywords hset
        obtain ⟨b', t', hsem', -⟩ := sem_updateMessage P io cause r mailboxId keywords p.shared
        rw [hsem'] at hsem
        cases hsem
      have hsame := sem_keywords P io rowId hset p.shared
      rw [ht] at hsame
      exact hsame.trans (h rowId)

/-- As long as no write comes between a read and the write that rests on it, every row has the
keywords that all complete changes make one after the other. -/
theorem keywords_not_lost (P : Primitives) (s₀ : Stores) (acts : List Act) (w : Server)
    (hrun : run (step P) (.start s₀) acts = some w)
    (hguard : Along (step P) (fun p a => undisturbed p a = true) (.start s₀) acts) (rowId : ℤ) :
    ∃ order, order.Perm (completed rowId w.log) ∧
      keywordsOf rowId w.shared.metadata = (keywordsOf rowId s₀.metadata).map (applyAll order) := by
  have hstart : Explained s₀ (.start s₀) := fun rowId => map_applyAll_nil.symm
  have hboth : Orderly (fun _ => Computes) w ∧ Explained s₀ w :=
    run_invariant (I := fun p => Orderly (fun _ => Computes) p ∧ Explained s₀ p)
      (fun _ _ _ h hguard hstep =>
        ⟨h.1.step program_computes hstep, h.2.step h.1 hguard hstep⟩)
      ⟨.start s₀, hstart⟩ hguard hrun
  exact ⟨_, .refl _, hboth.2 rowId⟩

end

/-! ## Two patches of one message -/

def samplePatch (keyword : String) : Act :=
  .launch (.update 1 "m1" [("keywords/" ++ keyword.toList, .bool true)])

def sampleInTurn : List Act :=
  [samplePatch "$flagged"] ++ sampleCalls 0 2 ++ [samplePatch "$seen"] ++ sampleCalls 1 2

theorem keywords_not_lost_in_turn :
    ∃ w, run (step (Primitives.sample fun _ => none)) (.start (sampleInbox "" [])) sampleInTurn =
        some w ∧
      keywordsOf 1 w.shared.metadata = some "$flagged,$seen" ∧
      ∃ order, order.Perm (completed 1 w.log) ∧
        keywordsOf 1 w.shared.metadata =
          (keywordsOf 1 (sampleInbox "" []).metadata).map (applyAll order) := by
  have hguard : Along (step (Primitives.sample fun _ => none))
      (fun p a => undisturbed p a = true) (.start (sampleInbox "" [])) sampleInTurn := by
    decide +kernel
  have hends : (run (step (Primitives.sample fun _ => none)) (.start (sampleInbox "" []))
      sampleInTurn).map (fun w => keywordsOf 1 w.shared.metadata) =
        some (some "$flagged,$seen".toList) := by decide +kernel
  obtain ⟨w, hrun, hkeywords⟩ := map_eq_some_iff.mp hends
  exact ⟨w, hrun, hkeywords, keywords_not_lost _ _ _ w hrun hguard 1⟩

def sampleSideBySide : List Act :=
  [samplePatch "$flagged", samplePatch "$seen"] ++ sampleCalls 0 1 ++ sampleCalls 1 1 ++
    sampleCalls 0 1 ++ sampleCalls 1 1

theorem patches_lose_a_keyword :
    ∃ w, run (step (Primitives.sample fun _ => none)) (.start (sampleInbox "" []))
        sampleSideBySide = some w ∧
      keywordsOf 1 w.shared.metadata = some "$seen".toList ∧
      ¬ ∃ order, order.Perm (completed 1 w.log) ∧
        keywordsOf 1 w.shared.metadata =
          (keywordsOf 1 (sampleInbox "" []).metadata).map (applyAll order) := by
  have hends : (run (step (Primitives.sample fun _ => none)) (.start (sampleInbox "" []))
      sampleSideBySide).map (fun w => (keywordsOf 1 w.shared.metadata,
        (completed 1 w.log).permutations'.map fun order =>
          (keywordsOf 1 (sampleInbox "" []).metadata).map (applyAll order))) =
        some (some "$seen".toList,
          [some "$flagged,$seen".toList, some "$seen,$flagged".toList]) := by decide +kernel
  obtain ⟨w, hrun, hw⟩ := map_eq_some_iff.mp hends
  obtain ⟨hkeywords, horders⟩ := Prod.mk.inj hw
  refine ⟨w, hrun, hkeywords, ?_⟩
  rintro ⟨order, hperm, horder⟩
  have hmem := mem_map_of_mem (f := fun order =>
    (keywordsOf 1 (sampleInbox "" []).metadata).map (applyAll order))
    (mem_permutations'.mpr hperm)
  rw [horders, ← horder, hkeywords] at hmem
  revert hmem
  decide

end Litterae.Races
