import Litterae.Jmap.Patches

/-! # When a follow-up nudge fires (`fire_followup_nudge` in `queue/src/worker.rs`)

The worker takes every other message of the thread outside Sent and Drafts for an answer, whenever it
came. `nudges_unanswered_iff` says when that is the same as asking for an answer since the anchor.
-/

namespace Litterae.Queue
open Foundations Store Exec Jmap List

def Outside (accountId : ℤ) (m : MetadataStore) (r : StoredMessage) : Prop :=
  ∀ role, role = .sent ∨ role = .drafts → ∀ b, ensuredMailbox accountId role m = some b →
    r.mailboxId ≠ b.id

/-- A message of the thread outside Sent and Drafts that meets the condition on its row id: ids are
given out in the order of arrival. -/
def Answers (accountId threadId : ℤ) (m : MetadataStore) (p : ℤ → Prop) : Prop :=
  ∃ r ∈ m.messages, r.accountId = accountId ∧ r.threadId = threadId ∧ p r.id ∧ Outside accountId m r

/-- The keyword is set and the event is not cancelled. -/
def Nudged (ev : ScheduledEvent) (rowId : ℤ) (t : Stores) : Prop :=
  (∃ msg, row rowId t = some msg ∧ keywordNudge ∈ msg.keywords.splitOn ',') ∧
    ∃ e, findBy ScheduledEvent.id ev.id t.queue.events = some e ∧ e.state ≠ .cancelled

section
variable {ev : ScheduledEvent} {threadId : ℤ} {msg : StoredMessage} {s : Stores}

theorem ensureMailbox_state (accountId : ℤ) (role role' : Role) (m : MetadataStore) :
    (ensureMailbox .none accountId role m).2 = (ensureMailbox .none accountId role' m).2 := by
  have hstate : ∀ role, (ensureMailbox .none accountId role m).2 =
      (backfillMailboxes .none accountId 0 systemRoles m).2 := by
    intro role
    rw [ensureMailbox, bind_run]
    rcases backfillMailboxes .none accountId 0 systemRoles m with ⟨_ | _ | _, m'⟩
    · simp only [bind_run, getMailboxByRole_run, Faults.none]
      cases m'.mailboxes.find? fun b => b.accountId == accountId && b.role == role <;> rfl
    · rfl
    · rfl
  rw [hstate, hstate]

theorem nudgeOrCancel_eq :
    ∃ sent drafts m, ensuredMailbox ev.accountId .sent s.metadata = some sent ∧
      ensuredMailbox ev.accountId .drafts s.metadata = some drafts ∧
      m.messages = s.metadata.messages ∧
      nudgeOrCancel .none ev threadId msg s =
        if (s.metadata.messages.filter fun r => r.accountId == ev.accountId &&
            r.threadId == threadId).any (isReply msg.id (some sent) (some drafts)) then
          markEvent .none ev.id .cancelled { s with metadata := m }
        else markEvent .none ev.id .fired
          (notify ev.accountId (addNudge .none msg { s with metadata := m })) := by
  obtain ⟨sent, m₁, hsent, hsent', hsame₁, -⟩ := ensureMailbox_run ev.accountId .sent s.metadata
  obtain ⟨drafts, m₂, hdrafts, -, hsame₂, -⟩ := ensureMailbox_run ev.accountId .drafts m₁
  have hthere : mailboxOf ev.accountId .drafts m₁ = ensuredMailbox ev.accountId .drafts s.metadata := by
    rw [ensuredMailbox, ensureMailbox_state _ .drafts .sent, hsent]
  obtain ⟨b, -, -, hb, -⟩ := ensureMailbox_run ev.accountId .drafts s.metadata
  obtain rfl : drafts = b := ensureMailbox_of_some (hthere.trans hb) hdrafts
  refine ⟨sent, drafts, m₂, hsent', hb, hsame₂.trans hsame₁, ?_⟩
  rw [← hsame₁, ← hsame₂]
  simp only [nudgeOrCancel, mailboxOr, onMetadata_run, hsent, hdrafts]
  rfl

theorem addNudge_row (hmsg : row msg.id s = some msg) :
    (∃ r, row msg.id (addNudge .none msg s) = some r ∧ keywordNudge ∈ r.keywords.splitOn ',') ∧
      (addNudge .none msg s).queue = s.queue := by
  unfold addNudge
  split
  · next hthere => exact ⟨⟨msg, hmsg, contains_iff_mem.mp hthere⟩, rfl⟩
  · have hplain : ∀ k ∈ splitKeywords msg.keywords ++ [keywordNudge], Plain k := by
      intro k hk
      rcases mem_append.mp hk with hold | hnew
      · exact plain_of_mem_splitKeywords hold
      · rw [mem_singleton.mp hnew, Plain]
        decide
    have hmem : keywordNudge ∈ splitKeywords (join "," (splitKeywords msg.keywords ++ [keywordNudge])) := by
      rw [splitKeywords_join hplain]
      simp
    refine ⟨⟨{ msg with keywords := join "," (splitKeywords msg.keywords ++ [keywordNudge]) }, ?_,
      (mem_filter.mp hmem).1⟩, rfl⟩
    have hstore : (storeKeywords .none msg.id (splitKeywords msg.keywords ++ [keywordNudge]) s).metadata =
        setKeywords msg.id (join "," (splitKeywords msg.keywords ++ [keywordNudge])) s.metadata := rfl
    rw [row] at hmsg ⊢
    rw [hstore, setKeywords, findBy_updateWhere StoredMessage.id (by intro r; rfl), hmsg]
    simp

theorem any_isReply {sent drafts : Mailbox}
    (hsent : ensuredMailbox ev.accountId .sent s.metadata = some sent)
    (hdrafts : ensuredMailbox ev.accountId .drafts s.metadata = some drafts) :
    (s.metadata.messages.filter fun r => r.accountId == ev.accountId &&
        r.threadId == threadId).any (isReply msg.id (some sent) (some drafts)) ↔
      Answers ev.accountId threadId s.metadata fun i => i ≠ msg.id := by
  have houtside : ∀ r : StoredMessage, Outside ev.accountId s.metadata r ↔
      r.mailboxId ≠ sent.id ∧ r.mailboxId ≠ drafts.id := by
    intro r
    simp only [Outside, forall_eq_or_imp, forall_eq, hsent, hdrafts, Option.some.injEq, forall_eq']
  simp [Answers, houtside, isReply, and_assoc]

/-- Given an anchor that is there, a due nudge fires exactly if nobody has answered since, unless the
thread has a message from before the anchor outside Sent and Drafts and none from after it. -/
theorem nudges_unanswered_iff (hkind : ev.kind = some .followupNudge)
    (hthread : ev.threadId.bind parseI64 = some threadId)
    (hanchor : scheduledMessageRowId ev = some msg.id) (hmsg : row msg.id s = some msg)
    (hev : findBy ScheduledEvent.id ev.id s.queue.events = some ev) :
    (Nudged ev msg.id (fireEvent .none ev s) ↔
        ¬ Answers ev.accountId threadId s.metadata fun i => msg.id < i) ↔
      (Answers ev.accountId threadId s.metadata (fun i => i < msg.id) →
        Answers ev.accountId threadId s.metadata fun i => msg.id < i) := by
  obtain ⟨sent, drafts, m, hsent, hdrafts, hsame, hfire⟩ := @nudgeOrCancel_eq ev threadId msg s
  have hmarked : ∀ state (u : Stores), u.queue = s.queue →
      findBy ScheduledEvent.id ev.id (markEvent .none ev.id state u).queue.events =
        some { ev with state } := by
    intro state u hu
    have hevents : (markEvent .none ev.id state u).queue.events =
        updateWhere (fun e => e.id == ev.id) (fun e => { e with state }) u.queue.events := rfl
    rw [hevents, hu, findBy_updateWhere ScheduledEvent.id (by intro e; rfl), hev]
    simp
  have hnudged : Nudged ev msg.id (fireEvent .none ev s) ↔
      ¬ Answers ev.accountId threadId s.metadata fun i => i ≠ msg.id := by
    rw [← any_isReply hsent hdrafts]
    have hload : loadMessage .none msg.id s = some msg := hmsg
    simp only [fireEvent, hkind, fireFollowupNudge, hthread, hanchor, Option.bind_some, hload, hfire]
    split
    · next hreplied =>
      refine iff_of_false (fun h => ?_) (not_not_intro hreplied)
      obtain ⟨-, e, he, hstate⟩ := h
      have hcancelled := hmarked .cancelled { s with metadata := m } rfl
      rw [hcancelled] at he
      cases he
      exact hstate rfl
    · next hquiet =>
      have hthere : row msg.id { s with metadata := m } = some msg := by
        rw [row, hsame]
        exact hmsg
      obtain ⟨hkeyword, hqueue⟩ := addNudge_row hthere
      exact iff_of_true ⟨hkeyword, _, hmarked _ _ hqueue, by simp⟩ hquiet
  have hsplit : Answers ev.accountId threadId s.metadata (fun i => i ≠ msg.id) ↔
      Answers ev.accountId threadId s.metadata (fun i => i < msg.id) ∨
        Answers ev.accountId threadId s.metadata fun i => msg.id < i := by
    simp only [Answers, ← exists_or, ← and_or_left, ← or_and_right, ne_iff_lt_or_gt]
  rw [hnudged, hsplit]
  by_cases hlater : Answers ev.accountId threadId s.metadata fun i => msg.id < i
  · simp [hlater]
  · simp [hlater]

end

def sampleNudge (rowId : ℤ) : ScheduledEvent where
  id := 1
  accountId := 1
  kind := some .followupNudge
  fireAt := 1700000000
  threadId := some "1"
  payload := some ('m' :: showInt rowId)
  state := .pending

def sampleThread (messages : List StoredMessage) (rowId : ℤ) : Stores :=
  { Stores.empty with
    queue := { QueueStore.empty with events := [sampleNudge rowId] }
    metadata := { MetadataStore.empty with
      mailboxes := [⟨1, 1, .inbox, "Inbox"⟩, ⟨2, 1, .sent, "Sent"⟩]
      messages } }

theorem nudges_unanswered_iff_first :
    Nudged (sampleNudge 1) 1 (fireEvent .none (sampleNudge 1) (sampleThread [sampleRow 1 2 ""] 1)) ↔
      ¬ Answers 1 1 (sampleThread [sampleRow 1 2 ""] 1).metadata fun i => 1 < i := by
  refine (@nudges_unanswered_iff (sampleNudge 1) 1 (sampleRow 1 2 "") (sampleThread [sampleRow 1 2 ""] 1)
    rfl (by decide) (by decide) (by decide) (by decide)).mpr ?_
  rintro ⟨r, hr, -, -, hbefore, -⟩
  obtain rfl := mem_singleton.mp hr
  exact absurd hbefore (lt_irrefl _)

/-- The anchor is the account's own reply to the mail before it: nobody has answered, and the nudge is
cancelled. -/
theorem answered_mail_cancels :
    let s := sampleThread [sampleRow 1 1 "", sampleRow 2 2 ""] 2
    (fireEvent .none (sampleNudge 2) s).queue.events.map ScheduledEvent.state = [.cancelled] ∧
      (fireEvent .none (sampleNudge 2) s).metadata.messages = s.metadata.messages ∧
      ∀ r ∈ s.metadata.messages, ¬ 2 < r.id := by
  decide +kernel

end Litterae.Queue
