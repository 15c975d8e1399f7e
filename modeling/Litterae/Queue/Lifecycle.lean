import Litterae.Queue.Batch

/-! # The life of a recipient

What the agreement of batch and table (`Sound`, `Leased`) gives over whole runs: a terminal row rests,
a claimed row is settled once before the next claim, and a recipient gets each kind of notification at
most once, none if its message may not be answered.
-/

namespace Litterae.Queue
open Foundations Store List

variable {r r' : OutboundRecipient} {hostname : Text} {P : Primitives} {a : Act} {as : List Act}

section
variable {s t : Loop}

/-! ## Terminal rows -/

theorem Change.eq_of_terminal (hS : Sound s) (hr : r ∈ s.queue.rcpts) (hterm : r.state.isTerminal)
    (h : Change s a r r') : r' = r := by
  have hclaimed : r.state ≠ .claimed := by
    intro heq
    rw [heq] at hterm
    cases hterm
  have hwaiting : r.state.isWaiting ≠ true := by
    intro heq
    rw [RcptState.not_isTerminal_iff.mpr (.inl heq)] at hterm
    cases hterm
  cases h with
  | keep => rfl
  | reaped _ hstale => exact absurd (by simpa using (Bool.and_eq_true_iff.mp hstale).1) hclaimed
  | expired _ _ hoverdue => exact absurd (Bool.and_eq_true_iff.mp hoverdue).1 hwaiting
  | claimed _ _ _ hdue => exact absurd (Bool.and_eq_true_iff.mp hdue).1 hwaiting
  | released hpc hcooling hmem =>
    exact (Change.released hpc hcooling hmem).held (.inl ⟨_, rfl⟩) |>.resolve_right fun hheld =>
      hclaimed (hS.claimed hr hheld)
  | settled hpc hid =>
    exact (Change.settled hpc hid).held (.inr ⟨_, rfl⟩) |>.resolve_right fun hheld =>
      hclaimed (hS.claimed hr hheld)

theorem Sound.not_held (hS : Sound s) (hr : r ∈ s.queue.rcpts) (hterm : r.state.isTerminal) :
    r.id ∉ s.pc.heldIds := by
  intro hheld
  rw [hS.claimed hr hheld] at hterm
  cases hterm

/-- The messages delivered as notifications of this kind about the recipient. -/
def mailFor (id : ℤ) (action : DsnAction) (calls : List Finalized) : List StoredMessage :=
  calls.flatMap fun e => if e.id = id ∧ e.due = some action then e.mail else []

variable {id : ℤ} {action : DsnAction}

theorem mem_mailFor {calls : List Finalized} {m : StoredMessage} :
    m ∈ mailFor id action calls ↔ ∃ e ∈ calls, (e.id = id ∧ e.due = some action) ∧ m ∈ e.mail := by
  simp only [mailFor, mem_flatMap, mem_ite_nil_right]

def Rests (r : OutboundRecipient) (s t : Loop) : Prop :=
  r ∈ t.queue.rcpts ∧ ∀ action, mailFor r.id action t.finalized = mailFor r.id action s.finalized

theorem step_rests (hS : Sound s) (hr : r ∈ s.queue.rcpts) (hterm : r.state.isTerminal)
    (h : step P hostname s a = some t) : Rests r s t := by
  obtain ⟨f, news, newMessages, htables⟩ := step_tables hS.tables h
  refine ⟨(htables.change r hr).eq_of_terminal hS hr hterm ▸ htables.mem hr, fun action => ?_⟩
  rcases step_reports h with ⟨-, hsame⟩ | ⟨io, outbound, rcpt, outcome, todo, us, -, hpc, rfl⟩
  · rw [hsame]
  · have hne : rcpt.id ≠ r.id := by
      intro heq
      refine hS.not_held hr hterm (heq ▸ mem_heldIds (p := (outbound.id, rcpt)) ?_)
      rw [hpc]
      simp [Pc.pending]
    simp [finalizeStep, mailFor, Finalized.of, hne]

theorem run_rests (hS : Sound s) (hr : r ∈ s.queue.rcpts) (hterm : r.state.isTerminal)
    (h : run (step P hostname) s as = some t) : Sound t ∧ Rests r s t := by
  refine run_invariant (I := fun u => Sound u ∧ Rests r s u) ?_ ⟨hS, hr, fun _ => rfl⟩
    (Along.of_forall (fun _ _ => trivial) s as) h
  rintro u b v ⟨hu, hru, hmail⟩ - hstep
  obtain ⟨hrv, hmail'⟩ := step_rests hu hru hterm hstep
  exact ⟨hu.step hstep, hrv, fun action => (hmail' action).trans (hmail action)⟩

/-! ## Claimed rows -/

theorem settles_claimed (hS : Sound s) (ha : (∃ io, a = .unit io) ∨ ∃ io, a = .finalize io)
    (hsql : a.SqlSucceeds) (h : step P hostname s a = some t) (hr : r ∈ s.queue.rcpts)
    (hr' : r' ∈ t.queue.rcpts) (hid : r'.id = r.id) :
    r' = r ∨ (r.state = .claimed ∧ r'.state ≠ .claimed) := by
  obtain ⟨f, news, newMessages, htables⟩ := step_tables hS.tables h
  have hact : ∀ faults now order units, a ≠ .claim faults now order units := by
    rintro _ _ _ _ rfl
    simp at ha
  rcases htables.row hr' with ⟨r₁, hr₁, rfl⟩ | hnew
  · have hchange := htables.change r₁ hr₁
    obtain rfl := inj_on_of_nodup_map hS.tables.rcptIds hr₁ hr (hchange.columns.1.symm.trans hid)
    by_cases hsame : f r₁ = r₁
    · exact .inl hsame
    · exact .inr ⟨hS.claimed hr ((hchange.held ha).resolve_left hsame),
        fun hstate => hsame (hchange.unclaims hsql hact hstate)⟩
  · rcases htables.added with ⟨rfl, -⟩ | ⟨k, faults, now, o, rfl, -⟩
    · cases hnew
    · simp at ha

end

/-! ## Notifications -/

variable {rcpt : ClaimedRcpt} {outbound : OutboundMessage}

section
variable {s t : Loop} {now createdAt : ℤ} {state : RcptState} {id : ℤ} {action : DsnAction}
  {io : FinalizeIo} {outcome : Outcome} {m : StoredMessage}

theorem finalized_mail (P : Primitives) (hostname : Text) (io : FinalizeIo)
    (outbound : OutboundMessage) (rcpt : ClaimedRcpt) (outcome : Outcome) (s : Stores) :
    let e := Finalized.of io outbound rcpt outcome s
      (settle P hostname io outbound rcpt outcome s).stores
    e.mail = [] ∨ ∃ m action, e.due = some action ∧ suppressed rcpt outbound = false ∧
      m.accountId = outbound.accountId ∧ e.mail = [m] := by
  rcases settle_messages P hostname io outbound rcpt outcome s with
    hsame | ⟨m, action, hdue, hsup, haccount, hmore⟩
  · exact .inl (by simp [Finalized.of, hsame])
  · exact .inr ⟨m, action, hdue, hsup, haccount, by simp [Finalized.of, hmore]⟩

theorem settledRow_unmarked (hsql : io.faults .delayedUpdate = none)
    (h : (settledRow io outbound rcpt outcome r).delayedDsnSent = false) :
    r.delayedDsnSent = false ∧ dsnDue io.now outbound.createdAt rcpt
      (settlement io.now io.jitterFrac outbound.expiresAt rcpt outcome).state ≠ some .delayed := by
  unfold settledRow at h
  simp only [hsql, and_true] at h
  split at h
  · cases h
  · next hdue =>
    refine ⟨?_, hdue⟩
    split at h
    · exact h
    · exact h

theorem Change.unmarked (hsql : a.SqlSucceeds) (h : Change s a r r')
    (hmark : r'.delayedDsnSent = false) : r.delayedDsnSent = false := by
  cases h with
  | settled => exact (settledRow_unmarked hsql.2 hmark).1
  | _ => exact hmark

theorem dsnDue_failed (h : dsnDue now createdAt rcpt state = some .failed) :
    state.isTerminal ∧ state ≠ .delivered := by
  unfold dsnDue at h
  split at h
  · next hcond => simpa using hcond
  · split at h <;> cases h

theorem dsnDue_delayed (h : dsnDue now createdAt rcpt state = some .delayed) :
    rcpt.delayedDsnSent = false := by
  unfold dsnDue at h
  split at h
  · cases h
  · split at h
    · next hcond =>
      simp only [Bool.and_eq_true, Bool.not_eq_true'] at hcond
      exact hcond.1.1.2
    · cases h

/-- Its message has a sender and is no notification. -/
def Answerable (q : QueueStore) (id accountId : ℤ) : Prop :=
  ∃ r ∈ q.rcpts, r.id = id ∧ ∃ o ∈ q.outbound, o.id = r.outboundId ∧ o.accountId = accountId ∧
    o.envelopeFrom ≠ [] ∧ o.isDsn = false

/-- How the notifications sent so far show in the table. -/
structure Noticed (s : Loop) : Prop where
  answerable : ∀ e ∈ s.finalized, ∀ m ∈ e.mail,
    e.due.isSome ∧ Answerable s.queue e.id m.accountId
  failure : ∀ r ∈ s.queue.rcpts, r.state.isTerminal = false → mailFor r.id .failed s.finalized = []
  delay : ∀ r ∈ s.queue.rcpts, r.delayedDsnSent = false → mailFor r.id .delayed s.finalized = []
  atMost : ∀ id action, (mailFor id action s.finalized).length ≤ 1

theorem TableStep.answerable {f : OutboundRecipient → OutboundRecipient}
    {news : List OutboundRecipient} {newMessages : List OutboundMessage} {accountId : ℤ}
    (h : TableStep s a t f news newMessages) (hans : Answerable s.queue id accountId) :
    Answerable t.queue id accountId := by
  obtain ⟨r, hr, hid, o, ho, howner, hrest⟩ := hans
  obtain ⟨hid', howner', -⟩ := (h.change r hr).columns
  refine ⟨f r, h.mem hr, hid'.trans hid, o, ?_, howner.trans howner'.symm, hrest⟩
  rw [h.outbound]
  exact mem_append_left _ ho

theorem Noticed.fresh (hN : Noticed s) (action : DsnAction)
    (hid : id ∉ s.queue.rcpts.map OutboundRecipient.id) : mailFor id action s.finalized = [] := by
  rw [eq_nil_iff_forall_not_mem]
  intro m hm
  obtain ⟨e, he, ⟨rfl, -⟩, hmail⟩ := mem_mailFor.mp hm
  obtain ⟨-, r, hr, heq, -⟩ := hN.answerable e he m hmail
  exact hid (heq ▸ mem_map_of_mem hr)

theorem Noticed.quiet (hN : Noticed s) (hS : Sound s) (hsql : a.SqlSucceeds)
    (h : step P hostname s a = some t)
    (hmail : ∀ id action, mailFor id action t.finalized = mailFor id action s.finalized)
    (hnew : ∀ e ∈ t.finalized, e ∈ s.finalized ∨ e.mail = []) : Noticed t := by
  obtain ⟨f, news, newMessages, htables⟩ := step_tables hS.tables h
  -- a row after the step is an old one, or a new one that no notification can be about
  have hrow : ∀ r' ∈ t.queue.rcpts, (∃ r ∈ s.queue.rcpts, r'.id = r.id ∧ Change s a r r') ∨
      r'.id ∉ s.queue.rcpts.map OutboundRecipient.id := by
    intro r' hr'
    rcases htables.row hr' with ⟨r, hr, rfl⟩ | hnew
    · exact .inl ⟨r, hr, (htables.change r hr).columns.1, htables.change r hr⟩
    · exact .inr (htables.new_row hnew).2
  refine ⟨?_, ?_, ?_, fun id action => hmail id action ▸ hN.atMost id action⟩
  · intro e he m hm
    rcases hnew e he with hold | hnone
    · exact (hN.answerable e hold m hm).imp_right htables.answerable
    · rw [hnone] at hm
      cases hm
  · intro r' hr' hstate
    rw [hmail]
    rcases hrow r' hr' with ⟨r, hr, hid, hchange⟩ | hnew
    · rw [hid]
      refine hN.failure r hr ?_
      rw [Bool.eq_false_iff]
      intro hterm
      rw [hchange.eq_of_terminal hS hr hterm, hterm] at hstate
      cases hstate
    · exact hN.fresh .failed hnew
  · intro r' hr' hmark
    rw [hmail]
    rcases hrow r' hr' with ⟨r, hr, hid, hchange⟩ | hnew
    · rw [hid]
      exact hN.delay r hr (hchange.unmarked hsql hmark)
    · exact hN.fresh .delayed hnew

section
variable {todo : List (ClaimedRcpt × Outcome)} {us : List DeliveryUnit}

theorem mailFor_finalizeStep (id : ℤ) (action : DsnAction) :
    mailFor id action (finalizeStep P hostname io outbound rcpt outcome todo us s).finalized =
      (if rcpt.id = id ∧ dsnDue io.now outbound.createdAt rcpt
          (settlement io.now io.jitterFrac outbound.expiresAt rcpt outcome).state = some action then
        (Finalized.of io outbound rcpt outcome s.stores
          (settle P hostname io outbound rcpt outcome s.stores).stores).mail
      else []) ++ mailFor id action s.finalized := flatMap_cons

theorem Noticed.notified (hN : Noticed s) (hS : Sound s) (hsql : (Act.finalize io).SqlSucceeds)
    (hpc : s.pc = .finalize outbound ((rcpt, outcome) :: todo) us)
    (hstep : step P hostname s (.finalize io) =
      some (finalizeStep P hostname io outbound rcpt outcome todo us s))
    (hdue : dsnDue io.now outbound.createdAt rcpt
      (settlement io.now io.jitterFrac outbound.expiresAt rcpt outcome).state = some action)
    (hsup : suppressed rcpt outbound = false) (haccount : m.accountId = outbound.accountId)
    (hmail : (Finalized.of io outbound rcpt outcome s.stores
      (settle P hostname io outbound rcpt outcome s.stores).stores).mail = [m]) :
    Noticed (finalizeStep P hostname io outbound rcpt outcome todo us s) := by
  obtain ⟨f, news, newMessages, htables⟩ := step_tables hS.tables hstep
  obtain ⟨r₀, hr₀, hclaim, hclaimed⟩ := hS.held (outbound.id, rcpt) (by rw [hpc]; simp [Pc.pending])
  obtain ⟨howner, hrcpt⟩ := Prod.mk.inj hclaim
  have hid₀ : r₀.id = rcpt.id := congrArg ClaimedRcpt.id hrcpt
  have hcount : ∀ id act,
      mailFor id act (finalizeStep P hostname io outbound rcpt outcome todo us s).finalized =
        (if rcpt.id = id ∧ action = act then [m] else []) ++ mailFor id act s.finalized := by
    intro id act
    rw [mailFor_finalizeStep, hmail, hdue]
    simp only [Option.some.injEq]
  refine ⟨?_, ?_, ?_, ?_⟩
  · intro e he n hn
    rcases mem_cons.mp he with rfl | hold
    · rw [hmail] at hn
      obtain rfl := mem_singleton.mp hn
      simp only [suppressed, Bool.or_eq_false_iff, isEmpty_eq_false_iff] at hsup
      refine ⟨Option.isSome_iff_exists.mpr ⟨action, hdue⟩, htables.answerable ⟨r₀, hr₀, hid₀, outbound,
        hS.message outbound (by rw [hpc]; rfl), howner.symm, haccount.symm, hsup.1.1, hsup.1.2⟩⟩
    · exact (hN.answerable e hold n hn).imp_right htables.answerable
  · intro r' hr' hstate
    obtain ⟨r, hr, hid, hrow⟩ := finalizeStep_rows hr'
    rw [hcount, hid]
    rcases hrow with ⟨hrid, rfl⟩ | ⟨hrid, rfl⟩
    · -- a failure notice goes with a terminal state
      have hnot : action ≠ .failed := by
        rintro rfl
        rw [settledRow_state hsql.1, (dsnDue_failed hdue).1] at hstate
        cases hstate
      obtain rfl := inj_on_of_nodup_map hS.tables.rcptIds hr₀ hr (hid₀.trans hrid.symm)
      simp [hnot, hN.failure r₀ hr (by rw [hclaimed]; rfl)]
    · simp [Ne.symm hrid, hN.failure r' hr hstate]
  · intro r' hr' hmark
    obtain ⟨r, hr, hid, hrow⟩ := finalizeStep_rows hr'
    rw [hcount, hid]
    rcases hrow with ⟨hrid, rfl⟩ | ⟨hrid, rfl⟩
    · obtain ⟨hold, hnot⟩ := settledRow_unmarked hsql.2 hmark
      have hne : action ≠ .delayed := by
        rintro rfl
        exact hnot hdue
      simp [hne, hN.delay r hr hold]
    · simp [Ne.symm hrid, hN.delay r' hr hmark]
  · intro id act
    rw [hcount]
    split
    · next heq =>
      obtain ⟨rfl, rfl⟩ := heq
      have hfirst : mailFor rcpt.id action s.finalized = [] := by
        rw [← hid₀]
        cases action with
        | failed => exact hN.failure r₀ hr₀ (by rw [hclaimed]; rfl)
        | delayed =>
          have hunmarked := dsnDue_delayed hdue
          rw [← hrcpt] at hunmarked
          exact hN.delay r₀ hr₀ hunmarked
      simp [hfirst]
    · exact hN.atMost id act

end

theorem Noticed.step (hN : Noticed s) (hS : Sound s) (hsql : a.SqlSucceeds)
    (h : step P hostname s a = some t) : Noticed t := by
  rcases step_reports h with ⟨-, hsame⟩ | ⟨io, outbound, rcpt, outcome, todo, us, rfl, hpc, rfl⟩
  · exact hN.quiet hS hsql h (fun _ _ => by rw [hsame]) fun e he => .inl (hsame ▸ he)
  · rcases finalized_mail P hostname io outbound rcpt outcome s.stores with
      hnone | ⟨m, action, hdue, hsup, haccount, hmail⟩
    · refine hN.quiet hS hsql h (fun id action => ?_) fun e he => ?_
      · rw [mailFor_finalizeStep, hnone, ite_self, nil_append]
      · rcases mem_cons.mp he with rfl | hold
        · exact .inr hnone
        · exact .inl hold
    · exact hN.notified hS hsql hpc h hdue hsup haccount hmail

end

/-! ## The lifecycle -/

section
variable {t : Loop} {stores : Stores}

theorem start_sound (hT : Tables stores.queue) : Sound (Loop.start stores) :=
  ⟨hT, nodup_nil, fun _ hp => absurd hp not_mem_nil, fun _ ho => by cases ho⟩

theorem start_noticed : Noticed (Loop.start stores) where
  answerable _ h := absurd h not_mem_nil
  failure _ _ _ := rfl
  delay _ _ _ := rfl
  atMost _ _ := Nat.zero_le 1

theorem run_invariants (hT : Tables stores.queue)
    (hsql : Along (step P hostname) (fun _ a => a.SqlSucceeds) (Loop.start stores) as)
    (h : run (step P hostname) (Loop.start stores) as = some t) :
    Sound t ∧ Leased stores.queue.rcpts t ∧ Noticed t :=
  run_invariant (I := fun u => Sound u ∧ Leased stores.queue.rcpts u ∧ Noticed u)
    (fun _ _ _ ⟨hS, hL, hN⟩ hok hstep =>
      ⟨hS.step hstep, hL.step hS hok hstep, hN.step hS hok hstep⟩)
    ⟨start_sound hT, fun _ hr _ => .inr hr, start_noticed⟩ hsql h

theorem settle_suppressed (io : FinalizeIo) (outcome : Outcome) (s : Stores)
    (h : suppressed rcpt outbound) :
    (settle P hostname io outbound rcpt outcome s).stores.metadata = s.metadata ∧
      (settle P hostname io outbound rcpt outcome s).stores.blobs = s.blobs := by
  have hrecord := recordOutcome_mailUntouched io outbound rcpt outcome s
  unfold settle
  simp only
  split
  · exact ⟨hrecord.metadata, hrecord.blobs⟩
  · simp only [sendDue, maybeSendDsn, h, if_true]
    exact ⟨hrecord.metadata, hrecord.blobs⟩

/-- The life of a recipient, over every run of the worker among enqueues, in every state `t` it
reaches. -/
theorem recipient_lifecycle (P : Primitives) (hostname : Text) (stores : Stores) (as : List Act)
    (t : Loop) (hT : Tables stores.queue)
    (hsql : Along (step P hostname) (fun _ a => a.SqlSucceeds) (Loop.start stores) as)
    (hrun : run (step P hostname) (Loop.start stores) as = some t) :
    -- a terminal row never changes again and is in no batch of which a unit is sent
    (∀ r ∈ t.queue.rcpts, r.state.isTerminal →
      ∀ bs u, run (step P hostname) t bs = some u → r ∈ u.queue.rcpts ∧ r.id ∉ u.pc.heldIds) ∧
    -- what the worker will finalize or release are distinct rows, all of them claimed
    (t.pc.heldIds.Nodup ∧
      ∀ id ∈ t.pc.heldIds, ∃ r ∈ t.queue.rcpts, r.id = id ∧ r.state = .claimed) ∧
    -- a release or a `finalize` changes claimed rows only, and they are claimed no more
    (∀ a u, ((∃ io, a = .unit io) ∨ ∃ io, a = .finalize io) → a.SqlSucceeds →
      step P hostname t a = some u → ∀ r ∈ t.queue.rcpts, ∀ r' ∈ u.queue.rcpts, r'.id = r.id →
        r' = r ∨ (r.state = .claimed ∧ r'.state ≠ .claimed)) ∧
    -- and none is left over: a claimed row is still in memory, or the run found it claimed; at the
    -- next claim nothing is in memory
    ((∀ r ∈ t.queue.rcpts, r.state = .claimed → r.id ∈ t.pc.heldIds ∨ r ∈ stores.queue.rcpts) ∧
      (t.pc = .claim → t.pc.heldIds = [])) ∧
    -- at most one message is delivered as a notification of each kind
    (∀ id, (mailFor id .failed t.finalized).length ≤ 1 ∧
      (mailFor id .delayed t.finalized).length ≤ 1) ∧
    -- and none without one being due, for a message without sender or for a notification
    (∀ e ∈ t.finalized, ∀ m ∈ e.mail, e.due.isSome ∧ Answerable t.queue e.id m.accountId) ∧
    (∀ io outbound rcpt outcome todo us u,
      t.pc = .finalize outbound ((rcpt, outcome) :: todo) us →
      outbound.envelopeFrom = [] ∨ outbound.isDsn →
      step P hostname t (.finalize io) = some u →
        u.stores.metadata = t.stores.metadata ∧ u.stores.blobs = t.stores.blobs) := by
  obtain ⟨hS, hL, hN⟩ := run_invariants hT hsql hrun
  refine ⟨?_, ⟨hS.nodup, fun _ => hS.row⟩, ?_, ⟨hL, fun hpc => by rw [hpc]; rfl⟩,
    fun id => ⟨hN.atMost id _, hN.atMost id _⟩, hN.answerable, ?_⟩
  · intro r hr hterm bs u hu
    obtain ⟨hSu, hmem, -⟩ := run_rests hS hr hterm hu
    exact ⟨hmem, hSu.not_held hmem hterm⟩
  · intro a u ha hok hu r hr r' hr' hid
    exact settles_claimed hS ha hok hu hr hr' hid
  · intro io outbound rcpt outcome todo us u hpc hguard hstep
    have hsup : suppressed rcpt outbound := by
      rcases hguard with h | h <;> simp [suppressed, h]
    have hu : finalizeStep P hostname io outbound rcpt outcome todo us t = u := by
      simpa [step, hpc, workerStep] using hstep
    rw [← hu]
    exact settle_suppressed io outcome t.stores hsup

end

/-! A message to one recipient, whose domain turns out to have a null MX. -/

def samplePrimitives : Primitives :=
  .sample fun _ => some { messageId := none, inReplyTo := .other, references := .other, subject := none }

def sampleHost : Text := "mx.example.com"

def sampleAccount : Account :=
  { id := 1, localPart := "alice", domain := "example.com", keyId := 1, accountPub := [1]
    createdAt := 1600000000 }

def sampleStores : Stores := { Stores.empty with accounts := [sampleAccount] }

def sampleMail : NewOutbound where
  accountId := 1
  envelopeFrom := "alice@example.com"
  rawMessage := utf8 "\r\nhi\r\n"
  recipients := ["bob@example.net"]
  isDsn := false
  dsnEnvid := none
  dsnRet := none

def sampleSign (_ : DomainKey) (_ : Bytes) : Except Error Text :=
  .ok "DKIM-Signature: v=1\r\n"

def sampleKey : DomainKey := ⟨"example.com", "litterae", [1], [2]⟩

def sampleRcpt (id : ℤ) : ClaimedRcpt where
  id := id
  rcptTo := "bob@example.net"
  domain := "example.net"
  dsnNotify := "FAILURE"
  attempts := 0
  delayedDsnSent := false

def sampleUnit (id : ℤ) : DeliveryUnit := ⟨id, "example.net", [sampleRcpt id]⟩

def sampleWrite : Act := .write .none sampleSign sampleKey sampleMail

def sampleEnqueue (now : ℤ) : List Act := [sampleWrite, .insert 0 .none now]

def sampleRound (now : ℤ) (order : List ℤ) : List Act :=
  [.reap .none now, .expire .none now, .fire .none (fun _ => .none) now,
    .claim .none now order (order.map sampleUnit)]

def sampleFinalize (now : ℤ) : Act :=
  .finalize
    { now, jitterFrac := 0, faults := .none, auditOk := true
      dsn := { faults := .none, now
               draw := { dek := List.replicate 32 7, nonce := List.replicate 24 9, hpkeRandom := []
                         pick := 0, faults := .none } } }

def sampleSend (now : ℤ) : List Act :=
  [.unit { faults := .none, instant := 0, mxRecords := .ok ["."], connect := .failed false },
    sampleFinalize now]

def sampleBounce : List Act :=
  sampleEnqueue 1700000000 ++ sampleRound 1700000000 [1] ++ sampleSend 1700000000 ++
    [.count .none, .remove .none]

theorem sampleBounce_sqlSucceeds : ∀ a ∈ sampleBounce, a.SqlSucceeds := by
  simp [sampleBounce, sampleEnqueue, sampleWrite, sampleRound, sampleSend, sampleFinalize,
    Act.SqlSucceeds, Faults.none]

theorem recipient_lifecycle_bounce :
    ∃ t, run (step samplePrimitives sampleHost) (Loop.start sampleStores) sampleBounce = some t ∧
      (mailFor 1 .failed t.finalized).length = 1 ∧
      (∀ id, (mailFor id .failed t.finalized).length ≤ 1 ∧
        (mailFor id .delayed t.finalized).length ≤ 1) := by
  have hT : Tables sampleStores.queue := ⟨by decide, by decide, by decide⟩
  have hends : ((run (step samplePrimitives sampleHost) (Loop.start sampleStores) sampleBounce).map
      fun t => (mailFor 1 .failed t.finalized).length) = some 1 := by decide +kernel
  obtain ⟨t, hrun, hcount⟩ := Option.map_eq_some_iff.mp hends
  exact ⟨t, hrun, hcount, (recipient_lifecycle _ _ _ _ t hT
    (.of_mem (fun a ha _ => sampleBounce_sqlSucceeds a ha) _) hrun).2.2.2.2.1⟩

end Litterae.Queue
