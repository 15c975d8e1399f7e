import Litterae.Queue.Lifecycle

/-! # Who is told that mail was not delivered

Two statements move a recipient to a terminal state: `finalize`, which also writes the audit entry
and sends the notification, and the bulk update of `expire_overdue`, which does neither.
-/

namespace Litterae.Queue
open Foundations Store Bool List

/-! ## What a bounce is -/

/-- The audit entries written by the calls of `finalize` for the recipient. -/
def auditsOf (id : ℤ) (calls : List Finalized) : List AuditEntry :=
  calls.flatMap fun e => if e.id = id then e.entries else []

def auditFor (state : RcptState) (rcptTo : Text) : List AuditEntry :=
  (auditAction state).toList.map fun action => { action, detail := rcptTo }

/-- One message was delivered as failure notification about the recipient, to the sending account, and
one audit entry was written, for the state it is in. -/
structure Bounced (s : Loop) (r : OutboundRecipient) (o : OutboundMessage) : Prop where
  notice : ∃ m, mailFor r.id .failed s.finalized = [m] ∧ m.accountId = o.accountId
  audit : auditsOf r.id s.finalized = auditFor r.state r.rcptTo

/-- The failure of the recipient is to be reported: the message has a sender and is no notification,
and the recipient was not given with NEVER. -/
structure Reportable (r : OutboundRecipient) (o : OutboundMessage) : Prop where
  owner : o.id = r.outboundId
  sender : o.envelopeFrom ≠ []
  notDsn : o.isDsn = false
  wanted : r.dsnNotify ≠ "NEVER"

/-- The audit entry is written, and a failure notification that is due goes out: it can be built, the
account exists, local delivery succeeds. -/
def reportsSucceed (P : Primitives) (hostname : Text) (stores : Stores) : Pc → Act → Bool
  | .finalize outbound ((rcpt, outcome) :: _) _, .finalize io =>
    let st := settlement io.now io.jitterFrac outbound.expiresAt rcpt outcome
    io.auditOk &&
      (dsnDue io.now outbound.createdAt rcpt st.state != some .failed || suppressed rcpt outbound ||
        goesOut P hostname io.dsn rcpt outbound .failed st.code st.status st.detail
          (recordOutcome io outbound rcpt outcome stores))
  | _, _ => true

/-- The bulk expiry does not find the recipient waiting with its message past expiry. -/
def Spares (id : ℤ) (s : Loop) : Act → Prop
  | .expire faults now =>
    faults .expireUpdate = none → ∀ r ∈ s.queue.rcpts, r.id = id → isOverdue now s.queue r = false
  | _ => True

instance (id : ℤ) (s : Loop) : (a : Act) → Decidable (Spares id s a)
  | .expire faults now => inferInstanceAs (Decidable
      (faults .expireUpdate = none → ∀ r ∈ s.queue.rcpts, r.id = id →
        isOverdue now s.queue r = false))
  | .write .. | .insert .. | .reap .. | .fire .. | .claim .. | .unit .. | .finalize .. | .count ..
  | .remove .. => .isTrue trivial

variable {hostname : Text} {P : Primitives}

section
variable {s t : Loop} {a : Act} {id : ℤ}

theorem auditFor_of_not_terminal {st : RcptState} (rcptTo : Text) (h : st.isTerminal = false) :
    auditFor st rcptTo = [] := by
  cases st <;> first | rfl | cases h

theorem Change.spared {r r' : OutboundRecipient} (hS : Sound s) (hr : r ∈ s.queue.rcpts)
    (hspares : Spares r.id s a) (hact : ∀ io, a ≠ .finalize io) (h : Change s a r r') :
    r' = r ∨ (r.state.isTerminal = false ∧ r'.state.isTerminal = false) := by
  by_cases hterm : r.state.isTerminal
  · exact .inl (h.eq_of_terminal hS hr hterm)
  · have hactive : r.state.isTerminal = false := by simpa using hterm
    cases h with
    | keep => exact .inl rfl
    | reaped | claimed | released => exact .inr ⟨hactive, rfl⟩
    | expired _ hsql hoverdue =>
      rw [hspares hsql r hr rfl] at hoverdue
      cases hoverdue
    | settled => exact absurd rfl (hact _)

variable {io : FinalizeIo} {rcpt : ClaimedRcpt} {outcome : Outcome} {outbound : OutboundMessage}

theorem settle_notified {st : Stores}
    (hdue : dsnDue io.now outbound.createdAt rcpt
      (settlement io.now io.jitterFrac outbound.expiresAt rcpt outcome).state = some .failed)
    (hsup : suppressed rcpt outbound = false)
    (hout : goesOut P hostname io.dsn rcpt outbound .failed
      (settlement io.now io.jitterFrac outbound.expiresAt rcpt outcome).code
      (settlement io.now io.jitterFrac outbound.expiresAt rcpt outcome).status
      (settlement io.now io.jitterFrac outbound.expiresAt rcpt outcome).detail
      (recordOutcome io outbound rcpt outcome st)) :
    ∃ m, (settle P hostname io outbound rcpt outcome st).stores.metadata.messages =
      st.metadata.messages ++ [m] := by
  obtain ⟨m, hm⟩ := maybeSendDsn_of_goesOut hsup hout
  refine ⟨m, ?_⟩
  rw [← (recordOutcome_mailUntouched io outbound rcpt outcome st).metadata, ← hm]
  unfold settle
  simp only [hdue, sendDue_stores, reduceCtorEq, if_false]

/-! ## A recipient that is spared is answered for -/

/-- The audit entries for the recipient are those of its state, and if that is a failure to report,
the account was told. -/
structure Answered (id : ℤ) (s : Loop) : Prop where
  fresh : id ∉ s.queue.rcpts.map OutboundRecipient.id → auditsOf id s.finalized = []
  audit : ∀ r ∈ s.queue.rcpts, r.id = id → auditsOf id s.finalized = auditFor r.state r.rcptTo
  notice : ∀ r ∈ s.queue.rcpts, r.id = id → r.state = .failed ∨ r.state = .expired →
    ∀ o ∈ s.queue.outbound, Reportable r o →
      ∃ m ∈ mailFor id .failed s.finalized, m.accountId = o.accountId

theorem TableStep.fresh {f : OutboundRecipient → OutboundRecipient} {news : List OutboundRecipient}
    {newMessages : List OutboundMessage} (h : TableStep s a t f news newMessages)
    (hid : id ∉ t.queue.rcpts.map OutboundRecipient.id) :
    id ∉ s.queue.rcpts.map OutboundRecipient.id := by
  intro hold
  rw [h.rcpts, map_append, h.map_id] at hid
  exact hid (mem_append_left _ hold)

theorem Answered.quiet (hA : Answered id s) (hS : Sound s) (hspares : Spares id s a)
    (hact : ∀ io, a ≠ .finalize io) (h : step P hostname s a = some t)
    (hsame : t.finalized = s.finalized) : Answered id t := by
  obtain ⟨f, news, newMessages, htables⟩ := step_tables hS.tables h
  refine ⟨fun hfresh => hsame ▸ hA.fresh (htables.fresh hfresh), ?_, ?_⟩
  · rintro r' hr' rfl
    rw [hsame]
    rcases htables.row hr' with ⟨r, hr, rfl⟩ | hin
    · obtain ⟨hid, -, hto, -⟩ := (htables.change r hr).columns
      have hold := hA.audit r hr hid.symm
      rcases (htables.change r hr).spared hS hr (hid ▸ hspares) hact with heq | ⟨hr₁, hr₂⟩
      · rw [heq] at hold ⊢
        exact hold
      · rw [hold, auditFor_of_not_terminal _ hr₁, auditFor_of_not_terminal _ hr₂]
    · rw [hA.fresh (htables.new_row hin).2, (htables.new_row hin).1]
      rfl
  · rintro r' hr' rfl hstate o ho hreport
    rw [hsame]
    rcases htables.row hr' with ⟨r, hr, rfl⟩ | hin
    · obtain ⟨hid, howner, -, hnotify⟩ := (htables.change r hr).columns
      rcases (htables.change r hr).spared hS hr (hid ▸ hspares) hact with heq | ⟨-, hr₂⟩
      · rw [heq] at hstate hreport
        have hin := htables.old_message hS hr ho hreport.owner
        exact hA.notice r hr hid.symm hstate o hin hreport
      · rcases hstate with hst | hst <;> (rw [hst] at hr₂; cases hr₂)
    · rcases hstate with hst | hst <;> (rw [(htables.new_row hin).1] at hst; cases hst)

section
variable {todo : List (ClaimedRcpt × Outcome)} {us : List DeliveryUnit}

theorem auditsOf_finalizeStep :
    auditsOf id (finalizeStep P hostname io outbound rcpt outcome todo us s).finalized =
      (if rcpt.id = id then
        if io.auditOk then
          auditFor (settlement io.now io.jitterFrac outbound.expiresAt rcpt outcome).state rcpt.rcptTo
        else []
      else []) ++ auditsOf id s.finalized := by
  simp only [finalizeStep, auditsOf, flatMap_cons, Finalized.of, settle_audit, drop_left, auditFor]

theorem settle_reported (hok : reportsSucceed P hostname s.stores s.pc (.finalize io))
    (hpc : s.pc = .finalize outbound ((rcpt, outcome) :: todo) us)
    (hstate : (settlement io.now io.jitterFrac outbound.expiresAt rcpt outcome).state = .failed ∨
      (settlement io.now io.jitterFrac outbound.expiresAt rcpt outcome).state = .expired)
    (hsup : suppressed rcpt outbound = false) :
    ∃ m ∈ mailFor rcpt.id .failed
        (finalizeStep P hostname io outbound rcpt outcome todo us s).finalized,
      m.accountId = outbound.accountId := by
  have hdue : dsnDue io.now outbound.createdAt rcpt
      (settlement io.now io.jitterFrac outbound.expiresAt rcpt outcome).state = some .failed := by
    rcases hstate with h | h <;> (rw [h]; rfl)
  rw [hpc] at hok
  simp only [reportsSucceed, hdue, hsup, bne_self_eq_false, Bool.false_or, Bool.and_eq_true] at hok
  obtain ⟨m, hm⟩ := settle_notified hdue hsup hok.2
  rcases finalized_mail P hostname io outbound rcpt outcome s.stores with
    hnone | ⟨m', action, -, -, haccount, hmail⟩
  · simp [Finalized.of, hm] at hnone
  · refine ⟨m', ?_, haccount⟩
    rw [mailFor_finalizeStep, if_pos ⟨rfl, hdue⟩, hmail]
    exact mem_append_left _ mem_cons_self

theorem Answered.settle_own (hA : Answered rcpt.id s) (hS : Sound s)
    (hsql : (Act.finalize io).SqlSucceeds)
    (hok : reportsSucceed P hostname s.stores s.pc (.finalize io))
    (hpc : s.pc = .finalize outbound ((rcpt, outcome) :: todo) us)
    (h : step P hostname s (.finalize io) =
      some (finalizeStep P hostname io outbound rcpt outcome todo us s)) :
    Answered rcpt.id (finalizeStep P hostname io outbound rcpt outcome todo us s) := by
  obtain ⟨f, news, newMessages, htables⟩ := step_tables hS.tables h
  obtain ⟨r₀, hr₀, hclaim, hclaimed⟩ := hS.held (outbound.id, rcpt) (by rw [hpc]; simp [Pc.pending])
  obtain ⟨howner₀, hrcpt⟩ := Prod.mk.inj hclaim
  have hid₀ : r₀.id = rcpt.id := congrArg ClaimedRcpt.id hrcpt
  obtain ⟨-, howner, hto, hnotify⟩ := settledRow_columns io outbound rcpt outcome r₀
  have hbefore : auditsOf rcpt.id s.finalized = [] := by
    rw [hA.audit r₀ hr₀ hid₀, hclaimed]
    rfl
  have hauditOk : io.auditOk := by
    rw [hpc, reportsSucceed] at hok
    exact (and_eq_true_iff.mp hok).1
  -- the one row with this id, settled
  have hrow : ∀ r' ∈ (finalizeStep P hostname io outbound rcpt outcome todo us s).queue.rcpts,
      r'.id = rcpt.id → r' = settledRow io outbound rcpt outcome r₀ := by
    intro r' hr' hid'
    obtain ⟨r, hr, hrid, ⟨hcase, rfl⟩ | ⟨hcase, -⟩⟩ := finalizeStep_rows hr'
    · rw [inj_on_of_nodup_map hS.tables.rcptIds hr hr₀ (hcase.trans hid₀.symm)]
    · exact absurd (hrid.symm.trans hid') hcase
  refine ⟨fun hfresh => ?_, fun r' hr' hid' => ?_, fun r' hr' hid' hstate o ho hreport => ?_⟩
  · exact absurd (hid₀ ▸ mem_map_of_mem hr₀) (htables.fresh hfresh)
  · rw [hrow r' hr' hid', settledRow_state hsql.1, auditsOf_finalizeStep, hbefore, if_pos rfl,
      if_pos hauditOk, append_nil, hto, ← hrcpt]
  · obtain rfl := hrow r' hr' hid'
    rw [settledRow_state hsql.1] at hstate
    have hold := htables.old_message hS hr₀ ho (hreport.owner.trans howner)
    obtain rfl : o = outbound :=
      inj_on_of_nodup_map hS.tables.outboundIds hold (hS.message outbound (by rw [hpc]; rfl))
        (hreport.owner.trans (howner.trans howner₀))
    have hsup : suppressed rcpt o = false := by
      have hwanted : rcpt.dsnNotify ≠ "NEVER" := by
        rw [← congrArg ClaimedRcpt.dsnNotify hrcpt]
        exact hnotify ▸ hreport.wanted
      simp only [suppressed, or_eq_false_iff, isEmpty_eq_false_iff, beq_eq_false_iff_ne,
        ne_eq]
      exact ⟨⟨hreport.sender, hreport.notDsn⟩, hwanted⟩
    exact settle_reported hok hpc hstate hsup

theorem Answered.settle_other (hA : Answered id s) (hS : Sound s) (hid : rcpt.id ≠ id)
    (h : step P hostname s (.finalize io) =
      some (finalizeStep P hostname io outbound rcpt outcome todo us s)) :
    Answered id (finalizeStep P hostname io outbound rcpt outcome todo us s) := by
  obtain ⟨f, news, newMessages, htables⟩ := step_tables hS.tables h
  have haudits : auditsOf id (finalizeStep P hostname io outbound rcpt outcome todo us s).finalized =
      auditsOf id s.finalized := by
    rw [auditsOf_finalizeStep, if_neg hid, nil_append]
  have hrow : ∀ r' ∈ (finalizeStep P hostname io outbound rcpt outcome todo us s).queue.rcpts,
      r'.id = id → r' ∈ s.queue.rcpts := by
    intro r' hr' hid'
    obtain ⟨r, hr, hrid, ⟨hcase, -⟩ | ⟨-, rfl⟩⟩ := finalizeStep_rows hr'
    · exact absurd (hcase.symm.trans (hrid.symm.trans hid')) hid
    · exact hr
  refine ⟨fun hfresh => ?_, fun r' hr' hid' => ?_, fun r' hr' hid' hstate o ho hreport => ?_⟩
  · rw [haudits]
    exact hA.fresh (htables.fresh hfresh)
  · rw [haudits]
    exact hA.audit r' (hrow r' hr' hid') hid'
  · have hold := htables.old_message hS (hrow r' hr' hid') ho hreport.owner
    rw [mailFor_finalizeStep, if_neg fun h => hid h.1, nil_append]
    exact hA.notice r' (hrow r' hr' hid') hid' hstate o hold hreport

end

theorem Answered.step (hA : Answered id s) (hS : Sound s) (hspares : Spares id s a)
    (hsql : a.SqlSucceeds) (hok : reportsSucceed P hostname s.stores s.pc a)
    (h : step P hostname s a = some t) : Answered id t := by
  rcases step_reports h with
    ⟨hact, hsame⟩ | ⟨io, outbound, rcpt, outcome, todo, us, rfl, hpc, rfl⟩
  · exact hA.quiet hS hspares hact h hsame
  · by_cases hid : rcpt.id = id
    · subst hid
      exact hA.settle_own hS hsql hok hpc h
    · exact hA.settle_other hS hid h

/-! ## A recipient that is not spared gets nothing -/

theorem expired_of_not_spares (hnot : ¬ Spares id s a) (h : step P hostname s a = some t) :
    ∃ r ∈ s.queue.rcpts, r.id = id ∧ r.state.isTerminal = false ∧ toExpired r ∈ t.queue.rcpts ∧
      t.finalized = s.finalized := by
  cases a with
  | expire =>
    simp only [Spares, not_forall, not_eq_false] at hnot
    obtain ⟨hsql, r, hr, hid, hoverdue⟩ := hnot
    cases taken_of_step h with
    | worker hw =>
      cases hw with
      | expire =>
        have hwaiting := (and_eq_true_iff.mp hoverdue).1
        refine ⟨r, hr, hid, RcptState.not_isTerminal_iff.mpr (.inl hwaiting), ?_, rfl⟩
        simp only [Loop.queue, Loop.withQueue, expireOverdue, updateRcpts_eq]
        exact mem_map.mpr ⟨r, hr, if_pos ⟨hsql, hoverdue⟩⟩
  | _ => exact absurd trivial hnot

end

section
variable {stores : Stores} {as : List Act} {t : Loop} {id : ℤ}

theorem run_answered (hT : Tables stores.queue)
    (hsql : Along (step P hostname) (fun _ a => a.SqlSucceeds) (Loop.start stores) as)
    (hok : Along (step P hostname) (fun s a => reportsSucceed P hostname s.stores s.pc a = true)
      (Loop.start stores) as)
    (hspares : Along (step P hostname) (Spares id) (Loop.start stores) as)
    (hactive : ∀ r ∈ stores.queue.rcpts, r.id = id → r.state.isTerminal = false)
    (h : run (step P hostname) (Loop.start stores) as = some t) : Answered id t := by
  have hstart : Answered id (Loop.start stores) := by
    refine ⟨fun _ => rfl, fun r hr hid => ?_, fun r hr hid hstate => ?_⟩
    · exact (auditFor_of_not_terminal _ (hactive r hr hid)).symm
    · have hnot := hactive r hr hid
      rcases hstate with hst | hst <;> (rw [hst] at hnot; cases hnot)
  have hinv : Sound t ∧ Answered id t := by
    refine run_invariant (I := fun u => Sound u ∧ Answered id u) ?_ ⟨start_sound hT, hstart⟩
      ((hsql.and hok).and hspares) h
    rintro u a v ⟨hS, hA⟩ ⟨⟨hsql, hok⟩, hspares⟩ hstep
    exact ⟨hS.step hstep, hA.step hS hspares hsql hok hstep⟩
  exact hinv.2

theorem run_unnoticed (hT : Tables stores.queue)
    (hsql : Along (step P hostname) (fun _ a => a.SqlSucceeds) (Loop.start stores) as)
    (hnot : ¬ Along (step P hostname) (Spares id) (Loop.start stores) as)
    (h : run (step P hostname) (Loop.start stores) as = some t) :
    mailFor id .failed t.finalized = [] := by
  obtain ⟨before, a, after, u, v, rfl, hu, hnot, hv, hend⟩ := exists_of_not_along h hnot
  obtain ⟨hS, -, hN⟩ := run_invariants hT hsql.append_left hu
  obtain ⟨r, hr, rfl, hactive, hexpired, hsame⟩ := expired_of_not_spares hnot hv
  obtain ⟨-, hrests⟩ := (run_rests (hS.step hv) hexpired rfl hend).2
  rw [show r.id = (toExpired r).id from rfl, hrests, hsame]
  exact hN.failure r hr hactive

def sampleOverdue : List Act := sampleEnqueue 1700000000 ++ sampleRound 1700432001 []

end
end Litterae.Queue
