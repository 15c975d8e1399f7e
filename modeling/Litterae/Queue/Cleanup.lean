import Litterae.Queue.Bounce
import Litterae.Queue.Spool

/-! # The plaintext left in the spool

`cleanup_terminal_message` runs at the end of `finalize`, for the message of the recipient that was
finalized. A recipient that `expire_overdue` takes to its terminal state gets no such call, so when
it was the last one the plaintext of its message stays (`spool_left_behind`).
-/

namespace Litterae.Queue
open Foundations Store Delivery List Option

/-- No notification that is sealed gets the name of a queued message. -/
def Separate (P : Primitives) (hostname : Text) (s : Loop) (a : Act) : Prop :=
  match s.pc, a with
  | .finalize outbound ((rcpt, outcome) :: _) _, .finalize io =>
    ∀ c ∈ sealedNotice P hostname io outbound rcpt outcome, ∀ o ∈ s.queue.outbound,
      o.messageBlob ≠ hashHex P c
  | _, _ => True

instance (P : Primitives) (hostname : Text) (s : Loop) (a : Act) :
    Decidable (Separate P hostname s a) := by
  unfold Separate
  split <;> infer_instance

/-- Enqueues and the statements and file operations of the cleanup succeed. -/
def OperationsSucceed (s : Loop) : Act → Prop
  | .write faults _ _ _ => faults .blobPrepare = none ∧ faults .blobSyncDir = none
  | .insert k faults now => ((s.inflight[k]?).all fun e =>
      (enqueueInsert faults now e.new e.messageBlob s.queue).1.isOk) = true
  | .count faults => faults .countActive = none
  | .remove faults => faults .blobRemove = none
  | _ => True

instance (s : Loop) : (a : Act) → Decidable (OperationsSucceed s a)
  | .write faults _ _ _ => inferInstanceAs (Decidable
      (faults .blobPrepare = none ∧ faults .blobSyncDir = none))
  | .insert k faults now => inferInstanceAs (Decidable (((s.inflight[k]?).all fun e =>
      (enqueueInsert faults now e.new e.messageBlob s.queue).1.isOk) = true))
  | .count faults => inferInstanceAs (Decidable (faults .countActive = none))
  | .remove faults => inferInstanceAs (Decidable (faults .blobRemove = none))
  | .reap .. | .expire .. | .fire .. | .claim .. | .unit .. | .finalize .. => .isTrue trivial

/-- An overdue recipient is not the last one with a use for its message: some other recipient of the
same blob stays active, or an enqueue of the same bytes is under way. -/
def ExpiryLeavesUse (s : Loop) : Act → Prop
  | .expire faults now => faults .expireUpdate = none → ∀ r ∈ s.queue.rcpts,
      isOverdue now s.queue r = true → ∀ o ∈ s.queue.outbound, o.id = r.outboundId →
        (s.stores.blobs.file o.messageBlob).isSome = true →
          (∃ r' ∈ s.queue.rcpts, r'.state.isTerminal = false ∧ isOverdue now s.queue r' = false ∧
            ∃ o' ∈ s.queue.outbound, o'.id = r'.outboundId ∧ o'.messageBlob = o.messageBlob) ∨
          ∃ e ∈ s.inflight, e.messageBlob = o.messageBlob
  | _ => True

instance (s : Loop) : (a : Act) → Decidable (ExpiryLeavesUse s a)
  | .expire faults now => inferInstanceAs (Decidable (faults .expireUpdate = none →
      ∀ r ∈ s.queue.rcpts,
        isOverdue now s.queue r = true → ∀ o ∈ s.queue.outbound, o.id = r.outboundId →
          (s.stores.blobs.file o.messageBlob).isSome = true →
            (∃ r' ∈ s.queue.rcpts, r'.state.isTerminal = false ∧
              isOverdue now s.queue r' = false ∧
                ∃ o' ∈ s.queue.outbound, o'.id = r'.outboundId ∧ o'.messageBlob = o.messageBlob) ∨
            ∃ e ∈ s.inflight, e.messageBlob = o.messageBlob))
  | .write .. | .insert .. | .reap .. | .fire .. | .claim .. | .unit .. | .finalize .. | .count ..
  | .remove .. => .isTrue trivial

/-- The worker is about to clean up after a message with this blob. -/
def Pc.cleans (b : Text) : Pc → Prop
  | .count outbound _ _ | .remove outbound _ _ => outbound.messageBlob = b
  | _ => False

def Pc.isDead : Pc → Prop
  | .dead _ => True
  | _ => False

inductive Needed (s : Loop) (b : Text) : Prop where
  | active (h : Active s.queue b)
  | cleaning (h : s.pc.cleans b)
  | inflight (e : Inflight) (he : e ∈ s.inflight) (hb : e.messageBlob = b)
  | dead (h : s.pc.isDead)

/-- The blobs of messages are names of files, and each that is stored has a use. -/
structure Accounted (s : Loop) : Prop where
  named : ∀ o ∈ s.queue.outbound, validHash o.messageBlob = true
  flights : ∀ e ∈ s.inflight, validHash e.messageBlob = true ∧ e.new.recipients ≠ []
  stored : ∀ o ∈ s.queue.outbound, (s.stores.blobs.file o.messageBlob).isSome = true →
    Needed s o.messageBlob

section
variable {P : Primitives} {hostname : Text} {s t : Loop} {a : Act} {b : Text} {o : OutboundMessage}
  {e : Inflight} {faults : Faults}

/-! ## A use that an action ends -/

theorem TableStep.active {f : OutboundRecipient → OutboundRecipient} {news : List OutboundRecipient}
    {newMessages : List OutboundMessage} (h : TableStep s a t f news newMessages)
    {r : OutboundRecipient} (hr : r ∈ s.queue.rcpts) (hstate : (f r).state.isTerminal = false)
    (ho : o ∈ s.queue.outbound) (howner : o.id = r.outboundId) :
    Active t.queue o.messageBlob := by
  refine ⟨f r, h.mem hr, hstate, o, ?_, ?_, rfl⟩
  · rw [h.outbound]
    exact mem_append_left _ ho
  · rw [(h.change r hr).columns.2.1]
    exact howner

theorem cleans_of_finalize {io : FinalizeIo} {outbound : OutboundMessage} {rcpt : ClaimedRcpt}
    {outcome : Outcome} {todo : List (ClaimedRcpt × Outcome)} {us : List DeliveryUnit} :
    Needed (finalizeStep P hostname io outbound rcpt outcome todo us s) outbound.messageBlob := by
  by_cases hpanic : (settle P hostname io outbound rcpt outcome s.stores).panicked
  · exact .dead (by simp [finalizeStep, hpanic, Pc.isDead])
  · exact .cleaning (by simp [finalizeStep, hpanic, Pc.cleans])

theorem inflight_stays (h : step P hostname s a = some t) (he : e ∈ s.inflight) :
    e ∈ t.inflight ∨ ∃ k faults now, a = .insert k faults now ∧ s.inflight[k]? = some e := by
  cases taken_of_step h with
  | written => exact .inl (mem_append_left _ he)
  | notWritten => exact .inl he
  | @inserted k faults now e' hk =>
    obtain ⟨i, hi, rfl⟩ := mem_iff_getElem.mp he
    by_cases heq : i = k
    · subst heq
      exact .inr ⟨i, faults, now, rfl, List.getElem?_eq_getElem hi⟩
    · exact .inl (mem_eraseIdx_iff_getElem.mpr ⟨i, hi, heq, rfl⟩)
  | worker hw =>
    left
    cases hw with
    | @unit io u us hpc =>
      unfold unitStep
      split
      · exact he
      · split
        · exact he
        · simp only [Loop.setCooldown]
          split <;> exact he
    | _ => exact he

/-- An active recipient stays active, or the worker cleans up after its message, or it was expired in
bulk and the blob has another use. -/
theorem needed_of_active (hS : Sound s) (hguard : ExpiryLeavesUse s a)
    (h : step P hostname s a = some t) (hstored : (s.stores.blobs.file b).isSome)
    (hb : Active s.queue b) : Needed t b := by
  obtain ⟨f, news, newMessages, htables⟩ := step_tables hS.tables h
  obtain ⟨r, hr, hstate, o, ho, howner, rfl⟩ := hb
  by_cases hstill : (f r).state.isTerminal = false
  · exact .active (htables.active hr hstill ho howner)
  · have hchange := htables.change r hr
    generalize f r = r' at hchange hstill
    cases hchange with
    | keep => exact absurd hstate hstill
    | reaped | claimed | released => exact absurd rfl hstill
    | expired _ hsql hoverdue =>
      rcases hguard hsql r hr hoverdue o ho howner hstored with
        ⟨r₁, hr₁, hactive, hspared, o₁, ho₁, howner₁, hblob⟩ | ⟨e, he, heq⟩
      · have hkeep : (f r₁).state.isTerminal = false := by
          have hchange₁ := htables.change r₁ hr₁
          generalize f r₁ = r₁' at hchange₁
          cases hchange₁ with
          | keep => exact hactive
          | expired _ _ hover =>
            rw [hspared] at hover
            cases hover
        exact hblob ▸ .active (htables.active hr₁ hkeep ho₁ howner₁)
      · rcases inflight_stays h he with hin | ⟨k, faults, now, hact, -⟩
        · exact .inflight e hin heq
        · cases hact
    | @settled io outbound rcpt outcome todo us _ hpc hid =>
      obtain ⟨r₁, hr₁, hclaim, -⟩ := hS.held (outbound.id, rcpt) (by rw [hpc]; simp [Pc.pending])
      obtain ⟨howner₁, hrcpt⟩ := Prod.mk.inj hclaim
      obtain rfl : r₁ = r := inj_on_of_nodup_map hS.tables.rcptIds hr₁ hr
        ((congrArg ClaimedRcpt.id hrcpt).trans hid.symm)
      obtain rfl : o = outbound := inj_on_of_nodup_map hS.tables.outboundIds ho
        (hS.message outbound (by rw [hpc]; rfl)) (howner.trans howner₁)
      rcases step_reports h with ⟨hact, -⟩ | ⟨_, _, _, _, _, _, -, hpc', rfl⟩
      · exact absurd rfl (hact io)
      · rw [hpc] at hpc'
        cases hpc'
        exact cleans_of_finalize

theorem active_of_insert {k : ℕ} {now : ℤ} (he : s.inflight[k]? = some e)
    (hok : OperationsSucceed s (.insert k faults now)) (hne : e.new.recipients ≠ [])
    (h : step P hostname s (.insert k faults now) = some t) :
    Active t.queue e.messageBlob := by
  have hisOk : (enqueueInsert faults now e.new e.messageBlob s.queue).1.isOk := by
    simpa [OperationsSucceed, he] using hok
  rcases enqueueInsert_queue faults now e.new e.messageBlob s.queue with ⟨-, hfailed⟩ | ⟨n, -, hq, hn⟩
  · rw [hisOk] at hfailed
    cases hfailed
  · have ht : t.queue = (enqueueInsert faults now e.new e.messageBlob s.queue).2 := by
      simp only [step, he, some.injEq] at h
      rw [← h]
      rfl
    rw [hn.mp hisOk, take_length] at hq
    obtain ⟨news, hnews, hrcpts, hrows, -⟩ := addRcpts_rcpts
      (nextRowid OutboundMessage.id s.queue.outbound) now e.new.recipients
      (addOutbound e.new e.messageBlob now s.queue)
    obtain ⟨r, rest, hcons⟩ := exists_cons_of_ne_nil
      (show news ≠ [] by rintro rfl; exact hne hrcpts.symm)
    obtain ⟨howner, hstate, -⟩ := hrows r (by simp [hcons])
    refine ⟨r, ?_, by rw [hstate]; rfl, outboundRow e.new e.messageBlob now
      (nextRowid OutboundMessage.id s.queue.outbound), ?_, howner.symm, rfl⟩
    · rw [ht, hq, hnews, hcons]
      simp
    · rw [ht, hq, addRcpts_outbound]
      simp [addOutbound]

/-- While the worker is between finalizing and removing, the blob keeps its use: it goes on to remove
it, or the count found an active recipient. -/
theorem needed_of_cleaning (hvalid : validHash b) (hok : OperationsSucceed s a)
    (h : step P hostname s a = some t) (hstored : (t.stores.blobs.file b).isSome)
    (hb : s.pc.cleans b) : Needed t b := by
  cases taken_of_step h with
  | written | notWritten | inserted => exact .cleaning hb
  | worker hw =>
    cases hw with
    | @count faults outbound todo us hpc =>
      rw [hpc] at hb
      by_cases hcount : noActiveReference faults outbound.messageBlob s.queue
      · exact .cleaning (by simp only [hcount, if_true]; exact hb)
      · refine .active ?_
        rw [noActiveReference_iff, not_and, not_not] at hcount
        exact (show outbound.messageBlob = b from hb) ▸ hcount hok
    | @remove faults outbound todo us hpc =>
      rw [hpc] at hb
      obtain rfl : outbound.messageBlob = b := hb
      have hfile : faults .blobRemove = none := hok
      simp [onBlobs_run, remove_run, hvalid, hfile] at hstored
    | reap hpc | expire hpc | fire hpc | claim hpc | unit hpc | finalize hpc =>
      rw [hpc] at hb
      cases hb

theorem dead_of_step (h : step P hostname s a = some t) (hdead : s.pc.isDead) : t.pc.isDead := by
  cases taken_of_step h with
  | written | notWritten | inserted => exact hdead
  | worker hw =>
    cases hw with
    | reap hpc | expire hpc | fire hpc | claim hpc | unit hpc | finalize hpc | count hpc | remove hpc =>
      rw [hpc] at hdead
      cases hdead

/-! ## Every stored blob has a use -/

theorem Needed.step (hA : Accounted s) (hS : Sound s) (hok : OperationsSucceed s a)
    (hguard : ExpiryLeavesUse s a) (h : step P hostname s a = some t) (ho : o ∈ s.queue.outbound)
    (hbefore : (s.stores.blobs.file o.messageBlob).isSome)
    (hstored : (t.stores.blobs.file o.messageBlob).isSome) : Needed t o.messageBlob := by
  cases hA.stored o ho hbefore with
  | active hb => exact needed_of_active hS hguard h hbefore hb
  | cleaning hb => exact needed_of_cleaning (hA.named o ho) hok h hstored hb
  | inflight e he hb =>
    rcases inflight_stays h he with hin | ⟨k, faults, now, rfl, hk⟩
    · exact .inflight e hin hb
    · exact .active (hb ▸ active_of_insert hk hok (hA.flights e he).2 h)
  | dead hdead => exact .dead (dead_of_step h hdead)

theorem write_inflight {sign : DomainKey → Bytes → Except Error Text} {domainKey : DomainKey}
    {new : NewOutbound} (hok : OperationsSucceed s (.write faults sign domainKey new))
    (h : step P hostname s (.write faults sign domainKey new) = some t) :
    t.stores = s.stores ∨ ∃ header, sign domainKey new.rawMessage = .ok header ∧
      ∃ e ∈ t.inflight, e.messageBlob = hashHex P (utf8 header ++ new.rawMessage) := by
  rcases enqueueWrite_cases P faults sign domainKey new s.stores with
    ⟨hsame, -⟩ | ⟨-, header, hsign, hrun⟩
  · left
    cases taken_of_step h with
    | written hwrite | notWritten hwrite =>
      rw [hwrite] at hsame
      exact hsame
    | worker hw => cases hw
  · have hwrites : (enqueueWrite P faults sign domainKey new s.stores).1 =
        .ok (hashHex P (utf8 header ++ new.rawMessage)) := by
      rw [hrun, onBlobs_run, write_run, hok.1, hok.2]
      split <;> rfl
    refine .inr ⟨header, hsign, ?_⟩
    cases taken_of_step h with
    | written hwrite =>
      rw [hwrite] at hwrites
      exact ⟨_, mem_append_right _ (mem_singleton_self _), Res.ok.inj hwrites⟩
    | notWritten hwrite hfailed =>
      rw [hwrite] at hwrites
      obtain rfl : _ = Res.ok _ := hwrites
      cases hfailed
    | worker hw => cases hw

theorem Accounted.step (hA : Accounted s) (hsep : Separate P hostname s a) (hS : Sound s)
    (hok : OperationsSucceed s a) (hguard : ExpiryLeavesUse s a)
    (h : step P hostname s a = some t) : Accounted t := by
  obtain ⟨f, news, newMessages, htables⟩ := step_tables hS.tables h
  -- a message row of `t` is old, or the one an insert has just added
  have hmessage : ∀ o ∈ t.queue.outbound, o ∈ s.queue.outbound ∨ ∃ k faults now e,
      a = .insert k faults now ∧ s.inflight[k]? = some e ∧ o.messageBlob = e.messageBlob := by
    intro o ho
    rw [htables.outbound] at ho
    rcases mem_append.mp ho with hold | hnew
    · exact .inl hold
    · rcases htables.added with ⟨-, rfl⟩ | ⟨k, faults, now, o', hact, rfl, hins⟩
      · cases hnew
      · obtain rfl := mem_singleton.mp hnew
        obtain ⟨e, he, heq⟩ := hins.blob
        exact .inr ⟨k, faults, now, e, hact, he, heq⟩
  refine ⟨fun o ho => ?_, fun e he => ?_, fun o ho hstored => ?_⟩
  · rcases hmessage o ho with hold | ⟨k, faults, now, e, -, he, heq⟩
    · exact hA.named o hold
    · rw [heq]
      exact (hA.flights e (mem_of_getElem? he)).1
  · rcases inflight_of_step h he with hold | ⟨faults, sign, key, header, rfl, henv, hsign, hname, -⟩
    · exact hA.flights e hold
    · rw [hname]
      refine ⟨validHash_hashHex P _, ?_⟩
      rintro hempty
      simp [invalidEnvelope, hempty] at henv
  · rcases hmessage o ho with hold | ⟨k, faults, now, e, rfl, he, heq⟩
    · cases step_file (b := o.messageBlob) h with
      | same _ hsame => exact Needed.step hA hS hok hguard h hold (hsame ▸ hstored) hstored
      | written hsign hname =>
        rcases write_inflight hok h with hsame | ⟨header, hsign', e, he, heq⟩
        · exact Needed.step hA hS hok hguard h hold (hsame ▸ hstored) hstored
        · rw [hsign] at hsign'
          cases hsign'
          exact .inflight e he (heq.trans hname.symm)
      | mailed hpc hsealed hname =>
        simp only [Separate, hpc] at hsep
        exact absurd hname (hsep _ hsealed o hold)
      | removed _ _ _ hgone =>
        rw [hgone] at hstored
        cases hstored
    · rw [heq]
      exact .active (active_of_insert he hok (hA.flights e (mem_of_getElem? he)).2 h)

end

/-- From an empty queue, through successful enqueues and any steps of the worker in which each bulk
expiry leaves a use to the blobs it touches: at the end of a round, a blob whose recipients are all
terminal is gone. -/
theorem spool_wiped (P : Primitives) (hostname : Text) (stores : Stores) (as : List Act) (t : Loop)
    (b : Text) (o : OutboundMessage) (hempty : stores.queue.outbound = [] ∧ stores.queue.rcpts = [])
    (hsep : Along (step P hostname) (Separate P hostname) (Loop.start stores) as)
    (hok : Along (step P hostname) OperationsSucceed (Loop.start stores) as)
    (hguard : Along (step P hostname) ExpiryLeavesUse (Loop.start stores) as)
    (hrun : run (step P hostname) (Loop.start stores) as = some t) (hend : t.pc = .reap)
    (ho : o ∈ t.queue.outbound) (hblob : o.messageBlob = b)
    (hidle : ∀ e ∈ t.inflight, e.messageBlob ≠ b)
    (hterminal : ∀ o' ∈ t.queue.outbound, o'.messageBlob = b → ∀ r ∈ t.queue.rcpts,
      r.outboundId = o'.id → r.state.isTerminal) :
    t.stores.blobs.file b = none := by
  have hT : Tables stores.queue := ⟨by simp [hempty.2], by simp [hempty.1], by simp [hempty.2]⟩
  have hstart : Accounted (Loop.start stores) := by
    refine ⟨?_, ?_, ?_⟩ <;> simp [Loop.start, Loop.queue, hempty.1]
  have hinv : Sound t ∧ Accounted t := by
    refine run_invariant (I := fun u => Sound u ∧ Accounted u) ?_ ⟨start_sound hT, hstart⟩
      ((hsep.and hok).and hguard) hrun
    rintro u a v ⟨hS, hA⟩ ⟨⟨hsep, hok⟩, hguard⟩ hstep
    exact ⟨hS.step hstep, hA.step hsep hS hok hguard hstep⟩
  subst hblob
  rw [← not_isSome_iff_eq_none]
  intro hstored
  cases hinv.2.stored o ho hstored with
  | active hb =>
    obtain ⟨r, hr, hstate, o', ho', howner, hsame⟩ := hb
    rw [hterminal o' ho' hsame r hr howner.symm] at hstate
    cases hstate
  | cleaning hb =>
    rw [hend] at hb
    cases hb
  | inflight e he hb => exact hidle e he hb
  | dead hdead =>
    rw [hend] at hdead
    cases hdead

theorem spool_wiped_bounce :
    ∃ t o, run (step samplePrimitives sampleHost) (Loop.start sampleStores) sampleBounce = some t ∧
      o ∈ t.queue.outbound ∧ t.stores.blobs.file o.messageBlob = none := by
  have hends : ((run (step samplePrimitives sampleHost) (Loop.start sampleStores) sampleBounce).map
      fun t => decide (t.pc = .reap ∧ t.inflight = [] ∧ t.queue.outbound ≠ [] ∧
        ∀ r ∈ t.queue.rcpts, r.state.isTerminal)) = some true := by decide +kernel
  obtain ⟨t, hrun, hfound⟩ := map_eq_some_iff.mp hends
  obtain ⟨hend, hidle, hsome, hterminal⟩ := of_decide_eq_true hfound
  obtain ⟨o, rest, hcons⟩ := exists_cons_of_ne_nil hsome
  have ho : o ∈ t.queue.outbound := by simp [hcons]
  refine ⟨t, o, hrun, ho, spool_wiped samplePrimitives sampleHost sampleStores sampleBounce t _ o
    ⟨rfl, rfl⟩ (by decide +kernel) (by decide +kernel) (by decide +kernel) hrun hend ho rfl ?_ ?_⟩
  · simp [hidle]
  · intro o' _ _ r hr _
    exact hterminal r hr

/-- The message expires in the queue: its only recipient is terminal, a round has ended, nothing is
under way, and the plaintext is still there. -/
theorem spool_left_behind :
    (run (step samplePrimitives sampleHost) (Loop.start sampleStores) sampleOverdue).map (fun t =>
        (t.pc, t.inflight, t.queue.rcpts.map fun r => r.state,
          t.queue.outbound.map fun o => (t.stores.blobs.file o.messageBlob).isSome)) =
      some (.reap, [], [.expired], [true]) := by
  decide +kernel

end Litterae.Queue
