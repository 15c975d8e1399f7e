import Litterae.Queue.Lifecycle

/-! # What the queue admits

The limits are checked over the rows younger than an hour before the caller's own clock reading,
with no upper end, and the new row carries that same reading. A window that holds the new row
therefore holds only rows the check has counted, whatever the order of the readings:
`withinLimits_insert`.
-/

namespace Litterae.Queue
open Foundations Store Exec List

/-! ## Sending limits -/

/-- A message of the account created in the hour up to `t` that is no local notification. -/
def inHour (accountId t : ℤ) (o : OutboundMessage) : Bool :=
  o.accountId == accountId && decide (t - 3600 < o.createdAt) && decide (o.createdAt ≤ t) && !o.isDsn

def sentInHour (q : QueueStore) (accountId t : ℤ) : List OutboundMessage :=
  q.outbound.filter (inHour accountId t)

def addressedInHour (q : QueueStore) (accountId t : ℤ) : List OutboundRecipient :=
  q.rcpts.filter fun r => (sentInHour q accountId t).any fun o => o.id == r.outboundId

def WithinLimits (q : QueueStore) : Prop :=
  ∀ accountId t, (sentInHour q accountId t).length ≤ 200 ∧ (addressedInHour q accountId t).length ≤ 500

section
variable {q q' : QueueStore} {accountId now t : ℤ}

theorem inHour_iff {o : OutboundMessage} : inHour accountId t o ↔
    o.accountId = accountId ∧ t - 3600 < o.createdAt ∧ o.createdAt ≤ t ∧ o.isDsn = false := by
  simp [inHour, and_assoc]

theorem counted_of_inHour {o : OutboundMessage} (h : now ≤ t) (ho : inHour accountId t o) :
    (o.accountId == accountId && decide (now - rateLimitWindowSecs < o.createdAt) && !o.isDsn) =
      true := by
  obtain ⟨howner, hafter, -, hdsn⟩ := inHour_iff.mp ho
  have hsince : now - rateLimitWindowSecs < o.createdAt := by
    unfold rateLimitWindowSecs
    omega
  simp [howner, hsince, hdsn]

theorem sentInHour_length_le (h : now ≤ t) :
    ((sentInHour q accountId t).length : ℤ) ≤ messageCount q accountId (now - rateLimitWindowSecs) :=
  Int.ofNat_le.mpr (monotone_filter_right _ fun _ ho => counted_of_inHour h ho).length_le

theorem length_filter_le_flatMap {α β : Type} {p : α → Bool} {f : α → List β} (l : List α)
    (h : ∀ a, p a → f a ≠ []) : (l.filter p).length ≤ (l.flatMap f).length := by
  induction l with
  | nil => exact Nat.le_refl 0
  | cons a =>
    rw [flatMap_cons, length_append]
    by_cases hp : p a
    · have hpos := length_pos_iff.mpr (h a hp)
      rw [filter_cons_of_pos hp, length_cons]
      omega
    · rw [filter_cons_of_neg hp]
      omega

theorem addressedInHour_length_le (h : now ≤ t) :
    ((addressedInHour q accountId t).length : ℤ) ≤
      recipientCount q accountId (now - rateLimitWindowSecs) := by
  refine Int.ofNat_le.mpr (length_filter_le_flatMap _ fun r hr => ?_)
  obtain ⟨o, ho, hid⟩ := any_eq_true.mp hr
  obtain ⟨hmem, hin⟩ := mem_filter.mp ho
  refine ne_nil_of_mem (mem_filter.mpr ⟨hmem, ?_⟩)
  have hcounted := counted_of_inHour h hin
  simp only [Bool.and_eq_true] at hcounted ⊢
  exact ⟨⟨⟨hid, hcounted.1.1⟩, hcounted.1.2⟩, hcounted.2⟩

theorem WithinLimits.update {f : OutboundRecipient → OutboundRecipient} (h : WithinLimits q)
    (ho : q'.outbound = q.outbound) (hr : q'.rcpts = q.rcpts.map f)
    (hf : ∀ r ∈ q.rcpts, (f r).outboundId = r.outboundId) : WithinLimits q' := by
  intro accountId t
  have hsent : sentInHour q' accountId t = sentInHour q accountId t := by
    rw [sentInHour, ho]
    rfl
  have haddressed : (addressedInHour q' accountId t).length = (addressedInHour q accountId t).length := by
    rw [addressedInHour, hr, hsent, filter_map, length_map]
    refine congrArg List.length (filter_congr fun r hmem => ?_)
    rw [Function.comp_apply, hf r hmem]
  rw [hsent, haddressed]
  exact h accountId t

structure Extends (q q' : QueueStore) (o : OutboundMessage) (news : List OutboundRecipient) : Prop where
  outbound : q'.outbound = q.outbound ++ [o]
  rcpts : q'.rcpts = q.rcpts ++ news
  fresh : o.id ∉ q.outbound.map OutboundMessage.id
  own : ∀ r ∈ news, r.outboundId = o.id

section
variable {o : OutboundMessage} {news : List OutboundRecipient}

theorem Extends.sentInHour (h : Extends q q' o news) :
    sentInHour q' accountId t =
      sentInHour q accountId t ++ if inHour accountId t o = true then [o] else [] := by
  rw [Queue.sentInHour, h.outbound, filter_append, filter_singleton, Bool.cond_eq_ite]
  rfl

theorem Extends.addressedInHour (h : Extends q q' o news) (hT : Tables q) :
    addressedInHour q' accountId t =
      addressedInHour q accountId t ++ if inHour accountId t o = true then news else [] := by
  rw [Queue.addressedInHour, h.rcpts, filter_append, h.sentInHour]
  congr 1
  · -- no recipient that was there belongs to the new message
    refine filter_congr fun r hr => ?_
    have hne : ¬ o.id = r.outboundId := fun heq => h.fresh (heq ▸ hT.owned r hr)
    split <;> simp [hne]
  · have hold : ∀ r ∈ news, ((Queue.sentInHour q accountId t).any fun p => p.id == r.outboundId) =
        false := by
      intro r hr
      rw [any_eq_false]
      intro p hp heq
      refine h.fresh (mem_map.mpr ⟨p, (mem_filter.mp hp).1, ?_⟩)
      rw [← h.own r hr]
      simpa using heq
    split
    · refine filter_eq_self.mpr fun r hr => ?_
      simp [h.own r hr]
    · refine filter_eq_nil_iff.mpr fun r hr => ?_
      simp [hold r hr]

theorem Extends.withinLimits {faults : Faults} {new : NewOutbound} (h : Extends q q' o news)
    (hT : Tables q) (hq : WithinLimits q) (hrate : RatePasses faults now new q)
    (howner : o.accountId = new.accountId) (hnow : o.createdAt = now) (hdsn : o.isDsn = new.isDsn)
    (hlen : news.length ≤ new.recipients.length) : WithinLimits q' := by
  intro accountId t
  obtain ⟨hmessages, hrcpts⟩ := hq accountId t
  rw [h.sentInHour, h.addressedInHour hT, length_append, length_append]
  split
  · next hin =>
    obtain ⟨rfl, -, hupto, hnot⟩ := inHour_iff.mp hin
    rcases hrate with hlocal | ⟨-, hcount, -, htotal⟩
    · rw [← hdsn, hnot] at hlocal
      cases hlocal
    · have hle : now ≤ t := hnow ▸ hupto
      have hsent := @sentInHour_length_le q new.accountId now t hle
      have haddressed := @addressedInHour_length_le q new.accountId now t hle
      rw [howner]
      unfold maxMessagesPerWindow at hcount
      unfold maxRecipientsPerWindow at htotal
      rw [length_singleton]
      omega
  · exact ⟨hmessages, hrcpts⟩

end
theorem enqueueInsert_withinLimits {faults : Faults} {new : NewOutbound} {messageBlob : Text}
    (hT : Tables q) (hq : WithinLimits q) :
    WithinLimits (enqueueInsert faults now new messageBlob q).2 := by
  by_cases hrow : RowInserted faults now new q
  · obtain ⟨n, -, hstate, -⟩ := @enqueueInsert_inserted faults now new messageBlob q hrow
    obtain ⟨news, hnews, hrcpts, hrows, -⟩ := addRcpts_rcpts (nextRowid OutboundMessage.id q.outbound)
      now (new.recipients.take n) (addOutbound new messageBlob now q)
    have hext : Extends q (enqueueInsert faults now new messageBlob q).2
        (outboundRow new messageBlob now (nextRowid OutboundMessage.id q.outbound)) news := by
      rw [hstate]
      exact ⟨addRcpts_outbound, hnews, nextRowid_not_mem _ _, fun r hr => (hrows r hr).1⟩
    refine hext.withinLimits hT hq hrow.1 rfl rfl rfl ?_
    rw [← length_map, hrcpts, length_take]
    exact Nat.min_le_right _ _
  · rw [(enqueueInsert_refused faults hrow).1]
    exact hq

end

section
variable {P : Primitives} {hostname : Text} {s t : Loop} {a : Act}

theorem step_withinLimits (hT : Tables s.queue) (hs : WithinLimits s.queue)
    (h : step P hostname s a = some t) : WithinLimits t.queue := by
  obtain ⟨f, news, newMessages, htable⟩ := step_tables hT h
  rcases htable.added with ⟨rfl, rfl⟩ | ⟨k, faults, now, o, rfl, -, -⟩
  · refine hs.update ?_ ?_ fun r hr => (htable.change r hr).columns.2.1
    · rw [htable.outbound, append_nil]
    · rw [htable.rcpts, append_nil]
  · cases taken_of_step h with
    | inserted => exact enqueueInsert_withinLimits hT hs
    | worker hw => cases hw

end

/-- However enqueues and the worker interleave and whatever the clocks read, no account has more than
200 messages or 500 recipients in any hour. -/
theorem sending_limits_hold (P : Primitives) (hostname : Text) (stores : Stores) (as : List Act)
    (t : Loop) (hempty : stores.queue.outbound = [] ∧ stores.queue.rcpts = [])
    (hrun : run (step P hostname) (Loop.start stores) as = some t) (accountId time : ℤ) :
    (sentInHour t.queue accountId time).length ≤ 200 ∧
      (addressedInHour t.queue accountId time).length ≤ 500 := by
  have htables : Tables (Loop.start stores).queue := by
    refine ⟨?_, ?_, ?_⟩ <;> simp [Loop.start, Loop.queue, hempty]
  have hlimits : WithinLimits (Loop.start stores).queue := by
    intro accountId time
    simp [Loop.start, Loop.queue, sentInHour, addressedInHour, hempty]
  have hinv : Tables t.queue ∧ WithinLimits t.queue := by
    refine run_invariant (I := fun s => Tables s.queue ∧ WithinLimits s.queue)
      (fun s a u hs _ hstep => ?_) ⟨htables, hlimits⟩ (Along.of_forall (fun _ _ => trivial) _ _) hrun
    obtain ⟨f, news, newMessages, htable⟩ := step_tables hs.1 hstep
    exact ⟨htable.tables hs.1, step_withinLimits hs.1 hs.2 hstep⟩
  exact hinv.2 accountId time

/-- Two enqueues, the second with the clock set back by a minute. -/
theorem sending_limits_hold_clock_back :
    ∃ t, run (step samplePrimitives sampleHost) (Loop.start sampleStores)
        [sampleWrite, sampleWrite, .insert 0 .none 1700000060, .insert 0 .none 1700000000] = some t ∧
      (sentInHour t.queue 1 1700000060).length = 2 ∧
      (sentInHour t.queue 1 1700000060).length ≤ 200 ∧
      (addressedInHour t.queue 1 1700000060).length ≤ 500 := by
  have hends : ((run (step samplePrimitives sampleHost) (Loop.start sampleStores)
      [sampleWrite, sampleWrite, .insert 0 .none 1700000060, .insert 0 .none 1700000000]).map
      fun t => (sentInHour t.queue 1 1700000060).length) = some 2 := by decide +kernel
  obtain ⟨t, hrun, hcount⟩ := Option.map_eq_some_iff.mp hends
  exact ⟨t, hrun, hcount, sending_limits_hold _ _ _ _ t ⟨rfl, rfl⟩ hrun 1 1700000060⟩

/-! ## Refusals -/

section
variable {P : Primitives} {faults : Faults} {sign : DomainKey → Bytes → Except Error Text}
  {domainKey : DomainKey} {now : ℤ} {new : NewOutbound} {s t : Stores} {messageBlob : Text}

/-- The mail tables are as before, and no blob is new. -/
structure Untouched (s t : Stores) : Prop where
  outbound : t.queue.outbound = s.queue.outbound
  rcpts : t.queue.rcpts = s.queue.rcpts
  blobs : ∀ h, s.blobs.file h = none → t.blobs.file h = none

theorem Untouched.rfl (s : Stores) : Untouched s s := ⟨Eq.refl _, Eq.refl _, fun _ h => h⟩

def spoolName (P : Primitives) (header : Text) (new : NewOutbound) : Text :=
  hashHex P (utf8 header ++ new.rawMessage)

/-- The call stores nothing before it is refused, or nothing refuses it once it has stored its blob:
the envelope is invalid, the message cannot be signed, its blob cannot be created; or the blob was
there and no row is inserted; or every call succeeds. -/
def StopsClean (P : Primitives) (faults : Faults) (sign : DomainKey → Bytes → Except Error Text)
    (domainKey : DomainKey) (now : ℤ) (new : NewOutbound) (s : Stores) : Prop :=
  invalidEnvelope new = true ∨ ∀ header, sign domainKey new.rawMessage = .ok header →
    ((s.blobs.file (spoolName P header new)).isSome = false ∧ faults .blobPrepare ≠ none) ∨
    ((s.blobs.file (spoolName P header new)).isSome = true ∧ ¬ RowInserted faults now new s.queue) ∨
    (((s.blobs.file (spoolName P header new)).isSome = true ∨ faults .blobSyncDir = none) ∧
      RowInserted faults now new s.queue ∧
      ∀ k < new.recipients.length, faults (.rcptInsert k) = none)

/-- From a stored blob on, an enqueue that fails is without a trace in the tables exactly if it
inserts no message row. -/
theorem enqueueInsert_untouched_iff {q : QueueStore} :
    (∀ e q', enqueueInsert faults now new messageBlob q = (.err e, q') →
        q'.outbound = q.outbound ∧ q'.rcpts = q.rcpts) ↔
      (RowInserted faults now new q → ∀ k < new.recipients.length, faults (.rcptInsert k) = none) := by
  constructor
  · intro h hrow
    obtain ⟨n, -, hstate, hret, hok, hall⟩ := @enqueueInsert_inserted faults now new messageBlob q hrow
    refine hall.mp (hok.mp ?_)
    by_contra hfail
    match hrun : enqueueInsert faults now new messageBlob q with
    | (.ok id, q') => rw [hrun] at hfail; exact hfail rfl
    | (.panic, q') => rw [hrun] at hret; cases hret
    | (.err e, q') =>
      have houtbound := (h e q' hrun).1
      rw [hrun] at hstate
      obtain rfl : q' = _ := hstate
      simp [addOutbound] at houtbound
  · intro h e q' hrun
    by_cases hrow : RowInserted faults now new q
    · obtain ⟨n, -, -, -, hok, hall⟩ := @enqueueInsert_inserted faults now new messageBlob q hrow
      have hdone := hok.mpr (hall.mpr (h hrow))
      rw [hrun] at hdone
      cases hdone
    · have hstate := (@enqueueInsert_refused faults now new messageBlob q hrow).1
      rw [hrun] at hstate
      obtain rfl : q' = q := hstate
      exact ⟨rfl, rfl⟩

theorem enqueue_of_written {b : BlobStore}
    (h : enqueueWrite P faults sign domainKey new s = (.ok messageBlob, { s with blobs := b })) :
    enqueue P faults sign now domainKey new s =
      ((enqueueInsert faults now new messageBlob s.queue).1,
        { s with
          blobs := b
          queue := (enqueueInsert faults now new messageBlob s.queue).2 }) := by
  rw [enqueue, bind_of_ok h]
  rfl

theorem enqueue_untouched_iff_of_stored
    (h : enqueueWrite P faults sign domainKey new s = (.ok messageBlob, s)) :
    (∀ e t, enqueue P faults sign now domainKey new s = (.err e, t) → Untouched s t) ↔
      (RowInserted faults now new s.queue →
        ∀ k < new.recipients.length, faults (.rcptInsert k) = none) := by
  rw [← @enqueueInsert_untouched_iff faults now new messageBlob s.queue, enqueue_of_written h]
  constructor
  · intro hclean e q' hrun
    have huntouched := hclean e { s with queue := q' } (by rw [hrun])
    exact ⟨huntouched.outbound, huntouched.rcpts⟩
  · intro hclean e t hrun
    obtain ⟨hres, rfl⟩ := Prod.mk.inj hrun
    obtain ⟨houtbound, hrcpts⟩ := hclean e _ (Prod.ext hres rfl)
    exact ⟨houtbound, hrcpts, fun _ hfile => hfile⟩

theorem enqueue_untouched_iff_of_new {bytes : Bytes} (hfile : s.blobs.file messageBlob = none)
    (h : enqueueWrite P faults sign domainKey new s =
      (.ok messageBlob, { s with blobs := s.blobs.put messageBlob bytes })) :
    (∀ e t, enqueue P faults sign now domainKey new s = (.err e, t) → Untouched s t) ↔
      RowInserted faults now new s.queue ∧
        ∀ k < new.recipients.length, faults (.rcptInsert k) = none := by
  rw [enqueue_of_written h]
  constructor
  · intro hclean
    have hok : (enqueueInsert faults now new messageBlob s.queue).1.isOk := by
      match hrun : (enqueueInsert faults now new messageBlob s.queue).1 with
      | .ok id => rfl
      | .panic =>
        by_cases hrow : RowInserted faults now new s.queue
        · obtain ⟨n, -, -, hret, -⟩ := @enqueueInsert_inserted faults now new messageBlob _ hrow
          rw [hrun] at hret
          cases hret
        · have hret := (@enqueueInsert_refused faults now new messageBlob _ hrow).2.2
          rw [hrun] at hret
          cases hret
      | .err e =>
        have hgone := (hclean e _ (Prod.ext hrun rfl)).blobs messageBlob hfile
        simp at hgone
    by_cases hrow : RowInserted faults now new s.queue
    · obtain ⟨n, -, -, -, hdone, hall⟩ := @enqueueInsert_inserted faults now new messageBlob _ hrow
      exact ⟨hrow, hall.mp (hdone.mp hok)⟩
    · have hfail := (@enqueueInsert_refused faults now new messageBlob _ hrow).2.1
      rw [hok] at hfail
      cases hfail
  · rintro ⟨hrow, hrcpts⟩ e t hrun
    obtain ⟨n, -, -, -, hdone, hall⟩ := @enqueueInsert_inserted faults now new messageBlob _ hrow
    have hok := hdone.mpr (hall.mpr hrcpts)
    rw [(Prod.mk.inj hrun).1] at hok
    cases hok

/-- A refused enqueue leaves no row and no blob exactly if it stops before it stores its blob, stops
at the limits with the blob there already, or does not stop at all. -/
theorem enqueue_refusal_leaves_nothing_iff :
    (∀ e t, enqueue P faults sign now domainKey new s = (.err e, t) → Untouched s t) ↔
      StopsClean P faults sign domainKey now new s := by
  unfold StopsClean
  have hrefused : ∀ {e : Error}, enqueueWrite P faults sign domainKey new s = (.err e, s) →
      ∀ e' t, enqueue P faults sign now domainKey new s = (.err e', t) → Untouched s t := by
    intro e hwrite e' t hrun
    rw [enqueue, bind_of_err hwrite] at hrun
    obtain ⟨-, rfl⟩ := Prod.mk.inj hrun
    exact Untouched.rfl s
  by_cases henv : invalidEnvelope new
  · refine iff_of_true (hrefused (e := .config "invalid outbound envelope") ?_) (Or.inl henv)
    simp [enqueueWrite, henv]
  · cases hsign : sign domainKey new.rawMessage with
    | error e =>
      refine iff_of_true (hrefused (e := e) ?_) (Or.inr fun header h => ?_)
      · simp [enqueueWrite, henv, hsign]
      · cases h
    | ok header =>
      have hwrite : enqueueWrite P faults sign domainKey new s =
          onBlobs (write P faults (utf8 header ++ new.rawMessage)) s := by
        simp [enqueueWrite, henv, hsign]
      rw [onBlobs_run, write_run, ← spoolName] at hwrite
      simp only [henv, Except.ok.injEq, forall_eq']
      by_cases hstored : (s.blobs.file (spoolName P header new)).isSome
      · rw [if_pos hstored] at hwrite
        rw [enqueue_untouched_iff_of_stored hwrite]
        simp only [hstored]
        by_cases hrow : RowInserted faults now new s.queue <;> simp [hrow]
      · rw [if_neg hstored] at hwrite
        have hfile : s.blobs.file (spoolName P header new) = none := by simpa using hstored
        simp only [hstored]
        cases hprepare : faults .blobPrepare with
        | some =>
          simp only [hprepare] at hwrite
          refine iff_of_true (hrefused hwrite) ?_
          simp
        | none =>
          cases hsync : faults .blobSyncDir with
          | none =>
            simp only [hprepare, hsync] at hwrite
            rw [enqueue_untouched_iff_of_new hfile hwrite]
            simp
          | some =>
            simp only [hprepare, hsync] at hwrite
            refine iff_of_false (fun hclean => ?_) (by simp)
            have hgone := (hclean _ _ (by rw [enqueue, bind_of_err hwrite])).blobs _ hfile
            simp at hgone

end

def exhaustedStores : Stores :=
  { sampleStores with
    queue := { QueueStore.empty with
      outbound := (List.range 200).map fun k =>
        outboundRow sampleMail [] 1700000000 (k + 1) } }

def failingRcpt : Faults := fun site => if site = .rcptInsert 0 then some "disk full" else none

/-- The 201st message of the hour is refused and its plaintext stays in the blob store, where no row
names it. A failing insert of a recipient leaves the message row as well. -/
theorem refused_enqueue_leaves_plaintext :
    let name := spoolName samplePrimitives "DKIM-Signature: v=1\r\n" sampleMail
    let limited := enqueue samplePrimitives .none sampleSign 1700000000 sampleKey sampleMail
      exhaustedStores
    let failed := enqueue samplePrimitives failingRcpt sampleSign 1700000000 sampleKey sampleMail
      sampleStores
    (limited.1 = .err (.rateLimited
        "account has sent 200 messages in the last hour (limit 200)") ∧
      exhaustedStores.blobs.file name = none ∧ (limited.2.blobs.file name).isSome ∧
      limited.2.queue = exhaustedStores.queue) ∧
    failed.1 = .err (.storage "disk full") ∧ failed.2.queue.outbound.length = 1 ∧
      sampleStores.queue.outbound.length = 0 := by
  decide +kernel

end Litterae.Queue
