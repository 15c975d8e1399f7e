import Litterae.Jmap.Timers

/-! # Replacing a snooze or a nudge

A new timer of a message replaces the pending one. What is pending is found by the text of the
message's id, what fires is found by the number that the text stands for, and a number has many
spellings.
-/

namespace Litterae.Timers
open Foundations Store Delivery Queue Jmap Exec List Option

def actsOn (accountId : ℤ) (kind : ScheduledKind) (rowId : ℤ) (ev : ScheduledEvent) : Bool :=
  ev.accountId == accountId && ev.kind == some kind && ev.state == .pending &&
    scheduledMessageRowId ev == some rowId

variable {kind : ScheduledKind} {accountId rowId : ℤ}

theorem actsOn_iff {ev : ScheduledEvent} :
    actsOn accountId kind rowId ev ↔
      ev.accountId = accountId ∧ ev.kind = some kind ∧ ev.state = .pending ∧
        scheduledMessageRowId ev = some rowId := by
  simp [actsOn, and_assoc]

def Single (events : List ScheduledEvent) : Prop :=
  ∀ accountId kind rowId, ∀ ev ∈ events, ∀ ev' ∈ events, actsOn accountId kind rowId ev = true →
    actsOn accountId kind rowId ev' = true → ev = ev'

def Recedes (q q' : QueueStore) : Prop :=
  ∀ ev ∈ q'.events, ev.state = .pending → ev ∈ q.events

instance : IsPreorder QueueStore Recedes where
  refl := fun _ _ hev _ => hev
  trans := fun _ _ _ h h' ev hev hp => h ev (h' ev hev hp) hp

theorem Recedes.single {q q' : QueueStore} (h : Recedes q q') (hq : Single q.events) :
    Single q'.events := by
  intro accountId kind rowId ev hev ev' hev' hacts hacts'
  have hpending := (actsOn_iff.mp hacts).2.2.1
  have hpending' := (actsOn_iff.mp hacts').2.2.1
  exact hq accountId kind rowId ev (h ev hev hpending) ev' (h ev' hev' hpending') hacts hacts'

/-! ## Setting a timer -/

variable {id : Text}

section
variable {faults : Faults}

theorem markEventCancelled_recedes (k : ℕ) (id : ℤ) :
    Keeps Recedes (markEventCancelled faults k id) := by
  intro q
  rw [markEventCancelled, sql_bind_run]
  cases faults (.eventCancel k) with
  | some => exact refl q
  | none =>
    intro ev hev hpending
    obtain ⟨ev₀, hev₀, rfl⟩ := mem_updateWhere.mp hev
    by_cases hid : (ev₀.id == id)
    · simp [hid] at hpending
    · simpa [hid] using hev₀

theorem cancelEach_recedes (faults : Faults) (k : ℕ) (events : List ScheduledEvent) :
    Keeps Recedes (cancelEach faults k events) := by
  induction events generalizing k with
  | nil => exact .pure
  | cons ev _ ih =>
    exact .bind (.ignore (markEventCancelled_recedes k ev.id)) fun _ =>
      ih (k + 1)

theorem cancelEach_cancels (hcancel : ∀ j, faults (.eventCancel j) = none) (k : ℕ)
    (events : List ScheduledEvent) (q : QueueStore) (ev : ScheduledEvent) (hev : ev ∈ events) :
    ∀ e ∈ (cancelEach faults k events q).2.events, e.id = ev.id → e.state ≠ .pending := by
  induction events generalizing k q with
  | nil => cases hev
  | cons first rest ih =>
    have hmark : (markEventCancelled faults k first.id).ignore q =
        ((.ok () : Res Error Unit), { q with
          events := updateWhere (fun e => e.id == first.id)
            (fun e => { e with state := .cancelled }) q.events }) := by
      rw [ignore, markEventCancelled, sql_bind_run, hcancel k]
      rfl
    rw [cancelEach, bind_of_ok hmark]
    rcases mem_cons.mp hev with rfl | hrest
    · intro e he hid hpending
      have hbefore := cancelEach_recedes faults (k + 1) rest _ e he hpending
      obtain ⟨e₀, he₀, rfl⟩ := mem_updateWhere.mp hbefore
      by_cases hsame : (e₀.id == ev.id)
      · simp [hsame] at hpending
      · simp only [hsame] at hid
        exact hsame (by simpa using hid)
    · exact ih (k + 1) _ hrest

theorem cancelPendingEvents_cancels (hquery : faults .eventsPending = none)
    (hcancel : ∀ j, faults (.eventCancel j) = none) (id : Text) (q : QueueStore) :
    ∀ e ∈ (cancelPendingEvents faults accountId kind id q).2.events, e.accountId = accountId →
      e.kind = some kind → e.payload = some id → e.state ≠ .pending := by
  intro e he haccount hkind hpayload hpending
  rw [cancelPendingEvents, attempt_bind_run, pendingEventsForAccount_run, hquery] at he
  have hbefore := cancelEach_recedes faults _ _ _ e he hpending
  refine cancelEach_cancels hcancel 0 _ q e ?_ e he rfl hpending
  simp only [mem_filter, Bool.and_eq_true, beq_iff_eq]
  exact ⟨⟨hbefore, ⟨haccount, hkind⟩, hpending⟩, hpayload⟩

theorem cancelPendingEvents_recedes (faults : Faults) (accountId : ℤ) (kind : ScheduledKind)
    (id : Text) :
    Keeps Recedes (cancelPendingEvents faults accountId kind id) := by
  intro q
  rw [cancelPendingEvents, attempt_bind_run, pendingEventsForAccount_run]
  cases faults .eventsPending with
  | some => exact refl q
  | none => exact cancelEach_recedes faults 0 _ q

def Spelled (accountId : ℤ) (kind : ScheduledKind) (rowId : ℤ) (id : Text)
    (events : List ScheduledEvent) : Prop :=
  ∀ ev ∈ events, actsOn accountId kind rowId ev = true → ev.payload = some id

theorem Recedes.spelled {q q' : QueueStore} (h : Recedes q q')
    (hq : Spelled accountId kind rowId id q.events) : Spelled accountId kind rowId id q'.events :=
  fun ev hev hacts => hq ev (h ev hev (actsOn_iff.mp hacts).2.2.1) hacts

def newTimer (accountId : ℤ) (kind : ScheduledKind) (id : Text) (threadId fireAt : ℤ)
    (q : QueueStore) : ScheduledEvent :=
  { id := nextRowid ScheduledEvent.id q.events, accountId, kind := some kind, fireAt,
    threadId := some (showInt threadId), payload := some id, state := .pending }

theorem setTimer_cases (faults : Faults) (accountId : ℤ) (kind : ScheduledKind) (id : Text)
    (threadId : ℤ) (value : Value) (q : QueueStore) :
    let c := (cancelPendingEvents faults accountId kind id q).2
    (setTimer faults accountId kind id threadId value q).2.events = c.events ∨
      ∃ fireAt, value.asI64 = some fireAt ∧
        (setTimer faults accountId kind id threadId value q).2.events =
          c.events ++ [newTimer accountId kind id threadId fireAt c] := by
  intro c
  rw [setTimer, bind_run]
  rcases hc : cancelPendingEvents faults accountId kind id q with ⟨_ | e | _, q'⟩
  · obtain rfl : c = q' := congrArg Prod.snd hc
    rcases hvalue : value.asI64 with _ | fireAt
    · exact .inl rfl
    · have hwhen : ∀ x : ℤ → Exec QueueStore Error Unit,
          whenSome (some fireAt) x c = x fireAt c := fun _ => rfl
      simp only [hwhen, state_ignore, insertScheduledEvent, sql_bind_run]
      cases faults .eventInsert with
      | some => exact .inl rfl
      | none => exact .inr ⟨fireAt, rfl, rfl⟩
  · exact .inl (congrArg (fun r => r.2.events) hc).symm
  · exact .inl (congrArg (fun r => r.2.events) hc).symm

theorem actsOn_newTimer {threadId fireAt : ℤ} {q : QueueStore} (hid : emailRowId id = some rowId)
    {account : ℤ} {k : ScheduledKind} {row : ℤ}
    (h : actsOn account k row (newTimer accountId kind id threadId fireAt q)) :
    account = accountId ∧ k = kind ∧ row = rowId := by
  obtain ⟨haccount, hkind, -, hrow⟩ := actsOn_iff.mp h
  rw [scheduledMessageRowId_payload rfl, hid] at hrow
  exact ⟨haccount.symm, (some.inj hkind).symm, (some.inj hrow).symm⟩

theorem setTimer_single (hid : emailRowId id = some rowId) (threadId : ℤ) (value : Value)
    (q : QueueStore) (hsingle : Single q.events)
    (hset : value.asI64.isSome → Spelled accountId kind rowId id q.events ∧
      faults .eventsPending = none ∧ ∀ j, faults (.eventCancel j) = none) :
    Single (setTimer faults accountId kind id threadId value q).2.events := by
  have hrecedes := cancelPendingEvents_recedes faults accountId kind id q
  rcases setTimer_cases faults accountId kind id threadId value q with hsame | ⟨fireAt, hvalue, hnew⟩
  · rw [hsame]
    exact hrecedes.single hsingle
  · obtain ⟨hspelled, hquery, hcancel⟩ := hset (by rw [hvalue]; rfl)
    rw [hnew]
    -- no pending event is left that acts on the row
    have hnone : ∀ ev ∈ (cancelPendingEvents faults accountId kind id q).2.events,
        actsOn accountId kind rowId ev = false := by
      intro ev hev
      rw [Bool.eq_false_iff]
      intro hacts
      obtain ⟨haccount, hkind, hpending, -⟩ := actsOn_iff.mp hacts
      have hpayload := hspelled ev (hrecedes ev hev hpending) hacts
      exact cancelPendingEvents_cancels hquery hcancel id q ev hev haccount hkind hpayload hpending
    intro account k row ev hev ev' hev' hacts hacts'
    rcases mem_append.mp hev with hold | hev <;> rcases mem_append.mp hev' with hold' | hev'
    · exact hrecedes.single hsingle account k row ev hold ev' hold' hacts hacts'
    · obtain rfl := mem_singleton.mp hev'
      obtain ⟨rfl, rfl, rfl⟩ := actsOn_newTimer hid hacts'
      exact absurd hacts (by rw [hnone ev hold]; simp)
    · obtain rfl := mem_singleton.mp hev
      obtain ⟨rfl, rfl, rfl⟩ := actsOn_newTimer hid hacts
      exact absurd hacts' (by rw [hnone ev' hold']; simp)
    · rw [mem_singleton.mp hev, mem_singleton.mp hev']

theorem setTimer_spelled {other : ScheduledKind} (threadId : ℤ) (value : Value) (q : QueueStore)
    (hspelled : Spelled accountId other rowId id q.events) :
    Spelled accountId other rowId id (setTimer faults accountId kind id threadId value q).2.events := by
  have hrecedes := cancelPendingEvents_recedes faults accountId kind id q
  rcases setTimer_cases faults accountId kind id threadId value q with hsame | ⟨fireAt, -, hnew⟩
  · rw [hsame]
    exact hrecedes.spelled hspelled
  · rw [hnew]
    intro ev hev hacts
    rcases mem_append.mp hev with hold | hev
    · exact hrecedes.spelled hspelled ev hold hacts
    · obtain rfl := mem_singleton.mp hev
      rfl

end

/-! ## Updates -/

/-- Every timer that the patch sets is set by the text that the pending ones of the row have. -/
def spelled (s : Stores) (accountId : ℤ) (id : Text) (patch : List (Text × Value)) : Bool :=
  patch.all fun e =>
    match patchPath e.1 with
    | .timer kind =>
      e.2.asI64.isNone || (emailRowId id).all fun rowId =>
        s.queue.events.all fun ev => !actsOn accountId kind rowId ev || ev.payload == some id
    | _ => true

/-- A timer is set by the text that the pending ones of its message have. -/
def keepsSpelling (w : World) : Act → Bool
  | .update _ accountId id patch => spelled w.stores accountId id patch
  | _ => true

/-- The statements that cancel do not fail. -/
def Reliable : Act → Prop
  | .update io _ _ _ =>
    ∀ k, io.entries k .eventsPending = none ∧ ∀ j, io.entries k (.eventCancel j) = none
  | _ => True

section
variable {s : Stores}

theorem spelled_entry {patch : List (Text × Value)} (h : spelled s accountId id patch)
    (hid : emailRowId id = some rowId) {e : Text × Value} (he : e ∈ patch)
    (hkind : patchPath e.1 = .timer kind) (hvalue : e.2.asI64.isSome) :
    Spelled accountId kind rowId id s.queue.events := by
  have hentry := all_eq_true.mp h e he
  rw [hkind] at hentry
  simp only [hid, all_some, Bool.or_eq_true, isNone_iff_eq_none] at hentry
  rcases hentry with hnone | hall
  · rw [hnone] at hvalue
    cases hvalue
  · intro ev hev hacts
    have := all_eq_true.mp hall ev hev
    simpa [hacts] using this

theorem patchEntries_single (hid : emailRowId id = some rowId) (faults : ℕ → Faults)
    (hreliable : ∀ k, faults k .eventsPending = none ∧ ∀ j, faults k (.eventCancel j) = none)
    (existing : StoredMessage) (k : ℕ) (patch : List (Text × Value)) (p : Patching) (s : Stores)
    (hsets : ∀ e ∈ patch, ∀ kind, patchPath e.1 = .timer kind → e.2.asI64.isSome →
      Spelled accountId kind rowId id s.queue.events)
    (hsingle : Single s.queue.events) :
    Single (patchEntries accountId faults id existing k patch p s).2.queue.events := by
  induction patch generalizing k p s with
  | nil => exact hsingle
  | cons e rest ih =>
    obtain ⟨path, value⟩ := e
    have hstep : ∀ t, patchTimer accountId (faults k) id existing (patchPath path) value s = t →
        Single t.2.queue.events ∧ ∀ e ∈ rest, ∀ kind, patchPath e.1 = .timer kind →
          e.2.asI64.isSome → Spelled accountId kind rowId id t.2.queue.events := by
      rintro t rfl
      have hrest : ∀ e ∈ rest, ∀ kind, patchPath e.1 = .timer kind → e.2.asI64.isSome →
          Spelled accountId kind rowId id s.queue.events :=
        fun e he => hsets e (mem_cons_of_mem _ he)
      cases hpath : patchPath path with
      | timer kind =>
        have hstate : (patchTimer accountId (faults k) id existing (.timer kind) value s).2.queue =
            (setTimer (faults k) accountId kind id existing.threadId value s.queue).2 := by
          rw [patchTimer, state_ignore, onQueue_run]
        rw [hstate]
        refine ⟨setTimer_single hid existing.threadId value s.queue hsingle fun hvalue => ?_, ?_⟩
        · exact ⟨hsets _ mem_cons_self kind hpath hvalue, hreliable k⟩
        · intro e he other hother hvalue
          exact setTimer_spelled existing.threadId value s.queue (hrest e he other hother hvalue)
      | _ => exact ⟨hsingle, hrest⟩
    refine state_bind (p := fun u : Stores => Single u.queue.events) (hstep _ rfl).1 fun _ t ht => ?_
    obtain ⟨hsingle', hrest⟩ := hstep _ ht
    exact ih (k + 1) _ t hrest hsingle'

theorem emailUpdate_single (io : UpdateIo)
    (hreliable : ∀ k, io.entries k .eventsPending = none ∧ ∀ j, io.entries k (.eventCancel j) = none)
    (patch : List (Text × Value)) (hspelled : spelled s accountId id patch)
    (hsingle : Single s.queue.events) :
    Single (emailUpdate accountId io id patch s).2.queue.events := by
  unfold emailUpdate
  cases hid : emailRowId id with
  | none => exact hsingle
  | some =>
    refine state_bind (p := fun u : Stores => Single u.queue.events) ?_ fun existing t hown => ?_
    · rw [ownMessage_state]
      exact hsingle
    · obtain ⟨rfl, -, -⟩ := ownMessage_ok hown
      have hpatched := patchEntries_single hid io.entries hreliable existing 0 patch
        { newMailboxId := none, newKeywords := none
          currentKeywords := splitKeywords existing.keywords } t
        (fun e he kind hkind hvalue => spelled_entry hspelled hid he hkind hvalue) hsingle
      refine state_bind (p := fun u : Stores => Single u.queue.events) hpatched fun p u hu => ?_
      rw [hu] at hpatched
      rw [state_mapErr]
      exact hpatched

end

/-! ## Runs -/

section
variable {P : Primitives} {hostname : Text}

theorem Single.of_same {s t : Stores} (h : Same (fun s : Stores => s.queue) s t)
    (hs : Single s.queue.events) : Single t.queue.events := by
  have hqueue : t.queue = s.queue := h
  rw [hqueue]
  exact hs

theorem createDraft_queue {C : Composer} {draw : ComposeDraw} {ctx : AccountContext}
    (req : EmailCreateRequest) :
    Keeps (Same fun s : Stores => s.queue) (createDraft P C draw ctx accountId req) :=
  createDraft_keeps (R := Same Stores.queue) (fun _ _ _ => rfl) (fun _ _ => rfl) (fun _ => rfl)
    (fun _ _ _ => rfl) req

/-- Row ids name rows, and no row has two pending timers of a kind. -/
structure Replaced (s : Stores) : Prop where
  unique : Unique s
  single : Single s.queue.events

theorem Replaced.step {w v : World} {a : Act} (hw : Replaced w.stores)
    (hspelled : keepsSpelling w a) (hreliable : Reliable a) (h : step P hostname w a = some v) :
    Replaced v.stores := by
  obtain ⟨t, ht, rfl⟩ := map_eq_some_iff.mp h
  cases a with
  | worker =>
    have hpending : Recedes w.stores.queue t.stores.queue := by
      have : IsTrans Stores fun s t => Recedes s.queue t.queue := ⟨fun _ _ _ => trans_of _⟩
      refine step_relates (R := fun s t => Recedes s.queue t.queue) ?_ ?_ ?_ ht
      · intro s t _ hevents ev hev _
        rw [← hevents]
        exact hev
      · intro io outbound account bytes s ev hev _
        have hqueue : (deliverLocally P io outbound account bytes s).2.queue = s.queue :=
          (deliver_mailOnly s).queue
        rw [← hqueue]
        exact hev
      · exact fun faults ev s => (fireEvent_fires ev s).pending
    exact ⟨(worker_carries ht).unique hw.unique, hpending.single hw.single⟩
  | deliver draw account envelope results raw receivedAt spamReason scan =>
    obtain rfl := some.inj ht
    have hwrites : Writes account.id (fun _ => False) w.stores
        (deliver P draw account envelope results raw receivedAt spamReason scan w.stores).2 :=
      deliver_writes w.stores
    have hqueue : (deliver P draw account envelope results raw receivedAt spamReason scan
        w.stores).2.queue = w.stores.queue :=
      (deliver_mailOnly w.stores).queue
    exact ⟨hwrites.unique hw.unique, Single.of_same hqueue hw.single⟩
  | draft C draw ctx accountId req =>
    obtain rfl := some.inj ht
    have hwrites : Writes accountId (fun _ => False) w.stores
        (createDraft P C draw ctx accountId req w.stores).2 := createDraft_writes req w.stores
    exact ⟨hwrites.unique hw.unique, Single.of_same (createDraft_queue req w.stores) hw.single⟩
  | update io _ id patch =>
    obtain rfl := some.inj ht
    exact ⟨(emailUpdate_writes io id patch w.stores hw.unique).unique hw.unique,
      emailUpdate_single io hreliable patch hspelled hw.single⟩
  | destroy faults accountId id =>
    obtain rfl := some.inj ht
    have hevents : (emailDestroy accountId faults id w.stores).2.queue.events =
        w.stores.queue.events := emailDestroy_events id w.stores
    refine ⟨(emailDestroy_writes id w.stores hw.unique).unique hw.unique, ?_⟩
    have hsingle : Single (emailDestroy accountId faults id w.stores).2.queue.events := by
      rw [hevents]
      exact hw.single
    exact hsingle

/-- With the statements that cancel working, and every timer set by the text that the pending ones of
its message have, at most one timer of a kind is pending for a row of an account. -/
theorem timers_replaced (P : Primitives) (hostname : Text) (accounts : List Account)
    (domains : List Domain) (acts : List Act) (w : World)
    (hrun : run (step P hostname) (World.start accounts domains) acts = some w)
    (hspelled : Along (step P hostname) (fun w a => keepsSpelling w a = true)
      (World.start accounts domains) acts)
    (hreliable : Along (step P hostname) (fun _ a => Reliable a) (World.start accounts domains) acts)
    (accountId : ℤ) (kind : ScheduledKind) (rowId : ℤ) :
    (w.stores.queue.events.filter (actsOn accountId kind rowId)).length ≤ 1 := by
  have hw : Replaced w.stores := by
    refine run_invariant (I := fun w => Replaced w.stores)
      (fun _ _ _ hw hG hstep => hw.step hG.1 hG.2 hstep) ⟨?_, ?_⟩ (hspelled.and hreliable) hrun
    · exact ⟨nodup_nil, nodup_nil, nodup_nil⟩
    · exact fun _ _ _ _ hev => absurd hev not_mem_nil
  have hnodup : (w.stores.queue.events.filter (actsOn accountId kind rowId)).Nodup :=
    (List.Nodup.of_map _ hw.unique.events).filter _
  have hequal : ∀ ev ∈ w.stores.queue.events.filter (actsOn accountId kind rowId),
      ∀ ev' ∈ w.stores.queue.events.filter (actsOn accountId kind rowId), ev = ev' := by
    intro ev hev ev' hev'
    obtain ⟨hmem, hacts⟩ := mem_filter.mp hev
    obtain ⟨hmem', hacts'⟩ := mem_filter.mp hev'
    exact hw.single accountId kind rowId ev hmem ev' hmem' hacts hacts'
  generalize w.stores.queue.events.filter (actsOn accountId kind rowId) = l at hnodup hequal
  rcases l with _ | ⟨a, _ | ⟨b, rest⟩⟩
  · exact Nat.zero_le 1
  · exact Nat.le_refl 1
  · have hsame : a = b := hequal a (by simp) b (by simp)
    simp [hsame] at hnodup

/-! Account 1 snoozes a message twice. -/

def sampleSnooze (id : String) (fireAt : ℤ) : Act :=
  .update { faults := .none, entries := fun _ => .none } 1 id.toList
    [("snoozeUntil", .int fireAt)]

def samplePending (s : Stores) : List (Option Text) :=
  (s.queue.events.filter (actsOn 1 .snoozeResurface 1)).map ScheduledEvent.payload

theorem timers_replaced_same_text :
    ∃ w, run (step samplePrimitives sampleHost) (World.start [] [])
        [sampleDelivery 1, sampleSnooze "m1" 100, sampleSnooze "m1" 200] = some w ∧
      samplePending w.stores = [some "m1".toList] ∧
      (w.stores.queue.events.filter (actsOn 1 .snoozeResurface 1)).length ≤ 1 := by
  have hends : ((run (step samplePrimitives sampleHost) (World.start [] [])
      [sampleDelivery 1, sampleSnooze "m1" 100, sampleSnooze "m1" 200]).map fun w =>
        samplePending w.stores) = some [some "m1".toList] := by
    decide +kernel
  have hspelled : Along (step samplePrimitives sampleHost) (fun w a => keepsSpelling w a = true)
      (World.start [] []) [sampleDelivery 1, sampleSnooze "m1" 100, sampleSnooze "m1" 200] := by
    decide +kernel
  have hnone : ∀ id fireAt, Reliable (sampleSnooze id fireAt) := fun _ _ _ => ⟨rfl, fun _ => rfl⟩
  obtain ⟨w, hrun, hpending⟩ := map_eq_some_iff.mp hends
  exact ⟨w, hrun, hpending, timers_replaced samplePrimitives sampleHost [] [] _ w hrun hspelled
    ⟨trivial, fun _ _ => ⟨hnone _ _, fun _ _ => ⟨hnone _ _, fun _ _ => trivial⟩⟩⟩ 1
    .snoozeResurface 1⟩

/-- The second time the id of the same row is spelled `m01`; the first snooze stays. -/
theorem timer_spelled_twice :
    ∃ w, run (step samplePrimitives sampleHost) (World.start [] [])
        [sampleDelivery 1, sampleSnooze "m1" 100, sampleSnooze "m01" 200] = some w ∧
      samplePending w.stores = [some "m1".toList, some "m01".toList] ∧
      (w.stores.queue.events.filter (actsOn 1 .snoozeResurface 1)).length = 2 := by
  have hends : ((run (step samplePrimitives sampleHost) (World.start [] [])
      [sampleDelivery 1, sampleSnooze "m1" 100, sampleSnooze "m01" 200]).map fun w =>
        samplePending w.stores) = some [some "m1".toList, some "m01".toList] := by
    decide +kernel
  obtain ⟨w, hrun, hpending⟩ := map_eq_some_iff.mp hends
  refine ⟨w, hrun, hpending, ?_⟩
  have hlength := congrArg List.length hpending
  rwa [samplePending, length_map] at hlength

end
end Litterae.Timers
