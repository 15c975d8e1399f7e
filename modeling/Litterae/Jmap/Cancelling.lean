import Litterae.Jmap.Races

/-! # Cancelling a timer while it fires

The worker loads the events that are due, changes their messages one by one and marks each event
without looking at its state again; a client loads the pending events of a message and cancels them
the same way.
-/

namespace Litterae.Races
open Foundations Store Delivery Queue Jmap Exec List Option

def Cause.event : Cause → Option ℤ
  | .snooze ev | .nudge ev => some ev
  | .patch _ | .submission => none

def Call.isWorker : Call → Bool
  | .fireDue => true
  | _ => false

/-- The events that have been loaded and not marked yet, after one more call. -/
def heldAfter (held : List ℤ) : Done Op.Ret → List ℤ
  | ⟨.pendingEvents _ _ messageId, .ok events⟩ =>
    held ++ (events.filter fun ev => ev.payload == some messageId).map ScheduledEvent.id
  | ⟨.dueEvents, events⟩ => held ++ events.map ScheduledEvent.id
  | ⟨.cancelEvent _ id, _⟩ => held.erase id
  | ⟨.markEvent id _, _⟩ => held.erase id
  | _ => held

def held (tr : History) : List ℤ := tr.foldl heldAfter []

/-! ## Every mark and every change follows a load -/

/-- Clients cancel what they have loaded, in its order; the worker marks what it has loaded, and
changes messages for the event it marks next. -/
def Handles (c : Call) (tr : History) : Op → Prop
  | .pendingEvents _ _ _ => c.isWorker = false ∧ held tr = []
  | .dueEvents => c.isWorker = true ∧ held tr = []
  | .cancelEvent _ id => c.isWorker = false ∧ ∃ rest, held tr = id :: rest
  | .markEvent id state => c.isWorker = true ∧ state ≠ .pending ∧ ∃ rest, held tr = id :: rest
  | .updateMessage cause _ _ _ =>
    ∀ id, cause.event = some id → c.isWorker = true ∧ ∃ rest, held tr = id :: rest
  | _ => True

def Op.steady : Op → Bool
  | .pendingEvents _ _ _ | .dueEvents | .cancelEvent _ _ | .markEvent _ _ => false
  | _ => true

variable {op : Op} {ev : ScheduledEvent} {state : EventState}

section
variable {c : Call} {tr : History} {ids : List ℤ}

theorem held_append (d : Done Op.Ret) : held (tr ++ [d]) = heldAfter (held tr) d := by
  rw [held, foldl_append]
  rfl

theorem held_steady (h : op.steady) (b : op.Ret) :
    held (tr ++ [⟨op, b⟩]) = held tr := by
  rw [held_append]
  cases op <;> first | rfl | cases h

theorem leads_steady (h : op.steady) (hop : Handles c tr op) (hheld : held tr = ids) :
    (call op).Leads (Handles c) (fun tr _ => held tr = ids) tr :=
  .perform hop fun b => (held_steady h b).trans hheld

section
variable (hc : c.isWorker = false)
include hc

theorem cancelEach_handles (k : ℕ) (events : List ScheduledEvent)
    (hheld : held tr = events.map ScheduledEvent.id) :
    (cancelEach k events).Leads (Handles c) (fun tr _ => held tr = []) tr := by
  induction events generalizing k tr with
  | nil => exact hheld
  | cons _ _ ih =>
    refine .perform_bind ⟨hc, _, hheld⟩ fun _ => ih (k + 1) ?_
    rw [held_append, hheld]
    exact erase_cons_head ..

variable (accountId : ℤ)

theorem cancelPendingEvents_handles (kind : ScheduledKind) (messageId : Text)
    (hheld : held tr = []) :
    (cancelPendingEvents accountId kind messageId).Leads (Handles c) (fun tr _ => held tr = []) tr := by
  refine .perform_bind ⟨hc, hheld⟩ fun answer => ?_
  cases answer with
  | error =>
    refine .pure ?_
    rw [held_append]
    exact hheld
  | ok =>
    refine cancelEach_handles hc 0 _ ?_
    rw [held_append, hheld]
    rfl

theorem patchTimer_handles (id : Text) (existing : StoredMessage) (path : PatchPath) (value : Value)
    (hheld : held tr = []) :
    (patchTimer accountId id existing path value).Leads (Handles c) (fun tr _ => held tr = []) tr := by
  cases path with
  | timer kind =>
    refine .bind (cancelPendingEvents_handles hc accountId kind id hheld) fun tr _ hheld => ?_
    rw [insertTimer]
    cases value.asI64 with
    | none => exact hheld
    | some => exact leads_steady rfl trivial hheld
  | _ => exact hheld

theorem patchEntries_handles (id : Text) (existing : StoredMessage) (patch : List (Text × Value))
    (p : Patching) (hheld : held tr = []) :
    (patchEntries accountId id existing patch p).Leads (Handles c) (fun tr _ => held tr = []) tr := by
  induction patch generalizing p tr with
  | nil => exact hheld
  | cons _ _ ih =>
    exact .bind (patchTimer_handles hc accountId id existing _ _ hheld) fun _ _ hheld => ih _ hheld

theorem update_handles (id : Text) (patch : List (Text × Value)) :
    (update accountId id patch).Leads (Handles c) (fun _ _ => True) [] := by
  rw [update]
  cases emailRowId id with
  | none => trivial
  | some rowId =>
    have hown : (ownMessage accountId rowId patch).Leads (Handles c) (fun tr _ => held tr = [])
        [] := by
      refine .perform_bind trivial fun answer => ?_
      rcases answer with e | _ | m
      · trivial
      · trivial
      · exact .ite (fun _ => .pure rfl) fun _ => trivial
    refine .bind hown fun tr existing hheld => ?_
    refine .bind (patchEntries_handles hc accountId id existing patch _ hheld) fun tr p _ => ?_
    refine .perform_bind (fun id hid => by cases hid) fun answer => ?_
    cases answer <;> trivial

end

theorem submit_handles (ctx : AccountContext) (accountId : ℤ) (req : EmailSubmissionCreateRequest) :
    (submit ctx accountId req).Leads (Handles c) (fun _ _ => True) [] := by
  rw [submit]
  cases emailRowId req.emailId with
  | none => trivial
  | some =>
    refine .seq (.perform_bind trivial fun answer => ?_) fun tr existing => .seq ?_ fun tr _ => ?_
    · rcases answer with e | _ | m
      · trivial
      · trivial
      · exact .ite (fun _ => .pure trivial) fun _ => trivial
    · rw [checked]
      cases checkEnvelope req.rcptTo <;> trivial
    · refine .perform_bind trivial fun raw => .perform_bind trivial fun key => ?_
      refine .perform_bind trivial fun _ => .perform_bind trivial fun sent => ?_
      cases sent with
      | error => trivial
      | ok =>
        refine .perform_bind (fun id hid => by cases hid) fun answer => ?_
        cases answer <;> trivial

section
variable {rest : List ℤ} {cause : Cause}

theorem markEvent_handles (hstate : state ≠ .pending) (hheld : held tr = ev.id :: rest) :
    (call (.markEvent ev.id state)).Leads (Handles .fireDue) (fun tr _ => held tr = rest) tr := by
  refine .perform ⟨rfl, hstate, rest, hheld⟩ fun b => ?_
  rw [held_append, hheld]
  exact erase_cons_head ..

theorem load_handles {rowId : Option ℤ} (hheld : held tr = ids) :
    (load cause rowId).Leads (Handles .fireDue) (fun tr _ => held tr = ids) tr := by
  cases rowId with
  | none => exact hheld
  | some =>
    refine .perform_bind trivial fun answer => ?_
    rcases answer with e | _ | msg <;> exact .pure ((held_steady rfl _).trans hheld)

theorem updateMessage_handles (hcause : cause.event = some ev.id) {rowId : ℤ} {mailboxId : Option ℤ}
    {keywords : Option Text} (hheld : held tr = ev.id :: rest) :
    Handles .fireDue tr (.updateMessage cause rowId mailboxId keywords) := by
  intro id hid
  obtain rfl : ev.id = id := some.inj (hcause.symm.trans hid)
  exact ⟨rfl, rest, hheld⟩

theorem resurface_handles (found : Option (ℤ × StoredMessage)) (hheld : held tr = ev.id :: rest) :
    (resurface ev found).Leads (Handles .fireDue) (fun tr _ => held tr = ev.id :: rest) tr := by
  rcases found with _ | ⟨rowId, msg⟩
  · exact hheld
  · refine .perform_bind (updateMessage_handles rfl hheld) fun b => ?_
    exact leads_steady rfl trivial ((held_steady rfl b).trans hheld)

theorem addNudge_handles (rowId : ℤ) (msg : StoredMessage) (hheld : held tr = ev.id :: rest) :
    (addNudge ev rowId msg).Leads (Handles .fireDue) (fun tr _ => held tr = ev.id :: rest) tr := by
  refine .ite (fun _ => .pure hheld) fun _ => ?_
  exact .perform_bind (updateMessage_handles rfl hheld) fun b =>
    .pure ((held_steady rfl b).trans hheld)

theorem nudgeOrCancel_handles (threadId rowId : ℤ) (msg : StoredMessage)
    (hheld : held tr = ev.id :: rest) :
    (nudgeOrCancel ev threadId rowId msg).Leads (Handles .fireDue) (fun tr _ => held tr = rest)
      tr := by
  refine .bind (leads_steady rfl trivial hheld) fun tr sent hheld => ?_
  refine .bind (leads_steady rfl trivial hheld) fun tr drafts hheld => ?_
  refine .bind (leads_steady rfl trivial hheld) fun tr thread hheld => ?_
  refine .ite (fun _ => markEvent_handles (by decide) hheld) fun _ => ?_
  refine .bind (addNudge_handles rowId msg hheld) fun tr _ hheld => ?_
  exact .bind (leads_steady rfl trivial hheld) fun tr _ hheld => markEvent_handles (by decide) hheld

theorem fireEvent_handles (hheld : held tr = ev.id :: rest) :
    (fireEvent ev).Leads (Handles .fireDue) (fun tr _ => held tr = rest) tr := by
  have hmark : ∀ {tr}, held tr = ev.id :: rest →
      (call (.markEvent ev.id .fired)).Leads (Handles .fireDue) (fun tr _ => held tr = rest) tr :=
    fun hheld => markEvent_handles (by decide) hheld
  rw [fireEvent]
  rcases ev.kind with _ | kind
  · exact hmark hheld
  · cases kind with
    | snoozeResurface =>
      exact .bind (load_handles hheld) fun tr found hheld =>
        .bind (resurface_handles found hheld) fun tr _ hheld => hmark hheld
    | followupNudge =>
      simp only [fireFollowupNudge]
      cases ev.threadId.bind parseI64 with
      | none => exact hmark hheld
      | some threadId =>
        refine .bind (load_handles hheld) fun tr found hheld => ?_
        rcases found with _ | ⟨rowId, msg⟩
        · exact hmark hheld
        · exact nudgeOrCancel_handles threadId rowId msg hheld
    | _ => exact hmark hheld

theorem fireAll_handles (evs : List ScheduledEvent) (hheld : held tr = evs.map ScheduledEvent.id) :
    (fireAll evs).Leads (Handles .fireDue) (fun _ _ => True) tr := by
  induction evs generalizing tr with
  | nil => trivial
  | cons _ _ ih => exact .bind (fireEvent_handles hheld) fun tr _ hheld => ih hheld

end

theorem program_handles (c : Call) : (program c).Leads (Handles c) (fun _ _ => True) [] := by
  cases c with
  | update accountId id patch => exact update_handles rfl accountId id patch
  | submit ctx accountId req => exact submit_handles ctx accountId req
  | fireDue =>
    refine .perform_bind ⟨rfl, rfl⟩ fun due => fireAll_handles due ?_
    rfl

end

/-! ## What a call does to the events -/

def setState (id : ℤ) (state : EventState) (events : List ScheduledEvent) : List ScheduledEvent :=
  updateWhere (fun ev => ev.id == id) (fun ev => { ev with state }) events

inductive Moves : Op → List ScheduledEvent → List ScheduledEvent → Prop
  | same (op : Op) (events : List ScheduledEvent) : Moves op events events
  | cancel (k : ℕ) (id : ℤ) (events : List ScheduledEvent) :
      Moves (.cancelEvent k id) events (setState id .cancelled events)
  | mark (id : ℤ) (state : EventState) (events : List ScheduledEvent) :
      Moves (.markEvent id state) events (setState id state events)
  | insert (new : NewScheduledEvent) (events : List ScheduledEvent) (ev : ScheduledEvent) :
      ev.id = nextRowid ScheduledEvent.id events → Moves (.insertEvent new) events (events ++ [ev])

variable {io : SubmitDraw} {P : Primitives}

theorem sem_moves (P : Primitives) (io : SubmitDraw) (op : Op) (s : Stores) :
    Moves op s.queue.events (sem P io op s).2.queue.events := by
  have hsame : ∀ {t : Stores}, t.queue.events = s.queue.events →
      Moves op s.queue.events t.queue.events := fun h => h ▸ .same op _
  cases op with
  | getMessage cause r | ensureMailbox accountId role | updateMessage cause r mailboxId keywords =>
    exact hsame (by rw [sem, state_attempt, onMetadata_run])
  | pendingEvents =>
    refine hsame ?_
    rw [sem, state_attempt, onQueue_run, pendingEventsForAccount, sql_bind_run]
    cases io.faults .eventsPending <;> rfl
  | cancelEvent k id =>
    rw [sem, state_ignore, onQueue_run, markEventCancelled, sql_bind_run]
    cases io.faults (.eventCancel k) with
    | some => exact .same _ _
    | none => exact .cancel k id _
  | insertEvent new =>
    rw [sem, state_ignore, onQueue_run, insertScheduledEvent, sql_bind_run]
    cases io.faults .eventInsert with
    | some => exact .same _ _
    | none => exact .insert new _ _ rfl
  | openMessage => exact hsame (by rw [sem, state_mapErr, openMessage, openBlob_state])
  | ensureDkimKey =>
    refine hsame ?_
    rw [sem, state_mapErr, onQueue_run]
    exact ensureDkimKey_same io.faults (fun _ _ => rfl) _ _ s.queue
  | enqueue =>
    refine hsame ?_
    rw [sem, state_mapErr]
    exact enqueue_events s
  | dueEvents | messagesInThread accountId threadId | notify accountId => exact .same _ _
  | markEvent id state =>
    rw [sem, modify_run, markEvent]
    split
    · exact .mark id state _
    · exact .same _ _

theorem sem_fails {s : Stores} (h : (sem P io op s).1.isOk = false) :
    (sem P io op s).2.queue.events = s.queue.events := by
  have hmoves := sem_moves P io op s
  cases op with
  | cancelEvent k =>
    rw [sem, ignore, onQueue_run, markEventCancelled, sql_bind_run] at h
    cases hfault : io.faults (.eventCancel k) <;> rw [hfault] at h <;> cases h
  | insertEvent =>
    rw [sem, ignore, onQueue_run, insertScheduledEvent, sql_bind_run] at h
    cases hfault : io.faults .eventInsert <;> rw [hfault] at h <;> cases h
  | markEvent => cases h
  | _ =>
    generalize (sem P io _ s).2.queue.events = events at hmoves ⊢
    cases hmoves
    rfl

/-! ## Runs -/

def heldBy (p : Server) (i : ℕ) : List ℤ := held (trace i p.log)

/-- No other flight, of those that matter, is about to mark the event. -/
def unclaimed (p : Server) (i : ℕ) (matters : Call → Bool) (id : ℤ) : Bool :=
  (List.range p.requests.length).all fun j =>
    j == i || !(p.requests[j]?.any matters) || !(heldBy p j).contains id

def toCancel (accountId : ℤ) (kind : ScheduledKind) (messageId : Text)
    (events : List ScheduledEvent) : List ScheduledEvent :=
  (events.filter fun ev =>
    ev.accountId == accountId && ev.kind == some kind && ev.state == .pending).filter fun ev =>
      ev.payload == some messageId

/-- No event is loaded while another flight is about to mark it, unless both are clients. -/
def exclusive (p : Server) : Act → Bool
  | .launch _ => true
  | .perform i io =>
    match p.next i with
    | some .dueEvents =>
      (dueScheduledEvents io.faults io.now p.shared.queue).all fun ev =>
        unclaimed p i (fun _ => true) ev.id
    | some (.pendingEvents accountId kind messageId) =>
      (toCancel accountId kind messageId p.shared.queue.events).all fun ev =>
        unclaimed p i Call.isWorker ev.id
    | _ => true

/-- What is known of the events that are held: they are there, each once; the worker's are pending
and nobody else's, a client's may have been cancelled by another one. -/
structure Careful (p : Server) : Prop where
  distinct : (p.shared.queue.events.map ScheduledEvent.id).Nodup
  known : ∀ (i : ℕ) (c : Call), p.requests[i]? = some c → ∀ id ∈ heldBy p i,
    ∃ ev ∈ p.shared.queue.events, ev.id = id ∧
      (ev.state = .pending ∨ c.isWorker = false ∧ ev.state = .cancelled)
  once : ∀ i, (heldBy p i).Nodup
  alone : ∀ (i j : ℕ) (c d : Call), p.requests[i]? = some c → p.requests[j]? = some d → i ≠ j →
    c.isWorker = true → ∀ id ∈ heldBy p i, id ∉ heldBy p j

section
variable {p q : Server} {a : Act} {i : ℕ} {c : Call} {id : ℤ}

theorem not_mem_of_unclaimed {matters : Call → Bool} (h : unclaimed p i matters id) {j : ℕ}
    (hj : p.requests[j]? = some c) (hne : j ≠ i) (hc : matters c) : id ∉ heldBy p j := by
  have hlt : j < p.requests.length := (List.getElem?_eq_some_iff.mp hj).1
  have hall := all_eq_true.mp h j (mem_range.mpr hlt)
  simpa [hne, hj, hc] using hall

theorem careful_start (s : Stores) (h : (s.queue.events.map ScheduledEvent.id).Nodup) :
    Careful (.start s) where
  distinct := h
  known := fun i c hi => by simp [Server.start, Pool.requests] at hi
  once := fun i => nodup_nil
  alone := fun i j c d hi => by simp [Server.start, Pool.requests] at hi

theorem heldBy_of_length_le (hcounted : Pool.Lawful.Counted p) (hi : p.requests.length ≤ i) :
    heldBy p i = [] := by
  have hnone : trace i p.log = [] := by
    refine map_eq_nil_iff.mpr (filter_eq_nil_iff.mpr fun e he => ?_)
    have hlt := hcounted e he
    rw [Pool.requests, length_map] at hi
    simp only [beq_iff_eq]
    omega
  rw [heldBy, hnone]
  rfl

theorem requests_launch (hcounted : Pool.Lawful.Counted p) {new : Call}
    (hi : (p.launch program new).requests[i]? = some c) (hid : id ∈ heldBy p i) :
    p.requests[i]? = some c := by
  have happend : (p.launch program new).requests = p.requests ++ [new] := by
    simp [Pool.requests, Pool.launch]
  rcases Nat.lt_or_ge i p.requests.length with hlt | hge
  · rwa [happend, List.getElem?_append_left hlt] at hi
  · rw [heldBy_of_length_le hcounted hge] at hid
    cases hid

theorem Careful.launch (h : Careful p) (hcounted : Pool.Lawful.Counted p) (new : Call) :
    Careful (p.launch program new) where
  distinct := h.distinct
  known := fun i c hi id hid => h.known i c (requests_launch hcounted hi hid) id hid
  once := h.once
  alone := fun i j c d hi hj hne hc id hid hid' =>
    h.alone i j c d (requests_launch hcounted hi hid) (requests_launch hcounted hj hid') hne hc id
      hid hid'

theorem Careful.steady (h : Careful p) (hreq : q.requests = p.requests)
    (hheld : ∀ j, heldBy q j = heldBy p j)
    (hdistinct : (q.shared.queue.events.map ScheduledEvent.id).Nodup)
    (hevents : ∀ ev ∈ p.shared.queue.events, ev ∈ q.shared.queue.events) : Careful q where
  distinct := hdistinct
  known := by
    intro j d hj id hid
    rw [hreq] at hj
    rw [hheld] at hid
    obtain ⟨ev, hev, hrest⟩ := h.known j d hj id hid
    exact ⟨ev, hevents ev hev, hrest⟩
  once := fun j => by rw [hheld]; exact h.once j
  alone := by
    intro j k d e hj hk hne hd id hid
    rw [hreq] at hj hk
    rw [hheld] at hid ⊢
    exact h.alone j k d e hj hk hne hd id hid

theorem mem_marked {events events' : List ScheduledEvent} (hev : ev ∈ events)
    (h : events' = events ∨ events' = setState id state events) :
    ev ∈ events' ∨ ev.id = id ∧ { ev with state } ∈ events' := by
  rcases h with rfl | rfl
  · exact .inl hev
  · by_cases hid : ev.id = id
    · exact .inr ⟨hid, mem_updateWhere.mpr ⟨ev, hev, by simp [hid]⟩⟩
    · exact .inl (mem_updateWhere.mpr ⟨ev, hev, by simp [hid]⟩)

theorem map_id_setState (events : List ScheduledEvent) :
    (setState id state events).map ScheduledEvent.id = events.map ScheduledEvent.id :=
  map_updateWhere (f := fun ev : ScheduledEvent => { ev with state }) ScheduledEvent.id
    (fun _ => rfl) events

theorem Careful.marked (h : Careful p) (hreq : q.requests = p.requests)
    (hi : p.requests[i]? = some c) (hid : id ∈ heldBy p i)
    (hstate : c.isWorker ∨ state = .cancelled) (hheld : heldBy q i = (heldBy p i).erase id)
    (hothers : ∀ j, j ≠ i → heldBy q j = heldBy p j)
    (hevents : q.shared.queue.events = p.shared.queue.events ∨
      q.shared.queue.events = setState id state p.shared.queue.events) : Careful q := by
  have hsub : ∀ j, ∀ x ∈ heldBy q j, x ∈ heldBy p j := by
    intro j x hx
    by_cases hji : j = i
    · subst hji
      rw [hheld] at hx
      exact mem_of_mem_erase hx
    · rwa [hothers j hji] at hx
  refine ⟨?_, ?_, ?_, ?_⟩
  · rcases hevents with he | he
    · rw [he]
      exact h.distinct
    · rw [he, map_id_setState]
      exact h.distinct
  · intro j d hj x hx
    rw [hreq] at hj
    obtain ⟨ev, hev, rfl, hev'⟩ := h.known j d hj x (hsub j x hx)
    rcases mem_marked hev hevents with hmem | ⟨rfl, hmem⟩
    · exact ⟨ev, hmem, rfl, hev'⟩
    · -- Another holder of the event can only be a client, beside a client.
      have hji : j ≠ i := by
        rintro rfl
        rw [hheld] at hx
        exact (List.Nodup.not_mem_erase (h.once j)) hx
      have hclient : c.isWorker = false := by
        by_contra hworker
        exact h.alone i j c d hi hj (Ne.symm hji) (by simpa using hworker) _ hid (hsub j _ hx)
      have hother : d.isWorker = false := by
        by_contra hworker
        exact h.alone j i d c hj hi hji (by simpa using hworker) _ (hsub j _ hx) hid
      exact ⟨_, hmem, rfl, .inr ⟨hother, hstate.resolve_left (by simp [hclient])⟩⟩
  · intro j
    by_cases hji : j = i
    · subst hji
      rw [hheld]
      exact (h.once j).erase id
    · rw [hothers j hji]
      exact h.once j
  · intro j k d e hj hk hne hd x hx hx'
    rw [hreq] at hj hk
    exact h.alone j k d e hj hk hne hd x (hsub j x hx) (hsub k x hx')

theorem Careful.loaded (h : Careful p) (hreq : q.requests = p.requests)
    (hevents : q.shared.queue.events = p.shared.queue.events) {loaded : List ScheduledEvent}
    (hloaded : loaded.Sublist p.shared.queue.events) (hpending : ∀ ev ∈ loaded, ev.state = .pending)
    (hi : p.requests[i]? = some c) (hheld : heldBy q i = loaded.map ScheduledEvent.id)
    (hothers : ∀ j, j ≠ i → heldBy q j = heldBy p j)
    (hfree : ∀ ev ∈ loaded, ∀ j d, p.requests[j]? = some d → j ≠ i →
      (c.isWorker ∨ d.isWorker) → ev.id ∉ heldBy p j) : Careful q := by
  refine ⟨by rw [hevents]; exact h.distinct, ?_, ?_, ?_⟩
  · intro j d hj id hid
    rw [hreq] at hj
    rw [hevents]
    by_cases hji : j = i
    · subst hji
      rw [hheld] at hid
      obtain ⟨ev, hev, rfl⟩ := mem_map.mp hid
      exact ⟨ev, hloaded.subset hev, rfl, .inl (hpending ev hev)⟩
    · rw [hothers j hji] at hid
      exact h.known j d hj id hid
  · intro j
    by_cases hji : j = i
    · subst hji
      rw [hheld]
      exact h.distinct.sublist (hloaded.map _)
    · rw [hothers j hji]
      exact h.once j
  · intro j k d e hj hk hne hd id hid hid'
    rw [hreq] at hj hk
    by_cases hji : j = i
    · subst hji
      obtain rfl : c = d := some.inj (hi.symm.trans hj)
      rw [hheld] at hid
      rw [hothers k (Ne.symm hne)] at hid'
      obtain ⟨ev, hev, rfl⟩ := mem_map.mp hid
      exact hfree ev hev k e hk (Ne.symm hne) (.inl hd) hid'
    · rw [hothers j hji] at hid
      by_cases hki : k = i
      · subst hki
        rw [hheld] at hid'
        obtain ⟨ev, hev, rfl⟩ := mem_map.mp hid'
        exact hfree ev hev j d hj hji (.inr hd) hid
      · rw [hothers k hki] at hid'
        exact h.alone j k d e hj hk hne hd id hid hid'

def Kept (p q : Server) : Prop :=
  ∀ ev ∈ p.shared.queue.events, ev.state ≠ .pending → ev ∈ q.shared.queue.events

theorem kept_of_setState (h : Careful p) (hi : p.requests[i]? = some c) (hid : id ∈ heldBy p i)
    (hstate : c.isWorker ∨ state = .cancelled)
    (hevents : q.shared.queue.events = p.shared.queue.events ∨
      q.shared.queue.events = setState id state p.shared.queue.events) : Kept p q := by
  intro ev hev hdone
  rcases mem_marked hev hevents with hmem | ⟨rfl, hmem⟩
  · exact hmem
  · obtain ⟨ev', hev', hid', hknown⟩ := h.known i c hi ev.id hid
    obtain rfl : ev' = ev := inj_on_of_nodup_map h.distinct hev' hev hid'
    rcases hknown with hpending | ⟨hclient, hcancelled⟩
    · exact absurd hpending hdone
    · have hstate' : state = .cancelled := hstate.resolve_left (by simp [hclient])
      rwa [hstate', ← hcancelled] at hmem

theorem Careful.answered (ho : Orderly Handles p) (h : Careful p)
    (hguard : exclusive p (.perform i io)) {k : op.Ret → Prog Unit} {b : op.Ret} {t : Stores}
    (hi : p.flights[i]? = some ⟨c, .call op k⟩) (hsem : sem P io op p.shared = (.ok b, t))
    (hreq : q.requests = p.requests) (hshared : q.shared = t)
    (hlog : q.log = p.log ++ [⟨i, op, b⟩]) : Careful q ∧ Kept p q := by
  have hc : p.requests[i]? = some c := by
    rw [Pool.requests, List.getElem?_map, hi]
    rfl
  have hhandles : Handles c (trace i p.log) op := ho.next hi
  have hheld : heldBy q i = heldAfter (heldBy p i) ⟨op, b⟩ := by
    rw [heldBy, hlog, trace_append_self, held_append]
    rfl
  have hothers : ∀ j, j ≠ i → heldBy q j = heldBy p j := by
    intro j hj
    rw [heldBy, hlog, trace_append_of_ne (Ne.symm hj)]
    rfl
  have hmoves : Moves op p.shared.queue.events q.shared.queue.events := by
    rw [hshared]
    have := sem_moves P io op p.shared
    rwa [hsem] at this
  have hnext := Pool.next_of_flight hi
  generalize hevents : q.shared.queue.events = events at hmoves
  have hsteady : heldBy q i = heldBy p i → ∀ j, heldBy q j = heldBy p j := by
    intro hown j
    by_cases hj : j = i
    · rw [hj, hown]
    · exact hothers j hj
  have hunmoved : events = p.shared.queue.events → heldBy q i = heldBy p i →
      Careful q ∧ Kept p q := by
    rintro rfl hown
    exact ⟨h.steady hreq (hsteady hown) (hevents ▸ h.distinct) fun ev hev => hevents ▸ hev,
      fun ev hev _ => hevents ▸ hev⟩
  have hmarked : ∀ {id} state, (∃ rest, held (trace i p.log) = id :: rest) →
      (c.isWorker ∨ state = .cancelled) → heldBy q i = (heldBy p i).erase id →
      (events = p.shared.queue.events ∨ events = setState id state p.shared.queue.events) →
      Careful q ∧ Kept p q := by
    rintro id state ⟨rest, hrest⟩ hstate herase hmoved
    have hid : id ∈ heldBy p i := by
      rw [heldBy, hrest]
      exact mem_cons_self
    rw [← hevents] at hmoved
    exact ⟨h.marked hreq hc hid hstate herase hothers hmoved, kept_of_setState h hc hid hstate hmoved⟩
  cases op with
  | pendingEvents accountId kind messageId =>
    obtain ⟨hclient, hnone⟩ := hhandles
    cases hmoves
    rw [sem, attempt, onQueue_run, pendingEventsForAccount, sql_bind_run] at hsem
    cases hfault : io.faults .eventsPending with
    | some =>
      rw [hfault] at hsem
      obtain ⟨⟨⟩, -⟩ := Prod.mk.inj hsem
      exact hunmoved rfl hheld
    | none =>
      rw [hfault] at hsem
      obtain ⟨⟨⟩, -⟩ := Prod.mk.inj hsem
      rw [exclusive, hnext] at hguard
      have hsub : (toCancel accountId kind messageId p.shared.queue.events).Sublist
          p.shared.queue.events := filter_sublist.trans filter_sublist
      refine ⟨h.loaded hreq hevents hsub (fun ev hev => ?_) hc ?_ hothers
        fun ev hev j d hj hne hworker => ?_, fun ev hev _ => hevents ▸ hev⟩
      · have hpending := (mem_filter.mp (mem_of_mem_filter hev)).2
        simp only [Bool.and_eq_true, beq_iff_eq] at hpending
        exact hpending.2
      · have hempty : heldBy p i = [] := hnone
        rw [hheld, hempty]
        rfl
      · exact not_mem_of_unclaimed (all_eq_true.mp hguard ev hev) hj hne
          (hworker.resolve_left (by simp [hclient]))
  | dueEvents =>
    obtain ⟨hworker, hnone⟩ := hhandles
    cases hmoves
    obtain ⟨⟨⟩, -⟩ := Prod.mk.inj hsem
    rw [exclusive, hnext] at hguard
    have hsub : (dueScheduledEvents io.faults io.now p.shared.queue).Sublist
        p.shared.queue.events := by
      rw [dueScheduledEvents]
      split
      · exact filter_sublist
      · exact nil_sublist _
    refine ⟨h.loaded hreq hevents hsub (fun ev hev => ?_) hc ?_ hothers
      fun ev hev j d hj hne _ => ?_, fun ev hev _ => hevents ▸ hev⟩
    · rw [dueScheduledEvents] at hev
      split at hev
      · have hdue := (mem_filter.mp hev).2
        simp only [Bool.and_eq_true, beq_iff_eq] at hdue
        exact hdue.1
      · cases hev
    · have hempty : heldBy p i = [] := hnone
      rw [hheld, hempty]
      rfl
    · exact not_mem_of_unclaimed (all_eq_true.mp hguard ev hev) hj hne rfl
  | cancelEvent k id =>
    refine hmarked .cancelled hhandles.2 (.inr rfl) hheld ?_
    cases hmoves with
    | same => exact .inl rfl
    | cancel => exact .inr rfl
  | markEvent id state =>
    refine hmarked state hhandles.2.2 (.inl hhandles.1) hheld ?_
    cases hmoves with
    | same => exact .inl rfl
    | mark => exact .inr rfl
  | insertEvent =>
    cases hmoves with
    | same => exact hunmoved rfl hheld
    | insert _ _ _ hid =>
      have hkept : ∀ e ∈ p.shared.queue.events, e ∈ q.shared.queue.events := by
        rw [hevents]
        exact fun e he => mem_append_left _ he
      refine ⟨h.steady hreq (hsteady hheld) ?_ hkept, fun e he _ => hkept e he⟩
      rw [hevents]
      exact nodup_insert ScheduledEvent.id h.distinct hid
  | _ =>
    cases hmoves
    exact hunmoved rfl hheld

theorem Careful.step (ho : Orderly Handles p) (h : Careful p) (hguard : exclusive p a)
    (hstep : step P p a = some q) : Careful q ∧ Kept p q := by
  cases a with
  | launch c =>
    cases hstep
    exact ⟨h.launch ho.counted c, fun ev hev _ => hev⟩
  | perform i io =>
    have hreq : q.requests = p.requests := some.inj hstep ▸ Pool.requests_perform p i
    cases Pool.performed (some.inj hstep) with
    | idle => exact ⟨h, fun ev hev _ => hev⟩
    | answered hi hsem => exact h.answered ho hguard hi hsem hreq rfl rfl
    | @failed request op k r t hi ht hsem hr =>
      have hsame : t.queue.events = p.shared.queue.events := ht ▸ sem_fails hsem
      exact ⟨h.steady hreq (fun j => rfl) (hsame ▸ h.distinct) fun ev hev => hsame ▸ hev,
        fun ev hev _ => hsame ▸ hev⟩

/-- As long as no event is loaded while another flight is about to mark it (two clients apart), an
event that is fired or cancelled stays as it is, and messages are changed for pending events only. -/
theorem cancelled_events_stay (P : Primitives) (s₀ : Stores)
    (hdistinct : (s₀.queue.events.map ScheduledEvent.id).Nodup) (before after : List Act)
    (u w : Server) (hu : run (step P) (.start s₀) before = some u)
    (hw : run (step P) u after = some w)
    (hguard : Along (step P) (fun p a => exclusive p a = true) (.start s₀) (before ++ after)) :
    (∀ ev ∈ u.shared.queue.events, ev.state ≠ .pending →
        findBy ScheduledEvent.id ev.id w.shared.queue.events = some ev) ∧
      ∀ i cause rowId mailboxId keywords id,
        w.next i = some (.updateMessage cause rowId mailboxId keywords) → cause.event = some id →
          ∃ ev, findBy ScheduledEvent.id id w.shared.queue.events = some ev ∧ ev.state = .pending := by
  have hstep : ∀ p a q, Orderly Handles p ∧ Careful p → exclusive p a →
      step P p a = some q → (Orderly Handles q ∧ Careful q) ∧ Kept p q := by
    intro p a q ⟨ho, h⟩ hexclusive hq
    obtain ⟨hcareful, hkept⟩ := h.step ho hexclusive hq
    exact ⟨⟨ho.step program_handles hq, hcareful⟩, hkept⟩
  have hsound : ∀ {p q : Server} {acts : List Act}, Orderly Handles p ∧ Careful p →
      Along (step P) (fun p a => exclusive p a = true) p acts → run (step P) p acts = some q →
      Orderly Handles q ∧ Careful q := fun hp hacts hq =>
    run_invariant
      (fun p a q h hG hq => (hstep p a q h hG hq).1) hp hacts hq
  have hsound_u := hsound ⟨.start s₀, careful_start s₀ hdistinct⟩ hguard.append_left hu
  have hafter := hguard.append_right hu
  obtain ⟨ho, h⟩ := hsound hsound_u hafter hw
  refine ⟨fun ev hev hdone => ?_, fun i cause rowId mailboxId keywords id hnext hcause => ?_⟩
  · have hkept : Kept u w :=
      run_relation (fun p ev hev _ => hev)
        (fun p q r hpq hqr ev hev hdone => hqr ev (hpq ev hev hdone) hdone) hstep hsound_u hafter hw
    exact (findBy_eq_some_iff ScheduledEvent.id h.distinct).mpr ⟨hkept ev hev hdone, rfl⟩
  · obtain ⟨c, k, hi⟩ := Pool.flight_of_next hnext
    have hhandles : Handles c (trace i w.log) (.updateMessage cause rowId mailboxId keywords) :=
      ho.next hi
    obtain ⟨hworker, rest, hrest⟩ := hhandles id hcause
    have hid : id ∈ heldBy w i := by
      rw [heldBy, hrest]
      exact mem_cons_self
    have hc : w.requests[i]? = some c := by
      rw [Pool.requests, List.getElem?_map, hi]
      rfl
    obtain ⟨ev, hev, rfl, hstate⟩ := h.known i c hc id hid
    refine ⟨ev, (findBy_eq_some_iff ScheduledEvent.id h.distinct).mpr ⟨hev, rfl⟩, ?_⟩
    exact hstate.resolve_right (by simp [hworker])

end

/-! ## A snooze that is cancelled while the worker has it -/

def sampleSnooze : ScheduledEvent where
  id := 1
  accountId := 1
  kind := some .snoozeResurface
  fireAt := 1700000100
  threadId := some "1"
  payload := some "m1"
  state := .pending

def sampleUnsnooze (i : ℕ) : List Act :=
  .launch (.update 1 "m1" [("snoozeUntil", .other)]) :: sampleCalls i 4

def sampleView (p : Server) : List String × List EventState :=
  (p.shared.metadata.messages.map fun m => String.ofList m.keywords,
    p.shared.queue.events.map ScheduledEvent.state)

/-- The client is done before the worker loads. -/
theorem cancelled_events_stay_in_turn :
    ∃ u w, run (step (Primitives.sample fun _ => none))
        (.start (sampleInbox "$snoozed" [sampleSnooze])) (sampleUnsnooze 0) = some u ∧
      run (step (Primitives.sample fun _ => none)) u (.launch .fireDue :: sampleCalls 1 5) = some w ∧
      sampleView u = (["$snoozed"], [.cancelled]) ∧ sampleView w = (["$snoozed"], [.cancelled]) ∧
      (∀ ev ∈ u.shared.queue.events, ev.state ≠ .pending →
        findBy ScheduledEvent.id ev.id w.shared.queue.events = some ev) ∧
      ∀ i cause rowId mailboxId keywords id,
        w.next i = some (.updateMessage cause rowId mailboxId keywords) → cause.event = some id →
          ∃ ev, findBy ScheduledEvent.id id w.shared.queue.events = some ev ∧ ev.state = .pending := by
  have hguard : Along (step (Primitives.sample fun _ => none)) (fun p a => exclusive p a = true)
      (.start (sampleInbox "$snoozed" [sampleSnooze]))
      (sampleUnsnooze 0 ++ (.launch .fireDue :: sampleCalls 1 5)) := by decide +kernel
  have hends : (run (step (Primitives.sample fun _ => none))
      (.start (sampleInbox "$snoozed" [sampleSnooze])) (sampleUnsnooze 0)).bind (fun u =>
        (run (step (Primitives.sample fun _ => none)) u (.launch .fireDue :: sampleCalls 1 5)).map
          fun w => (sampleView u, sampleView w)) =
      some ((["$snoozed"], [.cancelled]), (["$snoozed"], [.cancelled])) := by decide +kernel
  obtain ⟨u, hu, hw⟩ := bind_eq_some_iff.mp hends
  obtain ⟨w, hw, hview⟩ := map_eq_some_iff.mp hw
  obtain ⟨hview, hview'⟩ := Prod.mk.inj hview
  exact ⟨u, w, hu, hw, hview, hview', cancelled_events_stay _ _ (by decide) _ _ u w hu hw hguard⟩

/-- The worker has loaded the event, then the client cancels it: the message comes back all the same
and the event counts as fired. -/
theorem cancelled_snooze_fires :
    (run (step (Primitives.sample fun _ => none))
      (.start (sampleInbox "$snoozed" [sampleSnooze]))
      (.launch .fireDue :: sampleCalls 0 1 ++ sampleUnsnooze 1)).bind (fun u =>
        (run (step (Primitives.sample fun _ => none)) u (sampleCalls 0 4)).map fun w =>
          (sampleView u, sampleView w)) =
      some ((["$snoozed"], [.cancelled]), ([""], [.fired])) := by
  decide +kernel

end Litterae.Races
