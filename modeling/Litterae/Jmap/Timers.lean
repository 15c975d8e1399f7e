import Litterae.Jmap.Ownership
import Litterae.Queue.Lifecycle

/-! # Snoozes and nudges among deliveries, drafts and deletions

The worker runs beside requests of any number of accounts: deliveries, drafts, updates and destroys,
each an action of its own. The machine numbers insertions: `inserted` is the step that inserted the
message now under a row id, `boundTo` the insertion of the message an event was created for.
-/

namespace Litterae.Timers
open Foundations Store Delivery Queue Jmap Exec List Option

/-! ## What firing an event changes -/

/-- Some messages whose row id meets `p` are changed, in columns other than the id and the account;
events are only taken out of the pending ones. -/
structure Fires (p : ℤ → Prop) (s t : Stores) : Prop where
  messages : ∃ f : StoredMessage → StoredMessage,
    t.metadata.messages = s.metadata.messages.map f ∧
      ∀ m, (f m).id = m.id ∧ (f m).accountId = m.accountId ∧ (f m ≠ m → p m.id)
  contacts : t.metadata.contacts = s.metadata.contacts
  eventIds : t.queue.events.map ScheduledEvent.id = s.queue.events.map ScheduledEvent.id
  pending : ∀ ev ∈ t.queue.events, ev.state = .pending → ev ∈ s.queue.events

variable {faults : Faults} {p : ℤ → Prop} {s : Stores} {rowId : ℤ} {owner : ℤ}

section
variable {t u : Stores}

theorem Fires.of_same (hm : t.metadata.messages = s.metadata.messages)
    (hc : t.metadata.contacts = s.metadata.contacts) (he : t.queue.events = s.queue.events) :
    Fires p s t where
  messages := ⟨id, by rw [hm, List.map_id], fun m => ⟨rfl, rfl, fun h => absurd rfl h⟩⟩
  contacts := hc
  eventIds := by rw [he]
  pending := fun ev hev _ => he ▸ hev

theorem Fires.trans (h : Fires p s t) (h' : Fires p t u) : Fires p s u where
  messages := by
    obtain ⟨f, hf, hrow⟩ := h.messages
    obtain ⟨g, hg, hrow'⟩ := h'.messages
    refine ⟨g ∘ f, by rw [hg, hf, List.map_map], fun m => ?_⟩
    obtain ⟨hid, hown, hp⟩ := hrow m
    obtain ⟨hid', hown', hp'⟩ := hrow' (f m)
    refine ⟨hid'.trans hid, hown'.trans hown, fun hne => ?_⟩
    by_cases hsame : f m = m
    · rw [hid] at hp'
      apply hp'
      rw [hsame]
      rwa [Function.comp_apply, hsame] at hne
    · exact hp hsame
  contacts := h'.contacts.trans h.contacts
  eventIds := h'.eventIds.trans h.eventIds
  pending := fun ev hev hp => h.pending ev (h'.pending ev hev hp) hp

instance : IsPreorder Stores (Fires p) where
  refl := fun _ => .of_same rfl rfl rfl
  trans := fun _ _ _ => .trans

theorem markEvent_fires (id : ℤ) {state : EventState} (hstate : state ≠ .pending) (s : Stores) :
    Fires p s (markEvent faults id state s) := by
  unfold markEvent
  split
  · refine ⟨⟨_, (map_id _).symm, fun m => ⟨rfl, rfl, fun h => absurd rfl h⟩⟩, rfl, ?_, ?_⟩
    · exact map_updateWhere (f := fun ev : ScheduledEvent => { ev with state }) ScheduledEvent.id
        (fun _ => rfl) s.queue.events
    · intro ev hev hpending
      obtain ⟨ev₀, hev₀, rfl⟩ := mem_updateWhere.mp hev
      by_cases hid : (ev₀.id == id)
      · simp [hid, hstate] at hpending
      · simpa [hid] using hev₀
  · exact .of_same rfl rfl rfl

theorem storeKeywords_fires (hp : p rowId) (keywords : List Text) (s : Stores) :
    Fires p s (storeKeywords faults rowId keywords s) := by
  rcases storeKeywords_run rowId keywords s with hsame | hset
  · rw [hsame]
    exact .of_same rfl rfl rfl
  · rw [hset]
    refine ⟨⟨_, rfl, fun m => ?_⟩, rfl, rfl, fun ev hev _ => hev⟩
    by_cases hid : (m.id == rowId)
    · obtain rfl : m.id = rowId := by simpa using hid
      simp [hp]
    · simp [hid]

theorem mailboxOr_fires (accountId : ℤ) (role : Role) (s : Stores) :
    Fires p s (mailboxOr faults accountId role s).2 := by
  rw [mailboxOr_run, onMetadata_run]
  refine .of_same ?_ ?_ rfl
  · exact ensureMailbox_same (fun _ _ => rfl) _ _ s.metadata
  · exact ensureMailbox_same (fun _ _ => rfl) _ _ s.metadata

theorem fireEvent_fires (ev : ScheduledEvent) (s : Stores) :
    Fires (fun id => scheduledMessageRowId ev = some id) s (fireEvent faults ev s) :=
  fireEvent_relates (fun id _ s hstate => markEvent_fires id hstate s)
    (fun _ keywords s hnamed => storeKeywords_fires hnamed keywords s)
    (fun _ _ => .of_same rfl rfl rfl) mailboxOr_fires s

theorem Fires.mono {q : ℤ → Prop} (hpq : ∀ id, p id → q id) (h : Fires p s t) : Fires q s t := by
  obtain ⟨f, hf, hrow⟩ := h.messages
  exact ⟨⟨f, hf, fun m => ⟨(hrow m).1, (hrow m).2.1, fun hne => hpq _ ((hrow m).2.2 hne)⟩⟩,
    h.contacts, h.eventIds, h.pending⟩

theorem fireAll_fires (faults : ℕ → Faults) (k : ℕ) (evs : List ScheduledEvent) (s : Stores) :
    Fires (fun _ => True) s (fireAll faults k evs s) := by
  induction evs generalizing k s with
  | nil => exact .of_same rfl rfl rfl
  | cons ev _ ih => exact ((fireEvent_fires ev s).mono fun _ _ => trivial).trans (ih (k + 1) _)

theorem Fires.hasMessage (h : Fires p s t) (hs : HasMessage owner rowId s) :
    HasMessage owner rowId t := by
  obtain ⟨f, hf, hrow⟩ := h.messages
  obtain ⟨m, hm, howner⟩ := hs
  have hupdate : t.metadata.messages = updateWhere (fun _ => true) f s.metadata.messages := by
    rw [hf]
    simp [updateWhere]
  refine ⟨f m, ?_, (hrow m).2.1.trans howner⟩
  rw [hupdate, findBy_updateWhere _ (fun m => (hrow m).1), hm]
  rfl

theorem Fires.unique (h : Fires p s t) (hs : Unique s) : Unique t := by
  obtain ⟨f, hf, hrow⟩ := h.messages
  refine ⟨?_, h.contacts ▸ hs.contacts, h.eventIds ▸ hs.events⟩
  have hids : StoredMessage.id ∘ f = StoredMessage.id := funext fun m => (hrow m).1
  rw [hf, List.map_map, hids]
  exact hs.messages

end

/-! ## The machine -/

inductive Act where
  /-- The worker, or an enqueue beside it. -/
  | worker (a : Queue.Act)
  | deliver (draw : Draw) (account : RecipientAccount) (envelope : InboundEnvelope)
      (results : AuthResults) (raw : Bytes) (receivedAt : ℤ) (spamReason : Option Text)
      (scan : ScanMetadata)
  | draft (C : Composer) (draw : ComposeDraw) (ctx : AccountContext) (accountId : ℤ)
      (req : EmailCreateRequest)
  | update (io : UpdateIo) (accountId : ℤ) (id : Text) (patch : List (Text × Value))
  | destroy (faults : Faults) (accountId : ℤ) (id : Text)

def storedIds (s : Stores) : List ℤ := s.metadata.messages.map StoredMessage.id

def eventIds (s : Stores) : List ℤ := s.queue.events.map ScheduledEvent.id

structure World where
  loop : Loop
  /-- The number of steps so far. -/
  time : ℕ
  inserted : ℤ → ℕ
  boundTo : ℤ → Option ℕ

def World.stores (w : World) : Stores := w.loop.stores

/-- The number a message has after a step: the step's own if the step inserted it. -/
def World.insertedAfter (w : World) (t : Stores) (rowId : ℤ) : ℕ :=
  if rowId ∈ storedIds t ∧ rowId ∉ storedIds w.stores then w.time else w.inserted rowId

def World.record (w : World) (t : Loop) : World where
  loop := t
  time := w.time + 1
  inserted := w.insertedAfter t.stores
  boundTo := fun id =>
    if id ∈ eventIds t.stores ∧ id ∉ eventIds w.stores then
      ((findBy ScheduledEvent.id id t.stores.queue.events).bind scheduledMessageRowId).map
        (w.insertedAfter t.stores)
    else w.boundTo id

def World.start (accounts : List Account) (domains : List Domain) : World where
  loop := Loop.start { Stores.empty with accounts, domains }
  time := 0
  inserted := fun _ => 0
  boundTo := fun _ => none

section
variable (P : Primitives) (hostname : Text)

/-- What an action does to the worker and the stores; a failed or panicked request leaves what it
wrote until then. -/
def perform (l : Loop) : Act → Option Loop
  | .worker a => Queue.step P hostname l a
  | .deliver draw account envelope results raw receivedAt spamReason scan =>
    some { l with
      stores := (deliver P draw account envelope results raw receivedAt spamReason scan l.stores).2 }
  | .draft C draw ctx accountId req =>
    some { l with stores := (createDraft P C draw ctx accountId req l.stores).2 }
  | .update io accountId id patch =>
    some { l with stores := (emailUpdate accountId io id patch l.stores).2 }
  | .destroy faults accountId id =>
    some { l with stores := (emailDestroy accountId faults id l.stores).2 }

def step (w : World) (a : Act) : Option World := (perform P hostname w.loop a).map w.record

end

/-- A destroy would not delete the message: it is missing, another account's, or outside Trash. -/
def leaves (accountId rowId : ℤ) (s : Stores) : Bool :=
  (findBy StoredMessage.id rowId s.metadata.messages).all fun m =>
    m.accountId != accountId || (mailboxOf accountId .trash s.metadata).any fun b => m.mailboxId != b.id

def awaited (rowId : ℤ) (s : Stores) : Bool :=
  s.queue.events.any fun ev => ev.state == .pending && scheduledMessageRowId ev == some rowId

/-- A destroy that deletes its message finds no pending event naming it. -/
def spares (w : World) : Act → Bool
  | .destroy _ accountId id =>
    (emailRowId id).all fun rowId => leaves accountId rowId w.stores || !awaited rowId w.stores
  | _ => true

/-! ## A request is a run of its items -/

variable {hostname : Text} {P : Primitives}

section
variable {ε ε' ι α β : Type}

/-- Every run of `x` on the stores is a run of the machine. -/
def Replayed (P : Primitives) (hostname : Text) (x : Exec Stores ε α) : Prop :=
  ∀ w, ∃ acts v, run (step P hostname) w acts = some v ∧ v.stores = (x w.stores).2

theorem Replayed.pure {a : α} : Replayed P hostname (pure a : Exec Stores ε α) :=
  fun w => ⟨[], w, rfl, rfl⟩

theorem Replayed.bind {x : Exec Stores ε α} {f : α → Exec Stores ε β} (hx : Replayed P hostname x)
    (hf : ∀ a, Replayed P hostname (f a)) : Replayed P hostname (x >>= f) := by
  intro w
  obtain ⟨acts, v, hrun, hv⟩ := hx w
  match hxs : x w.stores with
  | (.ok a, t) =>
    rw [hxs] at hv
    obtain ⟨acts', u, hrun', hu⟩ := hf a v
    refine ⟨acts ++ acts', u, ?_, ?_⟩
    · rw [run_append, hrun]
      exact hrun'
    · rw [bind_of_ok hxs, hu, hv]
  | (.err e, t) =>
    rw [hxs] at hv
    exact ⟨acts, v, hrun, by rw [bind_of_err hxs, hv]⟩
  | (.panic, t) =>
    rw [hxs] at hv
    exact ⟨acts, v, hrun, by rw [bind_of_panic hxs, hv]⟩

theorem eachItem_replayed {op : ℕ → ι → Exec Stores ε α} (act : ℕ → ι → Act)
    (hact : ∀ k i l, perform P hostname l (act k i) = some { l with stores := (op k i l.stores).2 })
    {k : ℕ} {items : List ι} :
    Replayed P hostname (eachItem op k items : Exec Stores ε' (List (ι × Except ε α))) := by
  induction items generalizing k with
  | nil => exact Replayed.pure
  | cons item _ ih =>
    refine Replayed.bind (fun w => ?_) fun outcome =>
      Replayed.bind ih fun outcomes => Replayed.pure
    refine ⟨[act k item], w.record { w.loop with stores := (op k item w.stores).2 }, ?_, ?_⟩
    · simp only [run, step, hact, map_some, bind_some]
      rfl
    · rw [state_attempt]
      rfl

end

/-! ## Pending events name their message -/

/-- Every pending event names a stored message of its account, the one it was created for. -/
structure Bound (w : World) : Prop where
  unique : Unique w.stores
  target : ∀ ev ∈ w.stores.queue.events, ev.state = .pending → ∃ rowId,
    scheduledMessageRowId ev = some rowId ∧ HasMessage ev.accountId rowId w.stores ∧
      w.boundTo ev.id = some (w.inserted rowId)

/-- Pending events after a step are those before it and new ones that name a stored message. -/
def Pends (s t : Stores) : Prop :=
  ∀ ev ∈ t.queue.events, ev.state = .pending →
    ev ∈ s.queue.events ∨ (ev.id ∉ eventIds s ∧ Targets t ev)

theorem mem_storedIds (h : HasMessage owner rowId s) :
    rowId ∈ storedIds s := by
  obtain ⟨m, hm, -⟩ := h
  exact (findBy_isSome_iff StoredMessage.id).mp (by rw [hm]; rfl)

variable {w : World}

theorem Bound.record {t : Loop} (h : Bound w) (hunique : Unique t.stores)
    (hpends : Pends w.stores t.stores)
    (hrows : ∀ ev ∈ w.stores.queue.events, ev.state = .pending → ∀ rowId,
      scheduledMessageRowId ev = some rowId → HasMessage ev.accountId rowId w.stores →
        HasMessage ev.accountId rowId t.stores) : Bound (w.record t) := by
  refine ⟨hunique, fun ev hev hpending => ?_⟩
  rcases hpends ev hev hpending with hold | ⟨hnew, rowId, hrow, hmsg⟩
  · obtain ⟨rowId, hrow, hmsg, hbound⟩ := h.target ev hold hpending
    refine ⟨rowId, hrow, hrows ev hold hpending rowId hrow hmsg, ?_⟩
    have hknown : ev.id ∈ eventIds w.stores := mem_map_of_mem hold
    have hstored : rowId ∈ storedIds w.stores := mem_storedIds hmsg
    simp only [World.record, World.insertedAfter, hknown, hstored, not_true_eq_false, and_false,
      if_false]
    exact hbound
  · refine ⟨rowId, hrow, hmsg, ?_⟩
    have hthere : ev.id ∈ eventIds t.stores := mem_map_of_mem hev
    have hfound : findBy ScheduledEvent.id ev.id t.stores.queue.events = some ev :=
      (findBy_eq_some_iff _ hunique.events).mpr ⟨hev, rfl⟩
    simp only [World.record, hthere, hnew, not_false_eq_true, and_self, if_true, hfound,
      bind_some, hrow, map_some]

structure Carries (s t : Stores) : Prop where
  unique : Unique s → Unique t
  ids : ∀ id ∈ eventIds s, id ∈ eventIds t
  pends : Pends s t
  rows : ∀ owner rowId, HasMessage owner rowId s → HasMessage owner rowId t

variable {accountId : ℤ}

section
variable {t : Stores}

theorem Carries.of_same (hm : t.metadata = s.metadata) (he : t.queue.events = s.queue.events) :
    Carries s t where
  unique h := ⟨hm ▸ h.messages, hm ▸ h.contacts, he ▸ h.events⟩
  ids id h := by
    unfold eventIds
    rw [he]
    exact h
  pends ev hev _ := .inl (he ▸ hev)
  rows owner rowId h := by
    unfold HasMessage
    rw [hm]
    exact h

theorem Carries.trans {t u : Stores} (h : Carries s t) (h' : Carries t u) : Carries s u where
  unique hs := h'.unique (h.unique hs)
  ids id hid := h'.ids id (h.ids id hid)
  pends ev hev hp := by
    rcases h'.pends ev hev hp with hold | ⟨hnew, htarget⟩
    · rcases h.pends ev hold hp with hold' | ⟨hnew, rowId, hrow, hmsg⟩
      · exact .inl hold'
      · exact .inr ⟨hnew, rowId, hrow, h'.rows _ _ hmsg⟩
    · exact .inr ⟨fun hid => hnew (h.ids _ hid), htarget⟩
  rows owner rowId hs := h'.rows owner rowId (h.rows owner rowId hs)

theorem Carries.of_write (h : Write accountId (fun _ => False) s t) :
    Carries s t := by
  have hunique := h.unique
  have hrows : ∀ owner rowId, HasMessage owner rowId s → HasMessage owner rowId t :=
    fun owner rowId => h.hasMessage not_false
  cases h with
  | events h hpending =>
    refine ⟨hunique, fun id hid => ?_, fun ev hev hp => hpending ev hev hp, hrows⟩
    obtain ⟨ev, hev⟩ := isSome_iff_exists.mp ((findBy_isSome_iff ScheduledEvent.id).mpr hid)
    obtain ⟨ev', hev', -⟩ := h.keeps not_false hev
    exact (findBy_isSome_iff ScheduledEvent.id).mp (by rw [hev']; rfl)
  | _ => exact ⟨hunique, fun _ h => h, fun ev hev _ => .inl hev, hrows⟩

theorem Carries.of_writes (h : Writes accountId (fun _ => False) s t) :
    Carries s t :=
  Writes.relate (fun _ => .of_same rfl rfl) (fun _ _ _ => .trans) (fun _ _ => .of_write) h

theorem Carries.of_fires (h : Fires p s t) : Carries s t where
  unique := h.unique
  ids id hid := by
    unfold eventIds
    rw [h.eventIds]
    exact hid
  pends ev hev hp := .inl (h.pending ev hev hp)
  rows _ _ := h.hasMessage

theorem Carries.bound {t : Loop} (h : Carries w.stores t.stores) (hw : Bound w) :
    Bound (w.record t) :=
  hw.record (h.unique hw.unique) h.pends fun _ _ _ _ _ hmsg => h.rows _ _ hmsg

end

/-! ## What each action carries over -/

section
variable {id : Text}

theorem worker_carries {l t : Loop} {a : Queue.Act} (h : Queue.step P hostname l a = some t) :
    Carries l.stores t.stores :=
  have : IsTrans Stores Carries := ⟨fun _ _ _ => .trans⟩
  step_relates (fun _ _ => .of_same) (fun _ _ _ _ s => .of_writes (deliver_writes s))
    (fun _ ev s => .of_fires (fireEvent_fires ev s)) h

theorem emailDestroy_leaves (hid : emailRowId id = some rowId) (hleaves : leaves accountId rowId s)
    (hunique : Unique s) :
    Writes accountId (fun _ => False) s (emailDestroy accountId faults id s).2 := by
  unfold emailDestroy
  rw [hid]
  refine state_bind ?_ fun existing t hown => ?_
  · rw [ownMessage_state]
  · obtain ⟨rfl, hfound, howner⟩ := ownMessage_ok hown
    have hensure : Keeps (Writes accountId fun _ => False)
        ((onMetadata (ensureMailbox faults accountId .trash)).mapErr
          fun e => SetError.serverFail e.display) := Keeps.mapErr ensureMailbox_writes
    refine state_bind (hensure t) fun trash u htrash => ?_
    have hholds : Holds accountId rowId u :=
      Stable.step t u (hensure.run htrash) ⟨hunique, existing, hfound, howner⟩
    obtain ⟨b, hb, hother⟩ : ∃ b, mailboxOf accountId .trash t.metadata = some b ∧
        existing.mailboxId ≠ b.id := by
      simpa [leaves, hfound, howner, Option.any_eq_true] using hleaves
    obtain rfl := ensureMailbox_of_some hb (onMetadata_eq (mapErr_ok_iff.mp htrash)).1
    have hmoved : trashOrDelete faults rowId existing trash u =
        onMetadata (updateMessage faults rowId (some trash.id) none) u := by
      unfold trashOrDelete
      rw [ite_run, if_neg hother]
    rw [state_mapErr, hmoved]
    exact trans_of _ (hensure.run htrash) (updateMessage_writes rowId u hholds)

theorem emailDestroy_events (id : Text) :
    Keeps (Same fun s : Stores => s.queue.events) (emailDestroy accountId faults id) := by
  unfold emailDestroy
  cases emailRowId id with
  | none => exact .throw
  | some =>
    refine .bind (.of_state (ownMessage_state _)) fun existing => ?_
    refine .bind (.mapErr fun s => rfl) fun trash => .mapErr ?_
    exact .ite (.bind (fun s => rfl) fun _ s => rfl) fun s => rfl

theorem emailDestroy_bound (hid : emailRowId id = some rowId)
    (hfree : awaited rowId w.stores = false) (hw : Bound w) :
    Bound (w.record { w.loop with stores := (emailDestroy accountId faults id w.stores).2 }) := by
  have hwrites : Writes accountId (fun k => emailRowId id = some k) w.stores
      (emailDestroy accountId faults id w.stores).2 := emailDestroy_writes id w.stores hw.unique
  have hevents : (emailDestroy accountId faults id w.stores).2.queue.events =
      w.stores.queue.events := emailDestroy_events id w.stores
  refine hw.record (hwrites.unique hw.unique) (fun ev hev _ => .inl (hevents ▸ hev)) ?_
  intro ev hev hpending target htarget hmsg
  refine hwrites.hasMessage (fun hD => ?_) hmsg
  obtain rfl : rowId = target := some.inj (hid.symm.trans hD)
  have hawaited : awaited rowId w.stores :=
    any_eq_true.mpr ⟨ev, hev, by simp [hpending, htarget]⟩
  rw [hfree] at hawaited
  cases hawaited

theorem Bound.step {v : World} {a : Act} (hw : Bound w) (hspares : spares w a)
    (h : step P hostname w a = some v) : Bound v := by
  obtain ⟨t, ht, rfl⟩ := map_eq_some_iff.mp h
  cases a with
  | worker => exact (worker_carries ht).bound hw
  | deliver =>
    obtain rfl := some.inj ht
    exact Carries.bound (.of_writes (deliver_writes w.stores)) hw
  | draft _ _ _ _ req =>
    obtain rfl := some.inj ht
    exact Carries.bound (.of_writes (createDraft_writes req w.stores)) hw
  | update io _ id patch =>
    obtain rfl := some.inj ht
    exact Carries.bound (.of_writes (emailUpdate_writes io id patch w.stores hw.unique)) hw
  | destroy faults accountId id =>
    obtain rfl := some.inj ht
    cases hid : emailRowId id with
    | none =>
      have hsame : (emailDestroy accountId faults id w.stores).2 = w.stores := by
        unfold emailDestroy
        rw [hid]
        rfl
      exact Carries.bound (.of_same (congrArg Stores.metadata hsame)
        (congrArg (fun s => s.queue.events) hsame)) hw
    | some =>
      simp only [spares, hid, all_some, Bool.or_eq_true, Bool.not_eq_true'] at hspares
      rcases hspares with hleaves | hfree
      · exact Carries.bound (.of_writes (emailDestroy_leaves hid hleaves hw.unique)) hw
      · exact emailDestroy_bound hid hfree hw

theorem Bound.start (accounts : List Account) (domains : List Domain) :
    Bound (World.start accounts domains) where
  unique := ⟨nodup_nil, nodup_nil, nodup_nil⟩
  target := fun _ hev _ => absurd hev not_mem_nil

end

/-- In every run whose destroys spare the messages that pending events name: when the worker fires an
event, it changes at most messages of the event's account, and only the one, by insertion, that the
event was created for. -/
theorem timers_stay_within_account (P : Primitives) (hostname : Text) (accounts : List Account)
    (domains : List Domain) (acts : List Act) (w : World)
    (hrun : run (step P hostname) (World.start accounts domains) acts = some w)
    (hspares : Along (step P hostname) (fun w a => spares w a = true)
      (World.start accounts domains) acts)
    (query : Faults) (faults : ℕ → Faults) (now : ℤ) (before after : List ScheduledEvent)
    (ev : ScheduledEvent)
    (hdue : dueScheduledEvents query now w.stores.queue = before ++ ev :: after) :
    let s := fireAll faults 0 before w.stores
    let t := fireEvent (faults before.length) ev s
    ∃ f : StoredMessage → StoredMessage, t.metadata.messages = s.metadata.messages.map f ∧
      ∀ m ∈ s.metadata.messages, f m ≠ m →
        m.accountId = ev.accountId ∧ w.boundTo ev.id = some (w.inserted m.id) := by
  intro s t
  have hbound : Bound w := run_invariant (fun _ _ _ hw hG hstep => hw.step hG hstep)
    (Bound.start accounts domains) hspares hrun
  have hev : ev ∈ w.stores.queue.events ∧ ev.state = .pending := by
    have hmem : ev ∈ dueScheduledEvents query now w.stores.queue := by
      rw [hdue]
      simp
    unfold dueScheduledEvents at hmem
    split at hmem
    · obtain ⟨hmem, hcond⟩ := mem_filter.mp hmem
      simp only [Bool.and_eq_true, beq_iff_eq] at hcond
      exact ⟨hmem, hcond.1⟩
    · cases hmem
  obtain ⟨rowId, hrow, hmsg, hbinds⟩ := hbound.target ev hev.1 hev.2
  have hbefore : Fires (fun _ => True) w.stores s := fireAll_fires faults 0 before w.stores
  have hfires : Fires (fun id => scheduledMessageRowId ev = some id) s t := fireEvent_fires ev s
  obtain ⟨f, hf, hchange⟩ := hfires.messages
  refine ⟨f, hf, fun m hm hne => ?_⟩
  have hid : m.id = rowId := some.inj (((hchange m).2.2 hne).symm.trans hrow)
  refine ⟨(hbefore.hasMessage hmsg).owns (hbefore.unique hbound.unique) hm hid, ?_⟩
  rw [hid]
  exact hbinds

/-! Account 1 sets a nudge on its message and deletes it; account 2 receives one. -/

def sampleDelivery (accountId : ℤ) : Act :=
  .deliver sampleDraw { id := accountId, accountPub := [1], keyId := 1 }
    { mailFrom := "carol@example.net", rcptTo := "box@example.com"
      remoteIp := "203.0.113.5" }
    { spf := "pass", dkim := "pass", dmarc := "pass" }
    (utf8 "\r\nhi\r\n") 1700000000 none .default

def sampleNudge (accountId : ℤ) (id : String) : Act :=
  .update { faults := .none, entries := fun _ => .none } accountId id.toList
    [("nudgeAt", .int 1700000100)]

def sampleDelete (accountId : ℤ) (id : String) : List Act :=
  [.destroy .none accountId id.toList, .destroy .none accountId id.toList]

def sampleReused : List Act :=
  [sampleDelivery 1, sampleNudge 1 "m1"] ++ sampleDelete 1 "m1" ++
    [sampleDelivery 2, .worker (.reap .none 1700000200), .worker (.expire .none 1700000200)]

def sampleRows (s : Stores) : List (ℤ × ℤ × String) :=
  s.metadata.messages.map fun m => (m.id, m.accountId, String.ofList m.keywords)

theorem timer_outlives_its_message :
    (run (step samplePrimitives sampleHost) (World.start [] []) sampleReused).map (fun w =>
      (sampleRows w.stores,
        (dueScheduledEvents .none 1700000200 w.stores.queue).map ScheduledEvent.accountId,
        sampleRows (fireDueScheduledEvents .none (fun _ => .none) 1700000200 w.stores))) =
      some ([(1, 2, "")], [1], [(1, 2, "$nudge")]) := by
  decide +kernel

/-- Account 2 deletes its own message, which no event names; the next one gets its row id. -/
def sampleSpared : List Act :=
  [sampleDelivery 1, sampleNudge 1 "m1", sampleDelivery 2] ++ sampleDelete 2 "m2" ++
    [sampleDelivery 2, .worker (.reap .none 1700000200), .worker (.expire .none 1700000200)]

theorem timers_stay_within_account_spared :
    ∃ w ev, run (step samplePrimitives sampleHost) (World.start [] []) sampleSpared = some w ∧
      dueScheduledEvents .none 1700000200 w.stores.queue = [ev] ∧
      sampleRows (fireEvent .none ev w.stores) = [(1, 1, "$nudge"), (2, 2, "")] ∧
      ∃ f : StoredMessage → StoredMessage,
        (fireEvent .none ev w.stores).metadata.messages = w.stores.metadata.messages.map f ∧
        ∀ m ∈ w.stores.metadata.messages, f m ≠ m →
          m.accountId = ev.accountId ∧ w.boundTo ev.id = some (w.inserted m.id) := by
  have hspares : Along (step samplePrimitives sampleHost) (fun w a => spares w a = true)
      (World.start [] []) sampleSpared := by decide +kernel
  have hends : ((run (step samplePrimitives sampleHost) (World.start [] []) sampleSpared).map
      fun w => (dueScheduledEvents .none 1700000200 w.stores.queue).map fun ev =>
        sampleRows (fireEvent .none ev w.stores)) = some [[(1, 1, "$nudge"), (2, 2, "")]] := by
    decide +kernel
  obtain ⟨w, hrun, hfired⟩ := map_eq_some_iff.mp hends
  obtain ⟨ev, hdue, hrows⟩ := map_eq_singleton_iff.mp hfired
  exact ⟨w, ev, hrun, hdue, hrows, timers_stay_within_account samplePrimitives sampleHost [] []
    sampleSpared w hrun hspares .none (fun _ => .none) 1700000200 [] [] ev hdue⟩

end Litterae.Timers
