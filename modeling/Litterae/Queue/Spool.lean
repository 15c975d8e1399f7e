import Litterae.Queue.Lifecycle

/-! # The content of queued messages

An enqueue writes the signed message before its rows exist, and the cleanup of the worker counts the
references to a blob before it removes it. Nothing holds the two together: with an enqueue of the
same bytes between count and removal, the blob goes and its new rows stay (`spool_race`).
-/

namespace Litterae.Queue
open Foundations Store Delivery List

/-! ## References to a blob -/

def Active (q : QueueStore) (b : Text) : Prop :=
  ∃ r ∈ q.rcpts, r.state.isTerminal = false ∧
    ∃ o ∈ q.outbound, o.id = r.outboundId ∧ o.messageBlob = b

variable {faults : Faults} {b : Text}

theorem noActiveReference_iff {q : QueueStore} :
    noActiveReference faults b q ↔ faults .countActive = none ∧ ¬ Active q b := by
  unfold noActiveReference Active
  simp only [Bool.and_eq_true, decide_eq_true_eq, all_eq_true, Bool.or_eq_true,
    Bool.not_eq_true', any_eq_false, beq_iff_eq, not_and, not_exists]
  refine and_congr_right fun _ => forall₂_congr fun r _ => ?_
  cases r.state.isTerminal <;> simp

section
variable {P : Primitives} {hostname : Text} {s t : Loop} {a : Act}

/-! ## What an action does to a file -/

inductive FileStep (P : Primitives) (hostname : Text) (s t : Loop) (b : Text) : Act → Prop where
  | same (a : Act) (h : t.stores.blobs.file b = s.stores.blobs.file b) : FileStep P hostname s t b a
  | written {faults : Faults} {sign : DomainKey → Bytes → Except Error Text}
      {domainKey : DomainKey} {new : NewOutbound} {header : Text}
      (hsign : sign domainKey new.rawMessage = .ok header)
      (hname : b = hashHex P (utf8 header ++ new.rawMessage))
      (hstays : (s.stores.blobs.file b).isSome = true → (t.stores.blobs.file b).isSome = true) :
      FileStep P hostname s t b (.write faults sign domainKey new)
  /-- A notification was delivered. -/
  | mailed {io : FinalizeIo} {outbound : OutboundMessage} {rcpt : ClaimedRcpt} {outcome : Outcome}
      {todo : List (ClaimedRcpt × Outcome)} {us : List DeliveryUnit} {c : Bytes}
      (hpc : s.pc = .finalize outbound ((rcpt, outcome) :: todo) us)
      (hsealed : c ∈ sealedNotice P hostname io outbound rcpt outcome) (hname : b = hashHex P c)
      (hstays : (s.stores.blobs.file b).isSome = true → (t.stores.blobs.file b).isSome = true) :
      FileStep P hostname s t b (.finalize io)
  | removed {faults : Faults} {outbound : OutboundMessage} {todo : List (ClaimedRcpt × Outcome)}
      {us : List DeliveryUnit} (hpc : s.pc = .remove outbound todo us)
      (hname : outbound.messageBlob = b) (hfile : faults .blobRemove = none)
      (hgone : t.stores.blobs.file b = none) : FileStep P hostname s t b (.remove faults)

theorem enqueueWrite_file {sign : DomainKey → Bytes → Except Error Text} {domainKey : DomainKey}
    {new : NewOutbound} {r : Res Error Text} {stores : Stores}
    (hwrite : enqueueWrite P faults sign domainKey new s.stores = (r, stores))
    (ht : t.stores = stores) : FileStep P hostname s t b (.write faults sign domainKey new) := by
  rcases enqueueWrite_cases P faults sign domainKey new s.stores with
    ⟨hsame, -⟩ | ⟨-, header, hsign, hrun⟩
  · rw [hwrite] at hsame
    obtain rfl : stores = s.stores := hsame
    exact .same _ (by rw [ht])
  · rw [hrun, onBlobs_run, Prod.mk.injEq] at hwrite
    obtain ⟨-, rfl⟩ := hwrite
    obtain ⟨hother, hstays⟩ :=
      write_file P faults (utf8 header ++ new.rawMessage) s.stores.blobs b
    by_cases hname : b = hashHex P (utf8 header ++ new.rawMessage)
    · exact .written hsign hname fun h => by rw [ht]; exact hstays h
    · exact .same _ (by rw [ht]; exact hother hname)

theorem step_file (h : step P hostname s a = some t) : FileStep P hostname s t b a := by
  cases taken_of_step h with
  | written hwrite | notWritten hwrite => exact enqueueWrite_file hwrite rfl
  | inserted => exact .same _ rfl
  | worker hw =>
    cases hw with
    | reap | expire | claim | count => exact .same _ rfl
    | fire => exact .same _ (by rw [(fireDueScheduledEvents_eventsOnly _ _ _ s.stores).blobs])
    | @unit io u us hpc =>
      refine .same _ ?_
      unfold unitStep
      split
      · rfl
      · split
        · rfl
        · simp only [Loop.setCooldown]
          split <;> rfl
    | @finalize io outbound rcpt outcome todo us hpc =>
      obtain ⟨hfile, hstays⟩ := settle_mail P hostname io outbound rcpt outcome s.stores
      by_cases hsealed : ∃ c ∈ sealedNotice P hostname io outbound rcpt outcome, b = hashHex P c
      · obtain ⟨c, hc, hname⟩ := hsealed
        exact .mailed hpc hc hname (hstays b)
      · exact .same _ (hfile b fun c hc hname => hsealed ⟨c, hc, hname⟩)
    | @remove faults outbound todo us hpc =>
      by_cases hname : outbound.messageBlob = b
      · subst hname
        by_cases hgone : (validHash outbound.messageBlob ∧ faults .blobRemove = none)
        · refine .removed hpc rfl hgone.2 ?_
          simp [onBlobs_run, remove_run, hgone.1, hgone.2]
        · refine .same _ ?_
          simp only [onBlobs_run, remove_run]
          split
          · next hvalid =>
            split
            · rfl
            · next hnone => exact absurd ⟨hvalid, hnone⟩ hgone
          · rfl
      · refine .same _ ?_
        simp only [onBlobs_run, remove_run]
        split
        · split
          · rfl
          · simp [Ne.symm hname]
        · rfl

/-! ## Who refers to a blob after an action -/

theorem active_of_step (hS : Sound s) (h : step P hostname s a = some t) (hb : Active t.queue b) :
    Active s.queue b ∨ ∃ k faults now, a = .insert k faults now ∧
      ∃ e ∈ s.inflight[k]?, e.messageBlob = b := by
  obtain ⟨f, news, newMessages, htables⟩ := step_tables hS.tables h
  have hT := htables.tables hS.tables
  obtain ⟨r', hr', hstate, o, ho, howner, hblob⟩ := hb
  rcases htables.row hr' with ⟨r, hr, rfl⟩ | hnew
  · left
    have hchange := htables.change r hr
    rw [hchange.columns.2.1] at howner
    refine ⟨r, hr, ?_, o, htables.old_message hS hr ho howner, howner, hblob⟩
    rw [Bool.eq_false_iff]
    intro hterm
    rw [hchange.eq_of_terminal hS hr hterm, hterm] at hstate
    cases hstate
  · right
    rcases htables.added with ⟨rfl, -⟩ | ⟨k, faults, now, o', hact, hmessages, hins⟩
    · cases hnew
    · have ho' : o' ∈ t.queue.outbound := by
        rw [htables.outbound, hmessages]
        simp
      obtain rfl : o = o' := inj_on_of_nodup_map hT.outboundIds ho ho'
        (howner.trans (hins.rows r' hnew).1)
      obtain ⟨e, he, heq⟩ := hins.blob
      exact ⟨k, faults, now, hact, e, he, heq.symm.trans hblob⟩

theorem inflight_of_step (h : step P hostname s a = some t) {e : Inflight} (he : e ∈ t.inflight) :
    e ∈ s.inflight ∨ ∃ faults sign domainKey header, a = .write faults sign domainKey e.new ∧
      invalidEnvelope e.new = false ∧ sign domainKey e.new.rawMessage = .ok header ∧
      e.messageBlob = hashHex P (utf8 header ++ e.new.rawMessage) ∧
      (t.stores.blobs.file e.messageBlob).isSome := by
  cases taken_of_step h with
  | @written faults sign domainKey new hash stores hwrite =>
    rcases mem_append.mp he with hold | hnew
    · exact .inl hold
    · obtain rfl := mem_singleton.mp hnew
      rcases enqueueWrite_cases P faults sign domainKey new s.stores with
        ⟨-, hfailed⟩ | ⟨henv, header, hsign, hrun⟩
      · rw [hwrite] at hfailed
        cases hfailed
      · rw [hrun] at hwrite
        obtain ⟨hname, hstored⟩ := write_ok (onBlobs_eq hwrite).1
        exact .inr ⟨faults, sign, domainKey, header, rfl, henv, hsign, hname, hstored⟩
  | notWritten => exact .inl he
  | inserted => exact .inl (mem_of_mem_eraseIdx he)
  | worker hw =>
    left
    cases hw with
    | @unit io u us hpc =>
      unfold unitStep at he
      split at he
      · exact he
      · split at he
        · exact he
        · simp only [Loop.setCooldown] at he
          split at he <;> exact he
    | _ => exact he

/-! ## Content is kept where removals meet no enqueue -/

/-- The blobs needed by recipients, and by enqueues that are to insert their rows, are there. -/
structure Kept (s : Loop) : Prop where
  rows : ∀ b, Active s.queue b → (s.stores.blobs.file b).isSome = true
  flights : ∀ e ∈ s.inflight, (s.stores.blobs.file e.messageBlob).isSome = true

/-- When the blob is removed, no recipient needs it and no enqueue has written the same bytes
without having inserted its rows. -/
def RemovesUnused (s : Loop) (a : Act) : Prop :=
  match s.pc, a with
  | .remove outbound _ _, .remove faults => faults .blobRemove = none →
    noActiveReference .none outbound.messageBlob s.queue = true ∧
      ∀ e ∈ s.inflight, e.messageBlob ≠ outbound.messageBlob
  | _, _ => True

instance (s : Loop) (a : Act) : Decidable (RemovesUnused s a) :=
  decidable_of_iff
    ((match s.pc, a with
      | .remove outbound _ _, .remove faults => decide (faults .blobRemove = none →
        noActiveReference .none outbound.messageBlob s.queue = true ∧
          ∀ e ∈ s.inflight, e.messageBlob ≠ outbound.messageBlob)
      | _, _ => true) = true)
    (by
      unfold RemovesUnused
      split
      · exact decide_eq_true_iff
      · exact iff_of_true rfl trivial)

/-- No enqueue of the same bytes comes between a count and the removal: none inserts its rows there,
and none is to insert them when the file is removed. -/
def Undisturbed (s : Loop) (a : Act) : Prop :=
  match s.pc, a with
  | .remove outbound _ _, .insert k _ _ =>
    ∀ e ∈ s.inflight[k]?, e.messageBlob ≠ outbound.messageBlob
  | .remove outbound _ _, .remove _ => ∀ e ∈ s.inflight, e.messageBlob ≠ outbound.messageBlob
  | _, _ => True

/-- What the count has found is still so at the removal. -/
def CountHolds (s : Loop) : Prop :=
  ∀ outbound todo us, s.pc = .remove outbound todo us → ¬ Active s.queue outbound.messageBlob

theorem CountHolds.step (hC : CountHolds s) (hS : Sound s) (hguard : Undisturbed s a)
    (h : step P hostname s a = some t) : CountHolds t := by
  intro outbound todo us hpc hactive
  have hsame : s.pc ≠ .remove outbound todo us := by
    intro hpc
    rcases active_of_step hS h hactive with hold | ⟨k, _, _, rfl, e, he, heq⟩
    · exact hC _ _ _ hpc hold
    · simp only [Undisturbed, hpc] at hguard
      exact hguard e he heq
  have hnext : ∀ us', Pc.next us' ≠ .remove outbound todo us := by rintro (_ | _) <;> nofun
  have hafter : ∀ o todo' us', Pc.after o todo' us' ≠ .remove outbound todo us := by
    rintro _ (_ | _) us'
    · exact hnext us'
    · nofun
  cases taken_of_step h with
  | written | notWritten | inserted => exact hsame hpc
  | worker hw =>
    cases hw with
    | reap | expire | fire => cases hpc
    | claim => exact hnext _ hpc
    | unit =>
      unfold unitStep at hpc
      repeat' split at hpc
      · exact hnext _ hpc
      · exact hnext _ hpc
      · exact hafter _ _ _ hpc
    | finalize =>
      simp only [finalizeStep] at hpc
      split at hpc <;> cases hpc
    | count =>
      simp only at hpc
      split at hpc
      · next hcount =>
        cases hpc
        exact (noActiveReference_iff.mp hcount).2 hactive
      · exact hafter _ _ _ hpc
    | remove => exact hafter _ _ _ hpc

/-- Where no enqueue of the same bytes comes in between, the count of the code is enough. -/
theorem removesUnused_of_undisturbed {as : List Act} (hC : CountHolds s) (hS : Sound s)
    (h : Along (step P hostname) Undisturbed s as) : Along (step P hostname) RemovesUnused s as := by
  induction as generalizing s with
  | nil => trivial
  | cons a _ ih =>
    refine ⟨?_, fun t ht => ih (hC.step hS h.1 ht) (hS.step ht) (h.2 t ht)⟩
    have hguard := h.1
    unfold RemovesUnused
    split
    · next outbound todo us faults hpc =>
      simp only [Undisturbed, hpc] at hguard
      exact fun _ => ⟨noActiveReference_iff.mpr ⟨rfl, hC _ _ _ hpc⟩, hguard⟩
    · trivial

theorem Kept.stays (h : step P hostname s a = some t) (hguard : RemovesUnused s a)
    (hneeded : Active s.queue b ∨ ∃ e ∈ s.inflight, e.messageBlob = b)
    (hb : (s.stores.blobs.file b).isSome) : (t.stores.blobs.file b).isSome := by
  cases step_file h with
  | same _ hsame => rwa [hsame]
  | written _ _ hstays | mailed _ _ _ hstays => exact hstays hb
  | removed hpc hname hfile =>
    subst hname
    simp only [RemovesUnused, hpc] at hguard
    obtain ⟨hcount, hnone⟩ := hguard hfile
    rcases hneeded with hactive | ⟨e, he, heq⟩
    · exact absurd hactive (noActiveReference_iff.mp hcount).2
    · exact absurd heq (hnone e he)

theorem Kept.step (hK : Kept s) (hS : Sound s) (hguard : RemovesUnused s a)
    (h : step P hostname s a = some t) : Kept t := by
  refine ⟨fun b hb => ?_, fun e he => ?_⟩
  · rcases active_of_step hS h hb with hactive | ⟨k, _, _, -, e, he, rfl⟩
    · exact Kept.stays h hguard (.inl hactive) (hK.rows b hactive)
    · have he := mem_of_getElem? he
      exact Kept.stays h hguard (.inr ⟨e, he, rfl⟩) (hK.flights e he)
  · rcases inflight_of_step h he with hold | ⟨faults, sign, domainKey, header, -, -, -, -, hstored⟩
    · exact Kept.stays h hguard (.inr ⟨e, hold, rfl⟩) (hK.flights e hold)
    · exact hstored

end

/-- Every recipient that is ready, deferred or claimed belongs to a message whose blob is stored. -/
def ContentPresent (s : Stores) : Prop :=
  ∀ r ∈ s.queue.rcpts, r.state.isTerminal = false →
    ∃ o ∈ s.queue.outbound, o.id = r.outboundId ∧ (s.blobs.file o.messageBlob).isSome = true

theorem active_present {s : Stores} (hT : Tables s.queue) (h : ContentPresent s)
    (hb : Active s.queue b) : (s.blobs.file b).isSome := by
  obtain ⟨r, hr, hstate, o, ho, howner, rfl⟩ := hb
  obtain ⟨o', ho', howner', hstored⟩ := h r hr hstate
  rwa [inj_on_of_nodup_map hT.outboundIds ho ho' (howner.trans howner'.symm)]

/-- Through every interleaving of enqueues with the worker in which no removal meets an enqueue of the
same bytes, no queued message loses its content. -/
theorem queued_content_present (P : Primitives) (hostname : Text) (stores : Stores) (as : List Act)
    (t : Loop) (hT : Tables stores.queue) (hstart : ContentPresent stores)
    (hguard : Along (step P hostname) RemovesUnused (Loop.start stores) as)
    (hrun : run (step P hostname) (Loop.start stores) as = some t) : ContentPresent t.stores := by
  have hkept : Kept (Loop.start stores) :=
    ⟨fun b hb => active_present hT hstart hb, fun e he => absurd he not_mem_nil⟩
  have hinv : Sound t ∧ Kept t := by
    refine run_invariant (I := fun u => Sound u ∧ Kept u) ?_ ⟨start_sound hT, hkept⟩ hguard hrun
    rintro u a v ⟨hS, hK⟩ hG hstep
    exact ⟨hS.step hstep, hK.step hS hG hstep⟩
  obtain ⟨hS, hK⟩ := hinv
  intro r hr hstate
  obtain ⟨o, ho, howner⟩ := mem_map.mp (hS.tables.owned r hr)
  exact ⟨o, ho, howner, hK.rows _ ⟨r, hr, hstate, o, ho, howner, rfl⟩⟩

def sampleShared : List Act :=
  sampleEnqueue 1700000000 ++ sampleRound 1700000000 [1] ++ sampleEnqueue 1700000000 ++
    sampleSend 1700000000 ++ [.count .none]

theorem queued_content_present_shared :
    ∃ t, run (step samplePrimitives sampleHost) (Loop.start sampleStores) sampleShared = some t ∧
      (t.queue.rcpts.map fun r => r.state) = [.failed, .ready] ∧ ContentPresent t.stores := by
  have hends : ((run (step samplePrimitives sampleHost) (Loop.start sampleStores) sampleShared).map
      fun t => t.queue.rcpts.map fun r => r.state) = some [.failed, .ready] := by decide +kernel
  obtain ⟨t, hrun, hstates⟩ := Option.map_eq_some_iff.mp hends
  refine ⟨t, hrun, hstates, queued_content_present _ _ _ _ t ⟨by decide, by decide, by decide⟩ ?_ ?_ hrun⟩
  · intro r hr
    cases hr
  · decide +kernel

def sampleRace : List Act :=
  sampleEnqueue 1700000000 ++ sampleRound 1700000000 [1] ++ sampleSend 1700000000 ++
    [.count .none] ++ sampleEnqueue 1700000000 ++ [.remove .none]

/-- Its recipient is ready, and the message is gone. -/
theorem spool_race :
    (run (step samplePrimitives sampleHost) (Loop.start sampleStores) sampleRace).map (fun t =>
        (t.queue.rcpts.map fun r => (r.state, r.outboundId),
          t.queue.outbound.map fun o => (o.id, (t.stores.blobs.file o.messageBlob).isSome))) =
      some ([(.failed, 1), (.ready, 2)], [(1, false), (2, false)]) := by
  decide +kernel

end Litterae.Queue
