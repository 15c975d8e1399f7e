import Litterae.Queue.Loop

/-! # The batch the worker holds

None of the worker's updates by id checks the state of the row it changes. That they hit claimed
rows only rests on the batch in memory agreeing with the table: `Sound`, an invariant of every step
that needs no statement to succeed.
-/

namespace Litterae.Queue
open Foundations Function List

section
variable {P : Primitives} {hostname : Text} {s t : Loop} {a : Act} {us : List DeliveryUnit}
  {r : OutboundRecipient} {faults : Faults} {o : OutboundMessage} {rcpts : List ClaimedRcpt}
  {todo : List (ClaimedRcpt × Outcome)} {q : QueueStore} {io : SendIo} {u : DeliveryUnit}
  {order : List ℤ}

/-! ## The tables -/

theorem settledRow_columns (io : FinalizeIo) (outbound : OutboundMessage) (rcpt : ClaimedRcpt)
    (outcome : Outcome) (r : OutboundRecipient) :
    (settledRow io outbound rcpt outcome r).id = r.id ∧
      (settledRow io outbound rcpt outcome r).outboundId = r.outboundId ∧
      (settledRow io outbound rcpt outcome r).rcptTo = r.rcptTo ∧
      (settledRow io outbound rcpt outcome r).dsnNotify = r.dsnNotify := by
  unfold settledRow
  simp only
  split <;> split <;> exact ⟨rfl, rfl, rfl, rfl⟩

theorem Change.columns {r r' : OutboundRecipient} (h : Change s a r r') :
    r'.id = r.id ∧ r'.outboundId = r.outboundId ∧ r'.rcptTo = r.rcptTo ∧
      r'.dsnNotify = r.dsnNotify := by
  cases h with
  | settled => exact settledRow_columns _ _ _ _ r
  | _ => exact ⟨rfl, rfl, rfl, rfl⟩

variable {f : OutboundRecipient → OutboundRecipient} {news : List OutboundRecipient}
  {newMessages : List OutboundMessage}

section
variable (h : TableStep s a t f news newMessages)
include h

theorem TableStep.map_id :
    (s.queue.rcpts.map f).map OutboundRecipient.id = s.queue.rcpts.map OutboundRecipient.id := by
  rw [map_map]
  exact map_congr_left fun r hr => (h.change r hr).columns.1

theorem TableStep.row {r' : OutboundRecipient} (hr' : r' ∈ t.queue.rcpts) :
    (∃ r ∈ s.queue.rcpts, f r = r') ∨ r' ∈ news := by
  rw [h.rcpts] at hr'
  rcases mem_append.mp hr' with hold | hnew
  · exact .inl (mem_map.mp hold)
  · exact .inr hnew

theorem TableStep.mem (hr : r ∈ s.queue.rcpts) : f r ∈ t.queue.rcpts := by
  rw [h.rcpts]
  exact mem_append_left _ (mem_map_of_mem hr)

theorem TableStep.tables (hT : Tables s.queue) : Tables t.queue := by
  have hkept : ∀ r' ∈ s.queue.rcpts.map f,
      r'.outboundId ∈ s.queue.outbound.map OutboundMessage.id := by
    intro r' hr'
    obtain ⟨r, hr, rfl⟩ := mem_map.mp hr'
    rw [(h.change r hr).columns.2.1]
    exact hT.owned r hr
  rcases h.added with ⟨rfl, rfl⟩ | ⟨k, faults, now, o, -, rfl, hnew⟩
  · refine ⟨?_, ?_, ?_⟩
    · rw [h.rcpts, append_nil, h.map_id]
      exact hT.rcptIds
    · rw [h.outbound, append_nil]
      exact hT.outboundIds
    · rw [h.rcpts, h.outbound, append_nil, append_nil]
      exact hkept
  · refine ⟨?_, ?_, ?_⟩
    · have hnodup := hnew.rcptIds hT.rcptIds
      rwa [map_append, ← h.map_id, ← map_append, ← h.rcpts] at hnodup
    · rw [h.outbound]
      exact nodup_insert OutboundMessage.id hT.outboundIds hnew.outboundId
    · intro r' hr'
      rw [h.outbound, map_append]
      rw [h.rcpts] at hr'
      rcases mem_append.mp hr' with hold | hin
      · exact mem_append_left _ (hkept r' hold)
      · rw [(hnew.rows r' hin).1]
        simp

end

/-! ## The batch in memory -/

def Pc.message : Pc → Option OutboundMessage
  | .finalize outbound _ _ | .count outbound _ _ | .remove outbound _ _ => some outbound
  | _ => none

def Pc.heldIds (pc : Pc) : List ℤ := ids (pc.pending.map Prod.snd)

/-- The batch in memory agrees with the table: its rows are distinct, claimed, and as they were when
they were claimed. -/
structure Sound (s : Loop) : Prop where
  tables : Tables s.queue
  nodup : s.pc.heldIds.Nodup
  held : ∀ p ∈ s.pc.pending, ∃ r ∈ s.queue.rcpts, claimedRcpt r = p ∧ r.state = .claimed
  message : ∀ o, s.pc.message = some o → o ∈ s.queue.outbound

theorem Sound.congr (h : Sound s) (hrcpts : t.queue.rcpts = s.queue.rcpts)
    (houtbound : t.queue.outbound = s.queue.outbound) (hpc : t.pc = s.pc) : Sound t where
  tables := ⟨hrcpts ▸ h.tables.rcptIds, houtbound ▸ h.tables.outboundIds,
    hrcpts ▸ houtbound ▸ h.tables.owned⟩
  nodup := hpc ▸ h.nodup
  held := hpc ▸ hrcpts ▸ h.held
  message := hpc ▸ houtbound ▸ h.message

theorem Sound.row (h : Sound s) {id : ℤ} (hid : id ∈ s.pc.heldIds) :
    ∃ r ∈ s.queue.rcpts, r.id = id ∧ r.state = .claimed := by
  simp only [Pc.heldIds, ids, map_map, mem_map] at hid
  obtain ⟨p, hp, rfl⟩ := hid
  obtain ⟨r, hr, rfl, hstate⟩ := h.held p hp
  exact ⟨r, hr, rfl, hstate⟩

theorem Sound.claimed (h : Sound s) (hr : r ∈ s.queue.rcpts) (hid : r.id ∈ s.pc.heldIds) :
    r.state = .claimed := by
  obtain ⟨r₀, hr₀, hid₀, hstate⟩ := h.row hid
  rwa [← inj_on_of_nodup_map h.tables.rcptIds hr₀ hr hid₀]

theorem TableStep.old_message (h : TableStep s a t f news newMessages) (hS : Sound s)
    (hr : r ∈ s.queue.rcpts) (ho : o ∈ t.queue.outbound) (howner : o.id = r.outboundId) :
    o ∈ s.queue.outbound := by
  have hT := h.tables hS.tables
  obtain ⟨o₀, ho₀, hid⟩ := mem_map.mp (hS.tables.owned r hr)
  have hmem : o₀ ∈ t.queue.outbound := by
    rw [h.outbound]
    exact mem_append_left _ ho₀
  rwa [inj_on_of_nodup_map hT.outboundIds ho hmem (howner.trans hid.symm)]

/-- The statements a recipient's life rests on: the lookup of a unit's message, the updates of
`release_to_ready` and those of `finalize`. -/
def Act.SqlSucceeds : Act → Prop
  | .unit io => io.faults .loadOutbound = none ∧ ∀ i, io.faults (.releaseUpdate i) = none
  | .finalize io => io.faults .finalizeUpdate = none ∧ io.faults .delayedUpdate = none
  | _ => True

/-- What an action other than a claim does to the batch: `done` leaves it and the rows of `done` are
claimed no more; the rows that stay are untouched. -/
structure Advance (s : Loop) (a : Act) (t : Loop) (done : List (ℤ × ClaimedRcpt)) : Prop where
  act : ∀ faults now order units, a ≠ .claim faults now order units
  split : s.pc.pending = done ++ t.pc.pending
  kept : ∀ r r', Change s a r r' → r.id ∈ s.pc.heldIds → r' = r ∨ r.id ∈ ids (done.map Prod.snd)
  left : a.SqlSucceeds → ∀ r ∈ t.queue.rcpts, r.id ∈ ids (done.map Prod.snd) → r.state ≠ .claimed
  message : ∀ o, t.pc.message = some o → s.pc.message = some o ∨ o ∈ s.queue.outbound

theorem Advance.quiet (hact : ∀ faults now order units, a ≠ .claim faults now order units)
    (hpending : t.pc.pending = s.pc.pending)
    (hmessage : ∀ o, t.pc.message = some o → s.pc.message = some o)
    (hkept : ∀ r r', Change s a r r' → r.id ∈ s.pc.heldIds → r' = r) : Advance s a t [] where
  act := hact
  split := hpending.symm
  kept r r' h hid := .inl (hkept r r' h hid)
  left _ _ _ h := absurd h not_mem_nil
  message o ho := .inl (hmessage o ho)

theorem Pc.next_message (us : List DeliveryUnit) : (Pc.next us).message = none := by
  cases us <;> rfl

theorem Pc.after_message {outbound o : OutboundMessage}
    (h : (Pc.after outbound todo us).message = some o) : o = outbound := by
  cases todo with
  | nil =>
    rw [Pc.after, Pc.next_message] at h
    cases h
  | cons => exact (Option.some.inj h).symm

theorem loadOutbound_some {outboundId : ℤ} (h : loadOutbound faults outboundId q = some o) :
    o ∈ q.outbound ∧ o.id = outboundId := by
  unfold loadOutbound at h
  split at h
  · exact findBy_some OutboundMessage.id h
  · cases h

theorem zip_pending {β : Type} {oid : ℤ} {outcomes : List β} (h : outcomes.length = rcpts.length) :
    (rcpts.zip outcomes).map (fun p => (oid, p.1)) = rcpts.map fun r => (oid, r) := by
  have hfst : (rcpts.zip outcomes).map Prod.fst = rcpts := map_fst_zip h.ge
  calc (rcpts.zip outcomes).map (fun p => (oid, p.1))
      = ((rcpts.zip outcomes).map Prod.fst).map (fun r => (oid, r)) := by
        rw [map_map, comp_def]
    _ = rcpts.map fun r => (oid, r) := by rw [hfst]

theorem Sound.loadOutbound (h : Sound s) (hpc : s.pc = .units (u :: us))
    (hfound : io.faults .loadOutbound = none) (hrcpts : u.rcpts ≠ []) :
    (loadOutbound io.faults u.outboundId s.queue).isSome := by
  obtain ⟨rcpt, rest, hcons⟩ := exists_cons_of_ne_nil hrcpts
  have hmem : (u.outboundId, rcpt) ∈ s.pc.pending := by
    rw [hpc]
    simp [Pc.pending, DeliveryUnit.claims, hcons]
  obtain ⟨r, hr, hclaim, -⟩ := h.held _ hmem
  have howner : r.outboundId = u.outboundId := congrArg Prod.fst hclaim
  rw [Queue.loadOutbound, if_pos hfound, findBy_isSome_iff, ← howner]
  exact h.tables.owned r hr

theorem released_left (hok : ∀ i, faults (.releaseUpdate i) = none)
    (hr : r ∈ (releaseToReady faults 0 rcpts q).rcpts) (hid : r.id ∈ ids rcpts) :
    r.state ≠ .claimed := by
  obtain ⟨f, hf, hrow, hall⟩ := @releaseToReady_eq faults 0 rcpts q
  rw [hf] at hr
  obtain ⟨r₀, -, rfl⟩ := mem_map.mp hr
  have hsame : (f r₀).id = r₀.id := by
    rcases hrow r₀ with h | ⟨-, h⟩
    · rw [h]
    · rw [h]
      rfl
  rw [hall hok r₀ (hsame ▸ hid)]
  nofun

theorem unitStep_advance (hS : Sound s) (hpc : s.pc = .units (u :: us)) :
    ∃ done, Advance s (.unit io) (unitStep P io u us s) done := by
  have hpending : s.pc.pending = u.claims ++ us.flatMap DeliveryUnit.claims := by
    rw [hpc]
    rfl
  have hdone : ids (u.claims.map Prod.snd) = ids u.rcpts := by
    simp [ids, DeliveryUnit.claims, comp_def]
  have hkept : ∀ r r', Change s (.unit io) r r' →
      r' = r ∨ (s.isCoolingDown io.instant u.domain ∧ r.id ∈ ids u.rcpts) := by
    intro r r' h
    cases h with
    | keep => exact .inl rfl
    | released hpc' hcooling hmem =>
      rw [hpc] at hpc'
      cases hpc'
      exact .inr ⟨hcooling, hmem⟩
  have hnext : ∀ o, (Pc.next us).message = some o → s.pc.message = some o ∨ o ∈ s.queue.outbound := by
    intro o ho
    rw [Pc.next_message] at ho
    cases ho
  unfold unitStep
  split
  · refine ⟨u.claims, by simp, by simp [hpending], ?_, ?_, hnext⟩
    · exact fun r r' h _ => hdone ▸ (hkept r r' h).imp_right And.right
    · exact fun hsql r hr hid => released_left hsql.2 hr (hdone ▸ hid)
  · next hcooling =>
    have hsame : ∀ r r', Change s (.unit io) r r' → r' = r := fun r r' h =>
      (hkept r r' h).resolve_right fun hc => hcooling hc.1
    split
    · next hnone =>
      refine ⟨u.claims, by simp, by simp [hpending], ?_, ?_, hnext⟩
      · exact fun r r' h _ => .inl (hsame r r' h)
      · intro hsql r _ hid
        by_cases hempty : u.rcpts = []
        · rw [hdone, hempty] at hid
          cases hid
        · have hsome := hS.loadOutbound hpc hsql.1 hempty
          rw [hnone] at hsome
          cases hsome
    · next outbound hload =>
      obtain ⟨hmem, hid⟩ := loadOutbound_some hload
      refine ⟨[], by simp, ?_, ?_, fun _ _ _ h => absurd h not_mem_nil, ?_⟩
      · rw [hpending, nil_append, Pc.after_pending,
          zip_pending (sendOutcomes_length P io outbound.messageBlob u.rcpts s.stores.blobs), hid]
        rfl
      · exact fun r r' h _ => .inl (hsame r r' h)
      · intro o ho
        obtain rfl := Pc.after_message ho
        exact .inr hmem

section
variable {io : FinalizeIo} {outbound : OutboundMessage} {rcpt : ClaimedRcpt} {outcome : Outcome}

theorem settledRow_state (hsql : io.faults .finalizeUpdate = none) :
    (settledRow io outbound rcpt outcome r).state =
      (settlement io.now io.jitterFrac outbound.expiresAt rcpt outcome).state := by
  unfold settledRow
  simp only [hsql, if_true]
  split <;> rfl

theorem settledRow_unclaimed (hsql : io.faults .finalizeUpdate = none) :
    (settledRow io outbound rcpt outcome r).state ≠ .claimed := by
  rw [settledRow_state hsql]
  unfold settlement
  split
  · nofun
  · nofun
  · split <;> nofun

theorem finalizeStep_rows {r' : OutboundRecipient}
    (hr' : r' ∈ (finalizeStep P hostname io outbound rcpt outcome todo us s).queue.rcpts) :
    ∃ r ∈ s.queue.rcpts, r'.id = r.id ∧
      ((r.id = rcpt.id ∧ r' = settledRow io outbound rcpt outcome r) ∨ (r.id ≠ rcpt.id ∧ r' = r)) := by
  have hq : (finalizeStep P hostname io outbound rcpt outcome todo us s).queue = _ :=
    settle_queue P hostname io outbound rcpt outcome s.stores
  rw [hq] at hr'
  obtain ⟨r, hr, rfl⟩ := mem_map.mp hr'
  refine ⟨r, hr, ?_⟩
  split
  · next hid => exact ⟨(settledRow_columns io outbound rcpt outcome r).1, .inl ⟨hid, rfl⟩⟩
  · next hid => exact ⟨rfl, .inr ⟨hid, rfl⟩⟩

theorem finalizeStep_advance (hpc : s.pc = .finalize outbound ((rcpt, outcome) :: todo) us) :
    Advance s (.finalize io) (finalizeStep P hostname io outbound rcpt outcome todo us s)
      [(outbound.id, rcpt)] := by
  refine ⟨fun _ _ _ _ => nofun, ?_, ?_, ?_, ?_⟩
  · rw [hpc, finalizeStep]
    split <;> rfl
  · intro r r' h _
    cases h with
    | keep => exact .inl rfl
    | settled hpc' hid =>
      rw [hpc] at hpc'
      cases hpc'
      exact .inr (by simp [ids, hid])
  · intro hsql r' hr' hid
    obtain ⟨r, -, hrid, ⟨-, rfl⟩ | ⟨hne, -⟩⟩ := finalizeStep_rows hr'
    · exact settledRow_unclaimed hsql.1
    · exact absurd (hrid.symm.trans (by simpa [ids] using hid)) hne
  · intro o ho
    left
    rw [finalizeStep] at ho
    split at ho
    · cases ho
    · rw [hpc]
      exact ho

end

/-- What a claim does: the rows that change are the batch the worker now holds. -/
structure Claims (s : Loop) (a : Act) (t : Loop) (claimed : List (ℤ × ClaimedRcpt)) : Prop where
  pc : s.pc = .claim
  changed : ∀ r ∈ s.queue.rcpts, ∀ r', Change s a r r' → r' = r ∨ r.id ∈ ids (claimed.map Prod.snd)
  pending : t.pc.pending.Perm claimed
  message : t.pc.message = none
  nodup : (ids (claimed.map Prod.snd)).Nodup
  rows : ∀ p ∈ claimed, ∃ r ∈ s.queue.rcpts, r.state.isWaiting = true ∧
    ∃ r' ∈ t.queue.rcpts, r'.state = .claimed ∧ claimedRcpt r = p ∧ claimedRcpt r' = p

theorem claimedRows_ids :
    (ids ((claimedRows faults order q).map Prod.snd)).Sublist order := by
  unfold claimedRows
  split
  · induction order with
    | nil => simp [ids]
    | cons id _ ih =>
      rw [filterMap_cons]
      cases hrow : findBy OutboundRecipient.id id q.rcpts with
      | none => exact ih.cons id
      | some r =>
        obtain ⟨-, rfl⟩ := findBy_some OutboundRecipient.id hrow
        exact ih.cons_cons r.id
  · simp [ids]

theorem claim_claims {now : ℤ} {units : List DeliveryUnit} (hT : Tables s.queue)
    (hpc : s.pc = .claim) (hvalid : ValidBatch now s.queue order)
    (hunits : units.Perm (groupUnits (claimedRows faults order s.queue))) :
    Claims s (.claim faults now order units)
      { s.withQueue (claimRows faults now order s.queue) with pc := .next units }
      (claimedRows faults order s.queue) where
  pc := hpc
  changed := by
    intro r hr r' h
    cases h with
    | keep => exact .inl rfl
    | claimed _ hsql hmem =>
      obtain ⟨r₁, hfind⟩ := Option.isSome_iff_exists.mp
        ((findBy_isSome_iff OutboundRecipient.id).mpr (mem_map_of_mem hr))
      have hin : claimedRcpt r₁ ∈ claimedRows faults order s.queue := by
        rw [claimedRows, if_pos hsql]
        exact mem_filterMap.mpr ⟨r.id, hmem, by rw [hfind]; rfl⟩
      have hid : (claimedRcpt r₁).2.id = r.id := (findBy_some OutboundRecipient.id hfind).2
      exact .inr (hid ▸ mem_map_of_mem (mem_map_of_mem hin))
  pending := by
    rw [Pc.next_pending]
    exact (hunits.flatMap_right _).trans (groupUnits_perm _)
  message := Pc.next_message units
  nodup := claimedRows_ids.nodup hvalid.1
  rows := by
    intro p hp
    unfold claimedRows at hp
    split at hp
    · next hsql =>
      obtain ⟨id, hid, hrow⟩ := mem_filterMap.mp hp
      obtain ⟨r, hfind, rfl⟩ := Option.map_eq_some_iff.mp hrow
      obtain ⟨hr, rfl⟩ := findBy_some OutboundRecipient.id hfind
      obtain ⟨r₀, hr₀, hid₀, hdue⟩ := hvalid.2.1 r.id hid
      obtain rfl : r₀ = r := inj_on_of_nodup_map hT.rcptIds hr₀ hr hid₀
      refine ⟨r₀, hr, (Bool.and_eq_true_iff.mp hdue).1, toClaimed now r₀, ?_, rfl, rfl, rfl⟩
      simp only [Loop.queue, Loop.withQueue, claimRows, updateRcpts_eq]
      exact mem_map.mpr ⟨r₀, hr, by simp [hsql, hid]⟩
    · cases hp

theorem step_advance (hS : Sound s) (h : step P hostname s a = some t) :
    (∃ done, Advance s a t done) ∨ ∃ claimed, Claims s a t claimed := by
  cases taken_of_step h with
  | written hwrite | notWritten hwrite | inserted he =>
    refine .inl ⟨[], .quiet (fun _ _ _ _ => nofun) rfl (fun _ ho => ho) fun r r' hc _ => ?_⟩
    cases hc
    rfl
  | worker hw =>
    cases hw with
    | reap hpc | expire hpc | fire hpc =>
      have hempty : s.pc.pending = [] := by rw [hpc]; rfl
      refine .inl ⟨[], .quiet (fun _ _ _ _ => nofun) hempty.symm (fun o ho => ?_) fun r r' _ hid => ?_⟩
      · cases ho
      · rw [Pc.heldIds, hempty] at hid
        cases hid
    | claim hpc hvalid hunits => exact .inr ⟨_, claim_claims hS.tables hpc hvalid hunits⟩
    | unit hpc => exact .inl (unitStep_advance hS hpc)
    | finalize hpc => exact .inl ⟨_, finalizeStep_advance hpc⟩
    | @count faults outbound todo us hpc =>
      refine .inl ⟨[], .quiet (fun _ _ _ _ => nofun) ?_ (fun o ho => ?_) fun r r' hc _ => ?_⟩
      · rw [hpc]
        split
        · rfl
        · exact Pc.after_pending outbound todo us
      · rw [hpc]
        split at ho
        · exact ho
        · rw [Pc.after_message ho]
          rfl
      · cases hc
        rfl
    | @remove faults outbound todo us hpc =>
      refine .inl ⟨[], .quiet (fun _ _ _ _ => nofun) ?_ (fun o ho => ?_) fun r r' hc _ => ?_⟩
      · rw [hpc]
        exact Pc.after_pending outbound todo us
      · rw [hpc, Pc.after_message ho]
        rfl
      · cases hc
        rfl

theorem step_reports (h : step P hostname s a = some t) :
    ((∀ io, a ≠ .finalize io) ∧ t.finalized = s.finalized) ∨
    ∃ io outbound rcpt outcome todo us, a = .finalize io ∧
      s.pc = .finalize outbound ((rcpt, outcome) :: todo) us ∧
      t = finalizeStep P hostname io outbound rcpt outcome todo us s := by
  cases taken_of_step h with
  | written hwrite | notWritten hwrite | inserted he => exact .inl ⟨fun _ => nofun, rfl⟩
  | worker hw =>
    cases hw with
    | reap | expire | fire | claim | count | remove => exact .inl ⟨fun _ => nofun, rfl⟩
    | unit hpc =>
      refine .inl ⟨fun _ => nofun, ?_⟩
      unfold unitStep
      split
      · rfl
      · split
        · rfl
        · simp only [Loop.setCooldown]
          split <;> rfl
    | finalize hpc => exact .inr ⟨_, _, _, _, _, _, rfl, hpc, rfl⟩

theorem mem_heldIds {pc : Pc} {p : ℤ × ClaimedRcpt} (hp : p ∈ pc.pending) : p.2.id ∈ pc.heldIds :=
  mem_map_of_mem (mem_map_of_mem hp)

theorem Advance.heldIds {done : List (ℤ × ClaimedRcpt)} (h : Advance s a t done) :
    s.pc.heldIds = ids (done.map Prod.snd) ++ t.pc.heldIds := by
  simp [Pc.heldIds, h.split, ids]

theorem Claims.heldIds {claimed : List (ℤ × ClaimedRcpt)} (h : Claims s a t claimed) :
    t.pc.heldIds.Perm (ids (claimed.map Prod.snd)) := (h.pending.map Prod.snd).map ClaimedRcpt.id

theorem Sound.step (hS : Sound s) (h : step P hostname s a = some t) : Sound t := by
  obtain ⟨f, news, newMessages, htables⟩ := step_tables hS.tables h
  have hT := htables.tables hS.tables
  rcases step_advance hS h with ⟨done, hadvance⟩ | ⟨claimed, hclaims⟩
  · have hnodup := hS.nodup
    rw [hadvance.heldIds] at hnodup
    refine ⟨hT, hnodup.of_append_right, fun p hp => ?_, fun o ho => ?_⟩
    · obtain ⟨r, hr, rfl, hstate⟩ := hS.held p (hadvance.split ▸ mem_append_right _ hp)
      have hid : r.id ∈ t.pc.heldIds := mem_heldIds hp
      have hheld : r.id ∈ s.pc.heldIds := hadvance.heldIds ▸ mem_append_right _ hid
      have hkeep : f r = r := (hadvance.kept r (f r) (htables.change r hr) hheld).resolve_right
        fun hdone => disjoint_of_nodup_append hnodup hdone hid
      exact ⟨r, hkeep ▸ htables.mem hr, rfl, hstate⟩
    · have hmem : o ∈ s.queue.outbound := (hadvance.message o ho).elim (hS.message o) id
      rw [htables.outbound]
      exact mem_append_left _ hmem
  · refine ⟨hT, hclaims.heldIds.nodup_iff.mpr hclaims.nodup, fun p hp => ?_, fun o ho => ?_⟩
    · obtain ⟨-, -, -, r', hr', hstate, -, heq⟩ := hclaims.rows p (hclaims.pending.subset hp)
      exact ⟨r', hr', heq, hstate⟩
    · rw [hclaims.message] at ho
      cases ho

/-! ## The claimed rows -/

/-- The row is one of a batch a step of the worker settles. -/
theorem Change.held {r' : OutboundRecipient} (h : Change s a r r')
    (ha : (∃ io, a = .unit io) ∨ ∃ io, a = .finalize io) : r' = r ∨ r.id ∈ s.pc.heldIds := by
  cases h with
  | keep => exact .inl rfl
  | reaped | expired | claimed => simp at ha
  | @released io u us _ hpc hcooling hmem =>
    have hheld : s.pc.heldIds = ids u.rcpts ++ ids ((us.flatMap DeliveryUnit.claims).map Prod.snd) := by
      simp [Pc.heldIds, hpc, Pc.pending, DeliveryUnit.claims, ids, comp_def]
    rw [hheld]
    exact .inr (mem_append_left _ hmem)
  | @settled io outbound rcpt outcome todo us _ hpc hid =>
    have hmem : (outbound.id, rcpt) ∈ s.pc.pending := by
      rw [hpc]
      simp [Pc.pending]
    exact .inr (hid ▸ mem_heldIds hmem)

theorem Change.unclaims {r' : OutboundRecipient} (hsql : a.SqlSucceeds)
    (hact : ∀ faults now order units, a ≠ .claim faults now order units) (h : Change s a r r')
    (hstate : r'.state = .claimed) : r' = r := by
  cases h with
  | keep => rfl
  | reaped | expired | released => cases hstate
  | claimed => exact absurd rfl (hact _ _ _ _)
  | settled => exact absurd hstate (settledRow_unclaimed hsql.1)

/-- Every claimed row is one of the batch in memory, or was claimed when the run began and is as it
was. -/
def Leased (before : List OutboundRecipient) (s : Loop) : Prop :=
  ∀ r ∈ s.queue.rcpts, r.state = .claimed → r.id ∈ s.pc.heldIds ∨ r ∈ before

theorem Leased.step {before : List OutboundRecipient} (hL : Leased before s) (hS : Sound s)
    (hsql : a.SqlSucceeds) (h : step P hostname s a = some t) : Leased before t := by
  obtain ⟨f, news, newMessages, htables⟩ := step_tables hS.tables h
  intro r' hr' hstate
  rcases htables.row hr' with ⟨r, hr, rfl⟩ | hnew
  · have hchange := htables.change r hr
    rcases step_advance hS h with ⟨done, hadvance⟩ | ⟨claimed, hclaims⟩
    · have hkeep := hchange.unclaims hsql hadvance.act hstate
      rw [hkeep] at hr' hstate ⊢
      refine (hL r hr hstate).imp_left fun hheld => ?_
      rw [hadvance.heldIds] at hheld
      exact (mem_append.mp hheld).resolve_left fun hdone =>
        hadvance.left hsql r hr' hdone hstate
    · rcases hclaims.changed r hr _ hchange with hkeep | hmem
      · rw [hkeep] at hstate ⊢
        refine .inr ((hL r hr hstate).resolve_left fun hheld => ?_)
        rw [hclaims.pc] at hheld
        cases hheld
      · exact .inl (hchange.columns.1 ▸ hclaims.heldIds.mem_iff.mpr hmem)
  · rw [(htables.new_row hnew).1] at hstate
    cases hstate

end
end Litterae.Queue
