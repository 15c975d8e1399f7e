import Litterae.Jmap.Ownership

/-! # Destroying in two stages (`Email/set` with ids to destroy)

A destroy moves a message to Trash, and deletes it if it is there already. The loop reads each message
anew, so an id given twice goes through both stages in one request.
-/

namespace Litterae.Jmap
open Foundations Store Exec Option

def row (i : ℤ) (s : Stores) : Option StoredMessage := findBy StoredMessage.id i s.metadata.messages

section
variable {accountId i : ℤ} {id : Text} {s : Stores} {m : StoredMessage} {b : Mailbox} {t : Stores}

inductive Destroys (accountId : ℤ) (id : Text) (s t : Stores) : Prop
  | idle (h : ∀ m, row m.id s = some m → emailRowId id = some m.id → m.accountId ≠ accountId)
      (ht : t.metadata = s.metadata)
  | done (m : StoredMessage) (b : Mailbox) (hid : emailRowId id = some m.id)
      (hm : row m.id s = some m) (howner : m.accountId = accountId)
      (hb : ensuredMailbox accountId .trash s.metadata = some b)
      (hb' : mailboxOf accountId .trash t.metadata = some b)
      (ht : t.metadata.messages =
        if m.mailboxId = b.id then s.metadata.messages.filter fun r => r.id != m.id
        else updateWhere (fun r => r.id == m.id) (fun r => { r with mailboxId := b.id })
          s.metadata.messages)

theorem ownMessage_of_row (hm : row i s = some m) (howner : m.accountId = accountId) :
    ownMessage accountId .none i s = (.ok m, s) := by
  rw [row] at hm
  simp [ownMessage_run, lookedUp, Option.filter, Faults.none, hm, howner]

theorem ownMessage_of_not (h : ∀ m, row i s = some m → m.accountId ≠ accountId) :
    ownMessage accountId .none i s = (.err .notFound, s) := by
  cases hfound : findBy StoredMessage.id i s.metadata.messages with
  | none => simp [ownMessage_run, lookedUp, Option.filter, Faults.none, hfound]
  | some m => simp [ownMessage_run, lookedUp, Option.filter, Faults.none, hfound, h m hfound]

theorem emailDestroy_noPanic (accountId : ℤ) (faults : Faults) (id : Text) :
    NoPanic (emailDestroy accountId faults id) := by
  have hown : ∀ rowId, NoPanic (ownMessage accountId faults rowId) := by
    intro rowId s
    rw [ownMessage_run]
    exact lookedUp_returns
  have hremove : ∀ hash, NoPanic (Store.remove faults hash) := fun hash =>
    .bind (pathFor_noPanic _) fun _ => .bind file_noPanic fun _ => .modify _
  have hdelete : ∀ rowId, NoPanic (deleteMessage faults rowId) := fun rowId =>
    .bind sql_noPanic fun _ => .modify _
  unfold emailDestroy
  cases emailRowId id with
  | none => exact .throw
  | some rowId =>
    refine .bind (hown rowId) fun m => ?_
    refine .bind (.mapErr (.zoom (ensureMailbox_noPanic _ _))) fun b => ?_
    refine .mapErr (.ite (.bind (.zoom (hdelete _)) fun _ => ?_) ?_)
    · exact .zoom (hremove _)
    · exact .zoom (updateMessage_noPanic _ _ _)

theorem trashOrDelete_run (m : StoredMessage) (b : Mailbox) (s : Stores) :
    (trashOrDelete .none m.id m b s).2.metadata.mailboxes = s.metadata.mailboxes ∧
      (trashOrDelete .none m.id m b s).2.metadata.messages =
        if m.mailboxId = b.id then s.metadata.messages.filter fun r => r.id != m.id
        else updateWhere (fun r => r.id == m.id) (fun r => { r with mailboxId := b.id })
          s.metadata.messages := by
  unfold trashOrDelete
  by_cases h : m.mailboxId = b.id
  · have hdelete : onMetadata (deleteMessage .none m.id) s =
        (.ok (), { s with metadata := { s.metadata with
          messages := s.metadata.messages.filter fun r => r.id != m.id } }) := rfl
    rw [if_pos h, if_pos h, bind_of_ok hdelete]
    exact ⟨rfl, rfl⟩
  · rw [if_neg h, if_neg h]
    exact ⟨rfl, rfl⟩

theorem emailDestroy_destroys (accountId : ℤ) (id : Text) (s : Stores) :
    Destroys accountId id s (emailDestroy accountId .none id s).2 := by
  unfold emailDestroy
  cases hid : emailRowId id with
  | none => exact .idle (by simp [hid]) rfl
  | some rowId =>
    by_cases hown : ∃ m, row rowId s = some m ∧ m.accountId = accountId
    · obtain ⟨m, hm, howner⟩ := hown
      obtain rfl : m.id = rowId := (findBy_some StoredMessage.id hm).2
      obtain ⟨b, m', hensure, htrash, hsame, hb⟩ := ensureMailbox_run accountId .trash s.metadata
      have hmap : (onMetadata (ensureMailbox .none accountId .trash)).mapErr
          (fun e => SetError.serverFail e.display) s = (.ok b, { s with metadata := m' }) := by
        rw [mapErr_ok_iff, onMetadata_run, hensure]
      obtain ⟨hboxes, hmessages⟩ := trashOrDelete_run m b { s with metadata := m' }
      simp only
      rw [bind_of_ok (ownMessage_of_row hm howner), bind_of_ok hmap, state_mapErr]
      refine .done m b hid hm howner htrash ?_ ?_
      · rw [mailboxOf, hboxes]
        exact hb
      · rw [hmessages, hsame]
    · have hnone := @ownMessage_of_not accountId rowId s fun m hm howner => hown ⟨m, hm, howner⟩
      simp only
      rw [bind_of_err hnone]
      refine .idle (fun m hm heq howner => hown ⟨m, ?_, howner⟩) rfl
      rw [hid] at heq
      rw [some.inj heq]
      exact hm

/-- What a message of the account has become when it was named `n` times. -/
def fate (trashId : ℤ) (m : StoredMessage) : ℕ → Option StoredMessage
  | 0 => some m
  | 1 => if m.mailboxId = trashId then none else some { m with mailboxId := trashId }
  | _ + 2 => none

theorem Destroys.row_done {j : ℤ} (h : t.metadata.messages =
      if m.mailboxId = b.id then s.metadata.messages.filter fun r => r.id != m.id
      else updateWhere (fun r => r.id == m.id) (fun r => { r with mailboxId := b.id })
        s.metadata.messages) (hm : row m.id s = some m) :
    row j t = if j = m.id then fate b.id m 1 else row j s := by
  unfold row at hm ⊢
  rw [h]
  by_cases hin : m.mailboxId = b.id
  · rw [if_pos hin, findBy, List.find?_filter]
    by_cases hj : j = m.id
    · rw [if_pos hj, fate, if_pos hin, List.find?_eq_none]
      intro r _
      simp [hj]
    · rw [if_neg hj, findBy]
      congr 1
      funext r
      by_cases hr : r.id = j
      · simp [hr, hj]
      · simp [hr]
  · rw [if_neg hin, findBy_updateWhere StoredMessage.id (by intro r; rfl)]
    by_cases hj : j = m.id
    · rw [if_pos hj, hj, hm, fate, if_neg hin]
      simp
    · rw [if_neg hj]
      cases hfound : findBy StoredMessage.id j s.metadata.messages with
      | none => rfl
      | some r =>
        have hr : r.id = j := (findBy_some StoredMessage.id hfound).2
        simp [hr, hj]

section
variable (h : Destroys accountId id s t)
include h

theorem Destroys.trash (hb : ensuredMailbox accountId .trash s.metadata = some b) :
    ensuredMailbox accountId .trash t.metadata = some b := by
  cases h with
  | idle _ ht => rw [ht, hb]
  | done _ _ _ _ _ hb' hafter =>
    obtain rfl := some.inj (hb'.symm.trans hb)
    exact ensuredMailbox_of_mailbox hafter

theorem Destroys.mailbox (hb : mailboxOf accountId .trash s.metadata = some b) :
    mailboxOf accountId .trash t.metadata = some b := by
  cases h with
  | idle _ ht => rw [ht, hb]
  | done _ _ _ _ _ hb' hafter =>
    obtain rfl := some.inj (hb'.symm.trans (ensuredMailbox_of_mailbox hb))
    exact hafter

theorem Destroys.row_none (hi : row i s = none) : row i t = none := by
  cases h with
  | idle _ ht => rw [row, ht]; exact hi
  | done m b _ hm _ _ _ ht =>
    have hne : i ≠ m.id := by
      rintro rfl
      rw [hm] at hi
      cases hi
    rw [Destroys.row_done ht hm, if_neg hne, hi]

theorem Destroys.row_other (hi : row i s = some m) (howner : m.accountId ≠ accountId) :
    row i t = some m := by
  cases h with
  | idle _ ht => rw [row, ht]; exact hi
  | done m' b _ hm hown _ _ ht =>
    have hne : i ≠ m'.id := by
      rintro rfl
      rw [hm] at hi
      cases hi
      exact howner hown
    rw [Destroys.row_done ht hm, if_neg hne, hi]

theorem Destroys.row_own (hi : row i s = some m) (howner : m.accountId = accountId)
    (hb : ensuredMailbox accountId .trash s.metadata = some b) :
    (emailRowId id ≠ some i → row i t = some m) ∧
      (emailRowId id = some i → row i t = fate b.id m 1 ∧
        mailboxOf accountId .trash t.metadata = some b) := by
  obtain rfl : m.id = i := (findBy_some StoredMessage.id hi).2
  cases h with
  | idle hidle ht =>
    refine ⟨fun _ => ?_, fun hid => absurd howner (hidle m hi hid)⟩
    rw [row, ht]
    exact hi
  | done m' _ hid hm _ hb' hafter ht =>
    obtain rfl := some.inj (hb'.symm.trans hb)
    rw [Destroys.row_done ht hm]
    refine ⟨fun hne => ?_, fun hid' => ?_⟩
    · have hother : m.id ≠ m'.id := fun heq => hne (heq ▸ hid)
      rw [if_neg hother, hi]
    · have hsame : m.id = m'.id := some.inj (hid'.symm.trans hid)
      have hrow : m = m' := by
        rw [hsame, hm] at hi
        exact (some.inj hi).symm
      rw [if_pos hsame, hrow]
      exact ⟨rfl, hafter⟩

end

end

/-! ## The whole list -/

section
variable {accountId : ℤ} {s : Stores} {m : StoredMessage} {b : Mailbox} {ids : List Text}

def destroyAll (accountId : ℤ) (ids : List Text) (s : Stores) : Stores :=
  ids.foldl (fun s id => (emailDestroy accountId .none id s).2) s

/-- How many of the ids name the row, however they spell it. -/
def named (i : ℤ) (ids : List Text) : ℕ := ids.countP fun id => emailRowId id == some i

theorem fate_moved (b : Mailbox) (m : StoredMessage) (h : m.mailboxId ≠ b.id) (n : ℕ) :
    fate b.id { m with mailboxId := b.id } n = fate b.id m (n + 1) := by
  match n with
  | 0 => simp [fate, h]
  | 1 => simp [fate]
  | _ + 2 => rfl

theorem destroyAll_none {i : ℤ} (hi : row i s = none) : row i (destroyAll accountId ids s) = none := by
  induction ids generalizing s with
  | nil => exact hi
  | cons id _ ih => exact ih ((emailDestroy_destroys accountId id s).row_none hi)

theorem destroyAll_other (hm : row m.id s = some m) (howner : m.accountId ≠ accountId) :
    row m.id (destroyAll accountId ids s) = some m := by
  induction ids generalizing s with
  | nil => exact hm
  | cons id _ ih => exact ih ((emailDestroy_destroys accountId id s).row_other hm howner)

theorem destroyAll_mailbox (hb : mailboxOf accountId .trash s.metadata = some b) :
    mailboxOf accountId .trash (destroyAll accountId ids s).metadata = some b := by
  induction ids generalizing s with
  | nil => exact hb
  | cons id _ ih => exact ih ((emailDestroy_destroys accountId id s).mailbox hb)

theorem destroyAll_own (hm : row m.id s = some m) (howner : m.accountId = accountId)
    (hb : ensuredMailbox accountId .trash s.metadata = some b) :
    row m.id (destroyAll accountId ids s) = fate b.id m (named m.id ids) ∧
      (named m.id ids ≠ 0 →
        mailboxOf accountId .trash (destroyAll accountId ids s).metadata = some b) := by
  induction ids generalizing s m with
  | nil => exact ⟨hm, fun h => absurd rfl h⟩
  | cons id rest ih =>
    have hstep := emailDestroy_destroys accountId id s
    obtain ⟨hkept, hdone⟩ := hstep.row_own hm howner hb
    by_cases hid : emailRowId id = some m.id
    · obtain ⟨hrow, htrash⟩ := hdone hid
      have hcount : named m.id (id :: rest) = named m.id rest + 1 := by
        simp [named, hid]
      rw [hcount, destroyAll, List.foldl_cons, ← destroyAll]
      refine ⟨?_, fun _ => destroyAll_mailbox htrash⟩
      by_cases hin : m.mailboxId = b.id
      · rw [fate, if_pos hin] at hrow
        have hgone : fate b.id m (named m.id rest + 1) = none := by
          cases named m.id rest with
          | zero => simp [fate, hin]
          | succ => rfl
        rw [hgone]
        exact destroyAll_none hrow
      · rw [fate, if_neg hin] at hrow
        rw [← fate_moved b m hin]
        exact (@ih _ { m with mailboxId := b.id } hrow howner (hstep.trash hb)).1
    · have hcount : named m.id (id :: rest) = named m.id rest := by
        simp [named, hid]
      rw [hcount]
      exact ih (hkept hid) howner (hstep.trash hb)

theorem attempt_returns {σ ε ε' α : Type} {x : Exec σ ε α} (hx : NoPanic x) (s : σ) :
    ∃ outcome, (x.attempt : Exec σ ε' (Except ε α)) s = (.ok outcome, (x s).2) := by
  have h := hx s
  unfold attempt
  generalize x s = run at h
  obtain ⟨a | e | _, t⟩ := run
  · exact ⟨.ok a, rfl⟩
  · exact ⟨.error e, rfl⟩
  · cases h

theorem eachItem_run {ε ε' ι α : Type} {op : ι → Exec Stores ε α} (hop : ∀ i, NoPanic (op i)) (k : ℕ)
    (items : List ι) (s : Stores) :
    ∃ outcomes, (eachItem (fun _ => op) k items : Exec Stores ε' (List (ι × Except ε α))) s =
      (.ok outcomes, items.foldl (fun s i => (op i s).2) s) := by
  induction items generalizing k s with
  | nil => exact ⟨[], rfl⟩
  | cons item _ ih =>
    obtain ⟨outcome, hone⟩ := @attempt_returns _ _ ε' _ _ (hop item) s
    obtain ⟨outcomes, hrest⟩ := ih (k + 1) (op item s).2
    rw [eachItem, bind_of_ok hone, bind_of_ok hrest]
    exact ⟨_, rfl⟩

end

/-! ## The request -/

section
variable {ε : Type} (P : Primitives) (C : Composer) (io : EmailSetIo) (ctx : AccountContext)
  (accountId : ℤ)

/-- An `Email/set` that only destroys, on stores that do not fail. -/
def destroying (ids : List Text) : Exec Stores ε EmailSetResult :=
  emailSet P C { io with destroys := fun _ => .none } ctx accountId
    { create := [], update := [], destroy := ids }

theorem destroying_metadata (ids : List Text) (s : Stores) :
    ((destroying P C io ctx accountId ids : Exec Stores ε _) s).2.metadata =
      (destroyAll accountId ids s).metadata := by
  obtain ⟨outcomes, hloop⟩ := @eachItem_run _ ε _ _ _ (emailDestroy_noPanic accountId .none) 0 ids s
  have hitems : (emailSetItems P C { io with destroys := fun _ => .none } ctx accountId
      { create := [], update := [], destroy := ids } : Exec Stores ε _) s =
        (.ok { created := [], updated := [], destroyed := outcomes }, destroyAll accountId ids s) := by
    have hsteps : (emailSetItems P C { io with destroys := fun _ => .none } ctx accountId
        { create := [], update := [], destroy := ids } : Exec Stores ε _) s =
          (eachItem (fun _ id => emailDestroy accountId .none id) 0 ids >>= fun destroyed =>
            pure { created := [], updated := [], destroyed }) s := rfl
    rw [hsteps, bind_of_ok hloop]
    rfl
  rw [destroying, emailSet, bind_of_ok hitems]
  split <;> rfl

def InTrash (s : Stores) (m : StoredMessage) : Prop :=
  ∃ b, mailboxOf m.accountId .trash s.metadata = some b ∧ m.mailboxId = b.id

/-- A message outside Trash at the start is there at the end, in Trash if its owner destroyed it. -/
def TwoStage (accountId : ℤ) (ids : List Text) (s t : Stores) : Prop :=
  ∀ m, row m.id s = some m → ¬ InTrash s m → ∃ m', row m.id t = some m' ∧
    { m' with mailboxId := m.mailboxId } = m ∧
      (m.accountId = accountId → named m.id ids ≠ 0 → InTrash t m')

/-- No message of the account outside Trash is named twice, nor is one named that lies in the mailbox
that becomes the Trash. -/
def NamedOnce (accountId : ℤ) (ids : List Text) (s : Stores) : Prop :=
  ∀ m, row m.id s = some m → m.accountId = accountId → ¬ InTrash s m → named m.id ids ≠ 0 →
    named m.id ids = 1 ∧ ∀ b, ensuredMailbox accountId .trash s.metadata = some b → m.mailboxId ≠ b.id

/-- A destroy takes two stages exactly if no message is named twice. -/
theorem twoStage_iff_namedOnce (ids : List Text) (s : Stores) :
    TwoStage accountId ids s ((destroying P C io ctx accountId ids : Exec Stores ε _) s).2 ↔
      NamedOnce accountId ids s := by
  have hend := @destroying_metadata ε P C io ctx accountId ids s
  obtain ⟨b, -, -, hb, -⟩ := ensureMailbox_run accountId .trash s.metadata
  have hrow : ∀ i, row i ((destroying P C io ctx accountId ids : Exec Stores ε _) s).2 =
      row i (destroyAll accountId ids s) := fun i => by rw [row, hend, row]
  constructor
  · intro hstages m hm howner hout hnamed
    obtain ⟨m', hm', -⟩ := hstages m hm hout
    rw [hrow, (destroyAll_own hm howner hb).1] at hm'
    -- a message named twice is gone, and so is one that lay in the new Trash
    match hn : named m.id ids with
    | 0 => exact absurd hn hnamed
    | 1 =>
      refine ⟨rfl, fun b' hb' hin => ?_⟩
      obtain rfl := some.inj (hb'.symm.trans hb)
      rw [hn, fate, if_pos hin] at hm'
      cases hm'
    | n + 2 =>
      rw [hn, fate] at hm'
      cases hm'
  · intro honce m hm hout
    rw [hrow]
    by_cases howner : m.accountId = accountId
    · obtain ⟨hfate, hafter⟩ := @destroyAll_own accountId s m b ids hm howner hb
      by_cases hnamed : named m.id ids = 0
      · rw [hnamed, fate] at hfate
        exact ⟨m, hfate, rfl, fun _ h => absurd hnamed h⟩
      · obtain ⟨hone, hother⟩ := honce m hm howner hout hnamed
        rw [hone, fate, if_neg (hother b hb)] at hfate
        refine ⟨_, hfate, rfl, fun _ _ => ⟨b, ?_, rfl⟩⟩
        rw [hend, howner]
        exact hafter hnamed
    · exact ⟨m, destroyAll_other hm howner, rfl, fun h => absurd h howner⟩

end

def sampleFiled : Stores :=
  { Stores.empty with
    metadata := { MetadataStore.empty with
      mailboxes := [⟨1, 1, .inbox, "Inbox"⟩, ⟨2, 1, .trash, "Trash"⟩]
      messages := [{ sampleRow 1 1 "" with blobHash := List.replicate 64 '0' }] } }

/-- Two spellings of one id take a message from the Inbox out of the store. -/
theorem two_spellings_delete :
    mailboxOf 1 .inbox sampleFiled.metadata = some ⟨1, 1, .inbox, "Inbox"⟩ ∧
      row 1 sampleFiled = some { sampleRow 1 1 "" with blobHash := List.replicate 64 '0' } ∧
      row 1 (emailSet (Primitives.sample fun _ => none) sampleComposer
        ⟨fun _ => sampleComposeDraw, fun _ => ⟨.none, fun _ => .none⟩, fun _ => .none⟩ sampleContext 1
        { create := [], update := [], destroy := ["m1", "m01"] } sampleFiled :
          Res Empty _ × Stores).2 = none := by
  decide +kernel

end Litterae.Jmap
