import Litterae.Foundations.Owned
import Litterae.Queue.Enqueue
import Litterae.Queue.Scheduled
import Litterae.Queue.Worker

/-! # What is written for an account

`Write a` is one write made for the account `a`: to a table with an `account_id` column it is a
statement of that owner, everything else it may touch carries no account id.
-/

namespace Litterae
open Foundations Store Queue Exec

structure Unique (s : Stores) : Prop where
  messages : (s.metadata.messages.map StoredMessage.id).Nodup
  contacts : (s.metadata.contacts.map StoredContact.id).Nodup
  events : (s.queue.events.map ScheduledEvent.id).Nodup

def HasMessage (accountId rowId : ℤ) (s : Stores) : Prop :=
  ∃ m, findBy StoredMessage.id rowId s.metadata.messages = some m ∧ m.accountId = accountId

def Targets (s : Stores) (ev : ScheduledEvent) : Prop :=
  ∃ rowId, scheduledMessageRowId ev = some rowId ∧ HasMessage ev.accountId rowId s

inductive Write (accountId : ℤ) (D : ℤ → Prop) (s : Stores) : Stores → Prop where
  | blobs (blobs : BlobStore) : Write accountId D s { s with blobs }
  | audit (audit : List AuditEntry) : Write accountId D s { s with audit }
  | notified (notified : List ℤ) : Write accountId D s { s with notified }
  | keys (dkimKeys : List DomainKey) : Write accountId D s { s with queue := { s.queue with dkimKeys } }
  | messages {l : List StoredMessage}
      (h : OwnStep StoredMessage.id (fun m => m.accountId) accountId D s.metadata.messages l) :
      Write accountId D s { s with metadata := { s.metadata with messages := l } }
  | mailboxes {l : List Mailbox}
      (h : OwnStep Mailbox.id Mailbox.accountId accountId (fun _ => False) s.metadata.mailboxes l) :
      Write accountId D s { s with metadata := { s.metadata with mailboxes := l } }
  | threads {l : List Thread}
      (h : OwnStep Thread.id Thread.accountId accountId (fun _ => False) s.metadata.threads l) :
      Write accountId D s { s with metadata := { s.metadata with threads := l } }
  | uploads {l : List StoredUpload}
      (h : OwnStep StoredUpload.id StoredUpload.accountId accountId (fun _ => False)
        s.metadata.uploads l) :
      Write accountId D s { s with metadata := { s.metadata with uploads := l } }
  | contacts {l : List StoredContact}
      (h : OwnStep StoredContact.id StoredContact.accountId accountId (fun _ => True)
        s.metadata.contacts l) :
      Write accountId D s { s with metadata := { s.metadata with contacts := l } }
  | events {l : List ScheduledEvent}
      (h : OwnStep ScheduledEvent.id ScheduledEvent.accountId accountId (fun _ => False)
        s.queue.events l)
      (hpending : ∀ ev ∈ l, ev.state = .pending → ev ∈ s.queue.events ∨
        (ev.id ∉ s.queue.events.map ScheduledEvent.id ∧ Targets s ev)) :
      Write accountId D s { s with queue := { s.queue with events := l } }
  | outbound {l : List OutboundMessage}
      (h : OwnStep OutboundMessage.id OutboundMessage.accountId accountId (fun _ => False)
        s.queue.outbound l) :
      Write accountId D s { s with queue := { s.queue with outbound := l } }
  | rcpt {r : OutboundRecipient}
      (h : ∃ o ∈ s.queue.outbound, o.id = r.outboundId ∧ o.accountId = accountId) :
      Write accountId D s { s with queue := { s.queue with rcpts := s.queue.rcpts ++ [r] } }
  | signature (signatureSealed : Option Bytes) :
      Write accountId D s { s with
        accounts := updateWhere (fun a => a.id == accountId) (fun a => { a with signatureSealed })
          s.accounts }
  | appPasswords {l : List AppPassword}
      (h : OwnStep AppPassword.id AppPassword.accountId accountId (fun _ => True) s.appPasswords l) :
      Write accountId D s { s with appPasswords := l }

abbrev Writes (accountId : ℤ) (D : ℤ → Prop) : Stores → Stores → Prop :=
  Relation.ReflTransGen (Write accountId D)

variable {D : ℤ → Prop} {accountId : ℤ} {R : Stores → Stores → Prop}

section
variable {s t : Stores} {D' : ℤ → Prop} {owner rowId : ℤ}

instance : IsPreorder Stores (Writes accountId D) where
  refl := fun _ => .refl
  trans := fun _ _ _ => Relation.ReflTransGen.trans

theorem Write.mono (hD : ∀ k, D k → D' k) (h : Write accountId D s t) :
    Write accountId D' s t := by
  cases h with
  | messages h =>
    refine .messages ?_
    cases h with
    | insert howner hid => exact .insert howner hid
    | update hown hid howner => exact .update hown hid howner
    | delete hown hdel => exact .delete hown fun r hr hp => hD _ (hdel r hr hp)
  | blobs b => exact .blobs b
  | audit l => exact .audit l
  | notified l => exact .notified l
  | keys l => exact .keys l
  | mailboxes h => exact .mailboxes h
  | threads h => exact .threads h
  | uploads h => exact .uploads h
  | contacts h => exact .contacts h
  | events h hpending => exact .events h hpending
  | outbound h => exact .outbound h
  | rcpt h => exact .rcpt h
  | signature o => exact .signature o
  | appPasswords h => exact .appPasswords h

theorem Writes.mono (hD : ∀ k, D k → D' k) (h : Writes accountId D s t) :
    Writes accountId D' s t := by
  induction h with
  | refl => exact .refl
  | tail _ hw ih => exact ih.tail (hw.mono hD)

theorem Writes.relate (hrefl : ∀ s, R s s) (htrans : ∀ s t u, R s t → R t u → R s u)
    (hwrite : ∀ s t, Write accountId D s t → R s t) (h : Writes accountId D s t) : R s t := by
  induction h with
  | refl => exact hrefl s
  | tail _ hw ih => exact htrans s _ _ ih (hwrite _ _ hw)

theorem Write.unique (h : Write accountId D s t) (hs : Unique s) : Unique t := by
  obtain ⟨hm, hc, he⟩ := hs
  cases h with
  | messages h => exact ⟨h.nodup hm, hc, he⟩
  | contacts h => exact ⟨hm, h.nodup hc, he⟩
  | events h => exact ⟨hm, hc, h.nodup he⟩
  | _ => exact ⟨hm, hc, he⟩

theorem Writes.unique (h : Writes accountId D s t) (hs : Unique s) : Unique t :=
  Writes.relate (R := fun s t => Unique s → Unique t) (fun _ h => h)
    (fun _ _ _ h h' hs => h' (h hs)) (fun _ _ h => h.unique) h hs

instance : Stable Unique (Writes accountId D) := ⟨fun _ _ h => h.unique⟩

theorem Write.hasMessage (h : Write accountId D s t) (hD : ¬ D rowId)
    (hs : HasMessage owner rowId s) : HasMessage owner rowId t := by
  cases h with
  | messages h =>
    obtain ⟨m, hm, howner⟩ := hs
    obtain ⟨m', hm', howner'⟩ := h.keeps hD hm
    exact ⟨m', hm', howner'.trans howner⟩
  | _ => exact hs

theorem Writes.hasMessage (h : Writes accountId D s t) (hD : ¬ D rowId)
    (hs : HasMessage owner rowId s) : HasMessage owner rowId t :=
  Writes.relate (R := fun s t => HasMessage owner rowId s → HasMessage owner rowId t)
    (fun _ h => h) (fun _ _ _ h h' hs => h' (h hs)) (fun _ _ h => h.hasMessage hD) h hs

theorem HasMessage.owns {rowId : ℤ} (h : HasMessage accountId rowId s) (hs : Unique s)
    {m : StoredMessage} (hm : m ∈ s.metadata.messages) (hid : m.id = rowId) :
    m.accountId = accountId := by
  obtain ⟨m', hfound, howner⟩ := h
  rw [eq_of_findBy _ hs.messages hfound hm hid]
  exact howner

end

/-! ## Operations for an account -/

section
variable {α : Type} {faults : Faults} {P : Primitives} {new : NewOutbound} {site : Site}
  {draw : Delivery.Draw}

abbrev ThroughMetadata (R : Stores → Stores → Prop) : MetadataStore → MetadataStore → Prop :=
  Through (fun m s => { s with metadata := m }) R

abbrev ThroughQueue (R : Stores → Stores → Prop) : QueueStore → QueueStore → Prop :=
  Through (fun q s => { s with queue := q }) R

theorem onMetadata_keeps {x : Exec MetadataStore Error α} (h : Keeps (ThroughMetadata R) x) :
    Keeps R (onMetadata x) := Keeps.zoom (fun _ => rfl) h

theorem onQueue_keeps {x : Exec QueueStore Error α} (h : Keeps (ThroughQueue R) x) :
    Keeps R (onQueue x) := Keeps.zoom (fun _ => rfl) h

theorem onBlobs_writes {x : Exec BlobStore Error α} : Keeps (Writes accountId D) (onBlobs x) :=
  fun _ => .single (.blobs _)

theorem onMetadata_query {f : MetadataStore → α} :
    Keeps (Writes accountId D) (onMetadata (do sql faults site; let m ← Exec.get; pure (f m))) :=
  onMetadata_keeps (query_keeps _ _ _)

theorem onQueue_query {f : QueueStore → α} :
    Keeps (Writes accountId D) (onQueue (do sql faults site; let q ← Exec.get; pure (f q))) :=
  onQueue_keeps (query_keeps _ _ _)

theorem ensureMailbox_through (role : Role) :
    Keeps (ThroughMetadata (Writes accountId D)) (ensureMailbox faults accountId role) := by
  refine ensureMailbox_keeps (fun role name m s => ?_) role
  unfold insertOrIgnoreMailbox
  split
  · exact refl _
  · exact .single (.mailboxes (.insert rfl rfl))

theorem ensureMailbox_writes {role : Role} :
    Keeps (Writes accountId D) (onMetadata (ensureMailbox faults accountId role)) :=
  onMetadata_keeps (ensureMailbox_through role)

theorem findOrCreateThread_writes {pick : ℕ} {q : ThreadMatch} (h : q.accountId = accountId) :
    Keeps (Writes accountId D) (onMetadata (findOrCreateThread faults pick q)) :=
  onMetadata_keeps (findOrCreateThread_keeps q
    fun m s => .single (.threads (s := { s with metadata := m }) (.insert h rfl)))

theorem insertMessage_writes {new : NewMessage} (h : new.accountId = accountId) :
    Keeps (Writes accountId D) (onMetadata (insertMessage faults new)) :=
  onMetadata_keeps (.bind sql_keeps
    fun _ => .update fun m s => .single (.messages (s := { s with metadata := m }) (.insert h rfl)))

theorem sealForAccount_writes {accountPub : Bytes} {keyId : UInt16} {raw : Bytes} :
    Keeps (Writes accountId D) (Delivery.sealForAccount P draw accountPub keyId raw) :=
  Delivery.sealForAccount_keeps onBlobs_writes

theorem deliver_writes {account : Delivery.RecipientAccount} {envelope : Delivery.InboundEnvelope}
    {results : Delivery.AuthResults} {raw : Bytes} {receivedAt : ℤ} {spamReason : Option Text}
    {scan : Delivery.ScanMetadata} :
    Keeps (Writes account.id D)
      (Delivery.deliver P draw account envelope results raw receivedAt spamReason scan) :=
  Delivery.deliver_keeps (fun _ => ensureMailbox_writes) (fun _ => findOrCreateThread_writes)
    sealForAccount_writes fun _ h _ => insertMessage_writes h

theorem ensureDkimKey_writes (generated : Except Text (Bytes × Bytes)) (domain : Text) :
    Keeps (Writes accountId D) (onQueue (ensureDkimKey faults generated domain)) := by
  refine onQueue_keeps (.bind (query_keeps _ _ _) fun found => ?_)
  cases found with
  | some => exact .pure
  | none =>
    cases generated with
    | error => exact .throw
    | ok =>
      refine .bind sql_keeps fun _ => ?_
      refine .bind (.modify fun q s => ?_) fun _ => .pure
      exact .single (.keys _)

theorem enqueueWrite_writes {sign : DomainKey → Bytes → Except Error Text} {domainKey : DomainKey} :
    Keeps (Writes accountId D) (enqueueWrite P faults sign domainKey new) := by
  refine .ite .throw ?_
  cases sign domainKey new.rawMessage with
  | error => exact .throw
  | ok => exact onBlobs_writes

variable {now : ℤ}

theorem addRcpts_writes {outboundId : ℤ} (rcpts : List Text) (q : QueueStore) (s : Stores)
    (h : ∃ o ∈ q.outbound, o.id = outboundId ∧ o.accountId = accountId) :
    Writes accountId D { s with queue := q } { s with queue := addRcpts outboundId now rcpts q } := by
  induction rcpts generalizing q with
  | nil => exact refl _
  | cons rcpt _ ih =>
    refine trans_of _ ?_ (ih (addRcpt outboundId now rcpt q) h)
    exact .single (.rcpt h)

theorem enqueueInsert_writes (messageBlob : Text) (h : new.accountId = accountId) :
    Keeps (Writes accountId D) (onQueue (enqueueInsert faults now new messageBlob)) := by
  refine onQueue_keeps fun q s => ?_
  rcases enqueueInsert_queue faults now new messageBlob q with ⟨hsame, -⟩ | ⟨n, -, hins, -⟩
  · rw [hsame]
  · rw [hins]
    refine trans_of _ (b := { s with queue := addOutbound new messageBlob now q }) ?_ ?_
    · exact .single (.outbound (.insert h rfl))
    · exact addRcpts_writes _ _ s ⟨_, List.mem_append_right _ List.mem_cons_self, rfl, h⟩

theorem enqueue_writes (sign : DomainKey → Bytes → Except Error Text) (domainKey : DomainKey)
    (h : new.accountId = accountId) :
    Keeps (Writes accountId D) (enqueue P faults sign now domainKey new) :=
  .bind enqueueWrite_writes fun blob => enqueueInsert_writes blob h

end
end Litterae
