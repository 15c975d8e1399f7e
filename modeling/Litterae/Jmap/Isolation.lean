import Litterae.Jmap.Responses

/-! # Accounts are isolated from one another

A method call writes for its account only, so the rows of every other account are the same
afterwards (`Writes.sameFor`). Files are removed with the message that names them, so with no file
named twice those of other accounts stay.
-/

namespace Litterae
open Foundations Store Queue Exec List

def rcptsFor (b : ℤ) (q : QueueStore) : List OutboundRecipient :=
  q.rcpts.filter fun r => q.outbound.any fun o => o.accountId == b && o.id == r.outboundId

structure SameFor (b : ℤ) (s t : Stores) : Prop where
  messages : (t.metadata.messages.filter fun r => r.accountId == b) =
    s.metadata.messages.filter fun r => r.accountId == b
  threads : (t.metadata.threads.filter fun r => r.accountId == b) =
    s.metadata.threads.filter fun r => r.accountId == b
  mailboxes : (t.metadata.mailboxes.filter fun r => r.accountId == b) =
    s.metadata.mailboxes.filter fun r => r.accountId == b
  uploads : (t.metadata.uploads.filter fun r => r.accountId == b) =
    s.metadata.uploads.filter fun r => r.accountId == b
  contacts : (t.metadata.contacts.filter fun r => r.accountId == b) =
    s.metadata.contacts.filter fun r => r.accountId == b
  events : (t.queue.events.filter fun r => r.accountId == b) =
    s.queue.events.filter fun r => r.accountId == b
  outbound : (t.queue.outbound.filter fun r => r.accountId == b) =
    s.queue.outbound.filter fun r => r.accountId == b
  rcpts : rcptsFor b t.queue = rcptsFor b s.queue
  /-- With the signature. -/
  account : findById t.accounts b = findById s.accounts b
  appPasswords : (t.appPasswords.filter fun r => r.accountId == b) =
    s.appPasswords.filter fun r => r.accountId == b

theorem SameFor.rfl (b : ℤ) (s : Stores) : SameFor b s s :=
  ⟨Eq.refl _, Eq.refl _, Eq.refl _, Eq.refl _, Eq.refl _, Eq.refl _, Eq.refl _, Eq.refl _, Eq.refl _,
    Eq.refl _⟩

variable {b : ℤ}

theorem SameFor.trans {s t u : Stores} (h : SameFor b s t) (h' : SameFor b t u) :
    SameFor b s u where
  messages := h'.messages.trans h.messages
  threads := h'.threads.trans h.threads
  mailboxes := h'.mailboxes.trans h.mailboxes
  uploads := h'.uploads.trans h.uploads
  contacts := h'.contacts.trans h.contacts
  events := h'.events.trans h.events
  outbound := h'.outbound.trans h.outbound
  rcpts := h'.rcpts.trans h.rcpts
  account := h'.account.trans h.account
  appPasswords := h'.appPasswords.trans h.appPasswords

section
variable {a : ℤ} {D : ℤ → Prop} {s t : Stores}

theorem any_of_filter {ρ : Type} {p q : ρ → Bool} {l l' : List ρ} (h : l'.filter p = l.filter p) :
    (l'.any fun r => p r && q r) = l.any fun r => p r && q r := by
  have hany := congrArg (List.any · q) h
  simpa only [any_filter] using hany

theorem Write.sameFor (h : Write a D s t) (hb : b ≠ a)
    (hs : (s.queue.outbound.map OutboundMessage.id).Nodup) : SameFor b s t := by
  cases h with
  | messages h => exact { SameFor.rfl b s with messages := h.others hb }
  | mailboxes h => exact { SameFor.rfl b s with mailboxes := h.others hb }
  | threads h => exact { SameFor.rfl b s with threads := h.others hb }
  | uploads h => exact { SameFor.rfl b s with uploads := h.others hb }
  | contacts h => exact { SameFor.rfl b s with contacts := h.others hb }
  | events h => exact { SameFor.rfl b s with events := h.others hb }
  | appPasswords h => exact { SameFor.rfl b s with appPasswords := h.others hb }
  | outbound h =>
    refine { SameFor.rfl b s with outbound := h.others hb, rcpts := ?_ }
    refine filter_congr fun r _ => any_of_filter (h.others hb)
  | @rcpt r h =>
    refine { SameFor.rfl b s with rcpts := ?_ }
    obtain ⟨o, ho, hid, howner⟩ := h
    -- the message the new recipient belongs to is the account's own
    have hnone : (s.queue.outbound.any fun o => o.accountId == b && o.id == r.outboundId) = false := by
      rw [any_eq_false]
      intro o' ho' hboth
      obtain ⟨howner', hid'⟩ : o'.accountId = b ∧ o'.id = r.outboundId := by simpa using hboth
      obtain rfl : o' = o := inj_on_of_nodup_map hs ho' ho (hid'.trans hid.symm)
      exact hb (howner'.symm.trans howner)
    rw [rcptsFor, rcptsFor, filter_append, filter_singleton, hnone]
    simp
  | signature sealedText =>
    refine { SameFor.rfl b s with account := ?_ }
    have hfind := findBy_updateWhere Account.id (p := fun r => r.id == a)
      (f := fun r => { r with signatureSealed := sealedText }) (fun _ => rfl) b s.accounts
    refine hfind.trans ?_
    rw [findById]
    cases hrow : findBy Account.id b s.accounts with
    | none => rfl
    | some row =>
      have hid : ¬ row.id = a := fun h => hb ((findBy_some _ hrow).2.symm.trans h)
      simp [hid]
  | _ => exact { SameFor.rfl b s with messages := Eq.refl _ }

theorem Write.outboundIds (h : Write a D s t) (hs : (s.queue.outbound.map OutboundMessage.id).Nodup) :
    (t.queue.outbound.map OutboundMessage.id).Nodup := by
  cases h with
  | outbound h => exact h.nodup hs
  | _ => exact hs

theorem Writes.outboundIds (h : Writes a D s t) (hs : (s.queue.outbound.map OutboundMessage.id).Nodup) :
    (t.queue.outbound.map OutboundMessage.id).Nodup := by
  induction h with
  | refl => exact hs
  | tail _ hw ih => exact hw.outboundIds ih

theorem Writes.sameFor (h : Writes a D s t) (hb : b ≠ a)
    (hs : (s.queue.outbound.map OutboundMessage.id).Nodup) : SameFor b s t := by
  induction h with
  | refl => exact SameFor.rfl b s
  | tail h hw ih => exact ih.trans (hw.sameFor hb (Writes.outboundIds h hs))

end

namespace Jmap

/-! ## What the account and the others have -/

/-- Row ids name rows, and every recipient belongs to a message. -/
structure WellFormed (s : Stores) : Prop where
  unique : Unique s
  mailboxIds : (s.metadata.mailboxes.map Mailbox.id).Nodup
  uploadIds : (s.metadata.uploads.map StoredUpload.id).Nodup
  outboundIds : (s.queue.outbound.map OutboundMessage.id).Nodup
  rcpts : ∀ r ∈ s.queue.rcpts, ∃ o ∈ s.queue.outbound, o.id = r.outboundId

def rowFiles (s : Stores) : List Text :=
  s.metadata.messages.map (fun r => r.blobHash) ++ s.metadata.uploads.map StoredUpload.blobHash

/-- A row of the account names the file. -/
def NamedBy (b : ℤ) (s : Stores) (h : Text) : Prop :=
  (∃ r ∈ s.metadata.messages, r.accountId = b ∧ r.blobHash = h) ∨
    ∃ u ∈ s.metadata.uploads, u.accountId = b ∧ u.blobHash = h

structure SameIds (s s' : Stores) : Prop where
  messages : nextRowid StoredMessage.id s.metadata.messages = nextRowid StoredMessage.id s'.metadata.messages
  mailboxes : nextRowid Mailbox.id s.metadata.mailboxes = nextRowid Mailbox.id s'.metadata.mailboxes
  threads : nextRowid Thread.id s.metadata.threads = nextRowid Thread.id s'.metadata.threads
  contacts : nextRowid StoredContact.id s.metadata.contacts = nextRowid StoredContact.id s'.metadata.contacts
  outbound : nextRowid OutboundMessage.id s.queue.outbound = nextRowid OutboundMessage.id s'.queue.outbound
  events : nextRowid ScheduledEvent.id s.queue.events = nextRowid ScheduledEvent.id s'.queue.events

/-- Two databases agree on what the account of a call has: its rows and their files, the key its domain
signs with, and the search index of the session. -/
structure Agree (ctx : CallContext) (c c' : CallState) : Prop where
  rows : SameFor ctx.accountId c'.stores c.stores
  ids : SameIds c.stores c'.stores
  files : ∀ h, NamedBy ctx.accountId c.stores h → c.stores.blobs.file h = c'.stores.blobs.file h
  signingKey : findBy DomainKey.domain (addressDomain ctx.address) c.stores.queue.dkimKeys =
    findBy DomainKey.domain (addressDomain ctx.address) c'.stores.queue.dkimKeys
  searchIndex : c.searchIndex = c'.searchIndex

/-- The view of a call on two databases; `guards` are the files to be kept. -/
def viewOf (ctx : CallContext) (s s' : Stores) (guards : Text → Bytes → Prop) : View where
  account := ctx.accountId
  domain := addressDomain ctx.address
  reads h := s.blobs.file h = s'.blobs.file h
  tries h := (s.blobs.file h).isSome = (s'.blobs.file h).isSome
  guards := guards
  numbered := True
  opened := True
  kept := True

/-- A write whose storage calls fail is tried on both databases or, the file being there, on none. -/
structure SameFailures (E : Environment) (io : CallIo) (ctx : CallContext) (s s' : Stores) : Prop where
  drafts : ∀ k, Drafts (viewOf ctx s s' fun _ _ => False) E.P (io.emailSet.drafts k).sealing
  submits : ∀ k, Submits (viewOf ctx s s' fun _ _ => False) E.P (io.submissions k)

section
variable {E : Environment} {io : CallIo} {ctx : CallContext} {call : MethodCall} {c c' : CallState}
  {guards : Text → Bytes → Prop} {ε : Type} {q : QueueStore} {name : Text}

theorem rcptsOf_eq_zero (hrcpts : ∀ r ∈ q.rcpts, ∃ o ∈ q.outbound, o.id = r.outboundId) {k : ℤ}
    (hk : nextRowid OutboundMessage.id q.outbound ≤ k) : rcptsOf q k = 0 := by
  rw [rcptsOf, length_eq_zero_iff, filter_eq_nil_iff]
  intro r hr hid
  obtain ⟨o, ho, hrow⟩ := hrcpts r hr
  have hlt := lt_nextRowid OutboundMessage.id ho
  have hkey : r.outboundId = k := by simpa using hid
  omega

theorem rcptsOf_own {k : ℤ} {o : OutboundMessage} (ho : o ∈ q.outbound) (howner : o.accountId = b)
    (hid : o.id = k) :
    rcptsOf q k = ((rcptsFor b q).filter fun r => r.outboundId == k).length := by
  rw [rcptsOf, rcptsFor, filter_filter]
  congr 1
  refine filter_congr fun r _ => ?_
  by_cases hr : r.outboundId = k
  · have hany : (q.outbound.any fun o => o.accountId == b && o.id == r.outboundId) = true :=
      any_eq_true.mpr ⟨o, ho, by simp [howner, hid, hr]⟩
    simp [hr, ← hany]
  · simp [hr]

theorem twin_of_agree (hc : WellFormed c.stores) (hc' : WellFormed c'.stores) (h : Agree ctx c c')
    (hguards : ∀ name bytes, guards name bytes → c.stores.blobs.file name = some bytes)
    (hfiles : Unguarded (viewOf ctx c.stores c'.stores guards) c.stores) :
    CallTwin (viewOf ctx c.stores c'.stores guards) c c' := by
  have houtbound : Alike OutboundMessage.id OutboundMessage.accountId ctx.accountId
      c.stores.queue.outbound c'.stores.queue.outbound :=
    ⟨h.rows.outbound, hc.outboundIds, hc'.outboundIds⟩
  refine ⟨⟨⟨fun _ h => h, fun _ h => h, hguards⟩, ?_, ?_, h.rows.account⟩, h.searchIndex⟩
  · exact
      { messages := ⟨h.rows.messages, hc.unique.messages, hc'.unique.messages⟩
        messageIds := fun _ => h.ids.messages
        mailboxes := ⟨h.rows.mailboxes, hc.mailboxIds, hc'.mailboxIds⟩
        mailboxIds := h.ids.mailboxes
        threadIds := h.ids.threads
        uploads := ⟨h.rows.uploads, hc.uploadIds, hc'.uploadIds⟩
        contacts := ⟨h.rows.contacts, hc.unique.contacts, hc'.unique.contacts⟩
        contactIds := fun _ => h.ids.contacts
        messageBlobs := fun _ r hr howner => h.files _ (.inl ⟨r, hr, howner, rfl⟩)
        uploadBlobs := fun u hu howner => h.files _ (.inr ⟨u, hu, howner, rfl⟩)
        unguarded := fun _ => hfiles }
  · refine
      { outbound := houtbound, outboundIds := h.ids.outbound, rcpts := fun k hk => ?_
        events := ⟨h.rows.events, hc.unique.events, hc'.unique.events⟩
        eventIds := h.ids.events, signingKey := h.signingKey }
    rcases hk with ⟨o, ho, howner, hid⟩ | hlater
    · have ho' := (houtbound.mem_iff howner).mp ho
      rw [rcptsOf_own ho howner hid, rcptsOf_own ho' howner hid]
      exact congrArg (fun l : List OutboundRecipient =>
        (l.filter fun r => r.outboundId == k).length) h.rows.rcpts
    · rw [rcptsOf_eq_zero hc.rcpts hlater, rcptsOf_eq_zero hc'.rcpts (h.ids.outbound ▸ hlater)]

theorem callView (hctx : ctx.searched = ctx.accountId) {s s' : Stores}
    (hdrafts : ∀ k, Drafts (viewOf ctx s s' guards) E.P (io.emailSet.drafts k).sealing)
    (hsubmits : ∀ k, Submits (viewOf ctx s s' guards) E.P (io.submissions k)) :
    CallView (viewOf ctx s s' guards) E io ctx :=
  ⟨rfl, rfl, trivial, trivial, trivial, hctx, hdrafts, hsubmits⟩

theorem dispatch_same (hctx : ctx.searched = ctx.accountId) (hc : WellFormed c.stores)
    (hc' : WellFormed c'.stores) (h : Agree ctx c c') (hfail : SameFailures E io ctx c.stores c'.stores) :
    ((dispatch E io ctx call : Exec CallState ε MethodResponse) c).1 = (dispatch E io ctx call c').1 := by
  have htwin : CallTwin (viewOf ctx c.stores c'.stores fun _ _ => False) c c' :=
    twin_of_agree hc hc' h (fun _ _ h => h.elim) fun _ _ _ _ h => h
  exact (dispatch_leads (callView hctx hfail.drafts hfail.submits) call c c'
    ⟨htwin, fun _ _ _ _ h => h⟩).1

theorem dispatch_others_rows (hb : b ≠ ctx.accountId) (hc : WellFormed c.stores) :
    SameFor b c.stores ((dispatch E io ctx call : Exec CallState ε MethodResponse) c).2.stores :=
  (dispatch_writes call c hc.unique).sameFor hb hc.outboundIds

theorem owner_of_named {s : Stores} (hs : (rowFiles s).Nodup) {r : StoredMessage}
    (hr : r ∈ s.metadata.messages) (hb : NamedBy b s r.blobHash) : r.accountId = b := by
  obtain ⟨hmessages, -, hdisjoint⟩ := nodup_append.mp hs
  rcases hb with ⟨r', hr', howner, hname⟩ | ⟨u, hu, -, hname⟩
  · rw [← inj_on_of_nodup_map hmessages hr' hr hname]
    exact howner
  · exact absurd hname.symm (hdisjoint _ (mem_map_of_mem hr) _ (mem_map_of_mem hu))

theorem NamedBy.of_sameFor {s t : Stores} (h : NamedBy b s name) (hsame : SameFor b s t) :
    NamedBy b t name := by
  rcases h with ⟨r, hr, howner, hname⟩ | ⟨u, hu, howner, hname⟩
  · have hmem : r ∈ s.metadata.messages.filter fun r => r.accountId == b :=
      mem_filter.mpr ⟨hr, by simpa using howner⟩
    rw [← hsame.messages] at hmem
    exact .inl ⟨r, (mem_filter.mp hmem).1, howner, hname⟩
  · have hmem : u ∈ s.metadata.uploads.filter fun u => u.accountId == b :=
      mem_filter.mpr ⟨hu, by simpa using howner⟩
    rw [← hsame.uploads] at hmem
    exact .inr ⟨u, (mem_filter.mp hmem).1, howner, hname⟩

theorem afterDrafts_sameFor (hb : b ≠ ctx.accountId) (hc : WellFormed c.stores) :
    SameFor b c.stores (afterDrafts E io ctx call c.stores) := by
  unfold afterDrafts
  split
  · rename_i args _
    have hwrites : Writes ctx.accountId (fun _ => False) c.stores
        (draftsFiled E.P E.C io.emailSet ctx.toAccountContext ctx.accountId args c.stores) :=
      eachItem_keeps (fun k i => createDraft_writes _) c.stores
    exact hwrites.sameFor hb hc.outboundIds
  · exact SameFor.rfl b _

def othersFiles (a : ℤ) (s : Stores) (name : Text) (bytes : Bytes) : Prop :=
  s.blobs.file name = some bytes ∧ ∃ b, b ≠ a ∧ NamedBy b s name

theorem dispatch_others_files (hctx : ctx.searched = ctx.accountId) (hb : b ≠ ctx.accountId)
    (hc : WellFormed c.stores) (hfiles : (rowFiles c.stores).Nodup)
    (hdrafts : (rowFiles (afterDrafts E io ctx call c.stores)).Nodup) {bytes : Bytes}
    (hname : NamedBy b c.stores name) (hfile : c.stores.blobs.file name = some bytes) :
    ((dispatch E io ctx call : Exec CallState ε MethodResponse) c).2.stores.blobs.file name =
      some bytes := by
  have hself : Agree ctx c c :=
    ⟨SameFor.rfl _ _, ⟨rfl, rfl, rfl, rfl, rfl, rfl⟩, fun _ _ => rfl, rfl, rfl⟩
  -- a file of another account is not named by a message of this one, before and after the drafts
  have hother : ∀ t, (rowFiles t).Nodup → (∀ b, b ≠ ctx.accountId → SameFor b c.stores t) →
      Unguarded (viewOf ctx c.stores c.stores (othersFiles ctx.accountId c.stores)) t := by
    rintro t ht hsame r hr howner bytes ⟨-, b', hb', hnamed⟩
    exact hb' ((owner_of_named ht hr (hnamed.of_sameFor (hsame b' hb'))).symm.trans howner)
  have htwin : CallTwin (viewOf ctx c.stores c.stores (othersFiles ctx.accountId c.stores)) c c :=
    twin_of_agree hc hc hself (fun _ _ h => h.1) (hother _ hfiles fun b _ => SameFor.rfl b _)
  have hview : CallView (viewOf ctx c.stores c.stores (othersFiles ctx.accountId c.stores)) E io ctx :=
    callView hctx (fun _ _ => .inr rfl) fun _ _ _ _ _ => .inr rfl
  have hdispatch : Leads _ _ (dispatch E io ctx call : Exec CallState ε MethodResponse) :=
    dispatch_leads hview call
  have hafter := hdispatch c c ⟨htwin, hother _ hdrafts fun b' hb' => afterDrafts_sameFor hb' hc⟩
  exact hafter.2.stores.blobs.guards name bytes ⟨hfile, b, hb, hname⟩

/-- A method call for an account leaves the rows of every other account as they are and removes none of
their files, provided that no two rows name the same file, new drafts included; and its response is the
same on every database that agrees on what the account has. -/
theorem jmap_isolation (ε : Type) (E : Environment) (io : CallIo) (ctx : CallContext)
    (call : MethodCall) {c : CallState} (hctx : ctx.searched = ctx.accountId) (hc : WellFormed c.stores)
    (hfiles : (rowFiles c.stores).Nodup)
    (hdrafts : (rowFiles (afterDrafts E io ctx call c.stores)).Nodup) :
    (∀ b, b ≠ ctx.accountId →
      SameFor b c.stores ((dispatch E io ctx call : Exec CallState ε MethodResponse) c).2.stores ∧
      ∀ name bytes, NamedBy b c.stores name → c.stores.blobs.file name = some bytes →
        ((dispatch E io ctx call : Exec CallState ε MethodResponse) c).2.stores.blobs.file name =
          some bytes) ∧
    ∀ c', WellFormed c'.stores → Agree ctx c c' → SameFailures E io ctx c.stores c'.stores →
      ((dispatch E io ctx call : Exec CallState ε MethodResponse) c).1 = (dispatch E io ctx call c').1 := by
  constructor
  · intro b hb
    exact ⟨dispatch_others_rows hb hc, fun name bytes hname hfile =>
      dispatch_others_files hctx hb hc hfiles hdrafts hname hfile⟩
  · intro c' hc' hagree hfail
    exact dispatch_same hctx hc hc' hagree hfail

end

def sampleEnvironment : Environment where
  P := Primitives.sample fun _ => none
  C := sampleComposer
  R := { parse := fun _ => none, sanitize := fun html _ => (html, 0), matchDocs := fun _ _ => .ok [] }
  J := { toVec := fun c => utf8 c.email, fromSlice := fun _ => .error [] }
  maxUploadSize := 1000

def sampleSeal : SealDraw := ⟨List.replicate 24 9, 1700000000, .none⟩

def sampleCallIo : CallIo where
  faults := .none
  items := fun _ => .none
  emailGet := ⟨.none, fun _ => .none, .none, .none⟩
  emailSet := ⟨fun _ => sampleComposeDraw, fun _ => ⟨.none, fun _ => .none⟩, fun _ => .none⟩
  submissions := fun _ => sampleSubmitDraw .none
  signatures := fun _ => sampleSeal
  contactSet := ⟨.none, fun _ => sampleSeal, fun _ => sampleSeal, fun _ => .none⟩

def sampleCallContext : CallContext :=
  { sampleContext with accountId := 1, searched := 1, amk := List.replicate 32 7 }

def sampleName (digit : Char) : Text := List.replicate 64 digit

def sampleTrashed (id accountId : ℤ) (digit : Char) (keywords : String) : StoredMessage :=
  { sampleRow id accountId keywords with
    accountId := accountId, threadId := id, blobHash := sampleName digit }

/-- Two accounts with a message each; `keywords` are those of the other account's message. -/
def sampleNeighbours (keywords : String) : CallState where
  searchIndex := none
  stores :=
    { Stores.empty with
      blobs := (BlobStore.empty.put (sampleName 'a') [1]).put (sampleName 'b') [2]
      metadata :=
        { MetadataStore.empty with
          messages := [sampleTrashed 1 1 'a' "", sampleTrashed 2 2 'b' keywords]
          mailboxes := [⟨1, 1, .trash, "Trash"⟩, ⟨2, 2, .trash, "Trash"⟩] } }

def sampleDestroy : MethodCall where
  invocation := .emailSet (.ok ("1", ⟨[], [], ["m1", "m2"]⟩))
  callId := "0"

theorem sampleNeighbours_wellFormed (keywords : String) : WellFormed (sampleNeighbours keywords).stores where
  unique := ⟨by simp [sampleNeighbours, sampleTrashed, sampleRow],
    by simp [sampleNeighbours, MetadataStore.empty],
    by simp [sampleNeighbours, Stores.empty, QueueStore.empty]⟩
  mailboxIds := by simp [sampleNeighbours]
  uploadIds := by simp [sampleNeighbours, MetadataStore.empty]
  outboundIds := by simp [sampleNeighbours, Stores.empty, QueueStore.empty]
  rcpts := by simp [sampleNeighbours, Stores.empty, QueueStore.empty]

theorem sampleNeighbours_agree (keywords keywords' : String) :
    Agree sampleCallContext (sampleNeighbours keywords) (sampleNeighbours keywords') where
  rows := ⟨rfl, rfl, rfl, rfl, rfl, rfl, rfl, rfl, rfl, rfl⟩
  ids := ⟨rfl, rfl, rfl, rfl, rfl, rfl⟩
  files := fun _ _ => rfl
  signingKey := rfl
  searchIndex := rfl

def sampleDestroyed (keywords : String) : Res Unit MethodResponse × CallState :=
  dispatch sampleEnvironment sampleCallIo sampleCallContext sampleDestroy (sampleNeighbours keywords)

def destroyedIn : Res Unit MethodResponse → List (Text × Bool)
  | .ok ⟨_, .ok (.emailsSet result), _⟩ => result.destroyed.map fun o => (o.1, o.2.isOk)
  | _ => []

theorem jmap_isolation_destroy :
    (destroyedIn (sampleDestroyed "$seen").1 = [("m1".toList, true), ("m2".toList, false)] ∧
      (sampleDestroyed "$seen").2.stores.blobs.file (sampleName 'a') = none) ∧
    SameFor 2 (sampleNeighbours "$seen").stores (sampleDestroyed "$seen").2.stores ∧
    (sampleDestroyed "$seen").2.stores.blobs.file (sampleName 'b') = some [2] ∧
    (sampleDestroyed "$seen").1 = (sampleDestroyed "$flagged").1 := by
  have hfiles : (rowFiles (sampleNeighbours "$seen").stores).Nodup := by decide
  obtain ⟨hothers, hsame⟩ := jmap_isolation Unit sampleEnvironment sampleCallIo sampleCallContext
    sampleDestroy rfl (sampleNeighbours_wellFormed "$seen") hfiles hfiles
  obtain ⟨hrows, hkept⟩ := hothers 2 (by decide)
  refine ⟨by decide +kernel, hrows, ?_, ?_⟩
  · exact hkept (sampleName 'b') [2]
      (.inl ⟨sampleTrashed 2 2 'b' "$seen", by simp [sampleNeighbours], rfl, rfl⟩)
      (by decide)
  · exact hsame _ (sampleNeighbours_wellFormed "$flagged") (sampleNeighbours_agree _ _)
      ⟨fun _ _ => .inl ⟨rfl, rfl⟩, fun _ _ _ _ _ => .inl ⟨rfl, rfl⟩⟩

/-! ## Requests

No request opens a session, and a request writes for the account of its session only.
-/

/-- The account whose session `token` names, expired or not. -/
def AppState.accountAt (s : AppState) (token : Text) : Option ℤ :=
  (s.sessions.sessions token).map Session.accountId

/-- Ids name rows. -/
structure Tidy (s : Stores) : Prop where
  unique : Unique s
  outboundIds : (s.queue.outbound.map OutboundMessage.id).Nodup

/-- What the requests of any number of clients come to. -/
structure Served (s t : AppState) : Prop where
  sessions : ∀ token id, t.accountAt token = some id → s.accountAt token = some id
  tidy : Tidy s.stores → Tidy t.stores
  others : Tidy s.stores → ∀ b, (∀ token, s.accountAt token ≠ some b) → SameFor b s.stores t.stores

instance : IsPreorder AppState Served where
  refl := fun _ => ⟨fun _ _ h => h, id, fun _ b _ => SameFor.rfl b _⟩
  trans := fun _ _ _ h h' =>
    { sessions := fun token id hu => h.sessions token id (h'.sessions token id hu)
      tidy := fun hs => h'.tidy (h.tidy hs)
      others := fun hs b hb => (h.others hs b hb).trans
        (h'.others (h.tidy hs) b fun token ht => hb token (h.sessions token b ht)) }

variable {E : Environment} {io : RequestIo} {α β : Type} {token : Text} {s : AppState} {a : ℤ} {now : ℕ}

theorem Served.of_writes {stores : Stores} {D : ℤ → Prop} (ha : s.accountAt token = some a)
    (h : Unique s.stores → Writes a D s.stores stores) : Served s { s with stores } where
  sessions _ _ h := h
  tidy hs := ⟨(h hs.unique).unique hs.unique, (h hs.unique).outboundIds hs.outboundIds⟩
  others hs _ hb := (h hs.unique).sameFor (fun hba => hb token (hba ▸ ha)) hs.outboundIds

theorem Served.put {session : Option Session} (h : ∀ id, session.map Session.accountId = some id →
    s.accountAt token = some id) : Served s { s with sessions := s.sessions.put token session } where
  sessions other id hid := by
    by_cases hother : other = token
    · subst hother
      exact h id (by simpa [AppState.accountAt] using hid)
    · simpa [AppState.accountAt, hother] using hid
  tidy hs := hs
  others _ b _ := SameFor.rfl b _

/-- After `touch` the session is there, or there is none. -/
theorem touch_bind {f : Option Session → Exec AppState StatusCode α}
    (hnone : ∀ t, Served t (f none t).2)
    (hsome : ∀ session t, Served s t → t.sessions.sessions token = some session →
      Served t (f (some session) t).2) :
    Served s ((onSessions (SessionRegistry.touch now token) >>= f) s).2 := by
  change Served s (f (s.sessions.touch now token).1
    { s with sessions := (s.sessions.touch now token).2 }).2
  unfold SessionRegistry.touch
  cases hfound : s.sessions.sessions token with
  | none => exact hnone s
  | some session =>
    dsimp only
    split
    · exact trans_of Served (.put (by simp)) (hnone _)
    · have hput : Served s
          { s with sessions := s.sessions.put token (some { session with lastSeen := now }) } :=
        .put fun _ h => by rw [AppState.accountAt, hfound]; exact h
      exact trans_of Served hput (hsome _ _ hput (s.sessions.put_self token _))

/-- A call in a session writes for the session's account. -/
theorem withSession_served {f : Session → Exec CallState StatusCode α}
    (hf : ∀ session, s.accountAt token = some session.accountId →
      Keeps (Given (fun c => Unique c.stores) (CallWrites session.accountId fun _ => True)) (f session)) :
    Served s (withSession now token f s).2 := by
  refine touch_bind (fun t => refl t) fun session t hst ht => ?_
  have hat : t.accountAt token = _ := congrArg (Option.map Session.accountId) ht
  rw [ofOption_some_bind]
  simp only [inSession, Exec.zoom, ht]
  refine trans_of Served
    (.of_writes hat (hf session (hst.sessions _ _ hat) ⟨t.stores, session.searchIndex⟩)) ?_
  exact .put fun _ h => hat.trans h

theorem withSession_keeps {f : Session → Exec Stores StatusCode α}
    (hf : ∀ session, Keeps (Writes session.accountId fun _ => True) (f session)) :
    Keeps Served (withSession now token fun session => inStores (f session)) := fun _ =>
  withSession_served fun session _ => .given (inStores_writes (hf session))

theorem accountIdOf_keeps {f : ℤ → Exec AppState StatusCode α}
    (hf : ∀ id s, s.accountAt token = some id → Served s (f id s).2) :
    Keeps Served (accountIdOf now token >>= f) := fun _ =>
  touch_bind (f := fun session => ofOption .unauthorized (session.map Session.accountId) >>= f)
    (fun t => refl t) fun _ t _ ht => hf _ t (congrArg (Option.map _) ht)

/-- The session of `token`, if there is one, is of the account `a`. -/
def Names (token : Text) (a : ℤ) (s : AppState) : Prop := ∀ id, s.accountAt token = some id → id = a

instance : Stable (Names token a) Served := ⟨fun _ _ h hs id hid => hs id (h.sessions _ _ hid)⟩

theorem callMethods_served (k : ℕ) (calls : List MethodCall) :
    Keeps (Given (Names token a) Served) (callMethods E io token a k calls) := by
  induction calls generalizing k with
  | nil => exact .pure
  | cons call _ ih =>
    refine .bind (fun s hs => withSession_served fun session ha => ?_) fun _ =>
      .bind (ih (k + 1)) fun _ => .pure
    rw [hs _ ha]
    exact (dispatch_writes call : Keeps (Given _ (CallWrites (contextOf E a session).accountId _)) _)

theorem audit_served {auditOk : Bool} {action : String} {detail : Text} :
    Keeps Served (audit auditOk action detail : Exec AppState StatusCode Unit) := by
  refine .modify fun s => ?_
  split
  · exact ⟨fun _ _ h => h, fun hs => ⟨⟨hs.1.1, hs.1.2, hs.1.3⟩, hs.2⟩, fun _ b _ =>
      { SameFor.rfl b s.stores with messages := Eq.refl _ }⟩
  · exact refl s

theorem onStores_served {x : Exec Stores Error α} {f : α → Exec AppState StatusCode β}
    {g : Error → StatusCode} (hx : Keeps (Writes a fun _ => True) x) (hf : ∀ a, Keeps Served (f a))
    (ha : s.accountAt token = some a) : Served s (((onStores x).mapErr g >>= f) s).2 := by
  have hstores : Served s ((onStores x).mapErr g s).2 := by
    rw [state_mapErr]
    exact .of_writes ha fun _ => hx s.stores
  refine state_bind hstores fun a t ht => ?_
  rw [ht] at hstores
  exact trans_of Served hstores (hf a t)

theorem resolveBlob_writes {faults : Faults} {priv : Bytes} {blobId : Text} :
    Keeps (Writes a fun _ => True) (resolveBlob E faults a priv blobId) := by
  unfold resolveBlob
  split
  · exact .throw
  · refine .bind (.mapErr onMetadata_query) fun _ => .bind .ofOption fun _ => ?_
    exact .bind (.mapErr openBlob_writes) fun _ => .bind .ofOption fun _ => .bind .ofOption fun _ => .pure
  · refine .bind (.mapErr onMetadata_query) fun _ => .bind .ofOption fun _ => ?_
    exact .bind (.mapErr openBlob_writes) fun _ => .pure

theorem storeUpload_writes {session : Session} {filename contentType : Text} {body : Bytes} :
    Keeps (Writes session.accountId fun _ => True) (storeUpload E io session filename contentType body) := by
  refine .bind (.mapErr sealForAccount_writes) fun _ => .bind (.mapErr ?_) fun _ => .pure
  refine onMetadata_keeps (.bind sql_keeps fun _ => .update fun m s => ?_)
  exact .single (.uploads (s := { s with metadata := m }) (.insert rfl rfl))

theorem createAppPassword_writes {P : Primitives} {draw : AppPasswordDraw} {amk : Bytes} {label : Text}
    {scope : AppPasswordScope} :
    Keeps (Writes a fun _ => True) (createAppPassword P a draw amk label scope) :=
  .bind .ofExcept fun _ => .bind sql_keeps fun _ => .update fun _ =>
    .single (.appPasswords (.insert rfl rfl))

theorem revokeAppPassword_writes {faults : Faults} {id : ℤ} :
    Keeps (Writes a fun _ => True) (revokeAppPassword a faults id) := by
  refine .bind sql_keeps fun _ => .modify fun s => .single (.appPasswords (.delete ?_ fun _ _ _ => trivial))
  intro p hp
  simp_all

theorem serve_served (E : Environment) (io : RequestIo) (token : Text) (request : Request) :
    Keeps Served (serve E io token request) := by
  cases request with
  | session => exact accountIdOf_keeps fun _ t _ => refl t
  | api calls =>
    refine .bind (accountIdOf_keeps fun id t ht => ?_) fun _ => .pure
    exact callMethods_served 0 calls t fun _ h => Option.some.inj (h.symm.trans ht)
  | download =>
    exact .bind (withSession_keeps fun _ => .mapErr resolveBlob_writes) fun _ => .pure
  | upload =>
    refine .bind .throwIf fun _ => .bind .ofExcept fun _ => .bind ?_ fun _ => .pure
    exact withSession_keeps fun _ => storeUpload_writes
  | listAppPasswords =>
    exact accountIdOf_keeps fun _ _ => onStores_served (query_keeps _ _ _) fun _ => .pure
  | createAppPassword =>
    refine .bind .throwIf fun _ => .bind .ofOption fun _ => .bind .throwIf fun _ => .bind ?_ fun _ =>
      .bind audit_served fun _ => .pure
    exact withSession_keeps fun _ => .mapErr createAppPassword_writes
  | revokeAppPassword =>
    exact accountIdOf_keeps fun _ _ => onStores_served revokeAppPassword_writes fun _ =>
      .bind audit_served fun _ => .pure
  | lock =>
    have htouch : Keeps Served (onSessions (SessionRegistry.touch (io.instants 0) token)) := fun _ =>
      touch_bind (f := pure) (fun t => refl t) fun _ t _ _ => refl t
    exact .bind htouch fun _ => .bind (.whenSome fun _ => audit_served) fun _ =>
      .bind (fun _ => .put fun _ h => nomatch h) fun _ => .pure

abbrev Incoming := RequestIo × Text × Request

/-- The state after requests that came in one after another. -/
def serveAll (E : Environment) (requests : List Incoming) (s : AppState) : AppState :=
  requests.foldl (fun s r => (serve E r.1 r.2.1 r.2.2 s).2) s

theorem serveAll_served (requests : List Incoming) (s : AppState) :
    Served s (serveAll E requests s) := by
  induction requests generalizing s with
  | nil => exact refl s
  | cons r _ ih => exact trans_of Served (serve_served E r.1 r.2.1 r.2.2 s) (ih _)

/-- An account for which no session is open keeps all its rows, whatever requests come in with
whatever tokens, and whichever of their storage calls fail. -/
theorem requests_spare_others {b : ℤ} (E : Environment) (requests : List Incoming) (s : AppState)
    (hs : Tidy s.stores) (hb : ∀ token, s.accountAt token ≠ some b) :
    SameFor b s.stores (serveAll E requests s).stores :=
  (serveAll_served requests s).others hs b hb

def sampleServer : AppState where
  stores := (sampleNeighbours "$seen").stores
  sessions := (SessionRegistry.new 1800).put "t" (some ⟨1, ⟨[], []⟩, ⟨[], 0, []⟩, 0, none⟩)
  loginThrottle := .new 1 300

def sampleIncoming : Incoming :=
  (⟨fun _ => 5, 1700000000, .none, fun _ => sampleCallIo, sampleDraw,
      ⟨.padded [], .padded [], .padded [], 1700000000, .none⟩, true, none, true⟩,
    "t", .api [sampleDestroy])

/-- The client of account 1 destroys its message and asks for that of account 2. -/
theorem requests_spare_others_destroy :
    (serveAll sampleEnvironment [sampleIncoming] sampleServer).stores.metadata.messages.length = 1 ∧
      SameFor 2 sampleServer.stores (serveAll sampleEnvironment [sampleIncoming] sampleServer).stores := by
  have hwell := sampleNeighbours_wellFormed "$seen"
  refine ⟨by decide +kernel, requests_spare_others _ _ _ ⟨hwell.unique, hwell.outboundIds⟩ fun token => ?_⟩
  simp only [AppState.accountAt, sampleServer, SessionRegistry.put]
  split <;> simp [SessionRegistry.new]

/-! ## Tokens without a session -/

/-- The request is answered by an error and changes nothing. -/
def Refused (x : Exec AppState StatusCode α) (s : AppState) : Prop := ∃ e, x s = (.err e, s)

theorem Refused.bind {x : Exec AppState StatusCode α} {f : α → Exec AppState StatusCode β}
    (h : Refused x s) : Refused (x >>= f) s := h.imp fun _ => bind_of_err

theorem touch_dead {f : Option Session → Exec AppState StatusCode α}
    (h : s.sessions.sessions token = none) :
    (onSessions (SessionRegistry.touch now token) >>= f) s = f none s := by
  change f (s.sessions.touch now token).1 { s with sessions := (s.sessions.touch now token).2 } = _
  rw [SessionRegistry.touch, h]

theorem serve_dead {request : Request} (h : s.sessions.sessions token = none)
    (hlock : request ≠ .lock) : Refused (serve E io token request) s := by
  have hid : Refused (accountIdOf (io.instants 0) token) s := ⟨_, touch_dead h⟩
  have hin : ∀ {α : Type} (f : Session → Exec CallState StatusCode α),
      Refused (withSession (io.instants 0) token f) s := fun _ => ⟨_, touch_dead h⟩
  cases request with
  | session | listAppPasswords | revokeAppPassword => exact hid.bind
  | api => exact hid.bind.bind
  | download => exact (hin _).bind
  | upload | createAppPassword =>
    simp only [serve, upload, createAppPasswordFor, Refused, throwIf_bind_run, ofExcept_bind_run,
      ofOption_bind_run]
    repeat' split
    all_goals first | exact (hin _).bind | exact ⟨_, rfl⟩
  | lock => exact absurd rfl hlock

theorem lock_removes : (serve E io token .lock s).2.sessions.sessions token = none := by
  simp only [serve, lock, onSessions, bind_run, update_run]
  cases (s.sessions.touch (io.instants 0) token).1 <;> exact SessionRegistry.put_self _ token none

/-- Once its client has locked the session, every request with the token but another lock is refused
and changes nothing, whatever requests came in between. -/
theorem locked_token_refused (E : Environment) (io io' : RequestIo) (token : Text)
    (requests : List Incoming) (request : Request) (s : AppState) :
    request = .lock ∨
      Refused (serve E io' token request) (serveAll E requests (serve E io token .lock s).2) := by
  by_cases hlock : request = .lock
  · exact .inl hlock
  refine .inr (serve_dead ?_ hlock)
  have hserved := serveAll_served (E := E) requests (serve E io token .lock s).2
  cases h : (serveAll E requests (serve E io token .lock s).2).sessions.sessions token with
  | none => rfl
  | some session =>
    have hthere := hserved.sessions token session.accountId (congrArg (Option.map _) h)
    rw [AppState.accountAt, lock_removes] at hthere
    cases hthere

end Jmap
end Litterae
