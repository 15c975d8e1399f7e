import Litterae.Smtp.Inbound

/-! # What a 250 to the end of DATA promises

The inbound server answers 250 as soon as one delivery succeeded. `accept_stored_iff` says when that
reply is right: when no delivery succeeds, or every accepted recipient gets its copy.
-/

namespace Litterae.Smtp.Inbound
open Foundations Delivery Store List

structure RowFor (P : Primitives) (sender : Text) (raw : Bytes) (r : ResolvedRecipient)
    (t : Stores) (row : StoredMessage) : Prop where
  account : row.accountId = r.accountId
  address : row.rcptTo = r.address
  sender : row.mailFrom = sender
  content : ∃ dek nonce, row.blobHash = hashHex P (Crypto.aeadSeal P dek 1 nonce raw)
  blob : (t.blobs.file row.blobHash).isSome = true

def StoredFor (P : Primitives) (sender : Text) (raw : Bytes) (r : ResolvedRecipient)
    (s t : Stores) : Prop :=
  ∃ row ∈ t.metadata.messages.drop s.metadata.messages.length, RowFor P sender raw r t row

def Served (rs : List ResolvedRecipient) (pattern : List Bool) (r : ResolvedRecipient) : Prop :=
  ∃ r', (r', true) ∈ rs.zip pattern ∧ r'.accountId = r.accountId ∧ r'.address = r.address

/-- Deliveries that leave no recipient out: none succeeded, or each recipient is served. -/
def AllOrNothing (rs : List ResolvedRecipient) (pattern : List Bool) : Prop :=
  (∀ b ∈ pattern, b = false) ∨ ∀ r ∈ rs, Served rs pattern r

variable {spamReason : Option Text} {pattern : List Bool}

section
variable {P : Primitives} {remoteIp sender : Text} {io : Io} {raw : Bytes}
  {rs : List ResolvedRecipient} {r : ResolvedRecipient}
open Exec

def BlobsStay (s t : Stores) : Prop :=
  ∀ h, (s.blobs.file h).isSome = true → (t.blobs.file h).isSome = true

instance : IsTrans Stores BlobsStay := ⟨fun _ _ _ h h' b hb => h' b (h b hb)⟩

theorem deliverOne_blobsStay (draw : Draw) (r : ResolvedRecipient) :
    Keeps BlobsStay (deliverOne P remoteIp io draw sender r raw spamReason) := by
  refine .bind (fun s => ?_) fun _ s b hb => hb
  exact (deliver_mailOnly s).stays

theorem deliverOne_ok {draw : Draw} {s t : Stores}
    (h : deliverOne P remoteIp io draw sender r raw spamReason s = (.ok (), t)) :
    ∃ row, t.metadata.messages = s.metadata.messages ++ [row] ∧ RowFor P sender raw r t row := by
  obtain ⟨d, u, hu, h⟩ := bind_ok h
  obtain ⟨row, hrow⟩ := deliver_ok hu
  simp only [modify_run, Prod.mk.injEq, true_and] at h
  subst h
  refine ⟨row, hrow.messages, hrow.accountId, hrow.rcptTo, hrow.mailFrom,
    ⟨_, _, hrow.blobHash.trans hrow.name⟩, ?_⟩
  rw [hrow.blobHash]
  exact hrow.stored

theorem deliverOne_failed (draw : Draw) (r : ResolvedRecipient) :
    KeepsOnFailure SameMail (deliverOne P remoteIp io draw sender r raw spamReason) :=
  KeepsOnFailure.bind_ok deliver_failure fun _ _ => rfl

theorem deliverAll_cons {k : ℕ} {s t : Stores}
    (h : deliverAll P remoteIp io sender raw spamReason k (r :: rs) s = (some pattern, t)) :
    ∃ res u tail, deliverOne P remoteIp io (io.draws k) sender r raw spamReason s = (res, u) ∧
      deliverAll P remoteIp io sender raw spamReason (k + 1) rs u = (some tail, t) ∧
      pattern = res.isOk :: tail := by
  rw [deliverAll] at h
  split at h
  · simp at h
  · next res u hne hone =>
    rcases hall : deliverAll P remoteIp io sender raw spamReason (k + 1) rs u with ⟨_ | tail, v⟩
    · rw [hall] at h
      simp at h
    · rw [hall] at h
      simp only [Option.map_some, Prod.mk.injEq, Option.some.injEq] at h
      exact ⟨res, u, tail, hone, by rw [hall, h.2], h.1.symm⟩

theorem deliverAll_rows {k : ℕ} {s t : Stores}
    (h : deliverAll P remoteIp io sender raw spamReason k rs s = (some pattern, t)) :
    BlobsStay s t ∧ ∃ rows, t.metadata.messages = s.metadata.messages ++ rows ∧
      (∀ row ∈ rows, ∃ r, (r, true) ∈ rs.zip pattern ∧ row.accountId = r.accountId ∧
        row.rcptTo = r.address) ∧
      ∀ r, (r, true) ∈ rs.zip pattern → ∃ row ∈ rows, RowFor P sender raw r t row := by
  induction rs generalizing k s pattern with
  | nil =>
    obtain ⟨rfl, rfl⟩ := h
    exact ⟨fun _ hb => hb, [], by simp, by simp, by simp⟩
  | cons r _ ih =>
    obtain ⟨res, u, tail, hone, hrest, rfl⟩ := deliverAll_cons h
    obtain ⟨hstay, rows, hrows, hsound, hcomplete⟩ := ih hrest
    have hfirst : BlobsStay s u := (deliverOne_blobsStay _ r).run hone
    refine ⟨fun b hb => hstay b (hfirst b hb), ?_⟩
    cases hok : res.isOk with
    | false =>
      -- a failed delivery adds no row
      have hsame : u.metadata.messages = s.metadata.messages :=
        (deliverOne_failed _ r).run hone hok
      refine ⟨rows, by rw [hrows, hsame], fun row hrow => ?_, fun r' hr' => ?_⟩
      · obtain ⟨r', hr', hrow'⟩ := hsound row hrow
        exact ⟨r', mem_cons_of_mem _ hr', hrow'⟩
      · simp only [zip_cons_cons, mem_cons, Prod.mk.injEq, Bool.true_eq_false, and_false,
          false_or] at hr'
        exact hcomplete r' hr'
    | true =>
      obtain ⟨⟨⟩, rfl⟩ := Res.isOk_iff.mp hok
      obtain ⟨row, hrow, hfor⟩ := deliverOne_ok hone
      refine ⟨row :: rows, by rw [hrows, hrow]; simp, fun row' hrow' => ?_, fun r' hr' => ?_⟩
      · rcases mem_cons.mp hrow' with rfl | hrow'
        · exact ⟨r, mem_cons_self, hfor.account, hfor.address⟩
        · obtain ⟨r', hr', hsame⟩ := hsound row' hrow'
          exact ⟨r', mem_cons_of_mem _ hr', hsame⟩
      · rcases mem_cons.mp hr' with heq | hr'
        · obtain rfl : r' = r := congrArg Prod.fst heq
          exact ⟨row, mem_cons_self, { hfor with blob := hstay _ hfor.blob }⟩
        · obtain ⟨row', hrow', hfor'⟩ := hcomplete r' hr'
          exact ⟨row', mem_cons_of_mem _ hrow', hfor'⟩

theorem deliverAll_storedFor_iff {s t : Stores}
    (h : deliverAll P remoteIp io sender raw spamReason 0 rs s = (some pattern, t))
    (r : ResolvedRecipient) : StoredFor P sender raw r s t ↔ Served rs pattern r := by
  obtain ⟨-, rows, hrows, hsound, hcomplete⟩ := deliverAll_rows h
  have hdrop : t.metadata.messages.drop s.metadata.messages.length = rows := by
    rw [hrows, drop_left]
  rw [StoredFor, hdrop]
  constructor
  · rintro ⟨row, hrow, hfor⟩
    obtain ⟨r', hr', haccount, haddress⟩ := hsound row hrow
    exact ⟨r', hr', haccount.symm.trans hfor.account, haddress.symm.trans hfor.address⟩
  · rintro ⟨r', hr', haccount, haddress⟩
    obtain ⟨row, hrow, hfor⟩ := hcomplete r' hr'
    exact ⟨row, hrow, hfor.account.trans haccount, hfor.address.trans haddress, hfor.sender,
      hfor.content, hfor.blob⟩

end

/-! ## The reply -/

section
variable (P : Primitives) (remoteIp : Text) (io : Io) (raw : Bytes) (s : Session) {action : String}
  {reason : Text} {r : Reply} {t : Stores}

def SaysStored (t : Session) : Prop := ∃ r before, t.log = .dataEnd r :: before ∧ r.code = 250

/-- Whenever the deliveries of the transaction run to their end, they leave no recipient out. -/
def LeavesNoneOut : Prop :=
  ∀ spamReason pattern, verdictReply io.scan.verdict = .ok spamReason →
    (deliverAll P remoteIp io (s.envelope.mailFrom.getD []) raw spamReason 0 s.envelope.rcptTo
      (auditWarnings io 0 io.scan.warnings s.world)).1 = some pattern →
    AllOrNothing s.envelope.rcptTo pattern

theorem auditWarnings_metadata (k : ℕ) (ws : List Text) (w : Stores) :
    (auditWarnings io k ws w).metadata = w.metadata := by
  induction ws generalizing k w with
  | nil => rfl
  | cons _ _ ih =>
    rw [auditWarnings, ih, auditLog]
    split <;> rfl

theorem deliveryReply_code :
    (deliveryReply pattern).code = 250 ↔ ∃ b ∈ pattern, b := by
  unfold deliveryReply
  split
  · next h => simpa [reply] using h
  · next h => simpa [reply] using h

theorem verdictReply_error {v : Verdict} (h : verdictReply v = .error (action, reason, r)) :
    r.code ≠ 250 := by
  cases v with
  | clean | spam => cases h
  | defer reason' | reject reason' => cases h; simp [reply]

theorem accept_delivered (h : verdictReply io.scan.verdict = .ok spamReason)
    (hall : deliverAll P remoteIp io (s.envelope.mailFrom.getD []) raw spamReason 0
      s.envelope.rcptTo (auditWarnings io 0 io.scan.warnings s.world) = (some pattern, t)) :
    (∃ before, (accept P remoteIp io raw s).log = .dataEnd (deliveryReply pattern) :: before) ∧
      (accept P remoteIp io raw s).world = t := by
  simp only [accept, h, hall]
  split
  · exact ⟨⟨_, rfl⟩, rfl⟩
  · exact ⟨⟨_, rfl⟩, rfl⟩

/-- A message answered 250 is stored for every recipient of its transaction exactly when its
deliveries leave none out. -/
theorem accept_stored_iff :
    (SaysStored (accept P remoteIp io raw s) → ∀ r ∈ s.envelope.rcptTo,
      StoredFor P (s.envelope.mailFrom.getD []) raw r s.world (accept P remoteIp io raw s).world) ↔
      LeavesNoneOut P remoteIp io raw s := by
  unfold LeavesNoneOut
  cases hverdict : verdictReply io.scan.verdict with
  | error refusal =>
    obtain ⟨action, reason, refusalReply⟩ := refusal
    refine iff_of_true ?_ (fun _ _ h => by cases h)
    rintro ⟨r, before, hlog, hr⟩
    simp only [accept, hverdict, List.cons.injEq, Entry.dataEnd.injEq] at hlog
    exact absurd (hlog.1 ▸ hr) (verdictReply_error hverdict)
  | ok spamReason =>
    simp only [Except.ok.injEq]
    match hall : deliverAll P remoteIp io (s.envelope.mailFrom.getD []) raw spamReason 0
      s.envelope.rcptTo (auditWarnings io 0 io.scan.warnings s.world) with
    | (none, t) =>
      refine iff_of_true ?_ ?_
      · rintro ⟨r, before, hlog, -⟩
        simp [accept, hverdict, hall] at hlog
      · rintro _ pattern rfl h
        rw [hall] at h
        cases h
    | (some pattern, t) =>
      obtain ⟨⟨before, hlog⟩, hworld⟩ := accept_delivered P remoteIp io raw s hverdict hall
      have hsays : SaysStored (accept P remoteIp io raw s) ↔ ∃ b ∈ pattern, b := by
        rw [← deliveryReply_code, SaysStored, hlog]
        simp
      have hcond : (∀ spam p, spamReason = spam → (deliverAll P remoteIp io
          (s.envelope.mailFrom.getD []) raw spam 0 s.envelope.rcptTo
          (auditWarnings io 0 io.scan.warnings s.world)).1 = some p →
          AllOrNothing s.envelope.rcptTo p) ↔ AllOrNothing s.envelope.rcptTo pattern := by
        refine ⟨fun h => h spamReason pattern rfl (by rw [hall]), ?_⟩
        rintro h _ p rfl hp
        rw [hall] at hp
        obtain rfl : pattern = p := by simpa using hp
        exact h
      rw [hcond, hsays, hworld]
      have hstored : ∀ r, StoredFor P (s.envelope.mailFrom.getD []) raw r s.world t ↔
          Served s.envelope.rcptTo pattern r := by
        intro r
        rw [← deliverAll_storedFor_iff hall r, StoredFor, StoredFor, auditWarnings_metadata]
      simp only [hstored, AllOrNothing]
      constructor
      · intro h
        by_cases hany : ∃ b ∈ pattern, b
        · exact Or.inr (h hany)
        · left
          intro b hb
          cases b with
          | false => rfl
          | true => exact absurd ⟨true, hb, rfl⟩ hany
      · rintro (hnone | hserved) ⟨b, hb, hbt⟩
        · rw [hnone b hb] at hbt
          cases hbt
        · exact hserved

end

/-! ## One recipient of two -/

def sampleStores : Stores :=
  { Stores.empty with
    accounts :=
      [{ id := 1, localPart := "alice", domain := "example.com", keyId := 1,
         accountPub := [1], createdAt := 1600000000 },
       { id := 2, localPart := "bob", domain := "example.com", keyId := 1,
         accountPub := [2], createdAt := 1600000000 }] }

def sampleDraws (faults : Faults) : Draw :=
  { dek := List.replicate 32 7, nonce := List.replicate 24 9, hpkeRandom := [], pick := 0, faults }

def sampleIo : Io where
  writeOk := fun _ => true
  faults := .none
  scan := { verdict := .clean, warnings := [], spamScore := none, avClean := none }
  auditOk := fun _ => true
  results := { spf := "pass", dkim := "none", dmarc := "none" }
  receivedAt := 1700000000
  draws := fun k =>
    sampleDraws (if k = 1 then .only .messageInsert "database is locked" else .none)
  others := id
  pipelined := false
  tlsStream := none

def sampleStream : Text :=
  "EHLO mx.example.net\r\nMAIL FROM:<eve@example.net>\r\nRCPT TO:<alice@example.com>\r\n" ++
    "RCPT TO:<bob@example.com>\r\nDATA\r\n\r\nhi\r\n.\r\n"

def sampleParsed : ParsedMail :=
  { messageId := none, inReplyTo := .other, references := .other, subject := none }

def sampleSession : Session :=
  run (Primitives.sample fun _ => some sampleParsed)
    { hostname := "mx", maxMessageSize := 1000, tlsAcceptor := false } "192.0.2.1"
    (List.replicate 6 sampleIo) (connect ⟨utf8 sampleStream, .eof⟩ sampleStores)

/-- The message is accepted for two recipients, stored for one and answered 250. -/
theorem accept_one_of_two :
    sampleSession.log.take 2 =
        [.dataEnd (reply 250 "OK: message accepted"),
          .handed "eve@example.net"
            ["alice@example.com".toList, "bob@example.com"]] ∧
      sampleSession.world.metadata.messages.map (fun m => m.rcptTo) =
        ["alice@example.com".toList] := by
  decide +kernel

end Litterae.Smtp.Inbound
