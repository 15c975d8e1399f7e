import Litterae.Smtp.Acceptance
import Litterae.Smtp.Discipline
import Litterae.Smtp.Transparency

/-! # What both servers give their clients

The two `read_data` are transparent for the same messages, and in both sessions a message is handed
on with exactly the transaction its client set up.
-/

namespace Litterae.Smtp
open Foundations

/-! ## Transparency -/

/-- Either server reads back a message sent as RFC 5321 has it, and leaves what follows unread,
exactly when no bare LF in it is followed by a dot. -/
theorem servers_readData_dotStuff_iff (maxSize : ℕ) (ending : Ending) (m rest : Bytes)
    (hend : m = [] ∨ [cr, lf] <:+ m) (hlines : LinesWithin Inbound.maxDataLine (dotStuff m))
    (hsize : m.length ≤ maxSize) :
    (Inbound.readData maxSize ⟨dotStuff m ++ ([dot, cr, lf] ++ rest), ending⟩ =
        (.ok m, ⟨rest, ending⟩) ↔ ¬ BareLfDot m) ∧
      (Submission.readData maxSize ⟨dotStuff m ++ ([dot, cr, lf] ++ rest), ending⟩ =
        (.ok m, ⟨rest, ending⟩) ↔ ¬ BareLfDot m) := by
  have hmax : 2 ≤ Inbound.maxDataLine := by decide
  have hread : Smtp.readData Inbound.maxDataLine maxSize
      ⟨dotStuff m ++ ([dot, cr, lf] ++ rest), ending⟩ = (.ok m, ⟨rest, ending⟩) ↔ ¬ BareLfDot m :=
    readData_dotStuff_iff hend hlines hmax hsize
  exact ⟨hread, hread⟩

/-- A message of one line that starts with a dot comes back whole. -/
theorem servers_readData_dotStuff_dot :
    Inbound.readData 10 ⟨utf8 "..a\r\n.\r\nQUIT\r\n", .eof⟩ =
        (.ok (utf8 ".a\r\n"), ⟨utf8 "QUIT\r\n", .eof⟩) ∧
      Submission.readData 10 ⟨utf8 "..a\r\n.\r\nQUIT\r\n", .eof⟩ =
        (.ok (utf8 ".a\r\n"), ⟨utf8 "QUIT\r\n", .eof⟩) := by
  have hclean : ¬ BareLfDot (utf8 ".a\r\n") := by
    rw [bareLfDot_iff, show utf8 ".a\r\n" = [dot, 97, cr, lf] by decide]
    simp [bareLfDotFrom_cons, bareLfDotFrom_nil, lf, cr, dot]
  have h := servers_readData_dotStuff_iff 10 .eof (utf8 ".a\r\n") (utf8 "QUIT\r\n")
    (Or.inr (by decide)) (by unfold LinesWithin; decide) (by decide)
  exact ⟨h.1.mpr hclean, h.2.mpr hclean⟩

/-- A line of one dot after a bare LF ends the message early: what was sent as its body is left to
be read as commands. -/
theorem servers_readData_smuggle :
    let m := utf8 "a\n.\r\nMAIL FROM:<eve@example.net>\r\n"
    [cr, lf] <:+ m ∧ LinesWithin Inbound.maxDataLine (dotStuff m) ∧ m.length ≤ 100 ∧
      Inbound.readData 100 ⟨dotStuff m ++ ([dot, cr, lf] ++ []), .eof⟩ =
        (.ok (utf8 "a\n"), ⟨utf8 "MAIL FROM:<eve@example.net>\r\n.\r\n", .eof⟩) ∧
      Submission.readData 100 ⟨dotStuff m ++ ([dot, cr, lf] ++ []), .eof⟩ =
        (.ok (utf8 "a\n"), ⟨utf8 "MAIL FROM:<eve@example.net>\r\n.\r\n", .eof⟩) := by
  unfold LinesWithin
  decide +kernel

/-! ## Isolation -/

namespace Inbound
open Delivery Store List Option

/-- Every delivery of the message that the turn reads succeeds, whatever the stores hold. -/
def AllDelivered (P : Primitives) (deps : Deps) (remoteIp : Text) (io : Io) (s : Session) : Prop :=
  ∀ c ∈ nextCommand P.fromUtf8Lossy maxCommandLine s.reader,
    ∀ raw, (readData deps.maxMessageSize c.2.2).1 = .ok raw →
      ∀ spamReason k w, ∀ r ∈ s.envelope.rcptTo,
        (deliverOne P remoteIp io (io.draws k) (s.envelope.mailFrom.getD []) r raw spamReason
          w).1.isOk = true

variable {P : Primitives} {deps : Deps} {remoteIp : Text} {io : Io} {s : Session}

/-- The rows that the deliveries add: for the sender, and for the recipients that did not fail. -/
theorem deliverAll_adds {sender : Text} {raw : Bytes} {spamReason : Option Text} (k : ℕ)
    (rs : List ResolvedRecipient) (w : Stores) :
    ∃ rows, (deliverAll P remoteIp io sender raw spamReason k rs w).2.metadata.messages =
        w.metadata.messages ++ rows ∧
      (∀ m ∈ rows, m.mailFrom = sender) ∧
      rows.map (·.rcptTo) <+ rs.map ResolvedRecipient.address ∧
      ((∀ k w, ∀ r ∈ rs, (deliverOne P remoteIp io (io.draws k) sender r raw spamReason w).1.isOk) →
        rows.map (·.rcptTo) = rs.map ResolvedRecipient.address) := by
  induction rs generalizing k w with
  | nil => exact ⟨[], (append_nil _).symm, by simp, .slnil, fun _ => rfl⟩
  | cons r rs ih =>
    rw [deliverAll]
    rcases hone : deliverOne P remoteIp io (io.draws k) sender r raw spamReason w with ⟨res, u⟩
    cases res with
    | panic =>
      have hsame : u.metadata.messages = w.metadata.messages := (deliverOne_failed _ r).run hone rfl
      refine ⟨[], by simpa using hsame, by simp, nil_sublist _, fun hall => ?_⟩
      simpa [hone, Res.isOk] using hall k w r mem_cons_self
    | err =>
      have hsame : u.metadata.messages = w.metadata.messages := (deliverOne_failed _ r).run hone rfl
      obtain ⟨rows, hrows, hsender, hrcpts, -⟩ := ih (k + 1) u
      refine ⟨rows, hrows.trans (by rw [hsame]), hsender, hrcpts.cons _, fun hall => ?_⟩
      simpa [hone, Res.isOk] using hall k w r mem_cons_self
    | ok =>
      obtain ⟨row, hrow, hfor⟩ := deliverOne_ok hone
      obtain ⟨rows, hrows, hsender, hrcpts, hwhole⟩ := ih (k + 1) u
      refine ⟨row :: rows, hrows.trans (by rw [hrow, append_assoc]; rfl), ?_, ?_, fun hall => ?_⟩
      · exact forall_mem_cons.mpr ⟨hfor.sender, hsender⟩
      · rw [map_cons, map_cons, hfor.address]
        exact hrcpts.cons_cons _
      · rw [map_cons, map_cons, hfor.address, hwhole fun k w r hr => hall k w r (mem_cons_of_mem _ hr)]

theorem accept_rows (raw : Bytes) (t : Session) :
    ∃ rows, (accept P remoteIp io raw t).world.metadata.messages = t.world.metadata.messages ++ rows ∧
      (handedOn (accept P remoteIp io raw t).log = handedOn t.log ∧ rows = [] ∨
        handedOn (accept P remoteIp io raw t).log =
            (t.envelope.mailFrom.getD [], t.envelope.rcptTo.map ResolvedRecipient.address) ::
              handedOn t.log ∧
          (∀ m ∈ rows, m.mailFrom = t.envelope.mailFrom.getD []) ∧
          rows.map (·.rcptTo) <+ t.envelope.rcptTo.map ResolvedRecipient.address ∧
          ((∀ spamReason k w, ∀ r ∈ t.envelope.rcptTo, (deliverOne P remoteIp io (io.draws k)
              (t.envelope.mailFrom.getD []) r raw spamReason w).1.isOk) →
            rows.map (·.rcptTo) = t.envelope.rcptTo.map ResolvedRecipient.address)) := by
  have hscanned := auditWarnings_metadata io 0 io.scan.warnings t.world
  unfold accept
  split
  · refine ⟨[], ?_, .inl ⟨rfl, rfl⟩⟩
    rw [append_nil]
    unfold auditLog
    split <;> exact congrArg MetadataStore.messages hscanned
  next spamReason _ =>
  obtain ⟨rows, hrows, hsender, hrcpts, hwhole⟩ := @deliverAll_adds P remoteIp io
    (t.envelope.mailFrom.getD []) raw spamReason 0 t.envelope.rcptTo
    (auditWarnings io 0 io.scan.warnings t.world)
  rw [hscanned] at hrows
  refine ⟨rows, ?_, .inr ⟨?_, hsender, hrcpts, fun hall => hwhole (hall spamReason)⟩⟩
  · simp only
    split
    · next hall => exact (congrArg (·.2.metadata.messages) hall).symm.trans hrows
    · next hall =>
      split <;> exact (congrArg (·.2.metadata.messages) hall).symm.trans hrows
  · simp only
    split
    · rfl
    · split <;> rfl

theorem command_world {verb : Verb} (hverb : verb ≠ .data) (rest : Text) :
    (command P deps remoteIp io verb rest s).world = s.world := by
  cases verb with
  | data => exact absurd rfl hverb
  | ehlo | helo => simp only [command, helo, Session.helo]; split <;> rfl
  | starttls => simp only [command, starttls, Session.startTls]; repeat' split
                all_goals rfl
  | mail => simp only [command, mail]; repeat' split
            all_goals rfl
  | rcpt => simp only [command, rcpt]; repeat' split
            all_goals rfl
  | _ => rfl

theorem data_handsOn {r : Reader} {w : Stores} {rest : Text} (h : Agrees maxRecipients view s)
    (hs : s.status = .reading)
    (hdelivered : AllDelivered P deps remoteIp io s → ∀ raw,
      (readData deps.maxMessageSize r).1 = .ok raw →
      ∀ spamReason k w, ∀ rcpt ∈ s.envelope.rcptTo, (deliverOne P remoteIp io (io.draws k)
        (s.envelope.mailFrom.getD []) rcpt raw spamReason w).1.isOk) :
    let t := data P deps remoteIp io rest { s with reader := r, world := w }
    ∃ rows, t.world.metadata.messages = w.metadata.messages ++ rows ∧
      HandsOn maxRecipients (AllDelivered P deps remoteIp io s) (rows.map (·.mailFrom))
        (rows.map (·.rcptTo)) s t := by
  have hnone : ∀ {t : Session}, t.world = w → handedOn t.log = handedOn s.log →
      ∃ rows, t.world.metadata.messages = w.metadata.messages ++ rows ∧
        HandsOn maxRecipients (AllDelivered P deps remoteIp io s) (rows.map (·.mailFrom))
          (rows.map (·.rcptTo)) s t := fun hworld hlog =>
    ⟨[], by rw [hworld, append_nil], .inl ⟨hlog, rfl, rfl⟩⟩
  unfold data Session.data
  split
  · exact hnone rfl rfl
  next hready =>
  simp only [Bool.or_eq_true, isNone_iff_eq_none, List.isEmpty_iff, not_or] at hready
  obtain ⟨sender, hsender⟩ := ne_none_iff_exists'.mp hready.1
  split
  · simp only [Session.receive, Session.answer]
    rcases hraw : readData deps.maxMessageSize r with ⟨(_ | _) | raw, r'⟩
    · exact hnone rfl rfl
    · exact hnone rfl rfl
    · obtain ⟨rows, hrows, ⟨hsame, rfl⟩ | ⟨hhanded, hsenders, hrcpts, hwhole⟩⟩ :=
        @accept_rows P remoteIp io raw ⟨r', s.envelope, s.isTls, s.status, w,
          .command .data rest Session.startInput :: s.log⟩
      · exact ⟨[], hrows, .inl ⟨hsame, rfl, rfl⟩⟩
      · refine ⟨rows, hrows, ?_⟩
        simp only [hsender, getD_some] at hhanded hsenders hwhole
        refine h.handsOn hs (by rw [view, hsender]) (by simpa using hready.2) hhanded
          (by simpa using hsenders) hrcpts fun hall => hwhole ?_
        simpa [hsender] using hdelivered hall raw (by rw [hraw])
  · exact hnone rfl rfl

theorem step_handsOn (h : Agrees maxRecipients view s) :
    ∃ w rows, (w = s.world ∨ w = io.others s.world) ∧
      (step P deps remoteIp io s).world.metadata.messages = w.metadata.messages ++ rows ∧
      HandsOn maxRecipients (AllDelivered P deps remoteIp io s) (rows.map (·.mailFrom))
        (rows.map (·.rcptTo)) s (step P deps remoteIp io s) := by
  have htakes : (server P deps remoteIp).Takes io s (step P deps remoteIp io s) := Server.step_takes
  generalize step P deps remoteIp io s = t at htakes ⊢
  cases htakes with
  | @command l r verb rest hs hread hcommand =>
    refine ⟨io.others s.world, ?_⟩
    by_cases hverb : verb = .data
    · subst hverb
      have hnext : nextCommand P.fromUtf8Lossy maxCommandLine s.reader = some (.data, rest, r) :=
        nextCommand_of_line hread hcommand
      obtain ⟨rows, hrows⟩ := @data_handsOn P deps remoteIp io s r (io.others s.world) rest h hs
        fun hall => hall _ hnext
      exact ⟨rows, .inr rfl, hrows⟩
    · have hreacts := @command_reacts P deps remoteIp io
        { s with reader := r, world := io.others s.world } verb rest hs
      refine ⟨[], .inr rfl, ?_, .inl ⟨hreacts.handedOn hverb, rfl, rfl⟩⟩
      rw [append_nil]
      exact congrArg (·.metadata.messages) (command_world hverb rest)
  | _ => exact ⟨_, [], .inl rfl, (append_nil _).symm, .inl ⟨rfl, rfl, rfl⟩⟩

end Inbound

namespace Submission
open Queue List Option

def SaysQueued (t : Session) : Prop := ∃ r before, t.log = .dataEnd r :: before ∧ r.code = 250

variable {P : Primitives} {deps : Deps} {io : Io} {s : Session}

theorem accept_handedOn {account : Account} (haccount : s.envelope.authenticated = some account)
    (raw : Bytes) :
    handedOn (accept P io raw s).log =
        (s.envelope.mailFrom.getD [], s.envelope.rcptTo) :: handedOn s.log ∧
      (SaysQueued (accept P io raw s) → (enqueueSubmission P io account
        (s.envelope.mailFrom.getD []) s.envelope.rcptTo raw s.world.stores).1.isOk) := by
  have hqueued : ∀ {result : Res Error Unit} {r : Reply}, enqueueReply result = some r →
      r.code = 250 → result.isOk = true := by
    intro result r hreply hr
    unfold enqueueReply at hreply
    split at hreply
    · rfl
    · cases hreply
      cases hr
    · cases hreply
      cases hr
    · cases hreply
  unfold accept
  rw [haccount]
  simp only
  split
  · refine ⟨rfl, ?_⟩
    rintro ⟨r, before, hlog, -⟩
    cases hlog
  next r hreply =>
  split
  all_goals
    refine ⟨rfl, ?_⟩
    rintro ⟨r', before, hlog, hr⟩
    obtain rfl : r = r' := by cases hlog; rfl
    exact hqueued hreply hr

theorem step_handsOn (h : Agrees maxRecipients view s) (hs : Disciplined s.isTls s.envelope) :
    ∃ w os rs, (w = s.world ∨ w = io.others s.world) ∧
      (step P deps io s).world.stores.queue.outbound = w.stores.queue.outbound ++ os ∧
      (step P deps io s).world.stores.queue.rcpts = w.stores.queue.rcpts ++ rs ∧
      (∀ r ∈ rs, ∃ o ∈ os, r.outboundId = o.id) ∧
      HandsOn maxRecipients (SaysQueued (step P deps io s)) (os.map OutboundMessage.envelopeFrom)
        (rs.map OutboundRecipient.rcptTo) s (step P deps io s) := by
  cases hraw : handsOver P deps io s with
  | none =>
    obtain ⟨hworld, hlog⟩ := step_of_not_handsOver hraw
    have hqueue : ∀ w, SameButAudit w (step P deps io s).world →
        (step P deps io s).world.stores.queue = w.stores.queue := fun w h => by
      unfold SameButAudit at h
      rw [← h]
    rcases hworld with hworld | hworld
    · exact ⟨_, [], [], .inl rfl, by simp [hqueue _ hworld], by simp [hqueue _ hworld], by simp,
        .inl ⟨hlog, rfl, rfl⟩⟩
    · exact ⟨_, [], [], .inr rfl, by simp [hqueue _ hworld], by simp [hqueue _ hworld], by simp,
        .inl ⟨hlog, rfl, rfl⟩⟩
  | some raw =>
    obtain ⟨hreading, hfrom, hne, t, henv, hworld, hlog, hstep⟩ := step_of_handsOver hraw
    obtain ⟨sender, hsender⟩ := isSome_iff_exists.mp hfrom
    obtain ⟨account, haccount, -⟩ := hs.sender sender hsender
    rw [← henv] at haccount
    obtain ⟨hhanded, hqueued⟩ := @accept_handedOn P io t account haccount raw
    obtain ⟨os, rs, hos, hrs, hrows⟩ := @enqueueSubmission_rows P io account
      (t.envelope.mailFrom.getD []) t.envelope.rcptTo raw t.world.stores
    have hstores := @accept_stores P io t account haccount raw
    rw [henv, hsender, getD_some] at hhanded hrows
    rw [hstep, hstores]
    refine ⟨io.others s.world, os, rs, .inr rfl, hworld ▸ hos, hworld ▸ hrs, hrows.owner, ?_⟩
    refine h.handsOn hreading (by rw [view, hsender]) hne (hlog ▸ hhanded) ?_
      hrows.recipients.sublist fun hsays => (hrows.whole ?_).2
    · simp only [List.mem_map]
      rintro _ ⟨o, ho, rfl⟩
      exact (hrows.message o ho).2
    · simpa [henv, hsender] using hqueued hsays

end Submission

/-- In every session of either server, a message is handed on with the sender of the last accepted
MAIL and the recipients accepted since, in order, nothing having ended that transaction. So are the
rows that a turn adds to the mailboxes or to the queue: they are for that sender and for these
recipients, for all of them unless something fails. After the reply to a DATA block the envelope is
empty. -/
theorem transactions_isolated (P : Primitives) :
    (∀ (deps : Inbound.Deps) (remoteIp : Text) (r : Reader) (world : Stores)
        (ios : List Inbound.Io),
      let s := Inbound.run P deps remoteIp ios (Inbound.connect r world)
      (s.status = .reading → ∀ reply before, s.log = .dataEnd reply :: before →
          s.envelope.mailFrom = none ∧ s.envelope.rcptTo = []) ∧
        ∀ io : Inbound.Io, ∃ w rows, (w = s.world ∨ w = io.others s.world) ∧
          (Inbound.step P deps remoteIp io s).world.metadata.messages = w.metadata.messages ++ rows ∧
          HandsOn Inbound.maxRecipients (Inbound.AllDelivered P deps remoteIp io s)
            (rows.map (·.mailFrom)) (rows.map (·.rcptTo)) s (Inbound.step P deps remoteIp io s)) ∧
      ∀ (deps : Submission.Deps) (isTls : Bool) (r : Reader) (world : Submission.World)
        (ios : List Submission.Io),
        let s := Submission.run P deps ios (Submission.connect isTls r world)
        (s.status = .reading → ∀ reply before, s.log = .dataEnd reply :: before →
            s.envelope.mailFrom = none ∧ s.envelope.rcptTo = []) ∧
          ∀ io : Submission.Io, let t := Submission.step P deps io s
            ∃ w os rs, (w = s.world ∨ w = io.others s.world) ∧
              t.world.stores.queue.outbound = w.stores.queue.outbound ++ os ∧
              t.world.stores.queue.rcpts = w.stores.queue.rcpts ++ rs ∧
              (∀ r ∈ rs, ∃ o ∈ os, r.outboundId = o.id) ∧
              HandsOn Submission.maxRecipients (Submission.SaysQueued t)
                (os.map Queue.OutboundMessage.envelopeFrom)
                (rs.map Queue.OutboundRecipient.rcptTo) s t := by
  constructor
  · intro deps remoteIp r world ios
    have h := @Inbound.run_agrees P deps remoteIp _ ios (Inbound.connect_agrees r world)
    refine ⟨fun hs reply before hlog => ?_, fun _ => Inbound.step_handsOn h⟩
    obtain ⟨hsender, hrcpts⟩ := h.dataEnd hs reply before hlog
    exact ⟨hsender, List.map_eq_nil_iff.mp hrcpts⟩
  · intro deps isTls r world ios
    have h := @Submission.run_agrees P deps _ ios (Submission.connect_agrees isTls r world)
    exact ⟨h.dataEnd, fun _ =>
      Submission.step_handsOn h (Submission.run_disciplined ios (.default isTls))⟩

end Litterae.Smtp
