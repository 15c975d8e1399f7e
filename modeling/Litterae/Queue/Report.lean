import Litterae.Common.Input
import Litterae.Queue.Dsn

/-! # The fields of a notification (`queue/src/dsn.rs`)

`build_dsn` copies what the remote server said into `message/delivery-status` as it is. A line break
in it starts a line of its own there, which a reader takes for whatever field it looks like: CRLF, and a
bare LF too, which `mail_builder` writes as CRLF.
-/

namespace Litterae.Queue

open Foundations List Input

variable {r : FailedRecipient} {xs : List Text} {α β : Type}

/-- The lines between the CRLFs of a text, a bare LF having become one. -/
def crlfLines : Text → List Text
  | [] => [[]]
  | '\r' :: '\n' :: rest | '\n' :: rest => [] :: crlfLines rest
  | c :: rest => (crlfLines rest).modifyHead (c :: ·)

/-- The groups of fields, with one or more empty lines between one and the next. -/
def fieldGroups (lines : List Text) : List (List Text) := (lines.splitOn []).filter (· ≠ [])

def hasName (name line : Text) : Bool := (name ++ [':']).isPrefixOf (line.map Char.toLower)

def named (name : Text) (group : List Text) : List Text := group.filter (hasName name)

def finalRecipientName : Text := "final-recipient"

def actionName : Text := "action"

def statusName : Text := "status"

def finalRecipientLine (r : FailedRecipient) : Text := "Final-Recipient: rfc822;" ++ r.rcptTo

def actionLine (r : FailedRecipient) : Text := "Action: " ++ r.action.asStr

def statusText (s : Text) : Text := "Status: " ++ s

def diagnosticText (d : Text) : Text := "Diagnostic-Code: smtp;" ++ d

structure Describes (r : FailedRecipient) (group : List Text) : Prop where
  recipient : named finalRecipientName group = [finalRecipientLine r]
  action : named actionName group = [actionLine r]
  status : (named statusName group).length = r.status.toList.length

/-- One group for the message, and one for each recipient. -/
def Reported (input : DsnInput) : Prop :=
  ∃ groups, fieldGroups (crlfLines (reportOf input).deliveryStatus) =
      ["Reporting-MTA: dns;" ++ input.reportingMta] :: groups ∧
    List.Forall₂ Describes input.recipients groups

/-- The lines that a recipient's remote texts start. Empty ones at the very end only add to those
between two groups. -/
def startedLines (r : FailedRecipient) : List Text :=
  r.status.toList.flatMap (fun s => (crlfLines s).tail) ++
    (crlfLines r.diagnostic).tail.rdropWhile List.isEmpty

/-- A line that neither ends the group nor is a field of the code's own. -/
def Harmless (line : Text) : Prop :=
  line ≠ [] ∧ ∀ name ∈ [finalRecipientName, actionName, statusName], hasName name line = false

instance (line : Text) : Decidable (Harmless line) := inferInstanceAs (Decidable (_ ∧ _))

/-! ## Lines -/

def OneLine (s : Text) : Prop := '\r' ∉ s ∧ '\n' ∉ s

instance (s : Text) : Decidable (OneLine s) := inferInstanceAs (Decidable (_ ∧ _))

theorem crlfLines_cons (t : Text) : crlfLines t = (crlfLines t).head! :: (crlfLines t).tail := by
  fun_induction crlfLines t with
  | case1 | case2 rest ih | case3 rest ih => rfl
  | case4 c rest hc hn ih => rw [ih]; rfl

theorem crlfLines_append (a b : Text) :
    crlfLines (a ++ (crlf ++ b)) = crlfLines a ++ crlfLines b := by
  fun_induction crlfLines a with
  | case1 => rfl
  | case2 rest ih | case3 rest ih => exact congrArg ([] :: ·) ih
  | case4 c rest hc hlf ih =>
    have hfirst : ∀ t, c = '\r' → rest ++ (crlf ++ b) = '\n' :: t → False := by
      intro t hr hn
      cases rest with
      | nil => exact absurd (List.cons.inj hn).1 (by decide)
      | cons d rest => exact hc rest hr (by rw [(List.cons.inj hn).1])
    rw [cons_append, crlfLines.eq_4 _ _ hfirst hlf, ih, crlfLines_cons rest]
    rfl

theorem crlfLines_plain {p : Text} (hp : OneLine p) (t : Text) :
    crlfLines (p ++ t) = (p ++ (crlfLines t).head!) :: (crlfLines t).tail := by
  induction p with
  | nil => exact crlfLines_cons t
  | cons c p ih =>
    have hc : ∀ rest, c = '\r' → p ++ t = '\n' :: rest → False := fun _ hr _ =>
      hp.1 (hr ▸ mem_cons_self)
    have hlf : c = '\n' → False := fun hn => hp.2 (hn ▸ mem_cons_self)
    rw [cons_append, crlfLines.eq_4 _ _ hc hlf,
      ih ⟨fun h => hp.1 (mem_cons_of_mem _ h), fun h => hp.2 (mem_cons_of_mem _ h)⟩]
    rfl

theorem OneLine.append {s t : Text} (hs : OneLine s) (ht : OneLine t) : OneLine (s ++ t) :=
  ⟨fun h => (mem_append.mp h).elim hs.1 ht.1, fun h => (mem_append.mp h).elim hs.2 ht.2⟩

theorem crlfLines_single {p : Text} (hp : OneLine p) : crlfLines p = [p] := by
  have h := crlfLines_plain hp []
  rwa [append_nil, show (crlfLines []).head! = [] from rfl, append_nil] at h

/-! ## Groups -/

theorem fieldGroups_append (xs ys : List Text) :
    fieldGroups (xs ++ [] :: ys) = fieldGroups xs ++ fieldGroups ys := by
  rw [fieldGroups, splitOn_append_cons_self, filter_append]
  rfl

theorem fieldGroups_solid (hne : xs ≠ []) (hxs : [] ∉ xs) :
    fieldGroups xs = [xs] := by
  simp [fieldGroups, splitOn_eq_singleton hxs, hne]

theorem fieldGroups_blank {ys : List Text} (hys : ∀ y ∈ ys, y = []) (xs : List Text) :
    fieldGroups (xs ++ ys) = fieldGroups xs := by
  induction ys generalizing xs with
  | nil => rw [append_nil]
  | cons y ys ih =>
    obtain ⟨rfl, hrest⟩ := forall_mem_cons.mp hys
    rw [fieldGroups_append, ← nil_append ys, ih hrest]
    exact append_nil _

theorem fieldGroups_ne_nil {x : Text} (hx : x ∈ xs) (hne : x ≠ []) :
    fieldGroups xs ≠ [] := by
  have hjoin : [[]].intercalate (xs.splitOn []) = xs := intercalate_splitOn []
  rw [← hjoin] at hx
  obtain hnil | ⟨part, hpart, hx⟩ := mem_of_mem_intercalate hx
  · exact absurd hnil hne
  · exact ne_nil_of_mem (mem_filter.mpr ⟨hpart, by simpa using ne_nil_of_mem hx⟩)

/-- Lines after a first one are one group when none of them is empty, up to the end of the text. -/
theorem fieldGroups_eq_singleton {x : Text} (hx : x ≠ []) (g : List Text) :
    fieldGroups (x :: xs) = [g] ↔
      g = x :: xs.rdropWhile List.isEmpty ∧ [] ∉ xs.rdropWhile List.isEmpty := by
  have hblank : fieldGroups (x :: xs) = fieldGroups (x :: xs.rdropWhile List.isEmpty) := by
    conv_lhs => rw [← rdropWhile_append_rtakeWhile (p := List.isEmpty) (l := xs)]
    exact fieldGroups_blank (fun y hy => isEmpty_iff.mp (mem_rtakeWhile_imp hy)) (x :: _)
  have hlast := rdropWhile_last_not List.isEmpty xs
  rw [hblank]
  generalize xs.rdropWhile List.isEmpty = ys at hlast
  by_cases hys : [] ∈ ys
  · refine ⟨fun h => ?_, fun h => absurd hys h.2⟩
    obtain ⟨before, after, rfl⟩ := append_of_mem hys
    have hafter : after ≠ [] := by
      rintro rfl
      exact hlast (by simp) (by simp)
    have hend : fieldGroups after ≠ [] := by
      refine fieldGroups_ne_nil (getLast_mem hafter) fun hnil => hlast (by simp) ?_
      rw [getLast_append_of_ne_nil _ (by simp), getLast_cons hafter, hnil]
      rfl
    have hstart := fieldGroups_ne_nil (@List.mem_cons_self _ x before) hx
    rw [← cons_append, fieldGroups_append] at h
    have hlen := congrArg List.length h
    have hs := length_pos_iff.mpr hstart
    have he := length_pos_iff.mpr hend
    simp only [length_append, length_singleton] at hlen
    omega
  · rw [fieldGroups_solid (cons_ne_nil _ _) (by simp [hys, hx.symm]), singleton_inj]
    exact ⟨fun h => ⟨h.symm, hys⟩, fun h => h.1.symm⟩

/-! ## The groups of a report -/

def recipientLines (r : FailedRecipient) : List Text :=
  crlfLines (finalRecipientLine r) ++ crlfLines (actionLine r) ++
    r.status.toList.flatMap (fun s => crlfLines (statusText s)) ++
    crlfLines (diagnosticText r.diagnostic)

theorem crlfLines_statusFields (rest : Text) :
    crlfLines (statusFields r ++ rest) = recipientLines r ++ [] :: crlfLines rest := by
  have hend : crlfLines (crlf ++ rest) = [] :: crlfLines rest := crlfLines_append [] rest
  unfold statusFields recipientLines finalRecipientLine actionLine statusText diagnosticText
  generalize "Final-Recipient: rfc822;".toList ++ r.rcptTo = recipient
  generalize "Action: ".toList = action
  generalize "Status: ".toList = status
  generalize "Diagnostic-Code: smtp;".toList = diagnostic
  cases r.status with
  | none =>
    simp only [append_assoc, nil_append]
    rw [crlfLines_append, ← append_assoc action, crlfLines_append, ← append_assoc diagnostic,
      crlfLines_append, hend]
    simp
  | some =>
    simp only [append_assoc]
    rw [crlfLines_append, ← append_assoc action, crlfLines_append, ← append_assoc status,
      crlfLines_append, ← append_assoc diagnostic, crlfLines_append, hend]
    simp

theorem fieldGroups_recipients (recipients : List FailedRecipient) :
    fieldGroups (crlfLines (recipients.flatMap statusFields)) =
      recipients.flatMap fun r => fieldGroups (recipientLines r) := by
  induction recipients with
  | nil => rfl
  | cons _ _ ih => rw [flatMap_cons, crlfLines_statusFields, fieldGroups_append, ih, flatMap_cons]

/-! ## One recipient -/

def statusLines (r : FailedRecipient) : List Text :=
  r.status.toList.flatMap fun s => statusText (crlfLines s).head! :: (crlfLines s).tail

def diagnosticLine (r : FailedRecipient) : Text := diagnosticText (crlfLines r.diagnostic).head!

theorem recipientLines_eq (hrcpt : OneLine r.rcptTo) :
    recipientLines r = finalRecipientLine r ::
      ((actionLine r :: statusLines r) ++ diagnosticLine r :: (crlfLines r.diagnostic).tail) := by
  have hrecipient : OneLine (finalRecipientLine r) := .append (by decide +kernel) hrcpt
  have haction : OneLine (actionLine r) := by
    unfold actionLine
    cases r.action <;> decide +kernel
  have hdiagnostic : OneLine "Diagnostic-Code: smtp;" := by decide +kernel
  have hstatus : OneLine "Status: " := by decide +kernel
  unfold recipientLines diagnosticText statusText
  simp only [crlfLines_single hrecipient, crlfLines_single haction, crlfLines_plain hdiagnostic,
    crlfLines_plain hstatus]
  rfl

/-- The group of a recipient as long as no empty line cuts it. -/
def recipientGroup (r : FailedRecipient) : List Text :=
  finalRecipientLine r :: ((actionLine r :: statusLines r) ++
    diagnosticLine r :: (crlfLines r.diagnostic).tail.rdropWhile List.isEmpty)

theorem nil_mem_recipientGroup :
    [] ∈ (actionLine r :: statusLines r) ++
        diagnosticLine r :: (crlfLines r.diagnostic).tail.rdropWhile List.isEmpty ↔
      [] ∈ startedLines r := by
  have haction : [] ≠ actionLine r := (cons_ne_nil _ _).symm
  have hstatus : ∀ x, [] ≠ statusText x := fun _ => (cons_ne_nil _ _).symm
  have hdiagnostic : [] ≠ diagnosticLine r := (cons_ne_nil _ _).symm
  unfold startedLines statusLines
  simp [haction, hstatus, hdiagnostic]

theorem fieldGroups_recipientLines (hrcpt : OneLine r.rcptTo) (g : List Text) :
    fieldGroups (recipientLines r) = [g] ↔ g = recipientGroup r ∧ [] ∉ startedLines r := by
  have hrecipient : finalRecipientLine r ≠ [] := cons_ne_nil _ _
  have hdiagnostic : ¬ (diagnosticLine r).isEmpty := Bool.false_ne_true
  rw [recipientLines_eq hrcpt, fieldGroups_eq_singleton hrecipient,
    rdropWhile_append_cons hdiagnostic, nil_mem_recipientGroup]
  rfl

theorem named_recipientGroup (r : FailedRecipient) :
    named finalRecipientName (recipientGroup r) =
        finalRecipientLine r :: named finalRecipientName (startedLines r) ∧
      named actionName (recipientGroup r) = actionLine r :: named actionName (startedLines r) ∧
      (named statusName (recipientGroup r)).length =
        r.status.toList.length + (named statusName (startedLines r)).length := by
  have hrecipient : hasName finalRecipientName (finalRecipientLine r) ∧
      hasName actionName (finalRecipientLine r) = false ∧
      hasName statusName (finalRecipientLine r) = false := ⟨rfl, rfl, rfl⟩
  have haction : hasName finalRecipientName (actionLine r) = false ∧
      hasName actionName (actionLine r) ∧
      hasName statusName (actionLine r) = false := ⟨rfl, rfl, rfl⟩
  have hstatus : ∀ x, hasName finalRecipientName (statusText x) = false ∧
      hasName actionName (statusText x) = false ∧
      hasName statusName (statusText x) = true := fun _ => ⟨rfl, rfl, rfl⟩
  have hdiagnostic : hasName finalRecipientName (diagnosticLine r) = false ∧
      hasName actionName (diagnosticLine r) = false ∧
      hasName statusName (diagnosticLine r) = false := ⟨rfl, rfl, rfl⟩
  unfold recipientGroup startedLines statusLines named
  cases r.status with
  | none => simp [hrecipient, haction, hdiagnostic]
  | some => simp [hrecipient, haction, hstatus, hdiagnostic, Nat.add_comm]

theorem describes_iff (r : FailedRecipient) : Describes r (recipientGroup r) ↔
    ∀ name ∈ [finalRecipientName, actionName, statusName], named name (startedLines r) = [] := by
  obtain ⟨hrecipient, haction, hstatus⟩ := named_recipientGroup r
  constructor
  · rintro ⟨h, h', h''⟩
    rw [hrecipient] at h
    rw [haction] at h'
    simp only [forall_mem_cons]
    exact ⟨(List.cons.inj h).2, (List.cons.inj h').2, length_eq_zero_iff.mp (by omega), nofun⟩
  · intro h
    simp only [forall_mem_cons] at h
    obtain ⟨h, h', h'', -⟩ := h
    exact ⟨by rw [hrecipient, h], by rw [haction, h'], by rw [hstatus, h'']; rfl⟩

theorem recipient_iff (hrcpt : OneLine r.rcptTo) :
    (∃ g, fieldGroups (recipientLines r) = [g] ∧ Describes r g) ↔ ∀ l ∈ startedLines r, Harmless l := by
  simp only [fieldGroups_recipientLines hrcpt]
  constructor
  · rintro ⟨g, ⟨rfl, hblank⟩, hdescribes⟩ l hl
    refine ⟨fun hnil => hblank (hnil ▸ hl), fun name hname => ?_⟩
    have hnone := (describes_iff r).mp hdescribes name hname
    exact Bool.eq_false_iff.mpr (filter_eq_nil_iff.mp hnone l hl)
  · intro h
    refine ⟨_, ⟨rfl, fun hnil => (h [] hnil).1 rfl⟩, (describes_iff r).mpr fun name hname => ?_⟩
    exact filter_eq_nil_iff.mpr fun l hl => Bool.eq_false_iff.mp ((h l hl).2 name hname)

/-! ## The whole report -/

theorem length_le_flatMap {f : α → List β} {xs : List α} (hne : ∀ x ∈ xs, f x ≠ []) :
    xs.length ≤ (xs.flatMap f).length := by
  induction xs with
  | nil => exact Nat.le_refl _
  | cons _ _ ih =>
    obtain ⟨hx, hxs⟩ := forall_mem_cons.mp hne
    have hpos := length_pos_iff.mpr hx
    have hrest := ih hxs
    rw [flatMap_cons, length_append, length_cons]
    omega

/-- One part each, when every item has some part. -/
theorem forall₂_flatMap_iff {R : α → β → Prop} {f : α → List β} {xs : List α}
    (hne : ∀ x ∈ xs, f x ≠ []) :
    List.Forall₂ R xs (xs.flatMap f) ↔ ∀ x ∈ xs, ∃ y, f x = [y] ∧ R x y := by
  induction xs with
  | nil => simp
  | cons _ _ ih =>
    obtain ⟨hx, hxs⟩ := forall_mem_cons.mp hne
    rw [flatMap_cons, forall_mem_cons, ← ih hxs]
    constructor
    · intro h
      have hlen := h.length_eq
      have hrest := length_le_flatMap hxs
      obtain ⟨y, ys, hy⟩ := exists_cons_of_ne_nil hx
      rw [hy] at hlen h ⊢
      simp only [length_cons, length_append] at hlen
      obtain rfl : ys = [] := length_eq_zero_iff.mp (by omega)
      obtain ⟨hhead, htail⟩ := forall₂_cons.mp h
      exact ⟨⟨y, rfl, hhead⟩, htail⟩
    · rintro ⟨⟨y, hy, hhead⟩, htail⟩
      rw [hy]
      exact .cons hhead htail

theorem fieldGroups_reportOf {input : DsnInput} (hmta : OneLine input.reportingMta) :
    fieldGroups (crlfLines (reportOf input).deliveryStatus) =
      ["Reporting-MTA: dns;" ++ input.reportingMta] ::
        input.recipients.flatMap fun r => fieldGroups (recipientLines r) := by
  have hfirst : OneLine ("Reporting-MTA: dns;" ++ input.reportingMta) :=
    .append (by decide +kernel) hmta
  have hlines : crlfLines (reportOf input).deliveryStatus =
      ["Reporting-MTA: dns;" ++ input.reportingMta] ++
        [] :: crlfLines (input.recipients.flatMap statusFields) := by
    unfold reportOf
    simp only
    rw [append_assoc, append_assoc, crlfLines_append, crlfLines_single hfirst]
    exact congrArg _ (crlfLines_append [] _)
  rw [hlines, fieldGroups_append, fieldGroups_recipients,
    fieldGroups_solid (cons_ne_nil _ _) (by simp)]
  rfl

/-- A report has the fields that it should exactly when each line that a recipient's remote texts
start, by CRLF or by a bare LF, is harmless. -/
theorem reported_iff (input : DsnInput) (hmta : OneLine input.reportingMta)
    (hrcpts : ∀ r ∈ input.recipients, validEmailAddress r.rcptTo) :
    Reported input ↔ ∀ r ∈ input.recipients, ∀ l ∈ startedLines r, Harmless l := by
  have hplain : ∀ r ∈ input.recipients, OneLine r.rcptTo := by
    intro r hr
    have hsafe := validEmailAddress_headerSafe (hrcpts r hr)
    simp only [validHeaderValue, Bool.not_eq_true', any_eq_false] at hsafe
    exact ⟨fun h => hsafe '\r' h rfl, fun h => hsafe '\n' h rfl⟩
  have hsome : ∀ r ∈ input.recipients, fieldGroups (recipientLines r) ≠ [] := by
    intro r hr
    rw [recipientLines_eq (hplain r hr)]
    exact fieldGroups_ne_nil mem_cons_self (cons_ne_nil _ _)
  have hgroups : Reported input ↔ List.Forall₂ Describes input.recipients
      (input.recipients.flatMap fun r => fieldGroups (recipientLines r)) := by
    unfold Reported
    simp only [fieldGroups_reportOf hmta, List.cons.injEq, true_and, exists_eq_left']
  rw [hgroups, forall₂_flatMap_iff hsome]
  exact forall₂_congr fun r hr => recipient_iff (hplain r hr)

/-! A reply of the remote server with a second recipient in it. -/

def forgingRecipient (diagnostic : Text) : FailedRecipient where
  rcptTo := "bob@example.com"
  action := .failed
  status := some "5.1.1"
  diagnostic

def forgingInput (diagnostic : Text) : DsnInput where
  reportingMta := "mx.example.org"
  originalEnvelopeFrom := "alice@example.org"
  recipients := [forgingRecipient diagnostic]
  originalMessage := none

theorem reported_iff_twoLines : Reported (forgingInput "no such user\r\nhere") :=
  (reported_iff _ (by decide +kernel) (by decide +kernel)).mpr (by decide +kernel)

/-- The remote server has the notification name a recipient that was never in the message. -/
theorem forged_recipient_reported :
    let input := forgingInput
      "no\r\n\r\nFinal-Recipient: rfc822;eve@example.com\r\nAction: failed".toList
    ["Final-Recipient: rfc822;eve@example.com".toList, "Action: failed".toList] ∈
        fieldGroups (crlfLines (reportOf input).deliveryStatus) ∧
      ¬ Reported input := by
  intro input
  have hthree : (fieldGroups (crlfLines (reportOf input).deliveryStatus)).length = 3 := by
    decide +kernel
  refine ⟨by decide +kernel, ?_⟩
  rintro ⟨groups, hgroups, hdescribed⟩
  have hone : 1 = groups.length := hdescribed.length_eq
  rw [hgroups, length_cons] at hthree
  omega

end Litterae.Queue
