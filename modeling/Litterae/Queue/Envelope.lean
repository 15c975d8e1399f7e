import Litterae.Queue.Send

/-! # The envelope of a message (`queue/src/{worker,classify}.rs`)

`run_envelope` keeps one slot for each recipient and the indices of those that were accepted, and
fills their slots with the outcome of DATA. `run_eq` is that this is `runEnvelope`; `judged_iff` says
when a recipient counts as delivered exactly if MAIL, its RCPT and DATA succeeded.
-/

namespace Litterae.Queue.Envelope
open Foundations List Nat

structure Offers where
  outcomes : List (Option Outcome)
  accepted : List ℕ

def offer (client : Client) (o : Offers) (i : ℕ) : Offers :=
  match client.rcptTo i with
  | .ok => { o with accepted := o.accepted ++ [i] }
  | refused => { o with outcomes := o.outcomes.set i (some (classifySendResult refused)) }

def settle (client : Client) (o : Offers) : List (Option Outcome) :=
  if o.accepted.isEmpty then o.outcomes
  else
    let outcome := classifySendResult client.data
    o.accepted.foldl (fun outcomes i => outcomes.set i (some outcome)) o.outcomes

def missing : Outcome := .transient none none "internal: no outcome computed"

/-- RCPT for each recipient, in their order. -/
def offers (client : Client) (n : ℕ) : Offers :=
  (List.range n).foldl (offer client) ⟨List.replicate n none, []⟩

def run (client : Client) (rcpts : List ClaimedRcpt) : List Outcome :=
  match client.mailFrom with
  | .ok => (settle client (offers client rcpts.length)).map fun o => o.getD missing
  | refused => rcpts.map fun _ => classifySendResult refused

/-! ## The slots -/

section
variable {client : Client} {total n : ℕ} {o : Offers}

def slot (client : Client) (i : ℕ) : Option Outcome :=
  if client.rcptTo i = .ok then none else some (classifySendResult (client.rcptTo i))

/-- `n` of the recipients have been offered. -/
structure Offered (client : Client) (total n : ℕ) (o : Offers) : Prop where
  length : o.outcomes.length = total
  accepted : ∀ i, i ∈ o.accepted ↔ i < n ∧ client.rcptTo i = .ok
  slots : ∀ i, i < total → o.outcomes[i]? = some (if i < n then slot client i else none)

theorem Offered.step (h : Offered client total n o) (hn : n < total) :
    Offered client total (n + 1) (offer client o n) := by
  by_cases hok : client.rcptTo n = .ok
  · have hoffer : offer client o n = { o with accepted := o.accepted ++ [n] } := by
      rw [offer, hok]
    rw [hoffer]
    refine ⟨h.length, fun i => ?_, fun i hi => ?_⟩
    · rw [mem_append, h.accepted, mem_singleton]
      constructor
      · rintro (⟨hlt, hi⟩ | rfl)
        · exact ⟨by omega, hi⟩
        · exact ⟨by omega, hok⟩
      · rintro ⟨hlt, hi⟩
        rcases Nat.lt_succ_iff_lt_or_eq.mp hlt with hlt | rfl
        · exact .inl ⟨hlt, hi⟩
        · exact .inr rfl
    · rw [h.slots i hi]
      rcases lt_trichotomy i n with hlt | rfl | hgt
      · rw [if_pos hlt, if_pos (by omega)]
      · rw [if_neg (by omega), if_pos (by omega), slot, if_pos hok]
      · rw [if_neg (by omega), if_neg (by omega)]
  · have hoffer : offer client o n =
        { o with outcomes := o.outcomes.set n (some (classifySendResult (client.rcptTo n))) } := by
      unfold offer
      split
      · next hr => exact absurd hr hok
      · rfl
    rw [hoffer]
    refine ⟨by rw [length_set, h.length], fun i => ?_, fun i hi => ?_⟩
    · rw [h.accepted]
      constructor
      · rintro ⟨hlt, hi⟩
        exact ⟨by omega, hi⟩
      · rintro ⟨hlt, hi⟩
        rcases Nat.lt_succ_iff_lt_or_eq.mp hlt with hlt | rfl
        · exact ⟨hlt, hi⟩
        · exact absurd hi hok
    · rw [List.getElem?_set, h.length, h.slots i hi]
      rcases lt_trichotomy i n with hlt | rfl | hgt
      · rw [if_neg (by omega), if_pos hlt, if_pos (by omega)]
      · rw [if_pos rfl, if_pos hi, if_pos (by omega), slot, if_neg hok]
      · rw [if_neg (by omega), if_neg (by omega), if_neg (by omega)]

theorem offered (client : Client) (hn : n ≤ total) :
    Offered client total n ((List.range n).foldl (offer client) ⟨List.replicate total none, []⟩) := by
  induction n with
  | zero =>
    refine ⟨length_replicate, by simp, fun i hi => ?_⟩
    exact List.getElem?_replicate_of_lt hi
  | succ n ih =>
    rw [range_succ, foldl_append]
    exact (ih (by omega)).step (by omega)

theorem offers_offered (client : Client) (total : ℕ) :
    Offered client total total (offers client total) :=
  offered client (le_refl total)

theorem foldl_set {α : Type} (v : α) (is : List ℕ) (xs : List (Option α)) :
    (is.foldl (fun xs i => xs.set i (some v)) xs).length = xs.length ∧
      ∀ j, j < xs.length → (is.foldl (fun xs i => xs.set i (some v)) xs)[j]? =
        if j ∈ is then some (some v) else xs[j]? := by
  induction is generalizing xs with
  | nil => simp
  | cons i is ih =>
    obtain ⟨hlength, hget⟩ := ih (xs.set i (some v))
    rw [foldl_cons]
    refine ⟨hlength.trans (length_set), fun j hj => ?_⟩
    rw [hget j (by rw [length_set]; exact hj), List.getElem?_set]
    by_cases hmem : j ∈ is
    · simp [hmem]
    · by_cases hij : i = j
      · subst hij
        simp [hj]
      · have hji : j ≠ i := fun h => hij h.symm
        simp [hmem, hij, hji]

def decided (client : Client) (i : ℕ) : Outcome :=
  if client.mailFrom ≠ .ok then classifySendResult client.mailFrom
  else if client.rcptTo i ≠ .ok then classifySendResult (client.rcptTo i)
  else classifySendResult client.data

theorem settle_spec (h : Offered client total total o) :
    (settle client o).length = total ∧ ∀ i, i < total →
      (settle client o)[i]? = some (some (if client.rcptTo i ≠ .ok then
        classifySendResult (client.rcptTo i) else classifySendResult client.data)) := by
  have hslot : ∀ i, i < total → o.outcomes[i]? = some (slot client i) := by
    intro i hi
    rw [h.slots i hi, if_pos hi]
  unfold settle
  split
  · next hempty =>
    refine ⟨h.length, fun i hi => ?_⟩
    have hrefused : client.rcptTo i ≠ .ok := by
      intro hok
      have hmem := (h.accepted i).mpr ⟨hi, hok⟩
      rw [isEmpty_iff.mp hempty] at hmem
      cases hmem
    rw [hslot i hi, slot, if_neg hrefused, if_pos hrefused]
  · obtain ⟨hlength, hget⟩ := foldl_set (classifySendResult client.data) o.accepted o.outcomes
    refine ⟨hlength.trans h.length, fun i hi => ?_⟩
    rw [hget i (by rw [h.length]; exact hi), hslot i hi, slot]
    by_cases hok : client.rcptTo i = .ok
    · rw [if_pos ((h.accepted i).mpr ⟨hi, hok⟩), if_neg (not_not_intro hok)]
    · rw [if_neg (fun hmem => hok ((h.accepted i).mp hmem).2), if_neg hok, if_pos hok]

theorem settle_filled (client : Client) (total : ℕ) : none ∉ settle client (offers client total) := by
  intro hnone
  obtain ⟨hlength, hget⟩ := settle_spec (offers_offered client total)
  obtain ⟨i, hi⟩ := getElem?_of_mem hnone
  obtain ⟨hlt, -⟩ := List.getElem?_eq_some_iff.mp hi
  rw [hget i (hlength ▸ hlt)] at hi
  cases hi

theorem run_spec (client : Client) (rcpts : List ClaimedRcpt) :
    (run client rcpts).length = rcpts.length ∧
      ∀ i, i < rcpts.length → (run client rcpts)[i]? = some (decided client i) := by
  unfold run
  split
  · next hmail =>
    obtain ⟨hlength, hget⟩ := settle_spec (offers_offered client rcpts.length)
    refine ⟨by rw [length_map, hlength], fun i hi => ?_⟩
    rw [List.getElem?_map, hget i hi, decided, if_neg (not_not_intro hmail)]
    rfl
  · next hmail =>
    refine ⟨length_map _, fun i hi => ?_⟩
    rw [List.getElem?_map, List.getElem?_eq_getElem hi, decided, if_pos (fun h => hmail h)]
    rfl

/-- Every slot gets an outcome, so the code's default for a missing one is never used. -/
theorem run_eq (rcpts : List ClaimedRcpt) :
    run client rcpts = runEnvelope client rcpts ∧
      none ∉ settle client (offers client rcpts.length) := by
  have hget : ∀ (rcpts : List ClaimedRcpt) (k i : ℕ), client.mailFrom = .ok → i < rcpts.length →
      (rcptOutcomes client k rcpts)[i]? = some (decided client (k + i)) := by
    intro rcpts
    induction rcpts with
    | nil => exact fun k i _ hi => absurd hi (not_lt_zero i)
    | cons _ _ ih =>
      intro k i hmail hi
      cases i with
      | zero =>
        rw [rcptOutcomes, List.getElem?_cons_zero, decided, if_neg (not_not_intro hmail),
          add_zero]
        cases client.rcptTo k <;> rfl
      | succ i =>
        rw [rcptOutcomes, List.getElem?_cons_succ, ih (k + 1) i hmail (lt_of_succ_lt_succ hi),
          add_right_comm]
        rfl
  obtain ⟨hlength, hrun⟩ := run_spec client rcpts
  refine ⟨ext_getElem? fun i => ?_, settle_filled client rcpts.length⟩
  by_cases hi : i < rcpts.length
  · rw [hrun i hi]
    unfold runEnvelope
    split
    · next hmail => rw [hget rcpts 0 i hmail hi, zero_add]
    · next hmail =>
      rw [List.getElem?_map, List.getElem?_eq_getElem hi, decided, if_pos (fun h => hmail h)]
      rfl
  · rw [List.getElem?_eq_none (by omega),
      List.getElem?_eq_none (by rw [runEnvelope_length]; omega)]

end

/-! ## Delivered means accepted -/

def replyClass : SendResult → Option ℕ
  | .unexpectedReply code _ _ => some (code / 100)
  | _ => none

def stages (client : Client) (i : ℕ) : List SendResult :=
  if client.mailFrom ≠ .ok then [client.mailFrom]
  else if client.rcptTo i ≠ .ok then [client.mailFrom, client.rcptTo i]
  else [client.mailFrom, client.rcptTo i, client.data]

/-- Delivered if all of them succeeded, permanent on a 5xx and transient otherwise. -/
structure Judged (client : Client) (i : ℕ) (o : Outcome) : Prop where
  delivered : o = .delivered ↔
    client.mailFrom = .ok ∧ client.rcptTo i = .ok ∧ client.data = .ok
  permanent : (∃ r ∈ stages client i, replyClass r = some 5) → o.isPermanent = true
  transient : (∃ r ∈ stages client i, r ≠ .ok) → (∀ r ∈ stages client i, replyClass r ≠ some 5) →
    o.isTransient = true

theorem classify_cases (r : SendResult) :
    (r = .ok ∧ classifySendResult r = .delivered) ∨
      (r ≠ .ok ∧ replyClass r = some 2 ∧ classifySendResult r = .delivered) ∨
      (r ≠ .ok ∧ replyClass r = some 5 ∧ (classifySendResult r).isPermanent) ∨
      (r ≠ .ok ∧ replyClass r ≠ some 2 ∧ replyClass r ≠ some 5 ∧
        (classifySendResult r).isTransient) := by
  cases r with
  | ok => exact .inl ⟨rfl, rfl⟩
  | failed => exact .inr (.inr (.inr ⟨by simp, by simp [replyClass], by simp [replyClass], rfl⟩))
  | unexpectedReply =>
    simp only [replyClass, classifySendResult, classifyCode]
    split
    · next h => simp [h]
    · next h => simp [h, Outcome.isTransient]
    · next h => simp [h, Outcome.isPermanent]
    · next h2 h4 h5 => simp_all [Outcome.isTransient]

/-- The last call made for the `i`-th recipient. -/
def decisive (client : Client) (i : ℕ) : SendResult :=
  if client.mailFrom ≠ .ok then client.mailFrom
  else if client.rcptTo i ≠ .ok then client.rcptTo i
  else client.data

theorem decided_eq (client : Client) (i : ℕ) :
    decided client i = classifySendResult (decisive client i) := by
  unfold decided decisive
  split
  · rfl
  · split <;> rfl

theorem decisive_ok (client : Client) (i : ℕ) :
    decisive client i = .ok ↔ client.mailFrom = .ok ∧ client.rcptTo i = .ok ∧ client.data = .ok := by
  unfold decisive
  split
  · next hmail => simp [hmail]
  · next hmail =>
    split
    · next hrcpt => simp [hrcpt]
    · next hrcpt => simp_all

theorem mem_stages (client : Client) (i : ℕ) (r : SendResult) :
    (r ∈ stages client i → r = .ok ∨ r = decisive client i) ∧ decisive client i ∈ stages client i := by
  unfold stages decisive
  split
  · exact ⟨fun h => .inr (mem_singleton.mp h), mem_singleton_self _⟩
  · split
    · next hmail _ => simp_all
    · next hmail hrcpt => simp_all

theorem judged_decided_iff (client : Client) (i : ℕ) :
    Judged client i (decided client i) ↔ ∀ r ∈ stages client i, replyClass r ≠ some 2 := by
  have hstages := mem_stages client i
  have hmem := (hstages .ok).2
  rw [decided_eq]
  constructor
  · rintro ⟨hdelivered, -, -⟩ r hr hclass
    rcases (hstages r).1 hr with rfl | rfl
    · cases hclass
    · rcases classify_cases (decisive client i) with ⟨hok, -⟩ | ⟨hok, -, hclassify⟩ | ⟨-, h5, -⟩ |
        ⟨-, h2, -⟩
      · rw [hok] at hclass
        cases hclass
      · exact hok ((decisive_ok client i).mpr (hdelivered.mp hclassify))
      · rw [hclass] at h5
        cases h5
      · exact h2 hclass
  · intro hclean
    have hlast := hclean _ hmem
    refine ⟨?_, ?_, ?_⟩
    · rw [← decisive_ok]
      rcases classify_cases (decisive client i) with ⟨hok, h⟩ | ⟨-, h2, -⟩ | ⟨hok, -, h⟩ |
        ⟨hok, -, -, h⟩
      · exact ⟨fun _ => hok, fun _ => h⟩
      · exact absurd h2 hlast
      · refine ⟨fun hd => ?_, fun hd => absurd hd hok⟩
        rw [hd] at h
        cases h
      · refine ⟨fun hd => ?_, fun hd => absurd hd hok⟩
        rw [hd] at h
        cases h
    · rintro ⟨r, hr, hclass⟩
      rcases (hstages r).1 hr with rfl | rfl
      · cases hclass
      · rcases classify_cases (decisive client i) with ⟨hok, -⟩ | ⟨-, h2, -⟩ | ⟨-, -, h⟩ | ⟨-, -, h5, -⟩
        · rw [hok] at hclass
          cases hclass
        · exact absurd h2 hlast
        · exact h
        · exact absurd hclass h5
    · rintro ⟨r, hr, hrefused⟩ hno5
      rcases classify_cases (decisive client i) with ⟨hok, -⟩ | ⟨-, h2, -⟩ | ⟨-, h5, -⟩ | ⟨-, -, -, h⟩
      · rcases (hstages r).1 hr with rfl | rfl
        · exact absurd rfl hrefused
        · exact absurd hok hrefused
      · exact absurd h2 hlast
      · exact absurd h5 (hno5 _ hmem)
      · exact h

/-- One outcome for each recipient, in order and as it was judged, if and only if no error carries a
2xx reply. -/
theorem judged_iff (client : Client) (rcpts : List ClaimedRcpt) :
    ((run client rcpts).length = rcpts.length ∧ ∀ i < rcpts.length,
      ∃ o, (run client rcpts)[i]? = some o ∧ Judged client i o) ↔
    ∀ i < rcpts.length, ∀ r ∈ stages client i, replyClass r ≠ some 2 := by
  obtain ⟨hlength, hrun⟩ := run_spec client rcpts
  constructor
  · rintro ⟨-, hjudged⟩ i hi
    obtain ⟨o, ho, hjudged⟩ := hjudged i hi
    obtain rfl : decided client i = o := Option.some.inj ((hrun i hi).symm.trans ho)
    exact (judged_decided_iff client i).mp hjudged
  · intro hclean
    exact ⟨hlength, fun i hi => ⟨_, hrun i hi, (judged_decided_iff client i).mpr (hclean i hi)⟩⟩

/-- The server answers 250 where it should ask for the message; nothing was sent, and the recipient
counts as delivered. -/
theorem refused_data_delivered :
    let client : Client := ⟨.ok, fun _ => .ok, .unexpectedReply 250 (2, 0, 0) "OK"⟩
    let rcpt : ClaimedRcpt :=
      ⟨1, "bob@example.net", "example.net", "FAILURE", 0, false⟩
    run client [rcpt] = [.delivered] ∧ client.data ≠ .ok ∧ ¬ Judged client 0 .delivered := by
  refine ⟨by decide +kernel, by simp, fun h => ?_⟩
  have hok := (h.delivered.mp rfl).2.2
  cases hok

end Litterae.Queue.Envelope
