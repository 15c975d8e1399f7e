import Litterae.Jmap.EmailGet
import Mathlib.Data.List.Infix

/-! # Keyword filters and hidden messages (`Email/query`)

The keyword filters run as a SQL pattern over the comma-joined keyword list. What the pattern matches
is any stretch of the list between two commas, which for an exact keyword is one entry. Two of the
four kinds of query leave snoozed messages out; a search and a keyword filter do not.
-/

namespace Litterae.Store
open Foundations List

/-! ## LIKE -/

theorem patternCompare_nil (s : Text) : patternCompare [] s ↔ s = [] := by
  simp [patternCompare]

theorem patternCompare_percent (p s : Text) :
    patternCompare ('%' :: p) s ↔ ∃ a b, s = a ++ b ∧ patternCompare p b := by
  simp only [patternCompare, if_true, any_eq_true, mem_tails]
  constructor
  · rintro ⟨b, ⟨a, rfl⟩, hb⟩
    exact ⟨a, b, rfl, hb⟩
  · rintro ⟨a, b, rfl, hb⟩
    exact ⟨b, ⟨a, rfl⟩, hb⟩

theorem patternCompare_char {c : Char} (hc : c ≠ '%') (p s : Text) :
    patternCompare (c :: p) s ↔
      ∃ d rest, s = d :: rest ∧ (c = '_' ∨ c.toLower = d.toLower) ∧ patternCompare p rest := by
  cases s with
  | nil => simp [patternCompare, hc]
  | cons d rest =>
    simp only [patternCompare, if_neg hc, Bool.and_eq_true, Bool.or_eq_true, beq_iff_eq]
    constructor
    · rintro ⟨hd, hp⟩
      exact ⟨d, rest, rfl, hd, hp⟩
    · rintro ⟨d', rest', heq, hd, hp⟩
      cases heq
      exact ⟨hd, hp⟩

theorem patternCompare_append (p q s : Text) :
    patternCompare (p ++ q) s ↔ ∃ a b, s = a ++ b ∧ patternCompare p a ∧ patternCompare q b := by
  induction p generalizing s with
  | nil => simp [patternCompare_nil]
  | cons c p ih =>
    by_cases hc : c = '%'
    · subst hc
      simp only [cons_append, patternCompare_percent, ih]
      constructor
      · rintro ⟨a, _, rfl, b, d, rfl, hp, hq⟩
        exact ⟨a ++ b, d, by simp, ⟨a, b, rfl, hp⟩, hq⟩
      · rintro ⟨_, d, rfl, ⟨a, b, rfl, hp⟩, hq⟩
        exact ⟨a, b ++ d, by simp, b, d, rfl, hp, hq⟩
    · simp only [cons_append, patternCompare_char hc, ih]
      constructor
      · rintro ⟨d, _, rfl, hd, b, e, rfl, hp, hq⟩
        exact ⟨d :: b, e, rfl, ⟨d, b, rfl, hd, hp⟩, hq⟩
      · rintro ⟨_, e, rfl, ⟨d, b, rfl, hd, hp⟩, hq⟩
        exact ⟨d, b ++ e, rfl, hd, b, e, rfl, hp, hq⟩

theorem patternCompare_self (k : Text) : patternCompare k k := by
  induction k with
  | nil => rfl
  | cons c k ih =>
    by_cases hc : c = '%'
    · subst hc
      exact (patternCompare_percent k _).mpr ⟨['%'], k, rfl, ih⟩
    · exact (patternCompare_char hc k _).mpr ⟨c, k, rfl, Or.inr rfl, ih⟩

theorem patternCompare_comma (s : Text) : patternCompare [','] s ↔ s = [','] := by
  have hcomma : ∀ d : Char, ',' = d.toLower ↔ d = ',' := fun d =>
    ⟨fun h => eq_of_toLower_eq (by decide) h.symm, fun h => by rw [h]; rfl⟩
  simp [patternCompare_char, patternCompare_nil, hcomma]

theorem cString_append {s : Text} (hs : nul ∉ s) (t : Text) : cString (s ++ t) = s ++ cString t :=
  takeWhile_append_of_pos fun _ hc => decide_eq_true fun h => hs (h ▸ hc)

theorem cString_eq_self {s : Text} (hs : nul ∉ s) : cString s = s := by
  simpa [cString] using cString_append hs []

theorem cString_append_of_mem {s : Text} (hs : nul ∈ s) (t : Text) :
    cString (s ++ t) = cString s := by
  obtain ⟨a, b, rfl, ha⟩ := eq_append_cons_of_mem hs
  rw [append_assoc, cString_append ha, cString_append ha]
  rfl

/-- A stretch of a keyword list from one comma to another, the list being taken with a comma at
either end; for a keyword cut short by a NUL, a stretch from a comma to the end. A NUL in the list ends
it, before the comma at its end. -/
def Stretch (k keywords run : Text) : Prop :=
  ∃ before after, cString (',' :: keywords ++ [',']) = before ++ ',' :: run ++ after ∧
    if nul ∈ k then after = [] else after.head? = some ','

theorem keywordLike_iff (k : Text) (m : StoredMessage) :
    keywordLike k m ↔ ∃ run, Stretch k m.keywords run ∧ patternCompare (cString k) run := by
  have hany : ∀ s, patternCompare ['%'] s = true := fun s =>
    (patternCompare_percent [] s).mpr ⟨s, [], by simp, rfl⟩
  have hpattern : cString (keywordPattern k) = "%," ++ cString (k ++ ",%") :=
    (congrArg cString (append_assoc _ _ _)).trans (cString_append (by decide) _)
  have hstart : ∀ p s, patternCompare ("%," ++ p) s ↔
      ∃ before rest, s = before ++ ',' :: rest ∧ patternCompare p rest := by
    intro p s
    change patternCompare ('%' :: ([','] ++ p)) s ↔ _
    simp only [patternCompare_percent, patternCompare_append, patternCompare_comma]
    constructor
    · rintro ⟨before, _, rfl, _, rest, rfl, rfl, hp⟩
      exact ⟨before, rest, rfl, hp⟩
    · rintro ⟨before, rest, rfl, hp⟩
      exact ⟨before, _, rfl, [','], rest, rfl, rfl, hp⟩
  rw [keywordLike, like, hpattern, hstart]
  by_cases hk : nul ∈ k
  · simp only [Stretch, cString_append_of_mem hk, if_pos hk]
    constructor
    · rintro ⟨before, run, hs, hrun⟩
      exact ⟨run, ⟨before, [], by rw [hs, append_nil], rfl⟩, hrun⟩
    · rintro ⟨run, ⟨before, _, hs, rfl⟩, hrun⟩
      exact ⟨before, run, by rw [hs, append_nil], hrun⟩
  · have hend : cString (k ++ ",%") = k ++ ([','] ++ ['%']) := by
      rw [cString_append hk]
      rfl
    simp only [Stretch, hend, cString_eq_self hk, if_neg hk, patternCompare_append,
      patternCompare_comma, hany, and_true]
    constructor
    · rintro ⟨before, _, hs, run, _, rfl, hrun, _, after, rfl, rfl⟩
      exact ⟨run, ⟨before, ',' :: after, by simpa using hs, rfl⟩, hrun⟩
    · rintro ⟨run, ⟨before, after, hs, hafter⟩, hrun⟩
      obtain ⟨after, rfl⟩ := head?_eq_some_iff.mp hafter
      exact ⟨before, _, by simpa using hs, run, _, rfl, hrun, [','], after, rfl, rfl⟩

section
variable {faults : Faults} {site : Site} {accountId : ℤ} {p : StoredMessage → Bool} {k : Text}
  {m m' : MetadataStore} {rows : List StoredMessage}

theorem selectMessages_of_none (h : faults site = none) :
    selectMessages faults site accountId p m =
      (.ok (latestFirst (m.messages.filter fun r => r.accountId == accountId && p r)), m) := by
  rw [selectMessages, sql_bind_run, h]
  rfl

theorem selectMessages_ok (h : selectMessages faults site accountId p m = (.ok rows, m')) :
    faults site = none ∧ m' = m ∧
      ∀ r, r ∈ rows ↔ r ∈ m.messages ∧ r.accountId = accountId ∧ p r := by
  cases hfault : faults site with
  | some =>
    rw [selectMessages, sql_bind_run, hfault] at h
    cases h
  | none =>
    rw [selectMessages_of_none hfault] at h
    cases h
    refine ⟨rfl, rfl, fun r => ?_⟩
    rw [(latestFirst_perm).mem_iff, mem_filter, Bool.and_eq_true, beq_iff_eq]

/-- The pattern of the keyword is within SQLite's limit, if there is a row to compare with it. -/
def PatternFits (accountId : ℤ) (k : Text) (m : MetadataStore) : Prop :=
  ∀ r ∈ m.messages, r.accountId = accountId → byteLen (keywordPattern k) ≤ likePatternLimit

theorem selectLike_of_fits (h : faults .messagesByKeyword = none) (hfits : PatternFits accountId k m) :
    selectLike faults accountId k p m =
      (.ok ((latestFirst (m.messages.filter fun r => r.accountId == accountId && true)).filter p), m) := by
  have hrun := @selectMessages_of_none faults _ accountId (fun _ => true) m h
  rw [selectLike, Exec.bind_of_ok hrun, if_neg]
  · rfl
  · simp only [Bool.and_eq_true, decide_eq_true_eq, Bool.not_eq_true', isEmpty_eq_false_iff, not_and]
    intro hlong hrows
    obtain ⟨r, hr⟩ := exists_mem_of_ne_nil _ hrows
    obtain ⟨hmem, hacc, -⟩ := ((selectMessages_ok hrun).2.2 r).mp hr
    exact absurd (hfits r hmem hacc) (Nat.not_le_of_lt hlong)

theorem selectLike_ok (h : selectLike faults accountId k p m = (.ok rows, m')) :
    faults .messagesByKeyword = none ∧ PatternFits accountId k m ∧
      ∀ r, r ∈ rows ↔ r ∈ m.messages ∧ r.accountId = accountId ∧ p r := by
  obtain ⟨own, m₁, hown, hrows⟩ := Exec.bind_ok h
  obtain ⟨hquery, -, hmem⟩ := selectMessages_ok hown
  split at hrows
  · cases hrows
  · next hfits =>
    cases hrows
    refine ⟨hquery, fun r hr hacc => ?_, fun r => ?_⟩
    · have hne : own ≠ [] := ne_nil_of_mem ((hmem r).mpr ⟨hr, hacc, rfl⟩)
      simpa [hne] using hfits
    · rw [mem_filter, hmem]
      simp [and_assoc]

end

end Litterae.Store

namespace Litterae.Jmap
open Foundations Store Queue Exec

/-! ## Exact keywords -/

theorem comma_intercalate {parts : List Text} (h : parts ≠ []) :
    ',' :: [','].intercalate parts = parts.flatMap (',' :: ·) := by
  induction parts with
  | nil => exact absurd rfl h
  | cons x parts ih =>
    cases parts with
    | nil => simp [List.intercalate]
    | cons =>
      rw [List.flatMap_cons, ← ih (by simp)]
      simp [List.intercalate]

theorem hasKeyword_iff (keywords k : Text) :
    hasKeyword keywords k ↔ k ∈ keywords.splitOn ',' := by
  simp [hasKeyword]

theorem stretch_of_hasKeyword {keywords k : Text} (hk : nul ∉ k) (hnul : nul ∉ keywords)
    (h : hasKeyword keywords k) : Stretch k keywords k := by
  obtain ⟨before, after, hparts⟩ := List.append_of_mem ((hasKeyword_iff _ _).mp h)
  have hjoin : ',' :: keywords = (before ++ k :: after).flatMap (',' :: ·) := by
    rw [← comma_intercalate (by simp), ← hparts, List.intercalate_splitOn]
  have hwhole : nul ∉ ',' :: keywords ++ [','] := by
    simp only [List.cons_append, List.mem_cons, List.mem_append, hnul]
    decide
  refine ⟨before.flatMap (',' :: ·), after.flatMap (',' :: ·) ++ [','], ?_, ?_⟩
  · rw [cString_eq_self hwhole, hjoin]
    simp
  · rw [if_neg hk]
    cases after <;> rfl

structure FiltersAgree (accountId : ℤ) (k : Text) (m : MetadataStore) : Prop where
  having : ∃ rows, messagesWithKeyword .none accountId k m = (.ok rows, m) ∧
    rows.Perm (m.messages.filter fun r => r.accountId == accountId && hasKeyword r.keywords k)
  lacking : ∃ rows, messagesWithoutKeyword .none accountId k m = (.ok rows, m) ∧
    rows.Perm (m.messages.filter fun r => r.accountId == accountId && !hasKeyword r.keywords k)
  once : ∃ rows others, messagesWithKeyword .none accountId k m = (.ok rows, m) ∧
    messagesWithoutKeyword .none accountId k m = (.ok others, m) ∧
    (rows ++ others).Perm (m.messages.filter fun r => r.accountId == accountId)

/-- The filters agree with the keyword sets exactly when the pattern is within SQLite's limit, the
keyword, taken as a pattern, matches stretches of those keyword lists only that have it as an entry, and
no entry is missed because of a NUL. -/
theorem filtersAgree_iff (accountId : ℤ) (k : Text) (m : MetadataStore) :
    FiltersAgree accountId k m ↔ PatternFits accountId k m ∧
      ∀ r ∈ m.messages, r.accountId = accountId →
        (∀ run, Stretch k r.keywords run → patternCompare (cString k) run → hasKeyword r.keywords k) ∧
        (nul ∈ k ∨ nul ∈ r.keywords → hasKeyword r.keywords k →
          ∃ run, Stretch k r.keywords run ∧ patternCompare (cString k) run) := by
  constructor
  · intro h
    obtain ⟨rows, hrows, hperm⟩ := h.having
    obtain ⟨-, hfits, hmem⟩ := selectLike_ok hrows
    refine ⟨hfits, fun r hr hacc => ?_⟩
    have hiff : keywordLike k r ↔ hasKeyword r.keywords k := by
      have hkept : r ∈ rows ↔ _ := hperm.mem_iff.trans List.mem_filter
      rw [hmem] at hkept
      simpa [hr, hacc] using hkept
    exact ⟨fun run hrun hlike => hiff.mp ((keywordLike_iff k r).mpr ⟨run, hrun, hlike⟩),
      fun _ hk => (keywordLike_iff k r).mp (hiff.mpr hk)⟩
  · rintro ⟨hfits, h⟩
    have hsame : ∀ r ∈ m.messages, r.accountId = accountId →
        keywordLike k r = hasKeyword r.keywords k := by
      intro r hr hacc
      rw [Bool.eq_iff_iff, keywordLike_iff]
      refine ⟨fun ⟨run, hrun, hlike⟩ => (h r hr hacc).1 run hrun hlike, fun hk => ?_⟩
      by_cases hnul : nul ∈ k ∨ nul ∈ r.keywords
      · exact (h r hr hacc).2 hnul hk
      · obtain ⟨hkey, hlist⟩ := not_or.mp hnul
        rw [cString_eq_self hkey]
        exact ⟨k, stretch_of_hasKeyword hkey hlist hk, patternCompare_self k⟩
    have hselect : ∀ p q : StoredMessage → Bool,
        (∀ r ∈ m.messages, r.accountId = accountId → p r = q r) →
        ((latestFirst (m.messages.filter fun r => r.accountId == accountId && true)).filter p).Perm
          (m.messages.filter fun r => r.accountId == accountId && q r) := by
      intro p q hpq
      refine (latestFirst_perm.filter p).trans (List.Perm.of_eq ?_)
      rw [List.filter_filter]
      refine List.filter_congr fun r hr => ?_
      by_cases hacc : r.accountId = accountId
      · simp [hpq r hr hacc, hacc]
      · simp [beq_eq_false_iff_ne.mpr hacc]
    refine ⟨⟨_, selectLike_of_fits rfl hfits, hselect _ _ hsame⟩,
      ⟨_, selectLike_of_fits rfl hfits, hselect _ _ fun r hr hacc => by rw [hsame r hr hacc]⟩,
      ⟨_, _, selectLike_of_fits rfl hfits, selectLike_of_fits rfl hfits, ?_⟩⟩
    refine (List.filter_append_perm _ _).trans ?_
    simpa using latestFirst_perm

/-- Letters in the other case, and any character in the place of an underscore, pass for the
keyword. -/
theorem keyword_filter_inexact :
    let m := { MetadataStore.empty with messages := [sampleRow 1 1 "$SEEN", sampleRow 2 1 "to-do"] }
    messagesWithKeyword .none 1 "$seen" m = (.ok [sampleRow 1 1 "$SEEN"], m) ∧
      messagesWithKeyword .none 1 "to_do" m = (.ok [sampleRow 2 1 "to-do"], m) ∧
      hasKeyword "$SEEN" "$seen" = false ∧
      hasKeyword "to-do" "to_do" = false := by
  decide +kernel

/-! ## Snoozed messages -/

def Snoozed (m : MetadataStore) (id : ℤ) : Prop :=
  ∃ r ∈ m.messages, r.id = id ∧ hasKeyword r.keywords keywordSnoozed = true

section
variable {P : Primitives} {R : Reader} {accountPriv : Bytes} {accountId searched : ℤ}
  {faults : Faults} {messages : ℕ → Faults} {filter : EmailFilter} {s t : CallState} {ids : List ℤ}

/-- No snoozed message is among those the query counts and lists. -/
def Hides (P : Primitives) (R : Reader) (accountPriv : Bytes) (accountId searched : ℤ)
    (faults : Faults) (messages : ℕ → Faults) (args : EmailQueryArgs) (s : CallState) : Prop :=
  ∀ result t, emailQuery P R accountPriv accountId searched faults messages args s =
      (.ok result, t) →
    ∃ ids, (matchingIds P R accountPriv accountId searched faults messages args.filter s).1 = .ok ids ∧
      result.total = ids.length ∧ (∀ id ∈ result.ids, ∃ i ∈ ids, id = 'm' :: showInt i) ∧
      ∀ i ∈ ids, ¬ Snoozed s.stores.metadata i

/-- The query is a search or a keyword filter, and a snoozed message is found by it. -/
inductive Exposes (P : Primitives) (R : Reader) (accountPriv : Bytes) (accountId searched : ℤ)
    (faults : Faults) (messages : ℕ → Faults) (filter : EmailFilter) (s : CallState) : Prop
  | search (text : Text) (docs : List Doc) (ids : List ℤ) (id : ℤ)
      (htext : (filter.text.filter fun text => !(trim text).isEmpty) = some text)
      (hdocs : (searchDocs P R accountPriv searched faults messages s).1 = .ok docs)
      (hids : R.matchDocs docs (fts5Query text) = .ok ids) (hid : id ∈ ids)
      (h : Snoozed s.stores.metadata id)
  | keyword (k : Text) (r : StoredMessage)
      (htext : (filter.text.filter fun text => !(trim text).isEmpty) = none)
      (hk : filter.hasKeyword = some k) (hquery : faults .messagesByKeyword = none)
      (hfits : byteLen (keywordPattern k) ≤ likePatternLimit)
      (hr : r ∈ s.stores.metadata.messages) (hacc : r.accountId = accountId)
      (hlike : keywordLike k r = true) (h : hasKeyword r.keywords keywordSnoozed = true)

theorem emailQuery_ok {args : EmailQueryArgs} {result : EmailQueryResult}
    (h : emailQuery P R accountPriv accountId searched faults messages args s = (.ok result, t)) :
    ∃ ids, matchingIds P R accountPriv accountId searched faults messages args.filter s =
        (.ok ids, t) ∧ result.total = ids.length ∧
      ∀ id ∈ result.ids, ∃ i ∈ ids, id = 'm' :: showInt i := by
  obtain ⟨ids, u, hids, hresult⟩ := bind_ok h
  cases hresult
  refine ⟨ids, mapErr_ok_iff.mp hids, rfl, fun id hid => ?_⟩
  obtain ⟨i, hi, rfl⟩ := List.mem_map.mp hid
  exact ⟨i, List.mem_of_mem_drop (List.mem_of_mem_take hi), rfl⟩

theorem shown_not_snoozed (hkeys : (s.stores.metadata.messages.map StoredMessage.id).Nodup)
    {rows : List StoredMessage} (hrows : ∀ r ∈ rows, r ∈ s.stores.metadata.messages) {i : ℤ}
    (hi : i ∈ shown rows) : ¬ Snoozed s.stores.metadata i := by
  rintro ⟨r', hr', hid, hsnoozed⟩
  obtain ⟨r, hr, rfl⟩ := List.mem_map.mp hi
  obtain ⟨hmem, hkept⟩ := List.mem_filter.mp hr
  rw [List.inj_on_of_nodup_map hkeys hr' (hrows r hmem) hid] at hsnoozed
  simp [hsnoozed] at hkept

theorem inStores_onMetadata_run {α : Type} (x : Exec MetadataStore Error α) :
    inStores (onMetadata x) s =
      ((x s.stores.metadata).1,
        { s with stores := { s.stores with metadata := (x s.stores.metadata).2 } }) := rfl

theorem inStores_onMetadata_ok {α : Type} {x : Exec MetadataStore Error α} {a : α}
    (h : inStores (onMetadata x) s = (.ok a, t)) :
    x s.stores.metadata = (.ok a, t.stores.metadata) := by
  rw [inStores_onMetadata_run, Prod.mk.injEq] at h
  obtain ⟨hres, rfl⟩ := h
  exact Prod.ext hres rfl

theorem queriedMailbox_messages {inMailbox : Option Text} {m m' : MetadataStore} {id : ℤ}
    (h : queriedMailbox accountId faults inMailbox m = (.ok id, m')) : m'.messages = m.messages := by
  cases hnamed : inMailbox.bind mailboxRowId with
  | some =>
    simp only [queriedMailbox, hnamed] at h
    cases h
    rfl
  | none =>
    simp only [queriedMailbox, hnamed] at h
    obtain ⟨inbox, u, hinbox, hid⟩ := bind_ok h
    cases hid
    exact (ensureMailbox_same (fun _ _ => rfl) _ _).run hinbox

theorem matchingIds_hide (hkeys : (s.stores.metadata.messages.map StoredMessage.id).Nodup)
    (hsafe : ¬ Exposes P R accountPriv accountId searched faults messages filter s)
    (h : matchingIds P R accountPriv accountId searched faults messages filter s = (.ok ids, t)) {i : ℤ}
    (hi : i ∈ ids) : ¬ Snoozed s.stores.metadata i := by
  intro hsnoozed
  cases htext : filter.text.filter fun text => !(trim text).isEmpty with
  | some text =>
    simp only [matchingIds, htext] at h
    obtain ⟨docs, u, hdocs, hids⟩ := bind_ok h
    cases hmatch : R.matchDocs docs (fts5Query text) with
    | error => rw [hmatch] at hids; cases hids
    | ok =>
      rw [hmatch] at hids
      cases hids
      exact hsafe (.search text docs ids i htext (by rw [hdocs]) hmatch hi hsnoozed)
  | none =>
    cases hk : filter.hasKeyword with
    | some k =>
      simp only [matchingIds, htext, hk] at h
      obtain ⟨rows, u, hrows, hids⟩ := bind_ok h
      cases hids
      have hrun := inStores_onMetadata_ok hrows
      obtain ⟨r, hr, rfl⟩ := List.mem_map.mp hi
      obtain ⟨hquery, hfits, hfound⟩ := selectLike_ok hrun
      obtain ⟨hmem, hacc, hlike⟩ := (hfound r).mp hr
      obtain ⟨r', hr', hid, hkept⟩ := hsnoozed
      rw [List.inj_on_of_nodup_map hkeys hr' hmem hid] at hkept
      exact hsafe (.keyword k r htext hk hquery (hfits r hmem hacc) hmem hacc hlike hkept)
    | none =>
      cases hn : filter.notHasKeyword with
      | some =>
        simp only [matchingIds, htext, hk, hn] at h
        obtain ⟨rows, u, hrows, hids⟩ := bind_ok h
        cases hids
        have hmem := (selectLike_ok (inStores_onMetadata_ok hrows)).2.2
        exact shown_not_snoozed hkeys (fun r hr => ((hmem r).mp hr).1) hi hsnoozed
      | none =>
        simp only [matchingIds, htext, hk, hn] at h
        obtain ⟨mailboxId, u, hmailbox, h⟩ := bind_ok h
        obtain ⟨rows, v, hrows, hids⟩ := bind_ok h
        cases hids
        have hsame := queriedMailbox_messages (inStores_onMetadata_ok hmailbox)
        have hmem := (selectMessages_ok (inStores_onMetadata_ok hrows)).2.2
        refine shown_not_snoozed hkeys (fun r hr => ?_) hi hsnoozed
        rw [← hsame]
        exact ((hmem r).mp hr).1

theorem Exposes.matched (h : Exposes P R accountPriv accountId searched faults messages filter s) :
    ∃ ids t i, matchingIds P R accountPriv accountId searched faults messages filter s = (.ok ids, t) ∧
      i ∈ ids ∧ Snoozed s.stores.metadata i := by
  cases h with
  | search _ docs ids i htext hdocs hids hi h =>
    have hrun : searchDocs P R accountPriv searched faults messages s = (.ok docs, _) :=
      Prod.ext hdocs rfl
    refine ⟨ids, (searchDocs P R accountPriv searched faults messages s).2, i, ?_, hi, h⟩
    simp only [matchingIds, htext]
    rw [Jmap.search, bind_of_ok hrun, hids]
    rfl
  | keyword k r htext hk hquery hfits hr hacc hlike h =>
    obtain ⟨rows, hrows⟩ : ∃ rows,
        inStores (onMetadata (messagesWithKeyword faults accountId k)) s = (.ok rows, s) := by
      rw [inStores_onMetadata_run, messagesWithKeyword, selectLike_of_fits hquery fun _ _ _ => hfits]
      exact ⟨_, rfl⟩
    have hmem : r ∈ rows :=
      ((selectLike_ok (inStores_onMetadata_ok hrows)).2.2 r).mpr ⟨hr, hacc, hlike⟩
    refine ⟨rows.map StoredMessage.id, s, r.id, ?_, List.mem_map_of_mem hmem, r, hr, rfl, h⟩
    simp only [matchingIds, htext, hk]
    exact bind_of_ok hrows

/-- Snoozed messages are hidden from a query exactly when it is not a search or a keyword filter
that finds one. -/
theorem hides_iff (hkeys : (s.stores.metadata.messages.map StoredMessage.id).Nodup)
    (args : EmailQueryArgs) :
    (args.filter.hasKeyword ≠ some keywordSnoozed →
        Hides P R accountPriv accountId searched faults messages args s) ↔
      (args.filter.hasKeyword ≠ some keywordSnoozed →
        ¬ Exposes P R accountPriv accountId searched faults messages args.filter s) := by
  refine imp_congr_right fun _ => ⟨fun hhides hexposes => ?_, fun hsafe result t h => ?_⟩
  · obtain ⟨ids, t, i, hrun, hi, hsnoozed⟩ := hexposes.matched
    have hquery : emailQuery P R accountPriv accountId searched faults messages args s = (.ok _, t) :=
      bind_of_ok (mapErr_ok_iff.mpr hrun)
    obtain ⟨ids', hids', -, -, hhidden⟩ := hhides _ t hquery
    rw [hrun] at hids'
    cases hids'
    exact hhidden i hi hsnoozed
  · obtain ⟨ids, hrun, htotal, hlisted⟩ := emailQuery_ok h
    exact ⟨ids, by rw [hrun], htotal, hlisted, fun i hi => matchingIds_hide hkeys hsafe hrun hi⟩

end

def sampleReader : Reader where
  parse := fun _ => none
  sanitize := fun html _ => (html, 0)
  matchDocs := fun _ _ => .ok []

def sampleSnoozed : CallState where
  searchIndex := none
  stores :=
    { Stores.empty with
      metadata := { MetadataStore.empty with
        messages := [sampleRow 1 1 "$flagged,$snoozed", sampleRow 2 1 ""] } }

def sampleQuery (filter : EmailFilter) : Exec CallState MethodError EmailQueryResult :=
  emailQuery (Primitives.sample fun _ => none) sampleReader [] 1 1 .none (fun _ => .none)
    { filter, position := 0, limit := none }

/-- The view of unread messages leaves the snoozed one out. -/
theorem hides_iff_unread :
    let filter : EmailFilter :=
      { inMailbox := none, hasKeyword := none, notHasKeyword := some "$seen", text := none }
    Hides (Primitives.sample fun _ => none) sampleReader [] 1 1 .none (fun _ => .none)
        { filter, position := 0, limit := none } sampleSnoozed ∧
      (sampleQuery filter sampleSnoozed).1 = .ok { position := 0, ids := ["m2"], total := 1 } := by
  refine ⟨(hides_iff (by decide) _).mpr ?_ (by decide), by decide +kernel⟩
  rintro - h
  cases h with
  | search _ _ _ _ htext => cases htext
  | keyword _ _ _ hk => cases hk

/-- The view of flagged messages lists and counts the snoozed one. -/
theorem flagged_view_exposes :
    (sampleQuery { inMailbox := none, hasKeyword := some "$flagged", notHasKeyword := none
                   text := none } sampleSnoozed).1 =
        .ok { position := 0, ids := ["m1"], total := 1 } ∧
      hasKeyword (sampleRow 1 1 "$flagged,$snoozed").keywords keywordSnoozed = true := by
  decide +kernel

end Litterae.Jmap
