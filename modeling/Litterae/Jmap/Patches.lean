import Litterae.Jmap.Destroying
import Litterae.Jmap.Keywords
import Litterae.Jmap.Query

/-! # What a patch leaves behind (`Email/set` with updates)

The keyword set of a message is one text with commas between the keywords. `read_back_iff` says which
keyword patches the next `Email/get` shows as they were made.
-/

namespace Litterae.Jmap
open Foundations Store Queue Exec Races List

/-! ## The loop over the entries -/

section
variable (faults : Faults)

def cancelAll (ids : List ℤ) (events : List ScheduledEvent) : List ScheduledEvent :=
  updateWhere (fun ev => ids.contains ev.id) (fun ev => { ev with state := .cancelled }) events

/-- The rows of which the cancelling succeeds. -/
def cancellable : ℕ → List ScheduledEvent → List ℤ
  | _, [] => []
  | k, ev :: rest =>
    if faults (.eventCancel k) = none then ev.id :: cancellable (k + 1) rest
    else cancellable (k + 1) rest

theorem cancelAll_cons (i : ℤ) (ids : List ℤ) (events : List ScheduledEvent) :
    cancelAll (i :: ids) events = cancelAll ids (updateWhere (fun ev => ev.id == i)
      (fun ev => { ev with state := .cancelled }) events) := by
  simp only [cancelAll, updateWhere, map_map]
  refine map_congr_left fun ev _ => ?_
  by_cases hi : ev.id = i
  · simp [hi]
  · simp [hi]

theorem cancelEach_run (k : ℕ) (events : List ScheduledEvent) (q : QueueStore) :
    cancelEach faults k events q =
      (.ok (), { q with events := cancelAll (cancellable faults k events) q.events }) := by
  induction events generalizing k q with
  | nil => simp [cancelEach, cancellable, cancelAll, updateWhere]
  | cons ev _ ih =>
    rw [cancelEach, cancellable]
    cases hfault : faults (.eventCancel k) with
    | some =>
      have hmark : ((markEventCancelled faults k ev.id).ignore : Exec QueueStore Error Unit) q =
          (.ok (), q) := by
        simp [ignore, markEventCancelled, sql_bind_run, hfault]
      rw [bind_of_ok hmark, ih]
      simp
    | none =>
      have hmark : ((markEventCancelled faults k ev.id).ignore : Exec QueueStore Error Unit) q =
          (.ok (), { q with
            events := updateWhere (fun e => e.id == ev.id)
              (fun e => { e with state := .cancelled }) q.events }) := by
        simp [ignore, markEventCancelled, sql_bind_run, hfault, Exec.modify]
      rw [bind_of_ok hmark, ih, if_pos rfl, cancelAll_cons]

/-- The rows that a timer entry cancels. -/
def stopped (accountId : ℤ) (kind : ScheduledKind) (id : Text) (events : List ScheduledEvent) :
    List ℤ :=
  if faults .eventsPending = none then
    cancellable faults 0 ((events.filter fun ev => ev.accountId == accountId &&
      ev.kind == some kind && ev.state == .pending).filter fun ev => ev.payload == some id)
  else []

/-- The row that it adds. -/
def started (accountId : ℤ) (kind : ScheduledKind) (id : Text) (threadId : ℤ) (value : Value)
    (events : List ScheduledEvent) : List ScheduledEvent :=
  match value.asI64 with
  | some fireAt =>
    if faults .eventInsert = none then
      [{ id := nextRowid ScheduledEvent.id events, accountId, kind := some kind, fireAt
         threadId := some (showInt threadId), payload := some id, state := .pending }]
    else []
  | none => []

theorem setTimer_run (accountId : ℤ) (kind : ScheduledKind) (id : Text) (threadId : ℤ)
    (value : Value) (q : QueueStore) :
    setTimer faults accountId kind id threadId value q =
      (.ok (), { q with
        events := cancelAll (stopped faults accountId kind id q.events) q.events ++
          started faults accountId kind id threadId value q.events }) := by
  have hcancel : cancelPendingEvents faults accountId kind id q =
      (.ok (), { q with events := cancelAll (stopped faults accountId kind id q.events) q.events }) := by
    unfold cancelPendingEvents stopped
    rw [attempt_bind_run, pendingEventsForAccount, sql_bind_run]
    cases faults .eventsPending with
    | some => simp [cancelAll, updateWhere]
    | none => exact cancelEach_run faults 0 _ q
  rw [setTimer, bind_of_ok hcancel, started]
  cases value.asI64 with
  | none => simp [whenSome, Exec.pure]
  | some =>
    simp only [whenSome, ignore, insertScheduledEvent, sql_bind_run]
    cases faults .eventInsert with
    | some => simp
    | none =>
      have hids : nextRowid ScheduledEvent.id
          (cancelAll (stopped faults accountId kind id q.events) q.events) =
            nextRowid ScheduledEvent.id q.events := by
        rw [cancelAll, nextRowid, map_updateWhere ScheduledEvent.id (by intro ev; rfl), nextRowid]
      simp [Exec.update, hids]

end

section
variable {accountId : ℤ} {id : Text} {existing : StoredMessage}

def applyAll (patch : List (Text × Value)) (p : Patching) : Patching :=
  patch.foldl (fun p entry => p.apply (patchPath entry.1) entry.2) p

/-- The events after one entry. -/
def timerAfter (faults : Faults) (accountId : ℤ) (id : Text) (threadId : ℤ) (entry : Text × Value)
    (events : List ScheduledEvent) : List ScheduledEvent :=
  match patchPath entry.1 with
  | .timer kind => cancelAll (stopped faults accountId kind id events) events ++
      started faults accountId kind id threadId entry.2 events
  | _ => events

def timersAfter (faults : ℕ → Faults) (accountId : ℤ) (id : Text) (threadId : ℤ) :
    ℕ → List (Text × Value) → List ScheduledEvent → List ScheduledEvent
  | _, [], events => events
  | k, entry :: rest, events =>
    timersAfter faults accountId id threadId (k + 1) rest
      (timerAfter (faults k) accountId id threadId entry events)

theorem patchTimer_run (faults : Faults) (entry : Text × Value) (s : Stores) :
    patchTimer accountId faults id existing (patchPath entry.1) entry.2 s =
      (.ok (), { s with queue := { s.queue with
        events := timerAfter faults accountId id existing.threadId entry s.queue.events } }) := by
  cases hpath : patchPath entry.1 with
  | timer => simp only [Jmap.patchTimer, timerAfter, hpath, ignore, onQueue_run, setTimer_run]
  | _ => simp only [Jmap.patchTimer, timerAfter, hpath]; rfl

theorem patchEntries_run (faults : ℕ → Faults) (k : ℕ) (patch : List (Text × Value)) (p : Patching)
    (s : Stores) :
    patchEntries accountId faults id existing k patch p s =
      (.ok (applyAll patch p), { s with queue := { s.queue with
        events := timersAfter faults accountId id existing.threadId k patch s.queue.events } }) := by
  induction patch generalizing k p s with
  | nil => rfl
  | cons entry _ ih =>
    obtain ⟨path, value⟩ := entry
    rw [Jmap.patchEntries, bind_of_ok (patchTimer_run (faults k) (path, value) s), ih]
    rfl

end

/-! ## An update -/

section
variable {accountId rowId : ℤ} {io : UpdateIo} {id : Text} {patch : List (Text × Value)}
  {existing : StoredMessage} {s t : Stores}

def afterEntries (accountId : ℤ) (io : UpdateIo) (id : Text) (patch : List (Text × Value))
    (existing : StoredMessage) (s : Stores) : Stores :=
  { s with
    queue := { s.queue with
      events := timersAfter io.entries accountId id existing.threadId 0 patch s.queue.events } }

theorem emailUpdate_run (hid : emailRowId id = some rowId)
    (hown : Jmap.ownMessage accountId io.faults rowId s = (.ok existing, s)) :
    emailUpdate accountId io id patch s =
      (onMetadata (updateMessage io.faults rowId
        (applyAll patch (unpatched existing.keywords)).newMailboxId
        ((applyAll patch (unpatched existing.keywords)).newKeywords.map (join ",")))).mapErr
          (fun e => .serverFail e.display) (afterEntries accountId io id patch existing s) := by
  simp only [emailUpdate, hid]
  rw [bind_of_ok hown, bind_of_ok (patchEntries_run io.entries 0 patch _ s)]
  rfl

theorem emailUpdate_keywords (h : emailUpdate accountId io id patch s = (.ok (), t)) :
    ∃ rowId existing, emailRowId id = some rowId ∧
      findBy StoredMessage.id rowId s.metadata.messages = some existing ∧
      keywordsOf rowId t.metadata = some (patchedKeywords patch existing.keywords) := by
  cases hid : emailRowId id with
  | none =>
    simp only [emailUpdate, hid] at h
    cases h
  | some rowId =>
    have hparts := h
    simp only [emailUpdate, hid] at hparts
    obtain ⟨existing, s₁, hown, -⟩ := bind_ok hparts
    obtain ⟨rfl, hfound, howner⟩ := ownMessage_ok hown
    refine ⟨rowId, existing, rfl, hfound, ?_⟩
    rw [emailUpdate_run hid hown, mapErr_ok_iff] at h
    obtain ⟨hrun, -⟩ := onMetadata_eq h
    have hold : keywordsOf rowId s₁.metadata = some existing.keywords := by rw [keywordsOf, hfound]; rfl
    change _ = some (((applyAll patch (unpatched existing.keywords)).newKeywords.map
      (join ",")).getD existing.keywords)
    generalize (applyAll patch (unpatched existing.keywords)).newMailboxId = target at hrun
    cases hnew : (applyAll patch (unpatched existing.keywords)).newKeywords with
    | none =>
      obtain ⟨res, m, hfirst, hres, hsame⟩ := updateMailbox_run io.faults rowId target s₁.metadata
      rw [hnew, updateMessage] at hrun
      rcases hres with rfl | ⟨e, rfl⟩
      · rw [show (afterEntries accountId io id patch existing s₁).metadata = s₁.metadata from rfl,
          Option.map_none, bind_of_ok hfirst] at hrun
        cases hrun
        exact (hsame rowId).trans hold
      · rw [show (afterEntries accountId io id patch existing s₁).metadata = s₁.metadata from rfl,
          bind_of_err hfirst] at hrun
        cases hrun
    | some keywords =>
      rw [hnew] at hrun
      rcases updateMessage_keywords io.faults rowId target (join "," keywords) s₁.metadata with
        ⟨m, hupdate, hset⟩ | ⟨e, m, hupdate, -⟩
      · obtain rfl : m = t.metadata := congrArg Prod.snd (hupdate.symm.trans hrun)
        rw [hset, if_pos rfl, hold]
        rfl
      · cases hupdate.symm.trans hrun

end

/-! ## Keyword patches -/

section
variable {changes : List (Text × Bool)}

def keywordPatch (changes : List (Text × Bool)) : List (Text × Value) :=
  changes.map fun c => ("keywords/" ++ c.1, .bool c.2)

theorem patchPath_keyword (k : Text) : patchPath ("keywords/" ++ k) = .keyword k := by
  simp [patchPath, afterStart]

theorem applyAll_keywordPatch (p : Patching) :
    applyAll (keywordPatch changes) p = changes.foldl (fun p c => p.setKeyword c.1 c.2) p := by
  simp only [applyAll, keywordPatch, foldl_map, patchPath_keyword, Patching.apply]
  congr 1
  funext p c
  cases c.2 <;> rfl

theorem mem_setKeywords (hd : (changes.map Prod.fst).Nodup) (p : Patching) (k : Text) :
    k ∈ (changes.foldl (fun p c => p.setKeyword c.1 c.2) p).currentKeywords ↔
      (k ∈ p.currentKeywords ∨ (k, true) ∈ changes) ∧ (k, false) ∉ changes := by
  induction changes generalizing p with
  | nil => simp
  | cons c rest ih =>
    obtain ⟨c, on⟩ := c
    obtain ⟨hfresh, hrest⟩ := nodup_cons.mp hd
    rw [foldl_cons, ih hrest]
    have hnot : ∀ b, (c, b) ∉ rest := fun b hb => hfresh (mem_map.mpr ⟨_, hb, rfl⟩)
    by_cases hk : k = c
    · subst hk
      cases on <;> simp [Patching.setKeyword, hnot]
      split <;> simp_all
    · cases on
      · simp [Patching.setKeyword, hk]
      · simp only [Patching.setKeyword, if_true, contains_iff_mem]
        split <;> simp [hk]

theorem setKeywords_new (p : Patching) (h : changes ≠ []) :
    (changes.foldl (fun p c => p.setKeyword c.1 c.2) p).newKeywords =
      some (changes.foldl (fun p c => p.setKeyword c.1 c.2) p).currentKeywords := by
  rw [← dropLast_append_getLast h, foldl_append]
  rfl

/-- A keyword that the comma-joined text can hold. -/
def Plain (k : Text) : Prop := k ≠ [] ∧ ',' ∉ k

theorem not_mem_of_mem_splitOn {a : Char} {s part : Text} (h : part ∈ s.splitOn a) : a ∉ part := by
  rw [List.splitOn] at h
  induction s generalizing part with
  | nil => simp_all
  | cons c s ih =>
    rw [splitOnP_cons_eq_if_modifyHead] at h
    split at h
    · rcases mem_cons.mp h with rfl | hrest
      · simp
      · exact ih hrest
    next hc =>
      cases hsplit : s.splitOnP (· == a) with
      | nil => simp [hsplit] at h
      | cons =>
        rw [hsplit] at h ih
        rcases mem_cons.mp h with rfl | hrest
        · have hac : a ≠ c := fun hac => hc (by simp [hac])
          simpa [hac] using ih mem_cons_self
        · exact ih (mem_cons_of_mem _ hrest)

theorem plain_of_mem_splitKeywords {keywords k : Text} (h : k ∈ splitKeywords keywords) : Plain k := by
  obtain ⟨hpart, hne⟩ := mem_filter.mp h
  exact ⟨by simpa using hne, not_mem_of_mem_splitOn hpart⟩

theorem splitKeywords_join {ks : List Text} (h : ∀ k ∈ ks, Plain k) :
    splitKeywords (join "," ks) = ks := by
  by_cases hks : ks = []
  · rw [hks]
    rfl
  · have hcomma : "," = [','] := rfl
    rw [splitKeywords, join, hcomma, splitOn_intercalate ',' (fun k hk => (h k hk).2) hks]
    exact filter_eq_self.mpr fun k hk => by simpa using (h k hk).1

/-- The keywords a message is to have after the changes. -/
def Changed (changes : List (Text × Bool)) (old : List Text) (k : Text) : Prop :=
  (k ∈ old ∨ (k, true) ∈ changes) ∧ (k, false) ∉ changes

theorem patchedKeywords_iff (hd : (changes.map Prod.fst).Nodup) (keywords : Text) :
    (∀ k, k ∈ splitKeywords (patchedKeywords (keywordPatch changes) keywords) ↔
      Changed changes (splitKeywords keywords) k) ↔ ∀ c ∈ changes, c.2 → Plain c.1 := by
  by_cases hnil : changes = []
  · subst hnil
    simp [patchedKeywords, keywordPatch, Changed, unpatched]
  have hstored : patchedKeywords (keywordPatch changes) keywords = join ","
      (changes.foldl (fun p c => p.setKeyword c.1 c.2) (unpatched keywords)).currentKeywords := by
    change ((applyAll (keywordPatch changes) (unpatched keywords)).newKeywords.map _).getD _ = _
    rw [applyAll_keywordPatch, setKeywords_new _ hnil]
    rfl
  have hmem := mem_setKeywords hd (unpatched keywords)
  rw [hstored]
  constructor
  · rintro h ⟨k, on⟩ hc (rfl : on)
    refine plain_of_mem_splitKeywords ((h k).mpr ⟨.inr hc, fun hoff => ?_⟩)
    exact Bool.false_ne_true (congrArg Prod.snd (inj_on_of_nodup_map hd hoff hc rfl))
  · intro h k
    rw [splitKeywords_join, hmem]
    · rfl
    · intro k hk
      rcases ((hmem k).mp hk).1 with hold | hnew
      · exact plain_of_mem_splitKeywords hold
      · exact h _ hnew rfl

end

/-! ## The next `Email/get` -/

section
variable {P : Primitives} {R : Reader} {accountPriv : Bytes} {accountId rowId : ℤ} {id : Text}
  {getIo : EmailGetIo} {properties : Option (List Text)} {object : EmailObject} {missing : List Text}
  {io : UpdateIo} {s t u : Stores}

theorem getEmail_keywords {rows : List StoredMessage} {faults : Faults}
    (h : getEmail P R accountPriv accountId rows properties faults id rowId t = (.ok object, u)) :
    ∃ stored, findBy StoredMessage.id rowId rows = some stored ∧
      object.keywords = splitKeywords stored.keywords := by
  unfold getEmail at h
  cases hfound : findBy StoredMessage.id rowId rows with
  | none =>
    rw [hfound] at h
    cases h
  | some stored =>
    by_cases howner : stored.accountId = accountId
    · simp only [hfound, Option.filter_some, howner, decide_true, if_true] at h
      obtain ⟨raw, t', -, hobject⟩ := bind_ok (mapErr_ok_iff.mp h)
      cases hobject
      exact ⟨stored, rfl, rfl⟩
    · simp only [hfound, Option.filter_some, howner, decide_false, Bool.false_eq_true, if_false] at h
      cases h

theorem emailGet_keywords (hid : emailRowId id = some rowId)
    (h : emailGet P R accountPriv accountId getIo ⟨[id], properties⟩ t = (.ok ⟨[object], missing⟩, u)) :
    (keywordsOf rowId t.metadata).map splitKeywords = some object.keywords := by
  unfold emailGet at h
  simp only [filterMap_cons, hid, Option.map_some, filterMap_nil, map_cons,
    map_nil] at h
  obtain ⟨rows, t₁, hrows, h⟩ := bind_ok h
  obtain ⟨outcomes, t₂, heach, h⟩ := bind_ok h
  obtain ⟨snoozes, t₃, -, h⟩ := bind_ok h
  obtain ⟨nudges, t₄, -, h⟩ := bind_ok h
  obtain ⟨outcome, t₅, hone, hrest⟩ := bind_ok heach
  obtain ⟨rest, t₆, hnil, hpure⟩ := bind_ok hrest
  cases hnil
  cases hpure
  rcases hx : getEmail P R accountPriv accountId rows properties (getIo.opens 0) id rowId t₁ with
    ⟨found | e | _, w⟩ <;> simp only [attempt, hx, Prod.mk.injEq, reduceCtorEq, false_and] at hone
  · obtain ⟨stored, hstored, hkeywords⟩ := getEmail_keywords hx
    obtain ⟨hget, -⟩ := onMetadata_eq (mapErr_ok_iff.mp hrows)
    have hobject : object.keywords = found.keywords := by
      obtain ⟨hout, -⟩ := hone
      cases hout
      cases h
      rfl
    rw [hobject, hkeywords, keywordsOf]
    have hrow : findBy StoredMessage.id rowId t.metadata.messages = some stored := by
      rw [getMessages, if_neg (by simp), sql_bind_run] at hget
      cases hfault : getIo.rows .messagesByIds with
      | some =>
        rw [hfault] at hget
        cases hget
      | none =>
        rw [hfault] at hget
        obtain rfl := Res.ok.inj (congrArg Prod.fst hget)
        rw [findBy, List.find?_filter] at hstored
        rw [findBy, ← hstored]
        congr 1
        funext r
        by_cases hr : r.id = rowId <;> simp [hr]
    rw [hrow]
    rfl
  · obtain ⟨hout, -⟩ := hone
    cases hout
    cases h

/-- A patch of keywords reads back as it was made exactly when no keyword that it sets is empty or
has a comma in it. -/
theorem read_back_iff {changes : List (Text × Bool)} (hd : (changes.map Prod.fst).Nodup)
    (hid : emailRowId id = some rowId) {old : Text} (hold : keywordsOf rowId s.metadata = some old)
    (h : emailUpdate accountId io id (keywordPatch changes) s = (.ok (), t))
    (hget : emailGet P R accountPriv accountId getIo ⟨[id], properties⟩ t =
      (.ok ⟨[object], missing⟩, u)) :
    (∀ k, k ∈ object.keywords ↔ Changed changes (splitKeywords old) k) ↔
      ∀ c ∈ changes, c.2 → Plain c.1 := by
  obtain ⟨rowId', existing, hid', hfound, hstored⟩ := emailUpdate_keywords h
  obtain rfl := Option.some.inj (hid'.symm.trans hid)
  obtain rfl : existing.keywords = old := by
    rw [keywordsOf, hfound] at hold
    exact Option.some.inj hold
  have hread := emailGet_keywords hid hget
  rw [hstored] at hread
  rw [← Option.some.inj hread]
  exact patchedKeywords_iff hd _

end

def sampleDrafted : Stores :=
  (createDraft (Primitives.sample (sampleParse "hi")) sampleComposer sampleComposeDraw
    sampleContext 1 (sampleRequest "hi") Stores.empty).2

def sampleUpdate (changes : List (Text × Bool)) : Res SetError Unit × Stores :=
  emailUpdate 1 ⟨.none, fun _ => .none⟩ "m1" (keywordPatch changes) sampleDrafted

def sampleGet (changes : List (Text × Bool)) : Res MethodError EmailGetResult × Stores :=
  emailGet (Primitives.sample (sampleParse "hi")) sampleReader [1] 1
    ⟨.none, fun _ => .none, .none, .none⟩ ⟨["m1"], none⟩ (sampleUpdate changes).2

/-- The draft as `Email/get` shows it, with other keywords. -/
def sampleObject (keywords : String) : EmailObject :=
  { emailObject sampleReader none
      ((row 1 sampleDrafted).getD (sampleRow 1 1 "")) none with
    keywords := splitKeywords keywords.toList }

theorem read_back_iff_seen :
    let changes := [("$seen".toList, true), ("$draft".toList, false)]
    (sampleGet changes).1 = .ok ⟨[sampleObject "$seen"], []⟩ ∧
      ∀ k, k ∈ (sampleObject "$seen").keywords ↔ Changed changes ["$draft".toList] k := by
  intro changes
  have hget : (sampleGet changes).1 = .ok ⟨[sampleObject "$seen"], []⟩ := by decide +kernel
  have hupdate : (sampleUpdate changes).1 = .ok () := by decide +kernel
  have hold : keywordsOf 1 sampleDrafted.metadata = some "$draft".toList := by decide +kernel
  refine ⟨hget, (read_back_iff (by decide) (by decide) hold (Prod.ext hupdate rfl)
    (Prod.ext hget rfl)).mpr ?_⟩
  simp [changes, Plain]

/-- A keyword with a comma in it reads back as two. -/
theorem comma_splits_keyword :
    (sampleUpdate [("a,b", true)]).1 = .ok () ∧
      (sampleGet [("a,b", true)]).1 = .ok ⟨[sampleObject "$draft,a,b"], []⟩ ∧
      (sampleObject "$draft,a,b").keywords = ["$draft".toList, "a", "b"] := by
  decide +kernel

end Litterae.Jmap
