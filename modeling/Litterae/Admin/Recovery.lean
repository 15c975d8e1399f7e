import Litterae.Admin.Concurrent
import Mathlib.Data.List.Perm.Basic

/-! # Recovery codes

A recovery code is used up by reading the stored list and writing it back without the code. The two
calls take the lock one after the other: two requests that read the same list both find the code,
and the later write brings back whatever the earlier one took out.
-/

namespace Litterae.Admin
open Foundations List Option

def AppState.storedCodes (s : AppState) (adminId : ℤ) : List Text :=
  ((s.row adminId).bind AdminRow.totpRecoveryCodes).getD []

def Op.issues (adminId : ℤ) : Op → Option (List Text)
  | .confirmTotp id codes => if id = adminId then some codes else none
  | _ => none

def Op.consumes (adminId : ℤ) : Op → Bool
  | .setRecoveryCodes id _ => id == adminId
  | _ => false

def issued (adminId : ℤ) (log : List (Event Op.Ret)) : List Text :=
  log.foldl (fun codes e => (e.did.op.issues adminId).getD codes) []

def consumers (adminId : ℤ) (log : List (Event Op.Ret)) : List ℕ :=
  log.foldl (fun flights e =>
    if (e.did.op.issues adminId).isSome then []
    else if e.did.op.consumes adminId then flights ++ [e.flight]
    else flights) []

def codeHash (P : Primitives) (requests : List Call) (i : ℕ) : Option Text :=
  match requests[i]? with
  | some (.mfaVerify _ code) => some (hashRecoveryCode P code)
  | _ => none

/-- The codes that have been used up since the last confirmation, by their hashes. -/
def consumed (P : Primitives) (p : Server) (adminId : ℤ) : List Text :=
  (consumers adminId p.log).filterMap (codeHash P p.requests)

/-- A request that writes a code list back finds the list it has read. -/
def unraced (p : Server) : Act → Bool
  | .perform i _ =>
    match p.next i, (trace i p.log).getLast? with
    | some (.setRecoveryCodes adminId _), some ⟨.recoveryCodes _, stored⟩ =>
      p.shared.storedCodes adminId == stored
    | _, _ => true
  | _ => true

/-- What was issued has been used, is stored, or has been dropped. -/
def Accounted (P : Primitives) (p : Server) : Prop :=
  ∀ adminId, ∃ dropped, List.Perm
    (consumed P p adminId ++ p.shared.storedCodes adminId ++ dropped) (issued adminId p.log)

variable {adminId : ℤ} {i : ℕ}

section
variable {log : List (Event Op.Ret)} {e : Event Op.Ret}

theorem issued_append :
    issued adminId (log ++ [e]) = (e.did.op.issues adminId).getD (issued adminId log) := by
  simp [issued]

theorem consumers_append :
    consumers adminId (log ++ [e]) =
      if (e.did.op.issues adminId).isSome then []
      else if e.did.op.consumes adminId then consumers adminId log ++ [e.flight]
      else consumers adminId log := by
  simp [consumers]

theorem mem_consumers (h : i ∈ consumers adminId log) : ∃ e ∈ log, e.flight = i := by
  induction log using List.reverseRecOn with
  | nil => cases h
  | append_singleton _ e ih =>
    rw [consumers_append] at h
    split at h
    · cases h
    · split at h
      · rcases mem_append.mp h with h | h
        · obtain ⟨e', he', hi⟩ := ih h
          exact ⟨e', mem_append_left _ he', hi⟩
        · exact ⟨e, by simp, (mem_singleton.mp h).symm⟩
      · obtain ⟨e', he', hi⟩ := ih h
        exact ⟨e', mem_append_left _ he', hi⟩

theorem filterMap_codeHash (P : Primitives) {flights : List ℕ} {requests more : List Call}
    (h : ∀ i ∈ flights, i < requests.length) :
    flights.filterMap (codeHash P (requests ++ more)) =
      flights.filterMap (codeHash P requests) := by
  refine filterMap_congr fun i hi => ?_
  rw [codeHash, codeHash, List.getElem?_append_left (h i hi)]

end

section
variable {t : AppState} {P : Primitives} {config : Config} {p q : Server} {a : Act} {io : Io}
  {s : AppState} {op : Op}

theorem startup_storedCodes {draw : Audit.KeyDraw} {username password : Text}
    (h : startup P io draw username password s = some t) (adminId : ℤ) :
    t.storedCodes adminId = s.storedCodes adminId := by
  rcases startup_cases h with rfl | ⟨hadmins, pk, row, -, -, hcodes, rfl⟩
  · rfl
  · have hbefore : s.row adminId = none := by
      rw [AppState.row, hadmins]
      rfl
    rw [AppState.storedCodes, AppState.storedCodes, hbefore]
    cases hrow : findBy AdminRow.id adminId [row] with
    | none => simp [AppState.row, hrow]
    | some found =>
      have hfound : found = row := mem_singleton.mp (findBy_some AdminRow.id hrow).1
      simp [AppState.row, hrow, hfound, hcodes]

theorem sem_storedCodes {b : op.Ret} (h : sem P config io op s = (.ok b, t)) (adminId : ℤ) :
    match op with
    | .confirmTotp id codes =>
      t.storedCodes adminId = if id = adminId ∧ (s.row adminId).isSome then codes
        else s.storedCodes adminId
    | .setRecoveryCodes id codes =>
      t.storedCodes adminId = if id = adminId ∧ (s.row adminId).isSome then codes
        else s.storedCodes adminId
    | .setPendingTotp id _ _ =>
      t.storedCodes adminId = if id = adminId then [] else s.storedCodes adminId
    | .disableTotp id => t.storedCodes adminId = if id = adminId then [] else s.storedCodes adminId
    | _ => t.storedCodes adminId = s.storedCodes adminId := by
  cases hrow : s.row adminId with
  | none =>
    have hrow' := sem_row_none h hrow
    have hcodes : s.storedCodes adminId = [] := by rw [AppState.storedCodes, hrow]; rfl
    have hcodes' : t.storedCodes adminId = [] := by rw [AppState.storedCodes, hrow']; rfl
    cases op <;> simp [hcodes, hcodes']
  | some row =>
    obtain ⟨row', hrow', hchange⟩ := sem_row h hrow
    have hid : row.id = adminId := (findBy_some AdminRow.id hrow).2
    have hcodes : s.storedCodes adminId = row.totpRecoveryCodes.getD [] := by
      rw [AppState.storedCodes, hrow]; rfl
    have hcodes' : t.storedCodes adminId = row'.totpRecoveryCodes.getD [] := by
      rw [AppState.storedCodes, hrow']; rfl
    cases hchange with
    | other => cases op <;> simp_all [Op.edits]
    | password | unwrapped => simp [hcodes, hcodes']
    | rewrapped => simp [hcodes, hcodes', AdminRow.rewrap]
    | pending => simp [hcodes', hid, AdminRow.pend]
    | confirmed | disabled | consumed => simp [hcodes', hid]

theorem matchRecoveryCode_perm {code : Text} {stored : List Text} {idx : ℕ}
    (h : matchRecoveryCode P code stored = some idx) :
    stored ≠ [] ∧ List.Perm (hashRecoveryCode P code :: stored.eraseIdx idx) stored := by
  obtain ⟨hlt, hmatch, -⟩ := List.findIdx?_eq_some_iff_getElem.mp h
  rw [← (beq_iff_eq.mp hmatch)]
  exact ⟨fun hnil => by simp [hnil] at hlt, getElem_cons_eraseIdx_perm hlt⟩

theorem Accounted.consume (hO : Orderly P p) (hA : Accounted P p) {c : Call} {codes : List Text}
    {k : Unit → Prog Response}
    (hi : p.flights[i]? = some ⟨c, .call (.setRecoveryCodes adminId codes) k⟩)
    (hG : unraced p (.perform i io))
    (hsem : sem P config io (.setRecoveryCodes adminId codes) p.shared = (.ok (), t)) :
    ∃ dropped, List.Perm
      ((consumers adminId p.log ++ [i]).filterMap (codeHash P p.requests) ++
        t.storedCodes adminId ++ dropped) (issued adminId p.log) := by
  obtain ⟨authorization, code, stored, idx, rfl, hlast, hidx, rfl⟩ := hO.next hi
  obtain ⟨hne, hperm⟩ := matchRecoveryCode_perm hidx
  have hstored : p.shared.storedCodes adminId = stored := by
    simpa [unraced, Pool.next_of_flight hi, hlast] using hG
  have hrow : (p.shared.row adminId).isSome := by
    cases hrow : p.shared.row adminId with
    | some => rfl
    | none =>
      rw [AppState.storedCodes, hrow] at hstored
      exact absurd hstored.symm hne
  have hafter : t.storedCodes adminId = stored.eraseIdx idx := by
    simpa [hrow] using sem_storedCodes hsem adminId
  have hhash : codeHash P p.requests i = some (hashRecoveryCode P code) := by
    rw [codeHash, Pool.requests, List.getElem?_map, hi]
    rfl
  obtain ⟨dropped, hbooks⟩ := hA adminId
  refine ⟨dropped, List.Perm.trans ?_ hbooks⟩
  rw [filterMap_append, hafter, hstored, consumed]
  simp only [filterMap_cons, hhash, filterMap_nil, append_assoc,
    cons_append, nil_append]
  exact List.Perm.append_left _ (List.Perm.append_right dropped hperm)

theorem sem_storedCodes_of_other {b : op.Ret} (h : sem P config io op s = (.ok b, t))
    (hissues : op.issues adminId = none) (hconsumes : op.consumes adminId = false) :
    t.storedCodes adminId = s.storedCodes adminId ∨ t.storedCodes adminId = [] := by
  have hcodes := sem_storedCodes h adminId
  cases op with
  | confirmTotp id =>
    have hid : id ≠ adminId := by
      rintro rfl
      simp [Op.issues] at hissues
    exact .inl (by simpa [hid] using hcodes)
  | setRecoveryCodes id =>
    have hid : id ≠ adminId := by
      rintro rfl
      simp [Op.consumes] at hconsumes
    exact .inl (by simpa [hid] using hcodes)
  | setPendingTotp id wrapKey secret | disableTotp id =>
    by_cases hid : id = adminId
    · exact .inr (by simpa [hid] using hcodes)
    · exact .inl (by simpa [hid] using hcodes)
  | _ => exact .inl hcodes

theorem Accounted.answered (hO : Orderly P p) (hA : Accounted P p) {c : Call}
    {k : op.Ret → Prog Response} {b : op.Ret} (hi : p.flights[i]? = some ⟨c, .call op k⟩)
    (hG : unraced p (.perform i io)) (hsem : sem P config io op p.shared = (.ok b, t))
    (adminId : ℤ) :
    ∃ dropped, List.Perm
      ((consumers adminId (p.log ++ [⟨i, op, b⟩])).filterMap (codeHash P p.requests) ++
        t.storedCodes adminId ++ dropped) (issued adminId (p.log ++ [⟨i, op, b⟩])) := by
  rw [consumers_append, issued_append]
  cases hissues : op.issues adminId with
  | some codes =>
    obtain rfl : op = .confirmTotp adminId codes := by
      cases op with
      | confirmTotp =>
        simp only [Op.issues, ite_none_right_eq_some, some.injEq] at hissues
        rw [hissues.1, hissues.2]
      | _ => cases hissues
    have hcodes := sem_storedCodes hsem adminId
    rw [hcodes]
    by_cases hrow : (p.shared.row adminId).isSome
    · exact ⟨[], by simp [hrow]⟩
    · have hnone : p.shared.storedCodes adminId = [] := by
        simp only [Bool.not_eq_true, isSome_eq_false_iff, isNone_iff_eq_none] at hrow
        rw [AppState.storedCodes, hrow]
        rfl
      exact ⟨codes, by simp [hrow, hnone]⟩
  | none =>
    cases hconsumes : op.consumes adminId with
    | true =>
      obtain ⟨codes, rfl⟩ : ∃ codes, op = .setRecoveryCodes adminId codes := by
        cases op with
        | setRecoveryCodes _ codes => exact ⟨codes, by simpa [Op.consumes] using hconsumes⟩
        | _ => cases hconsumes
      simpa using hA.consume hO hi hG hsem
    | false =>
      obtain ⟨dropped, hbooks⟩ := hA adminId
      rcases sem_storedCodes_of_other hsem hissues hconsumes with hsame | hnil
      · exact ⟨dropped, by rw [hsame]; exact hbooks⟩
      · refine ⟨p.shared.storedCodes adminId ++ dropped, ?_⟩
        rw [hnil, append_nil, ← append_assoc]
        exact hbooks

theorem Accounted.step (hO : Orderly P p) (hA : Accounted P p) (hG : unraced p a)
    (hstep : step P config p a = some q) : Accounted P q := by
  cases a with
  | boot =>
    obtain ⟨s, hs, rfl⟩ := map_eq_some_iff.mp hstep
    intro adminId
    have hcodes : s.storedCodes adminId = p.shared.storedCodes adminId :=
      startup_storedCodes hs adminId
    have hconsumed : consumed P { p.halt with shared := s } adminId = consumed P p adminId :=
      congrArg (fun r => (consumers adminId p.log).filterMap (codeHash P r)) (Pool.requests_halt p)
    rw [hconsumed]
    exact hcodes.symm ▸ hA adminId
  | launch c =>
    cases hstep
    intro adminId
    have hconsumed : consumed P (p.launch (program P config) c) adminId = consumed P p adminId := by
      have hrequests : (p.launch (program P config) c).requests = p.requests ++ [c] := by
        simp [Pool.requests, Pool.launch]
      rw [consumed, hrequests]
      refine filterMap_codeHash P fun i hi => ?_
      obtain ⟨e, he, rfl⟩ := mem_consumers hi
      simpa [Pool.requests] using hO.counted e he
    rw [hconsumed]
    exact hA adminId
  | perform i io =>
    have hrequests : q.requests = p.requests := by
      cases hstep
      exact Pool.requests_perform p i
    intro adminId
    rw [consumed, hrequests]
    cases Pool.performed (some.inj hstep) with
    | idle => exact hA adminId
    | answered hi hsem => exact hA.answered hO hi hG hsem adminId
    | @failed c op k r t hi ht hfail =>
      have hsame := sem_failed hfail
      rw [ht] at hsame
      have hcodes : t.storedCodes adminId = p.shared.storedCodes adminId := by
        rw [AppState.storedCodes, AppState.row, hsame]
        rfl
      obtain ⟨dropped, hbooks⟩ := hA adminId
      exact ⟨dropped, by rw [hcodes]; exact hbooks⟩

/-- In every interleaving in which no write of a code list is overtaken, no code that was issued is
used up twice between two confirmations, and a code that has been used up is not stored again. A
request that succeeds without a live code has used one up. -/
theorem recoveryCodes_single_use (P : Primitives) (config : Config) (acts : List Act) (p : Server)
    (hrun : run (step P config) .fresh acts = some p)
    (hunraced : Along (step P config) (fun p a => unraced p a = true) .fresh acts) :
    (∀ adminId, (issued adminId p.log).Nodup →
      (consumed P p adminId).Nodup ∧
        ∀ code ∈ consumed P p adminId, code ∉ p.shared.storedCodes adminId) ∧
    ∀ i authorization code response,
      p.flights[i]? = some ⟨.mfaVerify authorization code, .done (.ok response)⟩ →
      (∃ secret username, ⟨i, .checkTotp secret username code, true⟩ ∈ p.log) ∨
        ∃ adminId codes, ⟨i, .setRecoveryCodes adminId codes, ()⟩ ∈ p.log := by
  have hinv : Orderly P p ∧ Accounted P p := by
    refine run_invariant (I := fun p => Orderly P p ∧ Accounted P p)
      (fun p a q hp hG hstep => ⟨hp.1.step hstep, hp.2.step hp.1 hG hstep⟩)
      ⟨orderly_fresh, fun adminId => ⟨[], ?_⟩⟩ hunraced hrun
    exact List.Perm.refl _
  refine ⟨fun adminId hnodup => ?_, fun i authorization code response hi => ?_⟩
  · obtain ⟨dropped, hbooks⟩ := hinv.2 adminId
    have hall := hbooks.nodup_iff.mpr hnodup
    have hfront := (nodup_append.mp hall).1
    obtain ⟨hused, -, hdisjoint⟩ := nodup_append.mp hfront
    exact ⟨hused, fun code hcode hstored => hdisjoint code hcode code hstored rfl⟩
  · rcases ((hinv.1.heeds i _ hi).here).2 authorization code rfl with
      ⟨secret, username, hlive⟩ | ⟨adminId, codes, hconsumed⟩
    · exact .inl ⟨secret, username, mem_trace.mp hlive⟩
    · exact .inr ⟨adminId, codes, mem_trace.mp hconsumed⟩

end

/-! ## Two requests that read the same list -/

/-- The administrator has a second factor, with the recovery codes `04` and `05`, and has logged in
twice with the password. -/
def sampleTwoLogins : List Act :=
  sampleSettled ++
    [.launch (.mfaEnroll (sampleAuthorization 1))] ++ Act.performs 2 9 (sampleIo 3) ++
    [.launch (.mfaConfirm (sampleAuthorization 1) "123456")] ++
    Act.performs 3 10 (sampleIo 5) ++
    [.launch (.login "admin" "second password")] ++ Act.performs 4 6 (sampleIo 6) ++
    [.launch (.login "admin" "second password")] ++ Act.performs 5 6 (sampleIo 7)

def sampleRace (code code' : Text) : List Act :=
  sampleTwoLogins ++
    [.launch (.mfaVerify (sampleAuthorization 6) code),
     .launch (.mfaVerify (sampleAuthorization 7) code')] ++
    Act.performs 6 8 (sampleIo 8) ++ Act.performs 7 8 (sampleIo 9) ++
    Act.performs 6 5 (sampleIo 8) ++ Act.performs 7 5 (sampleIo 9)

/-- How the two requests end, which codes they have used up, and what is stored then. -/
def sampleRecovered (acts : List Act) :
    List (Option (Res StatusCode Response)) × List Text × List Text :=
  let p := sampleServer samplePrimitives acts
  ((p.flights.drop 6).map fun f =>
      match f.program with
      | .done r => some r
      | .call _ _ => none,
    consumed samplePrimitives p 1, p.shared.storedCodes 1)

/-- One code lets two requests in; and of two codes that are used up at once, one is stored again. -/
theorem recovery_code_used_twice :
    (let hash := fun code : String => hashRecoveryCode samplePrimitives code.toList
    sampleRecovered (sampleRace "04" "04") =
        ([some (.ok (.mfaVerify false)), some (.ok (.mfaVerify false))],
          [hash "04", hash "04"], [hash "05"]) ∧
      sampleRecovered (sampleRace "04" "05") =
        ([some (.ok (.mfaVerify false)), some (.ok (.mfaVerify false))],
          [hash "04", hash "05"], [hash "04"])) := by
  constructor
  · decide +kernel
  · decide +kernel

def sampleInTurn : List Act :=
  sampleTwoLogins ++
    [.launch (.mfaVerify (sampleAuthorization 6) "04")] ++ Act.performs 6 13 (sampleIo 8) ++
    [.launch (.mfaVerify (sampleAuthorization 7) "04")] ++ Act.performs 7 13 (sampleIo 9)

theorem recoveryCodes_single_use_inTurn :
    (consumed samplePrimitives (sampleServer samplePrimitives sampleInTurn) 1).Nodup ∧
      ∀ code ∈ consumed samplePrimitives (sampleServer samplePrimitives sampleInTurn) 1,
        code ∉ (sampleServer samplePrimitives sampleInTurn).shared.storedCodes 1 :=
  (recoveryCodes_single_use samplePrimitives sampleConfig sampleInTurn _
    (sampleServer_run (by decide +kernel)) (by decide +kernel)).1 1 (by decide +kernel)

end Litterae.Admin
