import Litterae.Admin.Gate
import Litterae.Admin.Programs
import Litterae.Foundations.Run

/-! # Requests in flight together

The server with any number of requests in flight. A step starts the process, takes a request in, or
lets a request in flight do its next call; a call may fail, and a process that starts has lost what
was in flight and every session.
-/

namespace Litterae.Admin
open Foundations Exec Crypto List Option

abbrev Server := Pool AppState Call Op Op.Ret StatusCode Response

inductive Act where
  | boot (io : Io) (draw : Audit.KeyDraw) (username password : Text)
  | launch (c : Call)
  | perform (i : ℕ) (io : Io)

def AppState.restarted (s : AppState) : AppState :=
  { s with sessions := AppState.fresh.sessions, loginThrottle := AppState.fresh.loginThrottle }

def Server.fresh : Server := { shared := .fresh, flights := [], log := [] }

/-- A process that exits at once does not come up, so the step is not there. -/
def step (P : Primitives) (config : Config) (p : Server) : Act → Option Server
  | .boot io draw username password =>
    (startup P io draw username password p.shared.restarted).map fun s =>
      { p.halt with shared := s }
  | .launch c => some (p.launch (program P config) c)
  | .perform i io => some (p.perform (sem P config io) i)

/-! ## What has gone before a call -/

abbrev History := List (Done Op.Ret)

/-- What has gone before the next call of a request, and before the success of a password change or
of the second factor. -/
def Heeds (P : Primitives) (c : Call) (tr : History) : Prog Response → Prop
  | .call (.disableTotp adminId) _ =>
    ∃ authorization password username found, c = .mfaDisable authorization password ∧
      ⟨.usernameForId adminId, some username⟩ ∈ tr ∧
      ⟨.verifyLogin username password, some found⟩ ∈ tr
  | .call (.setRecoveryCodes adminId codes) _ =>
    ∃ authorization code stored idx, c = .mfaVerify authorization code ∧
      tr.getLast? = some ⟨.recoveryCodes adminId, stored⟩ ∧
      matchRecoveryCode P code stored = some idx ∧ codes = stored.eraseIdx idx
  | .call (.verifyLogin _ _) _ =>
    ∀ adminId wrapKey mustChangePassword mfaPending token,
      ⟨.createSession adminId wrapKey mustChangePassword mfaPending, token⟩ ∉ tr
  | .call (.changePassword adminId newPassword) k =>
    (∃ token username password admin oldWrapKey,
      tr.getLast? = some ⟨.verifyLogin username password, some (admin, oldWrapKey)⟩ ∧
      .call _ k = Programs.rekey token adminId username oldWrapKey newPassword) ∧
    ∀ token adminId newWrapKey answer,
      ⟨.completePasswordChange token adminId newWrapKey, answer⟩ ∉ tr
  | .call (.rewrapAuditKey _ newWrapKey) _ =>
    ∃ adminId newPassword, tr.getLast? = some ⟨.changePassword adminId newPassword, newWrapKey⟩
  | .call (.rewrapTotpSecret _ oldWrapKey newWrapKey) _ =>
    tr.getLast? = some ⟨.rewrapAuditKey oldWrapKey newWrapKey, ()⟩
  | .done (.ok _) =>
    (∀ authorization currentPassword newPassword,
      c = .changePassword authorization currentPassword newPassword →
      ∃ token adminId newWrapKey, bearerToken authorization = some token ∧
        ⟨.completePasswordChange token adminId newWrapKey, true⟩ ∈ tr) ∧
    ∀ authorization code, c = .mfaVerify authorization code →
      (∃ secret username, ⟨.checkTotp secret username code, true⟩ ∈ tr) ∨
        ∃ adminId codes, ⟨.setRecoveryCodes adminId codes, ()⟩ ∈ tr
  | _ => True

abbrev Plain {α : Type} (p : Prog α) : Prop := p.Only fun op => op.plain = true

namespace Heeds
variable {P : Primitives} {c : Call} {authorization : Option Text} {tr : History} {code : Text}

theorem plain {op : Op} {k : op.Ret → Prog Response} (h : op.plain := by rfl) :
    Heeds P c tr (.call op k) := by
  cases op <;> trivial

theorem failed {r : Res StatusCode Response} (h : r.isOk = false := by rfl) :
    Heeds P c tr (.done r) := by
  cases r with
  | ok => cases h
  | err | panic => trivial

theorem rest (hc : ∀ a p q, c ≠ .changePassword a p q) (hc' : ∀ a d, c ≠ .mfaVerify a d)
    {p : Prog Response} (hp : Plain p) : p.Always (Heeds P c) tr := by
  refine Program.Always.of_only (fun _ _ _ h => plain h) hp fun ds r => ?_
  cases r with
  | ok => exact ⟨fun a p q h => absurd h (hc a p q), fun a d h => absurd h (hc' a d)⟩
  | err | panic => trivial

theorem login (username password : Text) :
    (Programs.login username password).Always (Heeds P (.login username password)) [] := by
  have hrest : ∀ {tr : History} {p : Prog Response}, Plain p →
      p.Always (Heeds P (.login username password)) tr :=
    rest (c := .login username password) nofun nofun
  refine .perform plain fun locked => .throwIf failed fun _ => ?_
  refine .perform plain fun _ => .perform (by simp [Heeds]) fun outcome => ?_
  cases outcome with
  | none => exact hrest (.bind (.perform rfl) fun _ => .bind (.perform rfl) fun _ => trivial)
  | some =>
    refine .perform plain fun _ => .perform trivial fun token => ?_
    exact hrest (.bind (.perform rfl) fun _ => trivial)

theorem keepSession {currentPassword newPassword token : Text}
    (hbearer : bearerToken authorization = some token) (tr : History) (adminId : ℤ)
    (username : Text) (newWrapKey : Block 32) :
    (Programs.keepSession token adminId username newWrapKey).Always
      (Heeds P (.changePassword authorization currentPassword newPassword)) tr := by
  refine .perform trivial fun completed => .throwIf failed fun hcompleted => ?_
  refine .perform plain fun _ => ?_
  obtain rfl : completed = true := by simpa using hcompleted
  refine ⟨?_, nofun⟩
  rintro a p q ⟨⟩
  exact ⟨token, adminId, newWrapKey, hbearer, by simp⟩

theorem changePassword (authorization : Option Text) (currentPassword newPassword : Text) :
    (Programs.changePassword authorization currentPassword newPassword).Always
      (Heeds P (.changePassword authorization currentPassword newPassword)) [] := by
  refine .throwIf failed fun _ => .ofOption failed fun token hbearer => ?_
  refine .perform plain fun session => .ofOption failed fun adminId _ => ?_
  refine .perform plain fun session => .throwIf failed fun _ => ?_
  refine .perform plain fun found => .ofOption failed fun username _ => ?_
  refine .perform plain fun _ => .perform (by simp [Heeds]) fun verified => ?_
  refine .ofOption failed fun found hfound => .perform ?_ fun newWrapKey => ?_
  · obtain ⟨admin, oldWrapKey⟩ := found
    refine ⟨⟨token, username, currentPassword, admin, oldWrapKey, ?_, rfl⟩, by simp⟩
    simp [hfound]
  · refine .perform ⟨adminId, newPassword, by simp⟩ fun _ => .perform ?_ fun _ => ?_
    · simp [Heeds]
    · exact keepSession hbearer _ adminId username newWrapKey

section
variable {token : Text} (htoken : bearerToken authorization = some token) (adminId : ℤ)
include htoken

theorem settleFactor (username : Text) (factor : Option Handlers.Factor)
    (hproved : factor.isSome →
      (∃ secret username, ⟨.checkTotp secret username code, true⟩ ∈ tr) ∨
        ∃ adminId codes, ⟨.setRecoveryCodes adminId codes, ()⟩ ∈ tr) :
    (Programs.settleFactor token adminId username factor).Always
      (Heeds P (.mfaVerify authorization code)) tr := by
  cases factor with
  | none =>
    exact .perform plain fun _ => .perform plain fun _ => failed
  | some factor =>
    refine .of_only (fun _ _ _ h => plain h) (settleFactor_modest htoken).plain fun ds r => ?_
    cases r with
    | err | panic => trivial
    | ok =>
      refine ⟨nofun, ?_⟩
      rintro a d ⟨⟩
      rcases hproved rfl with ⟨secret, name, hlive⟩ | ⟨id, codes, hconsumed⟩
      · exact .inl ⟨secret, name, mem_append_left _ hlive⟩
      · exact .inr ⟨id, codes, mem_append_left _ hconsumed⟩

theorem consumeCode (username : Text) :
    (Programs.consumeCode P token adminId username code).Always
      (Heeds P (.mfaVerify authorization code)) tr := by
  refine .perform plain fun codes => ?_
  split
  · exact settleFactor htoken _ _ _ nofun
  · next idx hidx =>
    refine .perform ⟨authorization, code, codes, idx, rfl, List.getLast?_concat, hidx, rfl⟩
      fun _ => settleFactor htoken _ _ _ fun _ => .inr ⟨adminId, codes.eraseIdx idx, ?_⟩
    exact mem_append_right _ (mem_singleton.mpr rfl)

theorem proveFactor (wrapKey : Block 32) (username : Text) :
    (Programs.proveFactor P token adminId wrapKey username code).Always
      (Heeds P (.mfaVerify authorization code)) tr := by
  refine .perform plain fun secret => ?_
  cases secret with
  | none => exact consumeCode htoken adminId username
  | some secret =>
    refine .perform plain fun live => ?_
    cases live with
    | false => exact consumeCode htoken adminId username
    | true =>
      have hlive : (⟨.checkTotp secret username code, true⟩ : Done Op.Ret) ∈
          tr ++ [⟨.totpSecret adminId wrapKey, some secret⟩] ++
            [⟨.checkTotp secret username code, true⟩] :=
        mem_append_right _ (mem_singleton.mpr rfl)
      exact settleFactor htoken adminId username (some .totp) fun _ => .inl ⟨secret, username, hlive⟩

end

theorem mfaVerify (authorization : Option Text) (code : Text) :
    (Programs.mfaVerify P authorization code).Always (Heeds P (.mfaVerify authorization code)) [] := by
  refine .ofOption failed fun token htoken => .perform plain fun session => ?_
  refine .ofOption failed fun adminId _ => .perform plain fun session => ?_
  refine .throwIf failed fun _ => .perform plain fun session => ?_
  refine .ofOption failed fun wrapKey _ => .perform plain fun found => ?_
  refine .ofOption failed fun username _ => .perform plain fun locked => ?_
  exact .throwIf failed fun _ => proveFactor htoken adminId wrapKey username

theorem mfaDisable (authorization : Option Text) (password : Text) :
    (Programs.mfaDisable authorization password).Always
      (Heeds P (.mfaDisable authorization password)) [] := by
  refine .bind_only (fun _ _ _ h => plain h) requireAdmin_modest.plain
    (fun _ _ h => failed h) fun ds adminId hds => ?_
  refine .perform plain fun found => .ofOption failed fun username hname => ?_
  refine .perform plain fun _ => .perform ?_ fun verified => ?_
  · intro _ _ _ _ token hmem
    have hin : (⟨.createSession _ _ _ _, token⟩ : Done Op.Ret) ∈ ds := by simpa using hmem
    cases hds _ hin
  · refine .throwIf failed fun hverified => .perform ?_ fun _ => ?_
    · obtain ⟨admin, hadmin⟩ := isSome_iff_exists.mp (by simpa using hverified)
      exact ⟨authorization, password, username, admin, rfl, by simp [hname], by simp [hadmin]⟩
    · exact rest (c := .mfaDisable authorization password) nofun nofun
        (.bind (.perform rfl) fun _ => trivial)

theorem program (config : Config) (c : Call) :
    (Admin.program P config c).Always (Heeds P c) [] := by
  cases c with
  | login username password => exact login username password
  | logout authorization => exact rest (c := .logout authorization) nofun nofun logout_modest.plain
  | changePassword authorization currentPassword newPassword =>
    exact changePassword authorization currentPassword newPassword
  | mfaVerify authorization code => exact mfaVerify authorization code
  | mfaEnroll authorization =>
    exact rest (c := .mfaEnroll authorization) nofun nofun mfaEnroll_modest.plain
  | mfaConfirm authorization code =>
    exact rest (c := .mfaConfirm authorization code) nofun nofun
      mfaConfirm_modest.plain
  | mfaDisable authorization password => exact mfaDisable authorization password

end Heeds

/-! ## Runs -/

section
variable {P : Primitives} {config : Config} {io : Io} {p q : Server} {a : Act} {acts : List Act}

/-- What is known of the requests in flight, wherever a run has got. -/
structure Orderly (P : Primitives) (p : Server) : Prop where
  heeds : p.Lawful (Heeds P)
  counted : Pool.Lawful.Counted p

theorem Orderly.step (h : Orderly P p) (hstep : step P config p a = some q) : Orderly P q := by
  cases a with
  | boot =>
    obtain ⟨s, -, rfl⟩ := map_eq_some_iff.mp hstep
    exact ⟨h.heeds.halt fun _ _ _ h => Heeds.failed h, h.counted.halt⟩
  | launch c =>
    cases hstep
    exact ⟨h.heeds.launch (Heeds.program config) h.counted c, h.counted.launch c⟩
  | perform i =>
    cases hstep
    exact ⟨h.heeds.perform (fun _ _ _ h => Heeds.failed h) i, h.counted.perform i⟩

theorem orderly_fresh : Orderly P .fresh :=
  ⟨fun i f hi => by simp [Server.fresh] at hi, fun _ he => nomatch he⟩

theorem orderly_run (hrun : run (step P config) .fresh acts = some p) : Orderly P p :=
  run_invariant (fun _ _ _ hs _ hstep => hs.step hstep) orderly_fresh
    (Along.of_forall (fun _ _ => trivial) _ _) hrun

theorem Orderly.next (h : Orderly P p) {i : ℕ} {c : Call} {op : Op} {k : op.Ret → Prog Response}
    (hi : p.flights[i]? = some ⟨c, .call op k⟩) : Heeds P c (trace i p.log) (.call op k) :=
  (h.heeds i _ hi).here

end

/-! ## What a call does to the administrators' rows -/

def AdminStore.edit (a : AdminStore) (adminId : ℤ) (f : AdminRow → AdminRow) : AdminStore :=
  { a with admins := updateWhere (fun r => r.id == adminId) f a.admins }

def Op.edits : Op → Option ℤ
  | .changePassword adminId _ | .rewrapTotpSecret adminId _ _ | .setPendingTotp adminId _ _
  | .confirmTotp adminId _ | .disableTotp adminId | .setRecoveryCodes adminId _ => some adminId
  | _ => none

section
variable (P : Primitives) (faults : Faults)

theorem updateAdmin_run (site : Site) (adminId : ℤ) (f : AdminRow → AdminRow) (a : AdminStore) :
    AdminStore.updateAdmin faults site adminId f a =
      match faults site with
      | some detail => (.err (.storage detail), a)
      | none => (.ok (), a.edit adminId f) := by
  rw [AdminStore.updateAdmin, sql_bind_run]
  cases faults site <;> rfl

theorem selectAdmin_run (site : Site) (adminId : ℤ) (a : AdminStore) :
    AdminStore.selectAdmin faults site adminId a =
      match faults site, findBy AdminRow.id adminId a.admins with
      | some detail, _ => (.err (.storage detail), a)
      | none, some row => (.ok row, a)
      | none, none => (.err noRows, a) := by
  rw [AdminStore.selectAdmin, sql_bind_run]
  cases faults site with
  | some => rfl
  | none =>
    rw [get_bind_run]
    cases findBy AdminRow.id adminId a.admins <;> rfl

theorem changePassword_cases (salt : Block 16) (adminId : ℤ) (newPassword : Bytes)
    (a : AdminStore) :
    (∃ e, AdminStore.changePassword P faults salt adminId newPassword a = (.err e, a)) ∨
      ∃ pk, faults .adminPassword = none ∧ derivePk P newPassword salt = .ok pk ∧
        AdminStore.changePassword P faults salt adminId newPassword a =
          (.ok pk, a.edit adminId fun r =>
            { r with salt := salt.val, derivedKey := pk.val, mustChangePassword := false }) := by
  rw [AdminStore.changePassword, ofExcept_bind_run]
  cases derivePk P newPassword salt with
  | error => exact .inl ⟨_, rfl⟩
  | ok pk =>
    simp only [Except.mapError]
    rw [bind_run, updateAdmin_run]
    cases hfault : faults .adminPassword with
    | some => exact .inl ⟨_, rfl⟩
    | none => exact .inr ⟨pk, rfl, rfl, rfl⟩

def AdminRow.rewrap (P : Primitives) (newWrapKey : Block 32) (nonce : Block 24) (keyId : ℤ)
    (secret : Bytes) (r : AdminRow) : AdminRow :=
  { r with
    totpWrappedSecret := some (committingSeal P newWrapKey
      (UInt16.ofNat ((keyId + 1) % 2 ^ 16).toNat) nonce secret)
    totpKeyId := some (keyId + 1) }

def AdminRow.pend (P : Primitives) (wrapKey : Block 32) (nonce : Block 24) (secret : Bytes)
    (r : AdminRow) : AdminRow :=
  { r with
    totpWrappedSecret := some (committingSeal P wrapKey 1 nonce secret)
    totpKeyId := some 1
    totpEnabled := false
    totpRecoveryCodes := none }

theorem rewrapTotpSecret_cases (nonce : Block 24) (adminId : ℤ) (oldWrapKey newWrapKey : Block 32)
    (a : AdminStore) :
    (∃ e, AdminStore.rewrapTotpSecret P faults nonce adminId oldWrapKey newWrapKey a = (.err e, a)) ∨
      ∃ row, findBy AdminRow.id adminId a.admins = some row ∧
        (((row.totpWrappedSecret = none ∨ row.totpKeyId = none) ∧
          AdminStore.rewrapTotpSecret P faults nonce adminId oldWrapKey newWrapKey a =
            (.ok (), a)) ∨
        ∃ wrapped keyId secret, row.totpWrappedSecret = some wrapped ∧
          row.totpKeyId = some keyId ∧ committingOpen P oldWrapKey wrapped = .ok secret ∧
          AdminStore.rewrapTotpSecret P faults nonce adminId oldWrapKey newWrapKey a =
            (.ok (), a.edit adminId (AdminRow.rewrap P newWrapKey nonce keyId secret))) := by
  rw [AdminStore.rewrapTotpSecret, bind_run, selectAdmin_run]
  cases faults .totpRewrapSelect with
  | some => exact .inl ⟨_, rfl⟩
  | none =>
    cases hrow : findBy AdminRow.id adminId a.admins with
    | none => exact .inl ⟨_, rfl⟩
    | some row =>
      simp only
      cases hwrapped : row.totpWrappedSecret with
      | none => exact .inr ⟨row, rfl, .inl ⟨.inl hwrapped, rfl⟩⟩
      | some wrapped =>
        cases hkeyId : row.totpKeyId with
        | none => exact .inr ⟨row, rfl, .inl ⟨.inr hkeyId, rfl⟩⟩
        | some keyId =>
          simp only
          rw [ofExcept_bind_run]
          cases hopen : committingOpen P oldWrapKey wrapped with
          | error => exact .inl ⟨_, rfl⟩
          | ok secret =>
            simp only [Except.mapError]
            rw [updateAdmin_run]
            cases faults .totpRewrapUpdate with
            | some => exact .inl ⟨_, rfl⟩
            | none => exact .inr ⟨row, rfl, .inr ⟨wrapped, keyId, secret, hwrapped, hkeyId, hopen, rfl⟩⟩

end

section
variable {P : Primitives} {config : Config} {io : Io} {s t : AppState} {op : Op} {b : op.Ret}
  {f : AdminRow → AdminRow}

theorem onAdmin_state {α : Type} (x : Exec AdminStore Error α) :
    (orInternal (onAdmin x) s).2 = { s with adminStore := (x s.adminStore).2 } :=
  state_mapErr _ _ _

theorem onAdmin_ok {α : Type} {x : Exec AdminStore Error α} {b : α}
    (h : orInternal (onAdmin x) s = (.ok b, t)) :
    x s.adminStore = (.ok b, t.adminStore) ∧ t = { s with adminStore := t.adminStore } := by
  have hrun := mapErr_ok_iff.mp h
  obtain rfl : { s with adminStore := (x s.adminStore).2 } = t := congrArg Prod.snd hrun
  have hfst : (x s.adminStore).1 = .ok b := congrArg Prod.fst hrun
  exact ⟨Prod.ext hfst rfl, rfl⟩

theorem setPendingTotp_isOk (P : Primitives) (config : Config) (io : Io) (adminId : ℤ)
    (wrapKey : Block 32) (secret : Bytes) (s : AppState) :
    (sem P config io (.setPendingTotp adminId wrapKey secret) s).1.isOk ↔
      io.faults .totpPending = none := by
  have hrun := updateAdmin_run io.faults .totpPending adminId
    (AdminRow.pend P wrapKey (io.nonce 0) secret) s.adminStore
  have hsem : sem P config io (.setPendingTotp adminId wrapKey secret) s =
      orInternal (onAdmin (AdminStore.updateAdmin io.faults .totpPending adminId
        (AdminRow.pend P wrapKey (io.nonce 0) secret))) s := rfl
  rw [hsem, orInternal, orStatus, isOk_mapErr, onAdmin, zoom, hrun]
  cases io.faults .totpPending <;> simp [Res.isOk]

theorem acquirePermit_state : (sem P config io .acquirePermit s).2 = s := by
  change (throwIf (!io.permit) StatusCode.serviceUnavailable s).2 = s
  cases io.permit <;> rfl

theorem rewrapAuditKey_state {old new : Block 32} :
    ∃ a, (sem P config io (.rewrapAuditKey old new) s).2 = { s with auditStore := a } :=
  ⟨_, state_mapErr _ _ _⟩

theorem audit_state {action : String} {detail : Text} :
    (sem P config io (.audit action detail) s).2 = { s with auditStore := (Audit.log P io.faults (io.now 1)
      (io.now 2) io.hpkeRandom action.toList detail s.auditStore).2 } :=
  state_ignore _ _

theorem sem_of_not_edits (h : op.edits = none) :
    (sem P config io op s).2.adminStore = s.adminStore := by
  have hread : ∀ {α : Type} (x : Exec AdminStore Error α), Keeps (Same id) x →
      (orInternal (onAdmin x) s).2.adminStore = s.adminStore := fun x hx => by
    rw [onAdmin_state]
    exact hx s.adminStore
  cases op with
  | verifyLogin => exact hread _ (verifyLogin_same _ _)
  | usernameForId => exact hread _ query_same
  | isTotpEnabled adminId | recoveryCodes adminId =>
    exact hread _ (.bind selectAdmin_same fun _ => .pure)
  | totpSecret => exact hread _ (totpSecret_same _ _)
  | acquirePermit => rw [acquirePermit_state]
  | rewrapAuditKey => rw [rewrapAuditKey_state.choose_spec]
  | audit => rw [audit_state]
  | changePassword | rewrapTotpSecret | setPendingTotp | confirmTotp | disableTotp
  | setRecoveryCodes => cases h
  | _ => rfl

inductive RowChange (P : Primitives) : Op → AdminRow → AdminRow → Prop
  | other {op : Op} {r : AdminRow} : op.edits ≠ some r.id → RowChange P op r r
  | password {r : AdminRow} {newPassword : Text} {salt : Block 16} {pk : Block 32} :
      RowChange P (.changePassword r.id newPassword) r
        { r with salt := salt.val, derivedKey := pk.val, mustChangePassword := false }
  | unwrapped {r : AdminRow} {oldWrapKey newWrapKey : Block 32} :
      r.totpWrappedSecret = none ∨ r.totpKeyId = none →
      RowChange P (.rewrapTotpSecret r.id oldWrapKey newWrapKey) r r
  | rewrapped {r : AdminRow} {oldWrapKey newWrapKey : Block 32} {wrapped secret : Bytes} {keyId : ℤ}
      {nonce : Block 24} : r.totpWrappedSecret = some wrapped →
      committingOpen P oldWrapKey wrapped = .ok secret →
      RowChange P (.rewrapTotpSecret r.id oldWrapKey newWrapKey) r
        (r.rewrap P newWrapKey nonce keyId secret)
  | pending {r : AdminRow} {wrapKey : Block 32} {secret : Bytes} {nonce : Block 24} :
      RowChange P (.setPendingTotp r.id wrapKey secret) r (r.pend P wrapKey nonce secret)
  | confirmed {r : AdminRow} {codes : List Text} :
      RowChange P (.confirmTotp r.id codes) r
        { r with totpEnabled := true, totpRecoveryCodes := some codes }
  | disabled {r : AdminRow} :
      RowChange P (.disableTotp r.id) r
        { r with
          totpWrappedSecret := none
          totpKeyId := none
          totpEnabled := false
          totpRecoveryCodes := none }
  | consumed {r : AdminRow} {codes : List Text} :
      RowChange P (.setRecoveryCodes r.id codes) r { r with totpRecoveryCodes := some codes }

abbrev AppState.row (s : AppState) (adminId : ℤ) : Option AdminRow :=
  findBy AdminRow.id adminId s.adminStore.admins

def RowsChange (P : Primitives) (op : Op) (s t : AppState) : Prop :=
  ∃ f : AdminRow → AdminRow, (∀ r, (f r).id = r.id) ∧
    t.adminStore.admins = s.adminStore.admins.map f ∧
    ∀ k row, s.row k = some row → RowChange P op row (f row)

theorem RowsChange.of_same (ht : t.adminStore = s.adminStore)
    (hchange : ∀ k row, s.row k = some row → RowChange P op row row) : RowsChange P op s t :=
  ⟨id, fun _ => rfl, by rw [ht, List.map_id], hchange⟩

theorem RowsChange.of_edit {adminId : ℤ} (hop : op.edits = some adminId)
    (ht : t.adminStore = s.adminStore.edit adminId f)
    (hchange : ∀ k row, s.row k = some row → row.id = adminId → RowChange P op row (f row))
    (hf : ∀ r, (f r).id = r.id := by exact fun _ => rfl) :
    RowsChange P op s t := by
  refine ⟨fun r => if r.id == adminId then f r else r, fun r => ?_, by rw [ht]; rfl,
    fun k row hrow => ?_⟩
  · by_cases hid : r.id = adminId <;> simp [hid, hf]
  · beta_reduce
    by_cases hid : row.id = adminId
    · rw [if_pos (by simpa using hid)]
      exact hchange k row hrow hid
    · rw [if_neg (by simpa using hid)]
      refine .other fun h => hid ?_
      rw [hop, some.injEq] at h
      exact h.symm

theorem sem_rows (h : sem P config io op s = (.ok b, t)) : RowsChange P op s t := by
  have hupdate : ∀ {site : Site} {adminId : ℤ} {f : AdminRow → AdminRow} {u : Unit},
      AdminStore.updateAdmin io.faults site adminId f s.adminStore = (.ok u, t.adminStore) →
      t.adminStore = s.adminStore.edit adminId f := by
    intro site adminId f u hrun
    rw [updateAdmin_run] at hrun
    cases hfault : io.faults site with
    | some => rw [hfault] at hrun; cases hrun
    | none => rw [hfault] at hrun; exact (congrArg Prod.snd hrun).symm
  cases hop : op.edits with
  | none =>
    have hstore : (sem P config io op s).2.adminStore = s.adminStore := sem_of_not_edits hop
    rw [h] at hstore
    exact .of_same hstore fun k row _ => .other (by rw [hop]; exact nofun)
  | some =>
    cases op with
    | changePassword id newPassword =>
      obtain ⟨hrun, -⟩ := onAdmin_ok h
      rcases changePassword_cases P io.faults io.salt id (utf8 newPassword)
        s.adminStore with ⟨e, he⟩ | ⟨pk, -, -, hok⟩
      · rw [he] at hrun; cases hrun
      · rw [hok] at hrun
        exact .of_edit rfl (congrArg Prod.snd hrun).symm fun _ _ _ hid => hid ▸ .password
    | rewrapTotpSecret id oldWrapKey newWrapKey =>
      obtain ⟨hrun, -⟩ := onAdmin_ok h
      have hown : ∀ {k : ℤ} {row found : AdminRow}, s.row k = some row → row.id = id →
          findBy AdminRow.id id s.adminStore.admins = some found → found = row := by
        intro k row found hrow hid hfound
        rw [← hid, (findBy_some AdminRow.id hrow).2] at hfound
        exact some.inj (hfound.symm.trans hrow)
      rcases rewrapTotpSecret_cases P io.faults (io.nonce 1) id oldWrapKey
        newWrapKey s.adminStore with ⟨e, he⟩ | ⟨found, hfound, ⟨hnone, hok⟩ |
          ⟨wrapped, keyId, secret, hwrapped, -, hopen, hok⟩⟩
      · rw [he] at hrun; cases hrun
      · rw [hok] at hrun
        refine .of_same (congrArg Prod.snd hrun).symm fun k row hrow => ?_
        by_cases hid : row.id = id
        · rw [hown hrow hid hfound] at hnone
          exact hid ▸ .unwrapped hnone
        · exact .other fun h => hid (some.inj h).symm
      · rw [hok] at hrun
        refine .of_edit rfl (congrArg Prod.snd hrun).symm fun k row hrow hid => ?_
        rw [hown hrow hid hfound] at hwrapped
        exact hid ▸ .rewrapped hwrapped hopen
    | setPendingTotp =>
      exact .of_edit rfl (hupdate (onAdmin_ok h).1) fun _ _ _ hid => hid ▸ .pending
    | confirmTotp =>
      exact .of_edit rfl (hupdate (onAdmin_ok h).1) fun _ _ _ hid => hid ▸ .confirmed
    | disableTotp =>
      exact .of_edit rfl (hupdate (onAdmin_ok h).1) fun _ _ _ hid => hid ▸ .disabled
    | setRecoveryCodes =>
      exact .of_edit rfl (hupdate (onAdmin_ok h).1) fun _ _ _ hid => hid ▸ .consumed
    | _ => cases hop

theorem row_map {a : AdminStore} (hf : ∀ r, (f r).id = r.id) (k : ℤ) :
    findBy AdminRow.id k (a.admins.map f) = (findBy AdminRow.id k a.admins).map f := by
  have hall := findBy_updateWhere (p := fun _ => true) AdminRow.id hf k a.admins
  simpa [updateWhere] using hall

theorem sem_row (h : sem P config io op s = (.ok b, t)) {k : ℤ} {row : AdminRow}
    (hrow : s.row k = some row) : ∃ row', t.row k = some row' ∧ RowChange P op row row' := by
  obtain ⟨f, hf, ht, hchange⟩ := sem_rows h
  refine ⟨f row, ?_, hchange k row hrow⟩
  rw [AppState.row, ht, row_map hf]
  exact congrArg (Option.map f) hrow

theorem sem_row_none (h : sem P config io op s = (.ok b, t)) {k : ℤ} (hrow : s.row k = none) :
    t.row k = none := by
  obtain ⟨f, hf, ht, -⟩ := sem_rows h
  rw [AppState.row, ht, row_map hf]
  exact congrArg (Option.map f) hrow

theorem sem_failed (h : (sem P config io op s).1.isOk = false) :
    (sem P config io op s).2.adminStore = s.adminStore := by
  have hadmin : ∀ {α : Type} {x : Exec AdminStore Error α},
      (orInternal (onAdmin x) s).1.isOk = false →
      ((x s.adminStore).1.isOk = false → (x s.adminStore).2 = s.adminStore) →
      (orInternal (onAdmin x) s).2.adminStore = s.adminStore := by
    intro α x hfail hx
    rw [onAdmin_state]
    refine hx ?_
    rw [orInternal, orStatus, isOk_mapErr] at hfail
    exact hfail
  have hupdate : ∀ (site : Site) (adminId : ℤ) (f : AdminRow → AdminRow),
      (AdminStore.updateAdmin io.faults site adminId f s.adminStore).1.isOk = false →
      (AdminStore.updateAdmin io.faults site adminId f s.adminStore).2 = s.adminStore := by
    intro site adminId f hfail
    rw [updateAdmin_run] at hfail ⊢
    cases hfault : io.faults site with
    | some => rfl
    | none => rw [hfault] at hfail; cases hfail
  cases op with
  | changePassword id newPassword =>
    refine hadmin h fun hfail => ?_
    rcases changePassword_cases P io.faults io.salt id (utf8 newPassword)
      s.adminStore with ⟨e, he⟩ | ⟨pk, -, -, hok⟩
    · rw [he]
    · rw [hok] at hfail; cases hfail
  | rewrapTotpSecret id oldWrapKey newWrapKey =>
    refine hadmin h fun hfail => ?_
    rcases rewrapTotpSecret_cases P io.faults (io.nonce 1) id oldWrapKey
      newWrapKey s.adminStore with ⟨e, he⟩ | ⟨_, _, ⟨_, hok⟩ | ⟨_, _, _, _, _, _, hok⟩⟩
    · rw [he]
    · rw [hok] at hfail; cases hfail
    · rw [hok] at hfail; cases hfail
  | setPendingTotp | confirmTotp | disableTotp | setRecoveryCodes => exact hadmin h (hupdate _ _ _)
  | _ => exact sem_of_not_edits rfl

end

section
variable {P : Primitives} {config : Config} {p q : Server} {a : Act} {draw : Audit.KeyDraw}
  {username password : Text}

theorem startup_of_admin {io : Io} {s : AppState} (h : s.adminStore.admins ≠ []) :
    startup P io draw username password s = some s := by
  have hlen : 0 < s.adminStore.admins.length := length_pos_iff.mpr h
  rw [startup, AdminStore.hasAdmin, sql_bind_run]
  cases io.faults .adminCount with
  | some => rfl
  | none => rw [get_bind_run, pure_run, decide_eq_true hlen]

theorem startup_cases {io : Io} {s t : AppState}
    (h : startup P io draw username password s = some t) :
    t = s ∨ s.adminStore.admins = [] ∧ ∃ (pk : Block 32) (row : AdminRow),
      row.derivedKey = pk.val ∧ row.totpWrappedSecret = none ∧ row.totpRecoveryCodes = none ∧
      t = { s with
        adminStore := { s.adminStore with admins := [row] }
        auditStore := (Audit.bootstrapKeys P io.faults draw pk s.auditStore).2 } := by
  by_cases hadmins : s.adminStore.admins = []
  · have hcount : AdminStore.hasAdmin io.faults s.adminStore =
        match io.faults .adminCount with
        | some detail => (.err (.storage detail), s.adminStore)
        | none => (.ok false, s.adminStore) := by
      rw [AdminStore.hasAdmin, sql_bind_run]
      cases io.faults .adminCount with
      | some => rfl
      | none => simp [get_bind_run, hadmins]
    rw [startup, hcount] at h
    cases hfault : io.faults .adminCount with
    | some =>
      rw [hfault] at h
      exact .inl (some.inj h).symm
    | none =>
      rw [hfault] at h hcount
      simp only at h
      split at h
      · cases h
      · rw [AdminStore.bootstrap, bind_of_ok hcount] at h
        simp only [Bool.false_eq_true, if_false] at h
        rw [ofExcept_bind_run] at h
        cases hkey : derivePk P (utf8 password) io.salt with
        | error =>
          rw [hkey] at h
          exact .inl (some.inj h).symm
        | ok pk =>
          rw [hkey] at h
          simp only [Except.mapError] at h
          rw [bind_run, AdminStore.insertAdmin, sql_bind_run] at h
          cases hinsert : io.faults .adminInsert with
          | some =>
            rw [hinsert] at h
            exact .inl (some.inj h).symm
          | none =>
            rw [hinsert] at h
            simp only [get_bind_run, hadmins, map_nil, contains_nil,
              Bool.false_eq_true, if_false, modify_run, nil_append, pure_run,
              some.injEq] at h
            exact .inr ⟨hadmins, pk, _, rfl, rfl, rfl, h.symm⟩
  · rw [startup_of_admin hadmins, some.injEq] at h
    exact .inl h.symm

theorem step_row (hstep : step P config p a = some q) {adminId : ℤ} {row : AdminRow}
    (hrow : p.shared.row adminId = some row) :
    ∃ row', q.shared.row adminId = some row' ∧
      (row' = row ∨ ∃ i io c op k b, a = .perform i io ∧
        p.flights[i]? = some ⟨c, .call op k⟩ ∧
        sem P config io op p.shared = (.ok b, q.shared) ∧ RowChange P op row row') := by
  cases a with
  | boot =>
    obtain ⟨s, hs, rfl⟩ := map_eq_some_iff.mp hstep
    have hadmins : p.shared.restarted.adminStore.admins ≠ [] := by
      intro hnil
      have hmem := (findBy_some AdminRow.id hrow).1
      rw [show p.shared.adminStore.admins = [] from hnil] at hmem
      cases hmem
    rw [startup_of_admin hadmins, some.injEq] at hs
    subst hs
    exact ⟨row, hrow, .inl rfl⟩
  | launch =>
    cases hstep
    exact ⟨row, hrow, .inl rfl⟩
  | perform i io =>
    cases Pool.performed (some.inj hstep) with
    | idle => exact ⟨row, hrow, .inl rfl⟩
    | @answered c op k b t hi hsem =>
      obtain ⟨row', hrow', hchange⟩ := sem_row hsem hrow
      exact ⟨row', hrow', .inr ⟨i, io, c, op, k, b, rfl, hi, hsem, hchange⟩⟩
    | @failed c op k r t hi ht hfail =>
      refine ⟨row, ?_, .inl rfl⟩
      have hsame := sem_failed hfail
      rw [ht] at hsame
      exact (congrArg (fun a => findBy AdminRow.id adminId a.admins) hsame).trans hrow

end

/-! ## Runs of a first administrator -/

def Act.performs (i n : ℕ) (io : Io) : List Act := List.replicate n (.perform i io)

def sampleBoot : Act := .boot (sampleIo 0) sampleKeys "admin" "first password"

def sampleSettled : List Act :=
  [sampleBoot, .launch (.login "admin" "first password")] ++
    Act.performs 0 6 (sampleIo 1) ++
    [.launch (.changePassword (sampleAuthorization 1) "first password"
      "second password")] ++
    Act.performs 1 10 (sampleIo 2)

def sampleServer (P : Primitives) (acts : List Act) : Server :=
  (run (step P sampleConfig) .fresh acts).getD .fresh

theorem sampleServer_run {P : Primitives} {acts : List Act}
    (h : (run (step P sampleConfig) .fresh acts).isSome) :
    run (step P sampleConfig) .fresh acts = some (sampleServer P acts) := by
  rw [sampleServer]
  cases hrun : run (step P sampleConfig) .fresh acts with
  | none => rw [hrun] at h; cases h
  | some => rfl

end Litterae.Admin
