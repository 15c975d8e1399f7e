import Litterae.Admin.Concurrent

/-! # What opens under an administrator's password

The audit key and the second factor are sealed under the key derived from the administrator's
password. The password, the audit key and the second factor are written by three calls of two
stores, and the first start writes the administrator before the audit keys.
-/

namespace Litterae.Admin
open Foundations Exec Crypto List Option Pool

def opensUnder (P : Primitives) (key : Block 32) (wrapped : Bytes) : Bool :=
  match committingOpen P key wrapped with
  | .ok _ => true
  | .error _ => false

def AppState.auditOpens (P : Primitives) (s : AppState) (key : Block 32) : Bool :=
  s.auditStore.keys.any fun keys => opensUnder P key keys.wrappedAuditPriv

def AdminRow.factorOpens (P : Primitives) (row : AdminRow) (key : Block 32) : Bool :=
  row.totpWrappedSecret.all (opensUnder P key)

/-- For every administrator, what is sealed opens under the key of the password. -/
def AppState.keysOpen (P : Primitives) (s : AppState) : Bool :=
  s.adminStore.admins.all fun row =>
    (Block.ofBytes 32 row.derivedKey).any fun key => s.auditOpens P key && row.factorOpens P key

def rewraps : Prog Response → Option (Block 32)
  | .call (.rewrapAuditKey oldWrapKey _) _ => some oldWrapKey
  | .call (.rewrapTotpSecret _ oldWrapKey _) _ => some oldWrapKey
  | _ => none

def underway (p : Server) : Option (Block 32) := p.flights.findSome? fun f => rewraps f.program

def provedKey (i : ℕ) (log : List (Event Op.Ret)) : Option Bytes :=
  (trace i log).getLast?.bind fun d =>
    match d with
    | ⟨.verifyLogin _ _, some (_, wrapKey)⟩ => some wrapKey.val
    | _ => none

/-- Nothing comes between the parts of what belongs together: the first start writes the keys, a
password is written by a request that has proved the one it replaces while no other change is under
way, the calls that seal again do not fail, the process does not stop before them, and an enrolment
seals under the key that the stored secret is to have. -/
def careful (p : Server) : Act → Bool
  | .boot io _ _ _ =>
    (underway p).isNone && (!p.shared.adminStore.admins.isEmpty ||
      ((io.faults .auditKeyCount).isNone && (io.faults .auditKeyInsert).isNone))
  | .launch _ => true
  | .perform i io =>
    match p.next i with
    | some (.changePassword adminId _) =>
      (underway p).isNone &&
        (p.shared.row adminId).any fun row => provedKey i p.log == some row.derivedKey
    | some (.rewrapAuditKey _ _) =>
      (io.faults .auditRewrapSelect).isNone && (io.faults .auditRewrapUpdate).isNone
    | some (.rewrapTotpSecret _ _ _) =>
      (io.faults .totpRewrapSelect).isNone && (io.faults .totpRewrapUpdate).isNone
    | some (.setPendingTotp adminId wrapKey _) =>
      (p.shared.row adminId).all fun row =>
        ((underway p).map Subtype.val).getD row.derivedKey == wrapKey.val
    | _ => true

variable {P : Primitives}

section
variable {key : Block 32} {wrapped : Bytes}

theorem opensUnder_iff : opensUnder P key wrapped ↔
    ∃ plain, committingOpen P key wrapped = .ok plain := by
  unfold opensUnder
  cases committingOpen P key wrapped <;> simp

theorem opensUnder_seal (hcipher : P.Deciphers) (keyId : UInt16) (nonce : Block 24)
    (plain : Bytes) :
    opensUnder P key (committingSeal P key keyId nonce plain) :=
  opensUnder_iff.mpr ⟨plain, committingOpen_committingSeal hcipher key keyId nonce plain⟩

end

/-! ## What the calls do to the sealed blobs -/

variable {draw : Audit.KeyDraw} {row : AdminRow} {adminId : ℤ}

section
variable {faults : Faults} {nonce : Block 24}

theorem rewrapAuditKey_run {oldWrapKey newWrapKey : Block 32} {a : Audit.AuditStore}
    {keys : Audit.AuditKeys} {priv : Bytes} (hselect : faults .auditRewrapSelect = none)
    (hupdate : faults .auditRewrapUpdate = none) (hkeys : a.keys = some keys)
    (hopen : committingOpen P oldWrapKey keys.wrappedAuditPriv = .ok priv) :
    Audit.rewrapAuditKey P faults nonce oldWrapKey newWrapKey a =
      (.ok (),
        { a with
          keys := some
            { keys with
              wrappedAuditPriv :=
                committingSeal P newWrapKey (keys.keyId + 1) nonce priv
              keyId := keys.keyId + 1 } }) := by
  rw [Audit.rewrapAuditKey, sql_bind_run, hselect]
  simp only [get_bind_run, ofOption_bind_run, ofExcept_bind_run, hkeys, hopen,
    Except.mapError, sql_bind_run, hupdate, modify_run]

theorem bootstrapKeys_run {wrapKey : Block 32} {a : Audit.AuditStore}
    (hcount : faults .auditKeyCount = none) (hinsert : faults .auditKeyInsert = none)
    (hkeys : a.keys = none) :
    ∃ keys keyId, (Audit.bootstrapKeys P faults draw wrapKey a).2.keys = some keys ∧
      keys.wrappedAuditPriv =
        committingSeal P wrapKey keyId draw.nonce draw.auditPriv.val := by
  have hhas : Audit.hasKeys faults a = (.ok false, a) := by
    rw [Audit.hasKeys, sql_bind_run, hcount]
    simp [get_bind_run, hkeys]
  rw [Audit.bootstrapKeys, bind_of_ok hhas]
  simp only [Bool.false_eq_true, if_false, sql_bind_run, hinsert, modify_run]
  exact ⟨_, 1, rfl, rfl⟩

theorem rewrapTotpSecret_isOk {oldWrapKey newWrapKey : Block 32} {a : AdminStore}
    (hselect : faults .totpRewrapSelect = none) (hupdate : faults .totpRewrapUpdate = none)
    (hrow : findBy AdminRow.id adminId a.admins = some row)
    (hopens : row.factorOpens P oldWrapKey) :
    (AdminStore.rewrapTotpSecret P faults nonce adminId oldWrapKey newWrapKey a).1.isOk := by
  rw [AdminStore.rewrapTotpSecret, bind_run, selectAdmin_run, hselect, hrow]
  simp only
  cases hwrapped : row.totpWrappedSecret with
  | none => rfl
  | some =>
    cases row.totpKeyId with
    | none => rfl
    | some =>
      rw [AdminRow.factorOpens, hwrapped] at hopens
      obtain ⟨secret, hopen⟩ := opensUnder_iff.mp hopens
      simp only [ofExcept_bind_run, hopen, Except.mapError, updateAdmin_run, hupdate]
      rfl

end

variable {t s : AppState} {op : Op} {config : Config} {io : Io}

theorem sem_auditKeys (hop : ∀ oldWrapKey newWrapKey, op ≠ .rewrapAuditKey oldWrapKey newWrapKey) :
    (sem P config io op s).2.auditStore.keys = s.auditStore.keys := by
  have hadmin : ∀ {α : Type} (x : Exec AdminStore Error α),
      (orInternal (onAdmin x) s).2.auditStore.keys = s.auditStore.keys := fun x => by
    rw [onAdmin_state]
  cases op with
  | rewrapAuditKey => exact absurd rfl (hop _ _)
  | audit =>
    rw [audit_state]
    exact Audit.log_keys _ _ _ _ _ s.auditStore
  | acquirePermit => rw [acquirePermit_state]
  | verifyLogin | usernameForId | changePassword | rewrapTotpSecret | isTotpEnabled
  | setPendingTotp | totpSecret | confirmTotp | disableTotp | recoveryCodes | setRecoveryCodes =>
    exact hadmin _
  | _ => rfl

/-! ## Who is rewrapping -/

def OnlyRewraps (p : Server) (o : Option ℕ) : Prop :=
  ∀ j f, p.flights[j]? = some f → o ≠ some j → rewraps f.program = none

def Op.reseals : Op → Bool
  | .changePassword _ _ | .rewrapAuditKey _ _ | .rewrapTotpSecret _ _ _ => true
  | _ => false

variable {o : Option ℕ} {old : Block 32}

section
variable {f : Flight Call Op Op.Ret StatusCode Response} {p q : Server} {i : ℕ}

theorem Orderly.rewraps_eq_none (hO : Orderly P p) (hi : p.flights[i]? = some f)
    (hlast : ∀ d ∈ (trace i p.log).getLast?, d.op.reseals = false) :
    rewraps f.program = none := by
  obtain ⟨c, program⟩ := f
  cases program with
  | done => rfl
  | call op =>
    have hheeds := hO.next hi
    cases op with
    | rewrapAuditKey =>
      obtain ⟨adminId, newPassword, htrace⟩ := hheeds
      cases hlast _ htrace
    | rewrapTotpSecret => cases hlast _ hheeds
    | _ => rfl

theorem underway_eq_none_iff : underway p = none ↔ OnlyRewraps p none := by
  rw [underway, List.findSome?_eq_none_iff]
  constructor
  · intro h j f hj _
    exact h f (mem_of_getElem? hj)
  · intro h f hf
    obtain ⟨j, hj⟩ := mem_iff_getElem?.mp hf
    exact h j f hj nofun

theorem underway_eq_some (h : OnlyRewraps p (some i)) (hi : p.flights[i]? = some f)
    (hf : rewraps f.program = some old) :
    underway p = some old := by
  cases hunder : underway p with
  | none =>
    rw [underway, List.findSome?_eq_none_iff] at hunder
    rw [hunder f (mem_of_getElem? hi)] at hf
    cases hf
  | some =>
    obtain ⟨g, hg, hfound⟩ := exists_of_findSome?_eq_some hunder
    obtain ⟨j, hj⟩ := mem_iff_getElem?.mp hg
    by_cases hij : i = j
    · subst hij
      obtain rfl : f = g := some.inj (hi.symm.trans hj)
      rw [← hfound, hf]
    · rw [h j g hj (by simpa using hij)] at hfound
      cases hfound

theorem OnlyRewraps.mono (h : OnlyRewraps p none) (o : Option ℕ) : OnlyRewraps p o :=
  fun j f hj _ => h j f hj nofun

theorem OnlyRewraps.set (h : OnlyRewraps p o) (hq : q.flights = p.flights.set i f)
    (hf : o ≠ some i → rewraps f.program = none) : OnlyRewraps q o := by
  intro j g hj hne
  rw [hq] at hj
  rcases Pool.getElem?_set_cases hj with ⟨rfl, rfl⟩ | ⟨-, hj⟩
  · exact hf hne
  · exact h j g hj hne

theorem OnlyRewraps.finish (h : OnlyRewraps p (some i)) (hq : q.flights = p.flights.set i f)
    (hf : rewraps f.program = none) : OnlyRewraps q none := by
  intro j g hj _
  rw [hq] at hj
  rcases Pool.getElem?_set_cases hj with ⟨rfl, rfl⟩ | ⟨hij, hj⟩
  · exact hf
  · exact h j g hj (by simpa using hij)

end

/-! ## The invariant -/

/-- There is one administrator, with the password of `key`; the audit key is sealed under `auditKey`
and the second factor under `factorKey`. -/
structure Sealed (P : Primitives) (s : AppState) (row : AdminRow) (auditKey factorKey key : Block 32) :
    Prop where
  admins : s.adminStore.admins = [row]
  derived : row.derivedKey = key.val
  audit : s.auditOpens P auditKey = true
  factor : row.factorOpens P factorKey = true
  numbered : row.totpWrappedSecret.isSome = true → row.totpKeyId.isSome = true

/-- Nothing is there yet, or no password change is under way, or one has come to one of its two calls
that seal again. -/
inductive Custody (P : Primitives) (p : Server) : Prop
  | bare : p.shared.adminStore.admins = [] → p.shared.auditStore.keys = none →
      OnlyRewraps p none → Custody P p
  | settled {row : AdminRow} {key : Block 32} : Sealed P p.shared row key key key →
      OnlyRewraps p none → Custody P p
  | written {i : ℕ} {c : Call} {token username : Text} {row : AdminRow} {old new : Block 32} :
      p.flights[i]? = some ⟨c, .call (.rewrapAuditKey old new) fun _ =>
        .call (.rewrapTotpSecret row.id old new) fun _ =>
          Programs.keepSession token row.id username new⟩ →
      OnlyRewraps p (some i) → Sealed P p.shared row old old new → Custody P p
  | rewrapped {i : ℕ} {c : Call} {token username : Text} {row : AdminRow} {old new : Block 32} :
      p.flights[i]? = some ⟨c, .call (.rewrapTotpSecret row.id old new) fun _ =>
        Programs.keepSession token row.id username new⟩ →
      OnlyRewraps p (some i) → Sealed P p.shared row new old new → Custody P p

variable {newPassword : Text} {new : Block 32} {b : op.Ret}

section
variable {auditKey factorKey key : Block 32}

theorem Sealed.row_eq (h : Sealed P s row auditKey factorKey key) : s.row row.id = some row := by
  rw [AppState.row, h.admins]
  simp [findBy]

theorem Sealed.keysOpen (h : Sealed P s row key key key) : s.keysOpen P := by
  simp [AppState.keysOpen, h.admins, h.derived, h.audit, h.factor]

theorem Sealed.of_row (h : Sealed P s row auditKey factorKey key) {row' : AdminRow} {k k' : Block 32}
    (hadmins : t.adminStore.admins = [row']) (hkeys : t.auditStore.keys = s.auditStore.keys)
    (hderived : row'.derivedKey = k'.val) (hfactor : row'.factorOpens P k)
    (hnumbered : row'.totpWrappedSecret.isSome → row'.totpKeyId.isSome) :
    Sealed P t row' auditKey k k' :=
  ⟨hadmins, hderived, by rw [AppState.auditOpens, hkeys]; exact h.audit, hfactor, hnumbered⟩

theorem Sealed.change (h : Sealed P s row auditKey factorKey key)
    (hsem : sem P config io op s = (.ok b, t)) :
    ∃ row', t.adminStore.admins = [row'] ∧ row'.id = row.id ∧ RowChange P op row row' := by
  obtain ⟨f, hf, ht, hchange⟩ := sem_rows hsem
  refine ⟨f row, ?_, hf row, hchange _ row h.row_eq⟩
  rw [ht, h.admins]
  rfl

/-- A call that does not belong to a password change leaves what is sealed as it is, if an enrolment
seals under the right key. -/
theorem Sealed.other (hcipher : P.Deciphers) (h : Sealed P s row auditKey factorKey key)
    (hsem : sem P config io op s = (.ok b, t)) (hop : op.reseals = false)
    (henrol : ∀ wrapKey secret, op = .setPendingTotp row.id wrapKey secret → wrapKey = factorKey) :
    ∃ row', row'.id = row.id ∧ Sealed P t row' auditKey factorKey key := by
  obtain ⟨row', hadmins, hid, hchange⟩ := h.change hsem
  have hkeys : t.auditStore.keys = s.auditStore.keys := by
    have hsame : (sem P config io op s).2.auditStore.keys = s.auditStore.keys := by
      refine sem_auditKeys fun old new heq => ?_
      subst heq
      cases hop
    rw [hsem] at hsame
    exact hsame
  refine ⟨row', hid, ?_⟩
  cases hchange with
  | other | confirmed | consumed => exact h.of_row hadmins hkeys h.derived h.factor h.numbered
  | password | unwrapped | rewrapped => cases hop
  | @pending _ wrapKey secret nonce =>
    obtain rfl := henrol wrapKey secret rfl
    exact h.of_row hadmins hkeys h.derived (opensUnder_seal hcipher 1 nonce secret) fun _ => rfl
  | disabled => exact h.of_row hadmins hkeys h.derived rfl nofun

theorem Sealed.changePassword (h : Sealed P s row key key key)
    (hsem : sem P config io (.changePassword row.id newPassword) s = (.ok new, t)) :
    ∃ row', row'.id = row.id ∧ Sealed P t row' key key new := by
  have hkeys : (sem P config io (.changePassword row.id newPassword) s).2.auditStore.keys =
      s.auditStore.keys := sem_auditKeys fun _ _ h => Op.noConfusion h
  rw [hsem] at hkeys
  obtain ⟨hrun, -⟩ := onAdmin_ok hsem
  rcases changePassword_cases P io.faults io.salt row.id (utf8 newPassword) s.adminStore with
    ⟨e, he⟩ | ⟨pk, -, -, hok⟩
  · rw [he] at hrun
    cases hrun
  · rw [hok, Prod.mk.injEq, Res.ok.injEq] at hrun
    obtain ⟨rfl, hstore⟩ := hrun
    refine ⟨{ row with salt := io.salt.val, derivedKey := pk.val, mustChangePassword := false },
      rfl, h.of_row ?_ hkeys rfl h.factor h.numbered⟩
    rw [← hstore, AdminStore.edit, h.admins]
    simp [updateWhere]

theorem Sealed.rewrapAuditKey (hcipher : P.Deciphers) (h : Sealed P s row old factorKey key)
    (hselect : io.faults .auditRewrapSelect = none)
    (hupdate : io.faults .auditRewrapUpdate = none) :
    ∃ t, sem P config io (.rewrapAuditKey old new) s = (.ok (), t) ∧
      Sealed P t row new factorKey key := by
  have haudit := h.audit
  cases hkeys : s.auditStore.keys with
  | none =>
    rw [AppState.auditOpens, hkeys] at haudit
    cases haudit
  | some keys =>
    rw [AppState.auditOpens, hkeys] at haudit
    obtain ⟨priv, hopen⟩ := opensUnder_iff.mp haudit
    have hrun := @rewrapAuditKey_run P io.faults (io.nonce 0) old new s.auditStore keys priv hselect
      hupdate hkeys hopen
    have hsem : onAudit (Audit.rewrapAuditKey P io.faults (io.nonce 0) old new) s =
        (.ok (),
          { s with
            auditStore :=
              (Audit.rewrapAuditKey P io.faults (io.nonce 0) old new s.auditStore).2 }) := by
      rw [onAudit, zoom, hrun]
    rw [hrun] at hsem
    exact ⟨_, mapErr_ok_iff.mpr hsem, h.admins, h.derived, opensUnder_seal hcipher _ _ _,
      h.factor, h.numbered⟩

theorem Sealed.rewrapTotpSecret (hcipher : P.Deciphers) (h : Sealed P s row auditKey old key)
    (hselect : io.faults .totpRewrapSelect = none) (hupdate : io.faults .totpRewrapUpdate = none) :
    ∃ t row', sem P config io (.rewrapTotpSecret row.id old new) s = (.ok (), t) ∧
      Sealed P t row' auditKey new key := by
  have hok : (sem P config io (.rewrapTotpSecret row.id old new) s).1.isOk := by
    have hisOk := @rewrapTotpSecret_isOk P row row.id io.faults (io.nonce 1) old new s.adminStore
      hselect hupdate h.row_eq h.factor
    have hsem : sem P config io (.rewrapTotpSecret row.id old new) s =
        orInternal (onAdmin (AdminStore.rewrapTotpSecret P io.faults (io.nonce 1) row.id old new)) s :=
      rfl
    rw [hsem, orInternal, orStatus, isOk_mapErr]
    exact hisOk
  have hkeys : (sem P config io (.rewrapTotpSecret row.id old new) s).2.auditStore.keys =
      s.auditStore.keys := sem_auditKeys fun _ _ h => Op.noConfusion h
  cases hsem : sem P config io (.rewrapTotpSecret row.id old new) s with
  | mk r t =>
    rw [hsem] at hok hkeys
    cases r with
    | err | panic => cases hok
    | ok =>
      obtain ⟨row', hadmins, hid, hchange⟩ := h.change hsem
      refine ⟨t, row', rfl, ?_⟩
      generalize hop : Op.rewrapTotpSecret row.id old new = op at hchange
      cases hchange with
      | other hne => exact absurd (congrArg Op.edits hop).symm hne
      | unwrapped hnone =>
        have hunsealed : row.totpWrappedSecret = none := by
          rcases hnone with hnone | hnone
          · exact hnone
          · have hnumbered := h.numbered
            rw [hnone] at hnumbered
            cases hwrapped : row.totpWrappedSecret with
            | none => rfl
            | some => cases hnumbered (by rw [hwrapped]; rfl)
        exact h.of_row hadmins hkeys h.derived (by rw [AdminRow.factorOpens, hunsealed]; rfl)
          h.numbered
      | rewrapped =>
        cases hop
        exact h.of_row hadmins hkeys h.derived (opensUnder_seal hcipher _ _ _) fun _ => rfl
      | password | pending | confirmed | disabled | consumed => cases hop

end

/-! ## Every interleaving -/

section
variable {p q : Server} {a : Act}

theorem onlyRewraps_halt (p : Server) : OnlyRewraps { p.halt with shared := s } none := by
  intro j f hj _
  rw [Pool.halt, List.getElem?_map, map_eq_some_iff] at hj
  obtain ⟨⟨c, program⟩, -, rfl⟩ := hj
  cases program <;> rfl

theorem Custody.boot (hcipher : P.Deciphers) (h : Custody P p) {username password : Text}
    (hG : careful p (.boot io draw username password))
    (hs : startup P io draw username password p.shared.restarted = some s) :
    Custody P { p.halt with shared := s } := by
  rw [careful, Bool.and_eq_true, isNone_iff_eq_none] at hG
  cases h with
  | written hi honly | rewrapped hi honly =>
    rw [underway_eq_some honly hi rfl] at hG
    cases hG.1
  | settled hsealed =>
    have hadmins : p.shared.restarted.adminStore.admins ≠ [] := by
      rw [show p.shared.restarted.adminStore.admins = _ from hsealed.admins]
      exact cons_ne_nil _ _
    rw [startup_of_admin hadmins, some.injEq] at hs
    subst hs
    exact .settled ⟨hsealed.admins, hsealed.derived, hsealed.audit, hsealed.factor,
      hsealed.numbered⟩ (onlyRewraps_halt p)
  | bare hadmins hkeys =>
    rcases startup_cases hs with rfl | ⟨-, pk, row, hderived, hwrapped, -, rfl⟩
    · exact .bare hadmins hkeys (onlyRewraps_halt p)
    · have hfaults : io.faults .auditKeyCount = none ∧ io.faults .auditKeyInsert = none := by
        simpa [hadmins] using hG.2
      obtain ⟨keys, keyId, hfirst, hpriv⟩ :=
        @bootstrapKeys_run P draw io.faults pk p.shared.auditStore hfaults.1 hfaults.2 hkeys
      have haudit : AppState.auditOpens P
          { p.shared.restarted with
            adminStore := { p.shared.restarted.adminStore with admins := [row] }
            auditStore :=
              (Audit.bootstrapKeys P io.faults draw pk p.shared.restarted.auditStore).2 } pk =
          true := by
        show ((Audit.bootstrapKeys P io.faults draw pk p.shared.auditStore).2.keys.any _)
        rw [hfirst, any_some, hpriv]
        exact opensUnder_seal hcipher keyId draw.nonce _
      refine .settled ⟨rfl, hderived, haudit, ?_, ?_⟩ (onlyRewraps_halt p)
      · rw [AdminRow.factorOpens, hwrapped]
        rfl
      · rw [hwrapped]
        exact nofun

theorem OnlyRewraps.launch (hO : Orderly P p) (h : OnlyRewraps p o) (c : Call) :
    OnlyRewraps (p.launch (program P config) c) o := by
  intro j f hj hne
  by_cases hlt : j < p.flights.length
  · refine h j f ?_ hne
    rwa [Pool.launch, List.getElem?_append_left hlt] at hj
  · have hO' : Orderly P (p.launch (program P config) c) :=
      @Orderly.step P config p _ (.launch c) hO rfl
    refine hO'.rewraps_eq_none hj fun d hd => ?_
    have hmem : (⟨j, d⟩ : Event Op.Ret) ∈ p.log := mem_trace.mp (mem_of_mem_getLast? hd)
    exact absurd (hO.counted _ hmem) hlt

theorem Custody.launch (hO : Orderly P p) (h : Custody P p) (c : Call) :
    Custody P (p.launch (program P config) c) := by
  have hkept : ∀ {i : ℕ} {f : Flight Call Op Op.Ret StatusCode Response},
      p.flights[i]? = some f → (p.launch (program P config) c).flights[i]? = some f := by
    intro i f hi
    rw [Pool.launch, List.getElem?_append_left (List.getElem?_eq_some_iff.mp hi).1]
    exact hi
  cases h with
  | bare hadmins hkeys honly => exact .bare hadmins hkeys (honly.launch hO c)
  | settled hsealed honly => exact .settled hsealed (honly.launch hO c)
  | written hi honly hsealed => exact .written (hkept hi) (honly.launch hO c) hsealed
  | rewrapped hi honly hsealed => exact .rewrapped (hkept hi) (honly.launch hO c) hsealed

def factorKeyOf (p : Server) (key : Block 32) : Bytes := ((underway p).map Subtype.val).getD key.val

variable {j : ℕ} {c : Call} {k : op.Ret → Prog Response}

theorem Custody.keep (h : Custody P p) {program : Prog Response}
    (hj : p.flights[j]? = some ⟨c, .call op k⟩) (hop : rewraps (.call op k) = none)
    (hq : q.flights = p.flights.set j ⟨c, program⟩) (hprogram : rewraps program = none)
    (hbare : p.shared.adminStore.admins = [] → q.shared.adminStore.admins = [])
    (hkeys : q.shared.auditStore.keys = p.shared.auditStore.keys)
    (hsealed : ∀ row auditKey factorKey key, factorKeyOf p key = factorKey.val →
      Sealed P p.shared row auditKey factorKey key →
      ∃ row', row'.id = row.id ∧ Sealed P q.shared row' auditKey factorKey key) :
    Custody P q := by
  have hkept : ∀ {i : ℕ} {f : Flight Call Op Op.Ret StatusCode Response} {old : Block 32},
      p.flights[i]? = some f → rewraps f.program = some old → q.flights[i]? = some f := by
    intro i f old hi hold
    have hij : j ≠ i := by
      rintro rfl
      rw [hj, some.injEq] at hi
      rw [← hi, hop] at hold
      cases hold
    rw [hq, List.getElem?_set_ne hij]
    exact hi
  cases h with
  | bare hadmins hnone honly =>
    exact .bare (hbare hadmins) (hkeys.trans hnone) (honly.set hq fun _ => hprogram)
  | @settled row key hs honly =>
    have hnone : underway p = none := underway_eq_none_iff.mpr honly
    obtain ⟨row', -, hs'⟩ := hsealed row key key key (by rw [factorKeyOf, hnone]; rfl) hs
    exact .settled hs' (honly.set hq fun _ => hprogram)
  | @written i c' token username row old new hi honly hs =>
    have hold : underway p = some old := underway_eq_some honly hi rfl
    obtain ⟨row', hid, hs'⟩ := hsealed row old old new (by rw [factorKeyOf, hold]; rfl) hs
    rw [← hid] at hi
    exact .written (hkept hi rfl) (honly.set hq fun _ => hprogram) hs'
  | @rewrapped i c' token username row old new hi honly hs =>
    have hold : underway p = some old := underway_eq_some honly hi rfl
    obtain ⟨row', hid, hs'⟩ := hsealed row new old new (by rw [factorKeyOf, hold]; rfl) hs
    rw [← hid] at hi
    exact .rewrapped (hkept hi rfl) (honly.set hq fun _ => hprogram) hs'

theorem Custody.changePassword (hO : Orderly P p) (h : Custody P p) {k : Block 32 → Prog Response}
    (hj : p.flights[j]? = some ⟨c, .call (.changePassword adminId newPassword) k⟩)
    (hG : careful p (.perform j io))
    (hsem : sem P config io (.changePassword adminId newPassword) p.shared = (.ok new, t))
    (hshared : q.shared = t) (hq : q.flights = p.flights.set j ⟨c, k new⟩) : Custody P q := by
  obtain ⟨⟨token, username, password, admin, old, hlast, hrekey⟩, -⟩ := hO.next hj
  simp only [careful, next_of_flight hj, Bool.and_eq_true, isNone_iff_eq_none] at hG
  obtain ⟨hnone, hproved⟩ := hG
  obtain ⟨found, hfound, hderived⟩ := (any_eq_true _ _).mp hproved
  have hmem := findBy_some AdminRow.id hfound
  cases h with
  | written hi honly | rewrapped hi honly =>
    rw [underway_eq_some honly hi rfl] at hnone
    cases hnone
  | bare hadmins =>
    rw [hadmins] at hmem
    cases hmem.1
  | @settled row key hsealed honly =>
    obtain rfl : found = row := by
      rw [hsealed.admins] at hmem
      exact mem_singleton.mp hmem.1
    obtain rfl : old = key := by
      refine Subtype.ext ?_
      simpa [provedKey, hlast, hsealed.derived] using hderived
    obtain rfl : found.id = adminId := hmem.2
    obtain ⟨row', hid, hsealed'⟩ := hsealed.changePassword hsem
    have hprogram : k new = .call (.rewrapAuditKey old new) fun _ =>
        .call (.rewrapTotpSecret row'.id old new) fun _ =>
          Programs.keepSession token row'.id username new := by
      rw [hid]
      cases hrekey
      rfl
    have hlt : j < p.flights.length := (List.getElem?_eq_some_iff.mp hj).1
    have hflight : q.flights[j]? = some ⟨c, k new⟩ := by rw [hq, List.getElem?_set_self hlt]
    rw [hprogram] at hflight
    refine .written hflight ?_ (hshared ▸ hsealed')
    exact (honly.mono (some j)).set hq fun hne => absurd rfl hne

theorem Custody.reseal (hcipher : P.Deciphers) (h : Custody P p)
    (hj : p.flights[j]? = some ⟨c, .call op k⟩) (hrewraps : rewraps (.call op k) ≠ none)
    (hG : careful p (.perform j io)) :
    Custody P (p.perform (sem P config io) j) := by
  have hlt : j < p.flights.length := (List.getElem?_eq_some_iff.mp hj).1
  -- The request is the one whose change is under way.
  have hthis : ∀ {i : ℕ} {c' : Call} {program : Prog Response}, OnlyRewraps p (some i) →
      p.flights[i]? = some ⟨c', program⟩ → i = j ∧ c' = c ∧ program = .call op k := by
    intro i c' program honly hi
    have hij : i = j := by
      by_contra hne
      exact hrewraps (honly j _ hj (by simpa using hne))
    subst hij
    rw [hj, some.injEq, Flight.mk.injEq] at hi
    exact ⟨rfl, hi.1.symm, hi.2.symm⟩
  cases h with
  | bare _ _ honly | settled _ honly => exact absurd (honly j _ hj nofun) hrewraps
  | @written i c' token username row old new hi honly hsealed =>
    obtain ⟨rfl, rfl, hprogram⟩ := hthis honly hi
    cases hprogram
    have hfaults : io.faults .auditRewrapSelect = none ∧ io.faults .auditRewrapUpdate = none := by
      simpa [careful, next_of_flight hi] using hG
    obtain ⟨t, hsem, hsealed'⟩ :=
      @Sealed.rewrapAuditKey P row _ config io old new _ _ hcipher hsealed hfaults.1 hfaults.2
    rw [perform_ok hi hsem]
    refine .rewrapped (List.getElem?_set_self hlt) ?_ hsealed'
    exact honly.set rfl fun hne => absurd rfl hne
  | @rewrapped i c' token username row old new hi honly hsealed =>
    obtain ⟨rfl, rfl, hprogram⟩ := hthis honly hi
    cases hprogram
    have hfaults : io.faults .totpRewrapSelect = none ∧ io.faults .totpRewrapUpdate = none := by
      simpa [careful, next_of_flight hi] using hG
    obtain ⟨t, row', hsem, hsealed'⟩ :=
      @Sealed.rewrapTotpSecret P row _ config io old new _ _ hcipher hsealed hfaults.1 hfaults.2
    rw [perform_ok hi hsem]
    exact .settled hsealed' (honly.finish rfl rfl)

theorem Custody.answered (hcipher : P.Deciphers) (h : Custody P p)
    (hj : p.flights[j]? = some ⟨c, .call op k⟩) (hop : op.reseals = false)
    (hG : careful p (.perform j io)) (hsem : sem P config io op p.shared = (.ok b, t))
    (hshared : q.shared = t) (hq : q.flights = p.flights.set j ⟨c, k b⟩)
    (hk : rewraps (k b) = none) : Custody P q := by
  have hkeys : (sem P config io op p.shared).2.auditStore.keys = p.shared.auditStore.keys := by
    refine sem_auditKeys fun old new heq => ?_
    subst heq
    cases hop
  rw [hsem] at hkeys
  subst hshared
  have hnot : rewraps (.call op k) = none := by cases op <;> first | rfl | cases hop
  refine h.keep hj hnot hq hk (fun hadmins => ?_) hkeys fun row auditKey factorKey key hkey hsealed => ?_
  · obtain ⟨f, -, ht, -⟩ := sem_rows hsem
    rw [ht, hadmins]
    rfl
  · refine hsealed.other hcipher hsem hop fun wrapKey secret heq => ?_
    subst heq
    have hsame : ((underway p).map Subtype.val).getD row.derivedKey = wrapKey.val := by
      simpa [careful, next_of_flight hj, hsealed.row_eq] using hG
    rw [hsealed.derived] at hsame
    exact Subtype.ext (hsame.symm.trans hkey)

theorem Custody.failed (h : Custody P p) (hj : p.flights[j]? = some ⟨c, .call op k⟩)
    (hop : rewraps (.call op k) = none) (hfail : (sem P config io op p.shared).1.isOk = false)
    {r : Res StatusCode Response} (hshared : q.shared = (sem P config io op p.shared).2)
    (hq : q.flights = p.flights.set j ⟨c, .done r⟩) : Custody P q := by
  have hnot : ∀ old new, op ≠ .rewrapAuditKey old new := by
    rintro old new rfl
    cases hop
  have hadmins : q.shared.adminStore = p.shared.adminStore := by rw [hshared, sem_failed hfail]
  have hkeys : q.shared.auditStore.keys = p.shared.auditStore.keys := by
    rw [hshared, sem_auditKeys hnot]
  refine h.keep hj hop hq rfl (fun hnil => by rw [hadmins, hnil]) hkeys fun row _ _ _ _ hsealed => ?_
  exact ⟨row, rfl, hsealed.of_row (by rw [hadmins, hsealed.admins]) hkeys hsealed.derived
    hsealed.factor hsealed.numbered⟩

theorem Custody.step (hcipher : P.Deciphers) (hO : Orderly P p) (h : Custody P p) (hG : careful p a)
    (hstep : step P config p a = some q) : Custody P q := by
  cases a with
  | boot =>
    obtain ⟨s, hs, rfl⟩ := map_eq_some_iff.mp hstep
    exact h.boot hcipher hG hs
  | launch c =>
    cases hstep
    exact h.launch hO c
  | perform j io =>
    have hO' : Orderly P q := hO.step hstep
    have hq : p.perform (sem P config io) j = q := some.inj hstep
    cases Pool.performed hq with
    | idle => exact h
    | @answered c op k b t hj hsem =>
      by_cases hrewraps : rewraps (.call op k) = none
      · cases hop : op.reseals with
        | true =>
          cases op with
          | changePassword => exact h.changePassword hO hj hG hsem rfl rfl
          | rewrapAuditKey old new | rewrapTotpSecret adminId old new => cases hrewraps
          | _ => cases hop
        | false =>
          have hlt : j < p.flights.length := (List.getElem?_eq_some_iff.mp hj).1
          refine h.answered hcipher hj hop hG hsem rfl rfl ?_
          refine hO'.rewraps_eq_none (List.getElem?_set_self hlt) fun d hd => ?_
          rw [trace_append_self, List.getLast?_concat] at hd
          obtain rfl := some.inj hd
          exact hop
      · rw [← hq]
        exact h.reseal hcipher hj hrewraps hG
    | @failed c op k r t hj ht hfail hr =>
      by_cases hrewraps : rewraps (.call op k) = none
      · exact h.failed hj hrewraps hfail ht.symm rfl
      · rw [← hq]
        exact h.reseal hcipher hj hrewraps hG

/-- In every interleaving of careful steps, whenever no password change is under way: if there is an
administrator, the audit keys are there, and they and the stored second factor open under the key of
the current password. -/
theorem credentials_keep_opening (P : Primitives) (config : Config)
    (hcipher : ∀ key nonce m, P.decrypt key nonce (P.encrypt key nonce m) = some m)
    (acts : List Act) (p : Server) (hrun : run (step P config) .fresh acts = some p)
    (hcareful : Along (step P config) (fun p a => careful p a = true) .fresh acts)
    (hsettled : underway p = none) : p.shared.keysOpen P := by
  have hfresh : Custody P .fresh := .bare rfl rfl fun j f hj => by simp [Server.fresh] at hj
  have hinv : Orderly P p ∧ Custody P p :=
    run_invariant (I := fun p => Orderly P p ∧ Custody P p)
      (fun p a q hp hG hstep => ⟨hp.1.step hstep, hp.2.step hcipher hp.1 hG hstep⟩)
      ⟨orderly_fresh, hfresh⟩ hcareful hrun
  cases hinv.2 with
  | bare hadmins =>
    rw [AppState.keysOpen, hadmins]
    rfl
  | settled hsealed => exact hsealed.keysOpen
  | written hi honly | rewrapped hi honly =>
    rw [underway_eq_some honly hi rfl] at hsettled
    cases hsettled

end

/-! ## A start without keys, and a password change that stops halfway -/

/-- A cipher that opens under the key it was sealed with and under no other. -/
def keyedPrimitives : Primitives :=
  { samplePrimitives with
    encrypt := fun key _ m => key ++ m
    decrypt := fun key _ c => if c.take key.length = key then some (c.drop key.length) else none }

theorem keyedPrimitives_cipher (key nonce m : Bytes) :
    keyedPrimitives.decrypt key nonce (keyedPrimitives.encrypt key nonce m) = some m := by
  simp [keyedPrimitives]

/-- The first start cannot write the audit keys; the second start finds an administrator. -/
def sampleKeyless : List Act :=
  [.boot { sampleIo 0 with faults := fun site => if site = .auditKeyInsert then some [] else none }
      sampleKeys "admin" "first password", sampleBoot]

/-- The administrator logs in, and the process stops when a new password has just been written. -/
def sampleHalfway : List Act :=
  [sampleBoot, .launch (.login "admin" "first password")] ++
    Act.performs 0 6 (sampleIo 1) ++
    [.launch (.changePassword (sampleAuthorization 1) "first password"
      "second password")] ++
    Act.performs 1 6 (sampleIo 2) ++ [sampleBoot]

/-- Whether everything opens, how many administrators there are, and whether there are audit keys. -/
def sampleCustody (acts : List Act) : Bool × ℕ × Bool × Bool :=
  let p := sampleServer keyedPrimitives acts
  (p.shared.keysOpen keyedPrimitives, p.shared.adminStore.admins.length,
    p.shared.auditStore.keys.isSome, (underway p).isSome)

/-- There is an administrator without audit keys, or with keys that the new password does not open.
No change is under way, and no later start does anything about it. -/
theorem password_opens_nothing :
    sampleCustody sampleKeyless = (false, 1, false, false) ∧
      sampleCustody sampleHalfway = (false, 1, true, false) := by
  constructor
  · decide +kernel
  · decide +kernel

def sampleCareful : List Act :=
  sampleSettled ++
    [.launch (.mfaEnroll (sampleAuthorization 1))] ++ Act.performs 2 9 (sampleIo 3) ++
    [.launch (.changePassword (sampleAuthorization 1) "second password"
      "third password")] ++
    Act.performs 3 10 (sampleIo 4)

theorem credentials_keep_opening_careful :
    (sampleServer keyedPrimitives sampleCareful).shared.keysOpen keyedPrimitives :=
  credentials_keep_opening keyedPrimitives sampleConfig keyedPrimitives_cipher sampleCareful _
    (sampleServer_run (by decide +kernel)) (by decide +kernel) (by decide +kernel)

end Litterae.Admin
