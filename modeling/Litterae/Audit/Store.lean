import Litterae.Crypto.Seal
import Mathlib.Data.Int.Order.Basic

/-! # The audit log (`audit/src/store.rs`)

Every entry is sealed to the audit public key and chained to the entry before it by a keyed hash;
every twentieth entry's hash is signed. Reading needs the audit private key, which is stored wrapped
under the key derived from the administrator's password.
-/

namespace Litterae.Audit
open Foundations Exec Crypto

def hpkeInfo : Bytes := utf8 "litterae/audit-entry-v1"

def signInterval : ℤ := 20

/-- The row of `audit_keys`; nothing reads its `created_at`. -/
structure AuditKeys where
  auditPub : Block 32
  wrappedAuditPriv : Bytes
  keyId : UInt16
  chainKey : Block 32
  signPub : Block 32
  signPriv : Block 32
  deriving DecidableEq

structure AuditRow where
  seq : ℤ
  at_ : ℤ
  action : Text
  commitment : Bytes
  prevHash : Bytes
  hash : Bytes
  sealedDetail : Bytes
  deriving DecidableEq

structure HeadSignature where
  seq : ℤ
  hash : Bytes
  signature : Bytes
  signedAt : ℤ
  deriving DecidableEq

/-- `lastSeq` is the counter behind `AUTOINCREMENT`: a `seq` is never given twice. -/
structure AuditStore where
  keys : Option AuditKeys
  rows : List AuditRow
  signatures : List HeadSignature
  lastSeq : ℤ
  deriving DecidableEq

def AuditStore.empty : AuditStore := { keys := none, rows := [], signatures := [], lastSeq := 0 }

structure Entry where
  seq : ℤ
  at_ : ℤ
  action : Text
  detail : Text
  deriving DecidableEq

def genesisHash : Block 32 := ⟨List.replicate 32 0, by simp⟩

def beBytes64 (n : ℤ) : Bytes :=
  [7, 6, 5, 4, 3, 2, 1, 0].map fun k : ℕ => UInt8.ofNat (n / 256 ^ k % 256).toNat

def headMessage (seq : ℤ) (hash : Block 32) : Bytes := beBytes64 seq ++ hash.val

structure KeyDraw where
  auditPub : Block 32
  auditPriv : Block 32
  signPub : Block 32
  signPriv : Block 32
  chainKey : Block 32
  nonce : Block 24

section
variable (P : Primitives) (faults : Faults)

def hasKeys : Exec AuditStore Error Bool := do
  sql faults .auditKeyCount
  let a ← Exec.get
  pure a.keys.isSome

def bootstrapKeys (draw : KeyDraw) (wrapKey : Block 32) : Exec AuditStore Error Unit := do
  if ← hasKeys faults then pure ()
  else do
    sql faults .auditKeyInsert
    Exec.modify fun a =>
      { a with
        keys := some
          { auditPub := draw.auditPub
            wrappedAuditPriv := committingSeal P wrapKey 1 draw.nonce draw.auditPriv.val
            keyId := 1
            chainKey := draw.chainKey
            signPub := draw.signPub
            signPriv := draw.signPriv } }

/-- `rewrap_audit_key`; the new key id is a `u16` that wraps around. -/
def rewrapAuditKey (nonce : Block 24) (oldWrapKey newWrapKey : Block 32) :
    Exec AuditStore Error Unit := do
  sql faults .auditRewrapSelect
  let a ← Exec.get
  let keys ← ofOption (.storage "Query returned no rows") a.keys
  let privBytes ← ofExcept
    ((committingOpen P oldWrapKey keys.wrappedAuditPriv).mapError cryptoErr)
  let newKeyId := keys.keyId + 1
  sql faults .auditRewrapUpdate
  Exec.modify fun a =>
    { a with
      keys := some
        { keys with
          wrappedAuditPriv := committingSeal P newWrapKey newKeyId nonce privBytes
          keyId := newKeyId } }

def loadKeys : Exec AuditStore Error AuditKeys := do
  sql faults .auditKeys
  let a ← Exec.get
  ofOption (.storage "audit keys not bootstrapped") a.keys

def headHash (rows : List AuditRow) : Option (Block 32) :=
  match rows.getLast? with
  | some row => Block.ofBytes 32 row.hash
  | none => some genesisHash

def signHeadLocked (signedAt : ℤ) (keys : AuditKeys) (seq : ℤ) (hash : Block 32) :
    Exec AuditStore Error Unit := do
  sql faults .auditSign
  Exec.modify fun a =>
    { a with
      signatures := a.signatures ++
        [{ seq
           hash := hash.val
           signature := (P.ed25519Sign keys.signPriv (headMessage seq hash)).val
           signedAt }] }

def insertRow (now : ℤ) (action : Text) (commitment prevHash hash : Block 32)
    (sealedDetail : Bytes) (a : AuditStore) : ℤ × AuditStore :=
  (a.lastSeq + 1,
    { a with
      lastSeq := a.lastSeq + 1
      rows := a.rows ++
        [{ seq := a.lastSeq + 1, at_ := now, action, commitment := commitment.val
           prevHash := prevHash.val, hash := hash.val, sealedDetail }] })

def log (now signedAt : ℤ) (random : Bytes) (action detail : Text) :
    Exec AuditStore Error Unit := do
  let keys ← loadKeys faults
  sql faults .auditHead
  let a ← Exec.get
  let prevHash ← orPanic (headHash a.rows)
  let commitment := P.hmac keys.chainKey (utf8 detail)
  let hash := P.hmac keys.chainKey (prevHash.val ++ commitment.val)
  let sealedDetail ← ofExcept
    ((hpkeSeal P keys.auditPub.val keys.keyId hpkeInfo (utf8 detail) random).mapError
      cryptoErr)
  sql faults .auditInsert
  let seq ← Exec.update (insertRow now action commitment prevHash hash sealedDetail)
  if seq % signInterval = 0 then signHeadLocked P faults signedAt keys seq hash else pure ()

/-- One row of `read_recent`, opened. The texts of UTF-8 errors are not modelled. -/
def openRow (priv : Block 32) (row : AuditRow) : Except Error Entry := do
  let detail ← (hpkeOpen P priv.val hpkeInfo row.sealedDetail).mapError cryptoErr
  match P.fromUtf8 detail with
  | some detail => .ok { seq := row.seq, at_ := row.at_, action := row.action, detail }
  | none => .error (.storage "non-utf8 audit detail: ")

def recentRows (rows : List AuditRow) (limit : ℕ) : List AuditRow := rows.reverse.take limit

def readRecent (wrapKey : Block 32) (limit : ℕ) : Exec AuditStore Error (List Entry) := do
  let keys ← loadKeys faults
  let privBytes ← ofExcept
    ((committingOpen P wrapKey keys.wrappedAuditPriv).mapError cryptoErr)
  let priv ← orPanic (Block.ofBytes 32 privBytes)
  sql faults .auditRead
  let a ← Exec.get
  ofExcept ((recentRows a.rows limit).mapM (openRow P priv))

end

/-! ## When the log can be read -/

section
variable {P : Primitives} {faults : Faults} (wrapKey : Block 32) (limit : ℕ) (a : AuditStore)

theorem loadKeys_run :
    loadKeys faults a = match faults .auditKeys, a.keys with
      | some detail, _ => (.err (.storage detail), a)
      | none, some keys => (.ok keys, a)
      | none, none => (.err (.storage "audit keys not bootstrapped"), a) := by
  rw [loadKeys, sql_bind_run]
  cases faults .auditKeys with
  | some => rfl
  | none => cases hkeys : a.keys <;> simp [bind_run, hkeys] <;> rfl

theorem log_keys (now signedAt : ℤ) (random : Bytes) (action detail : Text) :
    Keeps (Same AuditStore.keys)
      (log P faults now signedAt random action detail) := by
  have hload : Keeps (Same AuditStore.keys) (loadKeys faults) :=
    .bind sql_keeps fun _ => .bind .get fun _ => .ofOption
  refine .bind hload fun keys => ?_
  refine .bind sql_keeps fun _ => ?_
  refine .bind .get fun a => ?_
  refine .bind .orPanic fun prevHash => ?_
  refine .bind .ofExcept fun sealedDetail => ?_
  refine .bind sql_keeps fun _ => ?_
  refine .bind (.update fun _ => rfl) fun seq => ?_
  refine .ite ?_ .pure
  exact .bind sql_keeps fun _ => .modify fun _ => rfl

theorem openRow_ok_iff {priv : Block 32} {row : AuditRow} :
    (∃ entry, openRow P priv row = .ok entry) ↔
      ∃ plain text, hpkeOpen P priv.val hpkeInfo row.sealedDetail = .ok plain ∧
        P.fromUtf8 plain = some text := by
  unfold openRow
  cases hopen : hpkeOpen P priv.val hpkeInfo row.sealedDetail with
  | error => simp [bind, Except.bind, Except.mapError]
  | ok plain =>
    cases htext : P.fromUtf8 plain with
    | none | some text => simp [bind, Except.bind, Except.mapError, htext]

structure Readable (P : Primitives) (faults : Faults) (wrapKey : Block 32) (limit : ℕ)
    (a : AuditStore) : Prop where
  keysRead : faults .auditKeys = none
  rowsRead : faults .auditRead = none
  opens : ∃ (keys : AuditKeys) (priv : Block 32), a.keys = some keys ∧
    committingOpen P wrapKey keys.wrappedAuditPriv = .ok priv.val ∧
    ∀ row ∈ recentRows a.rows limit, ∃ plain text,
      hpkeOpen P priv.val hpkeInfo row.sealedDetail = .ok plain ∧
        P.fromUtf8 plain = some text

theorem readRecent_run :
    readRecent P faults wrapKey limit a =
      match faults .auditKeys, a.keys with
      | some detail, _ => (.err (.storage detail), a)
      | none, none => (.err (.storage "audit keys not bootstrapped"), a)
      | none, some keys =>
        match committingOpen P wrapKey keys.wrappedAuditPriv with
        | .error e => (.err (cryptoErr e), a)
        | .ok privBytes =>
          match Block.ofBytes 32 privBytes with
          | none => (.panic, a)
          | some priv =>
            match faults .auditRead with
            | some detail => (.err (.storage detail), a)
            | none => ofExcept ((recentRows a.rows limit).mapM (openRow P priv)) a := by
  rw [readRecent, bind_run, loadKeys_run]
  cases faults .auditKeys with
  | some => rfl
  | none =>
    cases a.keys with
    | none => rfl
    | some keys =>
      simp only [ofExcept_bind_run]
      cases committingOpen P wrapKey keys.wrappedAuditPriv with
      | error => rfl
      | ok privBytes =>
        simp only [Except.mapError, orPanic_bind_run]
        cases Block.ofBytes 32 privBytes with
        | none => rfl
        | some =>
          simp only [sql_bind_run]
          cases faults .auditRead <;> rfl

theorem readRecent_state :
    (readRecent P faults wrapKey limit a).2 = a := by
  rw [readRecent_run]
  split
  · rfl
  · rfl
  · split
    · rfl
    · split
      · rfl
      · split
        · rfl
        · exact (Keeps.ofExcept (R := Eq) a).symm

theorem readRecent_isOk_iff {wrapKey : Block 32} {limit : ℕ} {a : AuditStore} :
    (readRecent P faults wrapKey limit a).1.isOk ↔ Readable P faults wrapKey limit a := by
  rw [readRecent_run]
  constructor
  · intro hok
    split at hok
    · simp [Res.isOk] at hok
    · simp [Res.isOk] at hok
    · next keys hfault hkeys =>
      split at hok
      · simp [Res.isOk] at hok
      · next privBytes hopen =>
        split at hok
        · simp [Res.isOk] at hok
        · next priv hblock =>
          split at hok
          · simp [Res.isOk] at hok
          · next hread =>
            rw [isOk_ofExcept, exists_mapM_ok_iff] at hok
            refine ⟨hfault, hread, keys, priv, hkeys, ?_, fun row hrow => ?_⟩
            · rw [hopen, Block.val_of_ofBytes hblock]
            · exact openRow_ok_iff.mp (hok row hrow)
  · rintro ⟨hfault, hread, keys, priv, hkeys, hopen, hrows⟩
    rw [hfault, hkeys]
    simp only [hopen, Block.ofBytes_val, hread]
    rw [isOk_ofExcept, exists_mapM_ok_iff]
    exact fun row hrow => openRow_ok_iff.mpr (hrows row hrow)

end
end Litterae.Audit
