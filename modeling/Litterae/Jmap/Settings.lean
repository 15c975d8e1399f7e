import Litterae.Jmap.EmailGet

/-! # Signature, address book and app passwords (`jmap/src/{api,contacts}.rs`, `auth/src/store.rs`)

The signature and the contacts are sealed under the account's master key. `Contact/set` opens the
address book once and keeps that list in step with what it creates and updates, so that a duplicate
within one request is refused too.
-/

namespace Litterae.Jmap
open Foundations Store Queue Exec Crypto

/-! ## Identities -/

structure IdentityObject where
  id : Text
  name : Text
  email : Text
  textSignature : Text
  mayDelete : Bool
  deriving DecidableEq

structure IdentityGetResult where
  list : List IdentityObject
  notFound : List Text
  deriving DecidableEq

def identityId (accountId : ℤ) : Text := 'i' :: showInt accountId

section
variable (faults : Faults)

def getSignatureSealed (accountId : ℤ) : Exec Stores Error (Option Bytes) := do
  sql faults .signatureSelect
  let s ← Exec.get
  pure ((findById s.accounts accountId).bind Account.signatureSealed)

def setSignatureSealed (accountId : ℤ) (signatureSealed : Option Bytes) : Exec Stores Error Unit := do
  sql faults .signatureUpdate
  Exec.modify fun s =>
    { s with
      accounts := updateWhere (fun a => a.id == accountId) (fun a => { a with signatureSealed })
        s.accounts }

end

section
variable (P : Primitives) (accountId : ℤ) (amk : Bytes)

def signatureText (found : Except Error (Option Bytes)) : Text :=
  (found.toOption.join.bind fun sealedText =>
    (aeadOpen P amk sealedText).toOption.bind P.fromUtf8).getD []

def loadIdentity (faults : Faults) (address : Text) : Exec Stores MethodError IdentityObject := do
  let found ← (getSignatureSealed faults accountId).attempt
  pure
    { id := identityId accountId, name := [], email := address
      textSignature := signatureText P amk found, mayDelete := false }

def identityGet (faults : Faults) (address : Text) (ids : Option (List Text)) :
    Exec Stores MethodError IdentityGetResult := do
  let identity ← loadIdentity P accountId amk faults address
  match ids with
  | none => pure { list := [identity], notFound := [] }
  | some ids =>
    pure
      { list := (ids.filter fun id => id == identity.id).map fun _ => identity
        notFound := ids.filter fun id => id != identity.id }

structure SealDraw where
  nonce : Bytes
  now : ℤ
  faults : Faults

/-- One entry of `Identity/set`: the patch may leave the signature out. -/
def identityUpdate (draw : SealDraw) (id : Text) (textSignature : Option Text) :
    Exec Stores SetError Unit :=
  if id ≠ identityId accountId then Exec.throw .notFound
  else whenSome textSignature fun text => do
    (setSignatureSealed draw.faults accountId
      (if text.isEmpty then none else some (aeadSeal P amk 1 draw.nonce (utf8 text)))).mapErr
      fun e => .serverFail e.display
    Exec.modify (notify accountId)

def identitySet (draws : ℕ → SealDraw) (update : List (Text × Option Text)) :
    Exec Stores MethodError (List (Text × Except SetError Unit)) := do
  let outcomes ← eachItem (fun k i => identityUpdate P accountId amk (draws k) i.1 i.2) 0 update
  pure (outcomes.map fun o => (o.1.1, o.2))

end

/-! ## Contacts -/

structure ContactPlain where
  name : Option Text
  email : Text
  deriving DecidableEq

structure ContactCodec where
  toVec : ContactPlain → Bytes
  fromSlice : Bytes → Except Text ContactPlain

structure ContactObject where
  id : Text
  name : Option Text
  email : Text
  deriving DecidableEq

structure ContactGetResult where
  list : List ContactObject
  notFound : List Text
  deriving DecidableEq

structure ContactCreateRequest where
  name : Option Text
  email : Text
  deriving DecidableEq

def contactRowId : Text → Option ℤ
  | 'c' :: digits => parseI64 digits
  | _ => none

def validateContactFields (name : Option Text) (email : Text) : Except Text Unit :=
  if !Input.validEmailAddress email then .error ("invalid email address: " ++ email)
  else if name.any (fun value => !Input.validHeaderValue value) then
    .error "display name contains prohibited control characters"
  else .ok ()

/-- The address is taken by another entry than `excluding`. -/
def isDuplicate (email : Text) (existing : List (ℤ × ContactPlain)) (excluding : Option ℤ) : Bool :=
  existing.any fun c => some c.1 != excluding && eqIgnoreAsciiCase c.2.email email

def alreadyExists : Text := "a contact with this email already exists"

/-- What the `name` and `email` of a patch make of a contact: a name that is no string is removed, an
address that is none is left. -/
def patchContact (patch : List (Text × Value)) (current : ContactPlain) : ContactPlain where
  name := match patch.lookup "name".toList with
    | some value => value.asStr
    | none => current.name
  email := ((patch.lookup "email".toList).bind Value.asStr).getD current.email

/-- Errors are texts, and the text `notFound` is reported as such. -/
def contactError (e : Text) : SetError :=
  if e = "notFound" then .notFound else .serverFail e

def eachWith {ε ε' ι α β : Type} (op : ℕ → ι → β → Exec Stores ε α) (next : β → α → β) :
    ℕ → List ι → β → Exec Stores ε' (List (ι × Except ε α) × β)
  | _, [], b => pure ([], b)
  | k, item :: rest, b => do
    let outcome ← (op k item b).attempt
    let r ← eachWith op next (k + 1) rest (match outcome with
      | .ok a => next b a
      | .error _ => b)
    pure ((item, outcome) :: r.1, r.2)

section
variable (P : Primitives) (J : ContactCodec) (accountId : ℤ) (amk : Bytes)

def sealContact (nonce : Bytes) (plain : ContactPlain) : Bytes :=
  aeadSeal P amk 1 nonce (J.toVec plain)

def openContact (sealedEntry : Bytes) : Except Error ContactPlain :=
  match aeadOpen P amk sealedEntry with
  | .error e => .error (cryptoErr e)
  | .ok opened => (J.fromSlice opened).mapError .crypto

def contactObject (c : StoredContact) : Option ContactObject :=
  (openContact P J amk c.sealedEntry).toOption.map fun plain =>
    { id := 'c' :: showInt c.id, name := plain.name, email := plain.email }

def getContactObject (faults : Faults) (id : Text) : Exec Stores Unit ContactObject :=
  match contactRowId id with
  | none => Exec.throw ()
  | some rowId => do
    let found ← (onMetadata (getContact faults rowId)).attempt
    ofOption () ((found.toOption.join.filter fun c => c.accountId = accountId).bind
      (contactObject P J amk))

def contactGet (faults : ℕ → Faults) (ids : Option (List Text)) :
    Exec Stores MethodError ContactGetResult :=
  match ids with
  | none => do
    let found ← (onMetadata (contactsForAccount (faults 0) accountId)).attempt
    pure { list := (found.toOption.getD []).filterMap (contactObject P J amk), notFound := [] }
  | some ids => do
    let outcomes ← eachItem (fun k id => getContactObject P J accountId amk (faults k) id) 0 ids
    pure
      { list := outcomes.filterMap fun o => o.2.toOption
        notFound := (outcomes.filter fun o => !o.2.isOk).map Prod.fst }

def contactCreate (draw : SealDraw) (req : ContactCreateRequest) (existing : List (ℤ × ContactPlain)) :
    Exec Stores Text (ℤ × ContactPlain) := do
  ofExcept (validateContactFields req.name req.email)
  throwIf (isDuplicate req.email existing none) alreadyExists
  let plain : ContactPlain := { name := req.name, email := req.email }
  let rowId ← (onMetadata (insertContact draw.faults accountId (sealContact P J amk draw.nonce plain)
    draw.now)).mapErr Error.display
  pure (rowId, plain)

def ownContact (faults : Faults) (rowId : ℤ) : Exec Stores Text StoredContact := do
  let found ← (onMetadata (getContact faults rowId)).mapErr Error.display
  ofOption "notFound" (found.filter fun c => c.accountId = accountId)

def contactUpdate (draw : SealDraw) (id : Text) (patch : List (Text × Value))
    (existing : List (ℤ × ContactPlain)) : Exec Stores Text (ℤ × ContactPlain) :=
  match contactRowId id with
  | none => Exec.throw "notFound"
  | some rowId => do
    let stored ← ownContact accountId draw.faults rowId
    let current ← ofExcept ((openContact P J amk stored.sealedEntry).mapError Error.display)
    let plain := patchContact patch current
    ofExcept (validateContactFields plain.name plain.email)
    throwIf (isDuplicate plain.email existing (some rowId)) alreadyExists
    (onMetadata (updateContact draw.faults rowId (sealContact P J amk draw.nonce plain)
      draw.now)).mapErr Error.display
    pure (rowId, plain)

def contactDestroy (faults : Faults) (id : Text) : Exec Stores Text Unit :=
  match contactRowId id with
  | none => Exec.throw "notFound"
  | some rowId => do
    let stored ← ownContact accountId faults rowId
    (onMetadata (deleteContact faults stored.id)).mapErr Error.display

structure ContactSetArgs where
  create : List (Text × ContactCreateRequest)
  update : List (Text × List (Text × Value))
  destroy : List Text

structure ContactSetIo where
  list : Faults
  creates : ℕ → SealDraw
  updates : ℕ → SealDraw
  destroys : ℕ → Faults

structure ContactSetResult where
  created : List (Text × Except Text (ℤ × ContactPlain))
  updated : List (Text × Except SetError Unit)
  destroyed : List (Text × Except SetError Unit)

def ContactSetResult.changed (r : ContactSetResult) : Bool :=
  r.created.any (fun i => i.2.isOk) || r.updated.any (fun i => i.2.isOk) ||
    r.destroyed.any fun i => i.2.isOk

def contactSetItems (io : ContactSetIo) (args : ContactSetArgs) :
    Exec Stores MethodError ContactSetResult := do
  let rows ← (onMetadata (contactsForAccount io.list accountId)).attempt
  let existing := (rows.toOption.getD []).filterMap fun c =>
    (openContact P J amk c.sealedEntry).toOption.map fun plain => (c.id, plain)
  let creates ← eachWith (fun k i book => contactCreate P J accountId amk (io.creates k) i.2 book)
    (fun book c => book ++ [c]) 0 args.create existing
  let updates ← eachWith (fun k i book => contactUpdate P J accountId amk (io.updates k) i.1 i.2 book)
    (fun book c => (book.filter fun e => e.1 != c.1) ++ [c]) 0 args.update creates.2
  let destroyed ← eachItem (fun k id => contactDestroy accountId (io.destroys k) id) 0 args.destroy
  pure
    { created := creates.1.map fun o => (o.1.1, o.2)
      updated := updates.1.map fun o => (o.1.1, (o.2.mapError contactError).map fun _ => ())
      destroyed := destroyed.map fun o => (o.1, o.2.mapError contactError) }

def contactSet (io : ContactSetIo) (args : ContactSetArgs) :
    Exec Stores MethodError ContactSetResult := do
  let result ← contactSetItems P J accountId amk io args
  Exec.modify fun s => if result.changed then notify accountId s else s
  pure result

end

/-! ## App passwords -/

structure AppPasswordSummary where
  id : ℤ
  label : Text
  scope : AppPasswordScope
  createdAt : ℤ
  lastUsedAt : Option ℤ
  deriving DecidableEq

def summaryOf (p : AppPassword) : AppPasswordSummary where
  id := p.id
  label := p.label
  scope := p.scope
  createdAt := p.createdAt
  lastUsedAt := p.lastUsedAt

def parseScope (scope : Text) : Option AppPasswordScope :=
  if scope = "full" then some .full
  else if scope = "submission" then some .submission
  else none

structure AppPasswordDraw where
  secret : Block 20
  salt : Block 16
  nonce : Block 24
  now : ℤ
  faults : Faults

section
variable (P : Primitives) (accountId : ℤ)

def createAppPassword (draw : AppPasswordDraw) (amk : Bytes) (label : Text) (scope : AppPasswordScope) :
    Exec Stores Error (AppPasswordSummary × Text) := do
  let plaintext := hexEncode draw.secret.val
  let pk ← ofExcept ((derivePk P (utf8 plaintext) draw.salt).mapError cryptoErr)
  sql draw.faults .appPasswordInsert
  Exec.update fun s =>
    let row : AppPassword :=
      { id := nextRowid AppPassword.id s.appPasswords, accountId, label, scope
        salt := draw.salt.val, wrappedAmk := committingSeal P pk 1 draw.nonce amk
        createdAt := draw.now, lastUsedAt := none }
    ((summaryOf row, plaintext), { s with appPasswords := s.appPasswords ++ [row] })

def listAppPasswords (faults : Faults) : Exec Stores Error (List AppPasswordSummary) := do
  sql faults .appPasswordList
  let s ← Exec.get
  pure (((s.appPasswords.filter fun p => p.accountId == accountId).insertionSort
    fun p q => q.createdAt ≤ p.createdAt).map summaryOf)

def revokeAppPassword (faults : Faults) (id : ℤ) : Exec Stores Error Unit := do
  sql faults .appPasswordDelete
  Exec.modify fun s =>
    { s with appPasswords := s.appPasswords.filter fun p => !(p.id == id && p.accountId == accountId) }

end
end Litterae.Jmap
