import Litterae.Admin.Store
import Litterae.Foundations.Run

/-! # The account table over its history (`auth/src/store.rs`)

Accounts are provisioned and deleted; nothing else adds or removes rows. Local parts are kept as the
administrator wrote them and domains in lower case, and no two rows have the same pair of them.
-/

namespace Litterae
open Foundations Exec Input List Option

/-- What a call of `provision` is given and draws, and which of its statements fail. -/
structure ProvisionCall where
  localPart : Text
  domain : Text
  password : Bytes
  now : ℤ
  salt : Block 16
  accountPub : Block 32
  faults : Faults

inductive AccountAct where
  | provision (call : ProvisionCall)
  | delete (faults : Faults) (id : ℤ)

def accountStep (P : Primitives) (accounts : List Account) : AccountAct → Option (List Account)
  | .provision c => some (Admin.AuthStore.provision P c.faults c.now c.salt c.accountPub c.localPart c.domain
      c.password accounts).2
  | .delete faults id => some (Admin.AuthStore.deleteAccount faults id accounts).2

def Provisioned (P : Primitives) (accounts : List Account) : Prop :=
  ∃ acts, run (accountStep P) [] acts = some accounts

/-- What every row of the table has, and that rows differ in their ids and in their addresses. -/
structure AccountTable (accounts : List Account) : Prop where
  localPart : ∀ a ∈ accounts, validLocalPart a.localPart = true
  domain : ∀ a ∈ accounts, ∃ d, validDomainName d = true ∧ a.domain = d.map Char.toLower
  ids : (accounts.map Account.id).Nodup
  addresses : ∀ a ∈ accounts, ∀ b ∈ accounts, a.localPart = b.localPart → a.domain = b.domain → a = b

section
variable {P : Primitives} {accounts : List Account}

def ProvisionCall.row (c : ProvisionCall) (accounts : List Account) : Account where
  id := nextRowid Account.id accounts
  localPart := c.localPart
  domain := c.domain.map Char.toLower
  keyId := 1
  accountPub := c.accountPub.val
  createdAt := c.now

structure ProvisionCall.Sound (c : ProvisionCall) (accounts : List Account) : Prop where
  localPart : validLocalPart c.localPart = true
  domain : validDomainName c.domain = true
  fresh : ∀ a ∈ accounts, a.localPart = c.localPart → a.domain ≠ c.domain.map Char.toLower

theorem provision_cases (P : Primitives) (accounts : List Account) (c : ProvisionCall) :
    (∃ e, Admin.AuthStore.provision P c.faults c.now c.salt c.accountPub c.localPart c.domain c.password
        accounts = (.err e, accounts)) ∨
      c.Sound accounts ∧
        Admin.AuthStore.provision P c.faults c.now c.salt c.accountPub c.localPart c.domain c.password
            accounts = (.ok (c.row accounts), accounts ++ [c.row accounts]) := by
  unfold Admin.AuthStore.provision
  split
  · exact .inl ⟨_, rfl⟩
  next hvalid =>
  rw [ofExcept_bind_run]
  cases (Crypto.derivePk P c.password c.salt).mapError cryptoErr with
  | error e => exact .inl ⟨e, rfl⟩
  | ok =>
    rw [sql_bind_run]
    cases c.faults .accountInsert with
    | some => exact .inl ⟨_, rfl⟩
    | none =>
      simp only [get_bind_run]
      split
      · exact .inl ⟨_, rfl⟩
      next hfresh =>
      simp only [Bool.or_eq_true, Bool.not_eq_true', not_or, Bool.not_eq_false] at hvalid
      refine .inr ⟨⟨hvalid.1, hvalid.2, fun a ha hlocal hdomain => hfresh ?_⟩, rfl⟩
      exact any_eq_true.mpr ⟨a, ha, by simp [hlocal, hdomain]⟩

theorem AccountTable.provision (h : AccountTable accounts) (c : ProvisionCall) :
    AccountTable (Admin.AuthStore.provision P c.faults c.now c.salt c.accountPub c.localPart c.domain
      c.password accounts).2 := by
  rcases provision_cases P accounts c with ⟨e, hsame⟩ | ⟨hsound, hnew⟩
  · rw [hsame]
    exact h
  · rw [hnew]
    refine ⟨?_, ?_, nodup_insert Account.id h.ids rfl, ?_⟩
    · intro a ha
      rcases mem_append.mp ha with hold | hlast
      · exact h.localPart a hold
      · obtain rfl := mem_singleton.mp hlast
        exact hsound.localPart
    · intro a ha
      rcases mem_append.mp ha with hold | hlast
      · exact h.domain a hold
      · obtain rfl := mem_singleton.mp hlast
        exact ⟨c.domain, hsound.domain, rfl⟩
    · intro a ha b hb hl hd
      rcases mem_append.mp ha with holda | hlasta <;> rcases mem_append.mp hb with holdb | hlastb
      · exact h.addresses a holda b holdb hl hd
      · obtain rfl := mem_singleton.mp hlastb
        exact absurd hd (hsound.fresh a holda hl)
      · obtain rfl := mem_singleton.mp hlasta
        exact absurd hd.symm (hsound.fresh b holdb hl.symm)
      · rw [mem_singleton.mp hlasta, mem_singleton.mp hlastb]

theorem AccountTable.sublist {kept : List Account} (h : AccountTable accounts)
    (hkept : kept.Sublist accounts) : AccountTable kept where
  localPart a ha := h.localPart a (hkept.subset ha)
  domain a ha := h.domain a (hkept.subset ha)
  ids := (hkept.map Account.id).nodup h.ids
  addresses a ha b hb := h.addresses a (hkept.subset ha) b (hkept.subset hb)

theorem AccountTable.delete (h : AccountTable accounts) (faults : Faults) (id : ℤ) :
    AccountTable (Admin.AuthStore.deleteAccount faults id accounts).2 := by
  rw [Admin.AuthStore.deleteAccount, sql_bind_run]
  cases faults .accountDelete with
  | some => exact h
  | none => exact h.sublist filter_sublist

theorem Provisioned.table (h : Provisioned P accounts) : AccountTable accounts := by
  obtain ⟨acts, hrun⟩ := h
  have hstart : AccountTable [] := ⟨by simp, by simp, by simp, by simp⟩
  refine run_invariant (fun s a t hs _ hstep => ?_) hstart
    (Along.of_forall (fun _ _ => trivial) _ _) hrun
  cases a with
  | provision c =>
    obtain rfl := some.inj hstep
    exact hs.provision c
  | delete faults id =>
    obtain rfl := some.inj hstep
    exact hs.delete faults id

end

/-! ## Addresses -/

section
variable {accounts : List Account} {a : Account}

theorem AccountTable.at_not_mem (h : AccountTable accounts) (ha : a ∈ accounts) : '@' ∉ a.localPart :=
  fun hmem => (mem_validLocalPart (h.localPart a ha) hmem).1 rfl

theorem AccountTable.lower (h : AccountTable accounts) (ha : a ∈ accounts) :
    a.domain.map Char.toLower = a.domain := by
  obtain ⟨d, -, hd⟩ := h.domain a ha
  rw [hd, map_toLower_toLower]

theorem AccountTable.findByAddress (h : AccountTable accounts) (ha : a ∈ accounts) :
    Litterae.findByAddress accounts a.localPart a.domain = some a := by
  have hsome : (Litterae.findByAddress accounts a.localPart a.domain).isSome := by
    rw [Litterae.findByAddress, List.find?_isSome]
    exact ⟨a, ha, by simp only [h.lower ha, beq_self_eq_true, Bool.and_self]⟩
  obtain ⟨b, hb⟩ := isSome_iff_exists.mp hsome
  have hmatch := List.find?_some hb
  simp only [h.lower ha, Bool.and_eq_true, beq_iff_eq] at hmatch
  rw [hb, h.addresses b (mem_of_find?_eq_some hb) a ha hmatch.1 hmatch.2]

end
end Litterae
