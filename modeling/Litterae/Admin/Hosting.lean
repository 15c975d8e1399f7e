import Litterae.Accounts
import Litterae.Admin.Gate

/-! # Mailboxes and the domains they are in

An account is created in a domain that is there, and nothing is asked of the accounts when a domain
is deleted.
-/

namespace Litterae.Admin
open Foundations Exec List

def Endpoint.hosting : Endpoint → Bool
  | .createDomain _ _ | .updateDomain _ _ | .deleteDomain _ | .createAccount _ _ _
  | .deleteAccount _ => true
  | _ => false

structure Hosting where
  domains : List Domain
  accounts : List Account

def AppState.hosting (s : AppState) : Hosting := ⟨s.adminStore.domains, s.accounts⟩

def Hosting.names (h : Hosting) : List Text := h.domains.map Domain.name

inductive Hosts (before : Hosting) : Endpoint → Hosting → Prop
  | unchanged (e : Endpoint) : Hosts before e before
  | domainCreated (name : Text) (catchAll : Option Text) (d : Domain) :
      Hosts before (.createDomain name catchAll) ⟨before.domains ++ [d], before.accounts⟩
  | domainUpdated (id : ℤ) (catchAll : Option Text) (domains : List Domain) :
      domains.map Domain.name = before.names →
      Hosts before (.updateDomain id catchAll) ⟨domains, before.accounts⟩
  | domainDeleted (id : ℤ) :
      Hosts before (.deleteDomain id) ⟨before.domains.filter fun d => d.id != id, before.accounts⟩
  | accountCreated (localPart domain password : Text) (a : Account) :
      a.id = nextRowid Account.id before.accounts → a.domain ∈ before.names →
      Hosts before (.createAccount localPart domain password)
        ⟨before.domains, before.accounts ++ [a]⟩
  | accountDeleted (id : ℤ) :
      Hosts before (.deleteAccount id) ⟨before.domains, before.accounts.filter fun a => a.id != id⟩

variable {config : Config} {P : Primitives} {e : Endpoint} {req : Request}

section
variable {io : Io} {authorization : Option Text} {α β : Type} {f : α → Exec AppState StatusCode β}
  {x : Exec AppState StatusCode α} {s : AppState}

abbrev Serves (e : Endpoint) : AppState → AppState → Prop :=
  fun s t => Hosts s.hosting e t.hosting

theorem serves_of_same {s t : AppState} (h : t.hosting = s.hosting) : Serves e s t := by
  rw [Serves, h]
  exact .unchanged e

theorem serves_after (hx : Keeps (Same AppState.hosting) x) (hf : ∀ a, Keeps (Serves e) (f a)) :
    Keeps (Serves e) (x >>= f) := by
  intro s
  have hsame : (x s).2.hosting = s.hosting := hx s
  rw [bind_run]
  rcases hrun : x s with ⟨a | code | _, t⟩
  · rw [hrun] at hsame
    have hserves : Hosts t.hosting e (f a t).2.hosting := hf a t
    rw [hsame] at hserves
    exact hserves
  · rw [hrun] at hsame
    exact serves_of_same hsame
  · rw [hrun] at hsame
    exact serves_of_same hsame

theorem serves_before_run (hx : Serves e s (x s).2)
    (hf : ∀ a, Keeps (Same AppState.hosting) (f a)) :
    Serves e s ((x >>= f) s).2 := by
  rw [bind_run]
  rcases hrun : x s with ⟨a | code | _, t⟩
  · rw [hrun] at hx
    have hsame : (f a t).2.hosting = t.hosting := hf a t
    simp only [Serves, hsame]
    exact hx
  · rw [hrun] at hx
    exact hx
  · rw [hrun] at hx
    exact hx

theorem serves_before (hx : Keeps (Serves e) x) (hf : ∀ a, Keeps (Same AppState.hosting) (f a)) :
    Keeps (Serves e) (x >>= f) := fun s => serves_before_run (hx s) hf

theorem requireAdmin_hosting :
    Keeps (Same AppState.hosting) (Handlers.requireAdmin P config io authorization) := by
  refine Program.Only.keeps (Q := fun op => ∃ k token, op = .touch k token) ?_
    (requireAdmin_only fun k token _ => ⟨k, token, rfl⟩)
  rintro _ ⟨k, token, rfl⟩
  exact fun _ => rfl

variable (id : ℤ) (action : String) (detail : Text)

theorem audit_hosting :
    Keeps (Same AppState.hosting) (Handlers.audit P io action detail) :=
  .ignore fun _ => rfl

theorem answered_hosting (response : Response) :
    Keeps (Same AppState.hosting) (do
      Handlers.audit P io action detail
      pure response) :=
  .bind (audit_hosting action detail) fun _ => .pure

theorem orStatus_serves {code : StatusCode} {x : Exec AppState Error α} (hx : Keeps (Serves e) x) :
    Keeps (Serves e) (orStatus code x) := Keeps.mapErr hx

theorem createDomain_serves (name : Text) (catchAll : Option Text) :
    Keeps (Serves (.createDomain name catchAll))
      (onAdmin (AdminStore.createDomain io.faults (io.now 0) io.domainToken name catchAll)) := by
  intro s
  have hrun : ∀ x : Exec AdminStore Error Domain, (onAdmin x s).2.hosting =
      ⟨(x s.adminStore).2.domains, s.accounts⟩ := fun _ => rfl
  rw [Serves, hrun, AdminStore.createDomain]
  split
  · exact .unchanged _
  · rw [sql_bind_run]
    cases io.faults .domainInsert with
    | some => exact .unchanged _
    | none =>
      simp only [get_bind_run]
      split
      · exact .unchanged _
      · exact .domainCreated name catchAll _

theorem setCatchAll_serves (catchAll : Option Text) :
    Keeps (Serves (.updateDomain id catchAll))
      (onAdmin (AdminStore.setCatchAll io.faults id catchAll)) := by
  intro s
  have hrun : ∀ x : Exec AdminStore Error Unit, (onAdmin x s).2.hosting =
      ⟨(x s.adminStore).2.domains, s.accounts⟩ := fun _ => rfl
  rw [Serves, hrun, AdminStore.setCatchAll, AdminStore.updateDomain, sql_bind_run]
  cases io.faults .domainCatchAll with
  | some => exact .unchanged _
  | none =>
    exact .domainUpdated id catchAll _ (map_updateWhere
      (f := fun d : Domain => { d with catchAllLocalPart := catchAll }) Domain.name (fun _ => rfl) _)

theorem deleteDomain_serves :
    Keeps (Serves (.deleteDomain id)) (onAdmin (AdminStore.deleteDomain io.faults id)) := by
  intro s
  have hrun : ∀ x : Exec AdminStore Error Unit, (onAdmin x s).2.hosting =
      ⟨(x s.adminStore).2.domains, s.accounts⟩ := fun _ => rfl
  rw [Serves, hrun, AdminStore.deleteDomain, sql_bind_run]
  cases io.faults .domainDelete with
  | some => exact .unchanged _
  | none => exact .domainDeleted id

theorem deleteAccount_serves :
    Keeps (Serves (.deleteAccount id)) (onAccounts (AuthStore.deleteAccount io.faults id)) := by
  intro s
  have hrun : ∀ x : Exec (List Account) Error Unit, (onAccounts x s).2.hosting =
      ⟨s.adminStore.domains, (x s.accounts).2⟩ := fun _ => rfl
  rw [Serves, hrun, AuthStore.deleteAccount, sql_bind_run]
  cases io.faults .accountDelete with
  | some => exact .unchanged _
  | none => exact .accountDeleted id

theorem provision_serves {localPart domain password : Text}
    (hknown : domain.map Char.toLower ∈ s.hosting.names) :
    Serves (.createAccount localPart domain password) s (orStatus .conflict (onAccounts
      (AuthStore.provision P io.faults (io.now 0) io.salt io.accountPub localPart domain
        (utf8 password))) s).2 := by
  have hrun : ∀ x : Exec (List Account) Error Account,
      (orStatus .conflict (onAccounts x) s).2.hosting =
        ⟨s.adminStore.domains, (x s.accounts).2⟩ := by
    intro x
    rw [orStatus, state_mapErr]
    rfl
  rw [Serves, hrun]
  rcases provision_cases P s.accounts
    { localPart, domain, password := utf8 password, now := io.now 0, salt := io.salt
      accountPub := io.accountPub, faults := io.faults } with ⟨e, hsame⟩ | ⟨-, hnew⟩
  · rw [hsame]
    exact .unchanged _
  · rw [hnew]
    exact .accountCreated localPart domain password _ rfl hknown

theorem createAccount_serves (localPart domain password : Text) :
    Keeps (Serves (.createAccount localPart domain password))
      (Handlers.createAccount P config io authorization localPart domain password) := by
  refine serves_after requireAdmin_hosting fun _ => ?_
  refine serves_after .throwIf fun _ s => ?_
  cases hfault : io.faults .domainByName with
  | some =>
    have hlookup : orInternal (onAdmin (AdminStore.getDomainByName io.faults domain)) s =
        (.err .internalServerError, s) := by
      rw [orInternal, orStatus, mapErr, onAdmin, zoom, AdminStore.getDomainByName,
        sql_bind_run, hfault]
    rw [bind_of_err hlookup]
    exact serves_of_same rfl
  | none =>
    have hlookup : orInternal (onAdmin (AdminStore.getDomainByName io.faults domain)) s =
        (.ok (findBy Domain.name (domain.map Char.toLower) s.adminStore.domains), s) := by
      rw [orInternal, orStatus, mapErr, onAdmin, zoom, AdminStore.getDomainByName,
        sql_bind_run, hfault]
      rfl
    rw [bind_of_ok hlookup, throwIf_bind_run]
    cases hfound : findBy Domain.name (domain.map Char.toLower) s.adminStore.domains with
    | none => exact serves_of_same rfl
    | some =>
      obtain ⟨hd, hname⟩ := findBy_some Domain.name hfound
      have hknown : domain.map Char.toLower ∈ s.hosting.names :=
        hname ▸ mem_map_of_mem hd
      exact serves_before_run (provision_serves hknown) fun account =>
        answered_hosting "admin.account_create" (address account) _

theorem serve_hosts (P : Primitives) (config : Config) (s : AppState) (h : req.endpoint.hosting) :
    Hosts s.hosting req.endpoint (serve P config s req).hosting := by
  obtain ⟨io, authorization, endpoint⟩ := req
  cases endpoint with
  | createDomain name catchAll =>
    exact serves_after requireAdmin_hosting (fun _ =>
      serves_after .throwIf fun _ =>
        serves_before (orStatus_serves (createDomain_serves name catchAll)) fun domain =>
          answered_hosting "admin.domain_create" domain.name _) s
  | updateDomain id catchAll =>
    exact serves_after requireAdmin_hosting (fun _ =>
      serves_after .throwIf fun _ =>
        serves_before (orStatus_serves (setCatchAll_serves id catchAll)) fun _ =>
          answered_hosting "admin.domain_update" (showInt id) _) s
  | deleteDomain id =>
    exact serves_after requireAdmin_hosting (fun _ =>
      serves_before (orStatus_serves (deleteDomain_serves id)) fun _ =>
        answered_hosting "admin.domain_delete" (showInt id) _) s
  | createAccount localPart domain password =>
    exact createAccount_serves localPart domain password s
  | deleteAccount id =>
    exact serves_after requireAdmin_hosting (fun _ =>
      serves_before (orStatus_serves (deleteAccount_serves id)) fun _ =>
        answered_hosting "admin.account_delete" (showInt id) _) s
  | _ => cases h

end

/-! ## Histories -/

/-- The state, and the ids of the accounts that were made through the interface and are there. -/
structure Ledger where
  state : AppState
  created : List ℤ

def Ledger.serve (P : Primitives) (config : Config) (l : Ledger) (req : Request) : Option Ledger :=
  let after := Admin.serve P config l.state req
  some
    { state := after
      created := (after.accounts.map Account.id).filter fun id =>
        l.created.contains id || !(l.state.accounts.map Account.id).contains id }

def Ledger.start (s : AppState) : Ledger := ⟨s, []⟩

def Ledger.Hosted (l : Ledger) : Prop :=
  ∀ a ∈ l.state.accounts, a.id ∈ l.created → a.domain ∈ l.state.hosting.names

/-- A domain is deleted only if none of the accounts made through the interface is in it. -/
def vacates (l : Ledger) (req : Request) : Bool :=
  match req.endpoint with
  | .deleteDomain id =>
    (l.state.accounts.filter fun a => l.created.contains a.id).all fun a =>
      l.state.adminStore.domains.all fun d => d.id != id || d.name != a.domain
  | _ => true

section
variable {l l' : Ledger}

theorem Hosts.keeps {before after : Hosting} (h : Hosts before e after) {created : List ℤ}
    (hbefore : ∀ a ∈ before.accounts, a.id ∈ created → a.domain ∈ before.names)
    (hvacant : ∀ id, e = .deleteDomain id → ∀ a ∈ before.accounts, a.id ∈ created →
      ∀ d ∈ before.domains, d.name = a.domain → d.id ≠ id) :
    ∀ a ∈ after.accounts, a.id ∈ created ∨ a.id ∉ before.accounts.map Account.id →
      a.domain ∈ after.names := by
  -- An account that was there is one that has to be in a domain.
  have hold : ∀ a ∈ before.accounts, a.id ∈ created ∨ a.id ∉ before.accounts.map Account.id →
      a.id ∈ created := by
    intro a ha hid
    rcases hid with hid | hid
    · exact hid
    · exact absurd (mem_map_of_mem ha) hid
  intro a ha hid
  cases h with
  | unchanged => exact hbefore a ha (hold a ha hid)
  | domainCreated =>
    rw [Hosting.names, map_append]
    exact mem_append_left _ (hbefore a ha (hold a ha hid))
  | domainUpdated _ _ _ hnames =>
    rw [Hosting.names, hnames]
    exact hbefore a ha (hold a ha hid)
  | domainDeleted id =>
    obtain ⟨d, hd, hname⟩ := mem_map.mp (hbefore a ha (hold a ha hid))
    have hkept := hvacant id rfl a ha (hold a ha hid) d hd hname
    exact mem_map.mpr ⟨d, mem_filter.mpr ⟨hd, by simpa using hkept⟩, hname⟩
  | accountCreated _ _ _ _ _ hdomain =>
    rcases mem_append.mp ha with ha | ha
    · exact hbefore a ha (hold a ha hid)
    · obtain rfl := mem_singleton.mp ha
      exact hdomain
  | accountDeleted =>
    have ha := mem_of_mem_filter ha
    exact hbefore a ha (hold a ha hid)

theorem Ledger.Hosted.step (h : l.Hosted) (hkind : req.endpoint.hosting) (hvacates : vacates l req)
    (hstep : l.serve P config req = some l') : l'.Hosted := by
  cases hstep
  intro a ha hid
  have hcreated := (mem_filter.mp hid).2
  refine (serve_hosts P config l.state hkind).keeps h (fun id he a ha hid d hd hname => ?_) a ha ?_
  · rw [vacates, he] at hvacates
    have hall := all_eq_true.mp hvacates a
      (mem_filter.mpr ⟨ha, contains_iff_mem.mpr hid⟩)
    have hrow := all_eq_true.mp hall d hd
    simpa [hname] using hrow
  · simpa [AppState.hosting] using hcreated

/-- As long as domains are deleted only when no account made through the interface is in them, the
domain of every such account is in the table. -/
theorem mailboxes_hosted (P : Primitives) (config : Config) (s : AppState) (requests : List Request)
    (l : Ledger) (hkind : ∀ req ∈ requests, req.endpoint.hosting)
    (hrun : run (Ledger.serve P config) (.start s) requests = some l)
    (hvacates : Along (Ledger.serve P config) (fun l req => vacates l req = true) (.start s)
      requests) :
    ∀ a ∈ l.state.accounts, a.id ∈ l.created →
      a.domain ∈ l.state.adminStore.domains.map Domain.name := by
  have hkinds : Along (Ledger.serve P config) (fun _ req => req.endpoint.hosting = true)
      (.start s) requests := by
    clear hrun hvacates
    generalize Ledger.start s = l₀
    induction requests generalizing l₀ with
    | nil => trivial
    | cons req _ ih =>
      exact ⟨hkind req mem_cons_self, fun t _ => ih (fun r hr => hkind r (mem_cons_of_mem _ hr)) t⟩
  exact run_invariant (I := Ledger.Hosted)
    (fun _ _ _ h hG hstep => h.step hG.1 hG.2 hstep) (fun a _ hid => absurd hid not_mem_nil)
    (hkinds.and hvacates) hrun

end

/-! ## An administrator and their first domain -/

def sampleSignedIn : AppState :=
  sampleAfter (sampleLogin ++
    [⟨sampleIo 2, sampleAuthorization 1,
      .changePassword "first password" "second password"⟩])

def sampleAsk (seed : UInt8) (endpoint : Endpoint) : Request :=
  ⟨sampleIo seed, sampleAuthorization 1, endpoint⟩

def sampleTables (l : Ledger) : List String × List String :=
  (l.state.adminStore.domains.map fun d => String.ofList d.name,
    (l.state.accounts.filter fun a => l.created.contains a.id).map fun a =>
      String.ofList (address a))

def sampleMoveIn : List Request :=
  [sampleAsk 3 (.createDomain "Example.com" none),
   sampleAsk 4 (.createAccount "alice" "example.com" "a long password")]

def sampleMoveOut : List Request :=
  sampleMoveIn ++ [sampleAsk 5 (.createDomain "example.net" none),
    sampleAsk 6 (.createAccount "bob" "example.net" "a long password"),
    sampleAsk 7 (.deleteAccount 1), sampleAsk 8 (.deleteDomain 1)]

theorem mailboxes_hosted_moveOut :
    ∃ l, run (Ledger.serve samplePrimitives sampleConfig) (.start sampleSignedIn) sampleMoveOut =
        some l ∧
      sampleTables l = (["example.net"], ["bob@example.net"]) ∧
      ∀ a ∈ l.state.accounts, a.id ∈ l.created →
        a.domain ∈ l.state.adminStore.domains.map Domain.name := by
  have hvacates : Along (Ledger.serve samplePrimitives sampleConfig)
      (fun l req => vacates l req = true) (.start sampleSignedIn) sampleMoveOut := by
    decide +kernel
  have hends : (run (Ledger.serve samplePrimitives sampleConfig) (.start sampleSignedIn)
      sampleMoveOut).map sampleTables = some (["example.net"], ["bob@example.net"]) := by
    decide +kernel
  obtain ⟨l, hrun, htables⟩ := Option.map_eq_some_iff.mp hends
  exact ⟨l, hrun, htables, mailboxes_hosted samplePrimitives sampleConfig sampleSignedIn
    sampleMoveOut l (by decide +kernel) hrun hvacates⟩

/-- The domain is deleted with a mailbox in it. -/
theorem mailbox_without_domain :
    (run (Ledger.serve samplePrimitives sampleConfig) (.start sampleSignedIn)
      (sampleMoveIn ++ [sampleAsk 5 (.deleteDomain 1)])).map sampleTables =
        some ([], ["alice@example.com"]) := by
  decide +kernel

end Litterae.Admin
