import Litterae.Admin.Gate
import Litterae.Foundations.Program
import Litterae.Foundations.Run
import Litterae.Login

/-! # Login attempts in flight together

Each listener has one throttle and two permits for password checks. A handler asks the throttle,
looks the account up, waits for a permit, hands the password to a blocking task, which drops the
permit when it is over, and then tells the throttle how it went.
-/

namespace Litterae.Login
open Foundations Exec Program Bool List

/-- The calls of a login handler: `A` is what names the account, `B` what its credential opens, `α`
the handler's result. -/
inductive Op (A B : Type) where
  | throttled (key : Text)
  | lookUp (localPart domain : Text)
  | acquirePermit
  | startTask (key : Text)
  | endTask (account : A) (password : Text)
  | recordFailure (key : Text)
  | recordSuccess (key : Text)
  | logFailure (detail : Text)
  | letIn (account : A) (found : B) (detail : Text)

abbrev Op.Ret {A B : Type} (α : Type) : Op A B → Type
  | .throttled _ => Bool
  | .lookUp _ _ => Option A
  | .endTask _ _ => Option B
  | .letIn _ _ _ => α
  | _ => Unit

def Op.waits {A B : Type} : Op A B → Bool
  | .lookUp _ _ | .acquirePermit | .startTask _ => true
  | _ => false

def Op.early {A B : Type} : Op A B → Bool
  | .throttled _ | .lookUp _ _ | .acquirePermit => true
  | _ => false

def Op.records {A B : Type} : Op A B → Bool
  | .recordFailure _ | .recordSuccess _ => true
  | _ => false

def Op.isAcquire {A B : Type} : Op A B → Bool
  | .acquirePermit => true
  | _ => false

/-- A handler with result `α`, or a part of it with result `β`. -/
abbrev Prog (A B ε α β : Type) := Program (Op A B) (Op.Ret α) ε β

abbrev Answered (A B α : Type) := @Done (Op A B) (Op.Ret α)

abbrev call {A B ε α : Type} (op : Op A B) : Prog A B ε α (Op.Ret α op) :=
  perform op

/-- One listener: its throttle, the clock it reads, what the calls do, and its handler. -/
structure Listener (σ Io Request A B ε α : Type) where
  throttle : σ → LoginThrottle
  atInstant : ℕ → Io → Io
  sem : Io → (op : Op A B) → Exec σ ε (Op.Ret α op)
  program : Request → Prog A B ε α α

structure Hall (σ Request A B ε α : Type) where
  pool : Pool σ Request (Op A B) (Op.Ret α) ε α
  clock : ℕ
  permits : ℕ

inductive Act (Io Request : Type) where
  | arrive (request : Request)
  | wait (duration : ℕ)
  | perform (i : ℕ) (io : Io)

section
variable {σ Io Request A B ε α : Type}

def Hall.opened (s : σ) (clock : ℕ) : Hall σ Request A B ε α :=
  { pool := { shared := s, flights := [], log := [] }, clock, permits := 2 }

/-- The throttle has let the attempt pass under `key`. -/
def passed (key : Text) : Answered A B α → Bool
  | ⟨.throttled k, locked⟩ => k == key && !locked
  | _ => false

/-- The throttle has let attempt `i` pass under `key`, and its task is still to start. -/
def Hall.waiting (h : Hall σ Request A B ε α) (i : ℕ) (key : Text) : Bool :=
  (trace i h.pool.log).any (passed key) && (h.pool.next i).any Op.waits

namespace Listener
variable (L : Listener σ Io Request A B ε α)

/-- The permits after a call: `acquire_owned` takes one if it returns, the end of a task gives one
back. -/
def permitsAfter (io : Io) (h : Hall σ Request A B ε α) : Option (Op A B) → ℕ
  | some .acquirePermit =>
    if (L.sem io .acquirePermit h.pool.shared).1.isOk then h.permits - 1 else h.permits
  | some (.endTask _ _) => h.permits + 1
  | _ => h.permits

/-- A call happens at the present instant; a permit is acquired when one is free. -/
def step (h : Hall σ Request A B ε α) : Act Io Request → Option (Hall σ Request A B ε α)
  | .arrive request => some { h with pool := h.pool.launch L.program request }
  | .wait duration => some { h with clock := h.clock + duration }
  | .perform i io =>
    if (h.pool.next i).any Op.isAcquire && h.permits == 0 then none
    else
      some
        { h with
          pool := h.pool.perform (L.sem (L.atInstant h.clock io)) i
          permits := L.permitsAfter (L.atInstant h.clock io) h (h.pool.next i) }

def sparesWaiting (h : Hall σ Request A B ε α) : Act Io Request → Bool
  | .perform i _ =>
    match h.pool.next i with
    | some (.recordFailure key) => (List.range h.pool.flights.length).all fun j => !h.waiting j key
    | _ => true
  | _ => true

/-- Every task that is about to start finds its key unlocked. -/
def StartsUnlocked (h : Hall σ Request A B ε α) : Prop :=
  ∀ i key, h.pool.next i = some (.startTask key) →
    (L.throttle h.pool.shared).check h.clock key = .ok ()

end Listener

/-! ## What the handlers have in common -/

/-- The throttle is asked first, and the task starts only after it has let the attempt pass. -/
def Ordered (tr : List (Answered A B α)) : Prog A B ε α α → Prop
  | .call (.throttled _) _ => tr = []
  | .call (.lookUp _ _) _ | .call .acquirePermit _ => ∀ d ∈ tr, d.op.early = true
  | .call (.startTask key) _ => (∀ d ∈ tr, d.op.early = true) ∧ tr.any (passed key) = true
  | _ => True

/-- What the calls do to the throttle at the instant they happen, and the order they come in. -/
structure Listener.Throttled (L : Listener σ Io Request A B ε α) : Prop where
  answer : ∀ now io key s, L.sem (L.atInstant now io) (.throttled key) s =
    (.ok (!((L.throttle s).check now key).isOk), s)
  failure : ∀ now io key s, L.throttle (L.sem (L.atInstant now io) (.recordFailure key) s).2 =
    (L.throttle s).recordFailure now key
  success : ∀ io key s, L.throttle (L.sem io (.recordSuccess key) s).2 =
    (L.throttle s).recordSuccess key
  others : ∀ io op s, op.records = false → L.throttle (L.sem io op s).2 = L.throttle s
  order : ∀ request, (L.program request).Always Ordered []

section
variable {L : Listener σ Io Request A B ε α} {h h' : Hall σ Request A B ε α} {a : Act Io Request}
  {io : Io} {op : Op A B} {key : Text} {i : ℕ}

theorem lockEnd_recordSuccess_le {t : LoginThrottle} {key other : Text} :
    (t.recordSuccess key).lockEnd other ≤ t.lockEnd other := by
  unfold LoginThrottle.lockEnd LoginThrottle.recordSuccess LoginThrottle.put
  by_cases h : other = key <;> simp [h]

theorem Listener.Throttled.lockEnd_le (hL : L.Throttled) {now : ℕ} {s : σ}
    (hop : op ≠ .recordFailure key) :
    (L.throttle (L.sem (L.atInstant now io) op s).2).lockEnd key ≤ (L.throttle s).lockEnd key := by
  cases op with
  | recordFailure other =>
    have hne : key ≠ other := fun heq => hop (by rw [heq])
    rw [hL.failure, LoginThrottle.lockEnd_recordFailure, if_neg hne]
  | recordSuccess =>
    rw [hL.success]
    exact lockEnd_recordSuccess_le
  | _ => rw [hL.others _ _ _ rfl]

/-- The attempts follow their handlers, and the key of each that waits is unlocked. -/
structure Unlocked (L : Listener σ Io Request A B ε α) (h : Hall σ Request A B ε α) : Prop where
  lawful : Pool.Lawful (fun _ => Ordered) h.pool
  counted : Pool.Lawful.Counted h.pool
  free : ∀ i key, h.waiting i key = true → (L.throttle h.pool.shared).lockEnd key ≤ h.clock

theorem Ordered.early {tr : List (Answered A B α)} {p : Prog A B ε α α} (hp : Ordered tr p)
    (hwaits : p.next.any Op.waits) : ∀ d ∈ tr, d.op.early := by
  cases p with
  | done => cases hwaits
  | call op =>
    cases op with
    | lookUp | acquirePermit => exact hp
    | startTask => exact hp.1
    | _ => cases hwaits

theorem Unlocked.other (hL : L.Throttled) (hI : Unlocked L h) {i j : ℕ}
    (hguard : Listener.sparesWaiting h (.perform i io)) (hnext : h.pool.next i = some op)
    (hwait : h.waiting j key) :
    (L.throttle (L.sem (L.atInstant h.clock io) op h.pool.shared).2).lockEnd key ≤ h.clock := by
  by_cases hop : op = .recordFailure key
  · subst hop
    have hj : j < h.pool.flights.length := by
      by_contra hnot
      have hnone : h.pool.next j = none := by
        rw [Pool.next, List.getElem?_eq_none_iff.mpr (Nat.le_of_not_lt hnot)]
        rfl
      simp [Hall.waiting, hnone] at hwait
    simp only [Listener.sparesWaiting, hnext, all_eq_true, mem_range] at hguard
    have hspared := hguard j hj
    rw [hwait] at hspared
    cases hspared
  · exact le_trans (hL.lockEnd_le hop) (hI.free j key hwait)

theorem Unlocked.own (hL : L.Throttled) (hI : Unlocked L h) {request : Request}
    {k : Op.Ret α op → Prog A B ε α α} {b : Op.Ret α op} {t : σ}
    (hi : h.pool.flights[i]? = some ⟨request, .call op k⟩)
    (hsem : L.sem (L.atInstant h.clock io) op h.pool.shared = (.ok b, t))
    (hpassed : (trace i h.pool.log ++ [(⟨op, b⟩ : Answered A B α)]).any (passed key))
    (hwaits : (k b).next.any Op.waits) : (L.throttle t).lockEnd key ≤ h.clock := by
  obtain ⟨hhere, hrest⟩ := hI.lawful i _ hi
  have hearly := (hrest b).here.early hwaits ⟨op, b⟩ (by simp)
  have hbefore : op.waits → (trace i h.pool.log).any (passed key) →
      (L.throttle t).lockEnd key ≤ h.clock := by
    intro hop htrace
    have hfree := hI.free i key (by
      simp only [Hall.waiting, htrace, Pool.next_of_flight hi, Option.any_some, hop, Bool.and_self])
    have hle : (L.throttle (L.sem (L.atInstant h.clock io) op h.pool.shared).2).lockEnd key ≤
        (L.throttle h.pool.shared).lockEnd key := hL.lockEnd_le (by rintro rfl; cases hop)
    rw [hsem] at hle
    exact le_trans hle hfree
  cases op with
  | throttled =>
    rw [hhere] at hpassed
    simp only [nil_append, any_cons, any_nil, Bool.or_false, passed,
      Bool.and_eq_true, beq_iff_eq, Bool.not_eq_true'] at hpassed
    obtain ⟨rfl, rfl⟩ := hpassed
    rw [hL.answer, Prod.mk.injEq, Res.ok.injEq] at hsem
    obtain ⟨hunlocked, rfl⟩ := hsem
    rw [LoginThrottle.check_eq] at hunlocked
    by_contra hlocked
    rw [if_pos (Nat.lt_of_not_le hlocked)] at hunlocked
    cases hunlocked
  | lookUp localPart domain | acquirePermit => exact hbefore rfl (by simpa [passed] using hpassed)
  | _ => cases hearly

theorem Unlocked.perform (hL : L.Throttled) (hI : Unlocked L h)
    (hguard : Listener.sparesWaiting h (.perform i io)) (permits : ℕ) :
    Unlocked L
      { h with pool := h.pool.perform (L.sem (L.atInstant h.clock io)) i, permits } := by
  refine ⟨hI.lawful.perform (fun _ tr r hr => ?_) i, hI.counted.perform i, fun j key hwait => ?_⟩
  · cases r <;> trivial
  generalize hq : h.pool.perform (L.sem (L.atInstant h.clock io)) i = q at hwait ⊢
  simp only [Hall.waiting, and_eq_true] at hwait
  obtain ⟨hpassed, hwaits⟩ := hwait
  have hother : i ≠ j → ∀ {op}, h.pool.next i = some op → (trace j h.pool.log).any (passed key) →
      (L.throttle (L.sem (L.atInstant h.clock io) op h.pool.shared).2).lockEnd key ≤ h.clock := by
    intro hij op hnext hpassed
    rw [Pool.next, ← hq, Pool.flight_perform_of_ne hij] at hwaits
    refine hI.other (j := j) hL hguard hnext ?_
    simp only [Hall.waiting, Pool.next, hpassed, hwaits, Bool.and_self]
  cases Pool.performed hq with
  | idle => exact hI.free j key (by simp only [Hall.waiting, hpassed, hwaits, Bool.and_self])
  | @answered request op k b t hi hsem =>
    by_cases hij : i = j
    · subst hij
      rw [trace_append_self] at hpassed
      rw [Pool.next, List.getElem?_set_self (List.getElem?_eq_some_iff.mp hi).1] at hwaits
      exact hI.own hL hi hsem hpassed hwaits
    · rw [trace_append_of_ne hij] at hpassed
      have hlock := hother hij (Pool.next_of_flight hi) hpassed
      rwa [hsem] at hlock
  | failed hi ht =>
    by_cases hij : i = j
    · subst hij
      rw [Pool.next, List.getElem?_set_self (List.getElem?_eq_some_iff.mp hi).1] at hwaits
      cases hwaits
    · exact ht ▸ hother hij (Pool.next_of_flight hi) hpassed

theorem Unlocked.step (hL : L.Throttled) (hI : Unlocked L h) (hguard : Listener.sparesWaiting h a)
    (hstep : L.step h a = some h') : Unlocked L h' := by
  cases a with
  | arrive request =>
    obtain rfl := Option.some.inj hstep
    refine ⟨hI.lawful.launch hL.order hI.counted request, hI.counted.launch request,
      fun i key hwait => hI.free i key ?_⟩
    simp only [Hall.waiting, and_eq_true] at hwait ⊢
    obtain ⟨hpassed, hwaits⟩ := hwait
    refine ⟨hpassed, ?_⟩
    -- nothing has been answered to the attempt that has just arrived
    have hi : i < h.pool.flights.length := by
      obtain ⟨d, hd, -⟩ := any_eq_true.mp hpassed
      exact hI.counted _ (mem_trace.mp hd)
    rw [Pool.next, Pool.launch, List.getElem?_append_left hi] at hwaits
    exact hwaits
  | wait =>
    obtain rfl := Option.some.inj hstep
    exact ⟨hI.lawful, hI.counted, fun i key hwait =>
      le_trans (hI.free i key hwait) (Nat.le_add_right _ _)⟩
  | perform =>
    simp only [Listener.step] at hstep
    split at hstep
    · cases hstep
    · obtain rfl := Option.some.inj hstep
      exact hI.perform hL hguard _

theorem Unlocked.startsUnlocked (hI : Unlocked L h) : L.StartsUnlocked h := by
  intro i key hnext
  obtain ⟨request, k, hi⟩ := Pool.flight_of_next hnext
  obtain ⟨-, hpassed⟩ := (hI.lawful i _ hi).here
  have hfree := hI.free i key (by
    simp only [Hall.waiting, hpassed, hnext, Option.any_some, Op.waits, Bool.and_self])
  rw [LoginThrottle.check_eq, if_neg (Nat.not_lt_of_le hfree)]

theorem Listener.Throttled.starts_unlocked (hL : L.Throttled) {s : σ} {clock : ℕ}
    {as : List (Act Io Request)}
    (hguard : Along L.step (fun h a => Listener.sparesWaiting h a = true) (Hall.opened s clock) as)
    (hrun : run L.step (Hall.opened s clock) as = some h) : L.StartsUnlocked h := by
  have hstart : Unlocked L (Hall.opened s clock) := by
    refine ⟨fun i f hi => ?_, fun e he => ?_, fun i key hwait => ?_⟩
    · simp [Hall.opened] at hi
    · simp [Hall.opened] at he
    · simp [Hall.opened, Hall.waiting, trace] at hwait
  exact (run_invariant (fun _ _ _ hI hguard hstep => hI.step hL hguard hstep) hstart hguard
    hrun).startsUnlocked

end
end
/-! ## The mailbox API -/

section
open Jmap

structure UnlockRequest where
  localPart : Text
  domain : Text
  password : Text
  deriving DecidableEq

def UnlockRequest.identity (r : UnlockRequest) : Text := loginIdentity r.localPart r.domain

/-- The blocking task of `unlock`: a credential of the wrong scope counts as a wrong one. -/
def unlockTask (io : UnlockIo) (account : Account) (password : Text) :
    Exec Jmap.AppState Jmap.StatusCode (Option UnlockedAccount) :=
  match io.unlockAny account password with
  | .lost => Exec.throw .internalServerError
  | .refused => pure none
  | .unlocked unlocked scope used => do
    match ← (onStores (touchAppPassword io used)).attempt, scope with
    | .ok (), .full => pure (some unlocked)
    | _, _ => pure none

def unlockSem (io : UnlockIo) :
    (op : Op Account UnlockedAccount) → Exec Jmap.AppState Jmap.StatusCode (Op.Ret (Text × ℤ) op)
  | .throttled key => do
    let s ← Exec.get
    pure (!(s.loginThrottle.check (io.instants 0) key).isOk)
  | .lookUp localPart domain => do
    (onStores (sql io.faults (.accountByAddress 0))).mapErr fun _ => .internalServerError
    let s ← Exec.get
    pure (findByAddress s.stores.accounts localPart domain)
  | .acquirePermit => throwIf (!io.permit) .serviceUnavailable
  | .startTask _ => pure ()
  | .endTask account password => unlockTask io account password
  | .recordFailure key => onThrottle fun t => t.recordFailure (io.instants 1) key
  | .recordSuccess key => onThrottle fun t => t.recordSuccess key
  | .logFailure detail => audit io.auditOk "auth.unlock_failed" detail
  | .letIn account unlocked detail => do
    let token ← onSessions (SessionRegistry.create io.tokenBytes (io.instants 1) account.id unlocked
      { accountPub := account.accountPub, keyId := account.keyId, address := accountAddress account })
    audit io.auditOk "auth.unlock" detail
    pure (token, account.id)

abbrev UnlockProgram := Prog Account UnlockedAccount Jmap.StatusCode (Text × ℤ)

def unlockRefused (identity detail : Text) : UnlockProgram (Text × ℤ) := do
  call (.recordFailure identity)
  call (.logFailure detail)
  throw .unauthorized

def unlockVerified (identity password : Text) (account : Account) : UnlockProgram (Text × ℤ) := do
  call .acquirePermit
  call (.startTask identity)
  let verified ← call (.endTask account password)
  match verified with
  | none => unlockRefused identity (accountAddress account)
  | some unlocked => do
    call (.recordSuccess identity)
    call (.letIn account unlocked (accountAddress account))

def unlockProgram (r : UnlockRequest) : UnlockProgram (Text × ℤ) := do
  let locked ← call (.throttled r.identity)
  throwIf locked .tooManyRequests
  let found ← call (.lookUp r.localPart r.domain)
  match found with
  | none => unlockRefused r.identity r.identity
  | some account => unlockVerified r.identity r.password account

def jmapListener :
    Listener Jmap.AppState UnlockIo UnlockRequest Account UnlockedAccount Jmap.StatusCode (Text × ℤ) where
  throttle := Jmap.AppState.loginThrottle
  atInstant now io := { io with instants := fun _ => now }
  sem := unlockSem
  program := unlockProgram

theorem unlockSem_same (io : UnlockIo) (op : Op Account UnlockedAccount) (hop : op.records = false) :
    Keeps (Same Jmap.AppState.loginThrottle) (unlockSem io op) := by
  have hstores : ∀ {ε β : Type} (x : Exec Stores ε β),
      Keeps (Same Jmap.AppState.loginThrottle) (onStores x) := fun _ _ => rfl
  have haudit : ∀ (action : String) (detail : Text), Keeps
      (Same Jmap.AppState.loginThrottle)
      (audit io.auditOk action detail : Exec Jmap.AppState Jmap.StatusCode Unit) := by
    intro action detail
    refine .modify fun s => ?_
    split <;> rfl
  cases op with
  | throttled => exact .bind .get fun _ => .pure
  | lookUp => exact .bind (.mapErr (hstores _)) fun _ => .bind .get fun _ => .pure
  | acquirePermit => exact .throwIf
  | startTask => exact .pure
  | endTask account password =>
    simp only [unlockSem, unlockTask]
    cases io.unlockAny account password with
    | lost => exact .throw
    | refused => exact .pure
    | unlocked _ scope =>
      refine .bind (.attempt (hstores _)) fun touched => ?_
      cases touched <;> cases scope <;> exact .pure
  | logFailure => exact haudit _ _
  | letIn => exact .bind (.update fun _ => rfl) fun _ => .bind (haudit _ _) fun _ => .pure
  | recordFailure | recordSuccess => cases hop

theorem unlockProgram_ordered (r : UnlockRequest) : (unlockProgram r).Always Ordered [] := by
  refine .perform rfl fun locked => .throwIf trivial fun hlocked => .perform (by simp [Ordered, Op.early]) ?_
  intro found
  cases found with
  | none => exact .perform trivial fun _ => .perform trivial fun _ => trivial
  | some =>
    refine .perform (by simp [Ordered, Op.early]) fun _ => .perform ⟨by simp [Op.early], ?_⟩ fun _ => ?_
    · simp [passed, hlocked]
    · refine .perform trivial fun verified => ?_
      cases verified with
      | none | some unlocked => exact .perform trivial fun _ => .perform trivial fun _ => trivial

theorem jmapListener_throttled : jmapListener.Throttled where
  answer _ _ _ _ := rfl
  failure _ _ _ _ := rfl
  success _ _ _ := rfl
  others io op s hop := unlockSem_same io op hop s
  order := unlockProgram_ordered

end

/-! ## Submission -/

section
open Smtp.Submission

structure PlainRequest where
  authcid : Text
  localPart : Text
  domain : Text
  passwd : Text
  deriving DecidableEq

abbrev AuthProgram := Prog Account Unit Unit (Option Account)

def authSem (io : Io) : (op : Op Account Unit) → Exec World Unit (Op.Ret (Option Account) op)
  | .throttled key => do
    let w ← Exec.get
    pure (!(w.throttle.check io.instant key).isOk)
  | .lookUp localPart domain => do
    let w ← Exec.get
    pure (if io.faults (.accountByAddress 0) = none then
      findByAddress w.stores.accounts localPart domain else none)
  | .acquirePermit => pure ()
  | .startTask _ => pure ()
  | .endTask account passwd =>
    match io.unlockAny account passwd with
    | none => Exec.throw ()
    | some true => pure (some ())
    | some false => pure none
  | .recordFailure key =>
    Exec.modify fun w => { w with throttle := w.throttle.recordFailure io.instant key }
  | .recordSuccess key => Exec.modify fun w => { w with throttle := w.throttle.recordSuccess key }
  | .logFailure detail => Exec.modify (auditLog io "auth.submission_failed" detail)
  | .letIn account _ detail => do
    Exec.modify (auditLog io "auth.submission" detail)
    pure (some account)

def authRefused (authcid : Text) : AuthProgram (Option Account) := do
  call (.recordFailure authcid)
  call (.logFailure authcid)
  pure none

def authVerified (authcid passwd : Text) (account : Account) : AuthProgram (Option Account) := do
  call .acquirePermit
  call (.startTask authcid)
  let verified ← call (.endTask account passwd)
  match verified with
  | none => authRefused authcid
  | some () => do
    call (.recordSuccess authcid)
    call (.letIn account () authcid)

def authProgram (r : PlainRequest) : AuthProgram (Option Account) := do
  let locked ← call (.throttled r.authcid)
  if locked then pure none
  else do
    let found ← call (.lookUp r.localPart r.domain)
    match found with
    | none => authRefused r.authcid
    | some account => authVerified r.authcid r.passwd account

def submissionListener : Listener World Io PlainRequest Account Unit Unit (Option Account) where
  throttle := World.throttle
  atInstant now io := { io with instant := now }
  sem := authSem
  program := authProgram

theorem authSem_same (io : Io) (op : Op Account Unit) (hop : op.records = false) :
    Keeps (Same World.throttle) (authSem io op) := by
  have haudit : ∀ (action : String) (detail : Text), Keeps (Same World.throttle)
      (Exec.modify (auditLog io action detail) : Exec World Unit Unit) := by
    intro action detail
    refine .modify fun w => ?_
    unfold auditLog
    split <;> rfl
  cases op with
  | throttled key | lookUp localPart domain => exact .bind .get fun _ => .pure
  | acquirePermit | startTask key => exact .pure
  | endTask account passwd =>
    simp only [authSem]
    match io.unlockAny account passwd with
    | none => exact .throw
    | some true | some false => exact .pure
  | logFailure => exact haudit _ _
  | letIn => exact .bind (haudit _ _) fun _ => .pure
  | recordFailure | recordSuccess => cases hop

theorem authProgram_ordered (r : PlainRequest) : (authProgram r).Always Ordered [] := by
  refine .perform rfl fun locked => ?_
  cases locked with
  | true => trivial
  | false =>
    refine .perform (by simp [Ordered, Op.early]) fun found => ?_
    cases found with
    | none => exact .perform trivial fun _ => .perform trivial fun _ => trivial
    | some =>
      refine .perform (by simp [Ordered, Op.early]) fun _ => .perform ⟨by simp [Op.early], ?_⟩ fun _ => ?_
      · simp [passed]
      · refine .perform trivial fun verified => ?_
        cases verified with
        | none | some u => exact .perform trivial fun _ => .perform trivial fun _ => trivial

theorem submissionListener_throttled : submissionListener.Throttled where
  answer _ _ _ _ := rfl
  failure _ _ _ _ := rfl
  success _ _ _ := rfl
  others io op s hop := authSem_same io op hop s
  order := authProgram_ordered

end
/-! ## Administration -/

section
open Admin

structure LoginRequest where
  username : Text
  password : Text
  deriving DecidableEq

def loginSem (P : Primitives) (io : Io) :
    (op : Op Text (AdminRecord × Block 32)) → Exec AppState StatusCode (Op.Ret Response op)
  | .throttled key => do
    let s ← Exec.get
    pure (!(s.loginThrottle.check (io.instants 0) key).isOk)
  | .lookUp _ _ => pure none
  | .acquirePermit => Handlers.acquirePermit io
  | .startTask _ => pure ()
  | .endTask username password =>
    orInternal (onAdmin (AdminStore.verifyLogin P io.faults username (utf8 password)))
  | .recordFailure key => onThrottle fun t => t.recordFailure (io.instants 1) key
  | .recordSuccess key => onThrottle fun t => t.recordSuccess key
  | .logFailure detail => Handlers.audit P io "auth.login_failed" detail
  | .letIn _ (admin, wrapKey) detail => do
    let token ← onSessions (AdminSessionRegistry.create io.tokenBytes (io.instants 1) admin.id
      wrapKey admin.mustChangePassword admin.totpEnabled)
    Handlers.audit P io "auth.login" detail
    pure (.login token admin.mustChangePassword admin.totpEnabled)

abbrev LoginProgram := Prog Text (AdminRecord × Block 32) StatusCode Response

def loginProgram (r : LoginRequest) : LoginProgram Response := do
  let locked ← call (.throttled r.username)
  throwIf locked .tooManyRequests
  call .acquirePermit
  call (.startTask r.username)
  let verified ← call (.endTask r.username r.password)
  match verified with
  | none => do
    call (.recordFailure r.username)
    call (.logFailure r.username)
    throw .unauthorized
  | some found => do
    call (.recordSuccess r.username)
    call (.letIn r.username found found.1.username)

def adminListener (P : Primitives) :
    Listener AppState Io LoginRequest Text (AdminRecord × Block 32) StatusCode Response where
  throttle := AppState.loginThrottle
  atInstant now io := { io with instants := fun _ => now }
  sem := loginSem P
  program := loginProgram

theorem loginSem_same (P : Primitives) (io : Io) (op : Op Text (AdminRecord × Block 32))
    (hop : op.records = false) :
    Keeps (Same AppState.loginThrottle) (loginSem P io op) := by
  have haudit : ∀ (action : String) (detail : Text),
      Keeps (Same AppState.loginThrottle) (Handlers.audit P io action detail) :=
    fun action detail => .ignore fun _ => rfl
  cases op with
  | throttled => exact .bind .get fun _ => .pure
  | lookUp localPart domain | startTask key => exact .pure
  | acquirePermit => exact .throwIf
  | endTask => exact .mapErr fun _ => rfl
  | logFailure => exact haudit _ _
  | letIn => exact .bind (.update fun _ => rfl) fun _ => .bind (haudit _ _) fun _ => .pure
  | recordFailure | recordSuccess => cases hop

theorem loginProgram_ordered (r : LoginRequest) : (loginProgram r).Always Ordered [] := by
  refine .perform rfl fun locked => .throwIf trivial fun hlocked => ?_
  refine .perform (by simp [Ordered, Op.early]) fun _ => .perform ⟨by simp [Op.early], ?_⟩ fun _ => ?_
  · simp [passed, hlocked]
  · refine .perform trivial fun verified => ?_
    cases verified with
    | none | some found => exact .perform trivial fun _ => .perform trivial fun _ => trivial

theorem adminListener_throttled (P : Primitives) : (adminListener P).Throttled where
  answer _ _ _ _ := rfl
  failure _ _ _ _ := rfl
  success _ _ _ := rfl
  others io op s hop := loginSem_same P io op hop s
  order := loginProgram_ordered

end

/-! ## The three listeners -/

/-- On every listener, in every run in which no failure is recorded under a key that an attempt waits
under, each task that is about to start finds its key unlocked. -/
theorem logins_start_unlocked (P : Primitives) :
    (∀ s clock as h,
      Along jmapListener.step (fun h a => Listener.sparesWaiting h a = true) (Hall.opened s clock) as →
      run jmapListener.step (Hall.opened s clock) as = some h → jmapListener.StartsUnlocked h) ∧
    (∀ s clock as h,
      Along submissionListener.step (fun h a => Listener.sparesWaiting h a = true)
        (Hall.opened s clock) as →
      run submissionListener.step (Hall.opened s clock) as = some h →
      submissionListener.StartsUnlocked h) ∧
    ∀ s clock as h,
      Along (adminListener P).step (fun h a => Listener.sparesWaiting h a = true)
        (Hall.opened s clock) as →
      run (adminListener P).step (Hall.opened s clock) as = some h →
      (adminListener P).StartsUnlocked h :=
  ⟨fun _ _ _ _ => jmapListener_throttled.starts_unlocked,
    fun _ _ _ _ => submissionListener_throttled.starts_unlocked,
    fun _ _ _ _ => (adminListener_throttled P).starts_unlocked⟩

section
variable {σ Io Request A B ε α : Type}

def performs (i n : ℕ) (io : Io) : List (Act Io Request) := List.replicate n (.perform i io)

/-- Attempt `i` is about to start its task, and whether its key is unlocked. -/
def Listener.startOf (L : Listener σ Io Request A B ε α) (i : ℕ) (h : Hall σ Request A B ε α) :
    Option Bool :=
  match h.pool.next i with
  | some (.startTask key) => some ((L.throttle h.pool.shared).check h.clock key).isOk
  | _ => none

/-- Two wrong passwords at once: both pass the throttle, `early` calls each, before the first of them
is verified and recorded; the second then gets its permit. -/
def raced (early : ℕ) (r : Request) (io : Io) : List (Act Io Request) :=
  [.arrive r, .arrive r] ++ performs 0 early io ++ performs 1 early io ++ performs 0 4 io ++
    performs 1 1 io

def spaced (early : ℕ) (r : Request) (io : Io) : List (Act Io Request) :=
  [.arrive r, .arrive r] ++ performs 0 early io ++ performs 0 4 io ++ [.wait 2] ++
    performs 1 early io ++ performs 1 1 io

end

def wrongUnlock : UnlockRequest :=
  { localPart := "alice", domain := "example.com", password := "guess" }

def wrongPlain : PlainRequest :=
  { authcid := "alice@example.com", localPart := "alice"
    domain := "example.com", passwd := "guess" }

def wrongLogin : LoginRequest := { username := "admin", password := "guess" }

def aliceWorld : Smtp.Submission.World := { stores := aliceStores, throttle := .new 1 60 }

def adminState : Admin.AppState :=
  (Admin.startup Admin.samplePrimitives (Admin.sampleIo 0) Admin.sampleKeys "admin"
    "first password" .fresh).getD .fresh

theorem logins_start_unlocked_spaced :
    (∃ h, run jmapListener.step (Hall.opened aliceState 5) (spaced 2 wrongUnlock aliceIo) = some h ∧
      jmapListener.startOf 1 h = some true ∧ jmapListener.StartsUnlocked h) ∧
    (∃ h, run submissionListener.step (Hall.opened aliceWorld 5)
        (spaced 2 wrongPlain aliceSubmissionIo) = some h ∧
      submissionListener.startOf 1 h = some true ∧ submissionListener.StartsUnlocked h) ∧
    ∃ h, run (adminListener Admin.samplePrimitives).step (Hall.opened adminState 5)
        (spaced 1 wrongLogin (Admin.sampleIo 1)) = some h ∧
      (adminListener Admin.samplePrimitives).startOf 1 h = some true ∧
      (adminListener Admin.samplePrimitives).StartsUnlocked h := by
  obtain ⟨hjmap, hsubmission, hadmin⟩ := logins_start_unlocked Admin.samplePrimitives
  have hjmapEnds : (run jmapListener.step (Hall.opened aliceState 5)
      (spaced 2 wrongUnlock aliceIo)).map (jmapListener.startOf 1) = some (some true) := by
    decide +kernel
  have hsubmissionEnds : (run submissionListener.step (Hall.opened aliceWorld 5)
      (spaced 2 wrongPlain aliceSubmissionIo)).map (submissionListener.startOf 1) =
        some (some true) := by
    decide +kernel
  have hadminEnds : (run (adminListener Admin.samplePrimitives).step (Hall.opened adminState 5)
      (spaced 1 wrongLogin (Admin.sampleIo 1))).map
        ((adminListener Admin.samplePrimitives).startOf 1) = some (some true) := by
    decide +kernel
  obtain ⟨h, hrun, hstart⟩ := Option.map_eq_some_iff.mp hjmapEnds
  obtain ⟨h', hrun', hstart'⟩ := Option.map_eq_some_iff.mp hsubmissionEnds
  obtain ⟨h'', hrun'', hstart''⟩ := Option.map_eq_some_iff.mp hadminEnds
  exact ⟨⟨h, hrun, hstart, hjmap _ _ _ h (by decide +kernel) hrun⟩,
    ⟨h', hrun', hstart', hsubmission _ _ _ h' (by decide +kernel) hrun'⟩,
    h'', hrun'', hstart'', hadmin _ _ _ h'' (by decide +kernel) hrun''⟩

/-- On every listener the second of two attempts starts its task while its key is locked. -/
theorem waiting_login_starts_locked :
    (run jmapListener.step (Hall.opened aliceState 5) (raced 2 wrongUnlock aliceIo)).map
        (jmapListener.startOf 1) = some (some false) ∧
    (run submissionListener.step (Hall.opened aliceWorld 5) (raced 2 wrongPlain aliceSubmissionIo)).map
        (submissionListener.startOf 1) = some (some false) ∧
    (run (adminListener Admin.samplePrimitives).step (Hall.opened adminState 5)
        (raced 1 wrongLogin (Admin.sampleIo 1))).map
        ((adminListener Admin.samplePrimitives).startOf 1) = some (some false) := by
  refine ⟨?_, ?_, ?_⟩ <;> decide +kernel

end Litterae.Login
