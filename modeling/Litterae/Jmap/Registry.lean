import Litterae.Foundations.Run
import Litterae.Jmap.Session

/-! # Calls on the session registry in flight together (`jmap/src/session_store.rs`)

The registry has two kinds of locks: one around the map from tokens to sessions, and one around each
session.
-/

namespace Litterae.Jmap.Registry
open Foundations Option Bool

/-- `Arc<Mutex<Session>>`; `token` is the one the session was made for. -/
structure Cell where
  token : Text
  session : Session

inductive Method where
  | accountId
  | withAccount
  | withSession (f : Option (List Doc) → Option (List Doc))

def Method.leave : Method → Session → Session
  | .withSession f, s => { s with searchIndex := f s.searchIndex }
  | _, s => s

def refreshed (now : ℕ) (s : Session) : Session := { s with lastSeen := now }

/-- `create` is asked with the token that it draws. -/
inductive Request where
  | create (token : Text) (accountId : ℤ) (unlocked : UnlockedAccount) (identity : SessionIdentity)
  | look (token : Text) (method : Method)
  | remove (token : Text)

def Request.token : Request → Text
  | .create token _ _ _ | .look token _ | .remove token => token

inductive Answer where
  | token (token : Text)
  | session (session : Session)
  | absent
  | removed
  deriving DecidableEq

inductive Phase where
  | entered
  /-- `create` has read the clock. -/
  | minted (session : Session)
  | found (cell : ℕ)
  | locked (cell : ℕ)
  /-- The session was not overdue at `checked`. -/
  | live (cell checked : ℕ)
  /-- The closure runs. -/
  | inside (cell : ℕ)
  /-- The session was overdue, and is still to be removed. -/
  | overdue (cell : ℕ)
  | returned (answer : Answer)
  deriving DecidableEq

def Phase.holds (c : ℕ) : Phase → Bool
  | .locked d | .live d _ | .inside d => c == d
  | _ => false

def Phase.settled : Phase → Bool
  | .entered | .minted _ => false
  | _ => true

def Phase.isMinted : Phase → Bool
  | .minted _ => true
  | _ => false

/-- What has happened to tokens. A lookup passes when it refreshes `last_seen`; `checked` and `seen`
are its two readings of the clock. -/
inductive Event where
  | created (token : Text) (seen : ℕ)
  | removed (token : Text)
  | passed (call : ℕ) (token : Text) (checked seen : ℕ)
  | gone (token : Text)
  | expired (token : Text)
  deriving DecidableEq

def Event.token : Event → Text
  | .created token _ | .removed token | .passed _ token _ _ | .gone token | .expired token => token

def Event.ends (token : Text) : Event → Bool
  | .removed t | .gone t | .expired t => t == token
  | .created _ _ | .passed _ _ _ _ => false

def lastSeen (token : Text) : List Event → Option ℕ
  | [] => none
  | .created t seen :: older | .passed _ t _ seen :: older =>
    if t = token then some seen else lastSeen token older
  | _ :: older => lastSeen token older

structure Flight where
  request : Request
  began : List Event
  phase : Phase

structure World where
  sessions : Text → Option ℕ
  cells : List Cell
  idleTimeout : ℕ
  clock : ℕ
  flights : List Flight
  log : List Event

inductive Act where
  | launch (request : Request)
  | advance (call now : ℕ)

namespace World

def new (idleTimeout : ℕ) : World :=
  { sessions := fun _ => none, cells := [], idleTimeout, clock := 0, flights := [], log := [] }

def held (w : World) (c : ℕ) : Bool := w.flights.any fun f => f.phase.holds c

def move (w : World) (i now : ℕ) (phase : Phase) : World :=
  { w with clock := now, flights := w.flights.modify i fun f => { f with phase } }

def emit (w : World) (e : Event) : World := { w with log := e :: w.log }

def put (w : World) (token : Text) (c : Option ℕ) : World :=
  { w with sessions := fun t => if t = token then c else w.sessions t }

def store (w : World) (c : ℕ) (g : Session → Session) : World :=
  { w with cells := w.cells.modify c fun x => { x with session := g x.session } }

def insert (w : World) (token : Text) (session : Session) : World :=
  { w.put token (some w.cells.length) with cells := w.cells ++ [{ token, session }] }

def removeIfSame (w : World) (token : Text) (c : ℕ) : World :=
  if w.sessions token = some c then w.put token none else w

end World

/-- The next step of `account_id`, `with_account` or `with_session`. -/
def lookStep (w : World) (i now : ℕ) (token : Text) (method : Method) : Phase → Option World
  | .entered =>
    match w.sessions token with
    | none => some ((w.move i now (.returned .absent)).emit (.gone token))
    | some c => some (w.move i now (.found c))
  | .found c => if w.held c then none else some (w.move i now (.locked c))
  | .locked c =>
    (w.cells[c]?).map fun x =>
      if w.idleTimeout < now - x.session.lastSeen then w.move i now (.overdue c)
      else w.move i now (.live c now)
  | .live c checked =>
    some (((w.store c (refreshed now)).move i now (.inside c)).emit (.passed i token checked now))
  | .inside c =>
    (w.cells[c]?).map fun x => (w.store c method.leave).move i now (.returned (.session x.session))
  | .overdue c =>
    some (((w.removeIfSame token c).move i now (.returned .absent)).emit (.expired token))
  | .minted _ | .returned _ => none

def callStep (w : World) (i now : ℕ) (request : Request) (phase : Phase) : Option World :=
  match request, phase with
  | .create _ accountId unlocked identity, .entered =>
    some (w.move i now (.minted { accountId, unlocked, identity, lastSeen := now, searchIndex := none }))
  | .create token _ _ _, .minted session =>
    some (((w.insert token session).move i now (.returned (.token token))).emit
      (.created token session.lastSeen))
  | .create _ _ _ _, _ => none
  | .remove token, .entered =>
    some (((w.put token none).move i now (.returned .removed)).emit (.removed token))
  | .remove _, _ => none
  | .look token method, phase => lookStep w i now token method phase

def step (w : World) : Act → Option World
  | .launch request =>
    some { w with flights := w.flights ++ [{ request, began := w.log, phase := .entered }] }
  | .advance i now =>
    (w.flights[i]?).bind fun f =>
      if w.clock ≤ now then callStep w i now f.request f.phase else none

/-- A token that comes into the registry is one that no other call has named. -/
def Fresh (w : World) : Act → Prop
  | .launch _ => True
  | .advance i _ =>
    ∀ f ∈ w.flights[i]?, f.phase.isMinted = true →
      ∀ g ∈ w.flights.eraseIdx i, g.request.token ≠ f.request.token

instance (w : World) : (a : Act) → Decidable (Fresh w a)
  | .launch _ => isTrue trivial
  | .advance i _ =>
    inferInstanceAs (Decidable (∀ f ∈ w.flights[i]?, f.phase.isMinted = true →
      ∀ g ∈ w.flights.eraseIdx i, g.request.token ≠ f.request.token))

/-! ## What a step does -/

/-- What the step of call `i` is, by the request and the phase it is in, and the phase it comes to. -/
inductive Taken (w : World) (i now : ℕ) (f : Flight) : Phase → World → Prop
  | mint {token : Text} {accountId : ℤ} {unlocked : UnlockedAccount} {identity : SessionIdentity}
      (hrequest : f.request = .create token accountId unlocked identity)
      (hphase : f.phase = .entered) :
      Taken w i now f
        (.minted { accountId, unlocked, identity, lastSeen := now, searchIndex := none })
        (w.move i now
          (.minted { accountId, unlocked, identity, lastSeen := now, searchIndex := none }))
  | insert {token : Text} {session : Session} (htoken : f.request.token = token)
      (hphase : f.phase = .minted session) :
      Taken w i now f (.returned (.token token))
        (((w.insert token session).move i now (.returned (.token token))).emit
          (.created token session.lastSeen))
  | remove {token : Text} (hrequest : f.request = .remove token) (hphase : f.phase = .entered) :
      Taken w i now f (.returned .removed)
        (((w.put token none).move i now (.returned .removed)).emit (.removed token))
  | gone {token : Text} {method : Method} (hrequest : f.request = .look token method)
      (hphase : f.phase = .entered) (hnone : w.sessions token = none) :
      Taken w i now f (.returned .absent) ((w.move i now (.returned .absent)).emit (.gone token))
  | find {token : Text} {method : Method} {c : ℕ} (hrequest : f.request = .look token method)
      (hphase : f.phase = .entered) (hsome : w.sessions token = some c) :
      Taken w i now f (.found c) (w.move i now (.found c))
  | lock {token : Text} {method : Method} {c : ℕ} (hrequest : f.request = .look token method)
      (hphase : f.phase = .found c) (hfree : w.held c = false) :
      Taken w i now f (.locked c) (w.move i now (.locked c))
  | lapse {token : Text} {method : Method} {c : ℕ} (hrequest : f.request = .look token method)
      (hphase : f.phase = .locked c) : Taken w i now f (.overdue c) (w.move i now (.overdue c))
  | check {token : Text} {method : Method} {c : ℕ} {x : Cell}
      (hrequest : f.request = .look token method) (hphase : f.phase = .locked c)
      (hcell : w.cells[c]? = some x) (hlive : now - x.session.lastSeen ≤ w.idleTimeout) :
      Taken w i now f (.live c now) (w.move i now (.live c now))
  | refresh {token : Text} {method : Method} {c checked : ℕ}
      (hrequest : f.request = .look token method) (hphase : f.phase = .live c checked) :
      Taken w i now f (.inside c)
        (((w.store c (refreshed now)).move i now (.inside c)).emit (.passed i token checked now))
  | finish {token : Text} {method : Method} {c : ℕ} {x : Cell}
      (hrequest : f.request = .look token method) (hphase : f.phase = .inside c)
      (hcell : w.cells[c]? = some x) :
      Taken w i now f (.returned (.session x.session))
        ((w.store c method.leave).move i now (.returned (.session x.session)))
  | evict {token : Text} {method : Method} {c : ℕ} (hrequest : f.request = .look token method)
      (hphase : f.phase = .overdue c) :
      Taken w i now f (.returned .absent)
        (((w.removeIfSame token c).move i now (.returned .absent)).emit (.expired token))

variable {w : World} {phase : Phase}

section
variable {t : World} {i now : ℕ} {f : Flight} {p : Phase}

theorem taken_of_lookStep {token : Text} {method : Method}
    (hrequest : f.request = .look token method) (hphase : f.phase = phase)
    (h : lookStep w i now token method phase = some t) : ∃ p, Taken w i now f p t := by
  cases phase with
  | entered =>
    rw [lookStep] at h
    split at h
    · next hnone =>
      obtain rfl := some.inj h
      exact ⟨_, .gone hrequest hphase hnone⟩
    · next c hsome =>
      obtain rfl := some.inj h
      exact ⟨_, .find hrequest hphase hsome⟩
  | minted => cases h
  | found =>
    rw [lookStep] at h
    split at h
    · cases h
    · next hfree =>
      obtain rfl := some.inj h
      exact ⟨_, .lock hrequest hphase (by simpa using hfree)⟩
  | locked =>
    obtain ⟨x, hcell, rfl⟩ := map_eq_some_iff.mp h
    split
    · exact ⟨_, .lapse hrequest hphase⟩
    · next hlive => exact ⟨_, .check hrequest hphase hcell (Nat.not_lt.mp hlive)⟩
  | live =>
    obtain rfl := some.inj h
    exact ⟨_, .refresh hrequest hphase⟩
  | inside =>
    obtain ⟨x, hcell, rfl⟩ := map_eq_some_iff.mp h
    exact ⟨_, .finish hrequest hphase hcell⟩
  | overdue =>
    obtain rfl := some.inj h
    exact ⟨_, .evict hrequest hphase⟩
  | returned => cases h

theorem taken_of_callStep (h : callStep w i now f.request f.phase = some t) :
    ∃ p, Taken w i now f p t := by
  rcases hrequest : f.request with ⟨token, accountId, unlocked, identity⟩ | ⟨token, method⟩ | ⟨token⟩
  · rw [hrequest] at h
    cases hphase : f.phase <;> rw [hphase] at h <;> try cases h
    · exact ⟨_, .mint hrequest hphase⟩
    · exact ⟨_, .insert (by rw [hrequest, Request.token]) hphase⟩
  · rw [hrequest] at h
    exact taken_of_lookStep hrequest rfl h
  · rw [hrequest] at h
    cases hphase : f.phase <;> rw [hphase] at h <;> try cases h
    exact ⟨_, .remove hrequest hphase⟩

theorem taken_of_step (h : step w (.advance i now) = some t) :
    ∃ f p, w.flights[i]? = some f ∧ w.clock ≤ now ∧ Taken w i now f p t := by
  obtain ⟨f, hf, h⟩ := bind_eq_some_iff.mp h
  split at h
  · next hclock =>
    obtain ⟨p, htaken⟩ := taken_of_callStep h
    exact ⟨f, p, hf, hclock, htaken⟩
  · cases h

end

variable {g : Session → Session}

/-- Call `i` comes to `phase`; it changes a session only while it holds it, and writes at most one
event, about its own token. -/
structure Steps (w : World) (i now : ℕ) (f : Flight) (t : World) (phase : Phase) : Prop where
  flights : t.flights = w.flights.modify i fun f => { f with phase }
  clock : t.clock = now
  idleTimeout : t.idleTimeout = w.idleTimeout
  log : t.log = w.log ∨
    ∃ e, e.token = f.request.token ∧ phase.settled = true ∧ t.log = e :: w.log
  settled : f.phase.settled = true → phase.settled = true
  holds : ∀ c, phase.holds c = true → f.phase.holds c = true ∨ w.held c = false
  cells : ∀ c x, w.cells[c]? = some x → ∃ y, t.cells[c]? = some y ∧ y.token = x.token ∧
    (f.phase.holds c = false → y.session.lastSeen = x.session.lastSeen)

theorem Method.leave_lastSeen (method : Method) (s : Session) :
    (method.leave s).lastSeen = s.lastSeen := by
  cases method <;> rfl

theorem World.store_cell {c d : ℕ} {x : Cell} (hx : w.cells[d]? = some x) :
    (w.store c g).cells[d]? = some (if c = d then { x with session := g x.session } else x) := by
  simp only [World.store, List.getElem?_modify, hx]
  split <;> rfl

theorem World.mem_store {c : ℕ} {x : Cell} (hx : x ∈ (w.store c g).cells) :
    ∃ d y, w.cells[d]? = some y ∧ x = if c = d then { y with session := g y.session } else y := by
  obtain ⟨d, hd⟩ := List.mem_iff_getElem?.mp hx
  rcases hy : w.cells[d]? with _ | y
  · rw [World.store, List.getElem?_modify, hy] at hd
    cases hd
  · exact ⟨d, y, hy, some.inj (hd.symm.trans (World.store_cell hy))⟩

theorem World.removeIfSame_eq (w : World) (token : Text) (c : ℕ) :
    ∃ sessions, w.removeIfSame token c = { w with sessions } := by
  rw [World.removeIfSame]
  split
  · exact ⟨_, rfl⟩
  · exact ⟨w.sessions, rfl⟩

section
variable {t : World} {i now : ℕ} {f : Flight} {p : Phase}

theorem Steps.of_same_cells (hflights : t.flights = (w.move i now phase).flights)
    (hclock : t.clock = now) (hidle : t.idleTimeout = w.idleTimeout)
    (hlog : t.log = w.log ∨
      ∃ e, e.token = f.request.token ∧ phase.settled ∧ t.log = e :: w.log)
    (hsettled : f.phase.settled → phase.settled)
    (hholds : ∀ c, phase.holds c → f.phase.holds c ∨ w.held c = false)
    (hcells : t.cells = w.cells) : Steps w i now f t phase :=
  { flights := hflights
    clock := hclock
    idleTimeout := hidle
    log := hlog
    settled := hsettled
    holds := hholds
    cells := fun c x hx => ⟨x, by rw [hcells, hx], rfl, fun _ => rfl⟩ }

theorem Taken.steps (h : Taken w i now f p t) : Steps w i now f t p := by
  cases h with
  | mint _ hphase =>
    exact .of_same_cells rfl rfl rfl (.inl rfl) (by simp [hphase, Phase.settled])
      (fun _ => nofun) rfl
  | @insert token session htoken hphase =>
    refine ⟨rfl, rfl, rfl, .inr ⟨.created token session.lastSeen, htoken.symm, rfl, rfl⟩,
      fun _ => rfl, fun _ => nofun, ?_⟩
    intro c x hx
    have hlt : c < w.cells.length := (List.getElem?_eq_some_iff.mp hx).1
    exact ⟨x, (List.getElem?_append_left hlt).trans hx, rfl, fun _ => rfl⟩
  | remove hrequest hphase | gone hrequest hphase hnone =>
    exact .of_same_cells rfl rfl rfl (.inr ⟨_, by rw [hrequest]; rfl, rfl, rfl⟩) (fun _ => rfl)
      (fun _ => nofun) rfl
  | find hrequest hphase hsome | lapse hrequest hphase =>
    exact .of_same_cells rfl rfl rfl (.inl rfl) (fun _ => rfl) (fun _ => nofun) rfl
  | @lock token method c hrequest hphase hfree =>
    refine .of_same_cells rfl rfl rfl (.inl rfl) (fun _ => rfl) (fun d hd => .inr ?_) rfl
    obtain rfl : d = c := by simpa [Phase.holds] using hd
    exact hfree
  | check _ hphase =>
    exact .of_same_cells rfl rfl rfl (.inl rfl) (fun _ => rfl)
      (fun d hd => .inl (by rw [hphase]; exact hd)) rfl
  | @refresh token method c checked hrequest hphase =>
    refine ⟨rfl, rfl, rfl, .inr ⟨_, by rw [hrequest]; rfl, rfl, rfl⟩, fun _ => rfl,
      fun d hd => .inl (by rw [hphase]; exact hd), ?_⟩
    intro d x hx
    refine ⟨_, World.store_cell hx, by split <;> rfl, fun hother => ?_⟩
    -- the session that is refreshed is the one the call holds
    have hne : c ≠ d := by
      rintro rfl
      simp [hphase, Phase.holds] at hother
    rw [if_neg hne]
  | @finish token method c x hrequest hphase hcell =>
    refine ⟨rfl, rfl, rfl, .inl rfl, fun _ => rfl, fun _ => nofun, ?_⟩
    intro d x hx
    refine ⟨_, World.store_cell hx, by split <;> rfl, fun _ => ?_⟩
    split
    · exact method.leave_lastSeen x.session
    · rfl
  | @evict token method c hrequest =>
    obtain ⟨sessions, hsame⟩ := w.removeIfSame_eq token c
    rw [hsame]
    exact .of_same_cells rfl rfl rfl (.inr ⟨.expired token, by rw [hrequest]; rfl, rfl, rfl⟩)
      (fun _ => rfl) (fun _ => nofun) rfl

end

end Litterae.Jmap.Registry
