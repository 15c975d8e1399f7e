import Litterae.Foundations.Broadcast
import Litterae.Foundations.Run
import Litterae.Jmap.Session

/-! # Push streams (`jmap/src/handlers.rs`, `common/src/changes.rs`)

An open stream waits for a change of its account and, for 30 seconds at most, for its timer;
whatever ends the wait, the next one starts a timer of its own. Only the timer looks at the session
again.
-/

namespace Litterae.Jmap.Push
open Foundations List Nat Option

structure AccountChanged where
  accountId : ℤ
  state : ℕ
  deriving DecidableEq

structure ChangeNotifier where
  channel : Channel AccountChanged
  counters : ℤ → ℕ

namespace ChangeNotifier

def new : ChangeNotifier := { channel := { capacity := 256, sent := [] }, counters := fun _ => 0 }

def notify (n : ChangeNotifier) (accountId : ℤ) : ChangeNotifier :=
  { channel := n.channel.send { accountId, state := n.counters accountId + 1 }
    counters := fun a => if a = accountId then n.counters a + 1 else n.counters a }

end ChangeNotifier

def heartbeatInterval : ℕ := 30

/-- An open stream: its receiver is at `next`, and the timer of the present wait was set at `slept`. -/
structure Stream where
  accountId : ℤ
  token : Text
  next : ℕ
  slept : ℕ
  deriving DecidableEq

inductive Happening where
  | connected (token : Text)
  | published (accountId : ℤ)
  /-- A `StateChange` event. -/
  | emitted (token : Text) (time state : ℕ)
  deriving DecidableEq

/-- `log` has what happened, the latest first; `asked` is when the client last made a request with a
token. -/
structure World where
  now : ℕ
  sessions : SessionRegistry
  notifier : ChangeNotifier
  stream : Option Stream
  log : List Happening
  asked : Text → ℕ

inductive Act where
  | tick
  | unlock (bytes : Block 32) (accountId : ℤ) (unlocked : UnlockedAccount)
      (identity : SessionIdentity)
  | request (token : Text)
  | lock (token : Text)
  | connect (token : Text)
  | disconnect
  | notify (accountId : ℤ)
  | recv
  | heartbeat

namespace World

def start (idleTimeout : ℕ) : World :=
  { now := 0, sessions := .new idleTimeout, notifier := .new, stream := none, log := [],
    asked := fun _ => 0 }

def usable (w : World) (token : Text) : Bool := (w.sessions.touch w.now token).1.isSome

def ask (w : World) (token : Text) : World :=
  { w with asked := fun t => if t = token then w.now else w.asked t }

def touch (w : World) (token : Text) : World :=
  { w with sessions := (w.sessions.touch w.now token).2 }

def waits (w : World) : Bool :=
  w.stream.all fun st =>
    (w.notifier.channel.recv st.next).isNone && decide (w.now < st.slept + heartbeatInterval)

/-- `sse`, once the token is known to be good. -/
def subscribe (w : World) (token : Text) (accountId : ℤ) : World :=
  { w with
    stream := some { accountId, token, next := w.notifier.channel.sent.length, slept := w.now }
    log := .connected token :: w.log }

/-- The loop after `rx.recv()`: the next wait starts now. -/
def received (w : World) (st : Stream) (r : Received AccountChanged) (next : ℕ) : World :=
  { w with
    stream := some { st with next, slept := w.now }
    log :=
      match r with
      | .value c =>
        if c.accountId = st.accountId then .emitted st.token w.now c.state :: w.log else w.log
      | .lagged _ => w.log }

def beat (w : World) (st : Stream) : World :=
  { w.touch st.token with
    stream :=
      if (w.sessions.touch w.now st.token).1.map Session.accountId = some st.accountId then
        some { st with slept := w.now }
      else none }

end World

def step (w : World) : Act → Option World
  | .tick => if w.waits then some { w with now := w.now + 1 } else none
  | .unlock bytes accountId unlocked identity =>
    some { w.ask (hexEncode bytes.val) with
      sessions := (w.sessions.create bytes w.now accountId unlocked identity).2 }
  | .request token => some ((w.touch token).ask token)
  | .lock token => some { w.ask token with sessions := (w.touch token).sessions.remove token }
  | .connect token =>
    match w.stream, (w.sessions.touch w.now token).1 with
    | some _, _ => none
    | none, some s => some (((w.touch token).ask token).subscribe token s.accountId)
    | none, none => some ((w.touch token).ask token)
  | .disconnect => some { w with stream := none }
  | .notify accountId =>
    some { w with
      notifier := w.notifier.notify accountId
      log := .published accountId :: w.log }
  | .recv =>
    w.stream.bind fun st =>
      (w.notifier.channel.recv st.next).map fun (r, next) => w.received st r next
  | .heartbeat =>
    w.stream.bind fun st =>
      if st.slept + heartbeatInterval ≤ w.now then some (w.beat st) else none

/-! ## What a step does -/

variable {w : World} {token : Text} {t : World}

section

theorem tick_taken (h : step w .tick = some t) :
    (∀ st, w.stream = some st →
      w.notifier.channel.recv st.next = none ∧ w.now < st.slept + heartbeatInterval) ∧
    t = { w with now := w.now + 1 } := by
  rw [step] at h
  split at h
  · next hwaits =>
    refine ⟨fun st hst => ?_, (some.inj h).symm⟩
    simpa [World.waits, hst] using hwaits
  · cases h

theorem connect_taken (h : step w (.connect token) = some t) :
    w.stream = none ∧
      ((w.usable token ∧
          ∃ accountId, t = ((w.touch token).ask token).subscribe token accountId) ∨
        t = (w.touch token).ask token) := by
  rw [step] at h
  split at h
  · cases h
  · next s hnone hsome =>
    refine ⟨hnone, .inl ⟨?_, s.accountId, (some.inj h).symm⟩⟩
    rw [World.usable, hsome]
    rfl
  · next hnone _ => exact ⟨hnone, .inr (some.inj h).symm⟩

theorem recv_taken (h : step w .recv = some t) :
    ∃ st r next, w.stream = some st ∧ w.notifier.channel.recv st.next = some (r, next) ∧
      t = w.received st r next := by
  obtain ⟨st, hst, h⟩ := bind_eq_some_iff.mp h
  obtain ⟨⟨r, next⟩, hrecv, rfl⟩ := map_eq_some_iff.mp h
  exact ⟨st, r, next, hst, hrecv, rfl⟩

theorem heartbeat_taken (h : step w .heartbeat = some t) :
    ∃ st, w.stream = some st ∧ st.slept + heartbeatInterval ≤ w.now ∧ t = w.beat st := by
  obtain ⟨st, hst, h⟩ := bind_eq_some_iff.mp h
  split at h
  · next hdue => exact ⟨st, hst, hdue, (some.inj h).symm⟩
  · cases h

theorem beat_stream {st st' : Stream} (h : (w.beat st).stream = some st') :
    st' = { st with slept := w.now } ∧ w.usable st.token := by
  simp only [World.beat] at h
  split at h
  · next hsame =>
    refine ⟨(some.inj h).symm, ?_⟩
    obtain ⟨s, hs, -⟩ := map_eq_some_iff.mp hsame
    rw [World.usable, hs]
    rfl
  · cases h

theorem emitted_of_received {st : Stream} {r : Received AccountChanged} {next : ℕ} {time state : ℕ}
    (h : .emitted token time state ∈ (w.received st r next).log) :
    .emitted token time state ∈ w.log ∨ token = st.token ∧ time = w.now := by
  cases r with
  | lagged => exact .inl h
  | value =>
    simp only [World.received] at h
    split at h
    · rcases mem_cons.mp h with heq | hold
      · obtain ⟨rfl, rfl, -⟩ := Happening.emitted.inj heq
        exact .inr ⟨rfl, rfl⟩
      · exact .inl hold
    · exact .inl h

end

/-! ## Sessions over time -/

section
variable {other : Text}

theorem usable_eq_false_iff : w.usable token = false ↔
    ∀ s, w.sessions.sessions token = some s → w.sessions.idleTimeout < w.now - s.lastSeen := by
  rw [World.usable, SessionRegistry.touch]
  rcases hs : w.sessions.sessions token with _ | s
  · simp
  · by_cases hidle : w.sessions.idleTimeout < w.now - s.lastSeen <;> simp [hidle]

theorem touch_of_ne (h : other ≠ token) :
    (w.touch token).sessions.sessions other = w.sessions.sessions other := by
  simp only [World.touch, SessionRegistry.touch]
  split
  · rfl
  · split <;> exact w.sessions.put_of_ne h _

theorem touch_idleTimeout : (w.touch token).sessions.idleTimeout = w.sessions.idleTimeout := by
  simp only [World.touch, SessionRegistry.touch]
  split
  · rfl
  · split <;> rfl

theorem touch_unusable (h : w.usable token = false) :
    (w.touch token).sessions.sessions token = none := by
  rw [usable_eq_false_iff] at h
  simp only [World.touch, SessionRegistry.touch]
  split
  · assumption
  · next s hs => rw [if_pos (h s hs), SessionRegistry.put_self]

theorem touch_seen {s : Session} (h : (w.touch token).sessions.sessions token = some s) :
    s.lastSeen = w.now := by
  simp only [World.touch, SessionRegistry.touch] at h
  split at h
  · next hnone => cases hnone.symm.trans h
  · split at h
    · simp at h
    · obtain rfl := some.inj ((w.sessions.put_self token _).symm.trans h)
      rfl

end

/-! ## A stream whose token is dead -/

def Fresh (token : Text) : Act → Prop
  | .unlock bytes _ _ _ => hexEncode bytes.val ≠ token
  | _ => True

instance (token : Text) : (a : Act) → Decidable (Fresh token a)
  | .unlock bytes _ _ _ => inferInstanceAs (Decidable (hexEncode bytes.val ≠ token))
  | .tick | .request _ | .lock _ | .connect _ | .disconnect | .notify _ | .recv | .heartbeat =>
    isTrue trivial

/-- No change of any account is published after `t` while a stream is open with the token. -/
def Quiet (token : Text) (t : ℕ) (w : World) : Act → Prop
  | .notify _ => ∀ st ∈ w.stream, st.token = token → w.now ≤ t
  | _ => True

instance (token : Text) (t : ℕ) (w : World) : (a : Act) → Decidable (Quiet token t w a)
  | .notify _ => inferInstanceAs (Decidable (∀ st ∈ w.stream, st.token = token → w.now ≤ t))
  | .tick | .unlock _ _ _ _ | .request _ | .lock _ | .connect _ | .disconnect | .recv
  | .heartbeat => isTrue trivial

/-- The timer of an open stream is running, and nothing has been emitted in the future. -/
structure Timed (w : World) : Prop where
  slept : ∀ st, w.stream = some st → st.slept ≤ w.now ∧ w.now ≤ st.slept + heartbeatInterval
  emitted : ∀ token time state, .emitted token time state ∈ w.log → time ≤ w.now

/-- The token died at `t` or before. -/
structure Dying (token : Text) (t : ℕ) (w : World) : Prop where
  dead : w.usable token = false
  later : t ≤ w.now
  slept : ∀ st, w.stream = some st → st.token = token →
    st.slept ≤ t ∧ w.now ≤ st.slept + heartbeatInterval ∧
      (t < w.now → w.notifier.channel.recv st.next = none)
  emitted : ∀ time state, .emitted token time state ∈ w.log → time ≤ t

variable {a : Act}

theorem Timed.step (hw : Timed w) (h : Push.step w a = some t) : Timed t := by
  cases a with
  | tick =>
    obtain ⟨hwaits, rfl⟩ := tick_taken h
    refine ⟨fun st hst => ?_, fun token time state he => ?_⟩
    · exact ⟨(hw.slept st hst).1.trans (le_succ _), (hwaits st hst).2⟩
    · exact (hw.emitted token time state he).trans (le_succ _)
  | unlock bytes accountId unlocked identity | request token | lock token =>
    obtain rfl := some.inj h
    exact ⟨hw.slept, hw.emitted⟩
  | connect token =>
    obtain ⟨hnone, ⟨-, accountId, rfl⟩ | rfl⟩ := connect_taken h
    · refine ⟨fun st hst => ?_, fun token time state he => ?_⟩
      · obtain rfl := some.inj hst
        exact ⟨le_rfl, le_add_right _ _⟩
      · exact hw.emitted token time state (mem_of_ne_of_mem (by simp) he)
    · exact ⟨hw.slept, hw.emitted⟩
  | disconnect =>
    obtain rfl := some.inj h
    exact ⟨nofun, hw.emitted⟩
  | notify =>
    obtain rfl := some.inj h
    exact ⟨hw.slept, fun token time state he =>
      hw.emitted token time state (mem_of_ne_of_mem (by simp) he)⟩
  | recv =>
    obtain ⟨st, r, next, hst, hrecv, rfl⟩ := recv_taken h
    refine ⟨fun st' hst' => ?_, fun token time state he => ?_⟩
    · obtain rfl := some.inj hst'
      exact ⟨le_rfl, le_add_right _ _⟩
    · rcases emitted_of_received he with hold | ⟨-, rfl⟩
      · exact hw.emitted token time state hold
      · exact le_rfl
  | heartbeat =>
    obtain ⟨st, hst, hdue, rfl⟩ := heartbeat_taken h
    refine ⟨fun st' hst' => ?_, hw.emitted⟩
    obtain ⟨rfl, -⟩ := beat_stream hst'
    exact ⟨le_rfl, le_add_right _ _⟩

variable {idleTimeout : ℕ}

theorem timed_run {acts : List Act} (h : run step (.start idleTimeout) acts = some w) :
    Timed w := by
  refine run_invariant (fun _ _ _ hw _ hstep => hw.step hstep) ?_
    (.of_forall (fun _ _ => trivial) _ _) h
  constructor <;> simp [World.start]

theorem unusable_step (hdead : w.usable token = false) (hfresh : Fresh token a)
    (h : step w a = some t) : t.usable token = false := by
  -- whatever looks the token up removes it; what looks another one up leaves it alone
  have htouch : ∀ other, (w.touch other).sessions.idleTimeout = w.sessions.idleTimeout ∧
      ∀ s, (w.touch other).sessions.sessions token = some s → w.sessions.sessions token = some s := by
    intro other
    refine ⟨touch_idleTimeout, fun s hs => ?_⟩
    by_cases hsame : token = other
    · subst hsame
      cases (touch_unusable hdead).symm.trans hs
    · exact (touch_of_ne hsame).symm.trans hs
  have hkeep : ∀ t : World, t.now = w.now → t.sessions.idleTimeout = w.sessions.idleTimeout ∧
      (∀ s, t.sessions.sessions token = some s → w.sessions.sessions token = some s) →
      t.usable token = false := by
    rintro t hnow ⟨hidle, hsessions⟩
    rw [usable_eq_false_iff] at hdead ⊢
    intro s hs
    rw [hnow, hidle]
    exact hdead s (hsessions s hs)
  cases a with
  | tick =>
    obtain ⟨-, rfl⟩ := tick_taken h
    rw [usable_eq_false_iff] at hdead ⊢
    intro s hs
    exact (hdead s hs).trans_le (Nat.sub_le_sub_right (Nat.le_succ _) _)
  | unlock =>
    obtain rfl := some.inj h
    exact hkeep _ rfl ⟨rfl, fun s hs => (w.sessions.put_of_ne (Ne.symm hfresh) _).symm.trans hs⟩
  | request other =>
    obtain rfl := some.inj h
    exact hkeep _ rfl (htouch other)
  | lock other =>
    obtain rfl := some.inj h
    refine hkeep _ rfl ⟨(htouch other).1, fun s hs => ?_⟩
    by_cases hsame : token = other
    · subst hsame
      cases ((w.touch token).sessions.put_self token none).symm.trans hs
    · exact (htouch other).2 s (((w.touch other).sessions.put_of_ne hsame none).symm.trans hs)
  | connect other =>
    obtain ⟨-, ⟨-, accountId, rfl⟩ | rfl⟩ := connect_taken h <;> exact hkeep _ rfl (htouch other)
  | disconnect | notify accountId =>
    obtain rfl := some.inj h
    exact hdead
  | recv =>
    obtain ⟨st, r, next, -, -, rfl⟩ := recv_taken h
    exact hdead
  | heartbeat =>
    obtain ⟨st, -, -, rfl⟩ := heartbeat_taken h
    exact hkeep _ rfl (htouch st.token)

theorem Dying.step {u : World} {t : ℕ} (hw : Dying token t w) (hfresh : Fresh token a)
    (hquiet : Quiet token t w a) (h : Push.step w a = some u) :
    Dying token t u := by
  have hdead := unusable_step hw.dead hfresh h
  cases a with
  | tick =>
    obtain ⟨hwaits, rfl⟩ := tick_taken h
    refine ⟨hdead, hw.later.trans (le_succ _), fun st hst htoken => ?_, hw.emitted⟩
    exact ⟨(hw.slept st hst htoken).1, (hwaits st hst).2, fun _ => (hwaits st hst).1⟩
  | unlock bytes accountId unlocked identity | request other | lock other =>
    obtain rfl := some.inj h
    exact ⟨hdead, hw.later, hw.slept, hw.emitted⟩
  | connect other =>
    obtain ⟨hnone, ⟨husable, accountId, rfl⟩ | rfl⟩ := connect_taken h
    · refine ⟨hdead, hw.later, fun st hst htoken => ?_, fun time state he => ?_⟩
      · obtain rfl := some.inj hst
        obtain rfl : other = token := htoken
        cases husable.symm.trans hw.dead
      · exact hw.emitted time state (mem_of_ne_of_mem (by simp) he)
    · exact ⟨hdead, hw.later, hw.slept, hw.emitted⟩
  | disconnect =>
    obtain rfl := some.inj h
    exact ⟨hdead, hw.later, nofun, hw.emitted⟩
  | notify =>
    obtain rfl := some.inj h
    refine ⟨hdead, hw.later, fun st hst htoken => ?_, fun time state he => ?_⟩
    · obtain ⟨hslept, hdue, -⟩ := hw.slept st hst htoken
      exact ⟨hslept, hdue, fun hlater => absurd hlater (not_lt.mpr (hquiet st hst htoken))⟩
    · exact hw.emitted time state (mem_of_ne_of_mem (by simp) he)
  | recv =>
    obtain ⟨st, r, next, hst, hrecv, rfl⟩ := recv_taken h
    -- the stream can still receive something only in the second in which the token died
    have hnow : st.token = token → w.now ≤ t := by
      intro htoken
      by_contra hlater
      have hnone := (hw.slept st hst htoken).2.2 (not_le.mp hlater)
      cases hnone.symm.trans hrecv
    refine ⟨hdead, hw.later, fun st' hst' htoken => ?_, fun time state he => ?_⟩
    · obtain rfl := some.inj hst'
      exact ⟨hnow htoken, le_add_right _ _, fun hlater => absurd hlater (not_lt.mpr (hnow htoken))⟩
    · rcases emitted_of_received he with hold | ⟨htoken, rfl⟩
      · exact hw.emitted time state hold
      · exact hnow htoken.symm
  | heartbeat =>
    obtain ⟨st, hst, hdue, rfl⟩ := heartbeat_taken h
    refine ⟨hdead, hw.later, fun st' hst' htoken => ?_, hw.emitted⟩
    obtain ⟨rfl, husable⟩ := beat_stream hst'
    obtain rfl : st.token = token := htoken
    cases husable.symm.trans hw.dead

/-- If no change is published after its token died, a stream has ended one heartbeat later, and emits
nothing after that time. -/
theorem revoked_stream_ends (idleTimeout : ℕ) (before acts : List Act) (u w : World) (token : Text)
    (hbefore : run step (.start idleTimeout) before = some u) (hdead : u.usable token = false)
    (hrun : run step u acts = some w) (hfresh : Along step (fun _ a => Fresh token a) u acts)
    (hquiet : Along step (Quiet token u.now) u acts) :
    (u.now + heartbeatInterval < w.now → ∀ st, w.stream = some st → st.token ≠ token) ∧
      ∀ time state, .emitted token time state ∈ w.log → time ≤ u.now + heartbeatInterval := by
  have htimed := timed_run hbefore
  have hu : Dying token u.now u := by
    refine ⟨hdead, le_rfl, fun st hst _ => ?_, htimed.emitted token⟩
    obtain ⟨hslept, hdue⟩ := htimed.slept st hst
    exact ⟨hslept, hdue, fun hlater => absurd hlater (lt_irrefl _)⟩
  have hw : Dying token u.now w :=
    run_invariant (fun _ _ _ hw hG hstep => hw.step hG.1 hG.2 hstep) hu (hfresh.and hquiet) hrun
  constructor
  · intro hlater st hst htoken
    obtain ⟨hslept, hdue, -⟩ := hw.slept st hst htoken
    omega
  · intro time state he
    exact (hw.emitted time state he).trans (le_add_right _ _)

/-! A client unlocks account 1, opens a stream and locks again. -/

def sampleBytes : Block 32 := .padded [7]

def sampleToken : Text := hexEncode sampleBytes.val

def sampleUnlock : Act := .unlock sampleBytes 1 ⟨[], []⟩ ⟨[], 0, []⟩

def sampleLocked : List Act := [sampleUnlock, .connect sampleToken, .lock sampleToken]

def seconds (n : ℕ) : List Act := List.replicate n .tick

theorem revoked_stream_ends_quiet :
    ∃ u w, run step (.start 1800) sampleLocked = some u ∧ u.stream.isSome ∧
      u.usable sampleToken = false ∧
      run step u (seconds 30 ++ .heartbeat :: seconds 1) = some w ∧ w.now = 31 ∧
      ∀ st, w.stream = some st → st.token ≠ sampleToken := by
  have hends : ((run step (.start 1800) sampleLocked).bind fun u =>
      (run step u (seconds 30 ++ .heartbeat :: seconds 1)).map fun w =>
        (decide (Along step (fun _ a => Fresh sampleToken a) u (seconds 30 ++ .heartbeat :: seconds 1) ∧
          Along step (Quiet sampleToken u.now) u (seconds 30 ++ .heartbeat :: seconds 1)),
        (u.stream.isSome, u.usable sampleToken), (u.now, w.now))) =
      some (true, (true, false), (0, 31)) := by
    decide +kernel
  obtain ⟨u, hu, hends⟩ := bind_eq_some_iff.mp hends
  obtain ⟨w, hw, hfacts⟩ := map_eq_some_iff.mp hends
  simp only [Prod.mk.injEq, decide_eq_true_eq] at hfacts
  obtain ⟨⟨hfresh, hquiet⟩, ⟨hopen, hdead⟩, hzero, hnow⟩ := hfacts
  have hends := revoked_stream_ends 1800 sampleLocked _ u w sampleToken hu hdead hw hfresh hquiet
  refine ⟨u, w, hu, hopen, hdead, hw, hnow, hends.1 ?_⟩
  rw [hzero, hnow]
  decide

/-- Changes of another account keep the timer from firing: a minute after its token is gone the stream
is open, and emits. -/
theorem revoked_stream_emits :
    ∃ u w st, run step (.start 1800) sampleLocked = some u ∧ u.now = 0 ∧
      u.stream.map Stream.token = some sampleToken ∧ u.usable sampleToken = false ∧
      run step u (seconds 29 ++ [.notify 2, .recv] ++ seconds 29 ++ [.notify 1, .recv] ++ seconds 1) =
        some w ∧
      w.now = 59 ∧ w.stream = some st ∧ st.token = sampleToken ∧
      .emitted sampleToken 58 1 ∈ w.log := by
  have hends : ((run step (.start 1800) sampleLocked).bind fun u =>
      (run step u (seconds 29 ++ [.notify 2, .recv] ++ seconds 29 ++ [.notify 1, .recv] ++
        seconds 1)).map fun w =>
        ((u.now, u.stream.map Stream.token, u.usable sampleToken),
        (w.now, w.stream.map Stream.token),
        decide (.emitted sampleToken 58 1 ∈ w.log))) =
      some ((0, some sampleToken, false), (59, some sampleToken), true) := by
    decide +kernel
  obtain ⟨u, hu, hends⟩ := bind_eq_some_iff.mp hends
  obtain ⟨w, hw, hfacts⟩ := map_eq_some_iff.mp hends
  simp only [Prod.mk.injEq, decide_eq_true_eq] at hfacts
  obtain ⟨⟨hzero, hopen, hdead⟩, ⟨hnow, hstill⟩, hemitted⟩ := hfacts
  obtain ⟨st, hst, htoken⟩ := map_eq_some_iff.mp hstill
  exact ⟨u, w, st, hu, hzero, hopen, hdead, hw, hnow, hst, htoken, hemitted⟩

/-! ## Idle sessions -/

/-- The timer of a stream does not look at a session later than the client did. -/
def Unrenewed (w : World) : Act → Prop
  | .heartbeat => ∀ st ∈ w.stream, w.usable st.token = true → w.now ≤ w.asked st.token
  | _ => True

instance (w : World) : (a : Act) → Decidable (Unrenewed w a)
  | .heartbeat =>
    inferInstanceAs (Decidable (∀ st ∈ w.stream, w.usable st.token = true → w.now ≤ w.asked st.token))
  | .tick | .unlock _ _ _ _ | .request _ | .lock _ | .connect _ | .disconnect | .notify _
  | .recv => isTrue trivial

structure Attended (idleTimeout : ℕ) (w : World) : Prop where
  idleTimeout : w.sessions.idleTimeout = idleTimeout
  seen : ∀ token s, w.sessions.sessions token = some s → s.lastSeen ≤ w.asked token

namespace Attended

theorem asked (hw : Attended idleTimeout w) (token : Text) :
    Attended idleTimeout ((w.touch token).ask token) := by
  refine ⟨touch_idleTimeout.trans hw.idleTimeout, fun other s hs => ?_⟩
  by_cases hsame : other = token
  · subst hsame
    have hasked : ((w.touch other).ask other).asked other = w.now := if_pos rfl
    rw [hasked, touch_seen hs]
  · have hasked : ((w.touch token).ask token).asked other = w.asked other := if_neg hsame
    rw [hasked]
    exact hw.seen other s ((touch_of_ne hsame).symm.trans hs)

theorem step (hw : Attended idleTimeout w) (hG : Unrenewed w a) (h : Push.step w a = some t) :
    Attended idleTimeout t := by
  cases a with
  | tick =>
    obtain ⟨-, rfl⟩ := tick_taken h
    exact ⟨hw.idleTimeout, hw.seen⟩
  | unlock bytes =>
    obtain rfl := some.inj h
    refine ⟨hw.idleTimeout, fun token s hs => ?_⟩
    by_cases hsame : token = hexEncode bytes.val
    · subst hsame
      obtain rfl := some.inj ((w.sessions.put_self _ _).symm.trans hs)
      exact (if_pos rfl : (w.ask _).asked (hexEncode bytes.val) = w.now).ge
    · have hasked : (w.ask (hexEncode bytes.val)).asked token = w.asked token := if_neg hsame
      exact hasked.ge.trans' (hw.seen token s ((w.sessions.put_of_ne hsame _).symm.trans hs))
  | request token =>
    obtain rfl := some.inj h
    exact hw.asked token
  | lock token =>
    obtain rfl := some.inj h
    refine ⟨(hw.asked token).idleTimeout, fun other s hs => (hw.asked token).seen other s ?_⟩
    by_cases hsame : other = token
    · subst hsame
      cases ((w.touch other).sessions.put_self other none).symm.trans hs
    · exact ((w.touch token).sessions.put_of_ne hsame none).symm.trans hs
  | connect token =>
    obtain ⟨-, ⟨-, accountId, rfl⟩ | rfl⟩ := connect_taken h
    · exact ⟨(hw.asked token).idleTimeout, (hw.asked token).seen⟩
    · exact hw.asked token
  | disconnect | notify accountId =>
    obtain rfl := some.inj h
    exact ⟨hw.idleTimeout, hw.seen⟩
  | recv =>
    obtain ⟨st, r, next, -, -, rfl⟩ := recv_taken h
    exact ⟨hw.idleTimeout, hw.seen⟩
  | heartbeat =>
    obtain ⟨st, hst, -, rfl⟩ := heartbeat_taken h
    refine ⟨touch_idleTimeout.trans hw.idleTimeout, fun token s hs => ?_⟩
    by_cases hsame : token = st.token
    · subst hsame
      -- the timer has renewed the session, so it was usable
      have husable : w.usable st.token := by
        by_contra hdead
        rw [Bool.not_eq_true] at hdead
        cases (touch_unusable hdead).symm.trans hs
      exact (touch_seen hs).trans_le (hG st hst husable)
    · exact hw.seen token s ((touch_of_ne hsame).symm.trans hs)

end Attended

/-- If the timers of streams renew no session, one that the client has made no request with for longer
than the idle timeout cannot be used. -/
theorem idle_session_locks (idleTimeout : ℕ) (acts : List Act) (w : World)
    (hrun : run step (.start idleTimeout) acts = some w)
    (hacts : Along step Unrenewed (.start idleTimeout) acts) (token : Text)
    (hidle : idleTimeout < w.now - w.asked token) : w.usable token = false := by
  have hstart : Attended idleTimeout (.start idleTimeout) :=
    ⟨rfl, fun _ => nofun⟩
  have hw : Attended idleTimeout w :=
    run_invariant (fun _ _ _ hw hG hstep => hw.step hG hstep) hstart hacts hrun
  rw [usable_eq_false_iff, hw.idleTimeout]
  intro s hs
  exact hidle.trans_le (Nat.sub_le_sub_left (hw.seen token s hs) _)

def sampleWatching : List Act :=
  [sampleUnlock, .connect sampleToken] ++ seconds 29 ++ [.notify 2, .recv] ++ seconds 12

theorem idle_session_locks_watching :
    ∃ w, run step (.start 40) sampleWatching = some w ∧ w.stream.isSome ∧
      w.now - w.asked sampleToken = 41 ∧ w.usable sampleToken = false := by
  have hends : ((run step (.start 40) sampleWatching).map fun w =>
      (w.stream.isSome, w.now - w.asked sampleToken)) = some (true, 41) := by
    decide +kernel
  have hacts : Along step Unrenewed (.start 40) sampleWatching := by decide +kernel
  obtain ⟨w, hw, hfacts⟩ := map_eq_some_iff.mp hends
  obtain ⟨hopen, hidle⟩ := Prod.mk.inj hfacts
  exact ⟨w, hw, hopen, hidle, idle_session_locks 40 _ w hw hacts sampleToken (by rw [hidle]; decide)⟩

/-- The timer of an open stream renews the session. -/
theorem watched_session_stays :
    ∃ w, run step (.start 40) ([sampleUnlock, .connect sampleToken] ++ seconds 30 ++ [.heartbeat] ++
        seconds 30) = some w ∧ 40 < w.now - w.asked sampleToken ∧ w.usable sampleToken := by
  have hends : ((run step (.start 40) ([sampleUnlock, .connect sampleToken] ++ seconds 30 ++
      [.heartbeat] ++ seconds 30)).map fun w =>
        (w.now - w.asked sampleToken, w.usable sampleToken)) = some (60, true) := by
    decide +kernel
  obtain ⟨w, hw, hfacts⟩ := map_eq_some_iff.mp hends
  obtain ⟨hidle, husable⟩ := Prod.mk.inj hfacts
  exact ⟨w, hw, by rw [hidle]; decide, husable⟩

/-! ## Wake-ups -/

/-- The account has been notified since the stream began and since its last event. -/
def Awaits (accountId : ℤ) : List Happening → Prop
  | [] => False
  | .published a :: older => a = accountId ∨ Awaits accountId older
  | .connected _ :: _ | .emitted _ _ _ :: _ => False

def Holds (n : ChangeNotifier) (st : Stream) : Prop :=
  ∃ c ∈ n.channel.unread st.next, c.accountId = st.accountId

instance (n : ChangeNotifier) (st : Stream) : Decidable (Holds n st) :=
  inferInstanceAs (Decidable (∃ c ∈ n.channel.unread st.next, c.accountId = st.accountId))

/-- No account is notified while the channel is full and its oldest value is the only one of another
account that the stream of that account has yet to receive. -/
def Spares (w : World) : Act → Prop
  | .notify accountId => ∀ st ∈ w.stream, accountId ≠ st.accountId → Holds w.notifier st →
    w.notifier.channel.capacity ≤ w.notifier.channel.sent.length →
      Holds w.notifier { st with next := max st.next (w.notifier.channel.oldest + 1) }
  | _ => True

instance (w : World) : (a : Act) → Decidable (Spares w a)
  | .notify accountId =>
    inferInstanceAs (Decidable (∀ st ∈ w.stream, accountId ≠ st.accountId → Holds w.notifier st →
      w.notifier.channel.capacity ≤ w.notifier.channel.sent.length →
        Holds w.notifier { st with next := max st.next (w.notifier.channel.oldest + 1) }))
  | .tick | .unlock _ _ _ _ | .request _ | .lock _ | .connect _ | .disconnect | .recv
  | .heartbeat => isTrue trivial

theorem Holds.notify {n : ChangeNotifier} {st : Stream} {accountId : ℤ} (h : Holds n st)
    (hfull : n.channel.capacity ≤ n.channel.sent.length →
      Holds n { st with next := max st.next (n.channel.oldest + 1) }) :
    Holds (n.notify accountId) st := by
  by_cases hle : n.channel.capacity ≤ n.channel.sent.length
  · obtain ⟨c, hc, hown⟩ := hfull hle
    exact ⟨c, Channel.mem_unread_send_of_full hle hc, hown⟩
  · obtain ⟨c, hc, hown⟩ := h
    exact ⟨c, Channel.mem_unread_send_of_room (not_le.mp hle) hc, hown⟩

structure Rousable (w : World) : Prop where
  capacity : 0 < w.notifier.channel.capacity
  within : ∀ st, w.stream = some st → st.next ≤ w.notifier.channel.sent.length
  holds : ∀ st, w.stream = some st → Awaits st.accountId w.log → Holds w.notifier st

theorem Rousable.step (hw : Rousable w) (hG : Spares w a) (h : Push.step w a = some t) :
    Rousable t := by
  cases a with
  | tick =>
    obtain ⟨-, rfl⟩ := tick_taken h
    exact ⟨hw.capacity, hw.within, hw.holds⟩
  | unlock bytes accountId unlocked identity | request token | lock token =>
    obtain rfl := some.inj h
    exact ⟨hw.capacity, hw.within, hw.holds⟩
  | connect =>
    obtain ⟨-, ⟨-, accountId, rfl⟩ | rfl⟩ := connect_taken h
    · refine ⟨hw.capacity, fun st hst => ?_, fun st hst hawaits => hawaits.elim⟩
      obtain rfl := some.inj hst
      exact le_rfl
    · exact ⟨hw.capacity, hw.within, hw.holds⟩
  | disconnect =>
    obtain rfl := some.inj h
    exact ⟨hw.capacity, nofun, nofun⟩
  | notify accountId =>
    obtain rfl := some.inj h
    refine ⟨hw.capacity, fun st hst => ?_, fun st hst hawaits => ?_⟩
    · exact (hw.within st hst).trans (by simp [ChangeNotifier.notify, Channel.send])
    · by_cases hown : accountId = st.accountId
      · exact ⟨_, Channel.mem_unread_send hw.capacity (hw.within st hst), hown⟩
      · have hheld := hw.holds st hst (hawaits.resolve_left hown)
        exact hheld.notify (hG st hst hown hheld)
  | recv =>
    obtain ⟨st, r, next, hst, hrecv, rfl⟩ := recv_taken h
    refine ⟨hw.capacity, fun st' hst' => ?_, fun st' hst' hawaits => ?_⟩ <;> obtain rfl := some.inj hst'
    · exact Channel.le_of_recv hrecv
    cases r with
    | lagged =>
      obtain ⟨c, hc, hown⟩ := hw.holds st hst hawaits
      rw [← Channel.unread_of_lagged hrecv] at hc
      exact ⟨c, hc, hown⟩
    | value =>
      simp only [World.received] at hawaits
      split at hawaits
      · exact hawaits.elim
      · next hother =>
        obtain ⟨d, hd, hown⟩ := hw.holds st hst hawaits
        rw [Channel.unread_of_value hrecv] at hd
        rcases mem_cons.mp hd with rfl | hd
        · exact absurd hown hother
        · exact ⟨d, hd, hown⟩
  | heartbeat =>
    obtain ⟨st, hst, -, rfl⟩ := heartbeat_taken h
    refine ⟨hw.capacity, fun st' hst' => ?_, fun st' hst' => ?_⟩ <;>
      obtain ⟨rfl, -⟩ := beat_stream hst'
    · exact hw.within st hst
    · exact hw.holds st hst

theorem awaits_of_published {accountId : ℤ} {newer older : List Happening}
    (hconnected : ∀ token, .connected token ∉ newer)
    (hemitted : ∀ token time state, .emitted token time state ∉ newer) :
    Awaits accountId (newer ++ .published accountId :: older) := by
  induction newer with
  | nil => exact .inl rfl
  | cons e _ ih =>
    cases e with
    | connected token => exact absurd mem_cons_self (hconnected token)
    | emitted token time state => exact absurd mem_cons_self (hemitted token time state)
    | published =>
      exact .inr (ih (fun token h => hconnected token (mem_cons_of_mem _ h))
        fun token time state h => hemitted token time state (mem_cons_of_mem _ h))

/-- If no notification pushes out the last one of the stream's account that is still to be received,
a stream that has received everything has emitted an event after every notification of its account. -/
theorem wakes_up (idleTimeout : ℕ) (acts : List Act) (w : World) (st : Stream)
    (hrun : run step (.start idleTimeout) acts = some w)
    (hacts : Along step Spares (.start idleTimeout) acts) (hst : w.stream = some st)
    (hdrained : w.notifier.channel.recv st.next = none) (newer older : List Happening)
    (hlog : w.log = newer ++ .published st.accountId :: older)
    (hsince : ∀ token, .connected token ∉ newer) :
    ∃ token time state, .emitted token time state ∈ newer := by
  have hw : Rousable w := by
    refine run_invariant (fun _ _ _ hw hG hstep => hw.step hG hstep) ?_ hacts hrun
    exact ⟨zero_lt_succ 255, nofun, nofun⟩
  by_contra hnone
  simp only [not_exists] at hnone
  have hawaits : Awaits st.accountId w.log := by
    rw [hlog]
    exact awaits_of_published hsince hnone
  obtain ⟨c, hc, -⟩ := hw.holds st hst hawaits
  rw [Channel.unread_of_recv_none hdrained] at hc
  cases hc

def sampleWoken : List Act :=
  [sampleUnlock, .connect sampleToken, .notify 2, .notify 1, .recv, .recv]

theorem wakes_up_woken :
    ∃ w st newer older, run step (.start 1800) sampleWoken = some w ∧ w.stream = some st ∧
      w.log = newer ++ .published st.accountId :: older ∧
      ∃ token time state, .emitted token time state ∈ newer := by
  have hends : ((run step (.start 1800) sampleWoken).map fun w =>
      (w.log, w.stream.map fun st => (st.accountId, (w.notifier.channel.recv st.next).isNone))) =
      some ([.emitted sampleToken 0 1, .published 1, .published 2, .connected sampleToken],
        some (1, true)) := by
    decide +kernel
  have hacts : Along step Spares (.start 1800) sampleWoken := by decide +kernel
  obtain ⟨w, hw, hfacts⟩ := map_eq_some_iff.mp hends
  obtain ⟨hlog, hstream⟩ := Prod.mk.inj hfacts
  obtain ⟨st, hst, hfacts⟩ := map_eq_some_iff.mp hstream
  obtain ⟨haccount, hdrained⟩ := Prod.mk.inj hfacts
  have hlog : w.log = [.emitted sampleToken 0 1] ++
      .published st.accountId :: [.published 2, .connected sampleToken] := by
    rw [hlog, haccount]
    rfl
  exact ⟨w, st, _, _, hw, hst, hlog, wakes_up 1800 sampleWoken w st hw hacts hst
    (isNone_iff_eq_none.mp hdrained) _ _ hlog (by simp)⟩

theorem run_recv_others (n : ℕ) (w : World) (st : Stream) (hst : w.stream = some st)
    (holdest : w.notifier.channel.oldest ≤ st.next)
    (hlength : w.notifier.channel.sent.length = st.next + n)
    (hothers : ∀ c ∈ w.notifier.channel.sent.drop st.next, c.accountId ≠ st.accountId) :
    ∃ st', run step w (List.replicate n .recv) = some { w with stream := some st' } ∧
      st'.accountId = st.accountId ∧ st'.next = w.notifier.channel.sent.length := by
  induction n generalizing w st with
  | zero => exact ⟨st, by rw [← hst]; rfl, rfl, hlength.symm⟩
  | succ n ih =>
    obtain ⟨c, hc⟩ : ∃ c, w.notifier.channel.sent[st.next]? = some c :=
      ⟨_, List.getElem?_eq_getElem (by omega)⟩
    have hrecv : w.notifier.channel.recv st.next = some (.value c, st.next + 1) := by
      rw [Channel.recv, if_neg (not_lt.mpr holdest), hc]
      rfl
    have hunread := Channel.unread_of_value hrecv
    rw [Channel.unread, Channel.unread, max_eq_left holdest,
      max_eq_left (holdest.trans (le_succ _))] at hunread
    have hother : c.accountId ≠ st.accountId := hothers c (by rw [hunread]; exact mem_cons_self)
    have hstep : step w .recv =
        some { w with stream := some { st with next := st.next + 1, slept := w.now } } := by
      simp only [step, hst, bind_some, hrecv, map_some, World.received, if_neg hother]
    obtain ⟨st', hrun, haccount, hnext⟩ := ih
      { w with stream := some { st with next := st.next + 1, slept := w.now } } _ rfl
      (holdest.trans (le_succ _)) (hlength.trans (succ_add_eq_add_succ st.next n).symm)
      fun d hd => hothers d (by rw [hunread]; exact mem_cons_of_mem _ hd)
    refine ⟨st', ?_, haccount, hnext⟩
    rw [replicate_succ, run, hstep]
    exact hrun

/-- The account's notification, a channel full of another account's after it, and the stream's first
look. -/
def sampleFlood : List Act :=
  [sampleUnlock, .connect sampleToken, .notify 1] ++ List.replicate 256 (.notify 2) ++ [.recv]

/-- The stream is told that it has fallen behind, receives what is left, and emits nothing. -/
theorem flood_loses_wake_up :
    ∃ w st newer older,
      run step (.start 1800) (sampleFlood ++ List.replicate 256 .recv) = some w ∧
      w.stream = some st ∧ w.notifier.channel.recv st.next = none ∧
      w.log = newer ++ .published st.accountId :: older ∧ (∀ token, .connected token ∉ newer) ∧
      ∀ token time state, .emitted token time state ∉ newer := by
  have hends : ((run step (.start 1800) sampleFlood).map fun w =>
      (w.log, w.stream.map fun st => (st.accountId, st.next), w.notifier.channel.capacity,
        w.notifier.channel.sent.map AccountChanged.accountId)) =
      some (List.replicate 256 (.published 2) ++ [.published 1, .connected sampleToken], some (1, 1),
        256, 1 :: List.replicate 256 2) := by
    decide +kernel
  obtain ⟨w, hw, hfacts⟩ := map_eq_some_iff.mp hends
  simp only [Prod.mk.injEq] at hfacts
  obtain ⟨hlog, hstream, hcapacity, hsent⟩ := hfacts
  obtain ⟨st, hst, hfacts⟩ := map_eq_some_iff.mp hstream
  obtain ⟨haccount, hnext⟩ := Prod.mk.inj hfacts
  have hlength : w.notifier.channel.sent.length = 257 := by
    have hlen := congrArg List.length hsent
    rwa [length_map, length_cons, length_replicate] at hlen
  obtain ⟨st', hrun, haccount', hnext'⟩ := run_recv_others 256 w st hst
    (by rw [Channel.oldest, hlength, hcapacity, hnext]) (by rw [hlength, hnext]) (by
      intro c hc
      have hmem := mem_map_of_mem (f := AccountChanged.accountId) hc
      rw [map_drop, hsent, hnext, drop_succ_cons, drop_zero] at hmem
      rw [haccount, eq_of_mem_replicate hmem]
      decide)
  refine ⟨{ w with stream := some st' }, st', List.replicate 256 (.published 2),
    [.connected sampleToken], ?_, rfl, ?_, ?_, ?_, ?_⟩
  · rw [run_append, hw, bind_some, hrun]
  · rw [hnext']
    exact w.notifier.channel.recv_at_end
  · exact hlog.trans (by rw [haccount', haccount])
  · intro token hmem
    cases eq_of_mem_replicate hmem
  · intro token time state hmem
    cases eq_of_mem_replicate hmem

end Litterae.Jmap.Push
