import Litterae.Foundations.Text
import Mathlib.Algebra.Group.Nat.Defs

/-! # The login throttle (`common/src/throttle.rs`)

`Instant + Duration` panics past the last instant of the clock, and a panic under the mutex poisons it
for every later call: `call` has both cases. The delays the servers set, a second doubled up to a minute,
never get there, so they use the throttle's own operations.
-/

namespace Litterae
open Foundations

structure ThrottleEntry where
  failures : ℕ
  lockedUntil : ℕ
  deriving DecidableEq

/-- Instants and durations are counted in one unit from one origin. -/
structure LoginThrottle where
  entries : Text → Option ThrottleEntry
  baseDelay : ℕ
  maxDelay : ℕ

namespace LoginThrottle

def new (baseDelay maxDelay : ℕ) : LoginThrottle := { entries := fun _ => none, baseDelay, maxDelay }

def check (t : LoginThrottle) (now : ℕ) (key : Text) : Except ℕ Unit :=
  match t.entries key with
  | some entry => if now < entry.lockedUntil then .error (entry.lockedUntil - now) else .ok ()
  | none => .ok ()

def put (t : LoginThrottle) (key : Text) (entry : Option ThrottleEntry) : LoginThrottle :=
  { t with entries := fun k => if k = key then entry else t.entries k }

/-- The count of failures after one more: a `u32` that saturates. -/
def nextFailures (t : LoginThrottle) (key : Text) : ℕ :=
  min (((t.entries key).map ThrottleEntry.failures).getD 0 + 1) (2 ^ 32 - 1)

def failureDelay (t : LoginThrottle) (key : Text) : ℕ :=
  min (t.baseDelay * 2 ^ min (t.nextFailures key - 1) 10) t.maxDelay

/-- `record_failure` for a lock that ends within the clock's range. -/
def recordFailure (t : LoginThrottle) (now : ℕ) (key : Text) : LoginThrottle :=
  t.put key (some { failures := t.nextFailures key, lockedUntil := now + t.failureDelay key })

def recordSuccess (t : LoginThrottle) (key : Text) : LoginThrottle := t.put key none

/-- The instant at which the lock of `key` ends, or the origin if it has none. -/
def lockEnd (t : LoginThrottle) (key : Text) : ℕ :=
  ((t.entries key).map ThrottleEntry.lockedUntil).getD 0

theorem check_eq (t : LoginThrottle) (now : ℕ) (key : Text) :
    t.check now key = if now < t.lockEnd key then .error (t.lockEnd key - now) else .ok () := by
  unfold check lockEnd
  cases t.entries key with
  | none => simp
  | some => rfl

theorem lockEnd_recordFailure (t : LoginThrottle) (now : ℕ) (key other : Text) :
    (t.recordFailure now key).lockEnd other =
      if other = key then now + t.failureDelay key else t.lockEnd other := by
  unfold lockEnd recordFailure put
  by_cases h : other = key
  · simp [h]
  · simp [h]

/-- From `now` on both keys are locked out together, and for the same time. -/
def LockedAlike (t : LoginThrottle) (now : ℕ) (key other : Text) : Prop :=
  ∀ later, now ≤ later → t.check later key = t.check later other

variable {t : LoginThrottle}

theorem lockedAlike_iff {now : ℕ} {key other : Text} :
    t.LockedAlike now key other ↔ max now (t.lockEnd key) = max now (t.lockEnd other) := by
  constructor
  · intro h
    -- at the later of the two ends one key is free, so the other is too
    have hfree : ∀ later, now ≤ later → (later < t.lockEnd key ↔ later < t.lockEnd other) := by
      intro later hlater
      have hcheck := h later hlater
      rw [check_eq, check_eq] at hcheck
      by_cases hkey : later < t.lockEnd key <;> by_cases hother : later < t.lockEnd other
      · simp [hkey, hother]
      · rw [if_pos hkey, if_neg hother] at hcheck
        cases hcheck
      · rw [if_neg hkey, if_pos hother] at hcheck
        cases hcheck
      · simp [hkey, hother]
    have hnow := hfree (max now (t.lockEnd key)) (le_max_left _ _)
    have hnow' := hfree (max now (t.lockEnd other)) (le_max_left _ _)
    omega
  · intro h later hlater
    have hend : later < t.lockEnd key ↔ later < t.lockEnd other := by omega
    rw [check_eq, check_eq]
    by_cases hlocked : later < t.lockEnd key
    · have hlocked' := hend.mp hlocked
      have hsame : t.lockEnd key = t.lockEnd other := by omega
      rw [if_pos hlocked, if_pos hlocked', hsame]
    · rw [if_neg hlocked, if_neg (mt hend.mpr hlocked)]

theorem lockedAlike_recordFailure_iff {now : ℕ} {key other : Text} :
    (t.recordFailure now key).LockedAlike now key other ↔
      other = key ∨ max now (t.lockEnd other) = now + t.failureDelay key := by
  rw [lockedAlike_iff, lockEnd_recordFailure, lockEnd_recordFailure, if_pos rfl]
  by_cases h : other = key
  · simp [h]
  · rw [if_neg h]
    constructor
    · intro heq
      exact .inr (by omega)
    · rintro (heq | heq)
      · exact absurd heq h
      · omega

/-! ## Histories of calls -/

inductive Call where
  | check (key : Text)
  | recordFailure (key : Text)
  | recordSuccess (key : Text)
  deriving DecidableEq

def Call.key : Call → Text
  | .check key | .recordFailure key | .recordSuccess key => key

/-- The throttle after a call made at an instant, `none` once the mutex is poisoned. `latest` is the
last instant of the clock. -/
def call (latest : ℕ) : Option LoginThrottle → ℕ × Call → Option LoginThrottle
  | none, _ => none
  | some t, (_, .check _) => some t
  | some t, (now, .recordFailure key) =>
    if now + t.failureDelay key ≤ latest then some (t.recordFailure now key) else none
  | some t, (_, .recordSuccess key) => some (t.recordSuccess key)

def after (latest baseDelay maxDelay : ℕ) (calls : List (ℕ × Call)) : Option LoginThrottle :=
  calls.foldl (call latest) (some (new baseDelay maxDelay))

/-- The instants of the failures recorded for `key` since its last success, the latest first. -/
def failuresOf (key : Text) (calls : List (ℕ × Call)) : List ℕ :=
  (calls.reverse.takeWhile fun c => c.2 ≠ .recordSuccess key).filterMap fun c =>
    if c.2 = .recordFailure key then some c.1 else none

def scheduledDelay (baseDelay maxDelay k : ℕ) : ℕ := min (baseDelay * 2 ^ min (k - 1) 10) maxDelay

def scheduledEntry (baseDelay maxDelay : ℕ) (failures : List ℕ) : Option ThrottleEntry :=
  failures.head?.map fun last =>
    { failures := min failures.length (2 ^ 32 - 1)
      lockedUntil := last + scheduledDelay baseDelay maxDelay failures.length }

/-- Each failure of the history locks its key until an instant within the clock's range. -/
def InRange (latest baseDelay maxDelay : ℕ) (calls : List (ℕ × Call)) : Prop :=
  ∀ before now key, before ++ [(now, .recordFailure key)] <+: calls →
    now + scheduledDelay baseDelay maxDelay ((failuresOf key before).length + 1) ≤ latest

section
variable {latest baseDelay maxDelay : ℕ} {key : Text} {calls : List (ℕ × Call)}

theorem failuresOf_concat {c : ℕ × Call} : failuresOf key (calls ++ [c]) =
    if c.2 = .recordSuccess key then [] else
      if c.2 = .recordFailure key then c.1 :: failuresOf key calls else failuresOf key calls := by
  by_cases hsuccess : c.2 = .recordSuccess key
  · simp [failuresOf, hsuccess]
  · by_cases hfailure : c.2 = .recordFailure key <;> simp [failuresOf, hsuccess, hfailure]

theorem failuresOf_filter :
    failuresOf key (calls.filter fun c => c.2.key = key) = failuresOf key calls := by
  induction calls using List.reverseRecOn with
  | nil => rfl
  | append_singleton _ c ih =>
    by_cases hkey : c.2.key = key
    · simp [hkey, failuresOf_concat, ih]
    · have hother : c.2 ≠ .recordSuccess key ∧ c.2 ≠ .recordFailure key := by
        constructor <;> intro h <;> simp [h, Call.key] at hkey
      simp [hkey, failuresOf_concat, hother, ih]

/-- The throttle holds for every key what the schedule asks for after `calls`. -/
structure Scheduled (baseDelay maxDelay : ℕ) (calls : List (ℕ × Call)) (t : LoginThrottle) :
    Prop where
  base : t.baseDelay = baseDelay
  max : t.maxDelay = maxDelay
  entries : ∀ key, t.entries key = scheduledEntry baseDelay maxDelay (failuresOf key calls)

theorem failures_saturate (failures : List ℕ) :
    ((scheduledEntry baseDelay maxDelay failures).map ThrottleEntry.failures).getD 0 =
      min failures.length (2 ^ 32 - 1) := by
  cases failures <;> rfl

theorem Scheduled.nextFailures (h : Scheduled baseDelay maxDelay calls t) :
    t.nextFailures key = min ((failuresOf key calls).length + 1) (2 ^ 32 - 1) := by
  rw [LoginThrottle.nextFailures, h.entries, failures_saturate]
  omega

theorem Scheduled.failureDelay (h : Scheduled baseDelay maxDelay calls t) :
    t.failureDelay key = scheduledDelay baseDelay maxDelay ((failuresOf key calls).length + 1) := by
  have hexponent : min (min ((failuresOf key calls).length + 1) (2 ^ 32 - 1) - 1) 10 =
      min ((failuresOf key calls).length + 1 - 1) 10 := by omega
  rw [LoginThrottle.failureDelay, h.nextFailures, h.base, h.max, hexponent, scheduledDelay]

theorem Scheduled.recordFailure (h : Scheduled baseDelay maxDelay calls t) (now : ℕ) (other : Text) :
    Scheduled baseDelay maxDelay (calls ++ [(now, .recordFailure other)])
      (t.recordFailure now other) := by
  refine ⟨h.base, h.max, fun key => ?_⟩
  by_cases hkey : key = other
  · simp [LoginThrottle.recordFailure, put, failuresOf_concat, hkey, scheduledEntry, h.nextFailures,
      h.failureDelay]
  · simp [LoginThrottle.recordFailure, put, failuresOf_concat, hkey, Ne.symm hkey, h.entries]

theorem Scheduled.recordSuccess (h : Scheduled baseDelay maxDelay calls t) (now : ℕ) (other : Text) :
    Scheduled baseDelay maxDelay (calls ++ [(now, .recordSuccess other)]) (t.recordSuccess other) := by
  refine ⟨h.base, h.max, fun key => ?_⟩
  by_cases hkey : key = other
  · simp [LoginThrottle.recordSuccess, put, failuresOf_concat, hkey, scheduledEntry]
  · simp [LoginThrottle.recordSuccess, put, failuresOf_concat, hkey, Ne.symm hkey, h.entries]

theorem inRange_concat {c : ℕ × Call} : InRange latest baseDelay maxDelay (calls ++ [c]) ↔
    InRange latest baseDelay maxDelay calls ∧ ∀ now key, c = (now, .recordFailure key) →
      now + scheduledDelay baseDelay maxDelay ((failuresOf key calls).length + 1) ≤ latest := by
  simp only [InRange, List.prefix_concat_iff]
  constructor
  · intro h
    exact ⟨fun before now key hpre => h before now key (.inr hpre),
      fun now key hc => h calls now key (.inl (by rw [hc]))⟩
  · rintro ⟨hbefore, hlast⟩ before now key (heq | hpre)
    · obtain ⟨rfl, hc⟩ := List.append_inj' heq rfl
      exact hlast now key (List.cons.inj hc).1.symm
    · exact hbefore before now key hpre

theorem InRange.filter (h : InRange latest baseDelay maxDelay calls) (key : Text) :
    InRange latest baseDelay maxDelay (calls.filter fun c => c.2.key = key) := by
  induction calls using List.reverseRecOn with
  | nil => exact h
  | append_singleton _ c ih =>
    obtain ⟨hbefore, hlast⟩ := inRange_concat.mp h
    by_cases hkey : c.2.key = key
    · simp only [List.filter_append, List.filter_cons, hkey, decide_true, if_true, List.filter_nil]
      refine inRange_concat.mpr ⟨ih hbefore, ?_⟩
      rintro now other rfl
      obtain rfl : other = key := hkey
      rw [failuresOf_filter]
      exact hlast now other rfl
    · simpa [hkey] using ih hbefore

/-- The mutex is poisoned exactly once a lock would have ended past the clock; until then the throttle
keeps to the schedule. -/
theorem after_scheduled : (InRange latest baseDelay maxDelay calls →
      ∃ t, after latest baseDelay maxDelay calls = some t ∧ Scheduled baseDelay maxDelay calls t) ∧
    (¬ InRange latest baseDelay maxDelay calls → after latest baseDelay maxDelay calls = none) := by
  induction calls using List.reverseRecOn with
  | nil =>
    exact ⟨fun _ => ⟨_, rfl, rfl, rfl, fun _ => rfl⟩, fun h => absurd (by simp [InRange]) h⟩
  | append_singleton calls c ih =>
    rw [inRange_concat, after, List.foldl_concat, ← after]
    by_cases hbefore : InRange latest baseDelay maxDelay calls
    · obtain ⟨t, ht, hS⟩ := ih.1 hbefore
      rw [ht]
      obtain ⟨now, call⟩ := c
      cases call with
      | check =>
        refine ⟨fun _ => ⟨t, rfl, hS.base, hS.max, fun key => ?_⟩, fun h => absurd ⟨hbefore, ?_⟩ h⟩
        · simp [failuresOf_concat, hS.entries]
        · simp
      | recordSuccess other =>
        exact ⟨fun _ => ⟨_, rfl, hS.recordSuccess now other⟩, fun h => absurd ⟨hbefore, by simp⟩ h⟩
      | recordFailure other =>
        have hlast : ∀ p : ℕ → Text → Prop,
            (∀ n key, (now, Call.recordFailure other) = (n, .recordFailure key) → p n key) ↔ p now other :=
          fun p => ⟨fun h => h _ _ rfl, by rintro h _ _ ⟨⟩; exact h⟩
        simp only [hlast, call, hS.failureDelay]
        exact ⟨fun h => ⟨_, if_pos h.2, hS.recordFailure now other⟩,
          fun h => if_neg fun hle => h ⟨hbefore, hle⟩⟩
    · rw [ih.2 hbefore]
      exact ⟨fun h => absurd h.1 hbefore, fun _ => rfl⟩

theorem Scheduled.check_eq_error_iff (h : Scheduled baseDelay maxDelay calls t) (now r : ℕ) :
    t.check now key = .error r ↔
      ∃ k last, 1 ≤ k ∧ k = (failuresOf key calls).length ∧ (failuresOf key calls).head? = some last ∧
        now < last + scheduledDelay baseDelay maxDelay k ∧
        r = last + scheduledDelay baseDelay maxDelay k - now := by
  rw [check, h.entries]
  cases failuresOf key calls with
  | nil => simp [scheduledEntry]
  | cons last =>
    simp only [scheduledEntry, List.head?_cons, Option.map_some, Option.some.injEq]
    constructor
    · intro h
      split at h
      · next hlocked => exact ⟨_, last, by simp, rfl, rfl, hlocked, (Except.error.inj h).symm⟩
      · cases h
    · rintro ⟨k, _, -, rfl, rfl, hlocked, rfl⟩
      rw [if_pos hlocked]

end

/-- The lockout of a key is the schedule's for the failures in its own history, and no call on another
key has a part in it: its own calls alone give the same answer. This holds of every history whose locks
end within the clock's range, and of no other, since after that every check panics. -/
theorem lockouts_scheduled_iff (latest baseDelay maxDelay : ℕ) (calls : List (ℕ × Call)) :
    (∃ t, after latest baseDelay maxDelay calls = some t ∧
      (∀ now key r, t.check now key = .error r ↔
        ∃ k last, 1 ≤ k ∧ k = (failuresOf key calls).length ∧
          (failuresOf key calls).head? = some last ∧
          now < last + scheduledDelay baseDelay maxDelay k ∧
          r = last + scheduledDelay baseDelay maxDelay k - now) ∧
      ∀ key, ∃ own, after latest baseDelay maxDelay (calls.filter fun c => c.2.key = key) = some own ∧
        ∀ now, t.check now key = own.check now key) ↔
      InRange latest baseDelay maxDelay calls := by
  constructor
  · rintro ⟨t, ht, -⟩
    by_contra hnot
    rw [after_scheduled.2 hnot] at ht
    cases ht
  · intro hrange
    obtain ⟨t, ht, hS⟩ := after_scheduled.1 hrange
    refine ⟨t, ht, fun now key r => hS.check_eq_error_iff now r, fun key => ?_⟩
    obtain ⟨own, hown, hS'⟩ := after_scheduled.1 (hrange.filter key)
    refine ⟨own, hown, fun now => ?_⟩
    rw [check, check, hS.entries, hS'.entries, failuresOf_filter]

/-- Both delays the longest there are, on a clock of 63-bit seconds: the first failure poisons. -/
theorem overlong_lockout_poisons :
    after (2 ^ 63 * 10 ^ 9 - 1) (2 ^ 64 * 10 ^ 9 - 1) (2 ^ 64 * 10 ^ 9 - 1)
      [(0, .recordFailure "alice")] = none := by
  decide

end LoginThrottle
end Litterae
