import Litterae.Crypto.Seal

/-! # Administrator sessions (`admin/src/session.rs`)

A token stands for an administrator who has proved the password. Two flags say what is still owed:
the second factor, and a new password. Every look at a session goes through `touch`, which ends a
session that has been idle for too long and renews any other.
-/

namespace Litterae.Admin
open Foundations Option

structure Session where
  adminId : ℤ
  wrapKey : Block 32
  mustChangePassword : Bool
  mfaPending : Bool
  lastSeen : ℕ
  deriving DecidableEq

/-- Instants and durations are counted in seconds from one origin. -/
structure AdminSessionRegistry where
  sessions : Text → Option Session
  idleTimeout : ℕ

variable {token : Text} {s' : Session}

namespace AdminSessionRegistry

variable {r : AdminSessionRegistry}

def new (idleTimeout : ℕ) : AdminSessionRegistry := { sessions := fun _ => none, idleTimeout }

def put (r : AdminSessionRegistry) (token : Text) (s : Option Session) : AdminSessionRegistry :=
  { r with sessions := fun t => if t = token then s else r.sessions t }

def create (bytes : Block 32) (now : ℕ) (adminId : ℤ) (wrapKey : Block 32)
    (mustChangePassword mfaPending : Bool) (r : AdminSessionRegistry) :
    Text × AdminSessionRegistry :=
  (hexEncode bytes.val,
    r.put (hexEncode bytes.val)
      (some { adminId, wrapKey, mustChangePassword, mfaPending, lastSeen := now }))

/-- `touch`. A duration between instants does not go below zero. -/
def touch (now : ℕ) (token : Text) (r : AdminSessionRegistry) :
    Option Session × AdminSessionRegistry :=
  match r.sessions token with
  | none => (none, r)
  | some s =>
    if r.idleTimeout < now - s.lastSeen then (none, r.put token none)
    else (some { s with lastSeen := now }, r.put token (some { s with lastSeen := now }))

def completePasswordChange (now : ℕ) (token : Text) (adminId : ℤ) (newWrapKey : Block 32)
    (r : AdminSessionRegistry) : Bool × AdminSessionRegistry :=
  match r.sessions token with
  | none => (false, r)
  | some s =>
    if s.adminId ≠ adminId then (false, r)
    else
      (true,
        { r with
          sessions := fun candidate =>
            if candidate = token then
              some { s with wrapKey := newWrapKey, mustChangePassword := false, lastSeen := now }
            else none })

def completeMfa (now : ℕ) (token : Text) (adminId : ℤ) (r : AdminSessionRegistry) :
    Bool × AdminSessionRegistry :=
  match r.sessions token with
  | none => (false, r)
  | some s =>
    if s.adminId ≠ adminId then (false, r)
    else (true, r.put token (some { s with mfaPending := false, lastSeen := now }))

def remove (token : Text) (r : AdminSessionRegistry) : AdminSessionRegistry := r.put token none

@[simp] theorem put_self (r : AdminSessionRegistry) (token : Text) (s : Option Session) :
    (r.put token s).sessions token = s := by
  simp [put]

@[simp] theorem put_of_ne (r : AdminSessionRegistry) {other : Text} (h : other ≠ token)
    (s : Option Session) : (r.put token s).sessions other = r.sessions other := by
  simp [put, h]

def Live (r : AdminSessionRegistry) (now : ℕ) (token : Text) (s : Session) : Prop :=
  r.sessions token = some s ∧ now - s.lastSeen ≤ r.idleTimeout

theorem touch_of_live {now : ℕ} {s : Session} (h : r.Live now token s) :
    r.touch now token =
      (some { s with lastSeen := now }, r.put token (some { s with lastSeen := now })) := by
  obtain ⟨hsession, hidle⟩ := h
  rw [touch, hsession]
  exact if_neg (by omega)

theorem touch_some {now : ℕ} (h : (r.touch now token).1 = some s') :
    ∃ s, r.Live now token s ∧ s' = { s with lastSeen := now } := by
  unfold touch at h
  split at h
  · cases h
  · next s hsession =>
    split at h
    · cases h
    · next hidle => exact ⟨s, ⟨hsession, by omega⟩, (some.inj h).symm⟩

end AdminSessionRegistry

/-- Other sessions are as they were; the session of `token` has ended or been renewed. -/
structure Refreshed (token : Text) (r r' : AdminSessionRegistry) : Prop where
  timeout : r'.idleTimeout = r.idleTimeout
  others : ∀ other, other ≠ token → r'.sessions other = r.sessions other
  own : r'.sessions token = none ∨
    ∃ s seen, r.sessions token = some s ∧ r'.sessions token = some { s with lastSeen := seen }

namespace Refreshed

theorem refl (token : Text) (r : AdminSessionRegistry) : Refreshed token r r := by
  refine ⟨rfl, fun _ _ => rfl, ?_⟩
  cases hsession : r.sessions token with
  | none => exact .inl rfl
  | some s => exact .inr ⟨s, s.lastSeen, rfl, rfl⟩

theorem trans {r r' r'' : AdminSessionRegistry} (h : Refreshed token r r')
    (h' : Refreshed token r' r'') : Refreshed token r r'' := by
  refine ⟨h'.timeout.trans h.timeout,
    fun other hne => (h'.others other hne).trans (h.others other hne), ?_⟩
  rcases h'.own with hnone | ⟨s', seen, hs', hs''⟩
  · exact .inl hnone
  · rcases h.own with hnone | ⟨s, seen', hs, hr'⟩
    · rw [hnone] at hs'; cases hs'
    · rw [hr', some.injEq] at hs'
      exact .inr ⟨s, seen, hs, by rw [hs'', ← hs']⟩

theorem touch (now : ℕ) (token : Text) (r : AdminSessionRegistry) :
    Refreshed token r (r.touch now token).2 := by
  unfold AdminSessionRegistry.touch
  split
  · exact refl token r
  · next s hsession =>
    split
    · exact ⟨rfl, fun other hne => r.put_of_ne hne _, .inl (by simp)⟩
    · exact ⟨rfl, fun other hne => r.put_of_ne hne _, .inr ⟨s, now, hsession, by simp⟩⟩

theorem session {r r' : AdminSessionRegistry} (h : Refreshed token r r')
    (hs' : r'.sessions token = some s') :
    ∃ s, r.sessions token = some s ∧ s' = { s with lastSeen := s'.lastSeen } := by
  rcases h.own with hnone | ⟨s, seen, hs, hr'⟩
  · rw [hnone] at hs'; cases hs'
  · rw [hr', some.injEq] at hs'
    exact ⟨s, hs, by rw [← hs']⟩

end Refreshed
end Litterae.Admin
