import Litterae.Foundations.Run
import Mathlib.Data.List.Basic

/-! # Connections per source address (`smtp-in/src/conn_limit.rs`) -/

namespace Litterae.Smtp
open Foundations List

structure PerIpLimiter (IpAddr : Type) where
  maxPerIp : ℕ
  counts : IpAddr → Option ℕ

structure PerIpGuard (IpAddr : Type) where
  ip : IpAddr
  deriving DecidableEq

section
variable {IpAddr : Type} [DecidableEq IpAddr]

def PerIpLimiter.new (maxPerIp : ℕ) : PerIpLimiter IpAddr := { maxPerIp, counts := fun _ => none }

def PerIpLimiter.put (l : PerIpLimiter IpAddr) (ip : IpAddr) (count : Option ℕ) : PerIpLimiter IpAddr :=
  { l with counts := Function.update l.counts ip count }

/-- A refusal leaves the entry that `or_insert` may have made. -/
def PerIpLimiter.tryAcquire (l : PerIpLimiter IpAddr) (ip : IpAddr) :
    Option (PerIpGuard IpAddr) × PerIpLimiter IpAddr :=
  let count := (l.counts ip).getD 0
  if l.maxPerIp ≤ count then (none, l.put ip (some count))
  else (some ⟨ip⟩, l.put ip (some (count + 1)))

/-- `drop`; `none` is a subtraction below zero. -/
def PerIpGuard.drop (g : PerIpGuard IpAddr) (l : PerIpLimiter IpAddr) : Option (PerIpLimiter IpAddr) :=
  match l.counts g.ip with
  | none => some l
  | some 0 => none
  | some (count + 1) => some (l.put g.ip (if count = 0 then none else some count))

/-! ## The guards that are alive -/

structure Connections (IpAddr : Type) where
  limiter : PerIpLimiter IpAddr
  guards : List (PerIpGuard IpAddr)

inductive ConnEvent (IpAddr : Type) where
  | tryAcquire (ip : IpAddr)
  | drop (g : PerIpGuard IpAddr)

namespace Connections

def step (s : Connections IpAddr) : ConnEvent IpAddr → Option (Connections IpAddr)
  | .tryAcquire ip =>
    some ⟨(s.limiter.tryAcquire ip).2, (s.limiter.tryAcquire ip).1.toList ++ s.guards⟩
  | .drop g => if g ∈ s.guards then (g.drop s.limiter).map fun l => ⟨l, s.guards.erase g⟩ else none

def live (s : Connections IpAddr) (ip : IpAddr) : ℕ := s.guards.count ⟨ip⟩

def entryOf (n : ℕ) : Option ℕ := if n = 0 then none else some n

/-- The table holds the number of live guards of every address that has one, and none is over the
limit. -/
structure Counted (limit : ℕ) (s : Connections IpAddr) : Prop where
  cap : s.limiter.maxPerIp = limit
  counts : ∀ ip, s.limiter.counts ip = entryOf (s.live ip)
  within : ∀ ip, s.live ip ≤ limit

variable {limit : ℕ} {s : Connections IpAddr}

theorem Counted.getD (h : Counted limit s) (ip : IpAddr) : (s.limiter.counts ip).getD 0 = s.live ip := by
  rw [h.counts, entryOf]
  split <;> simp_all

theorem Counted.refused_iff (h : Counted limit s) (ip : IpAddr) :
    (s.limiter.tryAcquire ip).1 = none ↔ s.live ip = limit := by
  have hle := h.within ip
  rw [PerIpLimiter.tryAcquire, h.getD, h.cap]
  split
  · simp; omega
  · simp; omega

theorem Counted.drop (h : Counted limit s) {g : PerIpGuard IpAddr} (hg : g ∈ s.guards) :
    g.drop s.limiter = some (s.limiter.put g.ip (entryOf (s.live g.ip - 1))) := by
  have hpos : 0 < s.live g.ip := count_pos_iff.mpr hg
  obtain ⟨n, hn⟩ := Nat.exists_eq_add_of_lt hpos
  rw [PerIpGuard.drop, h.counts, hn]
  simp [entryOf]

/-- One address gets another number of guards. -/
theorem Counted.put (h : Counted limit s) {ip : IpAddr} {n : ℕ} {guards : List (PerIpGuard IpAddr)}
    (hn : n ≤ limit) (hlive : ∀ other, guards.count ⟨other⟩ = if other = ip then n else s.live other) :
    Counted limit ⟨s.limiter.put ip (entryOf n), guards⟩ := by
  refine ⟨h.cap, fun other => ?_, fun other => ?_⟩
  all_goals
    rw [live, hlive]
    by_cases hother : other = ip
  · rw [if_pos hother, hother]
    exact Function.update_self _ _ _
  · rw [if_neg hother, ← h.counts]
    exact Function.update_of_ne hother _ _
  · rwa [if_pos hother]
  · rw [if_neg hother]
    exact h.within other

theorem Counted.step (hlimit : 1 ≤ limit) (h : Counted limit s) {e : ConnEvent IpAddr}
    {t : Connections IpAddr} (hstep : s.step e = some t) : Counted limit t := by
  have hentry : ∀ n, n ≠ 0 → some n = entryOf n := fun n hn => (if_neg hn).symm
  cases e with
  | tryAcquire ip =>
    obtain rfl := Option.some.inj hstep
    rw [PerIpLimiter.tryAcquire, h.getD, h.cap]
    split
    · next hfull =>
      -- a full address has an entry already: the limit is not zero
      rw [hentry (s.live ip) (by omega)]
      refine h.put (h.within ip) fun other => ?_
      split
      · next hother => rw [hother]; rfl
      · rfl
    · next hroom =>
      rw [hentry (s.live ip + 1) (Nat.succ_ne_zero _)]
      refine h.put (Nat.lt_of_not_le hroom) fun other => ?_
      by_cases hother : other = ip
      · simp [hother, live]
      · simp [hother, live, Ne.symm hother]
  | drop g =>
    simp only [Connections.step] at hstep
    split at hstep
    · next hg =>
      rw [h.drop hg] at hstep
      obtain rfl := Option.some.inj hstep
      refine h.put (Nat.le_trans (Nat.sub_le _ _) (h.within g.ip)) fun other => ?_
      by_cases hother : other = g.ip
      · rw [if_pos hother, hother]
        exact count_erase_self
      · rw [if_neg hother]
        exact count_erase_of_ne fun heq => hother (congrArg PerIpGuard.ip heq)
    · cases hstep

theorem Counted.run (hlimit : 1 ≤ limit) {events : List (ConnEvent IpAddr)}
    (h : run Connections.step ⟨.new limit, []⟩ events = some s) : Counted limit s := by
  have hnew : Counted limit (⟨.new limit, []⟩ : Connections IpAddr) :=
    ⟨rfl, fun _ => rfl, fun _ => Nat.zero_le _⟩
  exact run_invariant (G := fun _ _ => True) (fun _ _ _ hs _ hstep => hs.step hlimit hstep) hnew
    (Along.of_forall (fun _ _ => trivial) _ _) h

end Connections

/-- Whatever connections come and go, the table counts the guards that are alive. -/
theorem connections_counted {limit : ℕ} (hlimit : 1 ≤ limit) {events : List (ConnEvent IpAddr)}
    {s : Connections IpAddr} (h : run Connections.step ⟨.new limit, []⟩ events = some s) (ip : IpAddr) :
    (s.limiter.counts ip).getD 0 = s.live ip ∧ s.live ip ≤ limit ∧
      (s.live ip = 0 → s.limiter.counts ip = none) ∧
      (∀ g ∈ s.guards, g.drop s.limiter ≠ none) ∧
      ((s.limiter.tryAcquire ip).1 = none ↔ s.live ip = limit) := by
  have hcounted := Connections.Counted.run hlimit h
  refine ⟨hcounted.getD ip, hcounted.within ip, fun hzero => ?_, fun g hg => ?_, hcounted.refused_iff ip⟩
  · rw [hcounted.counts, hzero]
    rfl
  · rw [hcounted.drop hg]
    exact Option.some_ne_none _

/-- The connection of one address is dropped, that of another stays. -/
theorem connections_counted_full :
    let events := [.tryAcquire true, .tryAcquire false, .drop ⟨true⟩]
    ∃ s : Connections Bool, run Connections.step ⟨.new 1, []⟩ events = some s ∧
      s.limiter.counts true = none ∧ (s.limiter.tryAcquire false).1 = none := by
  intro events
  have hrun : run Connections.step ⟨.new 1, []⟩ events = some _ := rfl
  have hcounted := connections_counted (Nat.le_refl 1) hrun
  exact ⟨_, hrun, (hcounted true).2.2.1 rfl, (hcounted false).2.2.2.2.mpr rfl⟩

end
end Litterae.Smtp
