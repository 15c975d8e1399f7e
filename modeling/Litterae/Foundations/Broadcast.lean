import Mathlib.Data.List.Infix

/-! # A bounded broadcast channel

The channel keeps the last `capacity` values that were sent. A receiver has a position in what was
sent; one that has fallen behind is told so once, and goes on at the oldest value that is kept.
-/

namespace Foundations
open List Nat Option

structure Channel (α : Type) where
  capacity : ℕ
  sent : List α

inductive Received (α : Type) where
  | value (a : α)
  | lagged (missed : ℕ)
  deriving DecidableEq

namespace Channel
variable {α : Type}

def send (c : Channel α) (a : α) : Channel α := { c with sent := c.sent ++ [a] }

def oldest (c : Channel α) : ℕ := c.sent.length - c.capacity

/-- What a receiver at `next` gets, and its position afterwards; nothing while it has to wait. -/
def recv (c : Channel α) (next : ℕ) : Option (Received α × ℕ) :=
  if next < c.oldest then some (.lagged (c.oldest - next), c.oldest)
  else (c.sent[next]?).map fun a => (.value a, next + 1)

def unread (c : Channel α) (next : ℕ) : List α := c.sent.drop (max next c.oldest)

variable {c : Channel α} {a : α} {next after : ℕ}

theorem unread_of_recv_none (h : c.recv next = none) : c.unread next = [] := by
  rw [recv] at h
  split at h
  · cases h
  · have hlen := List.getElem?_eq_none_iff.mp (map_eq_none_iff.mp h)
    exact drop_eq_nil_of_le (hlen.trans (le_max_left _ _))

theorem unread_of_lagged {missed : ℕ} (h : c.recv next = some (.lagged missed, after)) :
    c.unread after = c.unread next := by
  rw [recv] at h
  split at h
  · next hlt =>
    obtain ⟨-, rfl⟩ := Prod.mk.inj (some.inj h)
    rw [unread, unread, max_self, max_eq_right hlt.le]
  · obtain ⟨b, -, hb⟩ := map_eq_some_iff.mp h
    cases hb

theorem unread_of_value (h : c.recv next = some (.value a, after)) :
    c.unread next = a :: c.unread after := by
  rw [recv] at h
  split at h
  · cases h
  · next hge =>
    obtain ⟨b, hb, heq⟩ := map_eq_some_iff.mp h
    obtain ⟨hval, rfl⟩ := Prod.mk.inj heq
    obtain rfl := Received.value.inj hval
    obtain ⟨hlt, rfl⟩ := List.getElem?_eq_some_iff.mp hb
    have hold : c.oldest ≤ next := not_lt.mp hge
    rw [unread, unread, max_eq_left hold, max_eq_left (hold.trans (le_succ next))]
    exact drop_eq_getElem_cons hlt

theorem le_of_recv {r : Received α} (h : c.recv next = some (r, after)) :
    after ≤ c.sent.length := by
  rw [recv] at h
  split at h
  · obtain ⟨-, rfl⟩ := Prod.mk.inj (some.inj h)
    exact sub_le _ _
  · obtain ⟨b, hb, heq⟩ := map_eq_some_iff.mp h
    obtain ⟨-, rfl⟩ := Prod.mk.inj heq
    exact (List.getElem?_eq_some_iff.mp hb).1

theorem recv_at_end (c : Channel α) : c.recv c.sent.length = none := by
  have hge : ¬ c.sent.length < c.oldest := not_lt.mpr (sub_le _ _)
  rw [recv, if_neg hge, List.getElem?_eq_none (le_refl _)]
  rfl

theorem mem_unread_send (hcap : 0 < c.capacity) (hnext : next ≤ c.sent.length) :
    a ∈ (c.send a).unread next := by
  have hle : max next (c.send a).oldest ≤ c.sent.length := by
    refine max_le hnext ?_
    simp only [oldest, send, length_append, length_singleton]
    omega
  have hunread : (c.send a).unread next = c.sent.drop (max next (c.send a).oldest) ++ [a] :=
    drop_append_of_le_length hle
  rw [hunread]
  exact mem_append_right _ mem_cons_self

theorem mem_unread_send_of_kept {b : α} (h : b ∈ c.sent.drop (max next (c.send a).oldest)) :
    b ∈ (c.send a).unread next := by
  rw [unread, send, drop_append]
  exact mem_append_left _ h

theorem mem_unread_send_of_room {b : α} (hroom : c.sent.length < c.capacity)
    (h : b ∈ c.unread next) : b ∈ (c.send a).unread next := by
  have holdest : (c.send a).oldest = c.oldest := by
    simp only [oldest, send, length_append, length_singleton]
    omega
  refine mem_unread_send_of_kept ?_
  rwa [holdest]

/-- Sending to a full channel pushes out its oldest value. -/
theorem mem_unread_send_of_full {b : α} (hfull : c.capacity ≤ c.sent.length)
    (h : b ∈ c.unread (max next (c.oldest + 1))) : b ∈ (c.send a).unread next := by
  have holdest : (c.send a).oldest = c.oldest + 1 := by
    simp only [oldest, send, length_append, length_singleton]
    omega
  have hmax : max (max next (c.oldest + 1)) c.oldest = max next (c.oldest + 1) :=
    max_eq_left ((le_succ _).trans (le_max_right _ _))
  refine mem_unread_send_of_kept ?_
  rwa [holdest, ← hmax]

end Channel
end Foundations
