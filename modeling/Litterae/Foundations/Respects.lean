import Litterae.Foundations.Exec

/-! # Computations that cannot tell two states apart

`Respects R x`: run on two states related by `R`, `x` ends the same way on both, and the states it
leaves are related again. What `R` leaves open about a state then has no influence on any answer.
-/

namespace Foundations.Exec
variable {σ τ ε ε' α β : Type}

def Respects (R : σ → σ → Prop) (x : Exec σ ε α) : Prop :=
  ∀ s s', R s s' → (x s).1 = (x s').1 ∧ R (x s).2 (x s').2

section
variable {R : σ → σ → Prop} {x : Exec σ ε α} {f : α → Exec σ ε β} {e : ε} {s s' : σ} {o : Option α}

theorem Respects.pure {a : α} : Respects R (pure a : Exec σ ε α) := fun _ _ h => ⟨rfl, h⟩

theorem Respects.throw : Respects R (throw e : Exec σ ε α) := fun _ _ h => ⟨rfl, h⟩

theorem Respects.panic : Respects R (panic : Exec σ ε α) := fun _ _ h => ⟨rfl, h⟩

/-- Where `x` ends the same way in two states, either the rest runs on both or on neither. -/
theorem bind_pair (h : (x s).1 = (x s').1 ∧ R (x s).2 (x s').2)
    {m : Res ε β × σ → Res ε β × σ → Prop}
    (hok : ∀ a t t', x s = (.ok a, t) → x s' = (.ok a, t') → R t t' → m (f a t) (f a t'))
    (hfail : ∀ r t t', R t t' → m (r, t) (r, t')) : m ((x >>= f) s) ((x >>= f) s') := by
  rw [Exec.bind_run, Exec.bind_run]
  rcases hxs : x s with ⟨r, t⟩
  rcases hxs' : x s' with ⟨r', t'⟩
  rw [hxs, hxs'] at h
  obtain ⟨hres, hstate⟩ := h
  obtain rfl : r = r' := hres
  cases r with
  | ok a => exact hok a t t' hxs hxs' hstate
  | err e | panic => exact hfail _ t t' hstate

theorem Respects.bind_run (hx : Respects R x)
    (hf : ∀ s s' a t t', R s s' → x s = (.ok a, t) → x s' = (.ok a, t') → R t t' →
      (f a t).1 = (f a t').1 ∧ R (f a t).2 (f a t').2) : Respects R (x >>= f) := fun s s' hs =>
  bind_pair (m := fun q q' => q.1 = q'.1 ∧ R q.2 q'.2) (hx s s' hs)
    (fun a t t' => hf s s' a t t' hs) fun _ _ _ ht => ⟨rfl, ht⟩

theorem Respects.bind (hx : Respects R x) (hf : ∀ a, Respects R (f a)) : Respects R (x >>= f) :=
  .bind_run hx fun _ _ a t t' _ _ _ ht => hf a t t' ht

theorem Respects.get_bind {f : σ → Exec σ ε α} (hread : ∀ s s', R s s' → f s = f s')
    (hf : ∀ s, Respects R (f s)) : Respects R (get >>= f) := by
  intro s s' hs
  rw [get_bind_run, get_bind_run, ← hread s s' hs]
  exact hf s s s' hs

theorem Respects.read {f : σ → α} (hread : ∀ s s', R s s' → f s = f s') :
    Respects R (get >>= fun s => Pure.pure (f s) : Exec σ ε α) :=
  .get_bind (fun s s' hs => by rw [hread s s' hs]) fun _ => .pure

theorem Respects.modify {f : σ → σ} (hf : ∀ s s', R s s' → R (f s) (f s')) :
    Respects R (modify f : Exec σ ε Unit) := fun s s' hs => ⟨rfl, hf s s' hs⟩

theorem Respects.update {f : σ → α × σ}
    (hf : ∀ s s', R s s' → (f s).1 = (f s').1 ∧ R (f s).2 (f s').2) :
    Respects R (update f : Exec σ ε α) := fun s s' hs =>
  ⟨congrArg Res.ok (hf s s' hs).1, (hf s s' hs).2⟩

theorem Respects.ite {c : Prop} [Decidable c] {x y : Exec σ ε α} (hx : Respects R x)
    (hy : Respects R y) : Respects R (if c then x else y) := by
  by_cases h : c
  · simpa [h] using hx
  · simpa [h] using hy

theorem Respects.whenSome {f : α → Exec σ ε Unit} (h : ∀ a, Respects R (f a)) :
    Respects R (whenSome o f) := by
  cases o with
  | some a => exact h a
  | none => exact .pure

theorem Respects.ofOption : Respects R (ofOption e o : Exec σ ε α) := by
  cases o with
  | some => exact .pure
  | none => exact .throw

theorem Respects.ofExcept {x : Except ε α} : Respects R (ofExcept x : Exec σ ε α) := by
  cases x with
  | ok => exact .pure
  | error => exact .throw

theorem Respects.orPanic : Respects R (orPanic o : Exec σ ε α) := by
  cases o with
  | some => exact .pure
  | none => exact .panic

theorem Respects.throwIf {c : Bool} : Respects R (throwIf c e : Exec σ ε Unit) := by
  cases c with
  | true => exact .throw
  | false => exact .pure

theorem Respects.eq (x : Exec σ ε α) : Respects Eq x := by
  rintro s _ rfl
  exact ⟨rfl, rfl⟩

theorem Respects.of_keeps [IsTrans σ R] (hsymm : ∀ s t, R s t → R t s)
    (hx : Keeps R x) (hres : ∀ s s', R s s' → (x s).1 = (x s').1) :
    Respects R x := by
  intro s s' hs
  have hback : R (x s).2 s := hsymm _ _ (hx s)
  exact ⟨hres s s' hs, trans_of R hback (trans_of R hs (hx s'))⟩

theorem Respects.state_bind (hx : Respects R x) (hf : ∀ a s s', R s s' → R (f a s).2 (f a s').2)
    (hs : R s s') :
    R ((x >>= f) s).2 ((x >>= f) s').2 :=
  bind_pair (m := fun q q' => R q.2 q'.2) (hx s s' hs) (fun a t t' _ _ => hf a t t')
    fun _ _ _ ht => ht

theorem Respects.outcome {y : Exec σ ε' β} (hres : ∀ s s', (x s).1 = (x s').1 → (y s).1 = (y s').1)
    (hstate : ∀ s, (y s).2 = (x s).2) (hx : Respects R x) : Respects R y := by
  intro s s' hs
  obtain ⟨h, h'⟩ := hx s s' hs
  rw [hstate, hstate]
  exact ⟨hres s s' h, h'⟩

theorem Respects.mapErr {g : ε → ε'} (hx : Respects R x) :
    Respects R (x.mapErr g) := by
  refine .outcome (fun s s' h => ?_) (fun s => state_mapErr g x s) hx
  unfold Exec.mapErr
  revert h
  cases x s with
  | mk r =>
    cases x s' with
    | mk =>
      rintro rfl
      cases r <;> rfl

theorem Respects.ignore (hx : Respects R x) :
    Respects R (x.ignore : Exec σ ε' Unit) := by
  refine .outcome (fun s s' h => ?_) (fun s => state_ignore x s) hx
  rw [ignore_outcome, ignore_outcome, h]

theorem attempt_outcome (h : (x s).1 = (x s').1) :
    ((x.attempt : Exec σ ε' (Except ε α)) s).1 = ((x.attempt : Exec σ ε' (Except ε α)) s').1 := by
  unfold Exec.attempt
  revert h
  cases x s with
  | mk r =>
    cases x s' with
    | mk =>
      rintro rfl
      cases r <;> rfl

theorem Respects.attempt (hx : Respects R x) : Respects R (x.attempt : Exec σ ε' (Except ε α)) :=
  .outcome (fun _ _ => attempt_outcome) (fun s => state_attempt x s) hx

theorem Respects.lookup {fault : Option ε} {o : σ → Option α}
    (hrun : ∀ s, x s = (lookedUp fault e (o s), s)) (hread : ∀ s s', R s s' → o s = o s') :
    Respects R x := by
  intro s s' hs
  rw [hrun, hrun, hread s s' hs]
  exact ⟨rfl, hs⟩

theorem Respects.const {r : Res ε α} (hrun : ∀ s, x s = (r, s)) : Respects R x := by
  intro s s' hs
  rw [hrun, hrun]
  exact ⟨rfl, hs⟩

theorem Respects.query_bind {g : σ → α} (hrun : ∀ s, x s = (.ok (g s), s))
    (hcongr : ∀ s s', R s s' → f (g s) = f (g s'))
    (hf : ∀ s s', R s s' → (f (g s) s).1 = (f (g s) s').1 ∧ R (f (g s) s).2 (f (g s) s').2) :
    Respects R (x >>= f) := by
  intro s s' hs
  rw [bind_of_ok (hrun s), bind_of_ok (hrun s'), ← hcongr s s' hs]
  exact hf s s' hs

theorem Respects.zoom {S : τ → τ → Prop} {get : σ → τ} {set : τ → σ → σ} {x : Exec τ ε α}
    (hget : ∀ s s', R s s' → S (get s) (get s'))
    (hset : ∀ s s' t t', R s s' → S t t' → R (set t s) (set t' s')) (hx : Respects S x) :
    Respects R (x.zoom get set) := by
  intro s s' hs
  obtain ⟨hres, hstate⟩ := hx (get s) (get s') (hget s s' hs)
  exact ⟨hres, hset s s' _ _ hs hstate⟩

/-- The states left behind may be further apart than those the computation started from. -/
def Leads (R S : σ → σ → Prop) (x : Exec σ ε α) : Prop :=
  ∀ s s', R s s' → (x s).1 = (x s').1 ∧ S (x s).2 (x s').2

section
variable {S T : σ → σ → Prop} {x : Exec σ ε α}

theorem Respects.leads (hx : Respects R x) (hS : ∀ s s', R s s' → S s s') :
    Leads R S x := fun s s' hs => ⟨(hx s s' hs).1, hS _ _ (hx s s' hs).2⟩

theorem Leads.weaken (hx : Leads S T x) (hR : ∀ s s', R s s' → S s s') :
    Leads R T x := fun s s' hs => hx s s' (hR s s' hs)

theorem Leads.bind {f : α → Exec σ ε β} (hx : Leads R S x) (hf : ∀ a, Leads S T (f a))
    (hstop : ∀ s s', S s s' → T s s') : Leads R T (x >>= f) := by
  intro s s' hs
  exact bind_pair (m := fun q q' => q.1 = q'.1 ∧ T q.2 q'.2) (hx s s' hs)
    (fun a t t' _ _ ht => hf a t t' ht) fun _ t t' ht => ⟨rfl, hstop t t' ht⟩

theorem Leads.attempt (hx : Leads R S x) :
    Leads R S (x.attempt : Exec σ ε' (Except ε α)) := by
  intro s s' hs
  obtain ⟨hres, hstate⟩ := hx s s' hs
  rw [state_attempt, state_attempt]
  exact ⟨attempt_outcome hres, hstate⟩

end
end
end Foundations.Exec
