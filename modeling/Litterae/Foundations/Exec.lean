import Mathlib.Data.Nat.Notation
import Mathlib.Order.Defs.Unbundled

/-! # Computations that return, fail or panic over a state

`Exec σ ε α` runs on a state `σ` and ends with a value, with an error of type `ε` that its caller
sees, or with a panic.
-/

namespace Foundations
open Nat

inductive Res (ε α : Type) where
  | ok (a : α)
  | err (e : ε)
  | panic
  deriving DecidableEq

namespace Res
variable {ε α : Type}

def isOk : Res ε α → Bool
  | .ok _ => true
  | _ => false

theorem isOk_iff {r : Res ε α} : r.isOk ↔ ∃ a, r = .ok a := by
  cases r <;> simp [isOk]

def returns : Res ε α → Bool
  | .panic => false
  | _ => true

end Res

/-- A computation over the state `σ`. -/
def Exec (σ ε α : Type) : Type := σ → Res ε α × σ

namespace Exec
variable {σ ε ε' α β : Type} {x : Exec σ ε α} {R : σ → σ → Prop} {f : α → Exec σ ε β} {s : σ}
  {t : σ} {p : σ → Prop} {a : α} {e : ε} {o : Option α}

protected def pure (a : α) : Exec σ ε α := fun s => (.ok a, s)

protected def bind (x : Exec σ ε α) (f : α → Exec σ ε β) : Exec σ ε β := fun s =>
  match x s with
  | (.ok a, t) => f a t
  | (.err e, t) => (.err e, t)
  | (.panic, t) => (.panic, t)

instance : Monad (Exec σ ε) where
  pure := Exec.pure
  bind := Exec.bind

def throw (e : ε) : Exec σ ε α := fun s => (.err e, s)

def panic : Exec σ ε α := fun s => (.panic, s)

def get : Exec σ ε σ := fun s => (.ok s, s)

def modify (f : σ → σ) : Exec σ ε Unit := fun s => (.ok (), f s)

def update (f : σ → α × σ) : Exec σ ε α := fun s => (.ok (f s).1, (f s).2)

def mapErr (g : ε → ε') (x : Exec σ ε α) : Exec σ ε' α := fun s =>
  match x s with
  | (.ok a, t) => (.ok a, t)
  | (.err e, t) => (.err (g e), t)
  | (.panic, t) => (.panic, t)

def ofOption (e : ε) : Option α → Exec σ ε α
  | some a => Exec.pure a
  | none => throw e

def ofExcept : Except ε α → Exec σ ε α
  | .ok a => Exec.pure a
  | .error e => throw e

def orPanic : Option α → Exec σ ε α
  | some a => Exec.pure a
  | none => panic

def throwIf (c : Bool) (e : ε) : Exec σ ε Unit := if c then throw e else Exec.pure ()

def ignore (x : Exec σ ε α) : Exec σ ε' Unit := fun s =>
  match x s with
  | (.ok _, t) => (.ok (), t)
  | (.err _, t) => (.ok (), t)
  | (.panic, t) => (.panic, t)

/-- A call whose error its caller looks at; its panic is not caught. -/
def attempt (x : Exec σ ε α) : Exec σ ε' (Except ε α) := fun s =>
  match x s with
  | (.ok a, t) => (.ok (.ok a), t)
  | (.err e, t) => (.ok (.error e), t)
  | (.panic, t) => (.panic, t)

def zoom {τ : Type} (get : σ → τ) (set : τ → σ → σ) (x : Exec τ ε α) : Exec σ ε α := fun s =>
  ((x (get s)).1, set (x (get s)).2 s)

def whenSome (o : Option α) (f : α → Exec σ ε Unit) : Exec σ ε Unit :=
  match o with
  | some a => f a
  | none => Exec.pure ()

/-! ## Running one operation -/

@[simp] theorem pure_run : (pure a : Exec σ ε α) s = (.ok a, s) := rfl

theorem bind_run (x : Exec σ ε α) (f : α → Exec σ ε β) (s : σ) :
    (x >>= f) s = match x s with
      | (.ok a, t) => f a t
      | (.err e, t) => (.err e, t)
      | (.panic, t) => (.panic, t) := rfl

@[simp] theorem throw_run : (throw e : Exec σ ε α) s = (.err e, s) := rfl

@[simp] theorem get_run (s : σ) : (get : Exec σ ε σ) s = (.ok s, s) := rfl

@[simp] theorem modify_run {f : σ → σ} (s : σ) : (modify f : Exec σ ε Unit) s = (.ok (), f s) := rfl

@[simp] theorem update_run (f : σ → α × σ) :
    (update f : Exec σ ε α) s = (.ok (f s).1, (f s).2) := rfl

variable {c : Prop}

@[simp] theorem ite_run [Decidable c] {x y : Exec σ ε α} :
    (if c then x else y) s = if c then x s else y s := by
  by_cases h : c
  · simp [h]
  · simp [h]

theorem bind_of_ok (h : x s = (.ok a, t)) : (x >>= f) s = f a t := by
  rw [bind_run, h]

theorem bind_of_err (h : x s = (.err e, t)) : (x >>= f) s = (.err e, t) := by
  rw [bind_run, h]

theorem bind_of_panic (h : x s = (.panic, t)) : (x >>= f) s = (.panic, t) := by
  rw [bind_run, h]

theorem get_bind_run (f : σ → Exec σ ε β) : (get >>= f) s = f s s := rfl

theorem ofOption_bind_run :
    (ofOption e o >>= f) s = match o with
      | some a => f a s
      | none => (.err e, s) := by
  cases o <;> rfl

theorem ofOption_some_bind :
    (ofOption e (some a) >>= f) = f a := rfl

theorem ofExcept_bind_run (x : Except ε α) :
    (ofExcept x >>= f) s = match x with
      | .ok a => f a s
      | .error e => (.err e, s) := by
  cases x <;> rfl

theorem ofExcept_ok {x : Except ε α} (h : (Exec.ofExcept x : Exec σ ε α) s = (.ok a, t)) :
    x = .ok a ∧ t = s := by
  cases x with
  | error => cases h
  | ok =>
    cases h
    exact ⟨rfl, rfl⟩

theorem orPanic_bind_run :
    (orPanic o >>= f) s = match o with
      | some a => f a s
      | none => (.panic, s) := by
  cases o <;> rfl

theorem orPanic_ok (h : (Exec.orPanic o : Exec σ ε α) s = (.ok a, t)) : o = some a ∧ t = s := by
  cases o with
  | none => cases h
  | some =>
    cases h
    exact ⟨rfl, rfl⟩

theorem throwIf_bind_run (c : Bool) (f : Unit → Exec σ ε β) :
    (throwIf c e >>= f) s = if c then (.err e, s) else f () s := by
  cases c <;> rfl

theorem attempt_bind_run (f : Except ε α → Exec σ ε' β) :
    (x.attempt >>= f) s = match x s with
      | (.ok a, t) => f (.ok a) t
      | (.err e, t) => f (.error e) t
      | (.panic, t) => (.panic, t) := by
  rw [bind_run, attempt]
  rcases x s with ⟨_ | _ | _, t⟩ <;> rfl

theorem ofOption_ok (h : (ofOption e o : Exec σ ε α) s = (.ok a, t)) : o = some a ∧ t = s := by
  cases o with
  | none => cases h
  | some => cases h; exact ⟨rfl, rfl⟩

theorem throwIf_ok {c : Bool} {u : Unit} (h : (throwIf c e : Exec σ ε Unit) s = (.ok u, t)) :
    c = false ∧ t = s := by
  cases c with
  | true => cases h
  | false => cases h; exact ⟨rfl, rfl⟩

/-- Either the rest runs on what `x` has returned, or `x` has failed and the rest does not run. -/
theorem bind_cases {m : Res ε β × σ → Prop} (hok : ∀ a t, x s = (.ok a, t) → m (f a t))
    (hfail : ∀ r, r.isOk = false → (x s).1.isOk = false → r.returns = (x s).1.returns →
      m (r, (x s).2)) : m ((x >>= f) s) := by
  match hxs : x s with
  | (.ok a, t) => rw [bind_of_ok hxs]; exact hok a t hxs
  | (.err e, t) => rw [bind_of_err hxs]; rw [hxs] at hfail; exact hfail _ rfl rfl rfl
  | (.panic, t) => rw [bind_of_panic hxs]; rw [hxs] at hfail; exact hfail _ rfl rfl rfl

theorem bind_ok {u : σ} {b : β} (h : (x >>= f) s = (.ok b, u)) :
    ∃ a t, x s = (.ok a, t) ∧ f a t = (.ok b, u) := by
  rw [bind_run] at h
  match hx : x s with
  | (.ok a, t) => rw [hx] at h; exact ⟨a, t, rfl, h⟩
  | (.err e, t) => rw [hx] at h; simp at h
  | (.panic, t) => rw [hx] at h; simp at h

theorem state_bind (hx : p (x s).2) (hf : ∀ a t, x s = (.ok a, t) → p (f a t).2) :
    p ((x >>= f) s).2 :=
  bind_cases (m := fun q => p q.2) hf fun _ _ _ _ => hx

theorem isOk_bind :
    ((x >>= f) s).1.isOk ↔ ∃ a t, x s = (.ok a, t) ∧ (f a t).1.isOk := by
  match hxs : x s with
  | (.ok a, t) => rw [bind_of_ok hxs]; simp [and_assoc]
  | (.err e, t) => rw [bind_of_err hxs]; simp [Res.isOk]
  | (.panic, t) => rw [bind_of_panic hxs]; simp [Res.isOk]

theorem isOk_bind_pure (f : α → β) :
    ((x >>= fun a => pure (f a)) s).1.isOk = (x s).1.isOk := by
  rw [bind_run]
  rcases x s with ⟨_ | _ | _, t⟩ <;> rfl

/-! ## Lookups that check what they find -/

/-- How a lookup ends that comes to `o` if nothing fails before. -/
def lookedUp (fault : Option ε) (e : ε) (o : Option α) : Res ε α :=
  fault.elim (o.elim (.err e) .ok) .err

theorem lookedUp_ok {fault : Option ε} : lookedUp fault e o = .ok a ↔ fault = none ∧ o = some a := by
  cases fault <;> cases o <;> simp [lookedUp]

theorem lookedUp_returns {fault : Option ε} : (lookedUp fault e o).returns := by
  cases fault <;> cases o <;> rfl

theorem check_run [Decidable c] :
    (if c then pure a else throw e : Exec σ ε α) s =
      (lookedUp none e ((some a).filter fun _ => decide c), s) := by
  by_cases h : c <;> simp [lookedUp, Option.filter, h]

/-! ## Panics -/

def NoPanic (x : Exec σ ε α) : Prop := ∀ s, (x s).1.returns = true

theorem NoPanic.pure : NoPanic (pure a : Exec σ ε α) := fun _ => rfl

theorem NoPanic.throw : NoPanic (throw e : Exec σ ε α) := fun _ => rfl

theorem NoPanic.get : NoPanic (get : Exec σ ε σ) := fun _ => rfl

theorem NoPanic.modify (f : σ → σ) : NoPanic (modify f : Exec σ ε Unit) := fun _ => rfl

theorem NoPanic.update (f : σ → α × σ) : NoPanic (update f : Exec σ ε α) := fun _ => rfl

theorem returns_bind (hx : (x s).1.returns) (hf : ∀ a t, x s = (.ok a, t) → (f a t).1.returns) :
    ((x >>= f) s).1.returns := by
  refine bind_cases (m := fun q => q.1.returns) hf fun r _ _ hr => ?_
  rw [hr]
  exact hx

theorem NoPanic.bind (hx : NoPanic x) (hf : ∀ a, NoPanic (f a)) : NoPanic (x >>= f) := fun s =>
  returns_bind (hx s) fun a t _ => hf a t

theorem NoPanic.ite [Decidable c] {x y : Exec σ ε α} (hx : NoPanic x) (hy : NoPanic y) :
    NoPanic (if c then x else y) := by
  by_cases h : c
  · simpa [h] using hx
  · simpa [h] using hy

theorem NoPanic.ofExcept {x : Except ε α} : NoPanic (ofExcept x : Exec σ ε α) := by
  cases x <;> exact fun _ => rfl

theorem NoPanic.zoom {τ : Type} {get : σ → τ} {set : τ → σ → σ} {x : Exec τ ε α} (hx : NoPanic x) :
    NoPanic (zoom get set x) := fun s => hx (get s)

theorem NoPanic.whenSome {f : α → Exec σ ε Unit} (h : ∀ a, NoPanic (f a)) :
    NoPanic (whenSome o f) := by
  cases o with
  | some a => exact h a
  | none => exact .pure

/-! ## Relations every run keeps -/

/-- Every run of `x` relates the state before it to the state after it. -/
def Keeps (R : σ → σ → Prop) (x : Exec σ ε α) : Prop := ∀ s, R s (x s).2

section
variable {R : σ → σ → Prop} {e : ε} {o : Option α}

theorem Keeps.run {x : Exec σ ε α} (h : Keeps R x) {s t : σ} {r : Res ε α} (hx : x s = (r, t)) :
    R s t := by
  have hs := h s
  rw [hx] at hs
  exact hs

theorem Keeps.pure [Std.Refl R] {a : α} : Keeps R (pure a : Exec σ ε α) := refl

theorem Keeps.throw [Std.Refl R] : Keeps R (throw e : Exec σ ε α) := refl

theorem Keeps.get [Std.Refl R] : Keeps R (get : Exec σ ε σ) := refl

theorem Keeps.of_state [Std.Refl R] (h : ∀ s, (x s).2 = s) : Keeps R x := fun s =>
  (h s).symm ▸ refl s

theorem Keeps.modify {f : σ → σ} (h : ∀ s, R s (f s)) : Keeps R (modify f : Exec σ ε Unit) := h

theorem Keeps.update {f : σ → α × σ} (h : ∀ s, R s (f s).2) : Keeps R (update f : Exec σ ε α) := h

theorem Keeps.bind_run [IsTrans σ R] {x : Exec σ ε α} {f : α → Exec σ ε β} (hx : Keeps R x)
    (hf : ∀ s a t, x s = (.ok a, t) → R t (f a t).2) : Keeps R (x >>= f) := by
  intro s
  exact state_bind (p := R s) (hx s) fun a t h => trans_of R (hx.run h) (hf s a t h)

theorem Keeps.bind [IsTrans σ R] {x : Exec σ ε α} {f : α → Exec σ ε β} (hx : Keeps R x)
    (hf : ∀ a, Keeps R (f a)) : Keeps R (x >>= f) :=
  .bind_run hx fun _ a t _ => hf a t

theorem Keeps.unchanged_bind [Std.Refl R] (hx : Keeps Eq x)
    (hf : ∀ a, Keeps R (f a)) : Keeps R (x >>= f) := by
  intro s
  refine state_bind (p := R s) (hx s ▸ refl s) fun a t h => ?_
  obtain rfl : s = t := hx.run h
  exact hf a s

theorem Keeps.map {x : Exec σ ε α} {f : α → β} (hx : Keeps R x) :
    Keeps R (x >>= fun a => Pure.pure (f a)) := fun s => state_bind (hx s) fun _ _ h => hx.run h

theorem Keeps.mono {R' : σ → σ → Prop} (h : ∀ s t, R s t → R' s t) {x : Exec σ ε α}
    (hx : Keeps R x) : Keeps R' x := fun s => h s _ (hx s)

theorem Keeps.ite [Decidable c] {x y : Exec σ ε α} (hx : Keeps R x) (hy : Keeps R y) :
    Keeps R (if c then x else y) := by
  by_cases h : c
  · simpa [h] using hx
  · simpa [h] using hy

theorem Keeps.whenSome [Std.Refl R] {f : α → Exec σ ε Unit} (h : ∀ a, Keeps R (f a)) :
    Keeps R (whenSome o f) := by
  cases o with
  | some a => exact h a
  | none => exact .pure

theorem Keeps.ofOption [Std.Refl R] :
    Keeps R (ofOption e o : Exec σ ε α) := by
  cases o <;> exact refl

theorem Keeps.ofExcept [Std.Refl R] {x : Except ε α} : Keeps R (ofExcept x : Exec σ ε α) := by
  cases x <;> exact refl

theorem Keeps.orPanic [Std.Refl R] : Keeps R (orPanic o : Exec σ ε α) := by
  cases o <;> exact refl

theorem Keeps.throwIf [Std.Refl R] {c : Bool} :
    Keeps R (throwIf c e : Exec σ ε Unit) := by
  cases c <;> exact refl

end

/-! ## Relations from some states on -/

def Given (p : σ → Prop) (R : σ → σ → Prop) (s t : σ) : Prop := p s → R s t

/-- `p` holds again after every step of `R`. -/
class Stable (p : σ → Prop) (R : σ → σ → Prop) : Prop where
  step : ∀ s t, R s t → p s → p t

instance [Std.Refl R] : Std.Refl (Given p R) := ⟨fun s _ => refl s⟩

instance [IsPreorder σ R] [Stable p R] : IsPreorder σ (Given p R) where
  trans := fun s t _ h h' hs => trans_of R (h hs) (h' (Stable.step s t (h hs) hs))

theorem Keeps.given (hx : Keeps R x) :
    Keeps (Given p R) x := fun s _ => hx s

def Through {τ : Type} (set : τ → σ → σ) (R : σ → σ → Prop) (m m' : τ) : Prop :=
  ∀ s, R (set m s) (set m' s)

section
variable {τ : Type} {get : σ → τ} {set : τ → σ → σ} {R : σ → σ → Prop}

instance [Std.Refl R] : Std.Refl (Through set R) := ⟨fun m s => refl (set m s)⟩

instance [IsPreorder σ R] : IsPreorder τ (Through set R) where
  trans := fun _ _ _ h h' s => trans_of R (h s) (h' s)

theorem Keeps.zoom {x : Exec τ ε α} (hlens : ∀ s, set (get s) s = s) (h : Keeps (Through set R) x) :
    Keeps R (x.zoom get set) := by
  intro s
  have hs := h (get s) s
  rw [hlens] at hs
  exact hs

end

variable {g : ε → ε'}

/-! ## A part of the state that stays the same -/

/-- The part `g` of the state is the same before and after. -/
def Same {γ : Type} (g : σ → γ) (s t : σ) : Prop := g t = g s

instance {γ : Type} {g : σ → γ} : IsPreorder σ (Same g) where
  refl := fun _ => rfl
  trans := fun _ _ _ h h' => Eq.trans h' h

theorem returns_mapErr (g : ε → ε') (x : Exec σ ε α) (s : σ) :
    (x.mapErr g s).1.returns = (x s).1.returns := by
  unfold Exec.mapErr
  rcases x s with ⟨_ | _ | _, _⟩ <;> rfl

theorem isOk_mapErr :
    (x.mapErr g s).1.isOk = (x s).1.isOk := by
  unfold Exec.mapErr
  rcases x s with ⟨_ | _ | _, _⟩ <;> rfl

theorem mapErr_ok_iff :
    x.mapErr g s = (.ok a, t) ↔ x s = (.ok a, t) := by
  unfold Exec.mapErr
  rcases x s with ⟨_ | _ | _, _⟩ <;> simp

theorem state_mapErr (g : ε → ε') (x : Exec σ ε α) (s : σ) : (x.mapErr g s).2 = (x s).2 := by
  unfold Exec.mapErr
  rcases x s with ⟨_ | _ | _, _⟩ <;> rfl

theorem NoPanic.mapErr (hx : NoPanic x) : NoPanic (x.mapErr g) :=
  fun s => (returns_mapErr g x s).trans (hx s)

theorem Keeps.mapErr (hx : Keeps R x) :
    Keeps R (x.mapErr g) := fun s => (state_mapErr g x s).symm ▸ hx s

theorem state_ignore (x : Exec σ ε α) (s : σ) : ((x.ignore : Exec σ ε' Unit) s).2 = (x s).2 := by
  unfold Exec.ignore
  rcases x s with ⟨_ | _ | _, _⟩ <;> rfl

theorem state_attempt (x : Exec σ ε α) (s : σ) :
    ((x.attempt : Exec σ ε' (Except ε α)) s).2 = (x s).2 := by
  unfold Exec.attempt
  rcases x s with ⟨_ | _ | _, _⟩ <;> rfl

theorem ignore_outcome :
    ((x.ignore : Exec σ ε' Unit) s).1 = if (x s).1.returns then .ok () else .panic := by
  unfold ignore
  rcases x s with ⟨_ | _ | _, _⟩ <;> rfl

theorem attempt_of_returns (h : (x s).1.returns) :
    ∃ answer, (x.attempt : Exec σ ε' (Except ε α)) s = (.ok answer, (x s).2) := by
  unfold attempt
  rcases hx : x s with ⟨_ | _ | _, _⟩ <;> simp_all [Res.returns]

theorem Keeps.ignore (hx : Keeps R x) :
    Keeps R (x.ignore : Exec σ ε' Unit) := fun s => (state_ignore x s).symm ▸ hx s

theorem Keeps.attempt (hx : Keeps R x) :
    Keeps R (x.attempt : Exec σ ε' (Except ε α)) := fun s => (state_attempt x s).symm ▸ hx s

/-! ## Relations every failed run keeps -/

/-- Every run of `x` that does not return a value relates the state before it to the one after. -/
def KeepsOnFailure (R : σ → σ → Prop) (x : Exec σ ε α) : Prop :=
  ∀ s, (x s).1.isOk = false → R s (x s).2

theorem KeepsOnFailure.run (h : KeepsOnFailure R x) {s t : σ} {r : Res ε α} (hx : x s = (r, t))
    (hr : r.isOk = false) : R s t := by
  have hs := h s
  rw [hx] at hs
  exact hs hr

theorem Keeps.onFailure (h : Keeps R x) : KeepsOnFailure R x :=
  fun s _ => h s

theorem KeepsOnFailure.bind [IsTrans σ R] {x : Exec σ ε α} {f : α → Exec σ ε β} (hx : Keeps R x)
    (hf : ∀ a, KeepsOnFailure R (f a)) : KeepsOnFailure R (x >>= f) := by
  intro s
  exact bind_cases (m := fun q => q.1.isOk = false → R s q.2)
    (fun a t h hfail => trans_of R (hx.run h) (hf a t hfail)) fun _ _ _ _ _ => hx s

theorem KeepsOnFailure.bind_ok (hx : KeepsOnFailure R x) (hf : ∀ a s, (f a s).1.isOk) :
    KeepsOnFailure R (x >>= f) := by
  intro s
  refine bind_cases (m := fun q => q.1.isOk = false → R s q.2) (fun a t _ hfail => ?_)
    fun _ _ hfail _ _ => hx s hfail
  rw [hf a t] at hfail
  cases hfail

theorem KeepsOnFailure.mapErr (hx : KeepsOnFailure R x) : KeepsOnFailure R (x.mapErr g) := by
  intro s hfail
  rw [isOk_mapErr] at hfail
  rw [state_mapErr]
  exact hx s hfail

theorem KeepsOnFailure.ite [Decidable c] {x y : Exec σ ε α} (hx : KeepsOnFailure R x)
    (hy : KeepsOnFailure R y) :
    KeepsOnFailure R (if c then x else y) := by
  by_cases h : c
  · simpa [h] using hx
  · simpa [h] using hy

theorem isOk_ofExcept {x : Except ε α} :
    ((ofExcept x : Exec σ ε α) s).1.isOk ↔ ∃ a, x = .ok a := by
  cases x with
  | ok a => exact ⟨fun _ => ⟨a, Eq.refl _⟩, fun _ => Eq.refl _⟩
  | error => simp [ofExcept, Res.isOk]

end Exec

theorem exists_mapM_ok_iff {ε α β : Type} {f : α → Except ε β} {l : List α} :
    (∃ bs, l.mapM f = .ok bs) ↔ ∀ a ∈ l, ∃ b, f a = .ok b := by
  induction l with
  | nil => exact ⟨fun _ => by simp, fun _ => ⟨[], rfl⟩⟩
  | cons a l ih =>
    rw [List.forall_mem_cons, ← ih, List.mapM_cons]
    cases hfa : f a with
    | error => simp [bind, Except.bind]
    | ok =>
      cases hrest : l.mapM f with
      | error => simp [bind, Except.bind]
      | ok => simp [bind, Except.bind, pure, Except.pure]

theorem forall_rounds_succ {p : ℕ → Prop} (k n : ℕ) :
    (∀ i < n + 1, p (k + i)) ↔ p k ∧ ∀ i < n, p (k + 1 + i) := by
  constructor
  · intro h
    refine ⟨h 0 (succ_pos n), fun i hi => ?_⟩
    rw [Nat.add_assoc, Nat.add_comm 1 i]
    exact h (i + 1) (succ_lt_succ hi)
  · rintro ⟨hzero, hrest⟩ i hi
    cases i with
    | zero => exact hzero
    | succ i =>
      have := hrest i (lt_of_succ_lt_succ hi)
      rwa [Nat.add_assoc, Nat.add_comm 1 i] at this

end Foundations
