import Litterae.Foundations.Respects

/-! # Programs over a shared state, alone and interleaved

A `Program` performs operations one at a time and goes on with their answers; what an operation does
to the state is given from outside, as a function `sem` from operations to computations. `exec` runs
a program without interruption.
-/

namespace Foundations
open List Exec Nat

instance {σ ε : Type} : LawfulMonad (Exec σ ε) := by
  refine .mk' _ (fun x => ?_) (fun _ _ => rfl) fun x f g => ?_
  · funext s
    change (x >>= pure) s = x s
    rw [bind_run]
    rcases x s with ⟨_ | _ | _, t⟩ <;> rfl
  · funext s
    match hx : x s with
    | (.ok a, t) => rw [bind_of_ok hx, bind_run, bind_of_ok hx, ← bind_run]
    | (.err e, t) => rw [bind_of_err hx, bind_of_err (bind_of_err hx)]
    | (.panic, t) => rw [bind_of_panic hx, bind_of_panic (bind_of_panic hx)]

inductive Program (Op : Type) (Ret : Op → Type) (ε α : Type) : Type where
  | done (r : Res ε α)
  | call (op : Op) (k : Ret op → Program Op Ret ε α)

namespace Program
variable {Op : Type} {Ret : Op → Type} {ε α β : Type}

protected def bind : Program Op Ret ε α → (α → Program Op Ret ε β) → Program Op Ret ε β
  | .done (.ok a), f => f a
  | .done (.err e), _ => .done (.err e)
  | .done .panic, _ => .done .panic
  | .call op k, f => .call op fun b => (k b).bind f

instance : Monad (Program Op Ret ε) where
  pure a := .done (.ok a)
  bind := Program.bind

def perform (op : Op) : Program Op Ret ε (Ret op) := .call op pure

def throw (e : ε) : Program Op Ret ε α := .done (.err e)

def ofOption (e : ε) : Option α → Program Op Ret ε α
  | some a => pure a
  | none => throw e

def throwIf (c : Bool) (e : ε) : Program Op Ret ε Unit := if c then throw e else pure ()

def next : Program Op Ret ε α → Option Op
  | .done _ => none
  | .call op _ => some op

def result : Program Op Ret ε α → Option (Res ε α)
  | .done r => some r
  | .call _ _ => none

/-! ## Running a program alone -/

section
variable {σ : Type} (sem : (op : Op) → Exec σ ε (Ret op))

def exec : Program Op Ret ε α → Exec σ ε α
  | .done r => fun s => (r, s)
  | .call op k => sem op >>= fun b => (k b).exec

@[simp] theorem exec_pure (a : α) : (pure a : Program Op Ret ε α).exec sem = pure a := rfl

@[simp] theorem exec_throw (e : ε) : (throw e : Program Op Ret ε α).exec sem = Exec.throw e := rfl

@[simp] theorem exec_bind (p : Program Op Ret ε α) (f : α → Program Op Ret ε β) :
    (p >>= f).exec sem = p.exec sem >>= fun a => (f a).exec sem := by
  induction p with
  | done r => cases r <;> rfl
  | call op k ih =>
    have hstep : (Program.call op k >>= f).exec sem =
        sem op >>= fun b => (k b >>= f).exec sem := rfl
    rw [hstep, funext ih, exec, bind_assoc]

@[simp] theorem exec_perform (op : Op) :
    (perform op : Program Op Ret ε (Ret op)).exec sem = sem op := bind_pure _

@[simp] theorem exec_ofOption (e : ε) (o : Option α) :
    (ofOption e o : Program Op Ret ε α).exec sem = Exec.ofOption e o := by
  cases o <;> rfl

@[simp] theorem exec_throwIf (c : Bool) (e : ε) :
    (throwIf c e : Program Op Ret ε Unit).exec sem = Exec.throwIf c e := by
  cases c <;> rfl

end
end Program

/-! ## Many programs in flight -/

structure Done {Op : Type} (Ret : Op → Type) where
  op : Op
  answer : Ret op

structure Event {Op : Type} (Ret : Op → Type) where
  flight : ℕ
  did : Done Ret

structure Flight (ι Op : Type) (Ret : Op → Type) (ε α : Type) where
  request : ι
  program : Program Op Ret ε α

/-- The flights keep their places for good; `log` is what has been answered to whom, in order. -/
structure Pool (σ ι Op : Type) (Ret : Op → Type) (ε α : Type) where
  shared : σ
  flights : List (Flight ι Op Ret ε α)
  log : List (Event Ret)

def trace {Op : Type} {Ret : Op → Type} (i : ℕ) (log : List (Event Ret)) : List (Done Ret) :=
  (log.filter fun e => e.flight == i).map Event.did

section
variable {Op : Type} {Ret : Op → Type} {i j : ℕ} {log : List (Event Ret)} {d : Done Ret}

@[simp] theorem trace_append_self :
    trace i (log ++ [⟨i, d⟩]) = trace i log ++ [d] := by
  simp [trace]

theorem trace_append_of_ne (h : i ≠ j) : trace j (log ++ [⟨i, d⟩]) = trace j log := by
  simp [trace, h]

theorem mem_trace : d ∈ trace i log ↔ ⟨i, d⟩ ∈ log := by
  simp only [trace, mem_map, mem_filter, beq_iff_eq]
  constructor
  · rintro ⟨e, ⟨he, rfl⟩, rfl⟩
    exact he
  · exact fun h => ⟨_, ⟨h, rfl⟩, rfl⟩

end

namespace Pool
variable {σ ι Op : Type} {Ret : Op → Type} {ε α : Type} (sem : (op : Op) → Exec σ ε (Ret op))
  {p : Pool σ ι Op Ret ε α} {request : ι}

def launch (start : ι → Program Op Ret ε α) (request : ι) (p : Pool σ ι Op Ret ε α) :
    Pool σ ι Op Ret ε α :=
  { p with flights := p.flights ++ [⟨request, start request⟩] }

/-- The `i`-th flight does its next operation; a flight that has ended does nothing. -/
def perform (i : ℕ) (p : Pool σ ι Op Ret ε α) : Pool σ ι Op Ret ε α :=
  match p.flights[i]? with
  | none => p
  | some ⟨_, .done _⟩ => p
  | some ⟨request, .call op k⟩ =>
    match sem op p.shared with
    | (.ok b, t) => ⟨t, p.flights.set i ⟨request, k b⟩, p.log ++ [⟨i, op, b⟩]⟩
    | (.err e, t) => ⟨t, p.flights.set i ⟨request, .done (.err e)⟩, p.log⟩
    | (.panic, t) => ⟨t, p.flights.set i ⟨request, .done .panic⟩, p.log⟩

def halt (p : Pool σ ι Op Ret ε α) : Pool σ ι Op Ret ε α :=
  { p with
    flights := p.flights.map fun f =>
      match f.program with
      | .done _ => f
      | .call _ _ => { f with program := .done .panic } }

def requests (p : Pool σ ι Op Ret ε α) : List ι := p.flights.map Flight.request

def next (p : Pool σ ι Op Ret ε α) (i : ℕ) : Option Op :=
  p.flights[i]?.bind fun f => f.program.next

variable {sem}

theorem perform_ok {i : ℕ} {op : Op} {k : Ret op → Program Op Ret ε α}
    (hi : p.flights[i]? = some ⟨request, .call op k⟩) {b : Ret op} {t : σ}
    (h : sem op p.shared = (.ok b, t)) :
    p.perform sem i = ⟨t, p.flights.set i ⟨request, k b⟩, p.log ++ [⟨i, op, b⟩]⟩ := by
  rw [perform, hi]
  simp only [h]

inductive Performed (sem : (op : Op) → Exec σ ε (Ret op)) (p : Pool σ ι Op Ret ε α) (i : ℕ) :
    Pool σ ι Op Ret ε α → Prop
  | idle : p.next i = none → Performed sem p i p
  | answered {request : ι} {op : Op} {k : Ret op → Program Op Ret ε α} {b : Ret op} {t : σ} :
      p.flights[i]? = some ⟨request, .call op k⟩ → sem op p.shared = (.ok b, t) →
      Performed sem p i ⟨t, p.flights.set i ⟨request, k b⟩, p.log ++ [⟨i, op, b⟩]⟩
  | failed {request : ι} {op : Op} {k : Ret op → Program Op Ret ε α} {r : Res ε α} {t : σ} :
      p.flights[i]? = some ⟨request, .call op k⟩ → (sem op p.shared).2 = t →
      (sem op p.shared).1.isOk = false → r.isOk = false →
      Performed sem p i ⟨t, p.flights.set i ⟨request, .done r⟩, p.log⟩

theorem performed {i : ℕ} {q : Pool σ ι Op Ret ε α} (h : p.perform sem i = q) :
    Performed sem p i q := by
  subst h
  unfold perform
  split
  · next hi => exact .idle (by rw [next, hi]; rfl)
  · next hi => exact .idle (by rw [next, hi]; rfl)
  · next request op k hi =>
    split
    · next b t h => exact .answered hi h
    · next e t h => exact .failed hi (by rw [h]) (by rw [h]; rfl) rfl
    · next t h => exact .failed hi (by rw [h]) (by rw [h]; rfl) rfl

theorem requests_perform (p : Pool σ ι Op Ret ε α) (i : ℕ) :
    (p.perform sem i).requests = p.requests := by
  -- A flight is replaced by one for the same request.
  have hset : ∀ {request : ι} {op : Op} {k : Ret op → Program Op Ret ε α}
      {program : Program Op Ret ε α}, p.flights[i]? = some ⟨request, .call op k⟩ →
      (p.flights.set i ⟨request, program⟩).map Flight.request = p.requests := by
    intro request op k program hi
    have hlt : i < p.flights.length := (List.getElem?_eq_some_iff.mp hi).1
    refine ext_getElem? fun j => ?_
    by_cases hij : i = j
    · subst hij
      rw [requests, List.getElem?_map, List.getElem?_map, List.getElem?_set_self hlt, hi]
      rfl
    · rw [requests, List.getElem?_map, List.getElem?_map, List.getElem?_set_ne hij]
  generalize hq : p.perform sem i = q
  cases performed hq with
  | idle => rfl
  | answered hi | failed hi => exact hset hi

theorem requests_halt (p : Pool σ ι Op Ret ε α) : p.halt.requests = p.requests := by
  rw [requests, halt, map_map]
  refine map_congr_left fun f _ => ?_
  obtain ⟨request, program⟩ := f
  cases program <;> rfl

theorem next_of_flight {i : ℕ} {op : Op} {k : Ret op → Program Op Ret ε α}
    (hi : p.flights[i]? = some ⟨request, .call op k⟩) :
    p.next i = some op := by
  rw [next, hi]
  rfl

theorem flight_of_next {i : ℕ} {op : Op} (h : p.next i = some op) :
    ∃ request k, p.flights[i]? = some ⟨request, .call op k⟩ := by
  obtain ⟨⟨request, program⟩, hi, hop⟩ := Option.bind_eq_some_iff.mp h
  cases program with
  | done => cases hop
  | call _ k =>
    cases hop
    exact ⟨request, k, hi⟩

end Pool

/-! ## What is left of a program -/

namespace Program
variable {Op : Type} {Ret : Op → Type} {ε α β : Type}

/-- After the answers so far and any further ones, what is left of the program meets `R`. -/
def Always (R : List (Done Ret) → Program Op Ret ε α → Prop) :
    List (Done Ret) → Program Op Ret ε α → Prop
  | tr, .done r => R tr (.done r)
  | tr, .call op k => R tr (.call op k) ∧ ∀ b, Always R (tr ++ [⟨op, b⟩]) (k b)

variable {R : List (Done Ret) → Program Op Ret ε α → Prop} {tr : List (Done Ret)}

theorem Always.here {p : Program Op Ret ε α} (h : Always R tr p) : R tr p := by
  cases p with
  | done => exact h
  | call => exact h.1

theorem Always.perform {op : Op} {f : Ret op → Program Op Ret ε α} (hR : R tr (.call op f))
    (hf : ∀ b, Always R (tr ++ [⟨op, b⟩]) (f b)) : Always R tr (perform op >>= f) := ⟨hR, hf⟩

theorem Always.ofOption {e : ε} {o : Option β} {f : β → Program Op Ret ε α}
    (hR : R tr (.done (.err e))) (hf : ∀ b, o = some b → Always R tr (f b)) :
    Always R tr (ofOption e o >>= f) := by
  cases o with
  | none => exact hR
  | some b => exact hf b rfl

theorem Always.throwIf {c : Bool} {e : ε} {f : Unit → Program Op Ret ε α}
    (hR : R tr (.done (.err e))) (hf : c = false → Always R tr (f ())) :
    Always R tr (throwIf c e >>= f) := by
  cases c with
  | true => exact hR
  | false => exact hf rfl

/-- Every operation of the program meets `Q`. -/
def Only (Q : Op → Prop) : Program Op Ret ε α → Prop
  | .done _ => True
  | .call op k => Q op ∧ ∀ b, Only Q (k b)

section
variable {Q : Op → Prop}

theorem Only.perform {op : Op} (h : Q op) : (perform op : Program Op Ret ε (Ret op)).Only Q :=
  ⟨h, fun _ => trivial⟩

theorem Only.ofOption {e : ε} {o : Option α} : (ofOption e o : Program Op Ret ε α).Only Q := by
  cases o <;> trivial

theorem Only.ofOption_bind {e : ε} {o : Option β} {f : β → Program Op Ret ε α}
    (hf : ∀ b, o = some b → (f b).Only Q) : (Program.ofOption e o >>= f).Only Q := by
  cases o with
  | none => trivial
  | some b => exact hf b rfl

theorem Only.throwIf {c : Bool} {e : ε} : (throwIf c e : Program Op Ret ε Unit).Only Q := by
  cases c <;> trivial

theorem Only.mono {Q' : Op → Prop} (h : ∀ op, Q op → Q' op) {p : Program Op Ret ε α}
    (hp : p.Only Q) : p.Only Q' := by
  induction p with
  | done => trivial
  | call op _ ih => exact ⟨h op hp.1, fun b => ih b (hp.2 b)⟩

theorem Only.bind {p : Program Op Ret ε α} {f : α → Program Op Ret ε β} (hp : p.Only Q)
    (hf : ∀ a, (f a).Only Q) : (p >>= f).Only Q := by
  induction p with
  | done r =>
    cases r with
    | ok a => exact hf a
    | err | panic => trivial
  | call _ _ ih => exact ⟨hp.1, fun b => ih b (hp.2 b)⟩

section
variable {σ : Type} {S : σ → σ → Prop} {sem : (op : Op) → Exec σ ε (Ret op)} {p : Program Op Ret ε α}

theorem Only.keeps [IsPreorder σ S] (hsem : ∀ op, Q op → Keeps S (sem op)) (hp : p.Only Q) :
    Keeps S (p.exec sem) := by
  induction p with
  | done => exact fun s => refl s
  | call op _ ih => exact .bind (hsem op hp.1) fun b => ih b (hp.2 b)

theorem Only.respects (hsem : ∀ op, Q op → Respects S (sem op)) (hp : p.Only Q) :
    Respects S (p.exec sem) := by
  induction p with
  | done => exact fun _ _ h => ⟨rfl, h⟩
  | call op _ ih => exact .bind (hsem op hp.1) fun b => ih b (hp.2 b)

end

variable (hcall : ∀ tr op k, Q op → R tr (.call op k))
include hcall

theorem Always.of_only {p : Program Op Ret ε α} (hp : p.Only Q)
    (hdone : ∀ ds r, R (tr ++ ds) (.done r)) : Always R tr p := by
  induction p generalizing tr with
  | done r =>
    have hhere := hdone [] r
    rw [append_nil] at hhere
    exact hhere
  | call op k ih =>
    refine ⟨hcall tr op k hp.1, fun b => ih b (hp.2 b) fun ds r => ?_⟩
    rw [append_assoc]
    exact hdone _ r

theorem Always.bind_only {p : Program Op Ret ε β} {f : β → Program Op Ret ε α} (hp : p.Only Q)
    (hfail : ∀ tr r, r.isOk = false → R tr (.done r))
    (hf : ∀ ds b, (∀ d ∈ ds, Q d.op) → Always R (tr ++ ds) (f b)) : Always R tr (p >>= f) := by
  induction p generalizing tr with
  | done r =>
    cases r with
    | ok b =>
      have hhere := hf [] b (by simp)
      rw [append_nil] at hhere
      exact hhere
    | err e | panic => exact hfail tr _ rfl
  | call op k ih =>
    refine ⟨hcall tr op _ hp.1, fun b => ih b (hp.2 b) fun ds b' hds => ?_⟩
    rw [append_assoc]
    refine hf _ b' fun d hd => ?_
    rcases mem_cons.mp hd with rfl | hd
    · exact hp.1
    · exact hds d hd

end

/-! ## Histories before and after a part of a program -/

/-- Every operation meets `R` when it is done, every value meets `Q` when it is returned. -/
def Leads (R : List (Done Ret) → Op → Prop) (Q : List (Done Ret) → α → Prop) :
    List (Done Ret) → Program Op Ret ε α → Prop
  | tr, .done (.ok a) => Q tr a
  | _, .done _ => True
  | tr, .call op k => R tr op ∧ ∀ b, Leads R Q (tr ++ [⟨op, b⟩]) (k b)

section
variable {S : List (Done Ret) → Op → Prop} {Q : List (Done Ret) → α → Prop}
  {f : β → Program Op Ret ε α}

theorem Leads.pure {a : α} (h : Q tr a) : Leads S Q tr (pure a : Program Op Ret ε α) := h

theorem Leads.ite {c : Prop} [Decidable c] {p q : Program Op Ret ε α} (hp : c → Leads S Q tr p)
    (hq : ¬ c → Leads S Q tr q) : Leads S Q tr (if c then p else q) := by
  split
  · next hc => exact hp hc
  · next hc => exact hq hc

theorem Leads.perform {op : Op} {Q : List (Done Ret) → Ret op → Prop} (h : S tr op)
    (hQ : ∀ b, Q (tr ++ [⟨op, b⟩]) b) : Leads S Q tr (perform op : Program Op Ret ε (Ret op)) :=
  ⟨h, hQ⟩

theorem Leads.bind {p : Program Op Ret ε β} {Q' : List (Done Ret) → β → Prop} (hp : Leads S Q' tr p)
    (hf : ∀ tr b, Q' tr b → Leads S Q tr (f b)) : Leads S Q tr (p >>= f) := by
  induction p generalizing tr with
  | done r =>
    cases r with
    | ok b => exact hf tr b hp
    | err | panic => trivial
  | call _ _ ih => exact ⟨hp.1, fun b => ih b (hp.2 b)⟩

theorem Leads.seq {p : Program Op Ret ε β} (hp : Leads S (fun _ _ => True) tr p)
    (hf : ∀ tr b, Leads S Q tr (f b)) :
    Leads S Q tr (p >>= f) := hp.bind fun tr b _ => hf tr b

theorem Leads.perform_bind {op : Op} {f : Ret op → Program Op Ret ε α} (h : S tr op)
    (hf : ∀ b, Leads S Q (tr ++ [⟨op, b⟩]) (f b)) : Leads S Q tr (Program.perform op >>= f) := ⟨h, hf⟩

theorem Leads.always {p : Program Op Ret ε α} (h : Leads S Q tr p) :
    p.Always (fun tr p => ∀ op, p.next = some op → S tr op) tr := by
  induction p generalizing tr with
  | done => exact fun op hop => nomatch hop
  | call op k ih =>
    refine ⟨fun op' hop => ?_, fun b => ih b (h.2 b)⟩
    obtain rfl : op = op' := Option.some.inj hop
    exact h.1

end

/-! ## How long a program can go on -/

/-- Whatever it is answered, the program ends after `n` operations at most. -/
def Within : ℕ → Program Op Ret ε α → Prop
  | _, .done _ => True
  | 0, .call _ _ => False
  | n + 1, .call _ k => ∀ b, (k b).Within n

theorem Within.mono {n m : ℕ} (hnm : n ≤ m) {p : Program Op Ret ε α} (h : p.Within n) :
    p.Within m := by
  induction p generalizing n m with
  | done => cases m <;> trivial
  | call _ _ ih =>
    cases n with
    | zero => exact h.elim
    | succ n =>
      cases m with
      | zero => exact absurd hnm (not_succ_le_zero n)
      | succ => exact fun b => ih b (le_of_succ_le_succ hnm) (h b)

theorem Within.bind {n m : ℕ} {p : Program Op Ret ε β} {f : β → Program Op Ret ε α}
    (hp : p.Within n) (hf : ∀ b, (f b).Within m) : (p >>= f).Within (n + m) := by
  induction p generalizing n with
  | done r =>
    cases r with
    | ok b => exact (hf b).mono (le_add_left m n)
    | err e | panic => cases n + m <;> trivial
  | call _ _ ih =>
    cases n with
    | zero => exact hp.elim
    | succ =>
      rw [succ_add]
      exact fun b => ih b (hp b)

end Program

namespace Pool
variable {σ ι Op : Type} {Ret : Op → Type} {ε α : Type} {p : Pool σ ι Op Ret ε α}
  {sem : (op : Op) → Exec σ ε (Ret op)}

theorem within_perform {i : ℕ} {f : Flight ι Op Ret ε α} (hi : p.flights[i]? = some f) {n : ℕ}
    (h : f.program.Within (n + 1)) :
    ∃ program, (p.perform sem i).flights[i]? = some ⟨f.request, program⟩ ∧ program.Within n := by
  obtain ⟨request, program⟩ := f
  have hlt : i < p.flights.length := (List.getElem?_eq_some_iff.mp hi).1
  generalize hq : p.perform sem i = q
  cases performed hq with
  | idle hnone =>
    cases program with
    | done => exact ⟨_, hi, by cases n <;> trivial⟩
    | call =>
      rw [next_of_flight hi] at hnone
      cases hnone
  | answered hcall =>
    cases hi.symm.trans hcall
    exact ⟨_, List.getElem?_set_self hlt, h _⟩
  | failed hcall =>
    cases hi.symm.trans hcall
    exact ⟨_, List.getElem?_set_self hlt, by cases n <;> trivial⟩

theorem getElem?_set_cases {β : Type} {l : List β} {i j : ℕ} {a b : β} (h : (l.set i a)[j]? = some b) :
    i = j ∧ b = a ∨ i ≠ j ∧ l[j]? = some b := by
  rw [List.getElem?_set] at h
  split at h
  · next hij =>
    split at h
    · exact .inl ⟨hij, (Option.some.inj h).symm⟩
    · cases h
  · next hij => exact .inr ⟨hij, h⟩

theorem flight_launch {start : ι → Program Op Ret ε α} {request : ι} {i : ℕ} {f : Flight ι Op Ret ε α}
    (h : (p.launch start request).flights[i]? = some f) :
    p.flights[i]? = some f ∨ i = p.flights.length ∧ f = ⟨request, start request⟩ := by
  rw [launch, List.getElem?_append] at h
  split at h
  · exact .inl h
  · have hlt := (List.getElem?_eq_some_iff.mp h).1
    rw [length_singleton] at hlt
    exact .inr ⟨by omega, mem_singleton.mp (mem_of_getElem? h)⟩

theorem flight_perform_of_ne {i j : ℕ} (hij : i ≠ j) :
    (p.perform sem i).flights[j]? = p.flights[j]? := by
  generalize hq : p.perform sem i = q
  cases performed hq with
  | idle => rfl
  | answered | failed => exact List.getElem?_set_ne hij

/-- Every flight meets `R` whatever it is answered from here on. -/
def Lawful (R : ι → List (Done Ret) → Program Op Ret ε α → Prop) (p : Pool σ ι Op Ret ε α) : Prop :=
  ∀ (i : ℕ) (f : Flight ι Op Ret ε α), p.flights[i]? = some f →
    f.program.Always (R f.request) (trace i p.log)

namespace Lawful
variable {R : ι → List (Done Ret) → Program Op Ret ε α → Prop}
  {sem : (op : Op) → Exec σ ε (Ret op)} {p : Pool σ ι Op Ret ε α}

def Counted (p : Pool σ ι Op Ret ε α) : Prop := ∀ e ∈ p.log, e.flight < p.flights.length

theorem launch {start : ι → Program Op Ret ε α} (hstart : ∀ r, (start r).Always (R r) [])
    (hcount : Counted p) (h : Lawful R p) (request : ι) : Lawful R (p.launch start request) := by
  intro i f hi
  rcases flight_launch hi with hold | ⟨rfl, rfl⟩
  · exact h i f hold
  · have hnone : trace p.flights.length (p.launch start request).log = [] :=
      map_eq_nil_iff.mpr (filter_eq_nil_iff.mpr fun e he heq => Nat.ne_of_lt (hcount e he) (eq_of_beq heq))
    rw [hnone]
    exact hstart request

theorem perform (hfail : ∀ request tr r, r.isOk = false → R request tr (.done r)) (h : Lawful R p)
    (i : ℕ) : Lawful R (p.perform sem i) := by
  intro j f hj
  generalize hq : p.perform sem i = q at hj
  cases performed hq with
  | idle => exact h j f hj
  | @answered request op k b t hi hsem =>
    rcases getElem?_set_cases hj with ⟨rfl, rfl⟩ | ⟨hij, hold⟩
    · rw [trace_append_self]
      exact (h i _ hi).2 b
    · rw [trace_append_of_ne hij]
      exact h j f hold
  | @failed request op k r t hi ht hsem hr =>
    rcases getElem?_set_cases hj with ⟨rfl, rfl⟩ | ⟨-, hold⟩
    · exact hfail request _ r hr
    · exact h j f hold

theorem halt (hfail : ∀ request tr r, r.isOk = false → R request tr (.done r)) (h : Lawful R p) :
    Lawful R p.halt := by
  intro i f hi
  obtain ⟨g, hg, rfl⟩ : ∃ g, p.flights[i]? = some g ∧ (match g.program with
      | .done _ => g
      | .call _ _ => { g with program := .done .panic }) = f := by
    simpa [Pool.halt, Option.map_eq_some_iff] using hi
  obtain ⟨request, program⟩ := g
  cases program with
  | done => exact h i _ hg
  | call => exact hfail request _ _ rfl

end Lawful

theorem Lawful.Counted.halt (h : Counted p) : Counted p.halt := by
  intro e he
  have := h e he
  rwa [Pool.halt, length_map]

theorem Lawful.Counted.launch {start : ι → Program Op Ret ε α} (h : Counted p) (request : ι) :
    Counted (p.launch start request) := by
  intro e he
  have := h e he
  simp only [Pool.launch, length_append, length_singleton]
  omega

theorem Lawful.Counted.perform (h : Counted p) (i : ℕ) : Counted (p.perform sem i) := by
  generalize hq : p.perform sem i = q
  cases performed hq with
  | idle => exact h
  | answered hi =>
    intro e he
    rcases mem_append.mp he with he | he
    · rw [length_set]
      exact h e he
    · obtain rfl := mem_singleton.mp he
      rw [length_set]
      exact (List.getElem?_eq_some_iff.mp hi).1
  | failed =>
    intro e he
    rw [length_set]
    exact h e he

end Pool
end Foundations
