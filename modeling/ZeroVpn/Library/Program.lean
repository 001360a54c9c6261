import Mathlib.Control.Basic

/-!
# Programs over a command interface

A request handler is a sequence of calls to an outside world (statements of a
database, methods of an in-memory object, commands of a device), each of which
answers before the next one is issued.  `Program C R α` is such a sequence:
`C` is the type of calls and `R c` the type of answers to the call `c`.

A meaning of the calls is a function `sem`.  `Program.run` executes a program
alone, from its first call to its result; `Program.Calls` says that every call
a program can issue belongs to a given class; `Program.Permitted` says that every
call is allowed by the calls before it and their answers; `Program.Throughout`
says what holds after every single call of a run.

Handlers that stop at the first error are programs with results in `Except`;
`Attempt` is the corresponding monad and `Attempt.exec` its execution;
`Attempt.wp` states what an execution establishes, with one rule for each way
of building a program.  `Program.faulty` adds calls that fail.
-/

namespace ZeroVpn
namespace Library

universe u v

/-- A sequence of calls, ending with a result. -/
inductive Program (C : Type u) (R : C → Type) (α : Type v) where
  | ret (a : α)
  | call (c : C) (k : R c → Program C R α)

namespace Program

variable {C : Type u} {R : C → Type} {α β γ : Type}

/-- Sequencing: continue with the result of the first program. -/
def bind : Program C R α → (α → Program C R β) → Program C R β
  | ret a, f => f a
  | call c k, f => call c fun r => bind (k r) f

instance : Monad (Program C R) where
  pure := ret
  bind := bind

@[simp] theorem pure_eq (a : α) :
    (pure a : Program C R α) = ret a := rfl

@[simp] theorem ret_bind (a : α) (f : α → Program C R β) :
    ret a >>= f = f a := rfl

@[simp] theorem call_bind (c : C) (k : R c → Program C R α)
    (f : α → Program C R β) :
    call c k >>= f = call c fun r => k r >>= f := rfl

theorem bind_ret (p : Program C R α) : p >>= ret = p := by
  induction p with
  | ret a =>
      rfl
  | call c k ih =>
      simp only [call_bind, ih]

theorem bind_assoc (p : Program C R α) (f : α → Program C R β)
    (g : β → Program C R γ) :
    p >>= f >>= g = p >>= fun a => f a >>= g := by
  induction p with
  | ret a =>
      rfl
  | call c k ih =>
      simp only [call_bind, ih]

instance : LawfulMonad (Program C R) :=
  LawfulMonad.mk' _ bind_ret (fun _ _ => rfl) bind_assoc

section Run

variable {σ : Type v}
variable (sem : (c : C) → σ → σ × R c)

/-- Execute a program alone; `sem c s` is the effect of `c` and its answer. -/
def run : Program C R α → σ → σ × α
  | ret a, s => (s, a)
  | call c k, s => run (k (sem c s).2) (sem c s).1

@[simp] theorem run_ret (a : α) (s : σ) :
    run sem (ret a : Program C R α) s = (s, a) := rfl

@[simp] theorem run_call (c : C) (k : R c → Program C R α) (s : σ) :
    run sem (call c k) s = run sem (k (sem c s).2) (sem c s).1 := rfl

@[simp] theorem run_bind (p : Program C R α) (f : α → Program C R β) (s : σ) :
    run sem (p >>= f) s = run sem (f (run sem p s).2) (run sem p s).1 := by
  induction p generalizing s with
  | ret a =>
      rfl
  | call c k ih =>
      simp only [call_bind, run_call, ih]

/-- Calls that may fail: one flag for each call says whether it succeeds, and
after the last flag all of them do. -/
def faulty (sem : (c : C) → Bool → σ → σ × R c) (c : C) (s : σ × List Bool) :
    (σ × List Bool) × R c :=
  (((sem c (s.2.headD true) s.1).1, s.2.tail), (sem c (s.2.headD true) s.1).2)

/-- Calls that are written down. -/
def recorded (sem : (c : C) → σ → σ × R c) (c : C) (s : σ × List C) : (σ × List C) × R c :=
  (((sem c s.1).1, s.2 ++ [c]), (sem c s.1).2)

/-- Calls that are written down with their answers. -/
def answered (sem : (c : C) → σ → σ × R c) (c : C) (s : σ × List (Sigma R)) :
    (σ × List (Sigma R)) × R c :=
  (((sem c s.1).1, s.2 ++ [⟨c, (sem c s.1).2⟩]), (sem c s.1).2)

/-- Writing the calls down changes nothing else. -/
theorem run_recorded (sem : (c : C) → σ → σ × R c) (p : Program C R α) (s : σ) (calls : List C) :
    (run (recorded sem) p (s, calls)).1.1 = (run sem p s).1 ∧
      (run (recorded sem) p (s, calls)).2 = (run sem p s).2 := by
  induction p generalizing s calls with
  | ret a =>
      exact ⟨rfl, rfl⟩
  | call c k ih =>
      exact ih _ _ _

/-- What is written down stays. -/
theorem prefix_recorded (sem : (c : C) → σ → σ × R c) (p : Program C R α) (s : σ × List C) :
    s.2 <+: (run (recorded sem) p s).1.2 := by
  induction p generalizing s with
  | ret a =>
      exact List.prefix_rfl
  | call c k ih =>
      exact (List.prefix_append s.2 [c]).trans (ih (sem c s.1).2 (recorded sem c s).1)

/-- Without flags no call fails. -/
theorem run_faulty_nil (sem : (c : C) → Bool → σ → σ × R c) (p : Program C R α) (s : σ) :
    run (faulty sem) p (s, []) =
      (((run (fun c => sem c true) p s).1, []), (run (fun c => sem c true) p s).2) := by
  induction p generalizing s with
  | ret a =>
      rfl
  | call c k ih =>
      exact ih _ _

end Run

/-- Every call the program can issue, whatever it is answered, satisfies `P`. -/
def Calls (P : C → Prop) : Program C R α → Prop
  | ret _ => True
  | call c k => P c ∧ ∀ r, Calls P (k r)

theorem Calls.bind {P : C → Prop} {p : Program C R α}
    {f : α → Program C R β}
    (hp : Calls P p) (hf : ∀ a, Calls P (f a)) :
    Calls P (p >>= f) := by
  induction p with
  | ret a =>
      exact hf a
  | call c k ih =>
      exact ⟨hp.1, fun r => ih r (hp.2 r)⟩

theorem Calls.mono {P Q : C → Prop} (hPQ : ∀ c, P c → Q c) {p : Program C R α}
    (hp : Calls P p) : Calls Q p := by
  induction p with
  | ret a =>
      trivial
  | call c k ih =>
      exact ⟨hPQ c hp.1, fun r => ih r (hp.2 r)⟩

theorem calls_true (p : Program C R α) : Calls (fun _ => True) p := by
  induction p with
  | ret a =>
      trivial
  | call c k ih =>
      exact ⟨trivial, ih⟩

/-- The calls written down in a run of a program belong to its class. -/
theorem Calls.of_recorded {σ : Type v} {sem : (c : C) → σ → σ × R c} {P : C → Prop}
    {p : Program C R α} (hp : Calls P p) (s : σ × List C) (hs : ∀ c ∈ s.2, P c) :
    ∀ c ∈ (run (recorded sem) p s).1.2, P c := by
  induction p generalizing s with
  | ret a =>
      exact hs
  | call c k ih =>
      refine ih _ (hp.2 _) _ ?_
      intro c' hc'
      rcases List.mem_append.mp hc' with hold | hnew
      · exact hs c' hold
      · rw [List.mem_singleton.mp hnew]
        exact hp.1

/-- What every call of a class keeps, a program over that class keeps. -/
theorem Calls.run_keeps {σ : Type v} {sem : (c : C) → σ → σ × R c} {P : C → Prop}
    {Inv : σ → Prop} (hsem : ∀ c s, P c → Inv s → Inv (sem c s).1)
    {p : Program C R α} (hp : Calls P p) {s : σ} (hs : Inv s) :
    Inv (run sem p s).1 := by
  induction p generalizing s with
  | ret a =>
      exact hs
  | call c k ih =>
      exact ih _ (hp.2 _) (hsem c s hp.1 hs)

section Permitted

variable (P : List (Sigma R) → C → Prop)

/-- Every call is allowed by what was answered before it, and `Q` holds of the
result and of all answers. -/
def Permitted (Q : α → List (Sigma R) → Prop) : Program C R α → List (Sigma R) → Prop
  | ret a, log => Q a log
  | call c k, log => P log c ∧ ∀ r, Permitted Q (k r) (log ++ [⟨c, r⟩])

variable {P}

theorem Permitted.mono {Q Q' : α → List (Sigma R) → Prop} {p : Program C R α}
    {log : List (Sigma R)} (h : Permitted P Q p log) (hQ : ∀ a log', Q a log' → Q' a log') :
    Permitted P Q' p log := by
  induction p generalizing log with
  | ret a =>
      exact hQ a log h
  | call c k ih =>
      exact ⟨h.1, fun r => ih r (h.2 r)⟩

/-- The rule for a sequence. -/
theorem Permitted.bind {Q : α → List (Sigma R) → Prop} {Q' : β → List (Sigma R) → Prop}
    {p : Program C R α} {f : α → Program C R β} {log : List (Sigma R)}
    (h : Permitted P Q p log) (hf : ∀ a log', Q a log' → Permitted P Q' (f a) log') :
    Permitted P Q' (p >>= f) log := by
  induction p generalizing log with
  | ret a =>
      exact hf a log h
  | call c k ih =>
      exact ⟨h.1, fun r => ih r (h.2 r)⟩

/-- In every run, each call was allowed when it was issued. -/
theorem Permitted.of_answered {σ : Type v} {sem : (c : C) → σ → σ × R c}
    {Q : α → List (Sigma R) → Prop} {p : Program C R α} {s : σ × List (Sigma R)}
    (h : Permitted P Q p s.2) (hs : ∀ before c after, s.2 = before ++ c :: after → P before c.1)
    {before after : List (Sigma R)} {c : Sigma R}
    (hlog : (run (answered sem) p s).1.2 = before ++ c :: after) : P before c.1 := by
  induction p generalizing s with
  | ret a =>
      exact hs before c after hlog
  | call d k ih =>
      refine ih _ (h.2 _) ?_ hlog
      intro before' c' after' hsplit
      -- The split is inside what was written down before, or it is the last call.
      rcases List.eq_nil_or_concat after' with rfl | ⟨rest, last, rfl⟩
      · obtain ⟨rfl, hlast⟩ := List.append_inj' hsplit rfl
        injection hlast with hlast
        rw [← hlast]
        exact h.1
      · have hsplit' : s.2 ++ [⟨d, (sem d s.1).2⟩] = (before' ++ c' :: rest) ++ [last] := by
          simpa [answered] using hsplit
        exact hs before' c' rest (List.append_inj' hsplit' rfl).1

end Permitted

section Throughout

variable {σ : Type v} (sem : (c : C) → σ → σ × R c) (P : σ → Prop)

/-- `P` holds after every single call of a run. -/
def Throughout : Program C R α → σ → Prop
  | ret _, _ => True
  | call c k, s => P (sem c s).1 ∧ Throughout (k (sem c s).2) (sem c s).1

variable {sem P}

/-- A run of a sequence is a run of its first part and one of its second. -/
theorem throughout_bind {p : Program C R α} {f : α → Program C R β} {s : σ} :
    Throughout sem P (p >>= f) s ↔
      Throughout sem P p s ∧ Throughout sem P (f (run sem p s).2) (run sem p s).1 := by
  induction p generalizing s with
  | ret a =>
      exact ⟨fun h => ⟨trivial, h⟩, fun h => h.2⟩
  | call c k ih =>
      simp only [call_bind, Throughout, run_call, ih, and_assoc]

theorem Throughout.mono {Q : σ → Prop} (hPQ : ∀ s, P s → Q s) {p : Program C R α} {s : σ}
    (h : Throughout sem P p s) : Throughout sem Q p s := by
  induction p generalizing s with
  | ret a =>
      trivial
  | call c k ih =>
      exact ⟨hPQ _ h.1, ih _ h.2⟩

theorem Throughout.and {Q : σ → Prop} {p : Program C R α} {s : σ} (hP : Throughout sem P p s)
    (hQ : Throughout sem Q p s) : Throughout sem (fun t => P t ∧ Q t) p s := by
  induction p generalizing s with
  | ret a =>
      trivial
  | call c k ih =>
      exact ⟨⟨hP.1, hQ.1⟩, ih _ hP.2 hQ.2⟩

variable (sem P) in
/-- A program that starts where `P` holds stays there. -/
def Keeps (p : Program C R α) : Prop := ∀ s, P s → Throughout sem P p s ∧ P (run sem p s).1

/-- What every call of a class keeps, a program over that class keeps. -/
theorem Calls.keeps {S : C → Prop} (hsem : ∀ c s, S c → P s → P (sem c s).1)
    {p : Program C R α} (hp : Calls S p) : Keeps sem P p := by
  intro s hs
  induction p generalizing s with
  | ret a =>
      exact ⟨trivial, hs⟩
  | call c k ih =>
      have hnext := hsem c s hp.1 hs
      obtain ⟨hrest, hlast⟩ := ih _ (hp.2 _) _ hnext
      exact ⟨⟨hnext, hrest⟩, hlast⟩

end Throughout

end Program

/-- Programs that stop at the first error. -/
abbrev Attempt (C : Type u) (R : C → Type) (ε : Type) :=
  ExceptT ε (Program C R)

namespace Attempt

variable {C : Type u} {R : C → Type} {ε α β : Type}

/-- Issue one call and translate its answer. -/
def lift (c : C) (f : R c → Except ε α) : Attempt C R ε α :=
  ExceptT.mk (Program.call c fun r => Program.ret (f r))

/-- Run a fallible program and go on with its outcome. -/
def outcome (p : Attempt C R ε α) : Attempt C R ε (Except ε α) :=
  ExceptT.mk (p.run >>= fun r => Program.ret (.ok r))

section Issues

variable {P : C → Prop}

/-- Every call of a fallible program satisfies `P`. -/
def Issues (P : C → Prop) (p : Attempt C R ε α) : Prop := Program.Calls P p.run

theorem issues_pure (a : α) : Issues P (pure a : Attempt C R ε α) := trivial

theorem issues_throw (e : ε) : Issues P (throw e : Attempt C R ε α) := trivial

theorem issues_lift {c : C} {f : R c → Except ε α} (h : P c) :
    Issues P (lift c f : Attempt C R ε α) := ⟨h, fun _ => trivial⟩

theorem issues_bind {p : Attempt C R ε α} {f : α → Attempt C R ε β}
    (hp : Issues P p) (hf : ∀ a, Issues P (f a)) :
    Issues P (p >>= f) := by
  unfold Issues
  rw [ExceptT.run_bind]
  refine Program.Calls.bind hp ?_
  rintro (e | a)
  · trivial
  · exact hf a

end Issues

section Exec

variable {σ : Type v}
variable (sem : (c : C) → σ → σ × R c)

/-- Execute a fallible program alone. -/
def exec (p : Attempt C R ε α) (s : σ) : σ × Except ε α :=
  Program.run sem p.run s

@[simp] theorem exec_pure (a : α) (s : σ) :
    exec sem (pure a : Attempt C R ε α) s = (s, .ok a) := rfl

@[simp] theorem exec_throw (e : ε) (s : σ) :
    exec sem (throw e : Attempt C R ε α) s = (s, .error e) := rfl

@[simp] theorem exec_lift (c : C) (f : R c → Except ε α) (s : σ) :
    exec sem (lift c f) s = ((sem c s).1, f (sem c s).2) := rfl

/-- Execution of a sequence: an error of the first part ends the execution. -/
theorem exec_bind (p : Attempt C R ε α) (f : α → Attempt C R ε β) (s : σ) :
    exec sem (p >>= f) s =
      match exec sem p s with
      | (t, .ok a) => exec sem (f a) t
      | (t, .error e) => (t, .error e) := by
  simp only [exec, ExceptT.run_bind, Program.run_bind]
  rcases hp : Program.run sem p.run s with ⟨t, _ | a⟩ <;> rfl

theorem exec_bind_ok {p : Attempt C R ε α} {f : α → Attempt C R ε β}
    {s t : σ} {a : α} (h : exec sem p s = (t, .ok a)) :
    exec sem (p >>= f) s = exec sem (f a) t := by
  rw [exec_bind, h]

theorem exec_outcome (p : Attempt C R ε α) (s : σ) :
    exec sem (outcome p) s = ((exec sem p s).1, .ok (exec sem p s).2) := by
  simp only [exec, outcome, ExceptT.run_mk, Program.run_bind, Program.run_ret]

end Exec

section Wp

variable {σ : Type v}
variable (sem : (c : C) → σ → σ × R c)

/-- What holds of the final state and the outcome when `p` is run alone. -/
def wp (p : Attempt C R ε α) (Q : σ → Except ε α → Prop) (s : σ) : Prop :=
  Q (exec sem p s).1 (exec sem p s).2

variable {sem}
variable {Q : σ → Except ε β → Prop} {s : σ}

theorem wp_pure {Q : σ → Except ε α → Prop} {a : α} (h : Q s (.ok a)) :
    wp sem (pure a : Attempt C R ε α) Q s := h

theorem wp_throw {Q : σ → Except ε α → Prop} {e : ε} (h : Q s (.error e)) :
    wp sem (throw e : Attempt C R ε α) Q s := h

theorem wp_lift {Q : σ → Except ε α → Prop} {c : C} {f : R c → Except ε α}
    (h : Q (sem c s).1 (f (sem c s).2)) :
    wp sem (lift c f) Q s := h

/-- The rule for a sequence. -/
theorem wp_bind {p : Attempt C R ε α} {f : α → Attempt C R ε β}
    (h : wp sem p (fun t r =>
      match r with
      | .ok a => wp sem (f a) Q t
      | .error e => Q t (.error e)) s) :
    wp sem (p >>= f) Q s := by
  unfold wp at h ⊢
  rw [exec_bind]
  rcases hp : exec sem p s with ⟨t, e | a⟩
  · rw [hp] at h
    exact h
  · rw [hp] at h
    exact h

/-- The rule for a sequence whose first part is known. -/
theorem wp_bind_of {P : σ → Except ε α → Prop}
    {p : Attempt C R ε α} {f : α → Attempt C R ε β}
    (hp : wp sem p P s)
    (hok : ∀ t a, P t (.ok a) → wp sem (f a) Q t)
    (herror : ∀ t e, P t (.error e) → Q t (.error e)) :
    wp sem (p >>= f) Q s := by
  apply wp_bind
  unfold wp at hp ⊢
  rcases h : exec sem p s with ⟨t, e | a⟩
  · rw [h] at hp
    exact herror t e hp
  · rw [h] at hp
    exact hok t a hp

/-- The rule for going on with an outcome. -/
theorem wp_outcome {p : Attempt C R ε α} {Q : σ → Except ε (Except ε α) → Prop}
    (h : wp sem p (fun t r => Q t (.ok r)) s) :
    wp sem (outcome p) Q s := by
  unfold wp exec outcome at *
  simp only [ExceptT.run_mk, Program.run_bind, Program.run_ret]
  exact h

theorem wp_and {Q Q' : σ → Except ε α → Prop} {p : Attempt C R ε α}
    (h : wp sem p Q s) (h' : wp sem p Q' s) : wp sem p (fun t r => Q t r ∧ Q' t r) s := ⟨h, h'⟩

theorem wp_forall {ι : Type} {Q : ι → σ → Except ε α → Prop} {p : Attempt C R ε α}
    (h : ∀ x, wp sem p (Q x) s) : wp sem p (fun t r => ∀ x, Q x t r) s := h

/-- The calls written down in a run. -/
theorem wp_recorded {P : C → Prop} {p : Attempt C R ε α} (hp : Issues P p) {s : σ × List C}
    (hs : ∀ c ∈ s.2, P c) : wp (Program.recorded sem) p (fun t _ => ∀ c ∈ t.2, P c) s :=
  Program.Calls.of_recorded hp s hs

theorem wp_mono {Q Q' : σ → Except ε α → Prop} {p : Attempt C R ε α}
    (h : wp sem p Q s) (hQ : ∀ t r, Q t r → Q' t r) :
    wp sem p Q' s := hQ _ _ h

end Wp

end Attempt

end Library
end ZeroVpn
