import Mathlib.Data.List.Basic

/-!
# Deterministic machines and their runs

A machine is a total step function `step : σ → ε → σ` on states and events.
Every source of choice (which request arrives, which thread moves, which call
fails) is part of the event, so a run is the fold of a list of events.

* `runEvents` is the state after a list of events;
* `Along` says that every event of a run meets a condition in the state
  before it;
* `Always` says that every state of a run, the first one included, satisfies
  a predicate.

The rules at the end turn one-step facts into facts about whole runs.
-/

namespace ZeroVpn
namespace Library

universe u v

section Machine

variable {σ : Type u} {ε : Type v}
variable (step : σ → ε → σ)

/-- The state after a finite list of events. -/
def runEvents : σ → List ε → σ
  | s, [] => s
  | s, e :: es => runEvents (step s e) es

/-- Every event of the run meets `cond` in the state before it. -/
def Along (cond : σ → ε → Prop) : σ → List ε → Prop
  | _, [] => True
  | s, e :: es => cond s e ∧ Along cond (step s e) es

/-- Every state of the run satisfies `P`. -/
def Always (P : σ → Prop) : σ → List ε → Prop
  | s, [] => P s
  | s, e :: es => P s ∧ Always P (step s e) es

instance decidableAlong (cond : σ → ε → Prop) [∀ s e, Decidable (cond s e)] :
    (s : σ) → (es : List ε) → Decidable (Along step cond s es)
  | _, [] => .isTrue trivial
  | s, e :: es =>
      have := decidableAlong cond (step s e) es
      inferInstanceAs (Decidable (_ ∧ _))

instance decidableAlways (P : σ → Prop) [DecidablePred P] :
    (s : σ) → (es : List ε) → Decidable (Always step P s es)
  | s, [] => inferInstanceAs (Decidable (P s))
  | s, e :: es =>
      have := decidableAlways P (step s e) es
      inferInstanceAs (Decidable (_ ∧ _))

@[simp] theorem runEvents_nil (s : σ) :
    runEvents step s [] = s := rfl

@[simp] theorem runEvents_cons (s : σ) (e : ε) (es : List ε) :
    runEvents step s (e :: es) = runEvents step (step s e) es := rfl

theorem runEvents_append (s : σ) (es es' : List ε) :
    runEvents step s (es ++ es') = runEvents step (runEvents step s es) es' := by
  induction es generalizing s with
  | nil =>
      rfl
  | cons e es ih =>
      simp only [List.cons_append, runEvents_cons, ih]

variable {step}

/-- A predicate that holds along a run holds in its last state. -/
theorem Always.last {P : σ → Prop} {s : σ} {es : List ε}
    (h : Always step P s es) :
    P (runEvents step s es) := by
  induction es generalizing s with
  | nil =>
      exact h
  | cons e es ih =>
      exact ih h.2

/-- The first state of a run satisfies what every state of it satisfies. -/
theorem Always.head {P : σ → Prop} {s : σ} {es : List ε}
    (h : Always step P s es) : P s := by
  cases es with
  | nil =>
      exact h
  | cons e es =>
      exact h.1

/--
The invariant rule: what holds initially and is kept by every event that meets
`cond` holds in every state of a run whose events all meet `cond`.
-/
theorem always_of_along (Inv : σ → Prop) {cond : σ → ε → Prop} {P : σ → Prop}
    (hstep : ∀ s e, Inv s → cond s e → Inv (step s e))
    (hP : ∀ s, Inv s → P s)
    {s : σ} {es : List ε}
    (hs : Inv s) (hes : Along step cond s es) :
    Always step P s es := by
  induction es generalizing s with
  | nil =>
      exact hP s hs
  | cons e es ih =>
      exact ⟨hP s hs, ih (hstep s e hs hes.1) hes.2⟩

/-- The invariant rule without a condition. -/
theorem always_of_inv (Inv : σ → Prop) {P : σ → Prop}
    (hstep : ∀ s e, Inv s → Inv (step s e)) (hP : ∀ s, Inv s → P s)
    {s : σ} (hs : Inv s) (es : List ε) :
    Always step P s es := by
  induction es generalizing s with
  | nil =>
      exact hP s hs
  | cons e es ih =>
      exact ⟨hP s hs, ih (hstep s e hs)⟩

/--
The same for the events: what an event does to a state that satisfies the
invariant holds at every step of such a run.
-/
theorem along_of_inv (Inv : σ → Prop) {cond Q : σ → ε → Prop}
    (hstep : ∀ s e, Inv s → cond s e → Inv (step s e))
    (hQ : ∀ s e, Inv s → cond s e → Q s e)
    {s : σ} {es : List ε}
    (hs : Inv s) (hes : Along step cond s es) :
    Along step Q s es := by
  induction es generalizing s with
  | nil =>
      trivial
  | cons e es ih =>
      exact ⟨hQ s e hs hes.1, ih (hstep s e hs hes.1) hes.2⟩

/--
The exact rule: if, next to an invariant `Inv` that every event keeps, an
event keeps `P` exactly when it meets `cond`, then a run stays inside `P`
exactly when all its events meet `cond`.
-/
theorem always_iff_along {cond : σ → ε → Prop} {Inv P : σ → Prop}
    (hinv : ∀ s e, Inv s → P s → Inv (step s e))
    (hstep : ∀ s e, Inv s → P s → (P (step s e) ↔ cond s e))
    {s : σ} {es : List ε}
    (hs : Inv s) (hP : P s) :
    Always step P s es ↔ Along step cond s es := by
  induction es generalizing s with
  | nil =>
      exact ⟨fun _ => trivial, fun _ => hP⟩
  | cons e es ih =>
      constructor
      · rintro ⟨_, htail⟩
        have hnext : P (step s e) := htail.head
        exact ⟨(hstep s e hs hP).mp hnext,
          (ih (hinv s e hs hP) hnext).mp htail⟩
      · rintro ⟨hc, htail⟩
        have hnext : P (step s e) := (hstep s e hs hP).mpr hc
        exact ⟨hP, (ih (hinv s e hs hP) hnext).mpr htail⟩

/-- A fact that each event keeps while `P` lasts, at the end of a run inside `P`. -/
theorem holds_while {H P : σ → Prop} (hstep : ∀ s e, H s → P (step s e) → H (step s e))
    {s : σ} {es : List ε} (hs : H s) (hes : Always step P s es) :
    H (runEvents step s es) := by
  induction es generalizing s with
  | nil =>
      exact hs
  | cons e es ih =>
      exact ih (hstep s e hs hes.2.head) hes.2

/-- A condition that every event meets in every state holds along every run. -/
theorem along_of_forall {cond : σ → ε → Prop}
    (h : ∀ s e, cond s e) (s : σ) (es : List ε) :
    Along step cond s es := by
  induction es generalizing s with
  | nil =>
      trivial
  | cons e es ih =>
      exact ⟨h s e, ih (step s e)⟩

theorem along_append {cond : σ → ε → Prop} {s : σ} {es es' : List ε} :
    Along step cond s (es ++ es') ↔
      Along step cond s es ∧ Along step cond (runEvents step s es) es' := by
  induction es generalizing s with
  | nil =>
      exact ⟨fun h => ⟨trivial, h⟩, fun h => h.2⟩
  | cons e es ih =>
      simp only [List.cons_append, Along, runEvents_cons, ih, and_assoc]

/-- Two conditions that agree under an invariant of the runs that meet `cond`. -/
theorem along_congr_of_along (Inv : σ → Prop) {cond P Q : σ → ε → Prop}
    (hinv : ∀ s e, Inv s → cond s e → Inv (step s e))
    (hiff : ∀ s e, Inv s → cond s e → (P s e ↔ Q s e))
    {s : σ} {es : List ε} (hs : Inv s) (hes : Along step cond s es) :
    Along step P s es ↔ Along step Q s es := by
  induction es generalizing s with
  | nil =>
      exact Iff.rfl
  | cons e es ih =>
      exact and_congr (hiff s e hs hes.1) (ih (hinv s e hs hes.1) hes.2)

variable (step) in
/-- What holds of a state of the run holds of all later ones. -/
def Persists {ι : Type} (R : ι → σ → Prop) (s : σ) (es : List ε) : Prop :=
  ∀ x es₁ es₂ es₃, es = es₁ ++ es₂ ++ es₃ → R x (runEvents step s es₁) →
    R x (runEvents step s (es₁ ++ es₂))

/-- Something persists in a run exactly when every event keeps it. -/
theorem persists_iff_along {ι : Type} {R : ι → σ → Prop} {s : σ} {es : List ε} :
    Persists step R s es ↔ Along step (fun s e => ∀ x, R x s → R x (step s e)) s es := by
  constructor
  · intro h
    induction es generalizing s with
    | nil =>
        trivial
    | cons e es ih =>
        refine ⟨fun x hx => h x [] [e] es rfl hx, ih ?_⟩
        rintro x es₁ es₂ es₃ rfl hx
        exact h x (e :: es₁) es₂ es₃ rfl hx
  · rintro h x es₁ es₂ es₃ rfl hx
    rw [runEvents_append]
    have hkeeps := (along_append.mp (along_append.mp h).1).2
    clear h
    -- the run continues from the state in which the fact holds
    generalize runEvents step s es₁ = t at hx hkeeps
    induction es₂ generalizing t with
    | nil =>
        exact hx
    | cons e es ih =>
        exact ih (step t e) (hkeeps.1 x hx) hkeeps.2

end Machine

end Library
end ZeroVpn
