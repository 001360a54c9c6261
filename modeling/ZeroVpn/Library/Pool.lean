import ZeroVpn.Library.Machine
import ZeroVpn.Library.Program
import Mathlib.Logic.Function.Basic

/-!
# Interleaved programs

A pool runs any number of programs over one shared state.  One event lets one
program issue its next call, so the calls of different programs interleave in
every possible order.  A program may also be killed, and a restart kills all
of them at once.

**Proof rule.**  Every thread carries a private note (auxiliary state that only
proofs see).  A global invariant `I s μ` relates the shared state `s` to the
notes `μ` of all threads.  A program is safe (`SafeThen`) when each of its
calls, issued in any state allowed by the invariant and by the thread's own
note, meets its obligation and leaves a state for which the note can be
rewritten so that the invariant holds again, and when its result meets a
postcondition.  `poolInv_step` shows that a pool of safe programs stays inside
the invariant under every event.

**Sequential runs.**  `solo_run` identifies running one thread to its end
without interleaving with `Program.run`.
-/

namespace ZeroVpn
namespace Library

/-- What a pool needs to know about its programs and calls. -/
structure System (σ T G C : Type) (R : C → Type) (α : Type) where
  /-- The program that a request runs. -/
  body : T → Program C R α
  /-- The effect of a call of thread `i`; the flag says whether the
  environment lets the call succeed. -/
  sem : Nat → (c : C) → Bool → σ → σ × R c
  /-- What the environment does when thread `i` is killed. -/
  crash : Nat → σ → σ
  /-- What a restart of the whole process does to the shared state. -/
  restart : G → σ → σ

/-- A shared state and the threads over it; a killed thread has no program. -/
structure Pool (σ T C : Type) (R : C → Type) (α : Type) where
  shared : σ
  threads : List (T × Option (Program C R α))

/-- The events of a pool. -/
inductive PoolEvent (T G : Type) where
  | spawn (t : T)
  | step (i : Nat) (ok : Bool)
  | crash (i : Nat)
  | restart (g : G)

section Pool

variable {σ T G C α : Type} {R : C → Type}
variable (S : System σ T G C R α)

/-- One event of the pool.  Events that name no running thread do nothing. -/
def poolStep (p : Pool σ T C R α) : PoolEvent T G → Pool σ T C R α
  | .spawn t => { p with threads := p.threads ++ [(t, some (S.body t))] }
  | .step i ok =>
      match p.threads[i]? with
      | some (t, some (.call c k)) =>
          { shared := (S.sem i c ok p.shared).1
            threads := p.threads.set i (t, some (k (S.sem i c ok p.shared).2)) }
      | _ => p
  | .crash i =>
      match p.threads[i]? with
      | some (t, some _) =>
          { shared := S.crash i p.shared
            threads := p.threads.set i (t, none) }
      | _ => p
  | .restart g =>
      { shared := S.restart g p.shared
        threads := p.threads.map fun th => (th.1, none) }

/-- The call that thread `i` issues next, with the request it serves. -/
def nextCall (p : Pool σ T C R α) (i : Nat) : Option (T × C) :=
  match p.threads[i]? with
  | some (t, some (.call c _)) => some (t, c)
  | _ => none

theorem nextCall_eq_some {p : Pool σ T C R α} {i : Nat} {t : T} {c : C}
    (h : nextCall p i = some (t, c)) :
    ∃ k, p.threads[i]? = some (t, some (.call c k)) := by
  unfold nextCall at h
  split at h
  · rename_i t' c' k heq
    cases h
    exact ⟨k, heq⟩
  · cases h

theorem lt_of_nextCall {p : Pool σ T C R α} {i : Nat} {x : T × C} (h : nextCall p i = some x) :
    i < p.threads.length := by
  obtain ⟨_, hk⟩ := nextCall_eq_some h
  exact (List.getElem?_eq_some_iff.mp hk).1

/-- The request that a thread serves. -/
def Pool.request (p : Pool σ T C R α) (i : Nat) : Option T := p.threads[i]?.map Prod.fst

theorem request_of_nextCall {p : Pool σ T C R α} {i : Nat} {t : T} {c : C}
    (h : nextCall p i = some (t, c)) : p.request i = some t := by
  obtain ⟨k, hk⟩ := nextCall_eq_some h
  simp [Pool.request, hk]

theorem request_length (p : Pool σ T C R α) : p.request p.threads.length = none := by
  simp [Pool.request]

theorem request_set {p : Pool σ T C R α} {s : σ} {i : Nat} {t : T}
    {q q' : Option (Program C R α)} (hi : p.threads[i]? = some (t, q)) (j : Nat) :
    Pool.request { shared := s, threads := p.threads.set i (t, q') } j = p.request j := by
  simp only [Pool.request, List.getElem?_set]
  by_cases hij : i = j
  · subst hij
    rw [if_pos rfl, if_pos (List.getElem?_eq_some_iff.mp hi).1, hi]
    rfl
  · rw [if_neg hij]

theorem request_spawn (p : Pool σ T C R α) (t : T) (j : Nat) :
    (poolStep S p (.spawn t)).request j =
      if j = p.threads.length then some t else p.request j := by
  simp only [Pool.request, poolStep]
  rcases Nat.lt_trichotomy j p.threads.length with hlt | heq | hgt
  · rw [List.getElem?_append_left hlt, if_neg (by omega)]
  · subst heq
    simp
  · rw [if_neg (by omega), List.getElem?_eq_none (by simp; omega),
      List.getElem?_eq_none (by omega)]

/-- Only a spawn changes which request a thread serves. -/
theorem request_keep (p : Pool σ T C R α) {e : PoolEvent T G} (he : ∀ t, e ≠ .spawn t)
    (j : Nat) : (poolStep S p e).request j = p.request j := by
  cases e with
  | spawn t =>
      exact absurd rfl (he t)
  | step i ok =>
      simp only [poolStep]
      split
      · rename_i t c k hi
        exact request_set hi j
      · rfl
  | crash i =>
      simp only [poolStep]
      split
      · rename_i t q hi
        exact request_set hi j
      · rfl
  | restart g =>
      simp only [poolStep, Pool.request, List.getElem?_map, Option.map_map]
      rfl

section Rule

variable {M : Type}
variable (I : σ → (Nat → M) → Prop)
variable (Obl Cond : T → C → σ → Prop)

/--
`SafeThen i t Q p m`: thread `i`, serving request `t` with note `m`, may run
`p`, and `Q` holds of its result and of the note it ends with.  `Cond` is what
the run is assumed to respect, `Obl` what is proved about every call.
-/
def SafeThen {β : Type} (i : Nat) (t : T) (Q : β → M → Prop) : Program C R β → M → Prop
  | .ret b, m => Q b m
  | .call c k, m =>
      ∀ s μ, I s μ → μ i = m →
        Obl t c s ∧
        ∀ ok, Cond t c s →
          ∃ m', I (S.sem i c ok s).1 (Function.update μ i m') ∧
            SafeThen i t Q (k (S.sem i c ok s).2) m'

/-- The condition on one event of a run. -/
def EventMeets (Admit : T → Prop) (Boot : G → σ → Prop)
    (p : Pool σ T C R α) : PoolEvent T G → Prop
  | .spawn t => Admit t
  | .step i _ => ∀ t c, nextCall p i = some (t, c) → Cond t c p.shared
  | .crash _ => True
  | .restart g => Boot g p.shared

instance decidableEventMeets (Admit : T → Prop) (Boot : G → σ → Prop)
    [∀ t c s, Decidable (Cond t c s)] [DecidablePred Admit] [∀ g s, Decidable (Boot g s)]
    (p : Pool σ T C R α) : (e : PoolEvent T G) → Decidable (EventMeets Cond Admit Boot p e)
  | .spawn t => inferInstanceAs (Decidable (Admit t))
  | .step i _ =>
      match h : nextCall p i with
      | none => .isTrue (by
          intro t c hc
          rw [h] at hc
          cases hc)
      | some (t, c) => decidable_of_iff (Cond t c p.shared) (by
          constructor
          · intro hcond t' c' hc
            rw [h] at hc
            cases hc
            exact hcond
          · intro hmeets
            exact hmeets t c h)
  | .crash _ => .isTrue trivial
  | .restart g => inferInstanceAs (Decidable (Boot g p.shared))

/-- The invariant of a pool of safe programs; `Post` is what a finished program
leaves behind. -/
def PoolInv (Post : Nat → T → α → M → Prop) (idle : M) (p : Pool σ T C R α) : Prop :=
  ∃ μ : Nat → M,
    I p.shared μ ∧
    (∀ i t q, p.threads[i]? = some (t, some q) →
      SafeThen S I Obl Cond i t (Post i t) q (μ i)) ∧
    ∀ i, p.threads.length ≤ i → μ i = idle

variable {S I Obl Cond}
variable {Post : Nat → T → α → M → Prop}

theorem SafeThen.mono {β : Type} {i : Nat} {t : T} {Q Q' : β → M → Prop}
    {p : Program C R β} {m : M}
    (h : SafeThen S I Obl Cond i t Q p m) (hQ : ∀ b m', Q b m' → Q' b m') :
    SafeThen S I Obl Cond i t Q' p m := by
  induction p generalizing m with
  | ret b =>
      exact hQ b m h
  | call c k ih =>
      intro s μ hI hm
      obtain ⟨hobl, hstep⟩ := h s μ hI hm
      refine ⟨hobl, ?_⟩
      intro ok hcond
      obtain ⟨m', hI', hk⟩ := hstep ok hcond
      exact ⟨m', hI', ih _ hk⟩

/-- The rule for a sequence. -/
theorem SafeThen.bind {β γ : Type} {i : Nat} {t : T} {Q : β → M → Prop}
    {Q' : γ → M → Prop} {p : Program C R β} {f : β → Program C R γ} {m : M}
    (h : SafeThen S I Obl Cond i t Q p m)
    (hf : ∀ b m', Q b m' → SafeThen S I Obl Cond i t Q' (f b) m') :
    SafeThen S I Obl Cond i t Q' (p >>= f) m := by
  induction p generalizing m with
  | ret b =>
      exact hf b m h
  | call c k ih =>
      intro s μ hI hm
      obtain ⟨hobl, hstep⟩ := h s μ hI hm
      refine ⟨hobl, ?_⟩
      intro ok hcond
      obtain ⟨m', hI', hk⟩ := hstep ok hcond
      exact ⟨m', hI', ih _ hk⟩

/-- The rule for a sequence that stops at the first error. -/
theorem SafeThen.attempt_bind {ε β γ : Type} {i : Nat} {t : T}
    {Q : Except ε β → M → Prop} {Q' : Except ε γ → M → Prop}
    {p : Attempt C R ε β} {f : β → Attempt C R ε γ} {m : M}
    (h : SafeThen S I Obl Cond i t Q p.run m)
    (hf : ∀ b m', Q (.ok b) m' → SafeThen S I Obl Cond i t Q' (f b).run m')
    (he : ∀ e m', Q (.error e) m' → Q' (.error e) m') :
    SafeThen S I Obl Cond i t Q' (p >>= f).run m := by
  rw [ExceptT.run_bind]
  refine h.bind ?_
  rintro (e | b) m' hQ
  · exact he e m' hQ
  · exact hf b m' hQ

/-- A call that needs no change of the note. -/
theorem safeThen_call {β : Type} {i : Nat} {t : T} {Q : β → M → Prop} {c : C}
    {k : R c → Program C R β} {m : M}
    (hobl : ∀ s μ, I s μ → μ i = m → Obl t c s)
    (hkeep : ∀ s μ ok, I s μ → μ i = m → Cond t c s → I (S.sem i c ok s).1 μ)
    (hk : ∀ r, SafeThen S I Obl Cond i t Q (k r) m) :
    SafeThen S I Obl Cond i t Q (.call c k) m := by
  intro s μ hI hm
  refine ⟨hobl s μ hI hm, ?_⟩
  intro ok hcond
  refine ⟨m, ?_, hk _⟩
  rw [← hm, Function.update_eq_self]
  exact hkeep s μ ok hI hm hcond

/-- A program whose calls all keep the invariant, whatever the notes are. -/
theorem safeThen_of_calls {β : Type} {i : Nat} {t : T} {P : C → Prop}
    {Q : β → M → Prop}
    (hobl : ∀ c s μ, P c → I s μ → Obl t c s)
    (hkeep : ∀ c s μ ok, P c → I s μ → Cond t c s → I (S.sem i c ok s).1 μ)
    {p : Program C R β} (hp : p.Calls P) {m : M} (hQ : ∀ b, Q b m) :
    SafeThen S I Obl Cond i t Q p m := by
  induction p with
  | ret b =>
      exact hQ b
  | call c k ih =>
      refine safeThen_call ?_ ?_ (fun r => ih r (hp.2 r))
      · intro s μ hI _
        exact hobl c s μ hp.1 hI
      · intro s μ ok hI _ hcond
        exact hkeep c s μ ok hp.1 hI hcond

/-- A pool without threads satisfies the invariant if its state does. -/
theorem poolInv_init {idle : M} {s : σ} (h : I s fun _ => idle) :
    PoolInv S I Obl Cond Post idle { shared := s, threads := [] } :=
  ⟨fun _ => idle, h, by simp, fun _ _ => rfl⟩

/-- Spawning a thread whose program is safe from the idle note. -/
theorem poolInv_spawn {idle : M} {p : Pool σ T C R α} {t : T}
    (h : PoolInv S I Obl Cond Post idle p)
    (hsafe : ∀ i, SafeThen S I Obl Cond i t (Post i t) (S.body t) idle) :
    PoolInv S I Obl Cond Post idle (poolStep S p (.spawn t)) := by
  obtain ⟨μ, hI, hthreads, hidle⟩ := h
  refine ⟨μ, hI, ?_, ?_⟩
  · intro i t' q hi
    simp only [poolStep] at hi
    by_cases hlt : i < p.threads.length
    · rw [List.getElem?_append_left hlt] at hi
      exact hthreads i t' q hi
    · have hge : p.threads.length ≤ i := Nat.le_of_not_lt hlt
      rw [List.getElem?_append_right hge] at hi
      rw [hidle i hge]
      rcases hn : i - p.threads.length with _ | n
      · rw [hn] at hi
        simp only [List.getElem?_cons_zero, Option.some.injEq, Prod.mk.injEq] at hi
        obtain ⟨rfl, rfl⟩ := hi
        exact hsafe i
      · rw [hn] at hi
        simp at hi
  · intro i hi
    simp only [poolStep, List.length_append, List.length_singleton] at hi
    exact hidle i (by omega)

/-- Replacing the note and the program of one thread. -/
theorem poolInv_set {idle : M} {p : Pool σ T C R α} {i : Nat} {t : T}
    {q : Option (Program C R α)} {s' : σ} {m' : M} {μ : Nat → M}
    (hthreads : ∀ j t q, p.threads[j]? = some (t, some q) →
      SafeThen S I Obl Cond j t (Post j t) q (μ j))
    (hidle : ∀ j, p.threads.length ≤ j → μ j = idle)
    (hlt : i < p.threads.length)
    (hI : I s' (Function.update μ i m'))
    (hq : ∀ q', q = some q' → SafeThen S I Obl Cond i t (Post i t) q' m') :
    PoolInv S I Obl Cond Post idle
      { shared := s', threads := p.threads.set i (t, q) } := by
  refine ⟨Function.update μ i m', hI, ?_, ?_⟩
  · intro j t' q' hj
    rw [List.getElem?_set] at hj
    by_cases hij : i = j
    · subst hij
      rw [if_pos rfl, if_pos hlt] at hj
      injection hj with hj
      injection hj with htag hprog
      subst htag
      rw [Function.update_self]
      exact hq q' hprog
    · rw [if_neg hij] at hj
      rw [Function.update_of_ne (Ne.symm hij)]
      exact hthreads j t' q' hj
  · intro j hj
    simp only [List.length_set] at hj
    rw [Function.update_of_ne (by omega)]
    exact hidle j hj

/-- The rule for going on with an outcome. -/
theorem SafeThen.outcome {ε β : Type} {i : Nat} {t : T}
    {Q : Except ε (Except ε β) → M → Prop} {p : Attempt C R ε β} {m : M}
    (h : SafeThen S I Obl Cond i t (fun r m' => Q (.ok r) m') p.run m) :
    SafeThen S I Obl Cond i t Q (Attempt.outcome p).run m :=
  SafeThen.bind h fun _ _ hQ => hQ

/-- In a pool inside the invariant every next call meets its obligation. -/
theorem obligation_of_poolInv {idle : M} {p : Pool σ T C R α} {i : Nat}
    {t : T} {c : C}
    (h : PoolInv S I Obl Cond Post idle p) (hc : nextCall p i = some (t, c)) :
    Obl t c p.shared := by
  obtain ⟨μ, hI, hthreads, _⟩ := h
  obtain ⟨k, hk⟩ := nextCall_eq_some hc
  exact (hthreads i t _ hk p.shared μ hI rfl).1

/-- Every event keeps the invariant of a pool of safe programs. -/
theorem poolInv_step {idle : M} {Admit : T → Prop} {Boot : G → σ → Prop}
    (hbody : ∀ t, Admit t → ∀ i, SafeThen S I Obl Cond i t (Post i t) (S.body t) idle)
    (hcrash : ∀ i s μ, I s μ → I (S.crash i s) (Function.update μ i idle))
    (hrestart : ∀ g s μ, Boot g s → I s μ → I (S.restart g s) fun _ => idle)
    (p : Pool σ T C R α) (e : PoolEvent T G)
    (h : PoolInv S I Obl Cond Post idle p)
    (he : EventMeets Cond Admit Boot p e) :
    PoolInv S I Obl Cond Post idle (poolStep S p e) := by
  cases e with
  | spawn t =>
      exact poolInv_spawn h (hbody t he)
  | step i ok =>
      simp only [poolStep]
      split
      · rename_i t c k hi
        have hlt : i < p.threads.length := (List.getElem?_eq_some_iff.mp hi).1
        have hcond : Cond t c p.shared := he t c (by simp [nextCall, hi])
        obtain ⟨μ, hI, hthreads, hidle⟩ := h
        obtain ⟨m', hI', hsafe⟩ :=
          (hthreads i t _ hi p.shared μ hI rfl).2 ok hcond
        refine poolInv_set hthreads hidle hlt hI' ?_
        intro q' hq'
        cases hq'
        exact hsafe
      · exact h
  | crash i =>
      simp only [poolStep]
      split
      · rename_i t q hi
        have hlt : i < p.threads.length := (List.getElem?_eq_some_iff.mp hi).1
        obtain ⟨μ, hI, hthreads, hidle⟩ := h
        exact poolInv_set hthreads hidle hlt (hcrash i p.shared μ hI) (by simp)
      · exact h
  | restart g =>
      obtain ⟨μ, hI, _, _⟩ := h
      refine ⟨fun _ => idle, hrestart g p.shared μ he hI, ?_, fun _ _ => rfl⟩
      intro i t q hi
      simp only [poolStep, List.getElem?_map, Option.map_eq_some_iff, Prod.mk.injEq] at hi
      obtain ⟨_, _, _, habs⟩ := hi
      cases habs

/-- A change of the shared state from outside that keeps the invariant. -/
theorem poolInv_env {idle : M} {p : Pool σ T C R α} {s' : σ}
    (h : PoolInv S I Obl Cond Post idle p) (hI : ∀ μ, I p.shared μ → I s' μ) :
    PoolInv S I Obl Cond Post idle { p with shared := s' } := by
  obtain ⟨μ, hs, hthreads, hidle⟩ := h
  exact ⟨μ, hI μ hs, hthreads, hidle⟩

/-- What a finished program left behind. -/
theorem post_of_poolInv {idle : M} {p : Pool σ T C R α}
    (h : PoolInv S I Obl Cond Post idle p) :
    ∃ μ, I p.shared μ ∧ ∀ i t a, p.threads[i]? = some (t, some (.ret a)) → Post i t a (μ i) := by
  obtain ⟨μ, hI, hthreads, _⟩ := h
  exact ⟨μ, hI, fun i t a hi => hthreads i t _ hi⟩

end Rule

end Pool

end Library
end ZeroVpn
