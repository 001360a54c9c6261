import ZeroVpn.Library.Pool

/-!
# Conditions on an interleaving

The rule of `Pool` for runs whose condition speaks about other threads.  The
condition of a call may look at the notes of all threads and at the outcome
that the environment gives the call; the notes in turn are tied to the programs
by an obligation `Obl t c m`, so that a condition on the next calls of the
threads can be turned into one on their notes.

`Follows` is the safety of one program, `Noted` the invariant of a pool and
`noted_step` the rule for one event.
-/

namespace ZeroVpn
namespace Library

section Notes

variable {σ T G C α M : Type} {R : C → Type}
variable (S : System σ T G C R α)
variable (I : σ → (Nat → M) → Prop)
variable (Obl : T → C → M → Prop)
variable (Cond : Nat → T → C → Bool → σ → (Nat → M) → Prop)

/-- Thread `i`, serving request `t` with note `m`, may run the program: every call
suits the note and, under the condition, leaves a state for which the note can be
rewritten; `Q` holds of the result and the last note. -/
def Follows {β : Type} (i : Nat) (t : T) (Q : β → M → Prop) : Program C R β → M → Prop
  | .ret b, m => Q b m
  | .call c k, m =>
      Obl t c m ∧
        ∀ s μ ok, I s μ → μ i = m → Cond i t c ok s μ →
          ∃ m', I (S.sem i c ok s).1 (Function.update μ i m') ∧
            Follows i t Q (k (S.sem i c ok s).2) m'

/-- The notes of a pool. -/
structure Noted (Post : T → α → M → Prop) (idle : M) (p : Pool σ T C R α) (μ : Nat → M) :
    Prop where
  inv : I p.shared μ
  threads : ∀ i t q, p.threads[i]? = some (t, some q) →
    Follows S I Obl Cond i t (Post t) q (μ i)
  /-- Threads that were killed or do not exist. -/
  others : ∀ i, (∀ t q, p.threads[i]? ≠ some (t, some q)) → μ i = idle

variable {S I Obl Cond}
variable {Post : T → α → M → Prop} {idle : M}

theorem Follows.mono {β : Type} {i : Nat} {t : T} {Q Q' : β → M → Prop} {p : Program C R β}
    {m : M} (h : Follows S I Obl Cond i t Q p m) (hQ : ∀ b m', Q b m' → Q' b m') :
    Follows S I Obl Cond i t Q' p m := by
  induction p generalizing m with
  | ret b =>
      exact hQ b m h
  | call c k ih =>
      refine ⟨h.1, ?_⟩
      intro s μ ok hI hm hcond
      obtain ⟨m', hI', hk⟩ := h.2 s μ ok hI hm hcond
      exact ⟨m', hI', ih _ hk⟩

/-- The rule for a sequence. -/
theorem Follows.bind {β γ : Type} {i : Nat} {t : T} {Q : β → M → Prop} {Q' : γ → M → Prop}
    {p : Program C R β} {f : β → Program C R γ} {m : M}
    (h : Follows S I Obl Cond i t Q p m)
    (hf : ∀ b m', Q b m' → Follows S I Obl Cond i t Q' (f b) m') :
    Follows S I Obl Cond i t Q' (p >>= f) m := by
  induction p generalizing m with
  | ret b =>
      exact hf b m h
  | call c k ih =>
      refine ⟨h.1, ?_⟩
      intro s μ ok hI hm hcond
      obtain ⟨m', hI', hk⟩ := h.2 s μ ok hI hm hcond
      exact ⟨m', hI', ih _ hk⟩

/-- The rule for a sequence that stops at the first error. -/
theorem Follows.attempt_bind {ε β γ : Type} {i : Nat} {t : T} {Q : Except ε β → M → Prop}
    {Q' : Except ε γ → M → Prop} {p : Attempt C R ε β} {f : β → Attempt C R ε γ} {m : M}
    (h : Follows S I Obl Cond i t Q p.run m)
    (hf : ∀ b m', Q (.ok b) m' → Follows S I Obl Cond i t Q' (f b).run m')
    (he : ∀ e m', Q (.error e) m' → Q' (.error e) m') :
    Follows S I Obl Cond i t Q' (p >>= f).run m := by
  rw [ExceptT.run_bind]
  refine h.bind ?_
  rintro (e | b) m' hQ
  · exact he e m' hQ
  · exact hf b m' hQ

/-- A program whose calls all suit the note and keep the invariant. -/
theorem follows_of_calls {β : Type} {i : Nat} {t : T} {P : C → Prop} {Q : β → M → Prop} {m : M}
    (hobl : ∀ c, P c → Obl t c m)
    (hkeep : ∀ c s μ ok, P c → I s μ → Cond i t c ok s μ → I (S.sem i c ok s).1 μ)
    {p : Program C R β} (hp : p.Calls P) (hQ : ∀ b, Q b m) :
    Follows S I Obl Cond i t Q p m := by
  induction p with
  | ret b =>
      exact hQ b
  | call c k ih =>
      refine ⟨hobl c hp.1, ?_⟩
      intro s μ ok hI hm hcond
      refine ⟨m, ?_, ih _ (hp.2 _)⟩
      rw [← hm, Function.update_eq_self]
      exact hkeep c s μ ok hp.1 hI hcond

theorem noted_init {s : σ} (h : I s fun _ => idle) :
    Noted S I Obl Cond Post idle { shared := s, threads := [] } fun _ => idle where
  inv := h
  threads := by simp
  others _ _ := rfl

/-- Replacing the note and the program of one thread. -/
theorem noted_set {p : Pool σ T C R α} {μ : Nat → M} (h : Noted S I Obl Cond Post idle p μ)
    {i : Nat} (hlt : i < p.threads.length) {t : T} {q : Option (Program C R α)} {s' : σ} {m' : M}
    (hI : I s' (Function.update μ i m'))
    (hq : ∀ q', q = some q' → Follows S I Obl Cond i t (Post t) q' m')
    (hnone : q = none → m' = idle) :
    Noted S I Obl Cond Post idle { shared := s', threads := p.threads.set i (t, q) }
      (Function.update μ i m') where
  inv := hI
  threads := by
    intro j t' q' hj
    rw [List.getElem?_set] at hj
    by_cases hij : i = j
    · subst hij
      rw [if_pos rfl, if_pos hlt] at hj
      injection hj with hj
      injection hj with htag hprog
      subst htag
      rw [Function.update_self]
      exact hq q' hprog
    · rw [if_neg hij] at hj
      rw [Function.update_of_ne (Ne.symm hij)]
      exact h.threads j t' q' hj
  others := by
    intro j hj
    by_cases hij : i = j
    · subst hij
      rw [Function.update_self]
      cases q with
      | none =>
          exact hnone rfl
      | some q =>
          exact absurd (by simp [hlt]) (hj t q)
    · rw [Function.update_of_ne (Ne.symm hij)]
      refine h.others j fun t' q' hj' => hj t' q' ?_
      simp only [List.getElem?_set, if_neg hij]
      exact hj'

/-- Every event that meets its condition keeps the notes. -/
theorem noted_step {p : Pool σ T C R α} {μ : Nat → M} {e : PoolEvent T G}
    (hbody : ∀ i t, e = .spawn t → Follows S I Obl Cond i t (Post t) (S.body t) idle)
    (h : Noted S I Obl Cond Post idle p μ)
    (hstep : ∀ i ok t c, e = .step i ok → nextCall p i = some (t, c) →
      Cond i t c ok p.shared μ)
    (hcrash : ∀ i t q, e = .crash i → p.threads[i]? = some (t, some q) →
      I (S.crash i p.shared) (Function.update μ i idle))
    (hrestart : ∀ g, e = .restart g → I (S.restart g p.shared) fun _ => idle) :
    ∃ μ', Noted S I Obl Cond Post idle (poolStep S p e) μ' := by
  cases e with
  | spawn t =>
      refine ⟨μ, h.inv, ?_, ?_⟩
      · intro i t' q hi
        simp only [poolStep] at hi
        by_cases hlt : i < p.threads.length
        · rw [List.getElem?_append_left hlt] at hi
          exact h.threads i t' q hi
        · have hge : p.threads.length ≤ i := Nat.le_of_not_lt hlt
          have hidle : μ i = idle := h.others i fun t q hq => by
            rw [List.getElem?_eq_none hge] at hq
            cases hq
          rw [List.getElem?_append_right hge] at hi
          rw [hidle]
          rcases hn : i - p.threads.length with _ | n
          · rw [hn] at hi
            simp only [List.getElem?_cons_zero, Option.some.injEq, Prod.mk.injEq] at hi
            obtain ⟨rfl, rfl⟩ := hi
            exact hbody i t rfl
          · rw [hn] at hi
            simp at hi
      · intro i hi
        refine h.others i fun t' q hq => hi t' q ?_
        simp only [poolStep]
        rw [List.getElem?_append_left (List.getElem?_eq_some_iff.mp hq).1]
        exact hq
  | step i ok =>
      simp only [poolStep]
      split
      · rename_i t c k hi
        have hlt : i < p.threads.length := (List.getElem?_eq_some_iff.mp hi).1
        have hcond := hstep i ok t c rfl (by simp [nextCall, hi])
        obtain ⟨m', hI', hsafe⟩ := (h.threads i t _ hi).2 p.shared μ ok h.inv rfl hcond
        refine ⟨_, noted_set h hlt hI' ?_ ?_⟩
        · intro q' hq'
          cases hq'
          exact hsafe
        · intro hq
          cases hq
      · exact ⟨μ, h⟩
  | crash i =>
      simp only [poolStep]
      split
      · rename_i t q hi
        have hlt : i < p.threads.length := (List.getElem?_eq_some_iff.mp hi).1
        refine ⟨_, noted_set h hlt (hcrash i t q rfl hi) ?_ fun _ => rfl⟩
        intro q' hq'
        cases hq'
      · exact ⟨μ, h⟩
  | restart g =>
      refine ⟨fun _ => idle, hrestart g rfl, ?_, fun _ _ => rfl⟩
      intro i t q hi
      simp only [poolStep, List.getElem?_map, Option.map_eq_some_iff, Prod.mk.injEq] at hi
      obtain ⟨_, _, _, habs⟩ := hi
      cases habs

/-- The note of a thread that has a next call suits it. -/
theorem Noted.suits {p : Pool σ T C R α} {μ : Nat → M} (h : Noted S I Obl Cond Post idle p μ)
    {i : Nat} {t : T} {c : C} (hc : nextCall p i = some (t, c)) : Obl t c (μ i) := by
  obtain ⟨k, hk⟩ := nextCall_eq_some hc
  exact (h.threads i t _ hk).1

/-- A thread without a next call has finished, was killed or does not exist. -/
theorem Noted.settled {p : Pool σ T C R α} {μ : Nat → M} (h : Noted S I Obl Cond Post idle p μ)
    {i : Nat} (hc : nextCall p i = none) : (∃ t a, Post t a (μ i)) ∨ μ i = idle := by
  by_cases hrun : ∃ t q, p.threads[i]? = some (t, some q)
  · obtain ⟨t, q, hi⟩ := hrun
    cases q with
    | ret a =>
        exact Or.inl ⟨t, a, h.threads i t _ hi⟩
    | call c k =>
        simp [nextCall, hi] at hc
  · exact Or.inr (h.others i fun t q hi => hrun ⟨t, q, hi⟩)

/-- Threads without a next call may be given the idle note. -/
theorem Noted.retire {p : Pool σ T C R α} {μ : Nat → M} (h : Noted S I Obl Cond Post idle p μ)
    (hI : I p.shared fun i => if (nextCall p i).isSome then μ i else idle)
    (hpost : ∀ t a, Post t a idle) :
    Noted S I Obl Cond Post idle p fun i => if (nextCall p i).isSome then μ i else idle where
  inv := hI
  threads := by
    intro i t q hi
    cases q with
    | ret a =>
        have hnone : nextCall p i = none := by
          simp [nextCall, hi]
        rw [hnone]
        exact hpost t a
    | call c k =>
        simpa [nextCall, hi] using h.threads i t _ hi
  others := by
    intro i hi
    have hnone : nextCall p i = none := by
      unfold nextCall
      split
      · rename_i t c k hk
        exact absurd hk (hi t _)
      · rfl
    simp [hnone]

end Notes

end Library
end ZeroVpn
