import ZeroVpn.HostAgent.Generation

/-!
# Generations over whole histories

`GenerationStore::observe` of `crates/zerovpn-host-agent/src/generation.rs`, over
any sequence of observations and restarts of the agent.  An observation may fail
before its record is renamed into place or after; a store that is opened again
keeps nothing but the file.

Two observations that succeed return one generation exactly when they saw one
fingerprint and the record of it was not replaced in between.
-/

namespace ZeroVpn
namespace HostAgent

/-- A call of `observe`: what it sees, the identifier that it would draw, and the
calls that fail under it. -/
structure Observation where
  fingerprint : InterfaceFingerprint
  draw : String
  fails : Fault → Bool

namespace Observation

variable (o : Observation) (record : Option GenerationRecord)

/-- The record after the call, and the answer. -/
def run : Option GenerationRecord × Except String String :=
  GenerationStore.observe o.fails o.draw record o.fingerprint

/-- A new record is renamed into place. -/
def renames : Bool :=
  match o.fingerprint.validate, GenerationStore.load record (o.fails .loadGeneration) with
  | .ok (), .ok found =>
      !(found.any fun r => r.fingerprint == o.fingerprint) && !o.fails .writeGeneration
  | _, _ => false

end Observation

inductive StoreEvent where
  /-- The agent is started again and opens the store. -/
  | restart
  | observe (o : Observation)

def StoreEvent.step (record : Option GenerationRecord) : StoreEvent → Option GenerationRecord
  | restart => record
  | observe o => (o.run record).1

/-- The record after a history. -/
def recordAfter (record : Option GenerationRecord) (events : List StoreEvent) :
    Option GenerationRecord :=
  events.foldl StoreEvent.step record

/-- The answers of a history, in order. -/
def answers (record : Option GenerationRecord) : List StoreEvent → List (Except String String)
  | [] => []
  | .restart :: events => answers record events
  | StoreEvent.observe o :: events => (o.run record).2 :: answers (o.run record).1 events

/-- The identifiers of a history. -/
def drawsOf : List StoreEvent → List String
  | [] => []
  | .restart :: events => drawsOf events
  | StoreEvent.observe o :: events => o.draw :: drawsOf events

/-- Every identifier that is drawn is new. -/
def Fresh (record : Option GenerationRecord) (events : List StoreEvent) : Prop :=
  (drawsOf events).Nodup ∧ ∀ r ∈ record, r.generation ∉ drawsOf events

section Step

variable {o : Observation} {record : Option GenerationRecord} {g : String}

/-- What an observation does to the record. -/
theorem run_record (o : Observation) (record : Option GenerationRecord) :
    (o.run record).1 = if o.renames record then some ⟨o.fingerprint, o.draw⟩ else record := by
  unfold Observation.run Observation.renames GenerationStore.observe
  cases hvalid : o.fingerprint.validate with
  | error e =>
      rfl
  | ok u =>
      cases hload : GenerationStore.load record (o.fails .loadGeneration) with
      | error e =>
          rfl
      | ok found =>
          have hpersist : (GenerationStore.persist o.fails record ⟨o.fingerprint, o.draw⟩).1 =
              if !o.fails .writeGeneration then some ⟨o.fingerprint, o.draw⟩ else record := by
            unfold GenerationStore.persist
            cases o.fails .writeGeneration with
            | true =>
                rfl
            | false =>
                cases o.fails .syncGeneration <;> rfl
          cases found with
          | none =>
              simpa using hpersist
          | some r =>
              by_cases hsame : r.fingerprint = o.fingerprint
              · simp [hsame]
              · simpa [hsame] using hpersist

/-- An answer after a rename is what was drawn. -/
theorem run_renamed (h : (o.run record).2 = .ok g) (hrenames : o.renames record = true) :
    g = o.draw := by
  have hrecord : (o.run record).1 = some ⟨o.fingerprint, g⟩ := GenerationStore.observe_ok h
  rw [run_record, if_pos hrenames] at hrecord
  exact (congrArg GenerationRecord.generation (Option.some.inj hrecord)).symm

/-- An answer without a rename is that of the record. -/
theorem run_kept (h : (o.run record).2 = .ok g) (hrenames : o.renames record = false) :
    record = some ⟨o.fingerprint, g⟩ := by
  have hrecord : (o.run record).1 = some ⟨o.fingerprint, g⟩ := GenerationStore.observe_ok h
  rwa [run_record, if_neg (Bool.eq_false_iff.mp hrenames)] at hrecord

/-- The record that knows a fingerprint is not replaced by it. -/
theorem renames_known (h : record = some ⟨o.fingerprint, g⟩) : o.renames record = false := by
  unfold Observation.renames
  cases o.fingerprint.validate with
  | error e =>
      rfl
  | ok u =>
      cases hload : GenerationStore.load record (o.fails .loadGeneration) with
      | error e =>
          rfl
      | ok found =>
          rw [GenerationStore.load_ok hload, h]
          simp

end Step

section Runs

variable {record : Option GenerationRecord} {f : InterfaceFingerprint} {g : String}

theorem recordAfter_append (record : Option GenerationRecord) (events later : List StoreEvent) :
    recordAfter record (events ++ later) = recordAfter (recordAfter record events) later :=
  List.foldl_append

theorem recordAfter_cons (record : Option GenerationRecord) (e : StoreEvent)
    (later : List StoreEvent) :
    recordAfter record (e :: later) = recordAfter (e.step record) later := rfl

theorem drawsOf_append (events later : List StoreEvent) :
    drawsOf (events ++ later) = drawsOf events ++ drawsOf later := by
  induction events with
  | nil =>
      rfl
  | cons e events ih =>
      cases e with
      | restart =>
          exact ih
      | observe o =>
          exact congrArg (o.draw :: ·) ih

/-- The generation of the record is that of the first record or was drawn. -/
theorem generation_known (events : List StoreEvent) {r : GenerationRecord}
    (h : recordAfter record events = some r) :
    (∃ r₀ ∈ record, r.generation = r₀.generation) ∨ r.generation ∈ drawsOf events := by
  induction events generalizing record with
  | nil =>
      exact .inl ⟨r, h, rfl⟩
  | cons e events ih =>
      cases e with
      | restart =>
          exact ih h
      | observe o =>
          rcases ih (show recordAfter (o.run record).1 events = some r from h) with ⟨r₀, hr₀, hgeneration⟩ | hdrawn
          · rw [run_record] at hr₀
            split at hr₀
            · cases hr₀
              exact .inr (hgeneration ▸ List.mem_cons_self)
            · exact .inl ⟨r₀, hr₀, hgeneration⟩
          · exact .inr (List.mem_cons_of_mem _ hdrawn)

/-- A generation that the record has lost does not come back. -/
theorem generation_gone (events : List StoreEvent) (hdraws : g ∉ drawsOf events)
    (h : ∀ r ∈ record, r.generation ≠ g) :
    ∀ r ∈ recordAfter record events, r.generation ≠ g := by
  intro r hr heq
  rcases generation_known events hr with ⟨r₀, hr₀, hgeneration⟩ | hdrawn
  · exact h r₀ hr₀ (hgeneration ▸ heq)
  · exact hdraws (heq ▸ hdrawn)

/-- Without a replacement by another fingerprint the record stays. -/
theorem record_stays (events : List StoreEvent)
    (h : ∀ p o q, events = p ++ StoreEvent.observe o :: q → o.fingerprint ≠ f →
      o.renames (recordAfter (some ⟨f, g⟩) p) = false) :
    recordAfter (some ⟨f, g⟩) events = some ⟨f, g⟩ := by
  induction events with
  | nil =>
      rfl
  | cons e events ih =>
      have hstep : e.step (some ⟨f, g⟩) = some ⟨f, g⟩ := by
        cases e with
        | restart =>
            rfl
        | observe o =>
            have hkept : o.renames (some ⟨f, g⟩) = false := by
              by_cases hsame : o.fingerprint = f
              · exact renames_known (g := g) (by rw [hsame])
              · exact h [] o events rfl hsame
            change (o.run _).1 = _
            rw [run_record, if_neg (Bool.eq_false_iff.mp hkept)]
      rw [recordAfter_cons, hstep]
      refine ih fun p o q hsplit hother => ?_
      have hlater := h (e :: p) o q (by rw [hsplit, List.cons_append]) hother
      rwa [recordAfter_cons, hstep] at hlater

/-- An answer of a store that has lost a generation is another one. -/
theorem answer_other {o : Observation} {g' : String} (h : (o.run record).2 = .ok g')
    (hdraw : o.draw ≠ g) (hgone : ∀ r ∈ record, r.generation ≠ g) : g' ≠ g := by
  cases hrenames : o.renames record with
  | true =>
      rw [run_renamed h hrenames]
      exact hdraw
  | false =>
      exact hgone _ (run_kept h hrenames)

end Runs

/-- What the generations of a history say about the interface. -/
structure GenerationsTell (record : Option GenerationRecord) (events : List StoreEvent) : Prop where
  /-- Two answers are equal exactly when the fingerprints are and no other fingerprint replaced
  the record in between. -/
  same_iff : ∀ (earlier : List StoreEvent) (a : Observation) (between : List StoreEvent)
    (b : Observation) (later : List StoreEvent) (g g' : String),
    events = earlier ++ StoreEvent.observe a :: between ++ StoreEvent.observe b :: later →
    (a.run (recordAfter record earlier)).2 = .ok g →
    (b.run (recordAfter record (earlier ++ StoreEvent.observe a :: between))).2 = .ok g' →
    (g = g' ↔ a.fingerprint = b.fingerprint ∧
      ∀ p o q, between = p ++ StoreEvent.observe o :: q →
        o.fingerprint ≠ a.fingerprint →
        o.renames (recordAfter record (earlier ++ StoreEvent.observe a :: p)) = false)
  /-- An interface that comes back after another one gets a new generation. -/
  returns : ∀ (earlier : List StoreEvent) (a : Observation) (between : List StoreEvent)
    (b : Observation) (between' : List StoreEvent) (c : Observation) (later : List StoreEvent)
    (g g' g'' : String),
    events = earlier ++ StoreEvent.observe a :: between ++ StoreEvent.observe b :: between' ++
      StoreEvent.observe c :: later →
    (a.run (recordAfter record earlier)).2 = .ok g →
    (b.run (recordAfter record (earlier ++ StoreEvent.observe a :: between))).2 = .ok g' →
    (c.run (recordAfter record
      (earlier ++ StoreEvent.observe a :: between ++ StoreEvent.observe b :: between'))).2 = .ok g'' →
    a.fingerprint ≠ b.fingerprint → a.fingerprint = c.fingerprint → g ≠ g''
  /-- An observation that fails before its rename might as well not have been made. -/
  failed : ∀ (earlier : List StoreEvent) (o : Observation) (later : List StoreEvent)
    (e : String), events = earlier ++ StoreEvent.observe o :: later →
    (o.run (recordAfter record earlier)).2 = .error e →
    o.renames (recordAfter record earlier) = false →
    answers (recordAfter record (earlier ++ [StoreEvent.observe o])) later =
      answers (recordAfter record earlier) later

section History

variable {record : Option GenerationRecord} {earlier between : List StoreEvent}
variable {a b : Observation} {g g' : String}

/-- The record after a successful observation, and what follows it. -/
theorem recordAfter_observed (ha : (a.run (recordAfter record earlier)).2 = .ok g)
    (between : List StoreEvent) :
    recordAfter record (earlier ++ StoreEvent.observe a :: between) =
      recordAfter (some ⟨a.fingerprint, g⟩) between := by
  have hrecord : (a.run (recordAfter record earlier)).1 = some ⟨a.fingerprint, g⟩ :=
    GenerationStore.observe_ok ha
  rw [recordAfter_append, recordAfter_cons, ← hrecord]
  rfl

/-- A generation that was handed out is not drawn again. -/
theorem answer_not_drawn {later : List StoreEvent}
    (hfresh : Fresh record (earlier ++ StoreEvent.observe a :: later))
    (ha : (a.run (recordAfter record earlier)).2 = .ok g) : g ∉ drawsOf later := by
  obtain ⟨hnodup, hfirst⟩ := hfresh
  rw [drawsOf_append] at hnodup hfirst
  obtain ⟨_, hrest, hapart⟩ := List.nodup_append.mp hnodup
  have hseen : recordAfter record (earlier ++ [StoreEvent.observe a]) = some ⟨a.fingerprint, g⟩ :=
    recordAfter_observed ha []
  intro hlater
  rcases generation_known _ hseen with ⟨r₀, hr₀, hgeneration⟩ | hdrawn
  · refine hfirst r₀ hr₀ (List.mem_append_right _ (List.mem_cons_of_mem _ ?_))
    rw [← hgeneration]
    exact hlater
  · rw [drawsOf_append] at hdrawn
    rcases List.mem_append.mp hdrawn with hdrawn | hdrawn
    · exact hapart g hdrawn g (List.mem_cons_of_mem _ hlater) rfl
    · have hdraw : g = a.draw := List.mem_singleton.mp hdrawn
      exact (List.nodup_cons.mp hrest).1 (hdraw ▸ hlater)

/-- A history whose record was replaced by another fingerprint has lost the generation. -/
theorem replaced_gone {p q : List StoreEvent} {o : Observation}
    (hdraws : g ∉ drawsOf (p ++ StoreEvent.observe o :: q))
    (hrenames : o.renames (recordAfter record p) = true) :
    ∀ r ∈ recordAfter record (p ++ StoreEvent.observe o :: q), r.generation ≠ g := by
  rw [drawsOf_append] at hdraws
  rw [recordAfter_append, recordAfter_cons]
  refine generation_gone q ?_ ?_
  · exact fun h => hdraws (List.mem_append_right _ (List.mem_cons_of_mem _ h))
  · intro r hr heq
    change r ∈ (o.run _).1 at hr
    rw [run_record, if_pos hrenames] at hr
    cases hr
    exact hdraws (List.mem_append_right _ (heq ▸ List.mem_cons_self))

theorem same_generation_iff (hdraws : g ∉ drawsOf (between ++ [StoreEvent.observe b]))
    (ha : (a.run (recordAfter record earlier)).2 = .ok g)
    (hb : (b.run (recordAfter record (earlier ++ StoreEvent.observe a :: between))).2 = .ok g') :
    g = g' ↔ a.fingerprint = b.fingerprint ∧
      ∀ p o q, between = p ++ StoreEvent.observe o :: q →
        o.fingerprint ≠ a.fingerprint →
        o.renames (recordAfter record (earlier ++ StoreEvent.observe a :: p)) = false := by
  rw [drawsOf_append, List.mem_append, not_or] at hdraws
  have hdraw : b.draw ≠ g := fun h => hdraws.2 (List.mem_singleton.mpr h.symm)
  simp only [recordAfter_observed ha] at hb ⊢
  constructor
  · rintro rfl
    have hkept : ∀ p o q, between = p ++ StoreEvent.observe o :: q →
        o.fingerprint ≠ a.fingerprint →
        o.renames (recordAfter (some ⟨a.fingerprint, g⟩) p) = false := by
      intro p o q hsplit _
      by_contra hrenames
      subst hsplit
      exact answer_other hb hdraw
        (replaced_gone hdraws.1 (Bool.not_eq_false _ |>.mp hrenames)) rfl
    refine ⟨?_, hkept⟩
    rw [record_stays between hkept] at hb
    cases hrenames : b.renames (some ⟨a.fingerprint, g⟩) with
    | true =>
        exact absurd (run_renamed hb hrenames).symm hdraw
    | false =>
        exact congrArg GenerationRecord.fingerprint (Option.some.inj (run_kept hb hrenames))
  · rintro ⟨hsame, hkept⟩
    rw [record_stays between hkept] at hb
    have hrenames : b.renames (some ⟨a.fingerprint, g⟩) = false :=
      renames_known (g := g) (by rw [hsame])
    exact congrArg GenerationRecord.generation (Option.some.inj (run_kept hb hrenames))

end History

/-- The generations of every history with fresh identifiers. -/
theorem observe_history (record : Option GenerationRecord) (events : List StoreEvent)
    (hfresh : Fresh record events) : GenerationsTell record events where
  same_iff := by
    rintro earlier a between b later g g' rfl ha hb
    rw [List.append_assoc, List.cons_append] at hfresh
    have hdraws := answer_not_drawn hfresh ha
    refine same_generation_iff ?_ ha hb
    rw [List.append_cons, drawsOf_append] at hdraws
    exact fun h => hdraws (List.mem_append_left _ h)
  returns := by
    rintro earlier a between b between' c later g g' g'' rfl ha hb hc hother _
    simp only [List.append_assoc, List.cons_append] at hfresh
    have hdraws := answer_not_drawn hfresh ha
    -- the second interface took the record over, so the first generation is lost
    have hchanged : g' ≠ g := by
      intro heq
      refine hother ((same_generation_iff ?_ ha hb).mp heq.symm).1
      rw [List.append_cons, drawsOf_append] at hdraws
      exact fun h => hdraws (List.mem_append_left _ h)
    rw [recordAfter_observed hb] at hc
    rw [drawsOf_append, List.mem_append, not_or] at hdraws
    have hlater : g ∉ drawsOf (between' ++ StoreEvent.observe c :: later) :=
      fun h => hdraws.2 (List.mem_cons_of_mem _ h)
    rw [drawsOf_append, List.mem_append, not_or] at hlater
    have hdraw : c.draw ≠ g := by
      rintro rfl
      exact hlater.2 List.mem_cons_self
    refine (answer_other hc hdraw ?_).symm
    refine generation_gone between' hlater.1 ?_
    rintro r hr
    cases hr
    exact hchanged
  failed := by
    rintro earlier o later e rfl _ hrenames
    rw [recordAfter_append, recordAfter_cons]
    change answers (o.run _).1 later = _
    rw [run_record, if_neg (Bool.eq_false_iff.mp hrenames)]

/-- An interface with this index, seen by an observation that draws this identifier. -/
def sampleObservation (ifindex : Nat) (draw : String) (fails : Fault → Bool) : Observation where
  fingerprint :=
    { bootId := 1
      networkNamespace := "net:[4026531992]"
      ifindex := ifindex
      publicKey := "AQEBAQEBAQEBAQEBAQEBAQEBAQEBAQEBAQEBAQEBAQE=" }
  draw := draw
  fails := fails

/-- One interface, a restart, a second one whose directory is not synced, and the first again. -/
def sampleStoreEvents : List StoreEvent :=
  [.observe (sampleObservation 12 "first" fun _ => false), .restart,
    .observe (sampleObservation 12 "unused" fun _ => false),
    .observe (sampleObservation 13 "second" (· == .syncGeneration)),
    .observe (sampleObservation 12 "third" fun _ => false)]

theorem observe_history_sample :
    answers none sampleStoreEvents =
        [.ok "first", .ok "first", .error "generation directory missing", .ok "third"] ∧
      GenerationsTell none sampleStoreEvents :=
  ⟨by decide, observe_history none sampleStoreEvents
    ⟨by decide, fun _ h => by cases h⟩⟩

end HostAgent
end ZeroVpn
