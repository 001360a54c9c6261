import ZeroVpn.Api.DeviceRequests
import ZeroVpn.Api.TunnelAccess
import ZeroVpn.Db.Months

/-!
# The quota sweep

One run of `run_once` resets the windows that are over, resumes devices and
pauses devices, each by a query for the candidates and one statement for each of
them.  `Phases` is the result of such a run in terms of the rows, `runOnce_phases`
says that every run that returns `Ok` has it, and `quota_sweep_correct` draws the
conclusions: the caps are enforced, what may run again does, no device is both
resumed and paused, and a second run at the same instant does nothing.
-/

namespace ZeroVpn

open Library
open Library.Attempt (wp wp_and wp_bind wp_bind_of wp_forall wp_lift wp_recorded Issues issues_bind issues_pure)

namespace Api

open Db (Uuid Device User DeviceStatus)
open Db.Quota (overCap)

/-- The counter is below the cap, if there is a positive one. -/
def UnderCap (cap : Option Int) (used : Int) : Prop := ∀ c, cap = some c → 0 < c → used < c

theorem overCap_eq_false {cap : Option Int} {used : Int} :
    overCap cap used = false ↔ UnderCap cap used := by
  unfold UnderCap
  cases cap with
  | none =>
      simp [overCap]
  | some c =>
      simp only [overCap, Bool.and_eq_false_imp, decide_eq_true_eq, decide_eq_false_iff_not,
        Int.not_le, Option.some.injEq]
      constructor
      · rintro h _ rfl hpos
        exact h hpos
      · intro h hpos
        exact h c rfl hpos

/-- The user owns the device and may use it. -/
def MayUse (u : User) (d : Device) : Prop :=
  u.id = d.userId ∧ u.status = .active ∧ u.deletedAt = none

/-- What one run of the sweep achieves, from its calls and the states before and
after it. -/
structure SweepCorrect (now : Int) (s s' : Sys) (calls : List ApiCmd) : Prop where
  enforced : ∀ d ∈ s'.db.devices, d.status = .active → ∀ u ∈ s'.db.users, MayUse u d →
    UnderCap d.monthlyByteCap d.currentMonthBytes ∧
      UnderCap u.monthlyByteCap u.currentMonthBytes
  restored : ∀ d ∈ s'.db.devices, d.autoPaused = true → ∀ u ∈ s'.db.users, MayUse u d →
    UnderCap d.monthlyByteCap d.currentMonthBytes →
    UnderCap u.monthlyByteCap u.currentMonthBytes → d.status ≠ .paused
  resumes : ∀ id, .sql (.markResumed id) ∈ calls →
    ∃ d ∈ s.db.devices, d.id = id ∧ d.status = .paused ∧ d.autoPaused = true
  pauses : ∀ id, .sql (.markAutoPaused id) ∈ calls →
    ∃ d ∈ s.db.devices, d.id = id ∧ d.status = .active
  exclusive : ∀ id, .sql (.markResumed id) ∈ calls → .sql (.markAutoPaused id) ∉ calls
  changes : ∀ d ∈ s.db.devices, ∀ d' ∈ s'.db.devices, d'.id = d.id →
    d'.status = d.status ∨
      (d.status = .paused ∧ d.autoPaused = true ∧ d'.status = .active) ∨
      (d.status = .active ∧ d'.status = .paused)
  stable : ∀ faults,
    (Attempt.exec (Program.faulty ApiCmd.sem) (Quota.runOnce now) (s', faults)).1.1 = s'

section Rows

/-- Resume the auto-paused devices with the given ids. -/
def resumeIf (ids : List Uuid) (d : Device) : Device :=
  if ids.contains d.id && d.status == .paused && d.autoPaused then
    { d with status := .active, autoPaused := false }
  else d

/-- Pause the active devices with the given ids. -/
def pauseIf (ids : List Uuid) (d : Device) : Device :=
  if ids.contains d.id && d.status == .active then
    { d with status := .paused, autoPaused := true }
  else d

variable {ids : List Uuid} {id : Uuid} {d : Device}

theorem resumeIf_cons (id : Uuid) (ids : List Uuid) (d : Device) :
    resumeIf (id :: ids) d = resumeIf ids ((DbCall.markResumed id).deviceAfter d) := by
  simp only [resumeIf, DbCall.deviceAfter, List.contains_cons, Bool.and_assoc]
  cases hpaused : d.status == .paused && d.autoPaused with
  | false =>
      simp [hpaused]
  | true =>
      by_cases hid : d.id = id
      · simp [hid]
      · simp [hid, hpaused]

theorem pauseIf_cons (id : Uuid) (ids : List Uuid) (d : Device) :
    pauseIf (id :: ids) d = pauseIf ids ((DbCall.markAutoPaused id).deviceAfter d) := by
  simp only [pauseIf, DbCall.deviceAfter, List.contains_cons]
  by_cases hactive : d.status = .active
  · by_cases hid : d.id = id
    · simp [hid, hactive]
    · simp [hid, hactive]
  · simp [hactive]

/-- The columns that the marks leave alone. -/
theorem resumeIf_kept (ids : List Uuid) (d : Device) :
    resumeIf ids d =
      { d with status := (resumeIf ids d).status, autoPaused := (resumeIf ids d).autoPaused } := by
  unfold resumeIf
  split
  · rfl
  · rfl

theorem pauseIf_kept (ids : List Uuid) (d : Device) :
    pauseIf ids d =
      { d with status := (pauseIf ids d).status, autoPaused := (pauseIf ids d).autoPaused } := by
  unfold pauseIf
  split
  · rfl
  · rfl

end Rows

/-- The rows before a run, after the resets, after the resumptions and after the
pauses. -/
structure Phases (now : Int) (db db₁ db₂ db₃ : Db) : Prop where
  users₁ : db₁.users = (DbCall.resetDueUsers now (Db.firstOfNextMonth now)).usersAfter db.users
  devices₁ : db₁.devices =
    (DbCall.resetDueDevices now (Db.firstOfNextMonth now)).devicesAfter db.devices
  users₂ : db₂.users = db₁.users
  devices₂ : db₂.devices =
    db₁.devices.map (resumeIf ((Db.Quota.resumeCandidates db₁).map Device.id))
  users₃ : db₃.users = db₁.users
  devices₃ : db₃.devices =
    db₂.devices.map (pauseIf ((Db.Quota.pauseCandidates db₂).map Device.id))

section Runs

/-- The state of a run: the system, which of the next calls fail, and the calls
made so far. -/
abbrev Observed := (Sys × List Bool) × List ApiCmd

/-- The calls of a run that is written down; any of them may fail. -/
abbrev observed : (c : ApiCmd) → Observed → Observed × c.Reply :=
  Program.recorded (Program.faulty ApiCmd.sem)

variable {β : Type} {Q : Observed → Except ApiError β → Prop} {o : Observed}

/-- The rule for a statement whose failure ends the run. -/
theorem sql_observed {q : DbCall} {k : q.Reply → Handler β}
    (hok : ∀ r db' t, q.run o.1.1.db = .ok (r, db') → t.1.1.db = db' → t.2 = o.2 ++ [.sql q] →
      wp observed (k r) Q t)
    (herror : ∀ t e, Q t (.error e)) : wp observed (sql q >>= k) Q o := by
  obtain ⟨⟨s, faults⟩, calls⟩ := o
  refine wp_bind (wp_lift ?_)
  simp only [observed, Program.recorded, Program.faulty]
  cases faults.headD true with
  | false =>
      exact herror _ _
  | true =>
      cases hrun : q.run s.db with
      | error e =>
          simp only [ApiCmd.sem, hrun]
          exact herror _ _
      | ok out =>
          obtain ⟨r, db'⟩ := out
          simp only [ApiCmd.sem, hrun]
          exact hok r db' _ hrun rfl rfl

/-- The rule for a call that leaves the database alone and whose failure is
ignored. -/
theorem call_observed {c : ApiCmd} {k : c.Reply → Handler β}
    (hdb : ∀ ok s, (c.sem ok s).1.db = s.db)
    (hk : ∀ r t, t.1.1.db = o.1.1.db → wp observed (k r) Q t) :
    wp observed (call c >>= k) Q o := by
  refine wp_bind (wp_lift ?_)
  exact hk _ _ (hdb _ _)

/-- The database after a loop over the candidates. -/
def Marked (f : Device → Device) (db db' : Db) : Prop :=
  db'.users = db.users ∧ db'.devices = db.devices.map f

theorem Marked.of_first {f g h : Device → Device} {db db₁ db₂ : Db} {q : DbCall} {r : q.Reply}
    (hrun : q.run db = .ok (r, db₁)) (husers : q.usersAfter db.users = db.users)
    (hdevices : q.devicesAfter db.devices = db.devices.map g)
    (hfg : ∀ d, h d = f (g d)) (hrest : Marked f db₁ db₂) : Marked h db db₂ := by
  refine ⟨?_, ?_⟩
  · rw [hrest.1, DbCall.run_users hrun, husers]
  · rw [hrest.2, DbCall.run_devices hrun, hdevices, List.map_map]
    apply List.map_congr_left
    intro d _
    exact (hfg d).symm

theorem lookupKeepalive_observed {serverId : Uuid} {k : Nat → Handler β}
    (hk : ∀ v t, t.1.1.db = o.1.1.db → wp observed (k v) Q t) :
    wp observed (Devices.lookupKeepalive serverId >>= k) Q o := by
  have hread : ∀ ok s, ((ApiCmd.sql (.findServer serverId)).sem ok s).1.db = s.db := by
    intro ok s
    cases ok with
    | false =>
        rfl
    | true =>
        rfl
  unfold Devices.lookupKeepalive
  refine wp_bind (wp_bind (wp_lift ?_))
  dsimp only
  split
  · exact hk _ _ (hread _ _)
  · exact hk _ _ (hread _ _)
  · exact hk _ _ (hread _ _)

theorem cachedKeepalive_observed {cache : List (Uuid × Nat)} {serverId : Uuid}
    {k : Nat × List (Uuid × Nat) → Handler β}
    (hk : ∀ v t, t.1.1.db = o.1.1.db → wp observed (k v) Q t) :
    wp observed (Admin.cachedKeepalive cache serverId >>= k) Q o := by
  unfold Admin.cachedKeepalive
  split
  · exact hk _ _ rfl
  · refine wp_bind (lookupKeepalive_observed ?_)
    intro v t ht
    exact hk _ t ht

theorem resumeAll_observed (cs : List Device) (cache : List (Uuid × Nat)) (o : Observed) :
    wp observed (Quota.resumeAll cache cs)
      (fun t r => r = .ok () → Marked (resumeIf (cs.map Device.id)) o.1.1.db t.1.1.db) o := by
  induction cs generalizing cache o with
  | nil =>
      intro _
      exact ⟨rfl, (List.map_id _).symm⟩
  | cons c cs ih =>
      refine sql_observed ?_ (fun _ _ h => by cases h)
      intro n db' t hrun ht _
      -- whichever branch is taken, the rest of the loop starts from `db'`
      have hrest : ∀ (t' : Observed) (r : Except ApiError Unit), t'.1.1.db = db' →
          ∀ t'' : Observed, (r = .ok () →
            Marked (resumeIf (cs.map Device.id)) t'.1.1.db t''.1.1.db) → r = .ok () →
            Marked (resumeIf ((c :: cs).map Device.id)) o.1.1.db t''.1.1.db := by
        intro t' r ht' t'' hmarked hr
        rw [ht'] at hmarked
        exact (hmarked hr).of_first hrun rfl rfl fun d => resumeIf_cons c.id _ d
      split
      · exact Attempt.wp_mono (ih cache t) fun t'' r h => hrest t r ht t'' h
      · refine cachedKeepalive_observed ?_
        intro found t₁ ht₁
        refine call_observed (fun ok s => by cases ok <;> rfl) ?_
        intro _ t₂ ht₂
        refine Attempt.wp_mono (ih found.2 t₂) fun t'' r h => hrest t₂ r ?_ t'' h
        rw [ht₂, ht₁, ht]

theorem pauseAll_observed (cs : List Device) (o : Observed) :
    wp observed (Quota.pauseAll cs)
      (fun t r => r = .ok () → Marked (pauseIf (cs.map Device.id)) o.1.1.db t.1.1.db) o := by
  induction cs generalizing o with
  | nil =>
      intro _
      exact ⟨rfl, (List.map_id _).symm⟩
  | cons c cs ih =>
      refine sql_observed ?_ (fun _ _ h => by cases h)
      intro n db' t hrun ht _
      have hrest : ∀ (t' : Observed) (r : Except ApiError Unit), t'.1.1.db = db' →
          ∀ t'' : Observed, (r = .ok () →
            Marked (pauseIf (cs.map Device.id)) t'.1.1.db t''.1.1.db) → r = .ok () →
            Marked (pauseIf ((c :: cs).map Device.id)) o.1.1.db t''.1.1.db := by
        intro t' r ht' t'' hmarked hr
        rw [ht'] at hmarked
        exact (hmarked hr).of_first hrun rfl rfl fun d => pauseIf_cons c.id _ d
      split
      · exact Attempt.wp_mono (ih t) fun t'' r h => hrest t r ht t'' h
      · refine call_observed (fun ok s => by cases ok <;> rfl) ?_
        intro _ t₁ ht₁
        refine Attempt.wp_mono (ih t₁) fun t'' r h => hrest t₁ r ?_ t'' h
        rw [ht₁, ht]

end Runs

section Calls

/-- The calls of a run that resumes and pauses the given devices at most. -/
def MarkCall (resumed paused : List Uuid) : ApiCmd → Prop
  | .sql (.markResumed id) => id ∈ resumed
  | .sql (.markAutoPaused id) => id ∈ paused
  | _ => True

theorem resumeAll_calls (cs : List Device) (cache : List (Uuid × Nat)) {ids ids' : List Uuid}
    (hcs : ∀ c ∈ cs, c.id ∈ ids) : Issues (MarkCall ids ids') (Quota.resumeAll cache cs) := by
  induction cs generalizing cache with
  | nil =>
      exact issues_pure ()
  | cons c cs ih =>
      have hrest := fun cache' => ih cache' fun c' hc' => hcs c' (List.mem_cons_of_mem _ hc')
      have hkeepalive : Issues (MarkCall ids ids') (Admin.cachedKeepalive cache c.serverId) := by
        unfold Admin.cachedKeepalive
        split
        · exact issues_pure _
        · refine issues_bind (issues_bind (issues_call trivial) fun found => ?_) fun v =>
            issues_pure _
          split
          · exact issues_pure _
          · exact issues_pure _
          · exact issues_pure _
      refine issues_bind (issues_sql (hcs c (by simp))) fun n => ?_
      split
      · exact hrest cache
      · refine issues_bind hkeepalive fun found => ?_
        exact issues_bind (issues_call trivial) fun _ => hrest found.2

theorem pauseAll_calls (cs : List Device) {ids ids' : List Uuid}
    (hcs : ∀ c ∈ cs, c.id ∈ ids') : Issues (MarkCall ids ids') (Quota.pauseAll cs) := by
  induction cs with
  | nil =>
      exact issues_pure ()
  | cons c cs ih =>
      have hrest := ih fun c' hc' => hcs c' (List.mem_cons_of_mem _ hc')
      refine issues_bind (issues_sql (hcs c (by simp))) fun n => ?_
      split
      · exact hrest
      · exact issues_bind (issues_call trivial) fun _ => hrest

/-- A run that returns `Ok` went through the three phases and marked no other
device than the candidates. -/
theorem runOnce_phases (now : Int) (o : Observed) (ho : o.2 = []) :
    wp observed (Quota.runOnce now)
      (fun t r => r = .ok () →
        ∃ db₁ db₂, Phases now o.1.1.db db₁ db₂ t.1.1.db ∧
          ∀ c ∈ t.2, MarkCall ((Db.Quota.resumeCandidates db₁).map Device.id)
            ((Db.Quota.pauseCandidates db₂).map Device.id) c) o := by
  refine sql_observed ?_ (fun _ _ h => by cases h)
  intro _ dbU t₁ hrunU ht₁ hcalls₁
  refine sql_observed ?_ (fun _ _ h => by cases h)
  intro _ db₁ t₂ hrun₁ ht₂ hcalls₂
  rw [ht₁] at hrun₁
  refine sql_observed ?_ (fun _ _ h => by cases h)
  intro resumable dbR t₃ hread ht₃ hcalls₃
  cases hread
  rw [ht₂] at ht₃ ⊢
  rw [hcalls₂, hcalls₁, ho] at hcalls₃
  have hmarks₃ : ∀ ids ids', ∀ c ∈ t₃.2, MarkCall ids ids' c := by
    intro ids ids' c hc
    rw [hcalls₃] at hc
    simp only [List.nil_append, List.cons_append, List.mem_cons, List.not_mem_nil, or_false] at hc
    rcases hc with rfl | rfl | rfl
    · trivial
    · trivial
    · trivial
  have hresumes : ∀ ids', wp observed (Quota.resumeAll [] (Db.Quota.resumeCandidates db₁))
      (fun t _ => ∀ c ∈ t.2,
        MarkCall ((Db.Quota.resumeCandidates db₁).map Device.id) ids' c) t₃ := by
    intro ids'
    exact wp_recorded (resumeAll_calls _ _ fun c hc => List.mem_map_of_mem hc) (hmarks₃ _ _)
  refine wp_bind_of (wp_and (resumeAll_observed _ _ t₃) (wp_forall hresumes)) ?_
    (fun _ _ _ h => by cases h)
  rintro t₄ _ ⟨hresumed, hmarks₄⟩
  have hresumed := hresumed rfl
  rw [ht₃] at hresumed
  refine sql_observed ?_ (fun _ _ h => by cases h)
  intro exceeded dbP t₅ hread' ht₅ hcalls₅
  cases hread'
  have hmarks₅ : ∀ c ∈ t₅.2, MarkCall ((Db.Quota.resumeCandidates db₁).map Device.id)
      ((Db.Quota.pauseCandidates t₄.1.1.db).map Device.id) c := by
    intro c hc
    rw [hcalls₅] at hc
    rcases List.mem_append.mp hc with hold | hnew
    · exact hmarks₄ _ c hold
    · rw [List.mem_singleton.mp hnew]
      trivial
  have hpauses : wp observed (Quota.pauseAll (Db.Quota.pauseCandidates t₄.1.1.db))
      (fun t _ => ∀ c ∈ t.2, MarkCall ((Db.Quota.resumeCandidates db₁).map Device.id)
        ((Db.Quota.pauseCandidates t₄.1.1.db).map Device.id) c) t₅ :=
    wp_recorded (pauseAll_calls _ fun c hc => List.mem_map_of_mem hc) hmarks₅
  refine Attempt.wp_mono (wp_and (pauseAll_observed _ t₅) hpauses) ?_
  rintro t₆ r ⟨hpaused, hmarks₆⟩ hr
  have hpaused := hpaused hr
  rw [ht₅] at hpaused
  refine ⟨db₁, t₄.1.1.db, ⟨?_, ?_, hresumed.1, hresumed.2, ?_, hpaused.2⟩, hmarks₆⟩
  · rw [DbCall.run_users hrun₁, DbCall.run_users hrunU]
    rfl
  · rw [DbCall.run_devices hrun₁, DbCall.run_devices hrunU]
    rfl
  · rw [hpaused.1, hresumed.1]

end Calls

section Candidates

variable {db : Db} {d : Device}

theorem mem_resumeCandidates :
    d ∈ Db.Quota.resumeCandidates db ↔
      d ∈ db.devices ∧ d.autoPaused = true ∧ d.status = .paused ∧
        UnderCap d.monthlyByteCap d.currentMonthBytes ∧
        ∃ u ∈ db.users, MayUse u d ∧ UnderCap u.monthlyByteCap u.currentMonthBytes := by
  simp only [Db.Quota.resumeCandidates, Db.Quota.activeOwner, List.mem_filter, Bool.and_eq_true,
    Bool.not_eq_true', beq_iff_eq, List.any_eq_true, Option.isNone_iff_eq_none, MayUse,
    overCap_eq_false, and_assoc]

theorem mem_pauseCandidates :
    d ∈ Db.Quota.pauseCandidates db ↔
      d ∈ db.devices ∧ d.status = .active ∧
        ∃ u ∈ db.users, MayUse u d ∧
          ¬(UnderCap d.monthlyByteCap d.currentMonthBytes ∧
            UnderCap u.monthlyByteCap u.currentMonthBytes) := by
  simp only [Db.Quota.pauseCandidates, Db.Quota.activeOwner, List.mem_filter, Bool.and_eq_true,
    Bool.or_eq_true, beq_iff_eq, List.any_eq_true, Option.isNone_iff_eq_none, MayUse,
    ← overCap_eq_false, and_assoc, not_and_or, Bool.not_eq_false]

/-- A device has one owner. -/
theorem MayUse.unique {u u' : User} (hu : u ∈ db.users) (hu' : u' ∈ db.users)
    (h : MayUse u d) (h' : MayUse u' d) : u = u' :=
  db.userId_unique hu hu' (h.1.trans h'.1.symm)

/-- What the resumptions do to a row. -/
theorem resumeIf_candidates (hd : d ∈ db.devices) :
    (d ∈ Db.Quota.resumeCandidates db ∧
        resumeIf ((Db.Quota.resumeCandidates db).map Device.id) d =
          { d with status := .active, autoPaused := false }) ∨
      (d ∉ Db.Quota.resumeCandidates db ∧
        resumeIf ((Db.Quota.resumeCandidates db).map Device.id) d = d) := by
  by_cases hc : d ∈ Db.Quota.resumeCandidates db
  · obtain ⟨_, hflag, hpaused, _⟩ := mem_resumeCandidates.mp hc
    have hid : d.id ∈ (Db.Quota.resumeCandidates db).map Device.id := List.mem_map_of_mem hc
    refine Or.inl ⟨hc, ?_⟩
    simp [resumeIf, hid, hflag, hpaused]
  · have hid : d.id ∉ (Db.Quota.resumeCandidates db).map Device.id := by
      intro hmem
      obtain ⟨d', hd', hsame⟩ := List.mem_map.mp hmem
      rw [db.deviceId_unique (mem_resumeCandidates.mp hd').1 hd hsame] at hd'
      exact hc hd'
    refine Or.inr ⟨hc, ?_⟩
    simp [resumeIf, hid]

/-- What the pauses do to a row. -/
theorem pauseIf_candidates (hd : d ∈ db.devices) :
    (d ∈ Db.Quota.pauseCandidates db ∧
        pauseIf ((Db.Quota.pauseCandidates db).map Device.id) d =
          { d with status := .paused, autoPaused := true }) ∨
      (d ∉ Db.Quota.pauseCandidates db ∧
        pauseIf ((Db.Quota.pauseCandidates db).map Device.id) d = d) := by
  by_cases hc : d ∈ Db.Quota.pauseCandidates db
  · obtain ⟨_, hactive, _⟩ := mem_pauseCandidates.mp hc
    have hid : d.id ∈ (Db.Quota.pauseCandidates db).map Device.id := List.mem_map_of_mem hc
    refine Or.inl ⟨hc, ?_⟩
    simp [pauseIf, hid, hactive]
  · have hid : d.id ∉ (Db.Quota.pauseCandidates db).map Device.id := by
      intro hmem
      obtain ⟨d', hd', hsame⟩ := List.mem_map.mp hmem
      rw [db.deviceId_unique (mem_pauseCandidates.mp hd').1 hd hsame] at hd'
      exact hc hd'
    refine Or.inr ⟨hc, ?_⟩
    simp [pauseIf, hid]

/-- A device that is resumed is not over a cap. -/
theorem resumed_not_exceeded {db₂ : Db} (husers : db₂.users = db.users)
    (hd : d ∈ Db.Quota.resumeCandidates db) :
    ({ d with status := .active, autoPaused := false } : Device) ∉
      Db.Quota.pauseCandidates db₂ := by
  intro hpause
  obtain ⟨_, _, _, hunder, u, hu, howner, hunder'⟩ := mem_resumeCandidates.mp hd
  obtain ⟨_, _, u', hu', howner', hover⟩ := mem_pauseCandidates.mp hpause
  rw [husers] at hu'
  have hsame : u' = u := MayUse.unique hu' hu (d := d) howner' howner
  rw [hsame] at hover
  exact hover ⟨hunder, hunder'⟩

end Candidates

section Phases

variable {now : Int} {db db₁ db₂ db₃ : Db}

/-- The rows of a device in the four states. -/
theorem Phases.row (h : Phases now db db₁ db₂ db₃) {d₃ : Device} (hd₃ : d₃ ∈ db₃.devices) :
    ∃ d ∈ db.devices, ∃ d₁ ∈ db₁.devices, ∃ d₂ ∈ db₂.devices,
      (d₁.id = d.id ∧ d₁.status = d.status ∧ d₁.autoPaused = d.autoPaused) ∧
        d₂ = resumeIf ((Db.Quota.resumeCandidates db₁).map Device.id) d₁ ∧
        d₃ = pauseIf ((Db.Quota.pauseCandidates db₂).map Device.id) d₂ := by
  rw [h.devices₃] at hd₃
  obtain ⟨d₂, hd₂, rfl⟩ := List.mem_map.mp hd₃
  have hd₂' := hd₂
  rw [h.devices₂] at hd₂'
  obtain ⟨d₁, hd₁, rfl⟩ := List.mem_map.mp hd₂'
  have hd₁' := hd₁
  rw [h.devices₁] at hd₁'
  obtain ⟨d, hd, rfl⟩ := mem_updateWhere.mp hd₁'
  refine ⟨d, hd, _, hd₁, _, hd₂, ?_, rfl, rfl⟩
  split
  · exact ⟨rfl, rfl, rfl⟩
  · exact ⟨rfl, rfl, rfl⟩

theorem Phases.enforced (h : Phases now db db₁ db₂ db₃) {d₃ : Device} (hd₃ : d₃ ∈ db₃.devices)
    (hactive : d₃.status = .active) {u : User} (hu : u ∈ db₃.users) (howner : MayUse u d₃) :
    UnderCap d₃.monthlyByteCap d₃.currentMonthBytes ∧
      UnderCap u.monthlyByteCap u.currentMonthBytes := by
  obtain ⟨d, _, d₁, _, d₂, hd₂, _, _, rfl⟩ := h.row hd₃
  rcases pauseIf_candidates hd₂ with ⟨_, hrow⟩ | ⟨hnot, hrow⟩
  · rw [hrow] at hactive
    cases hactive
  · rw [hrow] at hactive howner ⊢
    by_contra hover
    rw [h.users₃, ← h.users₂] at hu
    exact hnot (mem_pauseCandidates.mpr ⟨hd₂, hactive, u, hu, howner, hover⟩)

theorem Phases.restored (h : Phases now db db₁ db₂ db₃) {d₃ : Device} (hd₃ : d₃ ∈ db₃.devices)
    (hflag : d₃.autoPaused = true) {u : User} (hu : u ∈ db₃.users) (howner : MayUse u d₃)
    (hunder : UnderCap d₃.monthlyByteCap d₃.currentMonthBytes)
    (hunder' : UnderCap u.monthlyByteCap u.currentMonthBytes) : d₃.status ≠ .paused := by
  intro hpaused
  obtain ⟨d, _, d₁, hd₁, d₂, hd₂, _, hd₂_eq, rfl⟩ := h.row hd₃
  rcases pauseIf_candidates hd₂ with ⟨hpause, hrow⟩ | ⟨_, hrow⟩
  · obtain ⟨_, _, u', hu', howner', hover⟩ := mem_pauseCandidates.mp hpause
    rw [hrow] at howner hunder
    rw [h.users₃, ← h.users₂] at hu
    rw [MayUse.unique hu' hu howner' howner] at hover
    exact hover ⟨hunder, hunder'⟩
  · rw [hrow] at hflag howner hunder hpaused
    rcases resumeIf_candidates hd₁ with ⟨_, hrow₁⟩ | ⟨hnot, hrow₁⟩
    · rw [hd₂_eq, hrow₁] at hpaused
      cases hpaused
    · rw [hd₂_eq, hrow₁] at hflag howner hunder hpaused
      rw [h.users₃] at hu
      exact hnot (mem_resumeCandidates.mpr
        ⟨hd₁, hflag, hpaused, hunder, u, hu, howner, hunder'⟩)

/-- The devices that the run resumes. -/
theorem Phases.resumes (h : Phases now db db₁ db₂ db₃) {id : Uuid}
    (hid : id ∈ (Db.Quota.resumeCandidates db₁).map Device.id) :
    ∃ d ∈ db.devices, d.id = id ∧ d.status = .paused ∧ d.autoPaused = true := by
  obtain ⟨d₁, hd₁, rfl⟩ := List.mem_map.mp hid
  obtain ⟨hmem, hflag, hpaused, _⟩ := mem_resumeCandidates.mp hd₁
  rw [h.devices₁] at hmem
  obtain ⟨d, hd, rfl⟩ := mem_updateWhere.mp hmem
  refine ⟨d, hd, ?_⟩
  split at hflag
  · rename_i hdue
    rw [if_pos hdue] at hpaused ⊢
    exact ⟨rfl, hpaused, hflag⟩
  · rename_i hdue
    rw [if_neg hdue] at hpaused ⊢
    exact ⟨rfl, hpaused, hflag⟩

/-- The devices that the run pauses. -/
theorem Phases.pauses (h : Phases now db db₁ db₂ db₃) {id : Uuid}
    (hid : id ∈ (Db.Quota.pauseCandidates db₂).map Device.id) :
    id ∉ (Db.Quota.resumeCandidates db₁).map Device.id ∧
      ∃ d ∈ db.devices, d.id = id ∧ d.status = .active := by
  obtain ⟨d₂, hd₂, rfl⟩ := List.mem_map.mp hid
  obtain ⟨hmem, hactive, _⟩ := mem_pauseCandidates.mp hd₂
  have hmem' := hmem
  rw [h.devices₂] at hmem'
  obtain ⟨d₁, hd₁, rfl⟩ := List.mem_map.mp hmem'
  rcases resumeIf_candidates hd₁ with ⟨hresume, hrow⟩ | ⟨hnot, hrow⟩
  · rw [hrow] at hd₂
    exact absurd hd₂ (resumed_not_exceeded h.users₂ hresume)
  · rw [hrow] at hactive ⊢
    constructor
    · intro hresumed
      obtain ⟨d', hd', hsame⟩ := List.mem_map.mp hresumed
      rw [db₁.deviceId_unique (mem_resumeCandidates.mp hd').1 hd₁ hsame] at hd'
      exact hnot hd'
    · rw [h.devices₁] at hd₁
      obtain ⟨d, hd, rfl⟩ := mem_updateWhere.mp hd₁
      refine ⟨d, hd, ?_⟩
      split at hactive
      · rename_i hdue
        rw [if_pos hdue]
        exact ⟨rfl, hactive⟩
      · rename_i hdue
        rw [if_neg hdue]
        exact ⟨rfl, hactive⟩

theorem Phases.changes (h : Phases now db db₁ db₂ db₃) {d d₃ : Device} (hd : d ∈ db.devices)
    (hd₃ : d₃ ∈ db₃.devices) (hid : d₃.id = d.id) :
    d₃.status = d.status ∨ (d.status = .paused ∧ d.autoPaused = true ∧ d₃.status = .active) ∨
      (d.status = .active ∧ d₃.status = .paused) := by
  obtain ⟨d', hd', d₁, hd₁, d₂, hd₂, ⟨hid₁, hstatus₁, hflag₁⟩, hd₂_eq, hd₃_eq⟩ := h.row hd₃
  have hid₃ : d₃.id = d'.id := by
    rw [hd₃_eq, pauseIf_kept, hd₂_eq, resumeIf_kept]
    exact hid₁
  have hsame : d' = d := db.deviceId_unique hd' hd (hid₃.symm.trans hid)
  rw [hsame] at hstatus₁ hflag₁
  rcases resumeIf_candidates hd₁ with ⟨hresume, hrow₁⟩ | ⟨_, hrow₁⟩
  · obtain ⟨_, hflag, hpaused, _⟩ := mem_resumeCandidates.mp hresume
    rcases pauseIf_candidates hd₂ with ⟨hpause, _⟩ | ⟨_, hrow₂⟩
    · rw [hd₂_eq, hrow₁] at hpause
      exact absurd hpause (resumed_not_exceeded h.users₂ hresume)
    · rw [hd₃_eq, hrow₂, hd₂_eq, hrow₁]
      exact Or.inr (Or.inl ⟨hstatus₁.symm.trans hpaused, hflag₁.symm.trans hflag, rfl⟩)
  · rw [hrow₁] at hd₂_eq
    rw [hd₂_eq] at hd₂ hd₃_eq
    rcases pauseIf_candidates hd₂ with ⟨hpause, hrow₂⟩ | ⟨_, hrow₂⟩
    · obtain ⟨_, hactive, _⟩ := mem_pauseCandidates.mp hpause
      rw [hd₃_eq, hrow₂]
      exact Or.inr (Or.inr ⟨hstatus₁.symm.trans hactive, rfl⟩)
    · rw [hd₃_eq, hrow₂]
      exact Or.inl hstatus₁

end Phases

section Success

/-- A run in which no call fails. -/
theorem exec_observed_nil (p : Handler Unit) (s : Sys) :
    (Attempt.exec observed p ((s, []), [])).1.1.1 = (Attempt.exec perform p s).1 ∧
      (Attempt.exec observed p ((s, []), [])).2 = (Attempt.exec perform p s).2 := by
  obtain ⟨hstate, hresult⟩ := Program.run_recorded (Program.faulty ApiCmd.sem) p.run (s, []) []
  have hfaulty := Program.run_faulty_nil ApiCmd.sem p.run s
  rw [hfaulty] at hstate hresult
  exact ⟨congrArg Prod.fst hstate, hresult⟩

theorem resumeAll_succeeds (cs : List Device) (cache : List (Uuid × Nat)) (s : Sys) :
    wp perform (Quota.resumeAll cache cs) (fun _ r => r = .ok ()) s := by
  induction cs generalizing cache s with
  | nil =>
      rfl
  | cons c cs ih =>
      have hlive : ∀ d ∈ s.db.devices,
          (d.id == c.id && d.status == .paused && d.autoPaused) = true →
            ({ d with status := .active, autoPaused := false } : Device).live = d.live := by
        intro d _ hp
        simp only [Bool.and_eq_true, beq_iff_eq] at hp
        unfold Db.Device.live
        rw [hp.1.2]
        rfl
      obtain ⟨db', hrun⟩ := Db.updateDevices_of_kept
        (p := fun d => d.id == c.id && d.status == .paused && d.autoPaused)
        (f := fun d => { d with status := .active, autoPaused := false }) s.db (fun _ => rfl)
        hlive (fun d hd _ => (s.db.valid.devices_range d hd).1)
      refine accepted_then (q := .markResumed c.id) hrun ?_
      split
      · exact ih _ _
      · apply cachedKeepalive_then
        intro found
        apply call_then
        exact ih _ _

theorem pauseAll_succeeds (cs : List Device) (s : Sys) :
    wp perform (Quota.pauseAll cs) (fun _ r => r = .ok ()) s := by
  induction cs generalizing s with
  | nil =>
      rfl
  | cons c cs ih =>
      have hlive : ∀ d ∈ s.db.devices, (d.id == c.id && d.status == .active) = true →
          ({ d with status := .paused, autoPaused := true } : Device).live = d.live := by
        intro d _ hp
        simp only [Bool.and_eq_true, beq_iff_eq] at hp
        unfold Db.Device.live
        rw [hp.2]
        rfl
      obtain ⟨db', hrun⟩ := Db.updateDevices_of_kept
        (p := fun d => d.id == c.id && d.status == .active)
        (f := fun d => { d with status := .paused, autoPaused := true }) s.db (fun _ => rfl)
        hlive (fun d hd _ => (s.db.valid.devices_range d hd).1)
      refine accepted_then (q := .markAutoPaused c.id) hrun ?_
      split
      · exact ih _
      · apply call_then
        exact ih _

/-- The database accepts every statement of the sweep. -/
theorem runOnce_succeeds (now : Int) (s : Sys) :
    wp perform (Quota.runOnce now) (fun _ r => r = .ok ()) s := by
  have hzero : Db.inI64 0 := by decide
  obtain ⟨db₁, hrun₁⟩ := Db.updateUsers_of_counters
    (p := fun u => Db.Quota.due now u.quotaResetsAt && u.deletedAt.isNone)
    (f := fun u => { u with
      currentMonthBytes := 0
      quotaResetsAt := some (Db.toTimestamp (Db.firstOfNextMonth now)) })
    s.db (fun _ => rfl) (fun _ _ _ => hzero)
  refine accepted_then (q := .resetDueUsers now (Db.firstOfNextMonth now)) hrun₁ ?_
  obtain ⟨db₂, hrun₂⟩ := Db.updateDevices_of_kept
    (p := fun d => Db.Quota.due now d.quotaResetsAt)
    (f := fun d => { d with
      currentMonthBytes := 0
      quotaResetsAt := some (Db.toTimestamp (Db.firstOfNextMonth now)) })
    db₁ (fun _ => rfl) (fun _ _ _ => rfl) (fun _ _ _ => hzero)
  refine accepted_then (q := .resetDueDevices now (Db.firstOfNextMonth now)) hrun₂ ?_
  refine read_then rfl rfl ?_
  refine wp_bind_of (resumeAll_succeeds _ _ _) ?_ (fun _ _ h => by cases h)
  intro t _ _
  refine read_then rfl rfl ?_
  exact pauseAll_succeeds _ _

end Success

section Again

variable {now : Int} {s : Sys}

/-- A window that the sweep has just opened is not over. -/
theorem not_due_next (now : Int) :
    Db.Quota.due now (some (Db.toTimestamp (Db.firstOfNextMonth now))) = false := by
  have hle := Db.toTimestamp_mono (Db.lt_firstOfNextMonth now).le
  simp only [Db.Quota.due, decide_eq_false_iff_not]
  omega

/-- Nothing is left to do at an instant. -/
structure NothingDue (now : Int) (db : Db) : Prop where
  users : ∀ u ∈ db.users, (Db.Quota.due now u.quotaResetsAt && u.deletedAt.isNone) = false
  devices : ∀ d ∈ db.devices, Db.Quota.due now d.quotaResetsAt = false
  resumable : Db.Quota.resumeCandidates db = []
  exceeded : Db.Quota.pauseCandidates db = []

theorem updateUsers_of_none {p : User → Bool} {f : User → User} {db : Db}
    (h : ∀ u ∈ db.users, p u = false) :
    Db.updateUsers p f db = .ok (rowsAffected p db.users, db) := by
  have hsame : updateWhere p f db.users = db.users := updateWhere_self fun u hu hp => by
    rw [h u hu] at hp
    cases hp
  unfold Db.updateUsers
  rw [hsame, Db.write_of_valid db.valid]
  rfl

theorem updateDevices_of_none {p : Device → Bool} {f : Device → Device} {db : Db}
    (h : ∀ d ∈ db.devices, p d = false) :
    Db.updateDevices p f db = .ok (rowsAffected p db.devices, db) := by
  have hsame : updateWhere p f db.devices = db.devices := updateWhere_self fun d hd hp => by
    rw [h d hd] at hp
    cases hp
  unfold Db.updateDevices
  rw [hsame, Db.write_of_valid db.valid]
  rfl

/-- A statement that leaves the database as it is, in a run whose calls may
fail. -/
theorem sql_unchanged {β : Type} {Q : Sys × List Bool → Except ApiError β → Prop} {q : DbCall}
    {k : q.Reply → Handler β} {r : q.Reply} (hrun : q.run s.db = .ok (r, s.db))
    (hflight : s.inFlightAfter q = s.inFlight) {faults : List Bool}
    (hok : ∀ rest, wp (Program.faulty ApiCmd.sem) (k r) Q (s, rest))
    (herror : ∀ rest e, Q (s, rest) (.error e)) :
    wp (Program.faulty ApiCmd.sem) (sql q >>= k) Q (s, faults) := by
  refine wp_bind (wp_lift ?_)
  simp only [Program.faulty]
  cases faults.headD true with
  | false =>
      exact herror _ _
  | true =>
      simp only [ApiCmd.sem, hrun, hflight]
      exact hok _

/-- A run that finds nothing to do changes nothing, whichever of its calls fail. -/
theorem runOnce_unchanged (h : NothingDue now s.db) (faults : List Bool) :
    wp (Program.faulty ApiCmd.sem) (Quota.runOnce now) (fun t _ => t.1 = s) (s, faults) := by
  refine sql_unchanged (q := .resetDueUsers now _) (updateUsers_of_none h.users) rfl ?_
    fun _ _ => rfl
  intro faults₁
  refine sql_unchanged (q := .resetDueDevices now _) (updateDevices_of_none h.devices) rfl ?_
    fun _ _ => rfl
  intro faults₂
  refine sql_unchanged (q := .resumeCandidates) rfl rfl ?_ fun _ _ => rfl
  intro faults₃
  rw [h.resumable]
  refine sql_unchanged (q := .pauseCandidates) rfl rfl ?_ fun _ _ => rfl
  intro faults₄
  rw [h.exceeded]
  rfl

/-- After a run nothing is left to do. -/
theorem Phases.nothingDue {db db₁ db₂ db₃ : Db} (h : Phases now db db₁ db₂ db₃) :
    NothingDue now db₃ := by
  refine ⟨?_, ?_, ?_, ?_⟩
  · intro u hu
    rw [h.users₃, h.users₁] at hu
    obtain ⟨u₀, _, rfl⟩ := mem_updateWhere.mp hu
    split
    · rw [not_due_next, Bool.false_and]
    · rename_i hnot
      exact Bool.not_eq_true _ ▸ hnot
  · intro d₃ hd₃
    obtain ⟨_, _, d₁, hd₁, d₂, _, _, hd₂_eq, hd₃_eq⟩ := h.row hd₃
    have hwindow : d₃.quotaResetsAt = d₁.quotaResetsAt := by
      rw [hd₃_eq, pauseIf_kept, hd₂_eq, resumeIf_kept]
    rw [hwindow]
    rw [h.devices₁] at hd₁
    obtain ⟨d₀, _, rfl⟩ := mem_updateWhere.mp hd₁
    split
    · exact not_due_next now
    · rename_i hnot
      exact Bool.not_eq_true _ ▸ hnot
  · refine List.eq_nil_iff_forall_not_mem.mpr ?_
    intro d hd
    obtain ⟨hmem, hflag, hpaused, hunder, u, hu, howner, hunder'⟩ := mem_resumeCandidates.mp hd
    exact h.restored hmem hflag hu howner hunder hunder' hpaused
  · refine List.eq_nil_iff_forall_not_mem.mpr ?_
    intro d hd
    obtain ⟨hmem, hactive, u, hu, howner, hover⟩ := mem_pauseCandidates.mp hd
    exact hover (h.enforced hmem hactive hu howner)

end Again

section Main

/--
From every state and at every instant `run_once` returns `Ok` if no call fails,
and a run that returns `Ok`, whichever commands of the interface fail in it, is
correct.
-/
theorem quota_sweep_correct (s : Sys) (now : Int) :
    (Attempt.exec observed (Quota.runOnce now) ((s, []), [])).2 = .ok () ∧
      ∀ faults, (Attempt.exec observed (Quota.runOnce now) ((s, faults), [])).2 = .ok () →
        SweepCorrect now s
          (Attempt.exec observed (Quota.runOnce now) ((s, faults), [])).1.1.1
          (Attempt.exec observed (Quota.runOnce now) ((s, faults), [])).1.2 := by
  constructor
  · rw [(exec_observed_nil _ s).2]
    exact runOnce_succeeds now s
  · intro faults hok
    obtain ⟨db₁, db₂, hphases, hcalls⟩ := runOnce_phases now ((s, faults), []) rfl hok
    exact
      { enforced := fun d hd hactive u hu howner => hphases.enforced hd hactive hu howner
        restored := fun d hd hflag u hu howner hunder hunder' =>
          hphases.restored hd hflag hu howner hunder hunder'
        resumes := fun id hid => hphases.resumes (hcalls _ hid)
        pauses := fun id hid => (hphases.pauses (hcalls _ hid)).2
        exclusive := fun id hresumed hpaused =>
          (hphases.pauses (hcalls _ hpaused)).1 (hcalls _ hresumed)
        changes := fun d hd d' hd' hid => hphases.changes hd hd' hid
        stable := fun faults' => runOnce_unchanged hphases.nothingDue faults' }

end Main

end Api
end ZeroVpn
