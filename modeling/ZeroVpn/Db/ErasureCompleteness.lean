import ZeroVpn.Db.Erasure

/-!
# When an erasure is complete

`Consistent` holds in every state of a run: the foreign keys have their rows,
the keys and the emails of users are unique, and a device stays with its user
for as long as the user is there.  So the rows that `hard_delete` leaves are the
rows that are not the user's own (`mem_eraseRows`), no foreign key of them leads
to the user or to a device of the user, and what is left to mention them is the
target of a record of the audit and the texts.
-/

namespace ZeroVpn
namespace Db
namespace Erasure

open Library

/-- The columns of a table that a writer may fill. -/
def fills (t : Table) (c : Column) : Bool :=
  (foreignKey t c).isSome || (t == .auditLogs && c == .targetId) ||
    (t == .bandwidthSamples && c == .deviceId)

structure Shaped (r : Row) : Prop where
  email : r.content.email.isSome = true → r.table = .users ∨ r.table = .failedLogins
  columns : ∀ ref ∈ r.refs, fills r.table ref.1 = true

theorem Shaped.free {r : Row} (h : Shaped r) {ref : Column × Uuid} (href : ref ∈ r.refs)
    (hfree : foreignKey r.table ref.1 = none) :
    (r.table = .auditLogs ∧ ref.1 = .targetId) ∨
      (r.table = .bandwidthSamples ∧ ref.1 = .deviceId) := by
  simpa [fills, hfree] using h.columns ref href

theorem fills_nullable {t : Table} {c : Column} {o : Option Uuid} (h : fills t c = true) :
    ∀ ref ∈ nullable c o, fills t ref.1 = true := by
  intro ref href
  cases o with
  | none =>
      cases href
  | some k =>
      rw [List.mem_singleton.mp href]
      exact h

theorem fills_row (key : Uuid) (w : Write) :
    ∀ ref ∈ (w.row key).refs, fills (w.row key).table ref.1 = true := by
  cases w with
  | createUser _ | recordFailedLogin _ _ | saveSession _ | createServer _ | initSettings _
  | initReconcile _ =>
      intro ref href
      cases href
  | createDevice _ _ | insertSample _ | savePreferences _ | recordEndpoint _
  | recordSessionEvent _ _ | savePosition _ _ | insertCandle1m _ | insertCandle1d _
  | recordSession _ _ | insertCheckpoint _ =>
      exact List.forall_mem_singleton.mpr rfl
  | aggregate _ _ | openConnection _ _ | grantDevice _ _ =>
      exact List.forall_mem_cons.mpr ⟨rfl, List.forall_mem_singleton.mpr rfl⟩
  | recordAudit actor target _ =>
      exact List.forall_mem_append.mpr ⟨fills_nullable rfl, fills_nullable rfl⟩
  | insertDestination deviceId userId =>
      exact List.forall_mem_append.mpr ⟨fills_nullable rfl, fills_nullable rfl⟩
  | logAccess userId _ =>
      exact fills_nullable rfl
  | createRule createdBy _ =>
      exact fills_nullable rfl
  | issueInvitation userId invitedBy =>
      exact List.forall_mem_cons.mpr ⟨rfl, fills_nullable rfl⟩

theorem shaped_row (key : Uuid) (w : Write) : Shaped (w.row key) where
  email := by
    cases w <;> simp [Write.row, plainRow]
  columns := fills_row key w

/-- The owner of a device of the history. -/
structure Owned (db : Database) (h : Row) (userId : Uuid) : Prop where
  refs : h.refs = [(.userId, userId)]
  known : ∃ h' ∈ db.history, h'.table = .users ∧ h'.key = userId
  kept : (∃ r ∈ db.rows, isUser userId r = true) →
    ∃ r ∈ db.rows, r.table = .devices ∧ r.key = h.key

structure Consistent (db : Database) : Prop where
  integral : Integral schema db.rows
  rowKeys : (db.rows.map KeyedRow.key).Nodup
  drawn : (db.history.map KeyedRow.key).Nodup
  known : ∀ r ∈ db.rows, ∃ h ∈ db.history, h.table = r.table ∧ h.key = r.key ∧
    (r.table = .devices → h.refs = r.refs)
  shaped : ∀ r ∈ db.rows, Shaped r
  devices : ∀ h ∈ db.history, h.table = .devices → ∃ userId, Owned db h userId
  samples : ∀ r ∈ db.rows, r.table = .bandwidthSamples → ∀ ref ∈ r.refs,
    ∃ h ∈ db.history, h.table = .devices ∧ h.key = ref.2
  emails : ∀ r ∈ db.rows, ∀ r' ∈ db.rows, r.table = .users → r'.table = .users →
    r.content.email = r'.content.email → r.key = r'.key

theorem consistent_empty : Consistent emptyDatabase := by
  constructor <;> simp [emptyDatabase, Integral]

section Events

variable {db : Database}

/-- A row is determined by its key. -/
theorem Consistent.row_eq (h : Consistent db) {r r' : Row} (hr : r ∈ db.rows) (hr' : r' ∈ db.rows)
    (hkey : r.key = r'.key) : r = r' :=
  row_unique h.rowKeys hr hr' hkey

/-- No column of a device is set to null. -/
theorem nullify_device {rows : List Row} {dead : Row → Bool} {r : Row} (hr : r.table = .devices) :
    (nullify schema rows dead r).refs = r.refs := by
  unfold nullify
  rw [List.filter_eq_self]
  intro ref _
  rw [Bool.not_eq_true', ← Bool.not_eq_true, refersTo_iff]
  rintro ⟨r', -, -, hkey, -⟩
  rw [hr] at hkey
  cases hc : ref.1 <;> simp [schema, foreignKey, hc] at hkey

theorem Shaped.nullify {rows : List Row} {dead : Row → Bool} {r : Row} (h : Shaped r) :
    Shaped (Library.nullify schema rows dead r) where
  email := h.email
  columns := by
    intro ref href
    exact h.columns ref (mem_nullify_refs.mp href).1

/-- A device goes only with its user. -/
theorem Consistent.device_alive (h : Consistent db) {p : Row → Bool}
    (hp : ∀ r, p r = true → r.table ≠ .devices) {r u : Row} {userId : Uuid}
    (hdevice : r.table = .devices) (hrefs : r.refs = [(.userId, userId)]) (hu : u ∈ db.rows)
    (hkey : u.key = userId) (halive : doomed schema db.rows p u = false) :
    doomed schema db.rows p r = false := by
  rw [← Bool.not_eq_true]
  intro hdoomed
  rcases doomed_cases hdoomed with hsel | ⟨ref, href, u', hu', hdead, -, hval⟩
  · exact hp r hsel hdevice
  · rw [hrefs, List.mem_singleton] at href
    subst href
    have hsame : u' = u := h.row_eq hu' hu (hval.symm.trans hkey.symm)
    rw [hsame, halive] at hdead
    cases hdead

theorem Consistent.refs_device (h : Consistent db) {h₀ r : Row} (hh₀ : h₀ ∈ db.history)
    (hr : r ∈ db.rows) (hdevice : r.table = .devices) (hkey : r.key = h₀.key) :
    r.refs = h₀.refs := by
  obtain ⟨h₁, hh₁, -, hkey₁, hrefs⟩ := h.known r hr
  have hsame : h₁ = h₀ := row_unique h.drawn hh₁ hh₀ (hkey₁.trans hkey)
  rw [← hrefs hdevice, hsame]

/-- A `DELETE` in any table but `devices`. -/
theorem Consistent.delete (h : Consistent db) {p : Row → Bool}
    (hp : ∀ r, p r = true → r.table ≠ .devices) :
    Consistent { db with rows := deleteWhere schema p db.rows } where
  integral := integral_deleteWhere h.integral
  rowKeys := h.rowKeys.sublist keys_deleteWhere
  drawn := h.drawn
  known := by
    intro r' hr'
    obtain ⟨r, hr, -, rfl⟩ := mem_deleteWhere.mp hr'
    obtain ⟨h₀, hh₀, htable, hkey, hrefs⟩ := h.known r hr
    refine ⟨h₀, hh₀, htable, hkey, fun hdevice => ?_⟩
    rw [nullify_table] at hdevice
    rw [nullify_device hdevice]
    exact hrefs hdevice
  shaped := by
    intro r' hr'
    obtain ⟨r, hr, -, rfl⟩ := mem_deleteWhere.mp hr'
    exact (h.shaped r hr).nullify
  devices := by
    intro h₀ hh₀ hdevice
    obtain ⟨userId, howned⟩ := h.devices h₀ hh₀ hdevice
    refine ⟨userId, howned.refs, howned.known, ?_⟩
    rintro ⟨u', hu', huser⟩
    obtain ⟨u, hu, halive, rfl⟩ := mem_deleteWhere.mp hu'
    obtain ⟨r, hr, hrdevice, hrkey⟩ := howned.kept ⟨u, hu, huser⟩
    have hukey : u.key = userId := eq_of_beq (Bool.and_eq_true_iff.mp huser).2
    have hrefs : r.refs = [(.userId, userId)] :=
      (h.refs_device hh₀ hr hrdevice hrkey).trans howned.refs
    have hralive := h.device_alive hp hrdevice hrefs hu hukey halive
    exact ⟨_, mem_deleteWhere.mpr ⟨r, hr, hralive, rfl⟩, hrdevice, hrkey⟩
  samples := by
    intro r' hr' hsample ref href
    obtain ⟨r, hr, -, rfl⟩ := mem_deleteWhere.mp hr'
    exact h.samples r hr hsample ref (mem_nullify_refs.mp href).1
  emails := by
    intro r hr r' hr'
    obtain ⟨r₀, hr₀, -, rfl⟩ := mem_deleteWhere.mp hr
    obtain ⟨r₀', hr₀', -, rfl⟩ := mem_deleteWhere.mp hr'
    exact h.emails r₀ hr₀ r₀' hr₀'

theorem isUser_ne_devices {userId : Uuid} {r : Row} (h : isUser userId r = true) :
    r.table ≠ .devices := by
  have huser : r.table = .users := eq_of_beq (Bool.and_eq_true_iff.mp h).1
  rw [huser]
  decide

theorem Consistent.erase (h : Consistent db) (userId : Uuid) (email : String) :
    Consistent { db with rows := eraseRows userId email db.rows } := by
  have hlogs := h.delete (p := purged (devicesOf userId db.rows) userId email)
    fun r hr => (purged_table r hr).2.1
  rw [deleteWhere_log purged_table] at hlogs
  exact hlogs.delete fun r hr => isUser_ne_devices hr

theorem Consistent.hardDelete (h : Consistent db) (fault : Nat → Bool) (userId : Uuid)
    (email : String) :
    Consistent { db with rows := (Erasure.hardDelete fault userId email db.rows).1 } := by
  rcases hardDelete_cases fault userId email db.rows with heq | heq
  · rw [heq]
    exact h
  · rw [heq]
    exact h.erase userId email

/-- An `UPDATE` of the contents. -/
theorem Consistent.update (h : Consistent db) {p : Row → Bool} {f : Row → Row}
    (htable : ∀ r, (f r).table = r.table) (hkey : ∀ r, (f r).key = r.key)
    (hrefs : ∀ r, (f r).refs = r.refs)
    (hshaped : ∀ r ∈ db.rows, p r = true → Shaped (f r))
    (hemails : ∀ r ∈ updateWhere p f db.rows, ∀ r' ∈ updateWhere p f db.rows,
      r.table = .users → r'.table = .users → r.content.email = r'.content.email →
        r.key = r'.key) :
    Consistent { db with rows := updateWhere p f db.rows } := by
  have hsame : ∀ r' ∈ updateWhere p f db.rows,
      ∃ r ∈ db.rows, r'.table = r.table ∧ r'.key = r.key ∧ r'.refs = r.refs := by
    intro r' hr'
    obtain ⟨r, hr, rfl⟩ := mem_updateWhere.mp hr'
    refine ⟨r, hr, ?_⟩
    split
    · exact ⟨htable r, hkey r, hrefs r⟩
    · exact ⟨rfl, rfl, rfl⟩
  have hthere : ∀ r ∈ db.rows,
      ∃ r' ∈ updateWhere p f db.rows, r'.table = r.table ∧ r'.key = r.key := by
    intro r hr
    refine ⟨_, mem_updateWhere.mpr ⟨r, hr, rfl⟩, ?_⟩
    split
    · exact ⟨htable r, hkey r⟩
    · exact ⟨rfl, rfl⟩
  constructor
  · intro r' hr' ref href t act hfk
    obtain ⟨r, hr, htab, -, hre⟩ := hsame r' hr'
    rw [htab] at hfk
    rw [hre] at href
    obtain ⟨r₁, hr₁, htab₁, hkey₁⟩ := h.integral r hr ref href t act hfk
    obtain ⟨r₂, hr₂, htab₂, hkey₂⟩ := hthere r₁ hr₁
    exact ⟨r₂, hr₂, htab₂.trans htab₁, hkey₂.trans hkey₁⟩
  · rw [map_updateWhere hkey]
    exact h.rowKeys
  · exact h.drawn
  · intro r' hr'
    obtain ⟨r, hr, htab, hk, hre⟩ := hsame r' hr'
    rw [htab, hk, hre]
    exact h.known r hr
  · exact forall_updateWhere h.shaped fun r hr hpr _ => hshaped r hr hpr
  · intro h₀ hh₀ hdevice
    obtain ⟨userId, howned⟩ := h.devices h₀ hh₀ hdevice
    refine ⟨userId, howned.refs, howned.known, ?_⟩
    rintro ⟨u', hu', huser⟩
    obtain ⟨u, hu, htab, hk, -⟩ := hsame u' hu'
    have huser₀ : isUser userId u = true := by
      unfold isUser at huser ⊢
      rw [← htab, ← hk]
      exact huser
    obtain ⟨r, hr, hrdevice, hrkey⟩ := howned.kept ⟨u, hu, huser₀⟩
    obtain ⟨r₂, hr₂, htab₂, hkey₂⟩ := hthere r hr
    exact ⟨r₂, hr₂, htab₂.trans hrdevice, hkey₂.trans hrkey⟩
  · intro r' hr' hsample ref href
    obtain ⟨r, hr, htab, -, hre⟩ := hsame r' hr'
    rw [htab] at hsample
    rw [hre] at href
    exact h.samples r hr hsample ref href
  · exact hemails

theorem Consistent.setText (h : Consistent db) (key : Uuid) (text : List Mention) :
    Consistent (dbStep db (.setText key text)) := by
  refine h.update (fun _ => rfl) (fun _ => rfl) (fun _ => rfl) ?_ ?_
  · intro r hr _
    exact ⟨(h.shaped r hr).email, (h.shaped r hr).columns⟩
  · intro r hr r' hr'
    obtain ⟨r₀, hr₀, rfl⟩ := mem_updateWhere.mp hr
    obtain ⟨r₀', hr₀', rfl⟩ := mem_updateWhere.mp hr'
    have hold := h.emails r₀ hr₀ r₀' hr₀'
    split <;> split <;> exact hold

theorem Consistent.setEmail (h : Consistent db) (userId : Uuid) (email : String) :
    Consistent (dbStep db (.setEmail userId email)) := by
  simp only [dbStep]
  split
  · exact h
  rename_i hfree
  have hother : ∀ r ∈ db.rows, r.table = .users → r.content.email = some email →
      r.key = userId := by
    intro r hr huser hemail
    by_contra hne
    exact hfree (List.any_eq_true.mpr ⟨r, hr, by simp [huser, hne, hemail]⟩)
  refine h.update (fun _ => rfl) (fun _ => rfl) (fun _ => rfl) ?_ ?_
  · intro r hr huser
    refine ⟨fun _ => Or.inl ?_, (h.shaped r hr).columns⟩
    exact eq_of_beq (Bool.and_eq_true_iff.mp huser).1
  · intro r hr r' hr'
    obtain ⟨r₀, hr₀, rfl⟩ := mem_updateWhere.mp hr
    obtain ⟨r₀', hr₀', rfl⟩ := mem_updateWhere.mp hr'
    split
    · rename_i huser
      have hkey : r₀.key = userId := eq_of_beq (Bool.and_eq_true_iff.mp huser).2
      split
      · rename_i huser'
        intro _ _ _
        exact hkey.trans (eq_of_beq (Bool.and_eq_true_iff.mp huser').2).symm
      · intro _ htable' hemail
        exact hkey.trans (hother r₀' hr₀' htable' hemail.symm).symm
    · split
      · rename_i huser'
        have hkey' : r₀'.key = userId := eq_of_beq (Bool.and_eq_true_iff.mp huser').2
        intro htable _ hemail
        exact (hother r₀ hr₀ htable hemail).trans hkey'.symm
      · exact h.emails r₀ hr₀ r₀' hr₀'

/-- The references of a row that is accepted. -/
theorem required_row {rows : List Row} {new : Row} (h : referencesHold rows new = true)
    {ref : Column × Uuid} (href : ref ∈ new.refs) {t : Table}
    (ht : required new.table ref.1 = some t) :
    ∃ r ∈ rows, r.table = t ∧ r.key = ref.2 := by
  have hall := List.all_eq_true.mp h ref href
  rw [ht] at hall
  obtain ⟨r, hr, hfound⟩ := List.any_eq_true.mp hall
  obtain ⟨htable, hkey⟩ := Bool.and_eq_true_iff.mp hfound
  exact ⟨r, hr, eq_of_beq htable, eq_of_beq hkey⟩

theorem required_of_foreignKey {t t' : Table} {c : Column} {act : OnDelete}
    (h : foreignKey t c = some (t', act)) : required t c = some t' := by
  unfold required
  split
  · simp [foreignKey] at h
  · rw [h]
    rfl

/-- A device is inserted with its owner. -/
theorem device_row {key : Uuid} {w : Write} (h : (w.row key).table = .devices) :
    ∃ userId, (w.row key).refs = [(.userId, userId)] := by
  cases w with
  | createDevice userId name =>
      exact ⟨userId, rfl⟩
  | _ =>
      cases h

theorem sample_required {key : Uuid} {w : Write} (h : (w.row key).table = .bandwidthSamples)
    {ref : Column × Uuid} (href : ref ∈ (w.row key).refs) :
    required (w.row key).table ref.1 = some .devices := by
  cases w with
  | insertSample deviceId =>
      rw [List.mem_singleton.mp href]
      rfl
  | _ =>
      cases h

/-- A new row is no user that a device of the history has. -/
theorem Owned.write {h₀ new : Row} {userId : Uuid} (h : Owned db h₀ userId)
    (hfresh : ∀ h ∈ db.history, h.key ≠ new.key) :
    Owned ⟨db.rows ++ [new], db.history ++ [new]⟩ h₀ userId where
  refs := h.refs
  known := by
    obtain ⟨h₁, hh₁, heq⟩ := h.known
    exact ⟨h₁, List.mem_append_left _ hh₁, heq⟩
  kept := by
    rintro ⟨u, hu, huser⟩
    rcases List.mem_append.mp hu with hu | hu
    · obtain ⟨r, hr, heq⟩ := h.kept ⟨u, hu, huser⟩
      exact ⟨r, List.mem_append_left _ hr, heq⟩
    · rw [List.mem_singleton.mp hu] at huser
      obtain ⟨h₁, hh₁, -, hkey⟩ := h.known
      have hukey : new.key = userId := eq_of_beq (Bool.and_eq_true_iff.mp huser).2
      exact absurd (hkey.trans hukey.symm) (hfresh h₁ hh₁)

theorem Consistent.write (h : Consistent db) {key : Uuid} {w : Write}
    (haccepts : accepts db (w.row key) = true) :
    Consistent ⟨db.rows ++ [w.row key], db.history ++ [w.row key]⟩ := by
  simp only [accepts, Bool.and_eq_true, Bool.not_eq_true', List.any_eq_false,
    beq_iff_eq] at haccepts
  obtain ⟨⟨hfresh, hrefs⟩, hemail⟩ := haccepts
  have hnew : ∀ r ∈ db.rows, r.key ≠ (w.row key).key := by
    intro r hr heq
    obtain ⟨h₀, hh₀, -, hkey, -⟩ := h.known r hr
    exact hfresh h₀ hh₀ (hkey.trans heq)
  constructor
  · refine integral_append h.integral ?_
    intro ref href t act hfk
    exact required_row hrefs href (required_of_foreignKey hfk)
  · rw [List.map_append, List.map_singleton]
    refine List.nodup_append.mpr ⟨h.rowKeys, List.nodup_singleton _, ?_⟩
    intro k hk k' hk' heq
    obtain ⟨r, hr, rfl⟩ := List.mem_map.mp hk
    exact hnew r hr (heq.trans (List.mem_singleton.mp hk'))
  · rw [List.map_append, List.map_singleton]
    refine List.nodup_append.mpr ⟨h.drawn, List.nodup_singleton _, ?_⟩
    intro k hk k' hk' heq
    obtain ⟨h₀, hh₀, rfl⟩ := List.mem_map.mp hk
    exact hfresh h₀ hh₀ (heq.trans (List.mem_singleton.mp hk'))
  · intro r hr
    rcases List.mem_append.mp hr with hr | hr
    · obtain ⟨h₀, hh₀, heq⟩ := h.known r hr
      exact ⟨h₀, List.mem_append_left _ hh₀, heq⟩
    · exact ⟨r, List.mem_append_right _ hr, rfl, rfl, fun _ => rfl⟩
  · intro r hr
    rcases List.mem_append.mp hr with hr | hr
    · exact h.shaped r hr
    · rw [List.mem_singleton.mp hr]
      exact shaped_row key w
  · intro h₀ hh₀ hdevice
    rcases List.mem_append.mp hh₀ with hh₀ | hh₀
    · obtain ⟨userId, howned⟩ := h.devices h₀ hh₀ hdevice
      exact ⟨userId, howned.write hfresh⟩
    · rw [List.mem_singleton.mp hh₀] at hdevice ⊢
      obtain ⟨userId, howner⟩ := device_row hdevice
      have howning : (Column.userId, userId) ∈ (w.row key).refs := by
        simp [howner]
      obtain ⟨u, hu, huser, hukey⟩ := required_row hrefs howning (t := .users) (by
        rw [hdevice]
        rfl)
      obtain ⟨h₁, hh₁, htable, hkey₁, -⟩ := h.known u hu
      refine ⟨userId, howner, ?_, fun _ => ?_⟩
      · exact ⟨h₁, List.mem_append_left _ hh₁, htable.trans huser, hkey₁.trans hukey⟩
      · exact ⟨_, List.mem_append_right _ (List.mem_singleton_self _), hdevice, rfl⟩
  · intro r hr hsample ref href
    rcases List.mem_append.mp hr with hr | hr
    · obtain ⟨h₀, hh₀, heq⟩ := h.samples r hr hsample ref href
      exact ⟨h₀, List.mem_append_left _ hh₀, heq⟩
    · rw [List.mem_singleton.mp hr] at hsample href
      obtain ⟨d, hd, hdevice, hdkey⟩ := required_row hrefs href (t := .devices)
        (sample_required hsample href)
      obtain ⟨h₁, hh₁, htable, hkey₁, -⟩ := h.known d hd
      exact ⟨h₁, List.mem_append_left _ hh₁, htable.trans hdevice, hkey₁.trans hdkey⟩
  · have hother : (w.row key).table = .users → ∀ r ∈ db.rows, r.table = .users →
        r.content.email ≠ (w.row key).content.email := by
      intro huser r hr hrtable heq
      rcases Bool.or_eq_true_iff.mp hemail with hne | hfree
      · simp [huser] at hne
      · rw [Bool.not_eq_true'] at hfree
        have htaken : emailTaken db.rows (w.row key).key (w.row key).content.email = true :=
          List.any_eq_true.mpr ⟨r, hr, by simp [hrtable, hnew r hr, heq]⟩
        rw [htaken] at hfree
        cases hfree
    intro r hr r' hr' htable htable' heq
    rcases List.mem_append.mp hr with hr | hr <;> rcases List.mem_append.mp hr' with hr' | hr'
    · exact h.emails r hr r' hr' htable htable' heq
    · rw [List.mem_singleton.mp hr'] at htable' heq
      exact absurd heq (hother htable' r hr htable)
    · rw [List.mem_singleton.mp hr] at htable heq
      exact absurd heq.symm (hother htable r' hr' htable')
    · rw [List.mem_singleton.mp hr, List.mem_singleton.mp hr']

theorem consistent_step (h : Consistent db) (e : Event) : Consistent (dbStep db e) := by
  cases e with
  | write key w =>
      simp only [dbStep]
      split
      · rename_i haccepts
        exact h.write haccepts
      · exact h
  | setText key text =>
      exact h.setText key text
  | setEmail userId email =>
      exact h.setEmail userId email
  | remove key =>
      refine h.delete fun r hr => ?_
      simp only [isOther, Bool.and_eq_true, bne_iff_ne] at hr
      exact hr.1.2
  | purgeUser userId =>
      exact h.delete fun r hr => isUser_ne_devices hr
  | hardDelete fault userId email =>
      exact h.hardDelete fault userId email

theorem consistent_run (es : List Event) : Consistent (runEvents dbStep emptyDatabase es) :=
  (always_of_inv Consistent (fun _ e hdb => consistent_step hdb e) (fun _ hdb => hdb)
    consistent_empty es).last

end Events

/-! ## What a deletion removes -/

section Removal

variable {db : Database} {userId : Uuid} {email : String} {u : Row}

/-- The rows before the user's own row is deleted. -/
abbrev unlogged (db : Database) (userId : Uuid) (email : String) : List Row :=
  db.rows.filter fun r => !purged (devicesOf userId db.rows) userId email r

theorem mem_devicesOf {rows : List Row} {d : Uuid} :
    d ∈ devicesOf userId rows ↔
      ∃ r ∈ rows, r.table = .devices ∧ (.userId, userId) ∈ r.refs ∧ r.key = d := by
  simp [devicesOf, List.mem_map, List.mem_filter, and_assoc]

/-- The user has the devices that the user has had. -/
theorem Consistent.mem_devicesHad (h : Consistent db) (hu : u ∈ db.rows)
    (huser : isUser userId u = true) {d : Uuid} :
    d ∈ devicesHad db userId ↔ d ∈ devicesOf userId db.rows := by
  unfold devicesHad
  rw [mem_devicesOf, mem_devicesOf]
  constructor
  · rintro ⟨h₀, hh₀, hdevice, howner, rfl⟩
    obtain ⟨owner, howned⟩ := h.devices h₀ hh₀ hdevice
    have hsame : userId = owner := by
      rw [howned.refs, List.mem_singleton] at howner
      exact (Prod.mk.inj howner).2
    subst hsame
    obtain ⟨r, hr, hrdevice, hrkey⟩ := howned.kept ⟨u, hu, huser⟩
    refine ⟨r, hr, hrdevice, ?_, hrkey⟩
    rw [h.refs_device hh₀ hr hrdevice hrkey]
    exact howner
  · rintro ⟨r, hr, hdevice, howner, rfl⟩
    obtain ⟨h₀, hh₀, htable, hkey, hrefs⟩ := h.known r hr
    refine ⟨h₀, hh₀, htable.trans hdevice, ?_, hkey⟩
    rw [hrefs hdevice]
    exact howner

theorem mem_unlogged {r : Row} (hr : r ∈ db.rows) (htable : r.table = .users ∨ r.table = .devices) :
    r ∈ unlogged db userId email := by
  refine List.mem_filter.mpr ⟨hr, ?_⟩
  rw [Bool.not_eq_true', ← Bool.not_eq_true]
  intro hpurged
  obtain ⟨husers, hdevices, -⟩ := purged_table r hpurged
  rcases htable with h | h
  · exact husers h
  · exact hdevices h

/-- A cascading column that refers to `users` is the `user_id` of a row of the user's own. -/
theorem cascade_users {r : Row} {c : Column} {deviceIds : List Uuid}
    (hkey : foreignKey r.table c = some (.users, .cascade)) (href : (c, userId) ∈ r.refs) :
    belongs userId deviceIds email r = true := by
  unfold foreignKey at hkey
  split at hkey <;> cases hkey <;> simp_all [belongs]

/-- A cascading column that refers to `devices` is the `device_id` of such a row. -/
theorem cascade_devices {r : Row} {c : Column} {d : Uuid} {deviceIds : List Uuid}
    (hkey : foreignKey r.table c = some (.devices, .cascade)) (href : (c, d) ∈ r.refs)
    (hd : d ∈ deviceIds) : belongs userId deviceIds email r = true := by
  have hany (h : (.deviceId, d) ∈ r.refs) :
      r.refs.any (fun ref => ref.1 == .deviceId && deviceIds.contains ref.2) = true :=
    List.any_eq_true.mpr ⟨(.deviceId, d), h, by simp [hd]⟩
  unfold foreignKey at hkey
  split at hkey <;> cases hkey
  all_goals
    rename_i htable
    simp only [belongs, htable, hany href, Bool.or_true]

variable {rows : List Row}

theorem doomed_users {r : Row} (htable : r.table = .users)
    (h : doomed schema rows (isUser userId) r = true) : r.key = userId := by
  rcases doomed_cases h with hsel | ⟨ref, -, r', -, -, hkey, -⟩
  · exact eq_of_beq (Bool.and_eq_true_iff.mp hsel).2
  · rw [htable] at hkey
    cases hc : ref.1 <;> simp [schema, foreignKey, hc] at hkey

theorem not_doomed_services {r : Row} (htable : r.table = .vpnServices) :
    doomed schema rows (isUser userId) r = false := by
  rw [← Bool.not_eq_true]
  intro h
  rcases doomed_cases h with hsel | ⟨ref, -, r', -, -, hkey, -⟩
  · simp [isUser, htable] at hsel
  · rw [htable] at hkey
    cases hc : ref.1 <;> simp [schema, foreignKey, hc] at hkey

theorem doomed_devices {r : Row} (htable : r.table = .devices)
    (h : doomed schema rows (isUser userId) r = true) : (.userId, userId) ∈ r.refs := by
  rcases doomed_cases h with hsel | ⟨⟨c, k⟩, href, r', -, hdead, hkey, hval⟩
  · exact absurd htable (isUser_ne_devices hsel)
  · rw [htable] at hkey
    cases c <;> simp [schema, foreignKey] at hkey
    have hk : k = userId := hval.trans (doomed_users hkey.symm hdead)
    rw [← hk]
    exact href

/-- What goes is the user's own. -/
theorem belongs_of_removed {r : Row} {deviceIds : List Uuid}
    (hdevices : ∀ d, d ∈ deviceIds ↔ d ∈ devicesOf userId db.rows)
    (h : purged (devicesOf userId db.rows) userId email r = true ∨
      doomed schema (unlogged db userId email) (isUser userId) r = true) :
    belongs userId deviceIds email r = true := by
  rcases h with hpurged | hdoomed
  · simp only [purged, Bool.or_eq_true] at hpurged
    rcases hpurged with (((hp | hp) | hp) | hp) | hp
    · obtain ⟨htable, hany⟩ := Bool.and_eq_true_iff.mp hp
      obtain ⟨ref, href, hd⟩ := List.any_eq_true.mp hany
      simp only [Bool.and_eq_true, beq_iff_eq, List.contains_iff_mem] at htable hd
      simp only [belongs, htable, Bool.or_eq_true]
      refine Or.inr (List.any_eq_true.mpr ⟨ref, href, ?_⟩)
      simp [hd.1, (hdevices ref.2).mpr hd.2]
    · simp only [auditsOf, Bool.and_eq_true, beq_iff_eq] at hp
      simp only [belongs, hp.1, hp.2]
    · simp only [logsOf, Bool.and_eq_true, beq_iff_eq] at hp
      simp only [belongs, hp.1, hp.2]
    · simp only [logsOf, Bool.and_eq_true, beq_iff_eq] at hp
      simp only [belongs, hp.1, hp.2]
    · obtain ⟨htable, hemail⟩ := Bool.and_eq_true_iff.mp hp
      rw [beq_iff_eq] at htable
      simp only [belongs, htable, hemail]
  · rcases doomed_cases hdoomed with hsel | ⟨⟨c, k⟩, href, r', hr', hdead, hkey, hval⟩
    · obtain ⟨htable, hk⟩ := Bool.and_eq_true_iff.mp hsel
      rw [beq_iff_eq] at htable
      simp only [belongs, htable, hk]
    · rcases foreignKey_target hkey with ht | ht | ht
      · have hk : k = userId := hval.trans (doomed_users ht hdead)
        subst hk
        exact cascade_users (ht ▸ hkey) href
      · refine cascade_devices (ht ▸ hkey) href ((hdevices k).mpr (mem_devicesOf.mpr ?_))
        exact ⟨r', (List.mem_filter.mp hr').1, ht, doomed_devices ht hdead, hval.symm⟩
      · rw [not_doomed_services ht] at hdead
        cases hdead

/-- The `user_id` of a row of the user's own. -/
theorem foreignKey_userId {r : Row} (h : Shaped r) (href : (.userId, userId) ∈ r.refs)
    (haccess : r.table ≠ .accessLogs) (hdestination : r.table ≠ .destinationIps) :
    foreignKey r.table .userId = some (.users, .cascade) := by
  have hkey : foreignKey r.table .userId ≠ none := by
    intro hnone
    rcases h.free href hnone with ⟨-, hc⟩ | ⟨-, hc⟩ <;> cases hc
  cases ht : r.table <;> simp_all [foreignKey]

/-- The `device_id` of such a row. -/
theorem foreignKey_deviceId {r : Row} (h : Shaped r) {d : Uuid} (href : (.deviceId, d) ∈ r.refs)
    (hdestination : r.table ≠ .destinationIps) (hsample : r.table ≠ .bandwidthSamples) :
    foreignKey r.table .deviceId = some (.devices, .cascade) := by
  have hkey : foreignKey r.table .deviceId ≠ none := by
    intro hnone
    rcases h.free href hnone with ⟨-, hc⟩ | ⟨ht, -⟩
    · cases hc
    · exact hsample ht
  cases ht : r.table <;> simp_all [foreignKey]

/-- A row with the `user_id` of the deleted user goes. -/
theorem doomed_of_userId (h : Consistent db) (hu : u ∈ db.rows) (huser : isUser userId u = true)
    {r : Row} (hr : r ∈ db.rows) (href : (.userId, userId) ∈ r.refs)
    (haccess : r.table ≠ .accessLogs) (hdestination : r.table ≠ .destinationIps) :
    doomed schema (unlogged db userId email) (isUser userId) r = true := by
  obtain ⟨htable, hkey⟩ := Bool.and_eq_true_iff.mp huser
  have hfk := foreignKey_userId (h.shaped r hr) href haccess hdestination
  rw [← eq_of_beq htable] at hfk
  exact doomed_closed href (mem_unlogged hu (Or.inl (eq_of_beq htable))) (doomed_of_selected huser)
    hfk (eq_of_beq hkey).symm

/-- What is the user's own goes. -/
theorem removed_of_belongs (h : Consistent db) (hu : u ∈ db.rows) (huser : isUser userId u = true)
    {r : Row} (hr : r ∈ db.rows) {deviceIds : List Uuid}
    (hdevices : ∀ d, d ∈ deviceIds ↔ d ∈ devicesOf userId db.rows)
    (hbelongs : belongs userId deviceIds email r = true) :
    purged (devicesOf userId db.rows) userId email r = true ∨
      doomed schema (unlogged db userId email) (isUser userId) r = true := by
  unfold belongs at hbelongs
  split at hbelongs
  · rename_i htable
    exact Or.inr (doomed_of_selected (by simp [isUser, htable, hbelongs]))
  · rename_i htable
    have hlog : auditsOf userId r = true := by
      rw [auditsOf, htable, hbelongs]
      rfl
    exact Or.inl (by simp [purged, hlog])
  · rename_i htable
    have hlog : logsOf .accessLogs userId r = true := by
      rw [logsOf, htable, hbelongs]
      rfl
    exact Or.inl (by simp [purged, hlog])
  · rename_i htable
    have hlog : logsOf .destinationIps userId r = true := by
      rw [logsOf, htable, hbelongs]
      rfl
    exact Or.inl (by simp [purged, hlog])
  · rename_i htable
    exact Or.inl (by simp [purged, failedLoginsOf, htable, hbelongs])
  · cases hbelongs
  · cases hbelongs
  · cases hbelongs
  · cases hbelongs
  · cases hbelongs
  · rename_i haccess hdestination _ _ _ _ _ _
    rcases Bool.or_eq_true_iff.mp hbelongs with huserId | hdevice
    · rw [List.contains_iff_mem] at huserId
      exact Or.inr (doomed_of_userId h hu huser hr huserId haccess hdestination)
    · obtain ⟨⟨c, d⟩, href, hd⟩ := List.any_eq_true.mp hdevice
      simp only [Bool.and_eq_true, beq_iff_eq, List.contains_iff_mem] at hd
      obtain ⟨rfl, hmem⟩ := hd
      have hown := (hdevices d).mp hmem
      by_cases hsample : r.table = .bandwidthSamples
      · refine Or.inl ?_
        have hsamples : samplesOf (devicesOf userId db.rows) r = true := by
          simp only [samplesOf, hsample, beq_self_eq_true, Bool.true_and]
          exact List.any_eq_true.mpr ⟨(.deviceId, d), href, by simp [hown]⟩
        simp [purged, hsamples]
      · obtain ⟨r', hr', hrdevice, howner, rfl⟩ := mem_devicesOf.mp hown
        have hdead : doomed schema (unlogged db userId email) (isUser userId) r' = true :=
          doomed_of_userId h hu huser hr' howner (by simp [hrdevice]) (by simp [hrdevice])
        have hfk := foreignKey_deviceId (h.shaped r hr) href hdestination hsample
        rw [← hrdevice] at hfk
        exact Or.inr (doomed_closed href (mem_unlogged hr' (Or.inr hrdevice)) hdead hfk rfl)

/-- The rows after `hard_delete` are the rows that are not the user's own. -/
theorem mem_eraseRows (h : Consistent db) (hu : u ∈ db.rows) (huser : isUser userId u = true)
    {r' : Row} :
    r' ∈ eraseRows userId email db.rows ↔
      ∃ r ∈ db.rows, belongs userId (devicesHad db userId) email r = false ∧
        nullify schema (unlogged db userId email)
          (doomed schema (unlogged db userId email) (isUser userId)) r = r' := by
  unfold eraseRows
  rw [mem_deleteWhere]
  have hdevices : ∀ d, d ∈ devicesHad db userId ↔ d ∈ devicesOf userId db.rows :=
    fun d => h.mem_devicesHad hu huser
  constructor
  · rintro ⟨r, hr, halive, rfl⟩
    obtain ⟨hmem, hunlogged⟩ := List.mem_filter.mp hr
    refine ⟨r, hmem, ?_, rfl⟩
    rw [← Bool.not_eq_true]
    intro hbelongs
    rcases removed_of_belongs h hu huser hmem hdevices hbelongs with hpurged | hdoomed
    · rw [hpurged] at hunlogged
      cases hunlogged
    · rw [halive] at hdoomed
      cases hdoomed
  · rintro ⟨r, hr, hothers, rfl⟩
    have hkept : ¬ (purged (devicesOf userId db.rows) userId email r = true ∨
        doomed schema (unlogged db userId email) (isUser userId) r = true) := by
      intro hremoved
      rw [belongs_of_removed hdevices hremoved] at hothers
      cases hothers
    rw [not_or, Bool.not_eq_true, Bool.not_eq_true] at hkept
    exact ⟨r, List.mem_filter.mpr ⟨hr, by simp [hkept.1]⟩, hkept.2, rfl⟩

end Removal

section Completeness

variable {db : Database} {userId : Uuid} {email : String} {u : Row}

theorem mem_identities {deviceIds : List Uuid} {x : Mention} :
    x ∈ identities userId deviceIds email ↔
      (∃ k, (k = userId ∨ k ∈ deviceIds) ∧ x = .id k) ∨ x = .email email := by
  simp only [identities, List.mem_cons, List.mem_map]
  constructor
  · rintro (rfl | rfl | ⟨d, hd, rfl⟩)
    · exact Or.inl ⟨userId, Or.inl rfl, rfl⟩
    · exact Or.inr rfl
    · exact Or.inl ⟨d, Or.inr hd, rfl⟩
  · rintro (⟨k, rfl | hk, rfl⟩ | rfl)
    · exact Or.inl rfl
    · exact Or.inr (Or.inr ⟨k, hk, rfl⟩)
    · exact Or.inr (Or.inl rfl)

/-- A complete erasure finds no mention of the user in the rows of others. -/
theorem erasable_of_erased (h : Consistent db) (hu : u ∈ db.rows) (huser : isUser userId u = true)
    (herased : Erased (eraseRows userId email db.rows) userId (devicesHad db userId) email) :
    Erasable db.rows userId (devicesHad db userId) email where
  audits := by
    intro r hr haudit hothers d hd htarget
    have hkept := (mem_eraseRows h hu huser).mpr ⟨r, hr, hothers, rfl⟩
    have hsilent := herased _ hkept (.id d) (mem_identities.mpr (Or.inl ⟨d, Or.inr hd, rfl⟩))
    have hfree : ∀ t, foreignKey r.table .targetId ≠ some (t, .setNull) := by
      intro t
      rw [haudit]
      simp [foreignKey]
    simp only [mentions, Bool.or_eq_false_iff, List.any_eq_false] at hsilent
    exact hsilent.1.2 _ (mem_nullify_of_free htarget hfree) (by simp)
  texts := by
    intro r hr hothers x hx hmem
    have hkept := (mem_eraseRows h hu huser).mpr ⟨r, hr, hothers, rfl⟩
    have hsilent := herased _ hkept x hx
    cases x with
    | id k =>
        simp only [mentions, Bool.or_eq_false_iff, nullify_content] at hsilent
        simp [hmem] at hsilent
    | email e =>
        simp only [mentions, Bool.or_eq_false_iff, nullify_content] at hsilent
        simp [hmem] at hsilent

/-- The row of an id of the user is the user's own. -/
theorem belongs_of_key (h : Consistent db) (hu : u ∈ db.rows) (huser : isUser userId u = true)
    {r : Row} (hr : r ∈ db.rows) (hkey : r.key = userId ∨ r.key ∈ devicesHad db userId) :
    belongs userId (devicesHad db userId) email r = true := by
  obtain ⟨hutable, hukey⟩ := Bool.and_eq_true_iff.mp huser
  rw [beq_iff_eq] at hutable hukey
  rcases hkey with hkey | hkey
  · have hsame : r = u := h.row_eq hr hu (hkey.trans hukey.symm)
    simp [belongs, hsame, hutable, hukey]
  · obtain ⟨d, hd, hdevice, howner, hdkey⟩ := mem_devicesOf.mp
      ((h.mem_devicesHad hu huser).mp hkey)
    have hsame : r = d := h.row_eq hr hd hdkey.symm
    simp [belongs, hsame, hdevice, howner]

/-- No id of the user is the key of a row that is left. -/
theorem key_gone (h : Consistent db) (hu : u ∈ db.rows) (huser : isUser userId u = true)
    {r' : Row} (hr' : r' ∈ eraseRows userId email db.rows) {k : Uuid}
    (hk : k = userId ∨ k ∈ devicesHad db userId) : r'.key ≠ k := by
  rintro rfl
  obtain ⟨r, hr, hothers, rfl⟩ := (mem_eraseRows h hu huser).mp hr'
  rw [belongs_of_key h hu huser hr hk] at hothers
  cases hothers

/-- A sample is of a device. -/
theorem sample_ne_user (h : Consistent db) (hu : u ∈ db.rows) (huser : isUser userId u = true)
    {r : Row} (hr : r ∈ db.rows) (hsample : r.table = .bandwidthSamples) {ref : Column × Uuid}
    (href : ref ∈ r.refs) : ref.2 ≠ userId := by
  intro heq
  obtain ⟨hutable, hukey⟩ := Bool.and_eq_true_iff.mp huser
  rw [beq_iff_eq] at hutable hukey
  obtain ⟨h₀, hh₀, hdevice, hkey⟩ := h.samples r hr hsample ref href
  obtain ⟨h₁, hh₁, htable, hkey₁, -⟩ := h.known u hu
  have hsame : h₀ = h₁ := row_unique h.drawn hh₀ hh₁
    (hkey.trans (heq.trans (hukey.symm.trans hkey₁.symm)))
  rw [hsame, htable, hutable] at hdevice
  cases hdevice

/-- No column of a row that is left holds an id of the user. -/
theorem ref_gone (h : Consistent db) (hu : u ∈ db.rows) (huser : isUser userId u = true)
    (herasable : Erasable db.rows userId (devicesHad db userId) email)
    {r' : Row} (hr' : r' ∈ eraseRows userId email db.rows) {ref : Column × Uuid}
    (href : ref ∈ r'.refs) {k : Uuid} (hk : k = userId ∨ k ∈ devicesHad db userId) :
    ref.2 ≠ k := by
  intro hval
  cases hfk : foreignKey r'.table ref.1 with
  | some target =>
      obtain ⟨t, act⟩ := target
      obtain ⟨r₁, hr₁, -, hkey₁⟩ := (h.erase userId email).integral r' hr' ref href t act hfk
      exact key_gone h hu huser hr₁ hk (hkey₁.trans hval)
  | none =>
      obtain ⟨r, hr, hothers, rfl⟩ := (mem_eraseRows h hu huser).mp hr'
      have hmem := (mem_nullify_refs.mp href).1
      obtain ⟨c, k'⟩ := ref
      have hk' : k' = k := hval
      subst hk'
      rcases (h.shaped r hr).free hmem hfk with ⟨haudit, hc⟩ | ⟨hsample, hc⟩
      · have htarget : c = .targetId := hc
        subst htarget
        rcases hk with rfl | hd
        · simp [belongs, haudit, hmem] at hothers
        · exact herasable.audits r hr haudit hothers k' hd hmem
      · have hdevice : c = .deviceId := hc
        subst hdevice
        rcases hk with rfl | hd
        · exact sample_ne_user h hu huser hr hsample hmem rfl
        · simp only [belongs, hsample, Bool.or_eq_false_iff, List.any_eq_false] at hothers
          exact hothers.2 _ hmem (by simp [hd])

/-- No row that is left has the email of the user. -/
theorem email_gone (h : Consistent db) (hu : u ∈ db.rows) (huser : isUser userId u = true)
    (hemail : u.content.email = some email) {r : Row} (hr : r ∈ db.rows)
    (hothers : belongs userId (devicesHad db userId) email r = false) :
    r.content.email ≠ some email := by
  intro heq
  obtain ⟨hutable, hukey⟩ := Bool.and_eq_true_iff.mp huser
  rw [beq_iff_eq] at hutable hukey
  rcases (h.shaped r hr).email (by simp [heq]) with htable | htable
  · have hkey := h.emails r hr u hu htable hutable (heq.trans hemail.symm)
    simp [belongs, htable, hkey, hukey] at hothers
  · simp [belongs, htable, heq] at hothers

theorem erased_of_erasable (h : Consistent db) (hu : u ∈ db.rows) (huser : isUser userId u = true)
    (hemail : u.content.email = some email)
    (herasable : Erasable db.rows userId (devicesHad db userId) email) :
    Erased (eraseRows userId email db.rows) userId (devicesHad db userId) email := by
  intro r' hr' x hx
  have hgone := hr'
  obtain ⟨r, hr, hothers, rfl⟩ := (mem_eraseRows h hu huser).mp hr'
  have htext := herasable.texts r hr hothers x hx
  rcases mem_identities.mp hx with ⟨k, hk, rfl⟩ | rfl
  · simp only [mentions, Bool.or_eq_false_iff, List.any_eq_false, beq_eq_false_iff_ne,
      beq_iff_eq]
    refine ⟨⟨key_gone h hu huser hgone hk, ?_⟩, ?_⟩
    · intro ref href
      exact ref_gone h hu huser herasable hgone href hk
    · simpa using htext
  · simp only [mentions, Bool.or_eq_false_iff, beq_eq_false_iff_ne]
    refine ⟨?_, ?_⟩
    · rw [nullify_content]
      exact email_gone h hu huser hemail hr hothers
    · simpa using htext

end Completeness

/--
`hard_delete` changes nothing when it fails.  When it returns `Ok`, it has erased the user
exactly when the condition on the rows of others holds, in every state of every run.
-/
theorem erasure_complete_iff (es : List Event) (fault : Nat → Bool) (userId : Uuid)
    (email : String) (u : Row) (hu : u ∈ (runEvents dbStep emptyDatabase es).rows)
    (huser : isUser userId u = true) (hemail : u.content.email = some email) :
    let db := runEvents dbStep emptyDatabase es
    let result := hardDelete fault userId email db.rows
    (result.2 ≠ .ok () → result.1 = db.rows) ∧
      (result.2 = .ok () →
        (Erased result.1 userId (devicesHad db userId) email ↔
          Erasable db.rows userId (devicesHad db userId) email)) := by
  intro db result
  have h : Consistent db := consistent_run es
  rcases hardDelete_cases fault userId email db.rows with heq | heq
  · have hresult : result = (db.rows, .error .unavailable) := heq
    rw [hresult]
    exact ⟨fun _ => rfl, fun hok => by cases hok⟩
  · have hresult : result = (eraseRows userId email db.rows, .ok ()) := heq
    rw [hresult]
    refine ⟨fun herr => absurd rfl herr, fun _ => ?_⟩
    exact ⟨erasable_of_erased h hu huser, erased_of_erasable h hu huser hemail⟩

/-- The admin 1 has invited the user 2, who has the device 3; the device has sent data, the user
has failed to sign in once and has opened the page of the device. -/
def sampleEvents : List Event :=
  [.write 1 (.createUser "admin@example.org"), .write 2 (.createUser "user@example.org"),
    .write 3 (.createDevice 2 []),
    .write 4 (.recordAudit (some 1) (some 2) [.email "user@example.org"]),
    .write 5 (.insertSample 3), .write 6 (.insertDestination (some 3) (some 2)),
    .write 7 (.recordFailedLogin (some "user@example.org") []),
    .write 8 (.logAccess (some 2) [.id 3])]

instance (rows : List Row) (userId : Uuid) (deviceIds : List Uuid) (email : String) :
    Decidable (Erased rows userId deviceIds email) :=
  List.decidableBAll _ rows

theorem erasure_complete_sample :
    let db := runEvents dbStep emptyDatabase sampleEvents
    let result := hardDelete (fun _ => false) 2 "user@example.org" db.rows
    result.1 = [(Write.createUser "admin@example.org").row 1] ∧
      Erased result.1 2 (devicesHad db 2) "user@example.org" := by
  have hiff := (erasure_complete_iff sampleEvents (fun _ => false) 2 "user@example.org"
    ((Write.createUser "user@example.org").row 2) (by decide) (by decide)
    (by decide)).2 (by decide)
  refine ⟨by decide, hiff.mpr ⟨?_, ?_⟩⟩
  · decide
  · decide

/-- The device comes online, and the poller records it without an actor.  The record is left
after the erasure and names the device. -/
theorem poller_record_survives :
    let db := runEvents dbStep emptyDatabase
      (sampleEvents ++ [.write 9 (.recordAudit none (some 3) [])])
    let result := hardDelete (fun _ => false) 2 "user@example.org" db.rows
    result.2 = .ok () ∧ 3 ∈ devicesHad db 2 ∧
      (Write.recordAudit none (some 3) []).row 9 ∈ result.1 ∧
      ¬ Erased result.1 2 (devicesHad db 2) "user@example.org" := by
  decide

end Erasure
end Db
end ZeroVpn
