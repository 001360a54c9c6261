import ZeroVpn.HostAgent.State

/-!
# Generations of the interface

`crates/zerovpn-host-agent/src/generation.rs` and the statistics request of
`main.rs`.  The agent stores one record: the fingerprint of the interface that
it saw last and the generation it gave to it.  A statistics request looks at
the interface four times, at moments between which the interface may change:
before the dump, at the dump, after it and once more at the end.

Of a dump only the line of one peer is kept.
-/

namespace ZeroVpn
namespace HostAgent

/-- The boot, the network namespace and the index of an interface. -/
structure Instance where
  bootId : Nat
  networkNamespace : String
  ifindex : Nat
  deriving DecidableEq, Repr

structure InterfaceFingerprint extends Instance where
  publicKey : String
  deriving DecidableEq, Repr

/-- A line of `wg show wg0 dump`. -/
structure PeerStats where
  publicKey : String
  latestHandshake : Nat
  rxBytes : Nat
  txBytes : Nat
  deriving DecidableEq, Repr

/-- The interface in the kernel. -/
structure KernelInterface where
  identity : Instance
  publicKey : String
  peer : Option PeerStats
  deriving DecidableEq, Repr

def Instance.fingerprint (i : Instance) (publicKey : String) : InterfaceFingerprint :=
  { i with publicKey := publicKey }

/-- The calls of a statistics request that can fail. -/
inductive Fault where
  | loadState
  | observeBefore
  | wgShow
  | observeAgain
  | loadGeneration
  | writeGeneration
  /-- The directory is not synced after the record was renamed into place. -/
  | syncGeneration
  | observeAfter
  deriving DecidableEq, Repr

namespace InterfaceFingerprint

def validate (f : InterfaceFingerprint) : Except String Unit := do
  ensure (decide (0 < f.ifindex)) "invalid interface index"
  ensure ("net:[".toList.isPrefixOf f.networkNamespace.toList &&
    f.networkNamespace.toList.getLast? == some ']') "invalid network namespace"
  ensure (validKey f.publicKey) "invalid WireGuard key"

/-- `observe_host`: the fingerprint of the interface as it is now. -/
def observeHost (now : Option KernelInterface) (publicKey : String) (fails : Bool) :
    Except String InterfaceFingerprint := do
  ensure (validKey publicKey) "invalid WireGuard key"
  ensure (!fails) "invalid kernel boot ID"
  match now with
  | some i => pure (i.identity.fingerprint publicKey)
  | none => throw "invalid wg0 ifindex"

end InterfaceFingerprint

structure GenerationRecord where
  fingerprint : InterfaceFingerprint
  generation : String
  deriving DecidableEq, Repr

namespace GenerationStore

/-- The record in the file; anything unexpected about the file is an error. -/
def load (record : Option GenerationRecord) (fails : Bool) :
    Except String (Option GenerationRecord) := do
  ensure (!fails) "generation record must be a regular file"
  match record with
  | none => pure none
  | some r => do
      r.fingerprint.validate
      ensure (r.generation != "00000000-0000-0000-0000-000000000000")
        "nil interface generation"
      pure (some r)

/-- Replace the record. -/
def persist (fails : Fault → Bool) (record : Option GenerationRecord) (new : GenerationRecord) :
    Option GenerationRecord × Except String String :=
  if fails .writeGeneration then (record, .error "generation directory missing")
  else if fails .syncGeneration then (some new, .error "generation directory missing")
  else (some new, .ok new.generation)

/-- `observe`: the record after it and the generation; `draw` is the new one that
a changed interface gets. -/
def observe (fails : Fault → Bool) (draw : String) (record : Option GenerationRecord)
    (f : InterfaceFingerprint) : Option GenerationRecord × Except String String :=
  match f.validate with
  | .error e => (record, .error e)
  | .ok () =>
      match load record (fails .loadGeneration) with
      | .error e => (record, .error e)
      | .ok (some r) =>
          if r.fingerprint = f then (record, .ok r.generation)
          else persist fails record ⟨f, draw⟩
      | .ok none => persist fails record ⟨f, draw⟩

/-- What is read is what is stored. -/
theorem load_ok {record found : Option GenerationRecord} {fails : Bool}
    (h : load record fails = .ok found) : found = record := by
  unfold load at h
  obtain ⟨_, _, h⟩ := bind_eq_ok.mp h
  cases record with
  | none =>
      cases h
      rfl
  | some r =>
      obtain ⟨_, _, h⟩ := bind_eq_ok.mp h
      obtain ⟨_, _, h⟩ := bind_eq_ok.mp h
      cases h
      rfl

theorem persist_ok {fails : Fault → Bool} {record : Option GenerationRecord}
    {new : GenerationRecord} {g : String} (h : (persist fails record new).2 = .ok g) :
    (persist fails record new).1 = some ⟨new.fingerprint, g⟩ := by
  unfold persist at h ⊢
  split at h
  · cases h
  · split at h
    · cases h
    · cases h
      simp [*]

/-- An interface that the record knows keeps its record and its generation. -/
theorem observe_known (fails : Fault → Bool) (draw : String) (r : GenerationRecord) :
    (observe fails draw (some r) r.fingerprint).1 = some r ∧
      ∀ g, (observe fails draw (some r) r.fingerprint).2 = .ok g → g = r.generation := by
  unfold observe
  cases hvalid : r.fingerprint.validate with
  | error e =>
      refine ⟨rfl, ?_⟩
      intro g hg
      cases hg
  | ok u =>
      cases hload : load (some r) (fails .loadGeneration) with
      | error e =>
          refine ⟨rfl, ?_⟩
          intro g hg
          cases hg
      | ok found =>
          rw [load_ok hload]
          simp only [if_true, Except.ok.injEq, true_and]
          intro g hg
          exact hg.symm

/-- A generation that was handed out is the one of the record. -/
theorem observe_ok {fails : Fault → Bool} {draw g : String} {record : Option GenerationRecord}
    {f : InterfaceFingerprint} (h : (observe fails draw record f).2 = .ok g) :
    (observe fails draw record f).1 = some ⟨f, g⟩ := by
  unfold observe at h ⊢
  cases hvalid : f.validate with
  | error e =>
      simp only [hvalid] at h
      cases h
  | ok u =>
      cases hload : load record (fails .loadGeneration) with
      | error e =>
          simp only [hvalid, hload] at h
          cases h
      | ok found =>
          have hfound := load_ok hload
          subst hfound
          simp only [hvalid, hload] at h ⊢
          cases found with
          | none =>
              exact persist_ok h
          | some r =>
              simp only at h ⊢
              by_cases hf : r.fingerprint = f
              · rw [if_pos hf] at h ⊢
                cases h
                rw [← hf]
              · rw [if_neg hf] at h ⊢
                exact persist_ok h

end GenerationStore

/-- The part of a statistics request before the generation: the fingerprint, if a
state has been applied. -/
def verifyInterface (fails : Fault → Bool) (applied : Option String)
    (before dump again : Option KernelInterface) :
    Except String (Option InterfaceFingerprint) := do
  ensure (!fails .loadState) "state_unavailable"
  let first ← (applied.mapM fun key =>
    InterfaceFingerprint.observeHost before key (fails .observeBefore)).mapError
      fun _ => "generation_unavailable"
  ensure (!fails .wgShow) "wg_unavailable"
  match dump, applied with
  | none, _ => throw "interface_unavailable"
  | some _, none => pure none
  | some i, some key => do
      ensure (validKey i.publicKey) "invalid_wg_output"
      ensure (i.publicKey == key) "server_identity_mismatch"
      let second ← (InterfaceFingerprint.observeHost again i.publicKey
        (fails .observeAgain)).mapError fun _ => "generation_unavailable"
      ensure (first == some second) "interface_changed_during_sample"
      pure (some second)

/-- The response to `Operation::PeerStats`. -/
structure StatsResponse where
  interfaceGeneration : Option String
  peer : Option PeerStats
  deriving DecidableEq, Repr

/-- `execute` with `Operation::PeerStats`: the record of the generation store
afterwards and the response. -/
def peerStats (fails : Fault → Bool) (draw : String) (applied : Option String)
    (before dump again after : Option KernelInterface) (record : Option GenerationRecord) :
    Option GenerationRecord × Except String StatsResponse :=
  match verifyInterface fails applied before dump again with
  | .error e => (record, .error e)
  | .ok none => (record, .ok ⟨none, dump.bind KernelInterface.peer⟩)
  | .ok (some f) =>
      match GenerationStore.observe fails draw record f with
      | (record', .error _) => (record', .error "generation_unavailable")
      | (record', .ok g) =>
          (record',
            match InterfaceFingerprint.observeHost after f.publicKey (fails .observeAfter) with
            | .error _ => .error "generation_unavailable"
            | .ok last =>
                if last = f then .ok ⟨some g, dump.bind KernelInterface.peer⟩
                else .error "interface_changed_during_sample")

section Effect

variable {fails : Fault → Bool} {draw : String} {applied : Option String}
variable {before dump again after : Option KernelInterface} {record : Option GenerationRecord}

theorem Instance.fingerprint_inj {i j : Instance} {key : String}
    (h : i.fingerprint key = j.fingerprint key) : i = j :=
  congrArg InterfaceFingerprint.toInstance h

theorem observeHost_ok {now : Option KernelInterface} {key : String} {failing : Bool}
    {f : InterfaceFingerprint} (h : InterfaceFingerprint.observeHost now key failing = .ok f) :
    ∃ i, now = some i ∧ f = i.identity.fingerprint key := by
  unfold InterfaceFingerprint.observeHost at h
  obtain ⟨_, _, h⟩ := bind_eq_ok.mp h
  obtain ⟨_, _, h⟩ := bind_eq_ok.mp h
  cases now with
  | none =>
      cases h
  | some i =>
      cases h
      exact ⟨i, rfl, rfl⟩

theorem mapError_eq_ok {α : Type} {x : Except String α} {f : String → String} {a : α}
    (h : x.mapError f = .ok a) : x = .ok a := by
  cases x with
  | error e =>
      cases h
  | ok b =>
      exact h

/-- The interface was the same before the dump and after it. -/
theorem verifyInterface_ok {f : InterfaceFingerprint}
    (h : verifyInterface fails applied before dump again = .ok (some f)) :
    ∃ key i j, applied = some key ∧ before = some i ∧ again = some j ∧ j.identity = i.identity ∧
      f = i.identity.fingerprint key := by
  unfold verifyInterface at h
  obtain ⟨_, _, h⟩ := bind_eq_ok.mp h
  obtain ⟨first, hfirst, h⟩ := bind_eq_ok.mp h
  obtain ⟨_, _, h⟩ := bind_eq_ok.mp h
  cases dump with
  | none =>
      cases h
  | some d =>
      cases applied with
      | none =>
          cases h
      | some key =>
          obtain ⟨_, _, h⟩ := bind_eq_ok.mp h
          obtain ⟨_, hkey, h⟩ := bind_eq_ok.mp h
          obtain ⟨second, hsecond, h⟩ := bind_eq_ok.mp h
          obtain ⟨_, hsame, h⟩ := bind_eq_ok.mp h
          cases h
          have hkey : d.publicKey = key := by
            simpa using hkey
          have hsame : first = some f := by
            simpa using hsame
          subst hkey hsame
          obtain ⟨j, hagain, hj⟩ := observeHost_ok (mapError_eq_ok hsecond)
          have hbefore : InterfaceFingerprint.observeHost before d.publicKey
              (fails .observeBefore) = .ok f := by
            obtain ⟨f', hf', hf⟩ := bind_eq_ok.mp (mapError_eq_ok hfirst)
            cases hf
            exact hf'
          obtain ⟨i, hi, hf⟩ := observeHost_ok hbefore
          refine ⟨d.publicKey, i, j, rfl, hi, hagain, ?_, hf⟩
          exact Instance.fingerprint_inj (hj.symm.trans hf)

/-- What a statistics request does: either it leaves the record alone and reports no
generation, or it looks the interface up, which was the same before the dump and
after it. -/
theorem peerStats_cases (fails : Fault → Bool) (draw : String) (applied : Option String)
    (before dump again after : Option KernelInterface) (record : Option GenerationRecord) :
    ((peerStats fails draw applied before dump again after record).1 = record ∧
        ∀ r, (peerStats fails draw applied before dump again after record).2 = .ok r →
          r.interfaceGeneration = none) ∨
      ∃ key i j, applied = some key ∧ before = some i ∧ again = some j ∧
        j.identity = i.identity ∧
        (peerStats fails draw applied before dump again after record).1 =
          (GenerationStore.observe fails draw record (i.identity.fingerprint key)).1 ∧
        ∀ r, (peerStats fails draw applied before dump again after record).2 = .ok r →
          ∃ g, (GenerationStore.observe fails draw record (i.identity.fingerprint key)).2 = .ok g ∧
            r = ⟨some g, dump.bind KernelInterface.peer⟩ := by
  unfold peerStats
  cases hverify : verifyInterface fails applied before dump again with
  | error e =>
      refine Or.inl ⟨rfl, ?_⟩
      intro r hr
      cases hr
  | ok found =>
      cases found with
      | none =>
          refine Or.inl ⟨rfl, ?_⟩
          intro r hr
          cases hr
          rfl
      | some f =>
          obtain ⟨key, i, j, happlied, hbefore, hagain, hsame, rfl⟩ := verifyInterface_ok hverify
          refine Or.inr ⟨key, i, j, happlied, hbefore, hagain, hsame, ?_⟩
          rcases hobserve : GenerationStore.observe fails draw record
            (i.identity.fingerprint key) with ⟨record', e | g⟩
          · simp only [hobserve, true_and]
            intro r hr
            cases hr
          · simp only [hobserve, true_and]
            intro r hr
            refine ⟨g, rfl, ?_⟩
            split at hr
            · cases hr
            · split at hr
              · cases hr
                rfl
              · cases hr

end Effect

end HostAgent
end ZeroVpn
