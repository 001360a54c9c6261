import ZeroVpn.Wg.IpAlloc
import ZeroVpn.Library.Machine

/-!
# Runs of the address allocator

The methods of an `IpAllocator` are called in any order and with any
addresses.  `Tracked.held` is not part of the program: it records the addresses
that were marked, allocated or reserved and not released since, as the answers
of the methods tell it.

The IPv4 allocator frees every address that it is asked to release, the
reserved ones included, and may hand them out afterwards.  The IPv6 allocator
guards them, but its scan starts at a cursor that never moves back, so it does
not find an address that became free below it; in the network of all addresses
the cursor stays at the last one, and the scan does not end.
-/

namespace ZeroVpn

open Library

namespace Wg

/-- The calls of an allocator. -/
inductive AllocOp where
  | markAllocated (ip : IpAddr)
  | allocate
  | tryReserve (ip : IpAddr)
  | release (ip : IpAddr)
  deriving DecidableEq

/-- The address that a call hands out. -/
def AllocOp.handsOut (a : IpAllocator) : AllocOp → Option IpAddr
  | allocate =>
      match a.allocate.2 with
      | some (.ok ip) => some ip
      | _ => none
  | tryReserve ip =>
      match (a.tryReserve ip).2 with
      | .ok () => some ip
      | .error _ => none
  | markAllocated _ | release _ => none

/-- An allocator and the addresses that are held. -/
structure Tracked where
  allocator : IpAllocator
  held : Finset IpAddr

namespace Tracked

def start (n : IpNetwork) : Tracked where
  allocator := .new n
  held := ∅

def step (s : Tracked) : AllocOp → Tracked
  | .markAllocated ip =>
      { allocator := (s.allocator.markAllocated ip).1
        held :=
          match (s.allocator.markAllocated ip).2 with
          | .ok () => insert ip s.held
          | .error _ => s.held }
  | .allocate =>
      { allocator := s.allocator.allocate.1
        held :=
          match s.allocator.allocate.2 with
          | some (.ok ip) => insert ip s.held
          | _ => s.held }
  | .tryReserve ip =>
      { allocator := (s.allocator.tryReserve ip).1
        held :=
          match (s.allocator.tryReserve ip).2 with
          | .ok () => insert ip s.held
          | .error _ => s.held }
  | .release ip =>
      { allocator := (s.allocator.release ip).1
        held :=
          match (s.allocator.release ip).2 with
          | .ok () => s.held.erase ip
          | .error _ => s.held }

/-- The address is free: it lies in the network, is not reserved and is not held. -/
structure Free (s : Tracked) (ip : IpAddr) : Prop where
  inside : s.allocator.network.contains ip = true
  unreserved : s.allocator.network.reserved ip = false
  unheld : ip ∉ s.held

/-- Every address that the call hands out is free. -/
def HandsOutFree (s : Tracked) (op : AllocOp) : Prop :=
  ∀ ip, op.handsOut s.allocator = some ip → s.Free ip

/-- The call does not release a reserved address of an IPv4 network. -/
def KeepsReserved (s : Tracked) : AllocOp → Prop
  | .release ip =>
      match s.allocator with
      | .v4 a => (IpNetwork.v4 a.network).reserved ip = false
      | .v6 _ => True
  | _ => True

instance (s : Tracked) : (op : AllocOp) → Decidable (s.KeepsReserved op)
  | .release ip =>
      match s with
      | ⟨.v4 a, _⟩ => inferInstanceAs (Decidable ((IpNetwork.v4 a.network).reserved ip = false))
      | ⟨.v6 _, _⟩ => .isTrue trivial
  | .markAllocated _ | .allocate | .tryReserve _ => .isTrue trivial

end Tracked

namespace IpAllocator

/-- What `mark_allocated` does: it marks the address, or fails and changes nothing. -/
theorem markAllocated_cases (a : IpAllocator) (ip : IpAddr) :
    ((a.markAllocated ip).2 = .ok () ∧
        ∀ ip', (a.markAllocated ip).1.holds ip' = true ↔ a.holds ip' = true ∨ ip' = ip) ∨
      ((∃ e, (a.markAllocated ip).2 = .error e) ∧ (a.markAllocated ip).1 = a) := by
  rcases a with a | a <;> rcases ip with ip | ip
  · cases hidx : a.network.indexOf ip with
    | error e =>
        exact Or.inr ⟨⟨e, by simp [markAllocated, V4Allocator.markAllocated, hidx]⟩,
          by simp [markAllocated, V4Allocator.markAllocated, hidx]⟩
    | ok idx =>
        refine Or.inl ⟨by simp [markAllocated, V4Allocator.markAllocated, hidx], ?_⟩
        intro ip'
        cases ip' with
        | v4 ip' =>
            simpa [markAllocated, V4Allocator.markAllocated, holds, hidx]
              using Network.marked_insert _ hidx
        | v6 ip' =>
            simp [markAllocated, holds]
  · exact Or.inr ⟨⟨_, rfl⟩, rfl⟩
  · exact Or.inr ⟨⟨_, rfl⟩, rfl⟩
  · cases hidx : a.network.indexOf ip with
    | error e =>
        exact Or.inr ⟨⟨e, by simp [markAllocated, V6Allocator.markAllocated, hidx]⟩,
          by simp [markAllocated, V6Allocator.markAllocated, hidx]⟩
    | ok offset =>
        refine Or.inl ⟨by simp [markAllocated, V6Allocator.markAllocated, hidx], ?_⟩
        intro ip'
        cases ip' with
        | v4 ip' =>
            simp [markAllocated, holds]
        | v6 ip' =>
            simpa [markAllocated, V6Allocator.markAllocated, holds, hidx]
              using Network.marked_insert _ hidx

/-- What `release` does: it takes the mark of the address, or fails and changes nothing. -/
theorem release_cases (a : IpAllocator) (ip : IpAddr) :
    ((a.release ip).2 = .ok () ∧
        ∀ ip', (a.release ip).1.holds ip' = true ↔ a.holds ip' = true ∧ ip' ≠ ip) ∨
      ((∃ e, (a.release ip).2 = .error e) ∧ (a.release ip).1 = a) := by
  rcases a with a | a <;> rcases ip with ip | ip
  · cases hidx : a.network.indexOf ip with
    | error e =>
        exact Or.inr ⟨⟨e, by simp [release, V4Allocator.release, hidx]⟩,
          by simp [release, V4Allocator.release, hidx]⟩
    | ok idx =>
        refine Or.inl ⟨by simp [release, V4Allocator.release, hidx], ?_⟩
        intro ip'
        cases ip' with
        | v4 ip' =>
            simpa [release, V4Allocator.release, holds, hidx] using Network.marked_erase _ hidx
        | v6 ip' =>
            simp [release, holds]
  · exact Or.inr ⟨⟨_, rfl⟩, rfl⟩
  · exact Or.inr ⟨⟨_, rfl⟩, rfl⟩
  · cases hidx : a.network.indexOf ip with
    | error e =>
        exact Or.inr ⟨⟨e, by simp [release, V6Allocator.release, hidx]⟩,
          by simp [release, V6Allocator.release, hidx]⟩
    | ok offset =>
        by_cases hres : offset < 2
        · exact Or.inr ⟨⟨.reserved, by simp [release, V6Allocator.release, hidx, hres]⟩,
            by simp [release, V6Allocator.release, hidx, hres]⟩
        · refine Or.inl ⟨by simp [release, V6Allocator.release, hidx, hres], ?_⟩
          intro ip'
          cases ip' with
          | v4 ip' =>
              simp [release, holds]
          | v6 ip' =>
              simpa [release, V6Allocator.release, holds, hidx, hres]
                using Network.marked_erase _ hidx

/-- The IPv6 allocator keeps the marks of the reserved addresses. -/
theorem release_v6_reserved {a : V6Allocator} {ip : IpAddr}
    (h : (IpNetwork.v6 a.network).reserved ip = true) :
    (IpAllocator.v6 a).release ip = (.v6 a, (IpAllocator.release (.v6 a) ip).2) := by
  rcases ip with ip | ip
  · rfl
  · cases hidx : a.network.indexOf ip with
    | error e =>
        simp [IpNetwork.reserved, hidx] at h
    | ok offset =>
        have hres : offset < 2 := by
          simpa [IpNetwork.reserved, hidx] using h
        simp [release, V6Allocator.release, hidx, hres]

theorem indexOf_lt {w : Nat} {n : Network w} {ip : BitVec w} {idx : Nat}
    (h : n.indexOf ip = .ok idx) : idx < n.size := by
  rw [(n.indexOf_eq_ok h).2]
  exact Nat.mod_lt _ (Nat.two_pow_pos _)

/-- A new allocator marks every reserved address. -/
theorem holds_new_of_reserved {n : IpNetwork} {ip : IpAddr} (h : n.reserved ip = true) :
    (new n).holds ip = true := by
  rcases n with n | n <;> rcases ip with ip | ip
  · cases hidx : n.indexOf ip with
    | error e =>
        simp [IpNetwork.reserved, hidx] at h
    | ok idx =>
        have hlt := indexOf_lt hidx
        refine (Network.marked_iff _).mpr ⟨idx, hidx, ?_⟩
        simp only [IpNetwork.reserved, hidx, Bool.or_eq_true, beq_iff_eq] at h
        simp only [V4Allocator.new, Finset.mem_insert, Finset.mem_union]
        by_cases hone : 1 < n.size
        · rw [if_pos hone]
          by_cases htwo : 2 < n.size
          · rw [if_pos htwo]
            simp only [Finset.mem_singleton]
            omega
          · simp only [Finset.mem_singleton]
            omega
        · left
          omega
  · cases h
  · cases h
  · cases hidx : n.indexOf ip with
    | error e =>
        simp [IpNetwork.reserved, hidx] at h
    | ok offset =>
        have hlt := indexOf_lt hidx
        refine (Network.marked_iff _).mpr ⟨offset, hidx, ?_⟩
        simp only [IpNetwork.reserved, hidx, decide_eq_true_eq] at h
        simp only [V6Allocator.new, V6Allocator.totalOf, Finset.mem_insert]
        by_cases hinf : 128 ≤ n.hostBits
        · simp only [if_pos hinf, Finset.mem_singleton]
          omega
        · simp only [if_neg hinf]
          have hsize : n.size = 2 ^ n.hostBits := rfl
          by_cases hone : 1 < 2 ^ n.hostBits
          · rw [if_pos hone, Finset.mem_singleton]
            omega
          · left
            omega

end IpAllocator

namespace Tracked

/-- What a call does to the marks and to the held addresses: both gain an address, or both
lose the one that is released, or nothing changes. -/
theorem step_cases (s : Tracked) (op : AllocOp) :
    (∃ ip, (∀ ip', (s.step op).allocator.holds ip' = true ↔
          s.allocator.holds ip' = true ∨ ip' = ip) ∧ (s.step op).held = insert ip s.held) ∨
      (∃ ip, op = .release ip ∧ (∀ ip', (s.step op).allocator.holds ip' = true ↔
          s.allocator.holds ip' = true ∧ ip' ≠ ip) ∧ (s.step op).held = s.held.erase ip) ∨
      (∀ ip', (s.step op).allocator.holds ip' = s.allocator.holds ip') ∧
        (s.step op).held = s.held := by
  cases op with
  | markAllocated ip =>
      rcases s.allocator.markAllocated_cases ip with ⟨hok, hholds⟩ | ⟨⟨e, he⟩, hsame⟩
      · exact Or.inl ⟨ip, hholds, by simp only [step, hok]⟩
      · refine Or.inr (Or.inr ⟨?_, by simp only [step, he]⟩)
        intro ip'
        simp only [step, hsame]
  | allocate =>
      obtain ⟨-, hcases⟩ := s.allocator.allocate_spec
      rcases hcases with ⟨ip, hok, -, hholds⟩ | ⟨hnone, hsame⟩
      · exact Or.inl ⟨ip, hholds, by simp only [step, hok]⟩
      · refine Or.inr (Or.inr ⟨hsame, ?_⟩)
        simp only [step]
  | tryReserve ip =>
      obtain ⟨-, hcases⟩ := s.allocator.tryReserve_spec ip
      rcases hcases with ⟨hok, -, hholds⟩ | ⟨hnot, hsame⟩
      · exact Or.inl ⟨ip, hholds, by simp only [step, hok]⟩
      · refine Or.inr (Or.inr ⟨?_, ?_⟩)
        · intro ip'
          simp only [step, hsame]
        · simp only [step]
          split
          · rename_i hok
            exact absurd hok hnot
          · rfl
  | release ip =>
      rcases s.allocator.release_cases ip with ⟨hok, hholds⟩ | ⟨⟨e, he⟩, hsame⟩
      · exact Or.inr (Or.inl ⟨ip, rfl, hholds, by simp only [step, hok]⟩)
      · refine Or.inr (Or.inr ⟨?_, by simp only [step, he]⟩)
        intro ip'
        simp only [step, hsame]

@[simp] theorem network_step (s : Tracked) (op : AllocOp) :
    (s.step op).allocator.network = s.allocator.network := by
  cases op with
  | markAllocated ip =>
      exact (s.allocator.markAllocated_spec ip).1
  | allocate =>
      exact s.allocator.allocate_spec.1
  | tryReserve ip =>
      exact (s.allocator.tryReserve_spec ip).1
  | release ip =>
      exact (s.allocator.release_spec ip).1

/-- The marks are the held addresses and, of the others, reserved ones only. -/
structure Agrees (n : IpNetwork) (s : Tracked) : Prop where
  network : s.allocator.network = n
  held : ∀ ip ∈ s.held, s.allocator.holds ip = true
  marked : ∀ ip, s.allocator.holds ip = true → n.reserved ip = true ∨ ip ∈ s.held

theorem agrees_start (n : IpNetwork) : Agrees n (start n) where
  network := IpAllocator.network_new n
  held := by
    intro ip hip
    cases hip
  marked := by
    intro ip hip
    exact Or.inl (IpAllocator.reserved_of_holds_new hip)

theorem Agrees.step {n : IpNetwork} {s : Tracked} (h : Agrees n s) (op : AllocOp) :
    Agrees n (s.step op) := by
  refine ⟨(network_step s op).trans h.network, ?_, ?_⟩
  · intro ip' hip'
    rcases s.step_cases op with ⟨ip, hholds, hheld⟩ | ⟨ip, -, hholds, hheld⟩ | ⟨hholds, hheld⟩
    · rw [hheld, Finset.mem_insert] at hip'
      rcases hip' with rfl | hip'
      · exact (hholds ip').mpr (Or.inr rfl)
      · exact (hholds ip').mpr (Or.inl (h.held ip' hip'))
    · rw [hheld, Finset.mem_erase] at hip'
      exact (hholds ip').mpr ⟨h.held ip' hip'.2, hip'.1⟩
    · rw [hheld] at hip'
      rw [hholds ip']
      exact h.held ip' hip'
  · intro ip' hmark
    rcases s.step_cases op with ⟨ip, hholds, hheld⟩ | ⟨ip, -, hholds, hheld⟩ | ⟨hholds, hheld⟩
    · rw [hheld, Finset.mem_insert]
      rcases (hholds ip').mp hmark with hold | rfl
      · rcases h.marked ip' hold with hres | hin
        · exact Or.inl hres
        · exact Or.inr (Or.inr hin)
      · exact Or.inr (Or.inl rfl)
    · obtain ⟨hold, hne⟩ := (hholds ip').mp hmark
      rw [hheld, Finset.mem_erase]
      rcases h.marked ip' hold with hres | hin
      · exact Or.inl hres
      · exact Or.inr ⟨hne, hin⟩
    · rw [hheld]
      rw [hholds ip'] at hmark
      exact h.marked ip' hmark

/-- Every reserved address is marked. -/
def Guards (s : Tracked) : Prop :=
  ∀ ip, s.allocator.network.reserved ip = true → s.allocator.holds ip = true

theorem Guards.step {s : Tracked} (h : s.Guards) {op : AllocOp} (hop : s.KeepsReserved op) :
    (s.step op).Guards := by
  intro ip' hres
  rw [network_step] at hres
  rcases s.step_cases op with ⟨ip, hholds, -⟩ | ⟨ip, rfl, hholds, -⟩ | ⟨hholds, -⟩
  · exact (hholds ip').mpr (Or.inl (h ip' hres))
  · refine (hholds ip').mpr ⟨h ip' hres, ?_⟩
    rintro rfl
    obtain ⟨allocator, held⟩ := s
    cases allocator with
    | v4 a =>
        have hfree : (IpNetwork.v4 a.network).reserved ip' = false := hop
        rw [show (IpNetwork.v4 a.network).reserved ip' = true from hres] at hfree
        cases hfree
    | v6 a =>
        -- the IPv6 allocator refuses, so the mark is still there
        have hkept : ((⟨.v6 a, held⟩ : Tracked).step (.release ip')).allocator = .v6 a := by
          simp only [Tracked.step]
          rw [IpAllocator.release_v6_reserved hres]
        have hmark := (hholds ip').mp (by rw [hkept]; exact h ip' hres)
        exact hmark.2 rfl
  · rw [hholds ip']
    exact h ip' hres

/-- While the reserved addresses are marked, an address that is handed out is free. -/
theorem handsOutFree {n : IpNetwork} {s : Tracked} (h : Agrees n s) (hguards : s.Guards)
    (op : AllocOp) : s.HandsOutFree op := by
  have hfree : ∀ ip, s.allocator.holds ip = false → s.allocator.network.contains ip = true →
      s.Free ip := by
    intro ip hnot hinside
    refine ⟨hinside, ?_, ?_⟩
    · refine Bool.eq_false_iff.mpr fun hres => ?_
      rw [hguards ip hres] at hnot
      cases hnot
    · intro hheld
      rw [h.held ip hheld] at hnot
      cases hnot
  intro ip hout
  cases op with
  | allocate =>
      obtain ⟨hnetwork, hcases⟩ := s.allocator.allocate_spec
      rcases hcases with ⟨ip', hok, hnot, hholds⟩ | ⟨hnone, -⟩
      · simp only [AllocOp.handsOut, hok, Option.some_inj] at hout
        subst hout
        refine hfree ip' hnot ?_
        rw [← hnetwork]
        exact IpAllocator.network_contains_of_holds ((hholds ip').mpr (Or.inr rfl))
      · simp only [AllocOp.handsOut] at hout
        cases hout
  | tryReserve ip' =>
      obtain ⟨hnetwork, hcases⟩ := s.allocator.tryReserve_spec ip'
      rcases hcases with ⟨hok, hnot, hholds⟩ | ⟨hnot, -⟩
      · simp only [AllocOp.handsOut, hok, Option.some_inj] at hout
        subst hout
        refine hfree ip' hnot ?_
        rw [← hnetwork]
        exact IpAllocator.network_contains_of_holds ((hholds ip').mpr (Or.inr rfl))
      · simp only [AllocOp.handsOut] at hout
        split at hout
        · rename_i hok
          exact absurd hok hnot
        · cases hout
  | markAllocated ip' =>
      cases hout
  | release ip' =>
      cases hout

/--
In every run in which no reserved address of an IPv4 network is released, every address that is
handed out lies in the network, is not reserved and is not held.
-/
theorem allocator_hands_out_free (n : IpNetwork) (ops : List AllocOp)
    (hrun : Along step KeepsReserved (start n) ops) :
    Along step HandsOutFree (start n) ops := by
  refine along_of_inv (fun s => Agrees n s ∧ s.Guards) ?_ ?_ ⟨agrees_start n, ?_⟩ hrun
  · rintro s op ⟨hagrees, hguards⟩ hop
    exact ⟨hagrees.step op, hguards.step hop⟩
  · rintro s op ⟨hagrees, hguards⟩ _
    exact handsOutFree hagrees hguards op
  · intro ip hres
    rw [show (start n).allocator.network = n from IpAllocator.network_new n] at hres
    exact IpAllocator.holds_new_of_reserved hres

/-- 10.10.0.0/29. -/
def sampleV4 : IpNetwork := .v4 ⟨0x0a0a0000, 29, by decide⟩

/-- Two addresses are allocated, one is released and one is reserved. -/
def sampleCalls : List AllocOp :=
  [.allocate, .allocate, .release (.v4 0x0a0a0002), .tryReserve (.v4 0x0a0a0005), .allocate]

theorem allocator_hands_out_free_sample :
    Along step HandsOutFree (start sampleV4) sampleCalls ∧
      (runEvents step (start sampleV4) sampleCalls).held =
        {.v4 0x0a0a0002, .v4 0x0a0a0003, .v4 0x0a0a0005} :=
  ⟨allocator_hands_out_free sampleV4 sampleCalls (by decide), by decide⟩

/-- The gateway 10.10.0.1 is released and then allocated. -/
theorem gateway_handed_out :
    ¬ Along step HandsOutFree (start sampleV4) [.release (.v4 0x0a0a0001), .allocate] := by
  rintro ⟨-, hsecond, -⟩
  have hfree := hsecond (.v4 0x0a0a0001) (by decide)
  have hreserved : ((start sampleV4).step (.release (.v4 0x0a0a0001))).allocator.network.reserved
      (.v4 0x0a0a0001) = true := by decide
  rw [hfree.unreserved] at hreserved
  cases hreserved

end Tracked

section Scan

variable {marked : Finset Nat} {left idx i : Nat}

theorem nextFree_eq_none :
    nextFree marked left idx = none ↔ ∀ j, idx ≤ j → j < idx + left → j ∈ marked := by
  induction left generalizing idx with
  | zero =>
      simp only [nextFree, true_iff]
      intro j hge hlt
      omega
  | succ left ih =>
      unfold nextFree
      split_ifs with hmem
      · rw [ih]
        constructor
        · intro h j hge hlt
          by_cases hj : j = idx
          · rw [hj]
            exact hmem
          · exact h j (by omega) (by omega)
        · intro h j hge hlt
          exact h j (by omega) (by omega)
      · simp only [false_iff]
        intro h
        exact hmem (h idx (Nat.le_refl _) (by omega))

end Scan

namespace V6Allocator

/-- The loop of `allocate`, with a bound on its rounds. -/
def allocateLoop : Nat → V6Allocator → Option (V6Allocator × Except AllocError (BitVec 128))
  | 0, _ => none
  | fuel + 1, a =>
      if (totalOf a.network).any (fun total => decide (total ≤ a.cursor)) then
        some (a, .error .exhausted)
      else if a.cursor ∈ a.allocated then
        allocateLoop fuel { a with cursor := saturatingSucc a.cursor }
      else
        some ({ a with
            allocated := insert a.cursor a.allocated
            cursor := saturatingSucc a.cursor }, .ok (a.network.ipAt a.cursor))

/-- The loop ends. -/
def Terminates (a : V6Allocator) : Prop := ∃ fuel, (allocateLoop fuel a).isSome = true

variable {a : V6Allocator}

theorem saturatingSucc_lt (offset : Nat) : saturatingSucc offset < 2 ^ 128 := by
  unfold saturatingSucc
  omega

theorem saturatingSucc_eq {offset : Nat} (h : offset + 1 < 2 ^ 128) :
    saturatingSucc offset = offset + 1 := by
  unfold saturatingSucc
  omega

/-- The loop finds the first free offset of the scan. -/
theorem loop_finds {left offset : Nat} (hfind : nextFree a.allocated left a.cursor = some offset)
    (htotal : ∀ total, totalOf a.network = some total → a.cursor + left ≤ total)
    (hmax : a.cursor + left ≤ 2 ^ 128) : a.Terminates := by
  induction left generalizing a with
  | zero =>
      cases hfind
  | succ left ih =>
      have hgo : (totalOf a.network).any (fun total => decide (total ≤ a.cursor)) = false := by
        cases h : totalOf a.network with
        | none =>
            rfl
        | some total =>
            have hle := htotal total h
            simp only [Option.any_some, decide_eq_false_iff_not]
            omega
      unfold nextFree at hfind
      split_ifs at hfind with hmem
      · have hlt := (nextFree_eq_some hfind).2
        have hnext : saturatingSucc a.cursor = a.cursor + 1 := saturatingSucc_eq (by omega)
        obtain ⟨fuel, hfuel⟩ := ih (a := { a with cursor := saturatingSucc a.cursor })
          (by rw [hnext]; exact hfind)
          (by intro total h; have := htotal total h; simp only [hnext]; omega)
          (by simp only [hnext]; omega)
        refine ⟨fuel + 1, ?_⟩
        simp only [allocateLoop, hgo, hmem, if_true]
        exact hfuel
      · refine ⟨1, ?_⟩
        simp [allocateLoop, hgo, hmem]

/-- The loop ends at the end of the network. -/
theorem loop_exhausts {total : Nat} (htotal : totalOf a.network = some total)
    (hmax : total < 2 ^ 128) : a.Terminates := by
  by_cases hend : total ≤ a.cursor
  · exact ⟨1, by simp [allocateLoop, htotal, hend]⟩
  · cases hfind : nextFree a.allocated (total - a.cursor) a.cursor with
    | some offset =>
        refine loop_finds hfind ?_ (by omega)
        intro total' h
        rw [htotal] at h
        cases h
        omega
    | none =>
        have hall := nextFree_eq_none.mp hfind
        -- every round moves the cursor by one
        have hrounds : ∀ n, ∀ b : V6Allocator, b.network = a.network → b.allocated = a.allocated →
            a.cursor ≤ b.cursor → total - b.cursor ≤ n → b.Terminates := by
          intro n
          induction n with
          | zero =>
              intro b hnet _ _ hn
              refine ⟨1, ?_⟩
              have hle : total ≤ b.cursor := by omega
              simp [allocateLoop, hnet, htotal, hle]
          | succ n ih =>
              intro b hnet halloc hcursor hn
              by_cases hle : total ≤ b.cursor
              · exact ⟨1, by simp [allocateLoop, hnet, htotal, hle]⟩
              · have hmem : b.cursor ∈ b.allocated := by
                  rw [halloc]
                  exact hall b.cursor hcursor (by omega)
                have hnext : saturatingSucc b.cursor = b.cursor + 1 :=
                  saturatingSucc_eq (by omega)
                obtain ⟨fuel, hfuel⟩ := ih { b with cursor := saturatingSucc b.cursor } hnet halloc
                  (by simp only [hnext]; omega) (by simp only [hnext]; omega)
                refine ⟨fuel + 1, ?_⟩
                simp only [allocateLoop, hnet, htotal, Option.any_some, hle, decide_false, hmem,
                  if_true]
                rw [← hnet]
                exact hfuel
        exact hrounds _ a rfl rfl (Nat.le_refl _) (Nat.le_refl _)

/-- Without a bound and without a free offset the cursor stops at the last offset, and the loop
goes on. -/
theorem loop_spins (htotal : totalOf a.network = none) (hcursor : a.cursor < 2 ^ 128)
    (hall : ∀ offset, a.cursor ≤ offset → offset < 2 ^ 128 → offset ∈ a.allocated) :
    ¬ a.Terminates := by
  rintro ⟨fuel, hfuel⟩
  induction fuel generalizing a with
  | zero =>
      cases hfuel
  | succ fuel ih =>
      have hmem := hall a.cursor (Nat.le_refl _) hcursor
      simp only [allocateLoop, htotal, Option.any_none, hmem, if_true] at hfuel
      refine ih (a := { a with cursor := saturatingSucc a.cursor }) htotal
        (saturatingSucc_lt a.cursor) ?_ hfuel
      intro offset hge hlt
      refine hall offset ?_ hlt
      simp only [saturatingSucc] at hge
      omega

/-- `none` is the loop that does not end. -/
theorem terminates_iff (hcursor : a.cursor < 2 ^ 128) : a.Terminates ↔ a.allocate.2 ≠ none := by
  unfold allocate
  cases htotal : totalOf a.network with
  | some total =>
      have hmax : total < 2 ^ 128 := by
        unfold totalOf at htotal
        split_ifs at htotal with hbits
        cases htotal
        exact Nat.pow_lt_pow_right (by omega) (by omega)
      simp only [loop_exhausts htotal hmax, true_iff]
      cases nextFree a.allocated (total - a.cursor) a.cursor <;> simp
  | none =>
      cases hfind : nextFree a.allocated (2 ^ 128 - a.cursor) a.cursor with
      | some offset =>
          have hends : a.Terminates := by
            refine loop_finds hfind ?_ (by omega)
            intro total h
            rw [htotal] at h
            cases h
          simp [hends]
      | none =>
          have hspins : ¬ a.Terminates := by
            refine loop_spins htotal hcursor fun offset hge hlt => ?_
            exact nextFree_eq_none.mp hfind offset hge (by omega)
          simp [hspins]

/-- Passing over a taken offset. -/
theorem allocate_skip (hgo : ∀ total, totalOf a.network = some total → a.cursor < total)
    (hmem : a.cursor ∈ a.allocated) (hcursor : a.cursor + 1 < 2 ^ 128) :
    a.allocate = allocate { a with cursor := a.cursor + 1 } ∨
      a.allocate.2 = none ∧ (allocate { a with cursor := a.cursor + 1 }).2 = none := by
  unfold allocate
  cases htotal : totalOf a.network with
  | some total =>
      have hlt := hgo total htotal
      have hleft : total - a.cursor = (total - (a.cursor + 1)) + 1 := by omega
      left
      simp only [hleft, nextFree, if_pos hmem]
      have hmax : max a.cursor total = max (a.cursor + 1) total := by omega
      rw [hmax]
  | none =>
      have hleft : 2 ^ 128 - a.cursor = (2 ^ 128 - (a.cursor + 1)) + 1 := by omega
      simp only [hleft, nextFree, if_pos hmem]
      cases nextFree a.allocated (2 ^ 128 - (a.cursor + 1)) (a.cursor + 1) <;> simp

/-- When the loop ends, it ends with the answer of `allocate`. -/
theorem allocate_of_loop {fuel : Nat} {b : V6Allocator} {r : Except AllocError (BitVec 128)}
    (hcursor : a.cursor < 2 ^ 128) (h : allocateLoop fuel a = some (b, r)) :
    a.allocate = (b, some r) := by
  induction fuel generalizing a with
  | zero =>
      cases h
  | succ fuel ih =>
      unfold allocateLoop at h
      split_ifs at h with hend hmem
      · cases htotal : totalOf a.network with
        | none =>
            simp [htotal] at hend
        | some total =>
            cases h
            have hle : total ≤ b.cursor := by
              simpa [htotal] using hend
            have hleft : total - b.cursor = 0 := by omega
            have hmax : max b.cursor total = b.cursor := by omega
            simp [allocate, htotal, hleft, nextFree, hmax]
      · have hgo : ∀ total, totalOf a.network = some total → a.cursor < total := by
          intro total htotal
          simpa [htotal] using hend
        have hrest := ih (saturatingSucc_lt a.cursor) h
        by_cases hlast : a.cursor + 1 < 2 ^ 128
        · rw [saturatingSucc_eq hlast] at hrest
          rcases allocate_skip hgo hmem hlast with hsame | ⟨-, hnone⟩
          · rw [hsame]
            exact hrest
          · rw [hrest] at hnone
            cases hnone
        · have hstay : saturatingSucc a.cursor = a.cursor := by
            unfold saturatingSucc
            omega
          rw [hstay] at hrest
          exact hrest
      · cases h
        cases htotal : totalOf a.network with
        | none =>
            have hleft : 2 ^ 128 - a.cursor = (2 ^ 128 - (a.cursor + 1)) + 1 := by omega
            unfold allocate
            rw [htotal]
            dsimp only
            rw [hleft, nextFree, if_neg hmem]
        | some total =>
            have hlt : a.cursor < total := by
              simpa [htotal] using hend
            have hleft : total - a.cursor = (total - (a.cursor + 1)) + 1 := by omega
            simp [allocate, htotal, hleft, nextFree, hmem]

end V6Allocator

/-- The call of `allocate` ends with the answer `r`. -/
def IpAllocator.Returns : IpAllocator → Except AllocError IpAddr → Prop
  | .v4 a, r => a.allocate.2.map .v4 = r
  | .v6 a, r => ∃ fuel b r', V6Allocator.allocateLoop fuel a = some (b, r') ∧ r'.map .v6 = r

namespace Tracked

/-- `allocate` ends, and finds the network exhausted only when no address is free. -/
structure AllocateComplete (s : Tracked) : Prop where
  ends : ∃ r, s.allocator.Returns r
  exhausted : s.allocator.Returns (.error .exhausted) → ∀ ip, ¬ s.Free ip

/-- The scan from the cursor sees a free address if there is one, and ends. -/
def CursorReaches : IpAllocator → Prop
  | .v4 _ => True
  | .v6 a =>
      (∃ offset, a.cursor ≤ offset ∧ offset < a.network.size ∧ offset ∉ a.allocated) ∨
        (a.network.prefixLen ≠ 0 ∧
          ∀ offset, 2 ≤ offset → offset < a.cursor → offset < a.network.size →
            offset ∈ a.allocated)

/-- The cursor is a `u128`. -/
def CursorFits : IpAllocator → Prop
  | .v4 _ => True
  | .v6 a => a.cursor < 2 ^ 128

instance : (a : IpAllocator) → Decidable (CursorFits a)
  | .v4 _ => .isTrue trivial
  | .v6 a => inferInstanceAs (Decidable (a.cursor < 2 ^ 128))

theorem cursorFits_step {s : Tracked} (h : CursorFits s.allocator) (op : AllocOp) :
    CursorFits (s.step op).allocator := by
  obtain ⟨allocator, held⟩ := s
  cases allocator with
  | v4 a =>
      cases op with
      | allocate =>
          trivial
      | markAllocated ip =>
          cases ip <;> trivial
      | tryReserve ip =>
          cases ip <;> trivial
      | release ip =>
          cases ip <;> trivial
  | v6 a =>
      have hdrag : ∀ offset, a.dragCursor offset < 2 ^ 128 := by
        intro offset
        unfold V6Allocator.dragCursor
        split_ifs
        · exact V6Allocator.saturatingSucc_lt offset
        · exact h
      cases op with
      | allocate =>
          simp only [step, IpAllocator.allocate, CursorFits, V6Allocator.allocate]
          split
          · rename_i total htotal
            have hmax : total < 2 ^ 128 := by
              unfold V6Allocator.totalOf at htotal
              split_ifs at htotal with hbits
              cases htotal
              exact Nat.pow_lt_pow_right (by omega) (by omega)
            split
            · exact V6Allocator.saturatingSucc_lt _
            · have hcursor : a.cursor < 2 ^ 128 := h
              simp only
              omega
          · split
            · exact V6Allocator.saturatingSucc_lt _
            · exact h
      | markAllocated ip =>
          cases ip with
          | v4 ip =>
              exact h
          | v6 ip =>
              simp only [step, IpAllocator.markAllocated, CursorFits, V6Allocator.markAllocated]
              split
              · exact hdrag _
              · exact h
      | tryReserve ip =>
          cases ip with
          | v4 ip =>
              exact h
          | v6 ip =>
              simp only [step, IpAllocator.tryReserve, CursorFits, V6Allocator.tryReserve]
              split
              · split_ifs
                · exact h
                · exact h
                · exact hdrag _
              · exact h
      | release ip =>
          cases ip with
          | v4 ip =>
              exact h
          | v6 ip =>
              simp only [step, IpAllocator.release, CursorFits, V6Allocator.release]
              split
              · split_ifs
                · exact h
                · exact h
              · exact h

theorem returns_iff {a : IpAllocator} (h : CursorFits a) {r : Except AllocError IpAddr} :
    a.Returns r ↔ a.allocate.2 = some r := by
  cases a with
  | v4 a =>
      simp [IpAllocator.Returns, IpAllocator.allocate]
  | v6 a =>
      simp only [IpAllocator.Returns, IpAllocator.allocate, Option.map_eq_some_iff]
      constructor
      · rintro ⟨fuel, b, r', hloop, rfl⟩
        exact ⟨r', by rw [V6Allocator.allocate_of_loop h hloop], rfl⟩
      · rintro ⟨r', hr', rfl⟩
        have hends : a.Terminates := by
          rw [V6Allocator.terminates_iff h, hr']
          exact Option.some_ne_none r'
        obtain ⟨fuel, hfuel⟩ := hends
        obtain ⟨⟨b, r''⟩, hloop⟩ := Option.isSome_iff_exists.mp hfuel
        have hsame := V6Allocator.allocate_of_loop h hloop
        rw [hsame] at hr'
        cases hr'
        exact ⟨fuel, b, r', hloop, rfl⟩

/-- The IPv4 allocator scans all addresses. -/
theorem complete_v4 {n : IpNetwork} {a : V4Allocator} {held : Finset IpAddr}
    (h : Agrees n ⟨.v4 a, held⟩) : AllocateComplete ⟨.v4 a, held⟩ where
  ends := ⟨_, rfl⟩
  exhausted := by
    rintro hreturns ip hfree
    have hnone : nextFree a.bits a.network.size 0 = none := by
      cases hfind : nextFree a.bits a.network.size 0 with
      | none =>
          rfl
      | some idx =>
          simp [IpAllocator.Returns, V4Allocator.allocate, hfind, Except.map] at hreturns
    have hall := nextFree_eq_none.mp hnone
    cases ip with
    | v6 ip =>
        cases hfree.inside
    | v4 ip =>
        have hidx := a.network.indexOf_of_contains hfree.inside
        have hmark : IpAllocator.holds (.v4 a) (.v4 ip) = true := by
          refine (Network.marked_iff _).mpr ⟨_, hidx, hall _ (Nat.zero_le _) ?_⟩
          rw [Nat.zero_add]
          exact Nat.mod_lt _ (Nat.two_pow_pos _)
        rcases h.marked _ hmark with hres | hheld
        · rw [← h.network, hfree.unreserved] at hres
          cases hres
        · exact hfree.unheld hheld

section V6

variable {n : IpNetwork} {a : V6Allocator} {held : Finset IpAddr}

/-- An unmarked offset above the gateway is a free address. -/
theorem free_of_offset (h : Agrees n ⟨.v6 a, held⟩) {offset : Nat} (hlow : 2 ≤ offset)
    (hsize : offset < a.network.size) (hnot : offset ∉ a.allocated) :
    Free ⟨.v6 a, held⟩ (.v6 (a.network.ipAt offset)) := by
  have hidx := a.network.indexOf_ipAt hsize
  refine ⟨(a.network.indexOf_eq_ok hidx).1, ?_, ?_⟩
  · simp only [IpAllocator.network, IpNetwork.reserved, hidx, decide_eq_false_iff_not]
    omega
  · intro hheld
    obtain ⟨idx, hidx', hmem⟩ := (Network.marked_iff _).mp (h.held _ hheld)
    rw [hidx] at hidx'
    cases hidx'
    exact hnot hmem

/-- A free address is an unmarked offset above the gateway. -/
theorem offset_of_free (h : Agrees n ⟨.v6 a, held⟩) {ip : IpAddr} (hfree : Free ⟨.v6 a, held⟩ ip) :
    ∃ offset, 2 ≤ offset ∧ offset < a.network.size ∧ offset ∉ a.allocated := by
  cases ip with
  | v4 ip =>
      cases hfree.inside
  | v6 ip =>
      have hidx := a.network.indexOf_of_contains hfree.inside
      refine ⟨ip.toNat % a.network.size, ?_, Nat.mod_lt _ (Nat.two_pow_pos _), ?_⟩
      · have hunreserved := hfree.unreserved
        simp only [IpAllocator.network, IpNetwork.reserved, hidx, decide_eq_false_iff_not]
          at hunreserved
        omega
      · intro hmem
        have hmark : IpAllocator.holds (.v6 a) (.v6 ip) = true :=
          (Network.marked_iff _).mpr ⟨_, hidx, hmem⟩
        rcases h.marked _ hmark with hres | hheld
        · rw [← h.network, hfree.unreserved] at hres
          cases hres
        · exact hfree.unheld hheld

theorem prefixLen_of_bits : 128 ≤ a.network.hostBits ↔ a.network.prefixLen = 0 := by
  have hle := a.network.prefixLen_le
  unfold Network.hostBits
  omega

/-- The answers of the IPv6 allocator. -/
theorem allocate_v6_cases (a : V6Allocator) :
    (∃ offset ip, a.cursor ≤ offset ∧ offset < a.network.size ∧ offset ∉ a.allocated ∧
        a.allocate.2 = some (.ok ip)) ∨
      ((∀ offset, a.cursor ≤ offset → offset < a.network.size → offset ∈ a.allocated) ∧
        a.allocate.2 = if a.network.prefixLen = 0 then none else some (.error .exhausted)) := by
  by_cases hinf : 128 ≤ a.network.hostBits
  · have hsize : a.network.size = 2 ^ 128 := by
      have hle := a.network.hostBits_le
      unfold Network.size
      rw [show a.network.hostBits = 128 by omega]
    have htotal : V6Allocator.totalOf a.network = none := by
      simp [V6Allocator.totalOf, hinf]
    rw [if_pos (prefixLen_of_bits.mp hinf)]
    simp only [V6Allocator.allocate, htotal]
    cases hfind : nextFree a.allocated (2 ^ 128 - a.cursor) a.cursor with
    | some offset =>
        obtain ⟨hfree, hge, hlt⟩ := nextFree_eq_some hfind
        exact Or.inl ⟨offset, _, hge, by omega, hfree, rfl⟩
    | none =>
        refine Or.inr ⟨fun offset hge hlt => ?_, rfl⟩
        exact nextFree_eq_none.mp hfind offset hge (by omega)
  · have htotal : V6Allocator.totalOf a.network = some a.network.size := by
      simp [V6Allocator.totalOf, hinf, Network.size]
    rw [if_neg fun hzero => hinf (prefixLen_of_bits.mpr hzero)]
    simp only [V6Allocator.allocate, htotal]
    cases hfind : nextFree a.allocated (a.network.size - a.cursor) a.cursor with
    | some offset =>
        obtain ⟨hfree, hge, hlt⟩ := nextFree_eq_some hfind
        exact Or.inl ⟨offset, _, hge, by omega, hfree, rfl⟩
    | none =>
        refine Or.inr ⟨fun offset hge hlt => ?_, rfl⟩
        exact nextFree_eq_none.mp hfind offset hge (by omega)

theorem complete_v6 (h : Agrees n ⟨.v6 a, held⟩) (hfits : CursorFits (.v6 a)) :
    AllocateComplete ⟨.v6 a, held⟩ ↔ CursorReaches (.v6 a) := by
  have hreturns : ∀ r, (IpAllocator.v6 a).Returns r ↔ (a.allocate.2.map fun r => r.map .v6) = some r :=
    fun r => returns_iff hfits
  rcases allocate_v6_cases a with ⟨offset, ip, hge, hlt, hfree, hok⟩ | ⟨hall, hanswer⟩
  · refine ⟨fun _ => Or.inl ⟨offset, hge, hlt, hfree⟩, fun _ => ⟨⟨.ok (.v6 ip), ?_⟩, ?_⟩⟩
    · rw [hreturns, hok]
      rfl
    · intro hex
      rw [hreturns, hok] at hex
      cases hex
  · by_cases hzero : a.network.prefixLen = 0
    · rw [if_pos hzero] at hanswer
      constructor
      · rintro ⟨⟨r, hr⟩, -⟩
        rw [hreturns, hanswer] at hr
        cases hr
      · rintro (⟨offset, hge, hlt, hfree⟩ | ⟨hne, -⟩)
        · exact absurd (hall offset hge hlt) hfree
        · exact absurd hzero hne
    · rw [if_neg hzero] at hanswer
      have hex : (IpAllocator.v6 a).Returns (.error .exhausted) := by
        rw [hreturns, hanswer]
        rfl
      constructor
      · rintro ⟨-, hnone⟩
        refine Or.inr ⟨hzero, fun offset hlow _ hlt => ?_⟩
        by_contra hnot
        exact hnone hex _ (free_of_offset h hlow hlt hnot)
      · rintro (⟨offset, hge, hlt, hfree⟩ | ⟨-, hbelow⟩)
        · exact absurd (hall offset hge hlt) hfree
        · refine ⟨⟨_, hex⟩, fun _ ip hfree => ?_⟩
          obtain ⟨offset, hlow, hlt, hnot⟩ := offset_of_free h hfree
          by_cases hge : a.cursor ≤ offset
          · exact hnot (hall offset hge hlt)
          · exact hnot (hbelow offset hlow (by omega) hlt)

end V6

/--
In every reachable state `allocate` ends, and finds the network exhausted only when no address is
free, exactly when the network is one of IPv4, or an address at or above the cursor is free, or
the network is not that of all IPv6 addresses and no address below the cursor is free.
-/
theorem allocate_complete_iff (n : IpNetwork) (ops : List AllocOp) :
    Always step (fun s => s.AllocateComplete ↔ CursorReaches s.allocator) (start n) ops := by
  refine always_of_inv (fun s => Agrees n s ∧ CursorFits s.allocator) ?_ ?_ ⟨agrees_start n, ?_⟩ ops
  · rintro s op ⟨hagrees, hfits⟩
    exact ⟨hagrees.step op, cursorFits_step hfits op⟩
  · rintro ⟨a | a, held⟩ ⟨hagrees, hfits⟩
    · exact iff_of_true (complete_v4 hagrees) trivial
    · exact complete_v6 hagrees hfits
  · cases n with
    | v4 n =>
        trivial
    | v6 n =>
        exact (by decide : 2 < 2 ^ 128)

/-- In fd00::/126 an address that was released is not found again; and after the last address of
the network of all addresses was marked, `allocate` does not end. -/
theorem free_address_not_found :
    let small := runEvents step (start (.v6 ⟨0xfd00 <<< 112, 126, by decide⟩))
      [.allocate, .allocate, .release (.v6 (0xfd00 <<< 112 ||| 2))]
    let whole := runEvents step (start (.v6 ⟨0, 0, by decide⟩))
      [.markAllocated (.v6 (BitVec.allOnes 128))]
    ¬ small.AllocateComplete ∧ ¬ whole.AllocateComplete := by
  refine ⟨fun h => ?_, fun h => ?_⟩
  · refine h.exhausted ((returns_iff (by decide)).mpr (by decide))
      (.v6 (0xfd00 <<< 112 ||| 2)) ⟨?_, ?_, ?_⟩ <;> decide
  · obtain ⟨r, hr⟩ := h.ends
    have hanswer := (returns_iff (by decide)).mp hr
    have hnone : (runEvents step (start (.v6 ⟨0, 0, by decide⟩))
        [.markAllocated (.v6 (BitVec.allOnes 128))]).allocator.allocate.2 = none := by
      decide
    rw [hnone] at hanswer
    cases hanswer

end Tracked

end Wg
end ZeroVpn
