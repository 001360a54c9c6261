import Mathlib.Algebra.Group.Nat.Defs
import Mathlib.Data.Finset.Basic
import Mathlib.Tactic.SplitIfs

/-!
# The in-memory address allocator

`crates/zerovpn-wg/src/ip_alloc.rs` over the networks of the `ipnetwork`
crate.  Addresses are 32-bit or 128-bit words; a network is an address with a
prefix length, and an address is named inside it by its offset from the
network address.

The IPv4 allocator is a bit set over all offsets; the IPv6 allocator is a
sparse set of offsets with a cursor.  A `Mutex` guards every field and each
method takes it once, so a method is one atomic step.

**Results.**
* `IpAllocator.allocate_spec`, `IpAllocator.tryReserve_spec`: an address that
  is handed out was free and is marked afterwards, and no other mark changes;
* `IpAllocator.markAllocated_spec`, `IpAllocator.release_spec`: what the two
  remaining methods do to the marks.
-/

namespace ZeroVpn
namespace Wg

/-- The errors of the allocator. -/
inductive AllocError where
  | exhausted
  | outOfRange
  | alreadyAllocated
  | reserved
  | familyMismatch (allocator ip : String)
  deriving DecidableEq, Repr

/-- An IP address of either family. -/
inductive IpAddr where
  | v4 (a : BitVec 32)
  | v6 (a : BitVec 128)
  deriving DecidableEq, Repr

/-- A network of `w`-bit addresses (`Ipv4Network`, `Ipv6Network`). -/
structure Network (w : Nat) where
  addr : BitVec w
  prefixLen : Nat
  prefixLen_le : prefixLen ≤ w
  deriving DecidableEq, Repr

abbrev Ipv4Network := Network 32
abbrev Ipv6Network := Network 128

/-- A network of either family. -/
inductive IpNetwork where
  | v4 (n : Ipv4Network)
  | v6 (n : Ipv6Network)
  deriving DecidableEq, Repr

namespace Network

theorem slash22 : 22 ≤ 32 := by decide

variable {w : Nat} (n : Network w)

/-- The number of host bits. -/
def hostBits : Nat := w - n.prefixLen

/-- The number of addresses. -/
def size : Nat := 2 ^ n.hostBits

/-- The network address: the host bits cleared. -/
def network : BitVec w := (n.addr >>> n.hostBits) <<< n.hostBits

/-- Whether an address lies in the network. -/
def contains (ip : BitVec w) : Bool :=
  ip >>> n.hostBits == n.addr >>> n.hostBits

/-- `index_of` / `offset_of`. -/
def indexOf (ip : BitVec w) : Except AllocError Nat :=
  if n.contains ip then .ok (ip.toNat - n.network.toNat) else .error .outOfRange

/-- `ip_at`. -/
def ipAt (idx : Nat) : BitVec w := n.network + BitVec.ofNat w idx

theorem hostBits_le : n.hostBits ≤ w := Nat.sub_le w n.prefixLen

theorem network_toNat :
    n.network.toNat = n.addr.toNat / n.size * n.size := by
  have hpos : 0 < 2 ^ n.hostBits := Nat.two_pow_pos _
  have hle : n.addr.toNat / 2 ^ n.hostBits * 2 ^ n.hostBits ≤ n.addr.toNat :=
    Nat.div_mul_le_self _ _
  have hlt : n.addr.toNat < 2 ^ w := n.addr.isLt
  simp only [network, size, BitVec.toNat_shiftLeft, BitVec.toNat_ushiftRight,
    Nat.shiftLeft_eq, Nat.shiftRight_eq_div_pow]
  exact Nat.mod_eq_of_lt (by omega)

theorem contains_iff (ip : BitVec w) :
    n.contains ip = true ↔ ip.toNat / n.size = n.addr.toNat / n.size := by
  simp only [contains, beq_iff_eq, ← BitVec.toNat_inj, BitVec.toNat_ushiftRight,
    Nat.shiftRight_eq_div_pow, size]

/-- An address of the network is the network address plus its offset. -/
theorem toNat_of_contains {ip : BitVec w} (h : n.contains ip = true) :
    ip.toNat = n.network.toNat + ip.toNat % n.size := by
  rw [contains_iff] at h
  rw [network_toNat, ← h, Nat.mul_comm]
  exact (Nat.div_add_mod _ _).symm

theorem indexOf_eq_ok {ip : BitVec w} {idx : Nat}
    (h : n.indexOf ip = .ok idx) :
    n.contains ip = true ∧ idx = ip.toNat % n.size := by
  unfold indexOf at h
  split_ifs at h with hc
  · refine ⟨hc, ?_⟩
    have hip := n.toNat_of_contains hc
    injection h with h
    omega

theorem indexOf_of_contains {ip : BitVec w} (h : n.contains ip = true) :
    n.indexOf ip = .ok (ip.toNat % n.size) := by
  have hip := n.toNat_of_contains h
  unfold indexOf
  rw [if_pos h]
  congr 1
  omega

/-- Offsets inside the network name addresses of the network. -/
theorem ipAt_toNat {idx : Nat} (h : idx < n.size) :
    (n.ipAt idx).toNat = n.network.toNat + idx := by
  have hsize : n.size ∣ 2 ^ w := Nat.pow_dvd_pow 2 n.hostBits_le
  have hlt : n.addr.toNat < 2 ^ w := n.addr.isLt
  have hbound : n.network.toNat + n.size ≤ 2 ^ w := by
    obtain ⟨k, hk⟩ := hsize
    rw [network_toNat, hk]
    have hdiv : n.addr.toNat / n.size < k := Nat.div_lt_of_lt_mul (hk ▸ hlt)
    calc n.addr.toNat / n.size * n.size + n.size
        = (n.addr.toNat / n.size + 1) * n.size := by rw [Nat.add_mul, Nat.one_mul]
      _ ≤ k * n.size := Nat.mul_le_mul_right _ hdiv
      _ = n.size * k := Nat.mul_comm _ _
  simp only [ipAt, BitVec.toNat_add, BitVec.toNat_ofNat]
  rw [Nat.mod_eq_of_lt (show idx < 2 ^ w by omega), Nat.mod_eq_of_lt (by omega)]

theorem indexOf_ipAt {idx : Nat} (h : idx < n.size) :
    n.indexOf (n.ipAt idx) = .ok idx := by
  have hto := n.ipAt_toNat h
  have hpos : 0 < n.size := Nat.two_pow_pos _
  have hcontains : n.contains (n.ipAt idx) = true := by
    rw [contains_iff, hto, network_toNat, Nat.add_comm,
      Nat.add_mul_div_right _ _ hpos, Nat.div_eq_of_lt h, Nat.zero_add]
  rw [n.indexOf_of_contains hcontains, hto, network_toNat, Nat.add_comm,
    Nat.add_mul_mod_self_right, Nat.mod_eq_of_lt h]

/-- Distinct addresses of a network have distinct offsets. -/
theorem indexOf_inj {ip ip' : BitVec w} {idx : Nat}
    (h : n.indexOf ip = .ok idx) (h' : n.indexOf ip' = .ok idx) :
    ip = ip' := by
  obtain ⟨hc, hidx⟩ := n.indexOf_eq_ok h
  obtain ⟨hc', hidx'⟩ := n.indexOf_eq_ok h'
  apply BitVec.eq_of_toNat_eq
  rw [n.toNat_of_contains hc, n.toNat_of_contains hc', ← hidx, ← hidx']

/-- Whether the offset of an address is in a set of offsets. -/
def marked (s : Finset Nat) (ip : BitVec w) : Bool :=
  match n.indexOf ip with
  | .ok idx => decide (idx ∈ s)
  | .error _ => false

theorem marked_iff {s : Finset Nat} {ip : BitVec w} :
    n.marked s ip = true ↔ ∃ idx, n.indexOf ip = .ok idx ∧ idx ∈ s := by
  unfold marked
  cases h : n.indexOf ip with
  | ok idx =>
      simp
  | error e =>
      simp

theorem marked_insert {s : Finset Nat} {ip ip' : BitVec w} {idx : Nat}
    (h : n.indexOf ip = .ok idx) :
    n.marked (insert idx s) ip' = true ↔ n.marked s ip' = true ∨ ip' = ip := by
  simp only [marked_iff, Finset.mem_insert]
  constructor
  · rintro ⟨i, hi, rfl | hmem⟩
    · exact Or.inr (n.indexOf_inj hi h)
    · exact Or.inl ⟨i, hi, hmem⟩
  · rintro (⟨i, hi, hmem⟩ | rfl)
    · exact ⟨i, hi, Or.inr hmem⟩
    · exact ⟨idx, h, Or.inl rfl⟩

theorem marked_erase {s : Finset Nat} {ip ip' : BitVec w} {idx : Nat}
    (h : n.indexOf ip = .ok idx) :
    n.marked (s.erase idx) ip' = true ↔ n.marked s ip' = true ∧ ip' ≠ ip := by
  simp only [marked_iff, Finset.mem_erase]
  constructor
  · rintro ⟨i, hi, hne, hmem⟩
    refine ⟨⟨i, hi, hmem⟩, ?_⟩
    rintro rfl
    rw [h] at hi
    injection hi with hi
    exact hne hi.symm
  · rintro ⟨⟨i, hi, hmem⟩, hne⟩
    refine ⟨i, hi, ?_, hmem⟩
    rintro rfl
    exact hne (n.indexOf_inj hi h)

end Network

namespace IpNetwork

/-- Whether an address lies in the network; families never mix. -/
def contains : IpNetwork → IpAddr → Bool
  | .v4 n, .v4 a => n.contains a
  | .v6 n, .v6 a => n.contains a
  | .v4 _, .v6 _ => false
  | .v6 _, .v4 _ => false

/-- The network address, the gateway and, of an IPv4 network, the broadcast
address. -/
def reserved : IpNetwork → IpAddr → Bool
  | .v4 n, .v4 ip =>
      match n.indexOf ip with
      | .ok idx => idx == 0 || idx == 1 || idx == n.size - 1
      | .error _ => false
  | .v6 n, .v6 ip =>
      match n.indexOf ip with
      | .ok offset => decide (offset < 2)
      | .error _ => false
  | .v4 _, .v6 _ => false
  | .v6 _, .v4 _ => false

end IpNetwork

section Scan

/-- The upward scan both allocators share: the first free offset among the
`left` offsets from `idx` on. -/
def nextFree (marked : Finset Nat) : (left idx : Nat) → Option Nat
  | 0, _ => none
  | left + 1, idx =>
      if idx ∈ marked then nextFree marked left (idx + 1) else some idx

theorem nextFree_eq_some {marked : Finset Nat} {left idx i : Nat}
    (h : nextFree marked left idx = some i) :
    i ∉ marked ∧ idx ≤ i ∧ i < idx + left := by
  induction left generalizing idx with
  | zero =>
      simp [nextFree] at h
  | succ left ih =>
      unfold nextFree at h
      split_ifs at h with hmem
      · obtain ⟨hfree, hge, hlt⟩ := ih h
        exact ⟨hfree, by omega, by omega⟩
      · injection h with h
        subst h
        exact ⟨hmem, by omega, by omega⟩

end Scan

/-- `V4Allocator`: one bit per offset. -/
structure V4Allocator where
  network : Ipv4Network
  bits : Finset Nat
  deriving DecidableEq

namespace V4Allocator

/-- Network address, broadcast address and gateway are marked from the start. -/
def new (network : Ipv4Network) : V4Allocator where
  network := network
  bits :=
    insert 0 ((if 1 < network.size then {network.size - 1} else ∅) ∪
      (if 2 < network.size then {1} else ∅))

def markAllocated (a : V4Allocator) (ip : BitVec 32) :
    V4Allocator × Except AllocError Unit :=
  match a.network.indexOf ip with
  | .ok idx => ({ a with bits := insert idx a.bits }, .ok ())
  | .error e => (a, .error e)

def allocate (a : V4Allocator) : V4Allocator × Except AllocError (BitVec 32) :=
  match nextFree a.bits a.network.size 0 with
  | some idx => ({ a with bits := insert idx a.bits }, .ok (a.network.ipAt idx))
  | none => (a, .error .exhausted)

def release (a : V4Allocator) (ip : BitVec 32) :
    V4Allocator × Except AllocError Unit :=
  match a.network.indexOf ip with
  | .ok idx => ({ a with bits := a.bits.erase idx }, .ok ())
  | .error e => (a, .error e)

def tryReserve (a : V4Allocator) (ip : BitVec 32) :
    V4Allocator × Except AllocError Unit :=
  match a.network.indexOf ip with
  | .ok idx =>
      if idx = 0 ∨ idx = 1 ∨ idx = a.network.size - 1 then (a, .error .reserved)
      else if idx ∈ a.bits then (a, .error .alreadyAllocated)
      else ({ a with bits := insert idx a.bits }, .ok ())
  | .error e => (a, .error e)

end V4Allocator

/-- `V6Allocator`: a sparse set of offsets and a cursor. -/
structure V6Allocator where
  network : Ipv6Network
  allocated : Finset Nat
  cursor : Nat
  deriving DecidableEq

namespace V6Allocator

/-- `u128::saturating_add(1)`. -/
def saturatingSucc (offset : Nat) : Nat := min (offset + 1) (2 ^ 128 - 1)

/-- The number of addresses when it fits into a `u128`.  The source stores it
at construction and never changes it. -/
def totalOf (network : Ipv6Network) : Option Nat :=
  if 128 ≤ network.hostBits then none else some (2 ^ network.hostBits)

/-- Network address and gateway are marked from the start. -/
def new (network : Ipv6Network) : V6Allocator where
  network := network
  allocated :=
    insert 0 (match totalOf network with
      | some total => if 1 < total then {1} else ∅
      | none => {1})
  cursor := 2

/-- The cursor after an offset was observed to be taken. -/
def dragCursor (a : V6Allocator) (offset : Nat) : Nat :=
  if a.cursor ≤ offset then saturatingSucc offset else a.cursor

def markAllocated (a : V6Allocator) (ip : BitVec 128) :
    V6Allocator × Except AllocError Unit :=
  match a.network.indexOf ip with
  | .ok offset =>
      ({ a with
          allocated := insert offset a.allocated
          cursor := a.dragCursor offset }, .ok ())
  | .error e => (a, .error e)

/--
The scan from the cursor.  In a subnet without a `total` the cursor saturates
at the last offset, so the loop never ends once every offset from the cursor
on is taken; `none` is that case.
-/
def allocate (a : V6Allocator) :
    V6Allocator × Option (Except AllocError (BitVec 128)) :=
  match totalOf a.network with
  | some total =>
      match nextFree a.allocated (total - a.cursor) a.cursor with
      | some offset =>
          ({ a with
              allocated := insert offset a.allocated
              cursor := saturatingSucc offset },
            some (.ok (a.network.ipAt offset)))
      | none => ({ a with cursor := max a.cursor total }, some (.error .exhausted))
  | none =>
      match nextFree a.allocated (2 ^ 128 - a.cursor) a.cursor with
      | some offset =>
          ({ a with
              allocated := insert offset a.allocated
              cursor := saturatingSucc offset },
            some (.ok (a.network.ipAt offset)))
      | none => (a, none)

def release (a : V6Allocator) (ip : BitVec 128) :
    V6Allocator × Except AllocError Unit :=
  match a.network.indexOf ip with
  | .ok offset =>
      if offset < 2 then (a, .error .reserved)
      else ({ a with allocated := a.allocated.erase offset }, .ok ())
  | .error e => (a, .error e)

def tryReserve (a : V6Allocator) (ip : BitVec 128) :
    V6Allocator × Except AllocError Unit :=
  match a.network.indexOf ip with
  | .ok offset =>
      if offset = 0 ∨ offset = 1 then (a, .error .reserved)
      else if offset ∈ a.allocated then (a, .error .alreadyAllocated)
      else
        ({ a with
            allocated := insert offset a.allocated
            cursor := a.dragCursor offset }, .ok ())
  | .error e => (a, .error e)

end V6Allocator

/-- The allocator of one server. -/
inductive IpAllocator where
  | v4 (a : V4Allocator)
  | v6 (a : V6Allocator)
  deriving DecidableEq

namespace IpAllocator

def new : IpNetwork → IpAllocator
  | .v4 n => .v4 (V4Allocator.new n)
  | .v6 n => .v6 (V6Allocator.new n)

/-- The network an allocator serves. -/
def network : IpAllocator → IpNetwork
  | .v4 a => .v4 a.network
  | .v6 a => .v6 a.network

/-- Whether an address is marked allocated. -/
def holds : IpAllocator → IpAddr → Bool
  | .v4 a, .v4 ip => a.network.marked a.bits ip
  | .v6 a, .v6 ip => a.network.marked a.allocated ip
  | .v4 _, .v6 _ => false
  | .v6 _, .v4 _ => false

def allocate : IpAllocator → IpAllocator × Option (Except AllocError IpAddr)
  | .v4 a => (.v4 a.allocate.1, some (a.allocate.2.map .v4))
  | .v6 a => (.v6 a.allocate.1, a.allocate.2.map fun r => r.map .v6)

def release : IpAllocator → IpAddr → IpAllocator × Except AllocError Unit
  | .v4 a, .v4 ip => (.v4 (a.release ip).1, (a.release ip).2)
  | .v6 a, .v6 ip => (.v6 (a.release ip).1, (a.release ip).2)
  | .v4 a, .v6 _ => (.v4 a, .error (.familyMismatch "v4" "v6"))
  | .v6 a, .v4 _ => (.v6 a, .error (.familyMismatch "v6" "v4"))

def markAllocated : IpAllocator → IpAddr → IpAllocator × Except AllocError Unit
  | .v4 a, .v4 ip => (.v4 (a.markAllocated ip).1, (a.markAllocated ip).2)
  | .v6 a, .v6 ip => (.v6 (a.markAllocated ip).1, (a.markAllocated ip).2)
  | .v4 a, .v6 _ => (.v4 a, .error (.familyMismatch "v4" "v6"))
  | .v6 a, .v4 _ => (.v6 a, .error (.familyMismatch "v6" "v4"))

def tryReserve : IpAllocator → IpAddr → IpAllocator × Except AllocError Unit
  | .v4 a, .v4 ip => (.v4 (a.tryReserve ip).1, (a.tryReserve ip).2)
  | .v6 a, .v6 ip => (.v6 (a.tryReserve ip).1, (a.tryReserve ip).2)
  | .v4 a, .v6 _ => (.v4 a, .error (.familyMismatch "v4" "v6"))
  | .v6 a, .v4 _ => (.v6 a, .error (.familyMismatch "v6" "v4"))

@[simp] theorem network_new (n : IpNetwork) : (new n).network = n := by
  cases n <;> rfl

theorem network_contains_of_holds {a : IpAllocator} {ip : IpAddr}
    (h : a.holds ip = true) : a.network.contains ip = true := by
  cases a <;> cases ip <;>
    simp only [holds, network, IpNetwork.contains, Bool.false_eq_true] at h ⊢
  all_goals
    obtain ⟨idx, hidx, _⟩ := (Network.marked_iff _).mp h
    exact (Network.indexOf_eq_ok _ hidx).1

end IpAllocator

section Specifications

theorem V4Allocator.allocate_spec (a : V4Allocator) :
    (∃ idx, idx ∉ a.bits ∧ a.network.indexOf (a.network.ipAt idx) = .ok idx ∧
      a.allocate =
        ({ a with bits := insert idx a.bits }, .ok (a.network.ipAt idx))) ∨
    a.allocate = (a, .error .exhausted) := by
  unfold V4Allocator.allocate
  cases h : nextFree a.bits a.network.size 0 with
  | none =>
      exact Or.inr rfl
  | some idx =>
      obtain ⟨hfree, _, hlt⟩ := nextFree_eq_some h
      refine Or.inl ⟨idx, hfree, ?_, rfl⟩
      exact a.network.indexOf_ipAt (by omega)

theorem V6Allocator.allocate_spec (a : V6Allocator) :
    (∃ offset cursor, offset ∉ a.allocated ∧
      a.network.indexOf (a.network.ipAt offset) = .ok offset ∧
      a.allocate =
        ({ a with allocated := insert offset a.allocated, cursor := cursor },
          some (.ok (a.network.ipAt offset)))) ∨
    (∃ cursor, a.allocate = ({ a with cursor := cursor }, some (.error .exhausted))) ∨
    a.allocate = (a, none) := by
  have hbits : a.network.hostBits ≤ 128 := a.network.hostBits_le
  unfold V6Allocator.allocate V6Allocator.totalOf
  by_cases hinf : 128 ≤ a.network.hostBits
  · have hsize : a.network.size = 2 ^ 128 := by
      unfold Network.size
      rw [show a.network.hostBits = 128 by omega]
    simp only [if_pos hinf]
    cases h : nextFree a.allocated (2 ^ 128 - a.cursor) a.cursor with
    | none =>
        exact Or.inr (Or.inr rfl)
    | some offset =>
        obtain ⟨hfree, _, hlt⟩ := nextFree_eq_some h
        refine Or.inl ⟨offset, _, hfree, ?_, rfl⟩
        exact a.network.indexOf_ipAt (by omega)
  · simp only [if_neg hinf]
    cases h : nextFree a.allocated (2 ^ a.network.hostBits - a.cursor) a.cursor with
    | none =>
        exact Or.inr (Or.inl ⟨_, rfl⟩)
    | some offset =>
        obtain ⟨hfree, _, hlt⟩ := nextFree_eq_some h
        refine Or.inl ⟨offset, _, hfree, ?_, rfl⟩
        exact a.network.indexOf_ipAt (show offset < 2 ^ a.network.hostBits by omega)

namespace IpAllocator

/-- The marks after `allocate`: at most one address is added, it is the one
that is returned, and it was free. -/
theorem allocate_spec (a : IpAllocator) :
    a.allocate.1.network = a.network ∧
    ((∃ ip, a.allocate.2 = some (.ok ip) ∧ a.holds ip = false ∧
        ∀ ip', a.allocate.1.holds ip' = true ↔ a.holds ip' = true ∨ ip' = ip) ∨
      ((∀ ip, a.allocate.2 ≠ some (.ok ip)) ∧
        ∀ ip', a.allocate.1.holds ip' = a.holds ip')) := by
  cases a with
  | v4 a =>
      rcases a.allocate_spec with ⟨idx, hfree, hidx, h⟩ | h
      · refine ⟨by simp [allocate, network, h], Or.inl ⟨.v4 (a.network.ipAt idx), ?_, ?_, ?_⟩⟩
        · simp [allocate, h, Except.map]
        · simp [holds, Network.marked, hidx, hfree]
        · intro ip'
          cases ip' with
          | v4 ip' =>
              simpa [allocate, holds, h] using Network.marked_insert _ hidx
          | v6 ip' =>
              simp [allocate, holds]
      · refine ⟨by simp [allocate, network, h], Or.inr ⟨?_, ?_⟩⟩
        · simp [allocate, h, Except.map]
        · intro ip'
          cases ip' <;> simp [allocate, holds, h]
  | v6 a =>
      rcases a.allocate_spec with ⟨offset, cursor, hfree, hidx, h⟩ | ⟨cursor, h⟩ | h
      · refine ⟨by simp [allocate, network, h],
          Or.inl ⟨.v6 (a.network.ipAt offset), ?_, ?_, ?_⟩⟩
        · simp [allocate, h, Except.map]
        · simp [holds, Network.marked, hidx, hfree]
        · intro ip'
          cases ip' with
          | v4 ip' =>
              simp [allocate, holds]
          | v6 ip' =>
              simpa [allocate, holds, h] using Network.marked_insert _ hidx
      · refine ⟨by simp [allocate, network, h], Or.inr ⟨?_, ?_⟩⟩
        · simp [allocate, h, Except.map]
        · intro ip'
          cases ip' <;> simp [allocate, holds, h]
      · refine ⟨by simp [allocate, network, h], Or.inr ⟨?_, ?_⟩⟩
        · simp [allocate, h]
        · intro ip'
          cases ip' <;> simp [allocate, holds, h]

/-- The marks after `try_reserve`. -/
theorem tryReserve_spec (a : IpAllocator) (ip : IpAddr) :
    (a.tryReserve ip).1.network = a.network ∧
    (((a.tryReserve ip).2 = .ok () ∧ a.holds ip = false ∧
        ∀ ip', (a.tryReserve ip).1.holds ip' = true ↔ a.holds ip' = true ∨ ip' = ip) ∨
      ((a.tryReserve ip).2 ≠ .ok () ∧ (a.tryReserve ip).1 = a)) := by
  rcases a with a | a <;> rcases ip with ip | ip
  · cases hidx : a.network.indexOf ip with
    | error e =>
        simp [tryReserve, V4Allocator.tryReserve, network, hidx]
    | ok idx =>
        by_cases hres : idx = 0 ∨ idx = 1 ∨ idx = a.network.size - 1
        · simp [tryReserve, V4Allocator.tryReserve, network, hidx, hres]
        · by_cases hmem : idx ∈ a.bits
          · simp [tryReserve, V4Allocator.tryReserve, network, hidx, hres, hmem]
          · refine ⟨?_, Or.inl ⟨?_, ?_, ?_⟩⟩
            · simp [tryReserve, V4Allocator.tryReserve, network, hidx, hres, hmem]
            · simp [tryReserve, V4Allocator.tryReserve, hidx, hres, hmem]
            · simp [holds, Network.marked, hidx, hmem]
            · intro ip'
              cases ip' with
              | v4 ip' =>
                  simpa [tryReserve, V4Allocator.tryReserve, holds, hidx, hres, hmem]
                    using Network.marked_insert _ hidx
              | v6 ip' =>
                  simp [tryReserve, holds]
  · simp [tryReserve, network]
  · simp [tryReserve, network]
  · cases hidx : a.network.indexOf ip with
    | error e =>
        simp [tryReserve, V6Allocator.tryReserve, network, hidx]
    | ok offset =>
        by_cases hres : offset = 0 ∨ offset = 1
        · simp [tryReserve, V6Allocator.tryReserve, network, hidx, hres]
        · by_cases hmem : offset ∈ a.allocated
          · simp [tryReserve, V6Allocator.tryReserve, network, hidx, hres, hmem]
          · refine ⟨?_, Or.inl ⟨?_, ?_, ?_⟩⟩
            · simp [tryReserve, V6Allocator.tryReserve, network, hidx, hres, hmem]
            · simp [tryReserve, V6Allocator.tryReserve, hidx, hres, hmem]
            · simp [holds, Network.marked, hidx, hmem]
            · intro ip'
              cases ip' with
              | v4 ip' =>
                  simp [tryReserve, holds]
              | v6 ip' =>
                  simpa [tryReserve, V6Allocator.tryReserve, holds, hidx, hres, hmem]
                    using Network.marked_insert _ hidx

/-- Seeding marks every address of the network it is given. -/
theorem markAllocated_spec (a : IpAllocator) (ip : IpAddr) :
    (a.markAllocated ip).1.network = a.network ∧
    (a.network.contains ip = true → (a.markAllocated ip).1.holds ip = true) ∧
    ∀ ip', a.holds ip' = true → (a.markAllocated ip).1.holds ip' = true := by
  rcases a with a | a <;> rcases ip with ip | ip
  · cases hidx : a.network.indexOf ip with
    | error e =>
        refine ⟨by simp [markAllocated, V4Allocator.markAllocated, network, hidx], ?_, ?_⟩
        · intro hc
          rw [Network.indexOf_of_contains _ hc] at hidx
          cases hidx
        · simp [markAllocated, V4Allocator.markAllocated, hidx]
    | ok idx =>
        refine ⟨by simp [markAllocated, V4Allocator.markAllocated, network, hidx], ?_, ?_⟩
        · intro _
          simpa [markAllocated, V4Allocator.markAllocated, holds, hidx]
            using (Network.marked_insert _ hidx).mpr (Or.inr rfl)
        · intro ip' h
          cases ip' with
          | v4 ip' =>
              simpa [markAllocated, V4Allocator.markAllocated, holds, hidx]
                using (Network.marked_insert _ hidx).mpr (Or.inl h)
          | v6 ip' =>
              simp [holds] at h
  · exact ⟨rfl, by simp [network, IpNetwork.contains], fun _ h => h⟩
  · exact ⟨rfl, by simp [network, IpNetwork.contains], fun _ h => h⟩
  · cases hidx : a.network.indexOf ip with
    | error e =>
        refine ⟨by simp [markAllocated, V6Allocator.markAllocated, network, hidx], ?_, ?_⟩
        · intro hc
          rw [Network.indexOf_of_contains _ hc] at hidx
          cases hidx
        · simp [markAllocated, V6Allocator.markAllocated, hidx]
    | ok offset =>
        refine ⟨by simp [markAllocated, V6Allocator.markAllocated, network, hidx], ?_, ?_⟩
        · intro _
          simpa [markAllocated, V6Allocator.markAllocated, holds, hidx]
            using (Network.marked_insert _ hidx).mpr (Or.inr rfl)
        · intro ip' h
          cases ip' with
          | v4 ip' =>
              simp [holds] at h
          | v6 ip' =>
              simpa [markAllocated, V6Allocator.markAllocated, holds, hidx]
                using (Network.marked_insert _ hidx).mpr (Or.inl h)

/-- A release takes at most the mark of the address it names. -/
theorem release_spec (a : IpAllocator) (ip : IpAddr) :
    (a.release ip).1.network = a.network ∧
    ∀ ip', a.holds ip' = true → ip' ≠ ip → (a.release ip).1.holds ip' = true := by
  rcases a with a | a <;> rcases ip with ip | ip
  · cases hidx : a.network.indexOf ip with
    | error e =>
        refine ⟨by simp [release, V4Allocator.release, network, hidx], ?_⟩
        intro ip' h _
        simpa [release, V4Allocator.release, hidx] using h
    | ok idx =>
        refine ⟨by simp [release, V4Allocator.release, network, hidx], ?_⟩
        intro ip' h hne
        cases ip' with
        | v4 ip' =>
            have hne' : ip' ≠ ip := fun heq => hne (congrArg IpAddr.v4 heq)
            simpa [release, V4Allocator.release, holds, hidx]
              using (Network.marked_erase _ hidx).mpr ⟨h, hne'⟩
        | v6 ip' =>
            simp [holds] at h
  · exact ⟨rfl, fun _ h _ => h⟩
  · exact ⟨rfl, fun _ h _ => h⟩
  · cases hidx : a.network.indexOf ip with
    | error e =>
        refine ⟨by simp [release, V6Allocator.release, network, hidx], ?_⟩
        intro ip' h _
        simpa [release, V6Allocator.release, hidx] using h
    | ok offset =>
        by_cases hres : offset < 2
        · refine ⟨by simp [release, V6Allocator.release, network, hidx, hres], ?_⟩
          intro ip' h _
          simpa [release, V6Allocator.release, hidx, hres] using h
        · refine ⟨by simp [release, V6Allocator.release, network, hidx, hres], ?_⟩
          intro ip' h hne
          cases ip' with
          | v4 ip' =>
              simp [holds] at h
          | v6 ip' =>
              have hne' : ip' ≠ ip := fun heq => hne (congrArg IpAddr.v6 heq)
              simpa [release, V6Allocator.release, holds, hidx, hres]
                using (Network.marked_erase _ hidx).mpr ⟨h, hne'⟩

/-- A new allocator marks reserved addresses only. -/
theorem reserved_of_holds_new {n : IpNetwork} {ip : IpAddr} (h : (new n).holds ip = true) :
    n.reserved ip = true := by
  rcases n with n | n <;> rcases ip with ip | ip
  · obtain ⟨idx, hidx, hmem⟩ := (Network.marked_iff _).mp h
    change n.indexOf ip = .ok idx at hidx
    simp only [IpNetwork.reserved, hidx]
    simp only [V4Allocator.new, Finset.mem_insert, Finset.mem_union] at hmem
    rcases hmem with rfl | hlast | hgateway
    · rfl
    · split_ifs at hlast
      · simp [Finset.mem_singleton.mp hlast]
      · simp at hlast
    · split_ifs at hgateway
      · simp [Finset.mem_singleton.mp hgateway]
      · simp at hgateway
  · simp [new, holds] at h
  · simp [new, holds] at h
  · obtain ⟨offset, hidx, hmem⟩ := (Network.marked_iff _).mp h
    change n.indexOf ip = .ok offset at hidx
    simp only [IpNetwork.reserved, hidx, decide_eq_true_eq]
    simp only [V6Allocator.new, Finset.mem_insert] at hmem
    rcases hmem with rfl | hgateway
    · omega
    · split at hgateway
      · split_ifs at hgateway
        · rw [Finset.mem_singleton.mp hgateway]
          omega
        · simp at hgateway
      · rw [Finset.mem_singleton.mp hgateway]
        omega

/-- Seeding adds at most the mark of the address it is given. -/
theorem of_holds_markAllocated {a : IpAllocator} {ip ip' : IpAddr}
    (h : (a.markAllocated ip).1.holds ip' = true) : a.holds ip' = true ∨ ip' = ip := by
  rcases a with a | a <;> rcases ip with ip | ip
  · cases hidx : a.network.indexOf ip with
    | error e =>
        simp only [markAllocated, V4Allocator.markAllocated, hidx] at h
        exact Or.inl h
    | ok idx =>
        cases ip' with
        | v4 ip' =>
            simp only [markAllocated, V4Allocator.markAllocated, hidx, holds] at h
            rcases (Network.marked_insert _ hidx).mp h with hold | rfl
            · exact Or.inl hold
            · exact Or.inr rfl
        | v6 ip' =>
            simp [markAllocated, holds] at h
  · exact Or.inl h
  · exact Or.inl h
  · cases hidx : a.network.indexOf ip with
    | error e =>
        simp only [markAllocated, V6Allocator.markAllocated, hidx] at h
        exact Or.inl h
    | ok offset =>
        cases ip' with
        | v4 ip' =>
            simp [markAllocated, holds] at h
        | v6 ip' =>
            simp only [markAllocated, V6Allocator.markAllocated, hidx, holds] at h
            rcases (Network.marked_insert _ hidx).mp h with hold | rfl
            · exact Or.inl hold
            · exact Or.inr rfl

/-- After a release the address is free, unless it is reserved. -/
theorem of_holds_release {a : IpAllocator} {ip ip' : IpAddr}
    (h : (a.release ip).1.holds ip' = true) :
    a.holds ip' = true ∧ (ip' = ip → a.network.reserved ip' = true) := by
  rcases a with a | a <;> rcases ip with ip | ip
  · cases hidx : a.network.indexOf ip with
    | error e =>
        simp only [release, V4Allocator.release, hidx] at h
        refine ⟨h, ?_⟩
        rintro rfl
        obtain ⟨idx, hmarked, _⟩ := (Network.marked_iff _).mp h
        rw [hidx] at hmarked
        cases hmarked
    | ok idx =>
        cases ip' with
        | v4 ip' =>
            simp only [release, V4Allocator.release, hidx, holds] at h
            obtain ⟨hold, hne⟩ := (Network.marked_erase _ hidx).mp h
            exact ⟨hold, fun heq => absurd (IpAddr.v4.inj heq) hne⟩
        | v6 ip' =>
            simp [release, holds] at h
  · refine ⟨h, ?_⟩
    rintro rfl
    simp [release, holds] at h
  · refine ⟨h, ?_⟩
    rintro rfl
    simp [release, holds] at h
  · cases hidx : a.network.indexOf ip with
    | error e =>
        simp only [release, V6Allocator.release, hidx] at h
        refine ⟨h, ?_⟩
        rintro rfl
        obtain ⟨offset, hmarked, _⟩ := (Network.marked_iff _).mp h
        rw [hidx] at hmarked
        cases hmarked
    | ok offset =>
        by_cases hreserved : offset < 2
        · simp only [release, V6Allocator.release, hidx, hreserved, if_true] at h
          refine ⟨h, ?_⟩
          rintro rfl
          simpa [network, IpNetwork.reserved, hidx] using hreserved
        · cases ip' with
          | v4 ip' =>
              simp [release, holds] at h
          | v6 ip' =>
              simp only [release, V6Allocator.release, hidx, hreserved, if_false, holds] at h
              obtain ⟨hold, hne⟩ := (Network.marked_erase _ hidx).mp h
              exact ⟨hold, fun heq => absurd (IpAddr.v6.inj heq) hne⟩

end IpAllocator

end Specifications

end Wg
end ZeroVpn
