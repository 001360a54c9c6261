import Mathlib.Data.List.Basic
import Mathlib.Tactic.Common

/-!
# Base64

The standard alphabet with padding.  A group of three bytes gives four sextets; at the
end two bytes give three and one byte gives two, with zeros in the bits that are left.

* `sextets_injective`: the sextets determine the bytes;
* `sextets_ofSextets`: every well-formed list of sextets comes from bytes.
-/

namespace ZeroVpn
namespace Library
namespace Base64

/-- The symbol of a sextet. -/
def symbol (s : Nat) : Char :=
  if s < 26 then Char.ofNat (65 + s)
  else if s < 52 then Char.ofNat (71 + s)
  else if s < 62 then Char.ofNat (s - 4)
  else if s = 62 then '+'
  else '/'

/-- The sextets of bytes. -/
def sextets : List UInt8 → List Nat
  | [] => []
  | [a] => [a.toNat / 4, a.toNat % 4 * 16]
  | [a, b] => [a.toNat / 4, a.toNat % 4 * 16 + b.toNat / 16, b.toNat % 16 * 4]
  | a :: b :: c :: rest =>
      a.toNat / 4 :: (a.toNat % 4 * 16 + b.toNat / 16) :: (b.toNat % 16 * 4 + c.toNat / 64) ::
        c.toNat % 64 :: sextets rest

/-- The encoding of bytes. -/
def encode (bytes : List UInt8) : List Char :=
  (sextets bytes).map symbol ++ List.replicate ((3 - bytes.length % 3) % 3) '='

/-- The bytes of sextets. -/
def ofSextets : List Nat → List UInt8
  | [] => []
  | [_] => []
  | [s, t] => [UInt8.ofNat (s * 4 + t / 16)]
  | [s, t, u] => [UInt8.ofNat (s * 4 + t / 16), UInt8.ofNat (t % 16 * 16 + u / 4)]
  | s :: t :: u :: v :: rest =>
      UInt8.ofNat (s * 4 + t / 16) :: UInt8.ofNat (t % 16 * 16 + u / 4) ::
        UInt8.ofNat (u % 4 * 64 + v) :: ofSextets rest

/-- Sextets that an encoding has: the bits that no byte fills are zero. -/
def WellFormed : List Nat → Prop
  | [] => True
  | [_] => False
  | [s, t] => s < 64 ∧ t < 64 ∧ t % 16 = 0
  | [s, t, u] => s < 64 ∧ t < 64 ∧ u < 64 ∧ u % 4 = 0
  | s :: t :: u :: v :: rest => s < 64 ∧ t < 64 ∧ u < 64 ∧ v < 64 ∧ WellFormed rest

section Groups

@[simp]
theorem sextets_one (a : UInt8) : sextets [a] = [a.toNat / 4, a.toNat % 4 * 16] := rfl

@[simp]
theorem sextets_two (a b : UInt8) :
    sextets [a, b] = [a.toNat / 4, a.toNat % 4 * 16 + b.toNat / 16, b.toNat % 16 * 4] := rfl

@[simp]
theorem sextets_group (a b c : UInt8) (rest : List UInt8) :
    sextets (a :: b :: c :: rest) = a.toNat / 4 :: (a.toNat % 4 * 16 + b.toNat / 16) ::
      (b.toNat % 16 * 4 + c.toNat / 64) :: c.toNat % 64 :: sextets rest := rfl

@[simp]
theorem ofSextets_two (s t : Nat) : ofSextets [s, t] = [UInt8.ofNat (s * 4 + t / 16)] := rfl

@[simp]
theorem ofSextets_three (s t u : Nat) :
    ofSextets [s, t, u] =
      [UInt8.ofNat (s * 4 + t / 16), UInt8.ofNat (t % 16 * 16 + u / 4)] := rfl

@[simp]
theorem ofSextets_group (s t u v : Nat) (rest : List Nat) :
    ofSextets (s :: t :: u :: v :: rest) = UInt8.ofNat (s * 4 + t / 16) ::
      UInt8.ofNat (t % 16 * 16 + u / 4) :: UInt8.ofNat (u % 4 * 64 + v) :: ofSextets rest := rfl

/-- Induction by groups of three bytes. -/
theorem bytes_induct {P : List UInt8 → Prop} (nil : P []) (one : ∀ a, P [a])
    (two : ∀ a b, P [a, b]) (group : ∀ a b c rest, P rest → P (a :: b :: c :: rest)) :
    ∀ bytes, P bytes
  | [] => nil
  | [a] => one a
  | [a, b] => two a b
  | a :: b :: c :: rest => group a b c rest (bytes_induct nil one two group rest)

/-- Induction by groups of four sextets. -/
theorem sextets_induct {P : (l : List Nat) → WellFormed l → Prop} (nil : ∀ h, P [] h)
    (two : ∀ s t h, P [s, t] h) (three : ∀ s t u h, P [s, t, u] h)
    (group : ∀ s t u v rest h (hrest : WellFormed rest), P rest hrest →
      P (s :: t :: u :: v :: rest) h) : ∀ l h, P l h
  | [], h => nil h
  | [_], h => False.elim h
  | [s, t], h => two s t h
  | [s, t, u], h => three s t u h
  | s :: t :: u :: v :: rest, h =>
      group s t u v rest h h.2.2.2.2 (sextets_induct nil two three group rest h.2.2.2.2)

end Groups

section Symbols

theorem symbol_injective {s t : Nat} (hs : s < 64) (ht : t < 64) (h : symbol s = symbol t) :
    s = t := by
  have hall : ∀ s t : Fin 64, symbol s = symbol t → s = t := by
    decide
  exact congrArg Fin.val (hall ⟨s, hs⟩ ⟨t, ht⟩ h)

theorem symbol_plain : ∀ s : Fin 64, (symbol s ≠ '+' ∧ symbol s ≠ '/' ↔ s.val < 62) ∧
    symbol s ≠ '=' := by
  decide

theorem map_symbol_injective {l l' : List Nat} (h : ∀ s ∈ l, s < 64) (h' : ∀ s ∈ l', s < 64)
    (heq : l.map symbol = l'.map symbol) : l = l' := by
  induction l generalizing l' with
  | nil =>
      exact (List.map_eq_nil_iff.mp heq.symm).symm
  | cons s l ih =>
      cases l' with
      | nil =>
          cases heq
      | cons t l' =>
          obtain ⟨hhead, htail⟩ := List.cons.inj heq
          obtain ⟨hs, hl⟩ := List.forall_mem_cons.mp h
          obtain ⟨ht, hl'⟩ := List.forall_mem_cons.mp h'
          rw [symbol_injective hs ht hhead, ih hl hl' htail]

end Symbols

section Sextets

variable {bytes : List UInt8} {l : List Nat}

theorem wellFormed_sextets (bytes : List UInt8) : WellFormed (sextets bytes) := by
  induction bytes using bytes_induct with
  | nil =>
      trivial
  | one a =>
      have ha := a.toNat_lt
      exact ⟨by omega, by omega, by omega⟩
  | two a b =>
      have ha := a.toNat_lt
      have hb := b.toNat_lt
      exact ⟨by omega, by omega, by omega, by omega⟩
  | group a b c rest ih =>
      have ha := a.toNat_lt
      have hb := b.toNat_lt
      have hc := c.toNat_lt
      exact ⟨by omega, by omega, by omega, by omega, ih⟩

theorem lt_of_wellFormed (h : WellFormed l) : ∀ s ∈ l, s < 64 := by
  induction l, h using sextets_induct with
  | nil h =>
      intro s hs
      cases hs
  | two s t h =>
      obtain ⟨hs, ht, _⟩ := h
      simp [hs, ht]
  | three s t u h =>
      obtain ⟨hs, ht, hu, _⟩ := h
      simp [hs, ht, hu]
  | group s t u v rest h hrest ih =>
      obtain ⟨hs, ht, hu, hv, _⟩ := h
      simp only [List.forall_mem_cons]
      exact ⟨hs, ht, hu, hv, ih⟩

theorem length_sextets (bytes : List UInt8) :
    (sextets bytes).length = (bytes.length * 4 + 2) / 3 := by
  induction bytes using bytes_induct with
  | nil =>
      rfl
  | one a =>
      simp
  | two a b =>
      simp
  | group a b c rest ih =>
      simp only [sextets_group, List.length_cons, ih]
      omega

theorem length_ofSextets (h : WellFormed l) : (ofSextets l).length = l.length * 3 / 4 := by
  induction l, h using sextets_induct with
  | nil h =>
      rfl
  | two s t h =>
      simp
  | three s t u h =>
      simp
  | group s t u v rest h hrest ih =>
      simp only [ofSextets_group, List.length_cons, ih]
      omega

theorem ofNat_eq_of {a : UInt8} {n : Nat} (h : n = a.toNat) : UInt8.ofNat n = a := by
  rw [h, UInt8.ofNat_toNat]

theorem ofSextets_sextets (bytes : List UInt8) : ofSextets (sextets bytes) = bytes := by
  induction bytes using bytes_induct with
  | nil =>
      rfl
  | one a =>
      have hfirst : UInt8.ofNat (a.toNat / 4 * 4 + a.toNat % 4 * 16 / 16) = a :=
        ofNat_eq_of (by omega)
      rw [sextets_one, ofSextets_two, hfirst]
  | two a b =>
      have hb := b.toNat_lt
      have hfirst : UInt8.ofNat (a.toNat / 4 * 4 + (a.toNat % 4 * 16 + b.toNat / 16) / 16) = a :=
        ofNat_eq_of (by omega)
      have hsecond : UInt8.ofNat ((a.toNat % 4 * 16 + b.toNat / 16) % 16 * 16 +
          b.toNat % 16 * 4 / 4) = b := ofNat_eq_of (by omega)
      rw [sextets_two, ofSextets_three, hfirst, hsecond]
  | group a b c rest ih =>
      have hb := b.toNat_lt
      have hc := c.toNat_lt
      have hfirst : UInt8.ofNat (a.toNat / 4 * 4 + (a.toNat % 4 * 16 + b.toNat / 16) / 16) = a :=
        ofNat_eq_of (by omega)
      have hsecond : UInt8.ofNat ((a.toNat % 4 * 16 + b.toNat / 16) % 16 * 16 +
          (b.toNat % 16 * 4 + c.toNat / 64) / 4) = b := ofNat_eq_of (by omega)
      have hthird : UInt8.ofNat ((b.toNat % 16 * 4 + c.toNat / 64) % 4 * 64 + c.toNat % 64) = c :=
        ofNat_eq_of (by omega)
      rw [sextets_group, ofSextets_group, hfirst, hsecond, hthird, ih]

theorem sextets_injective {bytes bytes' : List UInt8} (h : sextets bytes = sextets bytes') :
    bytes = bytes' := by
  rw [← ofSextets_sextets bytes, h, ofSextets_sextets]

theorem sextets_ofSextets (h : WellFormed l) : sextets (ofSextets l) = l := by
  induction l, h using sextets_induct with
  | nil h =>
      rfl
  | two s t h =>
      have hlow : s < 64 ∧ t < 64 ∧ t % 16 = 0 := h
      rw [ofSextets_two, sextets_one]
      simp only [UInt8.toNat_ofNat', List.cons.injEq, and_true]
      omega
  | three s t u h =>
      have hlow : s < 64 ∧ t < 64 ∧ u < 64 ∧ u % 4 = 0 := h
      rw [ofSextets_three, sextets_two]
      simp only [UInt8.toNat_ofNat', List.cons.injEq, and_true]
      omega
  | group s t u v rest h hrest ih =>
      have hlow : s < 64 ∧ t < 64 ∧ u < 64 ∧ v < 64 ∧ WellFormed rest := h
      rw [ofSextets_group, sextets_group, ih]
      simp only [UInt8.toNat_ofNat', List.cons.injEq, and_true]
      omega

end Sextets

end Base64
end Library
end ZeroVpn
