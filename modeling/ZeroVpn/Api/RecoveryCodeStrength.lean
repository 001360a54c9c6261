import ZeroVpn.Library.Base64
import ZeroVpn.Api.RecoveryCodes

/-!
# How much of a draw a recovery code carries

`generate_recovery_codes` of `crates/zerovpn-auth/src/totp.rs`: five random bytes are
encoded, three of the symbols are deleted, and the first eight characters are kept.  The
encoding and the password hash are those of other crates and parameters here.

The seven symbols of five bytes and the padding are never eight characters without the
padding.  `recovery_codes_never_documented` says that, and of which draws the code can
come from another draw as well.
-/

namespace ZeroVpn

open Library

namespace Api
namespace RecoveryCodes

/-- `RECOVERY_CODE_COUNT`. -/
def RECOVERY_CODE_COUNT : Nat := 10

/-- `[u8; RECOVERY_CODE_BYTES]`. -/
abbrev Draw := { bytes : List UInt8 // bytes.length = 5 }

section Codes

variable (b64 : List UInt8 → List Char)

/-- The code of a draw. -/
def recoveryCode (d : Draw) : String :=
  let raw := b64 d.val
  String.ofList ((raw.filter fun c => !(c == '+' || c == '/' || c == '=')).take 8)

/-- The loop of `generate_recovery_codes` from a round on. -/
def generateFrom (hash : Nat → String → Except String String) (draws : Nat → Draw) :
    Nat → Nat → List String → List String → Except String (List String × List String)
  | 0, _, plaintexts, hashes => .ok (plaintexts, hashes)
  | rounds + 1, i, plaintexts, hashes => do
      let code := recoveryCode b64 (draws i)
      let hashed ← hash i code
      generateFrom hash draws rounds (i + 1) (plaintexts ++ [code]) (hashes ++ [hashed])

/-- `generate_recovery_codes`. -/
def generateRecoveryCodes (hash : Nat → String → Except String String) (draws : Nat → Draw) :
    Except String (List String × List String) :=
  generateFrom b64 hash draws RECOVERY_CODE_COUNT 0 [] []

end Codes

section Symbols

variable {b64 : List UInt8 → List Char} {d d' : Draw}

/-- The standard encoding. -/
def Standard (b64 : List UInt8 → List Char) : Prop :=
  ∀ bytes, b64 bytes = Base64.encode bytes

/-- The sextets of a draw. -/
def sextets (d : Draw) : List Nat := Base64.sextets d.val

theorem length_sextets (d : Draw) : (sextets d).length = 7 := by
  rw [sextets, Base64.length_sextets, d.property]

theorem sextets_lt (d : Draw) : ∀ s ∈ sextets d, s < 64 :=
  Base64.lt_of_wellFormed (Base64.wellFormed_sextets d.val)

theorem filter_symbols {l : List Nat} (h : ∀ s ∈ l, s < 64) :
    (l.map Base64.symbol).filter (fun c => !(c == '+' || c == '/' || c == '=')) =
      (l.filter fun s => decide (s < 62)).map Base64.symbol := by
  rw [List.filter_map]
  congr 1
  refine List.filter_congr fun s hs => ?_
  obtain ⟨hlow, hpad⟩ := Base64.symbol_plain ⟨s, h s hs⟩
  rw [Bool.eq_iff_iff]
  simpa [hpad, and_assoc] using hlow

/-- What is left of a draw in its code. -/
theorem toList_recoveryCode (hb : Standard b64) (d : Draw) :
    (recoveryCode b64 d).toList =
      ((sextets d).filter fun s => decide (s < 62)).map Base64.symbol := by
  have hfilter : (b64 d.val).filter (fun c => !(c == '+' || c == '/' || c == '=')) =
      ((sextets d).filter fun s => decide (s < 62)).map Base64.symbol := by
    rw [hb, Base64.encode, List.filter_append, d.property, ← filter_symbols (sextets_lt d)]
    simp [sextets]
  have hlen : (((sextets d).filter fun s => decide (s < 62)).map Base64.symbol).length ≤ 8 := by
    have hle := List.length_filter_le (fun s => decide (s < 62)) (sextets d)
    rw [length_sextets] at hle
    rw [List.length_map]
    omega
  rw [recoveryCode, String.toList_ofList, hfilter, List.take_of_length_le hlen]

/-- A code has at most seven characters. -/
theorem length_recoveryCode (hb : Standard b64) (d : Draw) :
    (recoveryCode b64 d).toList.length ≤ 7 := by
  rw [toList_recoveryCode hb, List.length_map, ← length_sextets d]
  exact List.length_filter_le _ _

end Symbols

section Twins

variable {b64 : List UInt8 → List Char} {d d' : Draw}

/-- The other one of the two deleted symbols of the alphabet. -/
def twin (s : Nat) : Nat := if s < 62 then s else 125 - s

theorem twin_lt {s : Nat} (h : s < 64) : twin s < 64 ∧ (twin s < 62 ↔ s < 62) := by
  unfold twin
  split
  · omega
  · omega

/-- Only zeros stand where no byte fills the bits, so that no such symbol is deleted. -/
theorem twin_of_padding {s : Nat} (h : s < 64) (hpad : s % 4 = 0) : twin s = s :=
  if_pos (by omega)

theorem wellFormed_map_twin {l : List Nat} (h : Base64.WellFormed l) :
    Base64.WellFormed (l.map twin) := by
  fun_induction Base64.WellFormed l with
  | case1 =>
      trivial
  | case2 =>
      exact h.elim
  | case3 s t =>
      obtain ⟨hs, ht, hpad⟩ := h
      have htwin := twin_of_padding ht (by omega)
      exact ⟨(twin_lt hs).1, (twin_lt ht).1, by rw [htwin]; exact hpad⟩
  | case4 s t u =>
      obtain ⟨hs, ht, hu, hpad⟩ := h
      exact ⟨(twin_lt hs).1, (twin_lt ht).1, (twin_lt hu).1, by
        rw [twin_of_padding hu hpad]; exact hpad⟩
  | case5 s t u v rest ih =>
      obtain ⟨hs, ht, hu, hv, hrest⟩ := h
      exact ⟨(twin_lt hs).1, (twin_lt ht).1, (twin_lt hu).1, (twin_lt hv).1, ih hrest⟩

/-- The draw with the deleted symbols exchanged. -/
theorem exists_twin (d : Draw) : ∃ d' : Draw, sextets d' = (sextets d).map twin := by
  have hwell : Base64.WellFormed ((sextets d).map twin) :=
    wellFormed_map_twin (Base64.wellFormed_sextets d.val)
  refine ⟨⟨Base64.ofSextets ((sextets d).map twin), ?_⟩, Base64.sextets_ofSextets hwell⟩
  rw [Base64.length_ofSextets hwell, List.length_map, length_sextets]

theorem filter_map_twin {l : List Nat} (h : ∀ s ∈ l, s < 64) :
    (l.map twin).filter (fun s => decide (s < 62)) = l.filter fun s => decide (s < 62) := by
  have hkept : (l.map twin).filter (fun s => decide (s < 62)) =
      (l.filter fun s => decide (s < 62)).map twin := by
    rw [List.filter_map]
    congr 1
    exact List.filter_congr fun s hs => decide_eq_decide.mpr (twin_lt (h s hs)).2
  rw [hkept]
  have hid : (l.filter fun s => decide (s < 62)).map twin =
      (l.filter fun s => decide (s < 62)).map id := by
    refine List.map_congr_left fun s hs => ?_
    exact if_pos (of_decide_eq_true (List.mem_filter.mp hs).2)
  rw [hid, List.map_id]

/-- A code comes from one draw alone if and only if no symbol of the draw is deleted. -/
theorem recoveryCode_identifies_iff (hb : Standard b64) (d : Draw) :
    (∀ d', recoveryCode b64 d' = recoveryCode b64 d → d' = d) ↔ ∀ s ∈ sextets d, s < 62 := by
  constructor
  · intro honly s hs
    obtain ⟨d', hd'⟩ := exists_twin d
    have hsame : recoveryCode b64 d' = recoveryCode b64 d := by
      rw [← String.toList_inj, toList_recoveryCode hb, toList_recoveryCode hb, hd',
        filter_map_twin (sextets_lt d)]
    rw [honly d' hsame] at hd'
    have hfix : (sextets d).map id = (sextets d).map twin := by
      rw [List.map_id]
      exact hd'
    have htwin := List.map_inj_left.mp hfix s hs
    unfold twin at htwin
    split at htwin
    · assumption
    · simp only [id] at htwin
      omega
  · intro hlow d' hsame
    have hlists := congrArg String.toList hsame
    rw [toList_recoveryCode hb, toList_recoveryCode hb] at hlists
    have hall : (sextets d).filter (fun s => decide (s < 62)) = sextets d :=
      List.filter_eq_self.mpr fun s hs => decide_eq_true (hlow s hs)
    rw [hall] at hlists
    have hlen := congrArg List.length hlists
    rw [List.length_map, List.length_map, length_sextets, ← length_sextets d',
      List.length_filter_eq_length_iff] at hlen
    rw [List.filter_eq_self.mpr hlen] at hlists
    have hsextets := Base64.map_symbol_injective (sextets_lt d') (sextets_lt d) hlists
    exact Subtype.ext (Base64.sextets_injective hsextets)

end Twins

section Generation

variable {b64 : List UInt8 → List Char} {hash : Nat → String → Except String String}
  {draws : Nat → Draw} {codes hashes : List String}

/-- What is said of the codes: eight characters that carry the whole draw, and none that
opens the hashes of two draws. -/
structure Documented (k : Crypto) (draws : Nat → Draw) (codes hashes : List String) : Prop where
  eight : ∀ c ∈ codes, c.toList.length = 8
  carries : ∀ (i j : Nat) (c : String), codes[i]? = some c → codes[j]? = some c → draws i = draws j
  opens_one : (∀ i j : Nat, i < codes.length → j < codes.length → draws i = draws j → i = j) →
    ∀ (code : String) (i j : Nat) (h h' : String), hashes[i]? = some h → hashes[j]? = some h' →
      k.verify code h = some true → k.verify code h' = some true → i = j

theorem generateFrom_codes (rounds i : Nat) {plaintexts kept : List String}
    (h : generateFrom b64 hash draws rounds i plaintexts kept = .ok (codes, hashes)) :
    codes = plaintexts ++ (List.range' i rounds).map fun j => recoveryCode b64 (draws j) := by
  induction rounds generalizing i plaintexts kept with
  | zero =>
      cases h
      simp
  | succ rounds ih =>
      rw [generateFrom] at h
      cases hhash : hash i (recoveryCode b64 (draws i)) with
      | error e =>
          rw [hhash] at h
          cases h
      | ok hashed =>
          rw [hhash] at h
          rw [ih (i + 1) h, List.range'_succ]
          simp

/-- The codes are those of the first ten draws. -/
theorem generateRecoveryCodes_codes
    (h : generateRecoveryCodes b64 hash draws = .ok (codes, hashes)) :
    codes = (List.range' 0 RECOVERY_CODE_COUNT).map fun j => recoveryCode b64 (draws j) := by
  rw [generateFrom_codes _ _ h, List.nil_append]

/-- No codes are as documented, whatever is drawn, since eight characters never come out;
and a code carries its draw if and only if none of the seven symbols is deleted. -/
theorem recovery_codes_never_documented (b64 : List UInt8 → List Char) (hb : Standard b64) :
    (∀ (k : Crypto) (hash : Nat → String → Except String String) (draws : Nat → Draw),
        ¬ ∃ codes hashes, generateRecoveryCodes b64 hash draws = .ok (codes, hashes) ∧
          Documented k draws codes hashes) ∧
      ∀ d, (∀ d', recoveryCode b64 d' = recoveryCode b64 d → d' = d) ↔
        ∀ s ∈ sextets d, s < 62 := by
  refine ⟨?_, recoveryCode_identifies_iff hb⟩
  rintro k hash draws ⟨codes, hashes, hgen, hdoc⟩
  have hfirst : recoveryCode b64 (draws 0) ∈ codes := by
    rw [generateRecoveryCodes_codes hgen]
    exact List.mem_map_of_mem (by decide)
  have height := hdoc.eight _ hfirst
  have hseven := length_recoveryCode hb (draws 0)
  omega

theorem recovery_codes_never_documented_sample :
    (∀ (k : Crypto) (hash : Nat → String → Except String String) (draws : Nat → Draw),
        ¬ ∃ codes hashes, generateRecoveryCodes Base64.encode hash draws = .ok (codes, hashes) ∧
          Documented k draws codes hashes) ∧
      ∀ d, (∀ d', recoveryCode Base64.encode d' = recoveryCode Base64.encode d → d' = d) ↔
        ∀ s ∈ sextets d, s < 62 :=
  recovery_codes_never_documented Base64.encode fun _ => rfl

/-- `+AAAAAA=` and `/AAAAAA=` -/
def twinDraws : Draw × Draw :=
  (⟨[248, 0, 0, 0, 0], rfl⟩, ⟨[252, 0, 0, 0, 0], rfl⟩)

/-- Two draws, one code, and six characters of it. -/
theorem two_draws_one_code :
    twinDraws.1 ≠ twinDraws.2 ∧
      recoveryCode Base64.encode twinDraws.1 = recoveryCode Base64.encode twinDraws.2 ∧
      (recoveryCode Base64.encode twinDraws.1).toList.length = 6 := by
  decide

end Generation

end RecoveryCodes
end Api
end ZeroVpn
