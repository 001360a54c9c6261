import Mathlib.Data.List.Forall2
import Mathlib.Data.Option.Basic

/-!
# JSON values and derived decoders

JSON trees with the fields of an object in their order, and the pieces that a
derived decoder of a record is made of: a field that must be there, a field with
a default, a tag.  Keys that the record does not have are ignored or refused, a
key that it has must not occur twice.

A `Codec` is an encoder with a decoder that undoes it.  The last section removes
fields at a path.
-/

namespace ZeroVpn
namespace Library

inductive Json where
  | null
  | bool (b : Bool)
  | num (n : Int)
  | str (s : String)
  | arr (items : List Json)
  | obj (fields : List (String × Json))

namespace Json

/-- The first value under a key. -/
def get (name : String) (fields : List (String × Json)) : Option Json :=
  (fields.find? fun f => f.1 == name).map Prod.snd

/-- None of the names is a key twice. -/
def once (names : List String) (fields : List (String × Json)) : Bool :=
  names.all fun name => decide ((fields.filter fun f => f.1 == name).length ≤ 1)

/-- Every key is one of the names. -/
def known (names : List String) (fields : List (String × Json)) : Bool :=
  fields.all fun f => names.contains f.1

/-- A text form with a parser that undoes it. -/
structure TextForm (α : Type) where
  text : α → String
  parse : String → Option α
  parse_text : ∀ a, parse (text a) = some a

/-- An encoder with a decoder that undoes it. -/
structure Codec (α : Type) where
  encode : α → Json
  decode : Json → Option α
  decode_encode : ∀ a, decode (encode a) = some a

namespace Codec

variable {α : Type}

theorem encode_injective (c : Codec α) : Function.Injective c.encode := by
  intro a b h
  have hdecode := congrArg c.decode h
  rw [c.decode_encode, c.decode_encode] at hdecode
  exact Option.some.inj hdecode

def ofBool : Codec Bool where
  encode := .bool
  decode
    | .bool b => some b
    | _ => none
  decode_encode := fun _ => rfl

def ofString : Codec String where
  encode := .str
  decode
    | .str s => some s
    | _ => none
  decode_encode := fun _ => rfl

/-- An integer type inside the integers. -/
def ofInt (toInt : α → Int) (ofInt : Int → Option α) (h : ∀ a, ofInt (toInt a) = some a) :
    Codec α where
  encode a := .num (toInt a)
  decode
    | .num n => ofInt n
    | _ => none
  decode_encode := h

/-- A value by its text form. -/
def ofText (form : TextForm α) : Codec α where
  encode a := .str (form.text a)
  decode
    | .str s => form.parse s
    | _ => none
  decode_encode := form.parse_text

def ofUInt16 : Codec UInt16 :=
  ofInt (fun a => a.toNat) (fun n => if 0 ≤ n ∧ n < 65536 then some (.ofNat n.toNat) else none) (by
    intro a
    have hlt : a.toNat < 65536 := a.toNat_lt
    rw [if_pos ⟨by omega, by omega⟩, Int.toNat_natCast, UInt16.ofNat_toNat])

def ofUInt64 : Codec UInt64 :=
  ofInt (fun a => a.toNat)
    (fun n => if 0 ≤ n ∧ n < 18446744073709551616 then some (.ofNat n.toNat) else none) (by
    intro a
    have hlt : a.toNat < 18446744073709551616 := a.toNat_lt
    rw [if_pos ⟨by omega, by omega⟩, Int.toNat_natCast, UInt64.ofNat_toNat])

def ofInt64 : Codec Int64 :=
  ofInt Int64.toInt
    (fun n => if -9223372036854775808 ≤ n ∧ n < 9223372036854775808 then some (.ofInt n)
      else none) (by
    intro a
    have hle := a.le_toInt
    have hlt := a.toInt_lt
    rw [if_pos ⟨by omega, by omega⟩, Int64.ofInt_toInt])

/-- A value that may be missing: `null`, or a value that is never `null`. -/
def option (c : Codec α) (hnull : ∀ a, c.encode a ≠ .null) : Codec (Option α) where
  encode
    | none => .null
    | some a => c.encode a
  decode
    | .null => some none
    | j => (c.decode j).map some
  decode_encode a := by
    cases a with
    | none =>
        rfl
    | some a =>
        have hdecode := c.decode_encode a
        have hne := hnull a
        -- the last case applies because the value is not `null`
        simp only [hdecode, Option.map_some]

/-- The items of an array, all of which must decode. -/
def decodeItems (decode : Json → Option α) : List Json → Option (List α)
  | [] => some []
  | j :: js => do
      let a ← decode j
      let as ← decodeItems decode js
      pure (a :: as)

/-- Items that decode one by one. -/
theorem decodeItems_forall₂ {decode : Json → Option α} {as : List α} {js : List Json}
    (h : List.Forall₂ (fun a j => decode j = some a) as js) : decodeItems decode js = some as := by
  induction h with
  | nil =>
      rfl
  | cons hhead _ ih =>
      simp only [decodeItems, hhead, ih]
      rfl

theorem forall₂_map_encode {R : α → Json → Prop} {encode : α → Json} (h : ∀ a, R a (encode a))
    (as : List α) : List.Forall₂ R as (as.map encode) := by
  induction as with
  | nil =>
      exact .nil
  | cons a as ih =>
      exact .cons (h a) ih

def list (c : Codec α) : Codec (List α) where
  encode as := .arr (as.map c.encode)
  decode
    | .arr js => decodeItems c.decode js
    | _ => none
  decode_encode as := decodeItems_forall₂ (forall₂_map_encode c.decode_encode as)

/-- A field that must be there. -/
def required (c : Codec α) (name : String) (fields : List (String × Json)) : Option α :=
  (get name fields).bind c.decode

/-- A field with a default. -/
def defaulted (c : Codec α) (default : α) (name : String) (fields : List (String × Json)) :
    Option α :=
  match get name fields with
  | some j => c.decode j
  | none => some default

end Codec

/-- One step into a tree. -/
inductive Step where
  | field (name : String)
  | index (i : Nat)
  deriving DecidableEq, Repr

/-- Change what is at a path. -/
def modifyAt : List Step → (Json → Json) → Json → Json
  | [], f, j => f j
  | .field name :: path, f, .obj fields =>
      .obj (fields.map fun entry =>
        if entry.1 = name then (entry.1, modifyAt path f entry.2) else entry)
  | .index i :: path, f, .arr items => .arr (items.modify i (modifyAt path f))
  | _, _, j => j

/-- Remove a field of an object. -/
def remove (name : String) : Json → Json
  | .obj fields => .obj (fields.filter fun entry => entry.1 != name)
  | j => j

/-- Remove fields of the objects at some paths, one after the other. -/
def removeAll (removals : List (List Step × String)) (j : Json) : Json :=
  removals.foldl (fun j removal => modifyAt removal.1 (remove removal.2) j) j

section Fields

variable {α : Type} {c : Codec α} {default : α} {name : String} {fields : List (String × Json)}

@[simp] theorem get_nil : get name [] = none := rfl

theorem get_cons (key : String) (j : Json) :
    get name ((key, j) :: fields) = if key = name then some j else get name fields := by
  unfold get
  rw [List.find?_cons]
  by_cases h : key = name
  · simp [h]
  · have hbeq : (key == name) = false := by simpa using h
    simp [h, hbeq]

theorem get_filter (keep : String → Bool) (name : String) (fields : List (String × Json)) :
    get name (fields.filter fun entry => keep entry.1) =
      if keep name then get name fields else none := by
  induction fields with
  | nil =>
      simp
  | cons entry fields ih =>
      obtain ⟨key, j⟩ := entry
      rw [get_cons]
      by_cases hkey : keep key = true
      · have hfilter : ((key, j) :: fields).filter (fun entry => keep entry.1) =
            (key, j) :: fields.filter fun entry => keep entry.1 :=
          List.filter_cons_of_pos hkey
        rw [hfilter, get_cons, ih]
        by_cases hname : key = name
        · rw [if_pos hname, if_pos hname, ← hname, if_pos hkey]
        · rw [if_neg hname, if_neg hname]
      · have hfilter : ((key, j) :: fields).filter (fun entry => keep entry.1) =
            fields.filter fun entry => keep entry.1 :=
          List.filter_cons_of_neg hkey
        rw [hfilter, ih]
        by_cases hname : key = name
        · rw [← hname, if_neg hkey, if_neg hkey]
        · rw [if_neg hname]

theorem once_filter {names : List String} (h : once names fields = true)
    (p : String × Json → Bool) : once names (fields.filter p) = true := by
  unfold once at h ⊢
  rw [List.all_eq_true] at h ⊢
  intro name hname
  have hfull := h name hname
  rw [decide_eq_true_eq] at hfull ⊢
  refine Nat.le_trans (List.Sublist.length_le ?_) hfull
  exact List.Sublist.filter _ List.filter_sublist

theorem known_filter {names : List String} (h : known names fields = true)
    (p : String × Json → Bool) : known names (fields.filter p) = true := by
  unfold known at h ⊢
  rw [List.all_eq_true] at h ⊢
  intro entry hentry
  exact h entry (List.mem_filter.mp hentry).1

theorem required_of_get {j : Json} (hget : get name fields = some j) :
    c.required name fields = c.decode j := by
  unfold Codec.required
  rw [hget, Option.bind_some]

theorem defaulted_of_get {j : Json} (hget : get name fields = some j) :
    c.defaulted default name fields = c.decode j := by
  unfold Codec.defaulted
  rw [hget]

/-- A field that is kept. -/
theorem required_filter {keep : String → Bool} {a : α} (hget : get name fields = some (c.encode a))
    (hkeep : keep name = true) :
    c.required name (fields.filter fun entry => keep entry.1) = some a := by
  unfold Codec.required
  rw [get_filter, if_pos hkeep, hget, Option.bind_some, c.decode_encode]

/-- A field that is kept or has its default. -/
theorem defaulted_filter {keep : String → Bool} {a : α}
    (hget : get name fields = some (c.encode a)) (hkeep : keep name = false → a = default) :
    c.defaulted default name (fields.filter fun entry => keep entry.1) = some a := by
  unfold Codec.defaulted
  rw [get_filter]
  cases hk : keep name with
  | true =>
      simp only [if_true, hget, c.decode_encode]
  | false =>
      simp [hkeep hk]

/-- The rest of an object of which more is removed. -/
theorem remove_filter (keep : String → Bool) (name : String) (fields : List (String × Json)) :
    remove name (.obj (fields.filter fun entry => keep entry.1)) =
      .obj (fields.filter fun entry => keep entry.1 && entry.1 != name) := by
  simp only [remove, List.filter_filter]
  congr 2
  funext entry
  rw [Bool.and_comm]

end Fields

/-- A record with defaulted fields: how it is written, which keys may be left out
and how a field gets its default. -/
structure Defaults (α ι : Type) where
  fields : α → List (String × Json)
  label : ι → String
  reset : ι → α → α
  label_injective : Function.Injective label
  reset_same : ∀ i a, reset i (reset i a) = reset i a
  reset_keeps : ∀ i k a, reset k a = a → reset k (reset i a) = reset i a
  fields_reset : ∀ i a, ((fields (reset i a)).filter fun entry => entry.1 != label i) =
    (fields a).filter fun entry => entry.1 != label i

namespace Defaults

variable {α ι : Type} (D : Defaults α ι)

/-- Only defaulted fields that have their default are left out. -/
def Covers (keep : String → Bool) (a : α) : Prop :=
  ∀ name, keep name = false → ∃ i, D.label i = name ∧ D.reset i a = a

/-- The encoding, less some defaulted fields that have their default. -/
def Short (a : α) (j : Json) : Prop :=
  ∃ keep : String → Bool, j = .obj ((D.fields a).filter fun entry => keep entry.1) ∧
    D.Covers keep a

variable {D}

/-- A field without a default is kept. -/
theorem Covers.required {keep : String → Bool} {a : α} (h : D.Covers keep a) {name : String}
    (hname : ∀ i, D.label i ≠ name) : keep name = true := by
  by_contra hfalse
  obtain ⟨i, hlabel, _⟩ := h name (Bool.eq_false_iff.mpr hfalse)
  exact hname i hlabel

/-- A field that is left out has its default. -/
theorem Covers.reset {keep : String → Bool} {a : α} (h : D.Covers keep a) (i : ι)
    (hi : keep (D.label i) = false) : D.reset i a = a := by
  obtain ⟨k, hlabel, hreset⟩ := h _ hi
  rw [D.label_injective hlabel] at hreset
  exact hreset

variable (D)

theorem short_obj (a : α) : D.Short a (.obj (D.fields a)) := by
  refine ⟨fun _ => true, ?_, ?_⟩
  · rw [List.filter_true]
  · intro name h
    cases h

/-- One more field is removed, and has its default. -/
theorem short_remove (i : ι) {a : α} {j : Json} (h : D.Short a j) :
    D.Short (D.reset i a) (remove (D.label i) j) := by
  obtain ⟨keep, rfl, hkeep⟩ := h
  refine ⟨fun name => keep name && name != D.label i, ?_, ?_⟩
  · rw [remove_filter]
    have hsplit : ∀ fields : List (String × Json),
        (fields.filter fun entry => keep entry.1 && entry.1 != D.label i) =
          (fields.filter fun entry => entry.1 != D.label i).filter fun entry => keep entry.1 := by
      intro fields
      rw [List.filter_filter]
    rw [hsplit, hsplit, D.fields_reset]
  · intro name hname
    rw [Bool.and_eq_false_iff] at hname
    cases hname with
    | inl hname =>
        obtain ⟨k, hlabel, hreset⟩ := hkeep name hname
        exact ⟨k, hlabel, D.reset_keeps i k a hreset⟩
    | inr hname =>
        have heq : name = D.label i := by simpa using hname
        exact ⟨i, heq.symm, D.reset_same i a⟩

end Defaults

/-- Related lists stay related when related items are changed at one place. -/
theorem forall₂_modify {α : Type} {R : α → Json → Prop} {f : α → α} {g : Json → Json}
    (hfg : ∀ a j, R a j → R (f a) (g j)) {as : List α} {js : List Json}
    (h : List.Forall₂ R as js) (i : Nat) : List.Forall₂ R (as.modify i f) (js.modify i g) := by
  induction h generalizing i with
  | nil =>
      rw [List.modify_nil, List.modify_nil]
      exact .nil
  | cons hhead htail ih =>
      cases i with
      | zero =>
          rw [List.modify_zero_cons, List.modify_zero_cons]
          exact .cons (hfg _ _ hhead) htail
      | succ i =>
          rw [List.modify_succ_cons, List.modify_succ_cons]
          exact .cons hhead (ih i)

/-- What one removal does to values and trees, many do. -/
theorem removeAll_related {α ι : Type} {R : α → Json → Prop} {reset : ι → α → α}
    {place : ι → List Step × String}
    (hone : ∀ i a j, R a j → R (reset i a) (modifyAt (place i).1 (remove (place i).2) j))
    (is : List ι) {a : α} {j : Json} (h : R a j) :
    R (is.foldl (fun a i => reset i a) a) (removeAll (is.map place) j) := by
  unfold removeAll
  induction is generalizing a j with
  | nil =>
      exact h
  | cons i is ih =>
      exact ih (hone i a j h)

end Json

end Library
end ZeroVpn
