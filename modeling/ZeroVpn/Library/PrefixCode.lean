import Mathlib.Data.Nat.Digits.Defs
import Mathlib.Data.List.Basic

/-!
# Prefix-free codes

A code writes values as words such that the word of a value can be split off
the front of any longer word.  Codes of the parts of a record then combine to
a code of the record, and every code is injective.
-/

namespace ZeroVpn
namespace Library

section PrefixCode

variable {α β γ : Type}

/-- The word of a value can be split off the front of any longer word. -/
def PrefixFree (f : α → List Char) : Prop :=
  ∀ a b r r', f a ++ r = f b ++ r' → a = b ∧ r = r'

theorem PrefixFree.injective {f : α → List Char} (hf : PrefixFree f) :
    Function.Injective f := by
  intro a b hab
  have hends : f a ++ [] = f b ++ [] := by rw [hab]
  exact (hf a b [] [] hends).1

/-- A code for the images of an injective function. -/
theorem PrefixFree.comap {f : β → List Char} (hf : PrefixFree f) {g : α → β}
    (hg : Function.Injective g) : PrefixFree fun a => f (g a) := by
  intro a b r r' h
  obtain ⟨hab, hr⟩ := hf _ _ _ _ h
  exact ⟨hg hab, hr⟩

/-- One value after the other. -/
theorem PrefixFree.pair {f : α → List Char} {g : β → List Char} (hf : PrefixFree f)
    (hg : PrefixFree g) : PrefixFree fun p : α × β => f p.1 ++ g p.2 := by
  rintro ⟨a, b⟩ ⟨a', b'⟩ r r' h
  simp only [List.append_assoc] at h
  obtain ⟨rfl, hrest⟩ := hf _ _ _ _ h
  obtain ⟨rfl, hr⟩ := hg _ _ _ _ hrest
  exact ⟨rfl, hr⟩

/-- A character stands for itself. -/
def charCode (c : Char) : List Char := [c]

theorem charCode_prefixFree : PrefixFree charCode := by
  intro c d r r' h
  simpa [charCode] using h

/-- A number in unary, with an end mark. -/
def unaryCode (n : Nat) : List Char := List.replicate n '1' ++ ['0']

theorem unaryCode_prefixFree : PrefixFree unaryCode := by
  intro n m r r' h
  induction n generalizing m with
  | zero =>
      cases m with
      | zero =>
          simpa [unaryCode] using h
      | succ m =>
          simp [unaryCode, List.replicate_succ] at h
  | succ n ih =>
      cases m with
      | zero =>
          simp [unaryCode, List.replicate_succ] at h
      | succ m =>
          have htail : unaryCode n ++ r = unaryCode m ++ r' := by
            simpa [unaryCode, List.replicate_succ] using h
          obtain ⟨rfl, hr⟩ := ih m htail
          exact ⟨rfl, hr⟩

/-- A value that may be missing. -/
def optionCode (f : α → List Char) : Option α → List Char
  | none => ['0']
  | some a => '1' :: f a

theorem optionCode_prefixFree {f : α → List Char} (hf : PrefixFree f) :
    PrefixFree (optionCode f) := by
  intro a b r r' h
  cases a with
  | none =>
      cases b with
      | none =>
          simpa [optionCode] using h
      | some b =>
          simp [optionCode] at h
  | some a =>
      cases b with
      | none =>
          simp [optionCode] at h
      | some b =>
          have htail : f a ++ r = f b ++ r' := by
            simpa [optionCode] using h
          obtain ⟨rfl, hr⟩ := hf _ _ _ _ htail
          exact ⟨rfl, hr⟩

/-- A list: a mark before every element and one at the end. -/
def listCode (f : α → List Char) : List α → List Char
  | [] => ['0']
  | a :: as => '1' :: (f a ++ listCode f as)

theorem listCode_prefixFree {f : α → List Char} (hf : PrefixFree f) :
    PrefixFree (listCode f) := by
  intro as bs r r' h
  induction as generalizing bs with
  | nil =>
      cases bs with
      | nil =>
          simpa [listCode] using h
      | cons b bs =>
          simp [listCode] at h
  | cons a as ih =>
      cases bs with
      | nil =>
          simp [listCode] at h
      | cons b bs =>
          have htail : f a ++ (listCode f as ++ r) = f b ++ (listCode f bs ++ r') := by
            simpa [listCode] using h
          obtain ⟨rfl, hrest⟩ := hf _ _ _ _ htail
          obtain ⟨rfl, hr⟩ := ih bs hrest
          exact ⟨rfl, hr⟩

/-- A number by its decimal digits. -/
def natCode (n : Nat) : List Char := listCode unaryCode (Nat.digits 10 n)

theorem natCode_prefixFree : PrefixFree natCode :=
  (listCode_prefixFree unaryCode_prefixFree).comap (Nat.digits.injective 10)

/-- A text by its characters. -/
def textCode (s : String) : List Char := listCode charCode s.toList

theorem textCode_prefixFree : PrefixFree textCode :=
  (listCode_prefixFree charCode_prefixFree).comap fun _ _ => String.toList_inj.mp

end PrefixCode

end Library
end ZeroVpn
