import Mathlib.Algebra.BigOperators.Group.List.Basic
import Mathlib.Data.List.Perm.Basic
import Mathlib.Order.Lattice

/-! JSON documents, how much they hold, and the texts that spell them. The grammar is one
inductive family over the parts of a document, so that a scanner is read against it by one
induction. -/

namespace JsonText

/-- A document whose numbers are `ν` and whose strings are `σ`. -/
inductive Value (ν σ : Type) where
  | null
  | bool (b : Bool)
  | number (n : ν)
  | string (s : σ)
  | array (items : List (Value ν σ))
  | object (members : List (σ × Value ν σ))

variable {ν σ ν' σ' : Type}

namespace Value

mutual

/-- The values below a document's root: every array element and every object member. -/
def inner : Value ν σ → ℕ
  | .array items => items.length + innerItems items
  | .object members => members.length + innerMembers members
  | _ => 0

def innerItems : List (Value ν σ) → ℕ
  | [] => 0
  | v :: vs => v.inner + innerItems vs

def innerMembers : List (σ × Value ν σ) → ℕ
  | [] => 0
  | (_, v) :: ms => v.inner + innerMembers ms

end

mutual

/-- How deep the containers of a document are nested. -/
def nesting : Value ν σ → ℕ
  | .array items => nestingItems items + 1
  | .object members => nestingMembers members + 1
  | _ => 0

def nestingItems : List (Value ν σ) → ℕ
  | [] => 0
  | v :: vs => max v.nesting (nestingItems vs)

def nestingMembers : List (σ × Value ν σ) → ℕ
  | [] => 0
  | (_, v) :: ms => max v.nesting (nestingMembers ms)

end

/-- All the values of a document, its root included. -/
def count (v : Value ν σ) : ℕ := 1 + v.inner

def isContainer : Value ν σ → Bool
  | .array _ => true
  | .object _ => true
  | _ => false

theorem innerMembers_eq (ms : List (σ × Value ν σ)) : innerMembers ms = innerItems (ms.map Prod.snd) := by
  induction ms with
  | nil => rfl
  | cons m ms ih => rw [innerMembers, ih, List.map_cons, innerItems]

theorem nestingMembers_eq (ms : List (σ × Value ν σ)) : nestingMembers ms = nestingItems (ms.map Prod.snd) := by
  induction ms with
  | nil => rfl
  | cons m ms ih => rw [nestingMembers, ih, List.map_cons, nestingItems]

theorem innerItems_perm {vs ws : List (Value ν σ)} (h : vs.Perm ws) : innerItems vs = innerItems ws := by
  induction h with
  | nil => rfl
  | cons v _ ih => rw [innerItems, innerItems, ih]
  | swap v w vs => simp only [innerItems]; omega
  | trans _ _ ih ih' => exact ih.trans ih'

theorem nestingItems_perm {vs ws : List (Value ν σ)} (h : vs.Perm ws) : nestingItems vs = nestingItems ws := by
  induction h with
  | nil => rfl
  | cons v _ ih => rw [nestingItems, nestingItems, ih]
  | swap v w vs => simp only [nestingItems]; omega
  | trans _ _ ih ih' => exact ih.trans ih'

end Value

/-- Two documents that hold as much and are nested as deeply. -/
def SameShape (v : Value ν σ) (w : Value ν' σ') : Prop := v.inner = w.inner ∧ v.nesting = w.nesting

/-- Containers with elements of the same shapes, in any order, hold as much and are nested as deeply. -/
theorem sameShape_items {vs : List (Value ν σ)} {ws : List (Value ν' σ')} (h : List.Forall₂ SameShape vs ws) :
    vs.length = ws.length ∧ Value.innerItems vs = Value.innerItems ws ∧
      Value.nestingItems vs = Value.nestingItems ws := by
  induction h with
  | nil => exact ⟨rfl, rfl, rfl⟩
  | cons hv _ ih =>
    simp only [Value.innerItems, Value.nestingItems, List.length_cons]
    exact ⟨by rw [ih.1], by rw [hv.1, ih.2.1], by rw [hv.2, ih.2.2]⟩

section Grammar

/-- A code point of plain text, as the byte that spells it. -/
def byte (c : Char) : UInt8 := c.toNat.toUInt8

/-- The bytes that may stand between tokens. -/
def Blank (bs : List UInt8) : Prop := ∀ b ∈ bs, b = 0x20 ∨ b = 0x09 ∨ b = 0x0a ∨ b = 0x0d

def IsDigit (b : UInt8) : Prop := 0x30 ≤ b ∧ b ≤ 0x39

def IsHex (b : UInt8) : Prop := IsDigit b ∨ (0x41 ≤ b ∧ b ≤ 0x46) ∨ (0x61 ≤ b ∧ b ≤ 0x66)

instance : DecidablePred IsDigit := fun _ => inferInstanceAs (Decidable (_ ∧ _))

instance : DecidablePred IsHex := fun _ => inferInstanceAs (Decidable (_ ∨ _))

/-- The bytes between the quotes of a string: no control byte, no bare quote, escapes complete. -/
inductive Chars : List UInt8 → Prop
  | nil : Chars []
  | plain {b : UInt8} {bs : List UInt8} (control : 0x20 ≤ b) (quote : b ≠ byte '"') (escape : b ≠ byte '\\')
      (rest : Chars bs) : Chars (b :: bs)
  | escaped {b : UInt8} {bs : List UInt8}
      (known : b ∈ [byte '"', byte '\\', byte '/', byte 'b', byte 'f', byte 'n', byte 'r', byte 't'])
      (rest : Chars bs) : Chars (byte '\\' :: b :: bs)
  | code {h₁ h₂ h₃ h₄ : UInt8} {bs : List UInt8} (hex : IsHex h₁ ∧ IsHex h₂ ∧ IsHex h₃ ∧ IsHex h₄)
      (rest : Chars bs) : Chars (byte '\\' :: byte 'u' :: h₁ :: h₂ :: h₃ :: h₄ :: bs)

/-- A run of digits, at least one. -/
def Digits (bs : List UInt8) : Prop := bs ≠ [] ∧ ∀ b ∈ bs, IsDigit b

/-- The integer part of a number has no leading zero. -/
def Whole (bs : List UInt8) : Prop := Digits bs ∧ (bs.length = 1 ∨ bs.head? ≠ some (byte '0'))

def Fraction (bs : List UInt8) : Prop := bs = [] ∨ ∃ ds, Digits ds ∧ bs = byte '.' :: ds

def Exponent (bs : List UInt8) : Prop :=
  bs = [] ∨ ∃ e sign ds, e ∈ [byte 'e', byte 'E'] ∧ sign ∈ [[], [byte '+'], [byte '-']] ∧ Digits ds ∧
    bs = e :: (sign ++ ds)

/-- The texts of numbers. -/
def Numeral (bs : List UInt8) : Prop :=
  ∃ sign whole fraction exponent, sign ∈ [[], [byte '-']] ∧ Whole whole ∧ Fraction fraction ∧ Exponent exponent ∧
    bs = sign ++ whole ++ fraction ++ exponent

/-- A document as the text has it: numbers and strings are still the bytes that spell them. -/
abbrev Document := Value (List UInt8) (List UInt8)

/-- What a stretch of text can spell. -/
inductive Part where
  | value (v : Document)
  | elements (vs : List Document)
  | members (ms : List (List UInt8 × Document))

/-- The byte string spells the part; a value takes no blanks around it, elements and members do. -/
inductive Spells : List UInt8 → Part → Prop
  | null : Spells ("null".toList.map byte) (.value .null)
  | false : Spells ("false".toList.map byte) (.value (.bool false))
  | true : Spells ("true".toList.map byte) (.value (.bool true))
  | number {text} (h : Numeral text) : Spells text (.value (.number text))
  | string {text} (h : Chars text) : Spells (byte '"' :: (text ++ [byte '"'])) (.value (.string text))
  | emptyArray {w} (blank : Blank w) : Spells (byte '[' :: (w ++ [byte ']'])) (.value (.array []))
  | array {text vs} (h : Spells text (.elements vs)) :
      Spells (byte '[' :: (text ++ [byte ']'])) (.value (.array vs))
  | emptyObject {w} (blank : Blank w) : Spells (byte '\x7b' :: (w ++ [byte '\x7d'])) (.value (.object []))
  | object {text ms} (h : Spells text (.members ms)) :
      Spells (byte '\x7b' :: (text ++ [byte '\x7d'])) (.value (.object ms))
  | element {w₁ text w₂ v} (before : Blank w₁) (h : Spells text (.value v)) (after : Blank w₂) :
      Spells (w₁ ++ text ++ w₂) (.elements [v])
  | elements {w₁ text w₂ v more vs} (before : Blank w₁) (h : Spells text (.value v)) (after : Blank w₂)
      (hmore : Spells more (.elements vs)) :
      Spells (w₁ ++ text ++ w₂ ++ byte ',' :: more) (.elements (v :: vs))
  | member {w₁ key w₂ w₃ text w₄ v} (before : Blank w₁) (hkey : Chars key) (between : Blank w₂ ∧ Blank w₃)
      (h : Spells text (.value v)) (after : Blank w₄) :
      Spells (w₁ ++ byte '"' :: (key ++ [byte '"']) ++ w₂ ++ byte ':' :: w₃ ++ text ++ w₄) (.members [(key, v)])
  | members {w₁ key w₂ w₃ text w₄ v more ms} (before : Blank w₁) (hkey : Chars key) (between : Blank w₂ ∧ Blank w₃)
      (h : Spells text (.value v)) (after : Blank w₄) (hmore : Spells more (.members ms)) :
      Spells (w₁ ++ byte '"' :: (key ++ [byte '"']) ++ w₂ ++ byte ':' :: w₃ ++ text ++ w₄ ++ byte ',' :: more)
        (.members ((key, v) :: ms))

/-- A JSON text: one value with blanks around it. -/
def Text (bs : List UInt8) (v : Document) : Prop :=
  ∃ w₁ text w₂, Blank w₁ ∧ Spells text (.value v) ∧ Blank w₂ ∧ bs = w₁ ++ text ++ w₂

end Grammar

end JsonText
