import Mathlib.Data.List.TakeWhile
import Mathlib.Data.Nat.Digits.Defs
import Mathlib.Tactic

/-! `strtol` in base 10 on a 64-bit `long`, with a result that is clamped to the type. `rest` is
what `end` points to, the whole text where there is no number. -/

namespace ScalableServer.Foundations

def LONG_MAX : ℤ := 2 ^ 63 - 1

def LONG_MIN : ℤ := -2 ^ 63

/-- A string: the bytes before the terminating NUL. -/
structure CString where
  bytes : List UInt8
  noNul : 0 ∉ bytes

def isSpace (b : UInt8) : Bool := b = 32 || (9 ≤ b && b ≤ 13)

def isDigit (b : UInt8) : Bool := 48 ≤ b && b ≤ 57

def digitValue (b : UInt8) : ℕ := b.toNat - 48

structure Strtol where
  value : ℤ
  rest : List UInt8
  erange : Bool
  deriving DecidableEq, Repr

def readSign : List UInt8 → Bool × List UInt8
  | [] => (false, [])
  | b :: s => if b = 45 then (true, s) else if b = 43 then (false, s) else (false, b :: s)

/-- The loop over the digits, with the value of those before. -/
def readDigits : List UInt8 → ℕ → ℕ × List UInt8
  | [], n => (n, [])
  | b :: s, n => if isDigit b = true then readDigits s (10 * n + digitValue b) else (n, b :: s)

def clamp (n : ℤ) : ℤ := max LONG_MIN (min LONG_MAX n)

def strtol (buff : List UInt8) : Strtol :=
  let (negative, s) := readSign (buff.dropWhile isSpace)
  let (n, rest) := readDigits s 0
  if rest = s then { value := 0, rest := buff, erange := false }
  else
    let signed : ℤ := if negative then -n else n
    { value := clamp signed, rest := rest, erange := signed ≠ clamp signed }

structure Numeral where
  spaces : List UInt8
  sign : List UInt8
  digits : List UInt8
  allSpaces : ∀ b ∈ spaces, isSpace b = true
  oneSign : sign = [] ∨ sign = [43] ∨ sign = [45]
  someDigit : digits ≠ []
  allDigits : ∀ b ∈ digits, isDigit b = true

namespace Numeral

def text (m : Numeral) : List UInt8 := m.spaces ++ (m.sign ++ m.digits)

def magnitude (m : Numeral) : ℕ := Nat.ofDigits 10 (m.digits.map digitValue).reverse

def value (m : Numeral) : ℤ := if m.sign = [45] then -m.magnitude else m.magnitude

end Numeral

variable {b : UInt8} {s rest digits : List UInt8} {n : ℕ}

lemma isSpace_of_isDigit (h : isDigit b = true) : isSpace b = false := by
  simp only [isDigit, isSpace, Bool.and_eq_true, decide_eq_true_eq, UInt8.le_iff_toNat_le] at *
  simp only [Bool.or_eq_false_iff, Bool.and_eq_false_iff, decide_eq_false_iff_not,
    ← UInt8.toNat_inj]
  have h48 : (48 : UInt8).toNat = 48 := rfl
  have h32 : (32 : UInt8).toNat = 32 := rfl
  have h13 : (13 : UInt8).toNat = 13 := rfl
  omega

lemma readSign_of_isDigit (h : isDigit b = true) : readSign (b :: s) = (false, b :: s) := by
  have h45 : b ≠ 45 := by
    rintro rfl
    cases h
  have h43 : b ≠ 43 := by
    rintro rfl
    cases h
  rw [readSign, if_neg h45, if_neg h43]

lemma readDigits_append (hdigits : ∀ b ∈ digits, isDigit b = true)
    (hrest : ∀ b ∈ rest.head?, isDigit b = false) :
    readDigits (digits ++ rest) n =
      (10 ^ digits.length * n + Nat.ofDigits 10 (digits.map digitValue).reverse, rest) := by
  induction digits generalizing n with
  | nil =>
    cases rest with
    | nil => simp [readDigits]
    | cons b rest =>
      have hb : isDigit b = false := hrest b rfl
      simp [readDigits, hb]
  | cons b digits ih =>
    have hb : isDigit b = true := hdigits b List.mem_cons_self
    rw [List.cons_append, readDigits, if_pos hb, ih fun c hc => hdigits c (List.mem_cons_of_mem b hc)]
    simp only [List.length_cons, List.map_cons, List.reverse_cons, Nat.ofDigits_append,
      List.length_reverse, List.length_map, Nat.ofDigits_singleton, Prod.mk.injEq, and_true]
    ring

lemma readDigits_splits (s : List UInt8) (n : ℕ) :
    ∃ digits, s = digits ++ (readDigits s n).2 ∧ (∀ b ∈ digits, isDigit b = true) ∧
      ∀ b ∈ (readDigits s n).2.head?, isDigit b = false := by
  induction s generalizing n with
  | nil => exact ⟨[], rfl, by simp, by simp [readDigits]⟩
  | cons b s ih =>
    rw [readDigits]
    split_ifs with hb
    · obtain ⟨digits, hs, hdigits, hrest⟩ := ih (10 * n + digitValue b)
      refine ⟨b :: digits, congrArg (b :: ·) hs, ?_, hrest⟩
      intro c hc
      rcases List.mem_cons.mp hc with rfl | hc
      · exact hb
      · exact hdigits c hc
    · refine ⟨[], rfl, by simp, fun c hc => ?_⟩
      obtain rfl := Option.some.inj hc
      exact Bool.of_not_eq_true hb

lemma readSign_splits (s : List UInt8) :
    ∃ sign, s = sign ++ (readSign s).2 ∧ (sign = [] ∨ sign = [43] ∨ sign = [45]) ∧
      ((readSign s).1 = true ↔ sign = [45]) := by
  cases s with
  | nil => exact ⟨[], rfl, .inl rfl, by simp [readSign]⟩
  | cons b s =>
    rw [readSign]
    split_ifs with h45 h43
    · exact ⟨[45], by rw [h45]; rfl, .inr (.inr rfl), by simp⟩
    · exact ⟨[43], by rw [h43]; rfl, .inr (.inl rfl), by simp⟩
    · exact ⟨[], rfl, .inl rfl, by simp⟩

lemma dropWhile_spaces {spaces : List UInt8} (hspaces : ∀ b ∈ spaces, isSpace b = true)
    (hrest : ∀ b ∈ rest.head?, isSpace b = false) : (spaces ++ rest).dropWhile isSpace = rest := by
  induction spaces with
  | nil =>
    cases rest with
    | nil => rfl
    | cons b rest =>
      have hb : isSpace b = false := hrest b rfl
      simp [hb]
  | cons b spaces ih =>
    rw [List.cons_append, List.dropWhile_cons_of_pos (hspaces b List.mem_cons_self)]
    exact ih fun c hc => hspaces c (List.mem_cons_of_mem b hc)

namespace Numeral

variable {m : Numeral}

lemma digits_cons (m : Numeral) : ∃ b digits, m.digits = b :: digits ∧ isDigit b = true := by
  obtain ⟨b, digits, hd⟩ := List.exists_cons_of_ne_nil m.someDigit
  exact ⟨b, digits, hd, m.allDigits b (by rw [hd]; exact List.mem_cons_self)⟩

lemma strtol_append (m : Numeral) (hrest : ∀ b ∈ rest.head?, isDigit b = false) :
    strtol (m.text ++ rest) =
      { value := clamp m.value, rest := rest, erange := m.value ≠ clamp m.value } := by
  obtain ⟨b, digits, hd, hb⟩ := m.digits_cons
  have hspace : ∀ c ∈ (m.sign ++ (m.digits ++ rest)).head?, isSpace c = false := by
    intro c hc
    rcases m.oneSign with hs | hs | hs
    · rw [hs, hd] at hc
      obtain rfl := Option.some.inj hc
      exact isSpace_of_isDigit hb
    · rw [hs] at hc
      obtain rfl := Option.some.inj hc
      rfl
    · rw [hs] at hc
      obtain rfl := Option.some.inj hc
      rfl
  have hsign : readSign (m.sign ++ (m.digits ++ rest)) =
      (decide (m.sign = [45]), m.digits ++ rest) := by
    rcases m.oneSign with hs | hs | hs
    · rw [hs, hd]
      exact readSign_of_isDigit hb
    · rw [hs]
      rfl
    · rw [hs]
      rfl
  have hdigits := readDigits_append (n := 0) m.allDigits hrest
  have hmoved : rest ≠ m.digits ++ rest := by
    intro he
    have hlen := congrArg List.length he
    rw [List.length_append] at hlen
    exact m.someDigit (List.length_eq_zero_iff.mp (by omega))
  rw [text, List.append_assoc, List.append_assoc, strtol, dropWhile_spaces m.allSpaces hspace]
  simp only [hsign, hdigits, if_neg hmoved, Nat.mul_zero, Nat.zero_add, decide_eq_true_eq]
  rfl

lemma strtol_text (m : Numeral) :
    strtol m.text = { value := clamp m.value, rest := [], erange := m.value ≠ clamp m.value } := by
  have happend : strtol (m.text ++ []) = _ := m.strtol_append (by simp)
  rwa [List.append_nil] at happend

lemma text_ne_nil (m : Numeral) : m.text ≠ [] := by
  rw [text]
  exact List.append_ne_nil_of_right_ne_nil _ (List.append_ne_nil_of_right_ne_nil _ m.someDigit)

end Numeral

lemma strtol_splits (buff : List UInt8) :
    (strtol buff).rest = buff ∨ ∃ m : Numeral, buff = m.text ++ (strtol buff).rest ∧
      ∀ b ∈ (strtol buff).rest.head?, isDigit b = false := by
  obtain ⟨sign, hs, hone, -⟩ := readSign_splits (buff.dropWhile isSpace)
  obtain ⟨digits, hd, hdigits, hrest⟩ := readDigits_splits (readSign (buff.dropWhile isSpace)).2 0
  have hbuff := List.takeWhile_append_dropWhile (p := isSpace) (l := buff)
  by_cases hnone : (readDigits (readSign (buff.dropWhile isSpace)).2 0).2 =
      (readSign (buff.dropWhile isSpace)).2
  · simp only [strtol, if_pos hnone, true_or]
  · simp only [strtol, if_neg hnone]
    have hsome : digits ≠ [] := by
      rintro rfl
      exact hnone hd.symm
    refine .inr ⟨⟨buff.takeWhile isSpace, sign, digits, fun b hb => List.mem_takeWhile_imp hb, hone,
      hsome, hdigits⟩, ?_, hrest⟩
    rw [Numeral.text, List.append_assoc, List.append_assoc, ← hd, ← hs, hbuff]

end ScalableServer.Foundations
