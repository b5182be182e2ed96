import ScalableServer.Foundations.Csv

/-! The conversions of `printf` as columns: numbers in decimal, the four numbers of an IPv4 address,
and seconds with six decimals, which are ticks of `clock` over a million of them. The quotient is a
`double`, whose sixth decimal is right below `2 ^ 52` ticks. -/

namespace ScalableServer.Foundations

def decimalDigits (n : ℕ) : List Char := Nat.toDigits 10 n

def ofDecimalDigits (digits : List Char) : ℕ := Nat.ofDigitChars 10 digits 0

variable {c : Char} {n k : ℕ}

@[simp] lemma ofDecimalDigits_decimalDigits (n : ℕ) : ofDecimalDigits (decimalDigits n) = n :=
  Nat.ofDigitChars_toDigits (by decide) (by decide)

lemma isDigit_of_mem (h : c ∈ decimalDigits n) : c.isDigit = true :=
  Nat.isDigit_of_mem_toDigits (by decide) (by decide) h

lemma notMem_decimalDigits (hc : c.isDigit = false) (n : ℕ) : c ∉ decimalDigits n := by
  intro hmem
  rw [isDigit_of_mem hmem] at hc
  cases hc

lemma plain_of_isDigit {field : List Char} (h : ∀ c ∈ field, c.isDigit = true) : Plain field := by
  intro c hc
  have hdigit := h c hc
  refine ⟨?_, ?_, ?_⟩
  · rintro rfl
    exact absurd hdigit (by decide)
  · rintro rfl
    exact absurd hdigit (by decide)
  · rw [Char.isDigit, Bool.and_eq_true, decide_eq_true_eq, decide_eq_true_eq] at hdigit
    have hle : c.toNat ≤ 57 := hdigit.2
    omega

lemma plain_decimalDigits (n : ℕ) : Plain (decimalDigits n) :=
  plain_of_isDigit fun _ => isDigit_of_mem

def pad (k n : ℕ) : List Char := List.replicate (k - (decimalDigits n).length) '0' ++ decimalDigits n

lemma ofDecimalDigits_pad (k n : ℕ) : ofDecimalDigits (pad k n) = n := by
  rw [ofDecimalDigits, pad, Nat.ofDigitChars_append, Nat.ofDigitChars_replicate_zero, Nat.mul_zero]
  exact ofDecimalDigits_decimalDigits n

lemma isDigit_of_mem_pad (h : c ∈ pad k n) : c.isDigit = true := by
  rcases List.mem_append.mp h with h | h
  · rw [List.eq_of_mem_replicate h]
    rfl
  · exact isDigit_of_mem h

lemma notMem_pad (hc : c.isDigit = false) (k n : ℕ) : c ∉ pad k n := by
  intro hmem
  rw [isDigit_of_mem_pad hmem] at hc
  cases hc

def decimal : Column ℕ where
  Fits _ := True
  print := decimalDigits
  read := ofDecimalDigits
  plain n _ := plain_decimalDigits n
  read_print n _ := ofDecimalDigits_decimalDigits n

def textColumn : Column (List Char) where
  Fits := Plain
  print := id
  read := id
  plain _ := id
  read_print _ _ := rfl

/-- `inet_ntoa`. -/
def dotted : Column ℕ where
  Fits _ := True
  print a :=
    decimalDigits (a / 256 ^ 3) ++ '.' :: (decimalDigits (a / 256 ^ 2 % 256) ++ '.' ::
      (decimalDigits (a / 256 % 256) ++ '.' :: decimalDigits (a % 256)))
  read field := (field.splitOn '.').foldl (fun a digits => 256 * a + ofDecimalDigits digits) 0
  plain a _ := by
    have hdigits := plain_decimalDigits
    exact (hdigits _).append (((hdigits _).append (((hdigits _).append ((hdigits _).cons
      (by decide))).cons (by decide))).cons (by decide))
  read_print a _ := by
    have hnot : ∀ n, '.' ∉ decimalDigits n := notMem_decimalDigits (by decide)
    rw [List.splitOn_append_cons_self_of_not_mem (hnot _),
      List.splitOn_append_cons_self_of_not_mem (hnot _),
      List.splitOn_append_cons_self_of_not_mem (hnot _), List.splitOn_eq_singleton (hnot _)]
    simp only [List.foldl_cons, List.foldl_nil, ofDecimalDigits_decimalDigits]
    omega

/-- `%lf` of `n` millionths. -/
def millionths : Column ℕ where
  Fits n := n < 2 ^ 52
  print n := decimalDigits (n / 10 ^ 6) ++ '.' :: pad 6 (n % 10 ^ 6)
  read field :=
    match field.splitOn '.' with
    | [whole, fraction] => 10 ^ 6 * ofDecimalDigits whole + ofDecimalDigits fraction
    | _ => 0
  plain n _ :=
    (plain_decimalDigits _).append ((plain_of_isDigit fun _ => isDigit_of_mem_pad).cons (by decide))
  read_print n _ := by
    rw [List.splitOn_append_cons_self_of_not_mem (notMem_decimalDigits (by decide) _),
      List.splitOn_eq_singleton (notMem_pad (by decide) _ _)]
    simp only [ofDecimalDigits_decimalDigits, ofDecimalDigits_pad]
    omega

def Column.signed (c : Column ℕ) (hsign : ∀ n, (c.print n).head? ≠ some '-') : Column ℤ where
  Fits n := c.Fits n.natAbs
  print n := if n < 0 then '-' :: c.print n.natAbs else c.print n.natAbs
  read field :=
    if field.head? = some '-' then -(c.read field.tail : ℤ) else c.read field
  plain n hn := by
    have hplain := c.plain n.natAbs hn
    split_ifs
    · exact hplain.cons (by decide)
    · exact hplain
  read_print n hn := by
    by_cases hneg : n < 0
    · rw [if_pos hneg, if_pos List.head?_cons, List.tail_cons, c.read_print _ hn]
      omega
    · rw [if_neg hneg, if_neg (hsign _), c.read_print _ hn]
      omega

lemma head_decimalDigits (n : ℕ) (rest : List Char) :
    (decimalDigits n ++ rest).head? ≠ some '-' := by
  intro hhead
  obtain ⟨d, ds, hd⟩ := List.exists_cons_of_ne_nil (Nat.toDigits_ne_nil : Nat.toDigits 10 n ≠ [])
  rw [decimalDigits, hd, List.cons_append, List.head?_cons, Option.some.injEq] at hhead
  have hdigit := isDigit_of_mem (n := n) (c := d) (by rw [decimalDigits, hd]; exact List.mem_cons_self)
  rw [hhead] at hdigit
  cases hdigit

def signedDecimal : Column ℤ :=
  decimal.signed fun n => by simpa [decimal] using head_decimalDigits n []

def seconds : Column ℤ := millionths.signed fun _ => head_decimalDigits _ _

/-- A blank before the field, as in `", "`. -/
def Column.spaced {α : Type*} (c : Column α) : Column α where
  Fits := c.Fits
  print a := ' ' :: c.print a
  read field := c.read field.tail
  plain a ha := (c.plain a ha).cons (by decide)
  read_print a ha := c.read_print a ha

/-- `%lu` of a `long`. -/
def unsignedLong : Column ℤ where
  Fits n := -2 ^ 63 ≤ n ∧ n < 2 ^ 63
  print n := decimalDigits (n % 2 ^ 64).toNat
  read field :=
    let n := ofDecimalDigits field
    if n < 2 ^ 63 then n else n - 2 ^ 64
  plain _ _ := plain_decimalDigits _
  read_print n hn := by
    simp only [ofDecimalDigits_decimalDigits]
    split_ifs <;> omega

example : seconds.print (-1500) = "-0.001500".toList := by decide

example : dotted.print 2130706433 = "127.0.0.1".toList := by decide

end ScalableServer.Foundations
