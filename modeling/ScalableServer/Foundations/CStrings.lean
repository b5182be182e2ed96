import Mathlib.Tactic

/-! `strcspn` and `strcmp` on a buffer of which only its own bytes may be read: `none` where the
function would run past its end. -/

namespace ScalableServer.Foundations

/-- The bytes before the first that is NUL or stands in `reject`. -/
def strcspn (reject : List UInt8) : List UInt8 → Option ℕ
  | [] => none
  | b :: bs => if b = 0 ∨ b ∈ reject then some 0 else (strcspn reject bs).map (· + 1)

/-- Whether `strcmp` gives 0. -/
def strcmp : List UInt8 → List UInt8 → Option Bool
  | [], _ => none
  | _, [] => none
  | b :: bs, c :: cs => if b ≠ c then some false else if b = 0 then some true else strcmp bs cs

variable {reject before rest text text' : List UInt8} {b : UInt8}

lemma strcspn_eq_none (h : ∀ b ∈ text, b ≠ 0 ∧ b ∉ reject) : strcspn reject text = none := by
  induction text with
  | nil => rfl
  | cons b text ih =>
    obtain ⟨hb, htext⟩ := List.forall_mem_cons.mp h
    rw [strcspn, if_neg (not_or.mpr hb), ih htext]
    rfl

lemma strcspn_append (h : ∀ b ∈ before, b ≠ 0 ∧ b ∉ reject) (hb : b = 0 ∨ b ∈ reject) :
    strcspn reject (before ++ b :: rest) = some before.length := by
  induction before with
  | nil =>
    rw [List.nil_append, strcspn, if_pos hb]
    rfl
  | cons c before ih =>
    obtain ⟨hc, hbefore⟩ := List.forall_mem_cons.mp h
    rw [List.cons_append, strcspn, if_neg (not_or.mpr hc), ih hbefore]
    rfl

lemma strcmp_append (htext : 0 ∉ text) (htext' : 0 ∉ text') :
    strcmp (text ++ 0 :: rest) (text' ++ [0]) = some (decide (text = text')) := by
  induction text generalizing text' with
  | nil =>
    cases text' with
    | nil => rfl
    | cons c cs =>
      have hc : (0 : UInt8) ≠ c := fun he => htext' (he ▸ List.mem_cons_self)
      simp [strcmp, hc]
  | cons b text ih =>
    obtain ⟨hb, htext⟩ := not_or.mp (List.mem_cons.not.mp htext)
    cases text' with
    | nil => simp [strcmp, Ne.symm hb]
    | cons c cs =>
      obtain ⟨-, hcs⟩ := not_or.mp (List.mem_cons.not.mp htext')
      by_cases he : b = c
      · subst he
        simp [strcmp, Ne.symm hb, ih htext hcs]
      · simp [strcmp, he]

end ScalableServer.Foundations
