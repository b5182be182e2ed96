import Mathlib.Algebra.BigOperators.Group.Finset.Basic
import Mathlib.Tactic

namespace ScalableServer.Foundations

variable {ι α δ A : Type*}

lemma kept_update [DecidableEq ι] {f : ι → Option δ} {i j : ι} {d : Option δ} {x : δ}
    (hi : f i ≠ some x) (hj : f j = some x) : Function.update f i d j = some x := by
  have hne : j ≠ i := by
    rintro rfl
    exact hi hj
  rw [Function.update_of_ne hne, hj]

lemma foldl_update_none [DecidableEq ι] (f : α → ι) {l : List α} {a : α} (g : ι → Option δ)
    (ha : a ∈ l ∨ g (f a) = none) :
    l.foldl (fun g b => Function.update g (f b) none) g (f a) = none := by
  induction l generalizing g with
  | nil => exact ha.resolve_left List.not_mem_nil
  | cons b l ih =>
    apply ih
    change a ∈ l ∨ Function.update g (f b) none (f a) = none
    by_cases hab : f a = f b
    · rw [hab, Function.update_self]
      exact .inr rfl
    · rw [Function.update_of_ne hab]
      refine ha.imp_left fun hmem => (List.mem_cons.mp hmem).resolve_left ?_
      rintro rfl
      exact hab rfl

lemma foldl_update_none_or [DecidableEq ι] (f : α → ι) (l : List α) (g : ι → Option δ) (i : ι) :
    l.foldl (fun g b => Function.update g (f b) none) g i = none ∨
      l.foldl (fun g b => Function.update g (f b) none) g i = g i := by
  induction l generalizing g with
  | nil => exact .inr rfl
  | cons b l ih =>
    rcases ih (Function.update g (f b) none) with hnone | hsame
    · exact .inl hnone
    · by_cases hi : i = f b
      · subst hi
        rw [Function.update_self] at hsame
        exact .inl hsame
      · rw [Function.update_of_ne hi] at hsame
        exact .inr hsame

variable [DecidableEq ι] [AddCommMonoid A]

lemma sum_update_of_mem (f : α → A) (c : ι → α) {s : Finset ι} {i : ι} (hi : i ∈ s) (x : α) :
    ∑ j ∈ s, f (Function.update c i x j) + f (c i) = ∑ j ∈ s, f (c j) + f x := by
  have hrest : ∑ j ∈ s.erase i, f (Function.update c i x j) = ∑ j ∈ s.erase i, f (c j) := by
    refine Finset.sum_congr rfl fun j hj => ?_
    rw [Function.update_of_ne (Finset.ne_of_mem_erase hj)]
  rw [← Finset.add_sum_erase _ (fun j => f (Function.update c i x j)) hi,
    ← Finset.add_sum_erase _ (fun j => f (c j)) hi, hrest, Function.update_self]
  abel

lemma sum_update [Fintype ι] (f : α → A) (c : ι → α) (i : ι) (x : α) :
    ∑ j, f (Function.update c i x j) + f (c i) = ∑ j, f (c j) + f x :=
  sum_update_of_mem f c (Finset.mem_univ i) x

lemma sum_update₂ {β : Type*} [Fintype ι] (f : α → β → A) (c : ι → α) (d : ι → β) (i : ι) (x : α)
    (y : β) : ∑ j, f (Function.update c i x j) (Function.update d i y j) + f (c i) (d i) =
      ∑ j, f (c j) (d j) + f x y := by
  have hpair : ∀ j, (Function.update c i x j, Function.update d i y j) =
      Function.update (fun j => (c j, d j)) i (x, y) j := by
    intro j
    by_cases hj : j = i
    · subst hj
      simp only [Function.update_self]
    · simp only [Function.update_of_ne hj]
  have hsum := sum_update (fun p : α × β => f p.1 p.2) (fun j => (c j, d j)) i (x, y)
  simpa only [← hpair] using hsum

end ScalableServer.Foundations
