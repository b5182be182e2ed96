import Mathlib.Data.List.Basic
import Mathlib.Data.List.Perm.Basic
import Mathlib.Tactic

namespace ScalableServer.Foundations

variable {ι α : Type*} [DecidableEq ι]

inductive Interleaves : (ι → List α) → List α → Prop
  | nil : Interleaves (fun _ => []) []
  | snoc {parts : ι → List α} {l : List α} (i : ι) (a : α) (h : Interleaves parts l) :
      Interleaves (Function.update parts i (parts i ++ [a])) (l ++ [a])

variable {parts : ι → List α} {l : List α}

namespace Interleaves

lemma append (h : Interleaves parts l) (i : ι) (more : List α) :
    Interleaves (Function.update parts i (parts i ++ more)) (l ++ more) := by
  induction more generalizing parts l with
  | nil =>
    rw [List.append_nil, List.append_nil, Function.update_eq_self]
    exact h
  | cons a more ih =>
    have hmore := ih (h.snoc i a)
    rw [Function.update_self, Function.update_idem, List.append_assoc, List.append_assoc] at hmore
    exact hmore

end Interleaves

variable {order : List ι} {i : ι}

lemma flatMap_update_of_notMem (parts : ι → List α) (part : List α) (hi : i ∉ order) :
    order.flatMap (Function.update parts i part) = order.flatMap parts := by
  refine List.flatMap_congr fun j hj => ?_
  rw [Function.update_of_ne]
  rintro rfl
  exact hi hj

lemma Interleaves.perm (h : Interleaves parts l) (hnodup : order.Nodup) (hall : ∀ i, i ∈ order) :
    (order.flatMap parts).Perm l := by
  induction h with
  | nil => simp
  | @snoc parts l i a _ ih =>
    obtain ⟨before, after, rfl⟩ := List.append_of_mem (hall i)
    have hnot : i ∉ before ∧ i ∉ after := by
      rw [List.nodup_middle, List.nodup_cons, List.mem_append, not_or] at hnodup
      exact hnodup.1
    rw [List.flatMap_append, List.flatMap_cons] at ih ⊢
    rw [flatMap_update_of_notMem parts _ hnot.1, flatMap_update_of_notMem parts _ hnot.2,
      Function.update_self, List.append_assoc, List.singleton_append]
    refine List.Perm.trans ?_ (ih.append_right [a])
    rw [List.append_assoc, List.append_assoc]
    refine List.Perm.append_left _ (List.Perm.append_left _ ?_)
    exact (List.perm_append_singleton a _).symm

end ScalableServer.Foundations
