import Mathlib.Logic.Relation
import Mathlib.Tactic

/-! Loops over one body with a bound on the number of passes: `iterate` is `none` when the body
blocks or the bound is met. `Passes body s t` tells that a loop from `s` comes to the start of a
pass in `t`, whether or not it ends. -/

namespace ScalableServer.Foundations

inductive Iter (σ ρ : Type*)
  | again (s : σ)
  | done (r : ρ)
  | blocked

variable {σ ρ : Type*}

def iterate (body : σ → Iter σ ρ) : ℕ → σ → Option ρ
  | 0, _ => none
  | fuel + 1, s =>
    match body s with
    | .again t => iterate body fuel t
    | .done r => some r
    | .blocked => none

lemma iterate_succ (body : σ → Iter σ ρ) (fuel : ℕ) (s : σ) :
    iterate body (fuel + 1) s =
      match body s with
      | .again t => iterate body fuel t
      | .done r => some r
      | .blocked => none := rfl

lemma iterate_again {body : σ → Iter σ ρ} {fuel : ℕ} {s t : σ} (h : body s = .again t) :
    iterate body (fuel + 1) s = iterate body fuel t := by
  rw [iterate_succ, h]

lemma iterate_done {body : σ → Iter σ ρ} {fuel : ℕ} {s : σ} {r : ρ} (h : body s = .done r) :
    iterate body (fuel + 1) s = some r := by
  rw [iterate_succ, h]

lemma iterate_total {body : σ → Iter σ ρ} (I : σ → Prop) (Q : ρ → Prop) (measure : σ → ℕ)
    (hbody : ∀ s, I s → (∃ t, body s = .again t ∧ I t ∧ measure t < measure s) ∨
      ∃ r, body s = .done r ∧ Q r)
    {fuel : ℕ} {s : σ} (hs : I s) (hfuel : measure s < fuel) :
    ∃ r, iterate body fuel s = some r ∧ Q r := by
  induction fuel generalizing s with
  | zero => omega
  | succ fuel ih =>
    rw [iterate_succ]
    rcases hbody s hs with ⟨t, ht, hi, hm⟩ | ⟨r, hr, hq⟩
    · rw [ht]
      exact ih hi (by omega)
    · rw [hr]
      exact ⟨r, rfl, hq⟩

lemma iterate_partial {body : σ → Iter σ ρ} (I : σ → Prop) (Q : ρ → Prop)
    (hagain : ∀ s t, I s → body s = .again t → I t)
    (hdone : ∀ s r, I s → body s = .done r → Q r)
    {fuel : ℕ} {s : σ} {r : ρ} (hs : I s) (h : iterate body fuel s = some r) : Q r := by
  induction fuel generalizing s with
  | zero => simp [iterate] at h
  | succ fuel ih =>
    rw [iterate_succ] at h
    cases hb : body s with
    | again t =>
      rw [hb] at h
      exact ih (hagain s t hs hb) h
    | done r' =>
      simp only [hb, Option.some.injEq] at h
      exact h ▸ hdone s r' hs hb
    | blocked => simp only [hb, reduceCtorEq] at h

def Iter.Keeps (I : σ → Prop) (Q : ρ → Prop) : Iter σ ρ → Prop
  | .again t => I t
  | .done r => Q r
  | .blocked => True

lemma Iter.Keeps.mono {I J : σ → Prop} {Q R : ρ → Prop} {x : Iter σ ρ} (h : x.Keeps I Q)
    (hI : ∀ s, I s → J s) (hQ : ∀ r, Q r → R r) : x.Keeps J R := by
  cases x with
  | again s => exact hI s h
  | done r => exact hQ r h
  | blocked => trivial

lemma iterate_keeps {body : σ → Iter σ ρ} {I : σ → Prop} {Q : ρ → Prop}
    (hpass : ∀ s, I s → (body s).Keeps I Q) {fuel : ℕ} {s : σ} {r : ρ} (hs : I s)
    (h : iterate body fuel s = some r) : Q r := by
  refine iterate_partial I Q (fun x y hx hy => ?_) (fun x q hx hq => ?_) hs h
  · have hkeeps := hpass x hx
    rwa [hy] at hkeeps
  · have hkeeps := hpass x hx
    rwa [hq] at hkeeps

lemma iterate_mono {body : σ → Iter σ ρ} {fuel more : ℕ} {s : σ} {r : ρ}
    (h : iterate body fuel s = some r) (hle : fuel ≤ more) : iterate body more s = some r := by
  induction fuel generalizing s more with
  | zero => cases h
  | succ fuel ih =>
    obtain ⟨more, rfl⟩ : ∃ k, more = k + 1 := ⟨more - 1, by omega⟩
    rw [iterate_succ] at h ⊢
    cases hb : body s with
    | again t =>
      rw [hb] at h
      exact ih h (by omega)
    | done r' =>
      rw [hb] at h
      exact h
    | blocked =>
      rw [hb] at h
      cases h

lemma iterate_diverges {body : σ → Iter σ ρ} (I : σ → Prop)
    (hpass : ∀ s, I s → ∃ t, body s = .again t ∧ I t) {s : σ} (hs : I s) (fuel : ℕ) :
    iterate body fuel s = none := by
  induction fuel generalizing s with
  | zero => rfl
  | succ fuel ih =>
    obtain ⟨t, ht, hi⟩ := hpass s hs
    rw [iterate_again ht]
    exact ih hi

def Passes (body : σ → Iter σ ρ) : σ → σ → Prop :=
  Relation.ReflTransGen fun s t => body s = .again t

lemma Passes.invariant {body : σ → Iter σ ρ} {I : σ → Prop} {s t : σ} (h : Passes body s t)
    (hs : I s) (hpass : ∀ x y, I x → body x = .again y → I y) : I t := by
  induction h with
  | refl => exact hs
  | tail _ hlast ih => exact hpass _ _ ih hlast

lemma passes_of_iterate {body : σ → Iter σ ρ} {fuel : ℕ} {s : σ} {r : ρ}
    (h : iterate body fuel s = some r) : ∃ t, Passes body s t ∧ body t = .done r := by
  induction fuel generalizing s with
  | zero => cases h
  | succ fuel ih =>
    rw [iterate_succ] at h
    cases hb : body s with
    | again t =>
      rw [hb] at h
      obtain ⟨u, hu, hr⟩ := ih h
      exact ⟨u, .head hb hu, hr⟩
    | done r' =>
      simp only [hb, Option.some.injEq] at h
      exact ⟨s, .refl, h ▸ hb⟩
    | blocked => simp only [hb, reduceCtorEq] at h

end ScalableServer.Foundations
