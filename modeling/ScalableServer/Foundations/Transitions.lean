import Mathlib.Logic.Relation
import Mathlib.Tactic

/-! Machines driven by events: `step s e` is `none` where `e` cannot happen in `s`. A run within
`allowed` takes only events that the environment may choose in the state it meets them in. -/

namespace ScalableServer.Foundations

structure Machine (σ ε : Type*) where
  step : σ → ε → Option σ

namespace Machine

variable {σ τ ε φ : Type*} (m : Machine σ ε)

def Step (allowed : σ → ε → Prop) (s t : σ) : Prop :=
  ∃ e, allowed s e ∧ m.step s e = some t

abbrev Reaches (allowed : σ → ε → Prop) : σ → σ → Prop :=
  Relation.ReflTransGen (m.Step allowed)

variable {m} {allowed allowed' : σ → ε → Prop} {s t u : σ}

lemma Reaches.invariant {I : σ → Prop} (h : m.Reaches allowed s t) (hs : I s)
    (hstep : ∀ a e b, I a → allowed a e → m.step a e = some b → I b) : I t := by
  induction h with
  | refl => exact hs
  | tail _ he ih =>
    obtain ⟨e, ha, hb⟩ := he
    exact hstep _ e _ ih ha hb

lemma Reaches.mono (h : m.Reaches allowed s t) (hsub : ∀ a e, allowed a e → allowed' a e) :
    m.Reaches allowed' s t :=
  Relation.ReflTransGen.mono (fun _ _ ⟨e, ha, hb⟩ => ⟨e, hsub _ e ha, hb⟩) _ _ h

lemma Reaches.simulation {n : Machine τ φ} {permitted : τ → φ → Prop} {I : σ → Prop} (f : σ → τ)
    (h : m.Reaches allowed s t) (hs : I s)
    (hstep : ∀ a e b, I a → allowed a e → m.step a e = some b →
      I b ∧ n.Reaches permitted (f a) (f b)) :
    I t ∧ n.Reaches permitted (f s) (f t) := by
  induction h with
  | refl => exact ⟨hs, .refl⟩
  | tail _ he ih =>
    obtain ⟨e, ha, hb⟩ := he
    obtain ⟨hi, hrun⟩ := hstep _ e _ ih.1 ha hb
    exact ⟨hi, ih.2.trans hrun⟩

variable (m) in
def observe {γ : Type*} (note : σ → ε → γ → γ) : Machine (σ × γ) ε where
  step p e := (m.step p.1 e).map fun t => (t, note p.1 e p.2)

lemma step_observe {γ : Type*} {note : σ → ε → γ → γ} {p q : σ × γ} {e : ε}
    (h : (m.observe note).step p e = some q) : m.step p.1 e = some q.1 ∧ q.2 = note p.1 e p.2 := by
  obtain ⟨t, ht, rfl⟩ := Option.map_eq_some_iff.mp h
  exact ⟨ht, rfl⟩

variable (m) in
def run : List ε → σ → Option σ
  | [], s => some s
  | e :: es, s => (m.step s e).bind (run es)

lemma run_append {es es' : List ε} : m.run (es ++ es') s = (m.run es s).bind (m.run es') := by
  induction es generalizing s with
  | nil => rfl
  | cons e es ih =>
    simp only [List.cons_append, run, Option.bind_assoc, ih]

lemma run_singleton {e : ε} : m.run [e] s = m.step s e := by
  change (m.step s e).bind some = m.step s e
  exact Option.bind_fun_some _

lemma run_invariant {I : σ → Prop} {es : List ε} (hs : I s)
    (hstep : ∀ done e a b, done ++ [e] <+: es → m.run done s = some a → I a →
      m.step a e = some b → I b) (done : List ε) (t : σ) (hdone : done <+: es)
    (hrun : m.run done s = some t) : I t := by
  induction done using List.reverseRecOn generalizing t with
  | nil => exact Option.some.inj hrun ▸ hs
  | append_singleton done e ih =>
    have hrun' := hrun
    rw [run_append] at hrun'
    obtain ⟨a, ha, hlast⟩ := Option.bind_eq_some_iff.mp hrun'
    have hbefore := ih a ((List.prefix_append done [e]).trans hdone) ha
    exact hstep done e a t hdone ha hbefore (run_singleton.symm.trans hlast)

variable (m) in
def runWithin (allowed : σ → ε → Prop) [∀ s e, Decidable (allowed s e)] :
    List ε → σ → Option σ
  | [], s => some s
  | e :: es, s => if allowed s e then (m.step s e).bind (runWithin allowed es) else none

lemma reaches_of_runWithin [∀ s e, Decidable (allowed s e)] {es : List ε}
    (h : m.runWithin allowed es s = some t) : m.Reaches allowed s t := by
  induction es generalizing s with
  | nil =>
    obtain rfl := Option.some.inj h
    exact .refl
  | cons e es ih =>
    simp only [runWithin] at h
    split_ifs at h with ha
    obtain ⟨u, hu, ht⟩ := Option.bind_eq_some_iff.mp h
    exact .head ⟨e, ha, hu⟩ (ih ht)

lemma run_of_runWithin [∀ s e, Decidable (allowed s e)] {es : List ε}
    (h : m.runWithin allowed es s = some t) : m.run es s = some t := by
  induction es generalizing s with
  | nil => exact h
  | cons e es ih =>
    simp only [runWithin] at h
    split_ifs at h
    obtain ⟨u, hu, ht⟩ := Option.bind_eq_some_iff.mp h
    exact Option.bind_eq_some_iff.mpr ⟨u, hu, ih ht⟩

lemma reaches_of_run {kind : ε → Prop} {es : List ε} (hes : ∀ e ∈ es, kind e)
    (h : m.run es s = some t) : m.Reaches (fun _ e => kind e) s t := by
  induction es generalizing s with
  | nil =>
    obtain rfl := Option.some.inj h
    exact .refl
  | cons e es ih =>
    obtain ⟨u, hu, ht⟩ := Option.bind_eq_some_iff.mp h
    have hrest : ∀ x ∈ es, kind x := fun x hx => hes x (List.mem_cons_of_mem e hx)
    exact .head ⟨e, hes e List.mem_cons_self, hu⟩ (ih hrest ht)

lemma run_observe {γ : Type*} (note : σ → ε → γ → γ) {es : List ε} (h : m.run es s = some t) (g : γ) :
    ∃ g', (m.observe note).run es (s, g) = some (t, g') := by
  induction es generalizing s g with
  | nil => exact ⟨g, congrArg some (Prod.ext (Option.some.inj h) rfl)⟩
  | cons e es ih =>
    obtain ⟨u, hu, hrest⟩ := Option.bind_eq_some_iff.mp h
    obtain ⟨g', hg'⟩ := ih hrest (note s e g)
    exact ⟨g', Option.bind_eq_some_iff.mpr ⟨_, Option.map_eq_some_iff.mpr ⟨u, hu, rfl⟩, hg'⟩⟩

lemma run_of_observe {γ : Type*} {note : σ → ε → γ → γ} {es : List ε} {g g' : γ}
    (h : (m.observe note).run es (s, g) = some (t, g')) : m.run es s = some t := by
  induction es generalizing s g with
  | nil =>
    obtain ⟨rfl, -⟩ := Prod.mk.inj (Option.some.inj h)
    rfl
  | cons e es ih =>
    obtain ⟨⟨u, k⟩, hu, hrest⟩ := Option.bind_eq_some_iff.mp h
    exact Option.bind_eq_some_iff.mpr ⟨u, (step_observe hu).1, ih hrest⟩

lemma Reaches.refines {n : Machine τ φ} {uses : σ → ε → List φ} {R : σ → τ → Prop} {p : τ}
    {us : List φ}
    (h : (m.observe fun s e us => us ++ uses s e).Reaches (fun p e => allowed p.1 e) (s, [])
      (t, us)) (hs : R s p)
    (hstep : ∀ a e b p, R a p → allowed a e → m.step a e = some b →
      ∃ q, n.run (uses a e) p = some q ∧ R b q) : ∃ q, n.run us p = some q ∧ R t q := by
  refine h.invariant (I := fun x => ∃ q, n.run x.2 p = some q ∧ R x.1 q) ⟨p, rfl, hs⟩ ?_
  rintro ⟨a, us⟩ e ⟨b, us'⟩ ⟨q, hq, ha⟩ hallowed hab
  obtain ⟨hb, rfl⟩ := step_observe hab
  obtain ⟨q', hq', hb'⟩ := hstep a e b q ha hallowed hb
  refine ⟨q', ?_, hb'⟩
  change n.run (us ++ uses a e) p = some q'
  rw [run_append, hq]
  exact hq'

end Machine

end ScalableServer.Foundations
