import ScalableServer.Foundations.Descriptors
import ScalableServer.Foundations.Transitions

/-! A set of at most `M` members, each of which is lent to one borrower at a time, and which leave
only when they are at home. The history of a run is the list of its events. -/

namespace ScalableServer.Foundations

inductive Loan (κ : Type*)
  | join (k : κ)
  | lend (k : κ)
  | restore (k : κ)
  | leave (k : κ)
  deriving DecidableEq, Repr

@[ext]
structure Lending (κ : Type*) (M : ℕ) where
  members : Finset κ
  lent : Finset κ
  lent_subset : lent ⊆ members
  card_le : members.card ≤ M

def Loan.fdEvent : Loan ℤ → Option FdEvent
  | .join fd => some (.opened fd)
  | .leave fd => some (.closed fd)
  | .lend _ | .restore _ => none

namespace Lending

variable {κ : Type*} [DecidableEq κ] {M : ℕ}

def empty (κ : Type*) (M : ℕ) : Lending κ M := ⟨∅, ∅, Finset.Subset.refl _, Nat.zero_le M⟩

def step (p : Lending κ M) : Loan κ → Option (Lending κ M)
  | .join k =>
    if h : k ∉ p.members ∧ p.members.card < M then
      some
        { members := insert k p.members
          lent := p.lent
          lent_subset := p.lent_subset.trans (Finset.subset_insert k _)
          card_le := (Finset.card_insert_le k _).trans h.2 }
    else none
  | .lend k =>
    if h : k ∈ p.members ∧ k ∉ p.lent then
      some { p with
        lent := insert k p.lent
        lent_subset := Finset.insert_subset h.1 p.lent_subset }
    else none
  | .restore k =>
    if k ∈ p.lent then
      some { p with
        lent := p.lent.erase k
        lent_subset := (Finset.erase_subset k _).trans p.lent_subset }
    else none
  | .leave k =>
    if h : k ∈ p.members ∧ k ∉ p.lent then
      some
        { members := p.members.erase k
          lent := p.lent
          lent_subset := Finset.subset_erase.mpr ⟨p.lent_subset, h.2⟩
          card_le := (Finset.card_erase_le).trans p.card_le }
    else none

def machine : Machine (Lending κ M) (Loan κ) := ⟨step⟩

structure Balanced (us : List (Loan κ)) (members lent : κ → Prop) : Prop where
  member : ∀ k, (members k ∧ us.count (.join k) = us.count (.leave k) + 1) ∨
    ¬ members k ∧ us.count (.join k) = us.count (.leave k)
  lent : ∀ k, (lent k ∧ us.count (.lend k) = us.count (.restore k) + 1) ∨
    ¬ lent k ∧ us.count (.lend k) = us.count (.restore k)

variable {p q : Lending κ M} {u : Loan κ} {us : List (Loan κ)} {k : κ}

lemma Balanced.step (h : Balanced us (· ∈ p.members) (· ∈ p.lent)) (hstep : p.step u = some q) :
    Balanced (us ++ [u]) (· ∈ q.members) (· ∈ q.lent) := by
  have hcount : ∀ v, (us ++ [u]).count v = us.count v + if u = v then 1 else 0 := by
    intro v
    rw [List.count_append, List.count_singleton]
    simp only [beq_iff_eq]
  constructor <;> intro j
  · have hj := h.member j
    simp only [hcount]
    cases u with
    | join k =>
      simp only [Lending.step] at hstep
      split_ifs at hstep with hk
      obtain rfl := Option.some.inj hstep
      by_cases hkj : k = j
      · subst hkj
        have hnot := hj.resolve_left fun hmem => hk.1 hmem.1
        simp [hnot.2]
      · simpa [hkj, Ne.symm hkj] using hj
    | leave k =>
      simp only [Lending.step] at hstep
      split_ifs at hstep with hk
      obtain rfl := Option.some.inj hstep
      by_cases hkj : k = j
      · subst hkj
        have hin := hj.resolve_right fun hmem => hmem.1 hk.1
        simp [hin.2]
      · simpa [hkj, Ne.symm hkj] using hj
    | lend k | restore k =>
      simp only [Lending.step] at hstep
      split_ifs at hstep with hk
      obtain rfl := Option.some.inj hstep
      simpa using hj
  · have hj := h.lent j
    simp only [hcount]
    cases u with
    | lend k =>
      simp only [Lending.step] at hstep
      split_ifs at hstep with hk
      obtain rfl := Option.some.inj hstep
      by_cases hkj : k = j
      · subst hkj
        have hnot := hj.resolve_left fun hmem => hk.2 hmem.1
        simp [hnot.2]
      · simpa [hkj, Ne.symm hkj] using hj
    | restore k =>
      simp only [Lending.step] at hstep
      split_ifs at hstep with hk
      obtain rfl := Option.some.inj hstep
      by_cases hkj : k = j
      · subst hkj
        have hin := hj.resolve_right fun hmem => hmem.1 hk
        simp [hin.2]
      · simpa [hkj, Ne.symm hkj] using hj
    | join k | leave k =>
      simp only [Lending.step] at hstep
      split_ifs at hstep with hk
      obtain rfl := Option.some.inj hstep
      simpa using hj

lemma balanced_of_run (hrun : machine.run us (empty κ M) = some p) :
    Balanced us (· ∈ p.members) (· ∈ p.lent) := by
  induction us using List.reverseRecOn generalizing p with
  | nil =>
    obtain rfl := Option.some.inj hrun
    exact ⟨fun k => .inr ⟨Finset.notMem_empty k, rfl⟩, fun k => .inr ⟨Finset.notMem_empty k, rfl⟩⟩
  | append_singleton us u ih =>
    rw [Machine.run_append] at hrun
    obtain ⟨q, hq, hlast⟩ := Option.bind_eq_some_iff.mp hrun
    exact (ih hq).step (Machine.run_singleton.symm.trans hlast)

lemma run_prefix {us' : List (Loan κ)} (hrun : machine.run us (empty κ M) = some p)
    (hpre : us' <+: us) : ∃ q, machine.run us' (empty κ M) = some q := by
  obtain ⟨rest, rfl⟩ := hpre
  rw [Machine.run_append] at hrun
  obtain ⟨q, hq, -⟩ := Option.bind_eq_some_iff.mp hrun
  exact ⟨q, hq⟩

lemma loans_exclusive {us' : List (Loan κ)} (hrun : machine.run us (empty κ M) = some p)
    (hpre : us' <+: us) (k : κ) :
    us'.count (.restore k) ≤ us'.count (.lend k) ∧
      us'.count (.lend k) ≤ us'.count (.restore k) + 1 := by
  obtain ⟨q, hq⟩ := run_prefix hrun hpre
  have hbalanced := (balanced_of_run hq).lent k
  omega

section Descriptors

variable {p q : Lending ℤ M} {u : Loan ℤ} {us : List (Loan ℤ)} {held : List ℤ}

lemma ledger_step (hnodup : held.Nodup) (hmem : ∀ fd, fd ∈ held ↔ fd ∈ p.members)
    (hstep : p.step u = some q) :
    ∃ held', ledger held u.fdEvent.toList = some held' ∧ held'.Nodup ∧
      ∀ fd, fd ∈ held' ↔ fd ∈ q.members := by
  cases u with
  | join fd =>
    simp only [Lending.step] at hstep
    split_ifs at hstep with hfd
    obtain rfl := Option.some.inj hstep
    refine ⟨fd :: held, rfl, hnodup.cons fun hin => hfd.1 ((hmem fd).mp hin), fun g => ?_⟩
    rw [List.mem_cons, Finset.mem_insert, hmem]
  | leave fd =>
    simp only [Lending.step] at hstep
    split_ifs at hstep with hfd
    obtain rfl := Option.some.inj hstep
    refine ⟨held.erase fd, ledger_closed ((hmem fd).mpr hfd.1), hnodup.erase fd, fun g => ?_⟩
    rw [hnodup.mem_erase_iff, Finset.mem_erase, hmem]
  | lend fd | restore fd =>
    simp only [Lending.step] at hstep
    split_ifs at hstep
    obtain rfl := Option.some.inj hstep
    exact ⟨held, rfl, hnodup, hmem⟩

lemma ledger_of_run (hrun : machine.run us (empty ℤ M) = some p) :
    ∃ held, ledger [] (us.filterMap Loan.fdEvent) = some held ∧ held.Nodup ∧
      ∀ fd, fd ∈ held ↔ fd ∈ p.members := by
  induction us using List.reverseRecOn generalizing p with
  | nil =>
    obtain rfl := Option.some.inj hrun
    exact ⟨[], rfl, List.nodup_nil, fun fd => iff_of_false List.not_mem_nil (Finset.notMem_empty fd)⟩
  | append_singleton us u ih =>
    rw [Machine.run_append] at hrun
    obtain ⟨q, hq, hlast⟩ := Option.bind_eq_some_iff.mp hrun
    obtain ⟨held, hheld, hnodup, hmem⟩ := ih hq
    obtain ⟨held', hheld', hnodup', hmem'⟩ :=
      ledger_step hnodup hmem (Machine.run_singleton.symm.trans hlast)
    refine ⟨held', ?_, hnodup', hmem'⟩
    have hevent : [u].filterMap Loan.fdEvent = u.fdEvent.toList := by
      cases hu : u.fdEvent <;> simp [hu]
    rw [List.filterMap_append, ledger_append, hheld, Option.bind_some, hevent]
    exact hheld'

end Descriptors

end Lending

end ScalableServer.Foundations
