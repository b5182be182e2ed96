import Mathlib.Data.Fintype.Card
import Mathlib.Data.List.FinRange
import Mathlib.Tactic

/-! Fixed tables of slots, some of them in use. `Lists` says that the used slots hold, each under
its own key, exactly the entries of a finite map, with the values of a second table. -/

namespace ScalableServer.Foundations.SlotTable

variable {M : ℕ} {α κ ν : Type*} (used : α → Prop)

section Search

variable [DecidablePred used]

def occupied (t : Fin M → α) : Finset (Fin M) := {i | used (t i)}

def firstFree (t : Fin M → α) : Option (Fin M) :=
  (List.finRange M).find? fun i => ¬ used (t i)

variable {used} {t : Fin M → α} {i : Fin M} {x : α}

@[simp] lemma mem_occupied : i ∈ occupied used t ↔ used (t i) := by simp [occupied]

lemma occupied_card_le (t : Fin M → α) : (occupied used t).card ≤ M := by
  simpa using Finset.card_le_univ (occupied used t)

lemma occupied_card_lt_iff : (occupied used t).card < M ↔ ∃ i, ¬ used (t i) := by
  have hle : (occupied used t).card ≤ M := occupied_card_le t
  constructor
  · intro h
    by_contra hn
    push Not at hn
    have hu : occupied used t = Finset.univ := by ext i; simp [hn i]
    simp [hu] at h
  · rintro ⟨i, hi⟩
    have hs : occupied used t ⊂ Finset.univ :=
      (Finset.ssubset_univ_iff).mpr fun he => hi (mem_occupied.mp (he ▸ Finset.mem_univ i))
    simpa using Finset.card_lt_card hs

lemma firstFree_free (h : firstFree used t = some i) : ¬ used (t i) := by
  simpa using List.find?_some h

lemma exists_firstFree (h : ∃ i, ¬ used (t i)) : ∃ i, firstFree used t = some i := by
  obtain ⟨i, hi⟩ := h
  rw [← Option.isSome_iff_exists, firstFree, List.find?_isSome]
  exact ⟨i, List.mem_finRange i, by simpa using hi⟩

lemma occupied_fill (hi : ¬ used (t i)) (hx : used x) :
    (occupied used (Function.update t i x)).card = (occupied used t).card + 1 := by
  have hu : occupied used (Function.update t i x) = insert i (occupied used t) := by
    ext j
    by_cases hj : j = i <;> simp [hj, hx]
  rw [hu, Finset.card_insert_of_notMem (by simpa using hi)]

lemma occupied_clear (hi : used (t i)) (hx : ¬ used x) :
    (occupied used (Function.update t i x)).card + 1 = (occupied used t).card := by
  have hu : occupied used (Function.update t i x) = (occupied used t).erase i := by
    ext j
    by_cases hj : j = i <;> simp [hj, hx]
  rw [hu, Finset.card_erase_add_one (by simpa using hi)]

end Search

structure Names (key : α → κ) (t : Fin M → α) (v : Fin M → ν) (S : κ → Option ν) : Prop where
  stored : ∀ i, used (t i) → S (key (t i)) = some (v i)
  distinct : ∀ i j, used (t i) → used (t j) → key (t i) = key (t j) → i = j

structure Lists (key : α → κ) (t : Fin M → α) (v : Fin M → ν) (S : κ → Option ν) : Prop where
  stored : ∀ i, used (t i) → S (key (t i)) = some (v i)
  covers : ∀ k, S k ≠ none → ∃ i, used (t i) ∧ key (t i) = k
  distinct : ∀ i j, used (t i) → used (t j) → key (t i) = key (t j) → i = j

variable {used} {key : α → κ} {t t' : Fin M → α} {v : Fin M → ν} {S : κ → Option ν} {i : Fin M}
  {x : α} {a z : ν} {k : κ}

lemma Lists.card [DecidablePred used] [DecidableEq κ] (h : Lists used key t v S) {F : Finset κ}
    (hF : ∀ k, k ∈ F ↔ S k ≠ none) : F.card = (occupied used t).card := by
  have himage : F = (occupied used t).image fun i => key (t i) := by
    ext k
    rw [hF, Finset.mem_image]
    constructor
    · intro hk
      obtain ⟨i, hi, hik⟩ := h.covers k hk
      exact ⟨i, mem_occupied.mpr hi, hik⟩
    · rintro ⟨i, hi, rfl⟩
      rw [h.stored i (mem_occupied.mp hi)]
      exact Option.some_ne_none _
  rw [himage, Finset.card_image_of_injOn]
  intro i hi j hj he
  exact h.distinct i j (mem_occupied.mp hi) (mem_occupied.mp hj) he

variable (used) in
def keys [DecidablePred used] (key : α → κ) (t : Fin M → α) : List κ :=
  ((List.finRange M).filter fun i => used (t i)).map fun i => key (t i)

lemma length_keys [DecidablePred used] :
    (keys used key t).length = (occupied used t).card := by
  rw [keys, List.length_map]
  have hnodup : ((List.finRange M).filter fun i => used (t i)).Nodup :=
    (List.nodup_finRange M).filter _
  rw [← List.toFinset_card_of_nodup hnodup]
  congr 1
  ext i
  simp

lemma Lists.nodup_keys [DecidablePred used] (h : Lists used key t v S) :
    (keys used key t).Nodup := by
  refine List.Nodup.map_on ?_ ((List.nodup_finRange M).filter _)
  intro i hi j hj he
  exact h.distinct i j (by simpa using hi) (by simpa using hj) he

lemma Lists.mem_keys [DecidablePred used] (h : Lists used key t v S) :
    k ∈ keys used key t ↔ S k ≠ none := by
  rw [keys, List.mem_map]
  constructor
  · rintro ⟨i, hi, rfl⟩
    rw [h.stored i (by simpa using hi)]
    exact Option.some_ne_none _
  · intro hk
    obtain ⟨i, hi, hik⟩ := h.covers k hk
    exact ⟨i, by simpa using hi, hik⟩

lemma Names.empty (h : ∀ i, ¬ used (t i)) : Names used key t v S where
  stored i hi := (h i hi).elim
  distinct i _ hi := (h i hi).elim

lemma Names.congr (h : Names used key t v S) (hused : ∀ i, used (t' i) → used (t i))
    (hkey : ∀ i, key (t' i) = key (t i)) : Names used key t' v S where
  stored i hi := by
    rw [hkey]
    exact h.stored i (hused i hi)
  distinct i j hi hj he := by
    rw [hkey, hkey] at he
    exact h.distinct i j (hused i hi) (hused j hj) he

lemma Names.fill [DecidableEq κ] (h : Names used key t v S) (hk : S (key x) = none) :
    Names used key (Function.update t i x) (Function.update v i a)
      (Function.update S (key x) (some a)) := by
  have hold : ∀ j, used (t j) → key (t j) ≠ key x := by
    intro j hj he
    have hs := h.stored j hj
    rw [he, hk] at hs
    cases hs
  refine ⟨fun j hj => ?_, fun j j' hj hj' he => ?_⟩
  · by_cases hji : j = i
    · subst hji; simp
    · rw [Function.update_of_ne hji] at hj ⊢
      rw [Function.update_of_ne hji, Function.update_of_ne (hold j hj)]
      exact h.stored j hj
  · by_cases hji : j = i <;> by_cases hji' : j' = i
    · rw [hji, hji']
    · subst hji
      rw [Function.update_of_ne hji'] at hj' he
      exact (hold j' hj' (by simpa using he.symm)).elim
    · subst hji'
      rw [Function.update_of_ne hji] at hj he
      exact (hold j hj (by simpa using he)).elim
    · rw [Function.update_of_ne hji] at hj he
      rw [Function.update_of_ne hji'] at hj' he
      exact h.distinct j j' hj hj' he

lemma Names.clear [DecidableEq κ] (h : Names used key t v S) (hx : ¬ used x)
    (hk : ∀ j, j ≠ i → used (t j) → key (t j) ≠ k) :
    Names used key (Function.update t i x) (Function.update v i z) (Function.update S k none) := by
  have hother : ∀ j, used (Function.update t i x j) → j ≠ i ∧ used (t j) := by
    intro j hj
    by_cases hji : j = i
    · subst hji
      exact (hx (by simpa using hj)).elim
    · exact ⟨hji, by rwa [Function.update_of_ne hji] at hj⟩
  refine ⟨fun j hj => ?_, fun j j' hj hj' he => ?_⟩
  · obtain ⟨hji, hu⟩ := hother j hj
    rw [Function.update_of_ne hji, Function.update_of_ne hji, Function.update_of_ne (hk j hji hu)]
    exact h.stored j hu
  · obtain ⟨hji, hu⟩ := hother j hj
    obtain ⟨hji', hu'⟩ := hother j' hj'
    rw [Function.update_of_ne hji, Function.update_of_ne hji'] at he
    exact h.distinct j j' hu hu' he

lemma Lists.names (h : Lists used key t v S) : Names used key t v S := ⟨h.stored, h.distinct⟩

lemma Lists.empty (h : ∀ i, ¬ used (t i)) : Lists used key t v (fun _ => none) where
  stored i hi := (h i hi).elim
  covers _ hk := (hk rfl).elim
  distinct i _ hi := (h i hi).elim

lemma Lists.fill [DecidableEq κ] (h : Lists used key t v S) (hi : ¬ used (t i)) (hx : used x)
    (hk : S (key x) = none) :
    Lists used key (Function.update t i x) (Function.update v i a)
      (Function.update S (key x) (some a)) := by
  have hnames : Names used key (Function.update t i x) (Function.update v i a)
      (Function.update S (key x) (some a)) := h.names.fill hk
  refine ⟨hnames.stored, fun k hk' => ?_, hnames.distinct⟩
  by_cases hkx : k = key x
  · exact ⟨i, by simpa using hx, by simp [hkx]⟩
  · rw [Function.update_of_ne hkx] at hk'
    obtain ⟨j, hj, hjk⟩ := h.covers k hk'
    have hji : j ≠ i := fun hji => hi (hji ▸ hj)
    exact ⟨j, by rwa [Function.update_of_ne hji], by rwa [Function.update_of_ne hji]⟩

lemma Lists.clear [DecidableEq κ] (h : Lists used key t v S) (hi : used (t i)) (hx : ¬ used x) :
    Lists used key (Function.update t i x) (Function.update v i z)
      (Function.update S (key (t i)) none) := by
  have hnames : Names used key (Function.update t i x) (Function.update v i z)
      (Function.update S (key (t i)) none) :=
    h.names.clear hx fun j hji hu he => hji (h.distinct j i hu hi he)
  refine ⟨hnames.stored, fun k hk' => ?_, hnames.distinct⟩
  have hki : k ≠ key (t i) := by
    rintro rfl
    simp at hk'
  rw [Function.update_of_ne hki] at hk'
  obtain ⟨j, hj, hjk⟩ := h.covers k hk'
  have hji : j ≠ i := fun hji => hki (by rw [← hjk, hji])
  exact ⟨j, by rwa [Function.update_of_ne hji], by rwa [Function.update_of_ne hji]⟩

end ScalableServer.Foundations.SlotTable
