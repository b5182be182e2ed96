import ScalableServer.ClientController.Handle

/-! The start command on standard input. `read` ends no string, so that `strcspn` and `strcmp` may go
on into what the buffer held before. -/

namespace ScalableServer.ClientController

open ScalableServer.Foundations

def line (bs : List UInt8) : List UInt8 := bs.takeWhile fun b => b ∉ newlines

def Recognised (bs : List UInt8) : Prop :=
  ∀ prior : List UInt8, prior.length = LINE_MAX →
    startsOn prior bs = some (decide (line bs = START_COMMAND))

def Stops (b : UInt8) : Prop := b = 0 ∨ b ∈ newlines

instance (b : UInt8) : Decidable (Stops b) := inferInstanceAs (Decidable (_ ∨ _))

variable {prior bs before rest : List UInt8} {b : UInt8}

lemma exists_stop (hstop : ∃ b ∈ bs, Stops b) :
    ∃ before b rest, bs = before ++ b :: rest ∧ Stops b ∧ ∀ c ∈ before, ¬ Stops c := by
  induction bs with
  | nil =>
    obtain ⟨b, hb, -⟩ := hstop
    cases hb
  | cons c bs ih =>
    by_cases hc : Stops c
    · exact ⟨[], c, bs, rfl, hc, by simp⟩
    · obtain ⟨b, hb, hstop⟩ := hstop
      obtain rfl | hb := List.mem_cons.mp hb
      · exact (hc hstop).elim
      · obtain ⟨before, d, rest, rfl, hd, hbefore⟩ := ih ⟨b, hb, hstop⟩
        exact ⟨c :: before, d, rest, rfl, hd, List.forall_mem_cons.mpr ⟨hc, hbefore⟩⟩

lemma startsOn_append (hb : Stops b) (hbefore : ∀ c ∈ before, ¬ Stops c) :
    startsOn prior (before ++ b :: rest) = some (decide (before = START_COMMAND)) := by
  have hcspn : strcspn newlines (readInto prior (before ++ b :: rest)) = some before.length := by
    rw [readInto, List.append_assoc, List.cons_append]
    exact strcspn_append (fun c hc => not_or.mp (hbefore c hc)) hb
  have hset : (readInto prior (before ++ b :: rest)).set before.length 0 =
      before ++ 0 :: (rest ++ prior.drop (before ++ b :: rest).length) := by
    rw [readInto, List.append_assoc, List.cons_append, List.set_append_right _ _ (le_refl _),
      Nat.sub_self, List.set_cons_zero]
  simp only [startsOn, hcspn, Option.bind_some, hset]
  exact strcmp_append (fun h => hbefore 0 h (.inl rfl)) (by decide)

lemma text_append (hb : Stops b) (hbefore : ∀ c ∈ before, ¬ Stops c) :
    (before ++ b :: rest).takeWhile (fun c => ¬ Stops c) = before := by
  rw [List.takeWhile_append_of_pos fun c hc => decide_eq_true (hbefore c hc),
    List.takeWhile_cons_of_neg (by simp [hb]), List.append_nil]

lemma line_append (hbefore : ∀ c ∈ before, ¬ Stops c) :
    line (before ++ rest) = before ++ line rest :=
  List.takeWhile_append_of_pos fun c hc => decide_eq_true (not_or.mp (hbefore c hc)).2

lemma command_unstopped : ∀ c ∈ START_COMMAND, ¬ Stops c := by
  simp [START_COMMAND, Stops, newlines]

lemma command_prefix_iff (hb : Stops b) (hbefore : ∀ c ∈ before, ¬ Stops c) :
    START_COMMAND ++ [0] <+: before ++ b :: rest ↔ before = START_COMMAND ∧ b = 0 := by
  constructor
  · rintro ⟨after, he⟩
    rw [List.append_assoc, List.singleton_append] at he
    have htext : (before ++ b :: rest).takeWhile (fun c => ¬ Stops c) = before :=
      text_append hb hbefore
    rw [← he, text_append (.inl rfl) command_unstopped] at htext
    subst htext
    exact ⟨rfl, (List.cons.inj (List.append_cancel_left he)).1.symm⟩
  · rintro ⟨rfl, rfl⟩
    exact ⟨rest, by simp⟩

lemma recognised_append_iff (hb : Stops b) (hbefore : ∀ c ∈ before, ¬ Stops c) :
    Recognised (before ++ b :: rest) ↔ ¬ (before = START_COMMAND ∧ b = 0) := by
  have hline : line (before ++ b :: rest) = START_COMMAND ↔ before = START_COMMAND ∧ b ≠ 0 := by
    rw [line_append hbefore]
    by_cases hzero : b = 0
    · -- the line goes on over a NUL, which the command does not hold
      have hmem : (0 : UInt8) ∈ before ++ line (b :: rest) := by
        rw [hzero, line, List.takeWhile_cons_of_pos (by decide)]
        simp
      refine iff_of_false (fun he => ?_) fun h => h.2 hzero
      rw [he] at hmem
      exact absurd hmem (by decide)
    · have hnewline : b ∈ newlines := hb.resolve_left hzero
      rw [line, List.takeWhile_cons_of_neg (by simp [hnewline]), List.append_nil]
      exact (and_iff_left hzero).symm
  have hiff : Recognised (before ++ b :: rest) ↔
      (before = START_COMMAND ↔ line (before ++ b :: rest) = START_COMMAND) := by
    constructor
    · intro hall
      have hstarts := hall (List.replicate LINE_MAX 0) List.length_replicate
      rw [startsOn_append hb hbefore, Option.some.injEq, decide_eq_decide] at hstarts
      exact hstarts
    · intro hsame prior hprior
      rw [startsOn_append hb hbefore, Option.some.injEq, decide_eq_decide]
      exact hsame
  rw [hiff, hline]
  tauto

lemma not_recognised_of_unstopped (hnone : ∀ b ∈ bs, ¬ Stops b) : ¬ Recognised bs := by
  intro hall
  have hstarts : startsOn (List.replicate LINE_MAX 120) bs = none := by
    rw [startsOn, strcspn_eq_none]
    · rfl
    · intro b hb
      rw [readInto, List.drop_replicate, List.mem_append, List.mem_replicate] at hb
      obtain hb | ⟨-, rfl⟩ := hb
      · exact not_or.mp (hnone b hb)
      · decide
  rw [hall _ List.length_replicate] at hstarts
  cases hstarts

theorem recognised_iff (bs : List UInt8) :
    Recognised bs ↔ (∃ b ∈ bs, Stops b) ∧ ¬ START_COMMAND ++ [0] <+: bs := by
  by_cases hstop : ∃ b ∈ bs, Stops b
  · obtain ⟨before, b, rest, rfl, hb, hbefore⟩ := exists_stop hstop
    rw [recognised_append_iff hb hbefore, command_prefix_iff hb hbefore, and_iff_right hstop]
  · refine iff_of_false (not_recognised_of_unstopped fun b hb hs => hstop ⟨b, hb, hs⟩) ?_
    exact fun h => hstop h.1

theorem not_recognised :
    ¬ ∀ bs : List UInt8, bs.length ≤ LINE_MAX → Recognised bs := by
  intro hall
  let prior : List UInt8 := List.replicate 6 120 ++ List.replicate 2042 10
  have hprior : prior.length = LINE_MAX := by
    rw [List.length_append, List.length_replicate, List.length_replicate]
    rfl
  have hstarts := hall START_COMMAND (by decide) prior hprior
  have hstale : startsOn prior START_COMMAND = some false := by decide
  rw [hstale] at hstarts
  exact absurd (Option.some.inj hstarts) (by decide)

example : startsOn (List.replicate 9 0) (START_COMMAND ++ [10]) = some true ∧
    startsOn (List.replicate 9 120) [] = none := by decide

end ScalableServer.ClientController
