import ScalableServer.Foundations.Transitions

namespace ScalableServer.Foundations.Machine

variable {σ ε : Type*} {m : Machine σ ε} {allowed : σ → ε → Prop} {s t : σ} {n : ℕ}

def since (counted resets : σ → ε → Bool) (s : σ) (e : ε) (n : ℕ) : ℕ :=
  if resets s e then 0 else if counted s e then n + 1 else n

lemma Reaches.since_le (I quiet : σ → Prop) (rank : σ → ℕ) {counted resets : σ → ε → Bool}
    (h : (m.observe (since counted resets)).Reaches (fun p e => allowed p.1 e) (s, 0) (t, n))
    (hs : I s) (hstep : ∀ a e b, I a → allowed a e → m.step a e = some b →
      I b ∧ (quiet b → quiet a ∨ resets a e = true) ∧ (quiet a → counted a e = false) ∧
        (¬ quiet a → rank a + (if counted a e then 1 else 0) ≤ rank b)) : I t ∧ n ≤ rank t := by
  -- After a reset the count stays 0 as long as the machine is quiet.
  have hinv : I t ∧ n ≤ rank t ∧ (quiet t → n = 0) := by
    refine h.invariant (I := fun p => I p.1 ∧ p.2 ≤ rank p.1 ∧ (quiet p.1 → p.2 = 0))
      ⟨hs, Nat.zero_le _, fun _ => rfl⟩ ?_
    rintro ⟨a, k⟩ e ⟨b, k'⟩ ⟨hia, hk, hquiet⟩ hallowed hab
    obtain ⟨hb, rfl⟩ := step_observe hab
    obtain ⟨hib, hbefore, hcounted, hrank⟩ := hstep a e b hia hallowed hb
    refine ⟨hib, ?_⟩
    change since counted resets a e k ≤ rank b ∧ (quiet b → since counted resets a e k = 0)
    rw [since]
    by_cases hreset : resets a e = true
    · rw [if_pos hreset]
      exact ⟨Nat.zero_le _, fun _ => rfl⟩
    rw [if_neg hreset]
    by_cases hqa : quiet a
    · have hzero : k = 0 := hquiet hqa
      rw [hcounted hqa, hzero]
      exact ⟨Nat.zero_le _, fun _ => rfl⟩
    · have hle := hrank hqa
      change k ≤ rank a at hk
      refine ⟨?_, fun hqb => ((hbefore hqb).resolve_right hreset |> hqa).elim⟩
      split_ifs at hle ⊢ <;> omega
  exact ⟨hinv.1, hinv.2.1⟩

lemma length_le_of_run (I : σ → Prop) (rank : σ → ℕ) {es : List ε} (hrun : m.run es s = some t)
    (hs : I s) (hstep : ∀ a e b, e ∈ es → I a → m.step a e = some b → I b ∧ rank b < rank a) :
    I t ∧ es.length + rank t ≤ rank s := by
  induction es generalizing s with
  | nil =>
    obtain rfl := Option.some.inj hrun
    exact ⟨hs, (Nat.zero_add _).le⟩
  | cons e es ih =>
    obtain ⟨u, hu, hrest⟩ := Option.bind_eq_some_iff.mp hrun
    obtain ⟨hiu, hlt⟩ := hstep s e u List.mem_cons_self hs hu
    obtain ⟨hit, hle⟩ := ih hrest hiu fun a e' b he' => hstep a e' b (List.mem_cons_of_mem e he')
    refine ⟨hit, ?_⟩
    rw [List.length_cons]
    omega

end ScalableServer.Foundations.Machine
