import ScalableServer.Foundations.Progress
import ScalableServer.PollServer.ConnectionTable
import ScalableServer.ProcessServer.Handoff

namespace ScalableServer

open ScalableServer.Foundations ScalableServer.Core

namespace PollServer

def Event.bypasses : Event → Bool
  | .accept (.ok _) => true
  | _ => false

def Event.looksAtClients : Event → Bool
  | .poll (.ok r) => r.listen ≠ POLLIN
  | _ => false

def noteBypasses : Server → Event → ℕ → ℕ :=
  Machine.since (fun _ e => e.bypasses) fun _ e => e.looksAtClients

variable {h : Host} {s t : Server} {e : Event}

lemma Sound.bypass (hs : Sound s) (hstep : Moves h s e t) :
    ((∃ k, t.pc = .comm k) → (∃ k, s.pc = .comm k) ∨ e.looksAtClients = true) ∧
      ((∃ k, s.pc = .comm k) → e.bypasses = false) ∧
      (¬ (∃ k, s.pc = .comm k) →
        s.so.numConnections + (if e.bypasses then 1 else 0) ≤ t.so.numConnections) := by
  cases hstep with
  | head hpc =>
    refine ⟨?_, fun _ => rfl, fun _ => le_refl _⟩
    rintro ⟨k, hk⟩
    dsimp only at hk
    split_ifs at hk
  | serve hpc | serveOther hpc | remove hpc | skip hpc | swept hpc =>
    exact ⟨fun _ => .inl ⟨_, hpc⟩, fun _ => rfl, fun hno => (hno ⟨_, hpc⟩).elim⟩
  | @poll r hpc =>
    refine ⟨?_, fun _ => rfl, fun _ => le_refl _⟩
    rintro ⟨k, hk⟩
    right
    dsimp only at hk
    split_ifs at hk with hlisten
    exact decide_eq_true hlisten
  | pollFail hpc => exact ⟨by rintro ⟨k, ⟨⟩⟩, fun _ => rfl, fun _ => le_refl _⟩
  | accept hpc =>
    refine ⟨by rintro ⟨k, ⟨⟩⟩, ?_, fun _ => ?_⟩
    · rintro ⟨k, hk⟩
      rw [hpc] at hk
      cases hk
    · have hroom := hs.accepting hpc
      have hsize : maxConnections < sizeMod := by decide
      change s.so.numConnections + 1 ≤ (s.so.numConnections + 1) % sizeMod
      rw [Nat.mod_eq_of_lt (by omega)]
  | acceptFail hpc => exact ⟨by rintro ⟨k, ⟨⟩⟩, fun _ => rfl, fun _ => le_refl _⟩
  | deliver hc | hangup hc => exact ⟨.inl, fun _ => rfl, fun _ => le_refl _⟩
  | signal => exact ⟨.inl, fun _ => rfl, fun _ => le_refl _⟩

lemma bypasses_le {n : ℕ} {listenFd : ℤ} {others : ℤ → Bool}
    (hs : ((server h).observe noteBypasses).Reaches (fun p e => OrderlyEvent p.1 e)
      (initial listenFd others, 0) (s, n)) : n ≤ s.so.numConnections ∧ n ≤ maxConnections := by
  obtain ⟨hsound, hle⟩ := hs.since_le Sound (fun s => ∃ k, s.pc = .comm k)
    (fun s => s.so.numConnections) (initial_sound listenFd others) fun a e b ha he hb =>
      ⟨ha.step he (moves_of_step hb), ha.bypass (moves_of_step hb)⟩
  exact ⟨hle, hle.trans hsound.registered.count_le⟩

end PollServer

namespace ProcessServer

variable {M N : ℕ}

def ParentEvent.bypasses : ParentEvent M → Bool
  | .accept (.ok _) | .read (.ok _) => true
  | _ => false

def ParentEvent.looksAtClients : ParentEvent M → Bool
  | .poll (.ok r) => r.listen ≠ POLLIN ∧ r.pipe ≠ POLLIN
  | _ => false

def Event.bypasses : Event M N → Bool
  | .parent e => e.bypasses
  | _ => false

def Event.looksAtClients : Event M N → Bool
  | .parent e => e.looksAtClients
  | _ => false

namespace Parent

def enabled (s : Parent M) : Finset (Fin M) := Finset.univ.filter fun p => 0 < (s.client p).fd

variable {s t : Parent M} {e : ParentEvent M} {p : Fin M}

lemma enabled_gains (hp : ¬ 0 < (s.client p).fd) (hp' : 0 < (t.client p).fd)
    (hother : ∀ q, q ≠ p → (t.client q).fd = (s.client q).fd) :
    s.enabled.card + 1 ≤ t.enabled.card := by
  have hnot : p ∉ s.enabled := by simpa [enabled] using hp
  rw [← Finset.card_insert_of_notMem hnot]
  refine Finset.card_le_card fun q hq => ?_
  rw [enabled, Finset.mem_filter_univ]
  by_cases hqp : q = p
  · rw [hqp]
    exact hp'
  · rw [hother q hqp]
    simpa [enabled, hqp] using hq

end Parent

namespace System

def noteBypasses : System M N → Event M N → ℕ → ℕ :=
  Machine.since (fun _ e => e.bypasses) fun _ e => e.looksAtClients

def Looking (s : System M N) : Prop := s.parent.sweepFrom ≠ none

variable {h : Host} {s t : System M N} {e : Event M N} [NeZero M]

lemma Consistent.bypassParent {e : ParentEvent M} (hs : s.Consistent) (he : s.parent.OrderlyEvent e)
    (hok : e.isError = false) (hstep : s.step h (.parent e) = some t) :
    (t.Looking → s.Looking ∨ e.looksAtClients = true) ∧ (s.Looking → e.bypasses = false) ∧
      (¬ s.Looking →
        s.parent.enabled.card + (if e.bypasses then 1 else 0) ≤ t.parent.enabled.card) := by
  obtain ⟨u, s', hu, hcall, ht⟩ := parent_of_step hstep
  have hparent : t.parent = u := by rw [ht]
  rw [Looking, Looking, hparent]
  cases Parent.moves_of_step hu with
  | head hpc =>
    refine ⟨fun hlook => (hlook ?_).elim, fun _ => rfl, fun _ => le_refl _⟩
    split_ifs <;> rfl
  | sweep hpc | swept hpc | flip hpc | wait hpc | post hpc | send hpc =>
    have hlooking : s.parent.sweepFrom ≠ none := by
      rw [Parent.sweepFrom, hpc]
      rintro ⟨⟩
    exact ⟨fun _ => .inl hlooking, fun _ => rfl, fun hno => (hno hlooking).elim⟩
  | @poll r hpc =>
    refine ⟨fun hlook => .inr ?_, fun _ => rfl, fun _ => le_refl _⟩
    by_contra hnot
    rw [ParentEvent.looksAtClients, decide_eq_true_eq, not_and_or, not_not, not_not] at hnot
    refine hlook ?_
    rcases hnot with hlisten | hpipe
    · rw [if_pos hlisten]
      rfl
    · split_ifs <;> rfl
  | @accept fd addr conn hpc =>
    refine ⟨fun hlook => (hlook rfl).elim, fun hlook => (hlook (by rw [Parent.sweepFrom, hpc])).elim,
      fun _ => ?_⟩
    have hfree := hs.sound.table.pGetPollfdIndex_free (hs.sound.accepting hpc)
    refine Parent.enabled_gains (p := Parent.pGetPollfdIndex s.parent.so.pollfds.client)
      (by rw [hfree]; decide) ?_ fun q hq => ?_
    · change 0 < (Function.update s.parent.so.pollfds.client _ _ _).fd
      rw [Function.update_self]
      exact he.1
    · exact congrArg PollFd.fd (Function.update_of_ne hq _ _)
  | @read n hpc =>
    refine ⟨fun hlook => (hlook rfl).elim, fun hlook => (hlook (by rw [Parent.sweepFrom, hpc])).elim,
      fun _ => ?_⟩
    obtain ⟨p, hn, hp, hself, hother⟩ := hs.returned hstep
    rw [hparent] at hself hother
    have hfd : (s.parent.client p).fd = -n := (hp p).mpr rfl
    refine Parent.enabled_gains (p := p) (by omega) ?_ fun q hq => congrArg PollFd.fd (hother q hq)
    rw [hself]
    exact hn
  | interrupt hpc => cases hok
  | signal => exact ⟨.inl, fun _ => rfl, fun _ => le_refl _⟩
  | fail hfail =>
    rw [hok] at hfail
    cases hfail

lemma Consistent.bypass (hs : s.Consistent) (he : s.OrderlyEvent e) (hok : ¬ s.CallFails h e)
    (hstep : s.step h e = some t) :
    (t.Looking → s.Looking ∨ e.looksAtClients = true) ∧ (s.Looking → e.bypasses = false) ∧
      (¬ s.Looking →
        s.parent.enabled.card + (if e.bypasses then 1 else 0) ≤ t.parent.enabled.card) := by
  have hother : t.parent = s.parent → e.bypasses = false →
      (t.Looking → s.Looking ∨ e.looksAtClients = true) ∧ (s.Looking → e.bypasses = false) ∧
        (¬ s.Looking →
          s.parent.enabled.card + (if e.bypasses then 1 else 0) ≤ t.parent.enabled.card) := by
    intro hparent hno
    rw [Looking, Looking, hparent, hno]
    exact ⟨.inl, fun _ => rfl, fun _ => le_refl _⟩
  cases e with
  | parent e =>
    exact hs.bypassParent he (eq_false_of_ne_true fun hfail => hok (.inr hfail)) hstep
  | child i e =>
    obtain ⟨c, a, s', -, hact, rfl⟩ := acted_of_step hstep
    exact hother (act_frame hact).1 rfl
  | deliver id bytes | hangup id =>
    obtain rfl := Option.some.inj hstep
    exact hother rfl rfl

lemma bypasses_le {n : ℕ} (halloc : ∀ n, h.alloc n = true) (hM : M < sizeMod)
    {listenFd pipeFd : ℤ} {others childOthers : ℤ → Bool} {conns : ℕ → Conn}
    (hs : ((machine h).observe noteBypasses).Reaches
      (fun p e => ¬ p.1.CallFails h e ∧ p.1.OrderlyEvent e)
      (initial listenFd pipeFd others childOthers conns, 0) (s, n)) :
    n ≤ s.parent.enabled.card ∧ n ≤ M := by
  let allowed : System M N → Event M N → Prop := fun s e => ¬ s.CallFails h e ∧ s.OrderlyEvent e
  have hs' : ((machine h).observe noteBypasses).Reaches (fun p e => allowed p.1 e)
      (initial listenFd pipeFd others childOthers conns, 0) (s, n) := hs
  obtain ⟨-, hle⟩ := hs'.since_le Consistent Looking (fun s => s.parent.enabled.card)
    (initial_consistent _ _ _ _ _) fun a e b ha he hb =>
      ⟨ha.step hM halloc he.1 he.2 hb, ha.bypass he.2 he.1 hb⟩
  refine ⟨hle, hle.trans ?_⟩
  exact (Finset.card_le_univ _).trans_eq (Fintype.card_fin M)

end System

end ProcessServer

theorem clients_not_passed_over {M N : ℕ} [NeZero M] (h : Host) (halloc : ∀ n, h.alloc n = true)
    (hM : M < sizeMod) (listenFd pipeFd : ℤ) (others childOthers : ℤ → Bool) (conns : ℕ → Conn) :
    (∀ s n, ((PollServer.server h).observe PollServer.noteBypasses).Reaches
        (fun p e => PollServer.OrderlyEvent p.1 e) (PollServer.initial listenFd others, 0) (s, n) →
        n ≤ PollServer.maxConnections) ∧
      ∀ (s : ProcessServer.System M N) n,
        ((ProcessServer.System.machine h).observe ProcessServer.System.noteBypasses).Reaches
          (fun p e => ¬ p.1.CallFails h e ∧ p.1.OrderlyEvent e)
          (.initial listenFd pipeFd others childOthers conns, 0) (s, n) → n ≤ M :=
  ⟨fun _ _ hs => (PollServer.bypasses_le hs).2,
    fun _ _ hs => (ProcessServer.System.bypasses_le halloc hM hs).2⟩

def acceptFive {ε : Type*} (pass : ℤ → List ε) : List ε := [10, 11, 12, 13, 14].flatMap pass

theorem clients_not_passed_over_five :
    let h : Host := ⟨.little, fun _ => true, fun _ => []⟩
    let c : Conn :=
      { recvs := Stream'.const (.moves 4), sends := Stream'.const (.moves 4)
        selects := Stream'.const (.moves 0) }
    let poll : List PollServer.Event :=
      acceptFive fun fd => [.run 0 {}, .poll (.ok ⟨POLLIN, fun _ => .zero⟩), .accept (.ok (fd, {}, c))]
    let process : List
        (ProcessServer.Event ProcessServer.maxConnections ProcessServer.numChildProcesses) :=
      acceptFive fun fd => [.parent .run, .parent (.poll (.ok ⟨POLLIN, .zero, fun _ => .zero⟩)),
        .parent (.accept (.ok (fd, {}, (fd - 10).toNat)))]
    (∃ s, ((PollServer.server h).observe PollServer.noteBypasses).runWithin
        (fun p e => PollServer.WellReported p.1 e) poll (PollServer.initial 4 (· < 5), 0) =
          some (s, 5) ∧ 5 ≤ PollServer.maxConnections) ∧
      ∃ s, ((ProcessServer.System.machine h).observe ProcessServer.System.noteBypasses).runWithin
        (fun p e => ¬ p.1.CallFails h e ∧ p.1.OrderlyEvent e) process
        (.initial 5 4 ProcessServer.System.parentDescriptors
          ProcessServer.System.childDescriptors fun _ => c, 0) =
          some (s, 5) ∧ 5 ≤ ProcessServer.maxConnections := by
  intro h c poll process
  have hpoll : (((PollServer.server h).observe PollServer.noteBypasses).runWithin
      (fun p e => PollServer.WellReported p.1 e) poll (PollServer.initial 4 (· < 5), 0)).map
        Prod.snd = some 5 := by decide
  have hprocess : (((ProcessServer.System.machine h).observe
      ProcessServer.System.noteBypasses).runWithin
        (fun p e => ¬ p.1.CallFails h e ∧ p.1.OrderlyEvent e) process
        (.initial 5 4 ProcessServer.System.parentDescriptors
          ProcessServer.System.childDescriptors fun _ => c, 0)).map Prod.snd = some 5 := by decide
  obtain ⟨⟨s, -⟩, hs, rfl⟩ := Option.map_eq_some_iff.mp hpoll
  obtain ⟨⟨s', -⟩, hs', rfl⟩ := Option.map_eq_some_iff.mp hprocess
  obtain ⟨hle, -⟩ := clients_not_passed_over (M := ProcessServer.maxConnections)
    (N := ProcessServer.numChildProcesses) h (fun _ => rfl) (by decide) 4 4 (· < 5) (· < 5) fun _ => c
  obtain ⟨-, hle'⟩ := clients_not_passed_over (M := ProcessServer.maxConnections)
    (N := ProcessServer.numChildProcesses) h (fun _ => rfl) (by decide) 5 4
    ProcessServer.System.parentDescriptors ProcessServer.System.childDescriptors fun _ => c
  refine ⟨⟨s, hs, hle s 5 ?_⟩, s', hs', hle' s' 5 (Machine.reaches_of_runWithin hs')⟩
  exact (Machine.reaches_of_runWithin hs).mono fun _ _ he => he.orderly

end ScalableServer
