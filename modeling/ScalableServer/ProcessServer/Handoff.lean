import ScalableServer.ProcessServer.Messages
import ScalableServer.ProcessServer.Transit

namespace ScalableServer.ProcessServer

open ScalableServer.Foundations ScalableServer.Core

variable {M N : ℕ}

def Child.Reads (c : Child) (id : ℕ) : Prop :=
  c.conn = some id ∧ (c.pc = .header ∨ ∃ n k b buffer, c.pc = .payload n k b buffer)

namespace System

def OrderlyEvent (s : System M N) : Event M N → Prop
  | .parent e => s.parent.OrderlyEvent e
  | _ => True

instance (s : System M N) : (e : Event M N) → Decidable (s.OrderlyEvent e)
  | .parent _ => inferInstanceAs (Decidable (Parent.OrderlyEvent _ _))
  | .child _ _ | .deliver _ _ | .hangup _ => .isTrue trivial

def places (s : System M N) (n : ℤ) : ℕ :=
  (s.domain.map Message.number).count n +
    (Finset.univ.filter fun i => (s.children i).Holds n).card + s.pipe.count n

structure HandsOver [NeZero M] (h : Host) (s : System M N) : Prop where
  slot : ∀ p, (s.parent.client p).fd ≠ 0 → s.parent.crossing ≠ some p →
    (0 < (s.parent.client p).fd ∧ s.places (s.parent.client p).fd = 0) ∨
      (s.parent.client p).fd < 0 ∧ s.places (-(s.parent.client p).fd) = 1
  reader : ∀ i j id, (s.children i).Reads id → (s.children j).Reads id → i = j
  returned : ∀ n t, s.step h (.parent (.read (.ok n))) = some t →
    ∃ p, 0 < n ∧ (∀ q, (s.parent.client q).fd = -n ↔ q = p) ∧
      t.parent.client p = { s.parent.client p with fd := n } ∧
      ∀ q, q ≠ p → t.parent.client q = s.parent.client q

structure Linked (s : System M N) : Prop where
  linked : ∀ m ∈ s.messages, s.parent.fds m.number = some m.descriptor
  fresh : ∀ fd addr id, s.parent.fds fd = some (.accepted addr id) → id < s.nextConn
  distinct : ∀ fd fd' addr addr' id, s.parent.fds fd = some (.accepted addr id) →
    s.parent.fds fd' = some (.accepted addr' id) → fd = fd'

structure Consistent (s : System M N) : Prop where
  sound : s.parent.Sound
  transit : s.project.Transit
  working : ∀ i, (s.children i).Working
  linked : s.Linked

variable {h : Host} {s t : System M N} {i j : Fin N} {n : ℤ}

lemma places_eq_count (s : System M N) (n : ℤ) : s.places n = s.numbers.count n := by
  have hheld : ∀ c : Child, (c.phase.held.map Message.number).count n =
      if c.Holds n then 1 else 0 := by
    intro c
    cases hm : c.phase.message with
    | none =>
      have hnot : ¬ c.Holds n := by
        rw [Child.Holds, hm]
        rintro ⟨⟩
      rw [if_neg hnot, Phase.held, hm]
      rfl
    | some m =>
      have hiff : c.Holds n ↔ n = m.number := by
        rw [Child.Holds, hm, Option.map_some, Option.some.injEq, eq_comm]
      rw [Phase.held, hm]
      change Multiset.count n (Multiset.map Message.number {m}) = _
      rw [Multiset.map_singleton, Multiset.count_singleton]
      exact if_congr hiff.symm rfl rfl
  have hsum : ((∑ i, (s.children i).phase.held).map Message.number).count n =
      (Finset.univ.filter fun i => (s.children i).Holds n).card := by
    rw [Finset.card_filter, ← Multiset.coe_mapAddMonoidHom, map_sum, Multiset.count_sum']
    exact Finset.sum_congr rfl fun i _ => hheld (s.children i)
  rw [places, numbers, messages, Multiset.map_add, Multiset.count_add, Multiset.count_add, hsum,
    Multiset.map_coe, Multiset.coe_count, Multiset.coe_count]

lemma Consistent.places_le_one (hs : s.Consistent) (n : ℤ) : s.places n ≤ 1 := by
  rw [places_eq_count]
  exact hs.transit.count_le_one hs.sound n

lemma Consistent.holder (hs : s.Consistent) (hi : (s.children i).Holds n)
    (hj : (s.children j).Holds n) : i = j := by
  have hone := hs.places_le_one n
  by_contra hij
  have htwo : 1 < (Finset.univ.filter fun i => (s.children i).Holds n).card :=
    Finset.one_lt_card.mpr ⟨i, by simpa using hi, j, by simpa using hj, hij⟩
  rw [places] at hone
  omega

lemma Linked.child (hs : s.Linked) {m : Message} (hm : (s.children i).phase.message = some m) :
    s.parent.fds m.number = some m.descriptor := by
  refine hs.linked m (Multiset.mem_add.mpr (.inr ?_))
  rw [Multiset.mem_sum]
  exact ⟨i, Finset.mem_univ i, by simp [Phase.held, hm]⟩

lemma reads_message {c : Child} {id : ℕ} (hc : c.Reads id) :
    c.phase.message = some c.message ∧ ∃ addr, c.message.descriptor = .accepted addr id := by
  obtain ⟨hconn, hpc⟩ := hc
  have hphase : c.phase = .holding c.message := by
    rcases hpc with hpc | ⟨_, _, _, _, hpc⟩ <;> rw [Child.phase, hpc]
  refine ⟨by rw [hphase]; rfl, ?_⟩
  rw [Child.conn] at hconn
  split at hconn
  · rename_i addr id' hd
    obtain rfl := Option.some.inj hconn
    exact ⟨addr, by rw [Child.message, hd]; rfl⟩
  · cases hconn

lemma Consistent.reader (hs : s.Consistent) {id : ℕ} (hi : (s.children i).Reads id)
    (hj : (s.children j).Reads id) : i = j := by
  obtain ⟨hmi, addr, hdi⟩ := reads_message hi
  obtain ⟨hmj, addr', hdj⟩ := reads_message hj
  have hfdi := hs.linked.child hmi
  have hfdj := hs.linked.child hmj
  rw [hdi] at hfdi
  rw [hdj] at hfdj
  have hnumber := hs.linked.distinct _ _ _ _ _ hfdi hfdj
  refine hs.holder (n := (s.children i).message.number) ?_ ?_
  · rw [Child.Holds, hmi, Option.map_some]
  · rw [Child.Holds, hmj, Option.map_some, hnumber]

lemma Consistent.slot (hs : s.Consistent) {p : Fin M} (hp : (s.parent.client p).fd ≠ 0)
    (hcrossing : s.parent.crossing ≠ some p) :
    (0 < (s.parent.client p).fd ∧ s.places (s.parent.client p).fd = 0) ∨
      (s.parent.client p).fd < 0 ∧ s.places (-(s.parent.client p).fd) = 1 := by
  have hcount : s.places |(s.parent.client p).fd| = if s.parent.Away p then 1 else 0 := by
    rw [places_eq_count]
    exact hs.transit.count hs.sound hp
  rcases lt_or_gt_of_ne hp with hneg | hpos
  · refine .inr ⟨hneg, ?_⟩
    rw [abs_of_neg hneg, if_pos (.inl hneg)] at hcount
    exact hcount
  · refine .inl ⟨hpos, ?_⟩
    rw [abs_of_pos hpos, if_neg] at hcount
    · exact hcount
    · rintro (hneg | hc)
      · omega
      · exact hcrossing hc

lemma Consistent.frame (hs : s.Consistent) (hparent : t.parent = s.parent)
    (hnumbers : t.numbers = s.numbers) (hmessages : t.messages ≤ s.messages)
    (hnext : t.nextConn = s.nextConn) (hworking : ∀ i, (t.children i).Working) : t.Consistent := by
  refine ⟨hparent ▸ hs.sound, ?_, hworking, fun m hm => ?_, ?_, ?_⟩
  · have htransit : s.numbers = ∑ p, s.parent.away p := hs.transit
    change t.numbers = ∑ p, t.parent.away p
    rw [hnumbers, hparent, htransit]
  · rw [hparent]
    exact hs.linked.linked m (Multiset.mem_of_le hmessages hm)
  · rw [hparent, hnext]
    exact hs.linked.fresh
  · rw [hparent]
    exact hs.linked.distinct

variable [NeZero M]

lemma Consistent.returned (hs : s.Consistent) (hstep : s.step h (.parent (.read (.ok n))) = some t) :
    ∃ p, 0 < n ∧ (∀ q, (s.parent.client q).fd = -n ↔ q = p) ∧
      t.parent.client p = { s.parent.client p with fd := n } ∧
      ∀ q, q ≠ p → t.parent.client q = s.parent.client q := by
  obtain ⟨u, s', hu, hcall, rfl⟩ := parent_of_step hstep
  have hmoves := Parent.moves_of_step hu
  have hn : n ∈ s.numbers := Multiset.mem_add.mpr (.inr ((called hcall).read n rfl))
  cases hmoves with
  | read hpc =>
    obtain ⟨p, hp, hpos⟩ := hs.transit.returning hs.sound hpc hn
    have hclient := Parent.pReadPipeReenableFd_client hs.sound hp hpos
    refine ⟨p, hpos, fun q => ⟨fun hq => ?_, ?_⟩, ?_, fun q hq => ?_⟩
    · change (s.parent.client p).fd = -n at hp
      apply hs.sound.distinct (by omega) (by omega)
      rw [hq, hp]
    · rintro rfl
      exact hp
    · exact (congrFun hclient p).trans (Function.update_self _ _ _)
    · exact (congrFun hclient q).trans (Function.update_of_ne hq _ _)
  | fail he => cases he

lemma Linked.parent {e : ParentEvent M} {u : Parent M} {s' : System M N} (hs : s.Linked)
    (hsound : s.parent.Sound) (htransit : s.project.Transit) (he : s.parent.OrderlyEvent e)
    (hmoves : s.parent.Moves e u) (hcalled : s.Called e s') :
    ({ s' with parent := u } : System M N).Linked := by
  refine ⟨fun m hm => ?_, fun fd addr id hd => ?_, fun fd fd' addr addr' id hd hd' => ?_⟩
  · -- a message that has not come back keeps its slot from being swept
    rcases hcalled.messages m hm with hm | ⟨hsending, hd⟩
    · refine hsound.fds_kept he hmoves (fun p hpc hpos hfd => ?_) (hs.linked m hm)
      have hmem : m.number ∈ s.numbers :=
        Multiset.mem_add.mpr (.inl (Multiset.mem_map_of_mem _ hm))
      obtain ⟨q, haway, hq⟩ := htransit.away_of_mem hmem
      change s.parent.Away q at haway
      change |(s.parent.client q).fd| = m.number at hq
      have hpq : q = p := by
        apply hsound.distinct (hsound.away_used haway) hpos.ne'
        rw [hq, hfd, abs_of_pos hpos]
      subst hpq
      rcases haway with hneg | hcrossing
      · omega
      · rw [Parent.crossing, hpc] at hcrossing
        cases hcrossing
    · refine hsound.fds_kept he hmoves (fun p hpc => ?_) hd
      rw [Parent.sending, hpc] at hsending
      cases hsending
  · rcases hmoves.opened hd with hd | ⟨addr', conn, rfl, hnew⟩
    · exact (hs.fresh fd addr id hd).trans_le hcalled.nextConn
    · obtain ⟨hconn, hnext⟩ := hcalled.accepted _ _ _ rfl
      cases hnew
      change id < s'.nextConn
      omega
  · rcases hmoves.opened hd with hd | ⟨addr₁, conn, rfl, hnew⟩ <;>
      rcases hmoves.opened hd' with hd' | ⟨addr₂, conn', he', hnew'⟩
    · exact hs.distinct fd fd' addr addr' id hd hd'
    · subst he'
      have hid := hs.fresh fd addr id hd
      obtain ⟨hconn, -⟩ := hcalled.accepted _ _ _ rfl
      cases hnew'
      omega
    · have hid := hs.fresh fd' addr' id hd'
      obtain ⟨hconn, -⟩ := hcalled.accepted _ _ _ rfl
      cases hnew
      omega
    · cases he'
      rfl

lemma Consistent.step {e : Event M N} (hs : s.Consistent) (hM : M < sizeMod)
    (halloc : ∀ n, h.alloc n = true) (hok : ¬ s.CallFails h e) (he : s.OrderlyEvent e)
    (hstep : s.step h e = some t) : t.Consistent := by
  cases e with
  | parent e =>
    obtain ⟨u, s', hu, hcall, rfl⟩ := parent_of_step hstep
    have hmoves := Parent.moves_of_step hu
    have hcalled := called hcall
    refine ⟨hs.sound.step hM he hmoves, ?_, ?_, hs.linked.parent hs.sound hs.transit he hmoves hcalled⟩
    · have hread : ∀ n, e = .read (.ok n) → n ∈ s.project.outstanding :=
        fun n hn => Multiset.mem_add.mpr (.inr (hcalled.read n hn))
      exact hcalled.numbers.trans
        (hs.transit.step hs.sound he (eq_false_of_ne_true fun hfail => hok (.inr hfail)) hread hmoves)
    · intro i
      change (s'.children i).Working
      rw [hcalled.children]
      exact hs.working i
  | child i e =>
    obtain ⟨c, a, s', hmoves, hact, rfl⟩ := child_of_step hstep
    obtain ⟨hworking, hphase⟩ := works_of_moves (hs.working i) halloc hok hmoves
    obtain ⟨hnumbers, hmessages⟩ := act_numbers hphase hact
    obtain ⟨hparent, -, hnext⟩ := act_frame hact
    exact hs.frame hparent hnumbers hmessages hnext (working_of_act hs.working hworking hact)
  | deliver id bytes =>
    obtain rfl := Option.some.inj hstep
    exact hs.frame rfl rfl (le_refl _) rfl hs.working
  | hangup id =>
    obtain rfl := Option.some.inj hstep
    exact hs.frame rfl rfl (le_refl _) rfl hs.working

lemma initial_consistent (listenFd pipeFd : ℤ) (others childOthers : ℤ → Bool)
    (conns : ℕ → Conn) :
    (initial listenFd pipeFd others childOthers conns : System M N).Consistent := by
  have hnone : ∀ fd addr id,
      (initial listenFd pipeFd others childOthers conns : System M N).parent.fds fd ≠
        some (.accepted addr id) := by
    intro fd addr id
    change (if others fd then some Descriptor.other else none) ≠ _
    split_ifs <;> rintro ⟨⟩
  refine ⟨Parent.initial_sound _ _ _ (NeZero.pos M), ?_, initial_working _ _ _ _ _,
    fun m hm => ?_, fun fd addr id hd => (hnone fd addr id hd).elim,
    fun fd fd' addr addr' id hd => (hnone fd addr id hd).elim⟩
  · rw [initial_project]
    exact Dispatch.initial_transit listenFd pipeFd others
  · rw [initial_messages] at hm
    exact (Multiset.notMem_zero m hm).elim

theorem processServer_hands_over (h : Host) (halloc : ∀ n, h.alloc n = true) (hM : M < sizeMod)
    (listenFd pipeFd : ℤ) (others childOthers : ℤ → Bool) (conns : ℕ → Conn) (s : System M N)
    (hs : (machine h).Reaches (fun s e => ¬ s.CallFails h e ∧ s.OrderlyEvent e)
      (initial listenFd pipeFd others childOthers conns) s) : s.HandsOver h := by
  have hconsistent : s.Consistent := by
    apply hs.invariant (I := Consistent) (initial_consistent _ _ _ _ _)
    intro a e b ha he hstep
    exact ha.step hM halloc he.1 he.2 hstep
  exact ⟨fun _ => hconsistent.slot, fun _ _ _ => hconsistent.reader, fun _ _ => hconsistent.returned⟩

theorem processServer_hands_over_run :
    let h : Host := ⟨.little, fun _ => true, fun _ => []⟩
    let c : Conn :=
      { recvs := Stream'.const (.moves 4), sends := Stream'.const (.moves 4)
        selects := Stream'.const (.moves 0) }
    let es : List (Event maxConnections numChildProcesses) :=
      [.parent .run, .parent (.poll (.ok ⟨POLLIN, .zero, fun _ => .zero⟩)),
        .parent (.accept (.ok (6, ⟨1, 2⟩, 0))), .parent .run,
        .parent (.poll (.ok ⟨.zero, .zero, fun p => if p = 0 then POLLIN else .zero⟩)), .parent .run,
        .parent (.wait (.ok ())), .parent (.send (.ok ())), .child 1 (.run 0 {}), .parent .post,
        .child 1 .ok, .child 1 (.received ⟨6, .accepted ⟨1, 2⟩ 0⟩ 4), .parent .run]
    ∃ s, (machine h).runWithin (fun s e => ¬ s.CallFails h e ∧ s.OrderlyEvent e) es
        (initial 5 4 parentDescriptors childDescriptors fun _ => c) = some s ∧
      (s.parent.client 0).fd = -6 ∧ (s.children 1).Holds 6 ∧ s.places 6 = 1 := by
  intro h c es
  have hrun : ((machine h).runWithin (fun s e => ¬ s.CallFails h e ∧ s.OrderlyEvent e) es
      (initial 5 4 parentDescriptors childDescriptors fun _ => c)).map (fun s =>
        ((s.parent.client 0).fd, s.parent.crossing, decide ((s.children 1).Holds 6))) =
          some (-6, none, true) := by decide
  obtain ⟨s, hs, hval⟩ := Option.map_eq_some_iff.mp hrun
  simp only [Prod.mk.injEq, decide_eq_true_eq] at hval
  obtain ⟨hfd, hcrossing, hholds⟩ := hval
  have hslot := (processServer_hands_over h (fun _ => rfl) (by decide) 5 4 parentDescriptors
    childDescriptors (fun _ => c) s (Machine.reaches_of_runWithin hs)).slot 0
    (by rw [hfd]; decide) (by rw [hcrossing]; decide)
  rcases hslot with ⟨hpos, -⟩ | ⟨-, hplaces⟩
  · rw [hfd] at hpos
    exact absurd hpos (by decide)
  · rw [hfd] at hplaces
    exact ⟨s, hs, hfd, hholds, hplaces⟩

end System

end ScalableServer.ProcessServer
