import ScalableServer.ClientController.Failures

/-! What the store of a descriptor behind the array does to `num_conns`, which stands there, is not
modelled: the list keeps that descriptor apart. -/

namespace ScalableServer.ClientController

open ScalableServer.Foundations ScalableServer.Core

structure Stored where
  index : ℕ
  before : State
  after : State

structure Accepts where
  accepted : List ℤ := []
  stores : List Stored := []

def noteAccept (s : Loop × World) (p : Pass) (a : Accepts) : Accepts :=
  if (pollFds p s.1).revents.1 then
    match p.accept with
    | .error _ => a
    | .ok fd =>
      { accepted := a.accepted ++ [fd]
        stores := a.stores ++
          [⟨s.1.state.numConns, s.1.state, (handleAccept (.ok fd) s.1.state).2⟩] }
  else a

structure Listed (s : State) (a : Accepts) : Prop where
  index : ∀ st ∈ a.stores, st.index < MAX_CONNS
  numConns : s.numConns ≤ MAX_CONNS
  fds : s.fds = a.accepted.take MAX_CONNS
  full : ∀ st ∈ a.stores, st.before.numConns = MAX_CONNS →
    st.after.acceptedFds = st.before.acceptedFds ∧ st.after.numConns = st.before.numConns

variable {h : Host} {p : Pass} {l l' : Loop} {s s' : State} {w w' : World} {a a' : Accepts} {fd : ℤ}

lemma handleAccept_room (hroom : s.numConns < MAX_CONNS) :
    (handleAccept (.ok fd) s).2.numConns = s.numConns + 1 ∧
      (handleAccept (.ok fd) s).2.fds = s.fds ++ [fd] := by
  have hcount : (handleAccept (.ok fd) s).2.numConns = s.numConns + 1 := by
    rw [handleAccept, if_neg (Nat.not_le.mpr hroom)]
  refine ⟨hcount, ?_⟩
  rcases handleAccept_fds (.ok fd) s with hkept | ⟨g, hg, happended⟩
  · have hlen := congrArg List.length hkept
    simp only [State.fds, List.length_map, List.length_range] at hlen
    omega
  · rw [happended, Except.ok.inj hg]

lemma handleAccept_full (hfull : MAX_CONNS ≤ s.numConns) :
    (handleAccept (.ok fd) s).2.numConns = s.numConns ∧ (handleAccept (.ok fd) s).2.fds = s.fds := by
  have hcount : (handleAccept (.ok fd) s).2.numConns = s.numConns := by
    rw [handleAccept, if_pos hfull]
  refine ⟨hcount, ?_⟩
  rcases handleAccept_fds (.ok fd) s with hkept | ⟨g, hg, happended⟩
  · exact hkept
  · have hlen := congrArg List.length happended
    simp only [State.fds, List.length_append, List.length_map, List.length_range,
      List.length_singleton] at hlen
    omega

lemma startClients_numConns (hstart : startClients h s w = some (r, s', w')) :
    s'.numConns = s.numConns := by
  have hlen := congrArg List.length (startClients_fds hstart)
  simpa [State.fds] using hlen

lemma handlePass_list (hpass : handlePass h p l w = some (l', w')) :
    let s := if (pollFds p l).revents.1 then (handleAccept p.accept l.state).2 else l.state
    l'.state.numConns = s.numConns ∧ l'.state.fds = s.fds := by
  intro s
  have hs : (listenReady p (pollFds p l)).state = s := by
    simp only [s, listenReady, pollFds_state]
    split_ifs <;> simp
  rw [← hs]
  rw [handlePass, stdinReady] at hpass
  split_ifs at hpass
  · obtain ⟨⟨r, s₁, w₁⟩, hstdin, he⟩ := Option.map_eq_some_iff.mp hpass
    obtain ⟨rfl, -⟩ := Prod.mk.inj he
    change s₁.numConns = _ ∧ s₁.fds = _
    cases hread : p.read with
    | error e =>
      rw [hread] at hstdin
      obtain ⟨-, rfl, -⟩ := hstdin
      exact ⟨rfl, rfl⟩
    | ok bs =>
      rw [hread, handleStdin] at hstdin
      split_ifs at hstdin
      · exact ⟨startClients_numConns hstdin, startClients_fds hstdin⟩
      · obtain ⟨-, rfl, -⟩ := hstdin
        exact ⟨rfl, rfl⟩
  · obtain ⟨rfl, -⟩ := Prod.mk.inj (Option.some.inj hpass)
    exact ⟨rfl, rfl⟩

structure ListInv (s : State) (a : Accepts) : Prop where
  numConns : s.numConns = min a.accepted.length MAX_CONNS
  fds : s.fds = a.accepted.take MAX_CONNS
  index : (∀ st ∈ a.stores, st.index < MAX_CONNS) ↔ a.accepted.length ≤ MAX_CONNS
  before : ∀ st ∈ a.stores, st.index = st.before.numConns

lemma ListInv.accept (hs : ListInv s a) (hcount : s'.numConns = (handleAccept (.ok fd) s).2.numConns)
    (hfds : s'.fds = (handleAccept (.ok fd) s).2.fds) :
    ListInv s' { accepted := a.accepted ++ [fd]
                 stores := a.stores ++ [⟨s.numConns, s, (handleAccept (.ok fd) s).2⟩] } := by
  have hnum := hs.numConns
  have hindex : (∀ st ∈ a.stores ++ [⟨s.numConns, s, (handleAccept (.ok fd) s).2⟩],
      st.index < MAX_CONNS) ↔ (a.accepted ++ [fd]).length ≤ MAX_CONNS := by
    rw [List.forall_mem_append, List.forall_mem_singleton, hs.index, List.length_append,
      List.length_singleton]
    change _ ∧ s.numConns < MAX_CONNS ↔ _
    omega
  have hbefore : ∀ st ∈ a.stores ++ [⟨s.numConns, s, (handleAccept (.ok fd) s).2⟩],
      st.index = st.before.numConns := by
    rw [List.forall_mem_append, List.forall_mem_singleton]
    exact ⟨hs.before, rfl⟩
  by_cases hroom : s.numConns < MAX_CONNS
  · have hlen : (a.accepted ++ [fd]).length ≤ MAX_CONNS := by
      rw [List.length_append, List.length_singleton]
      omega
    refine ⟨?_, ?_, hindex, hbefore⟩
    · rw [hcount, (handleAccept_room hroom).1, min_eq_left hlen, List.length_append,
        List.length_singleton]
      omega
    · rw [hfds, (handleAccept_room hroom).2, hs.fds, List.take_of_length_le hlen,
        List.take_of_length_le (by omega)]
  · have hlen : MAX_CONNS ≤ a.accepted.length := by omega
    refine ⟨?_, ?_, hindex, hbefore⟩
    · rw [hcount, (handleAccept_full (not_lt.mp hroom)).1, List.length_append]
      omega
    · rw [hfds, (handleAccept_full (not_lt.mp hroom)).2, hs.fds, List.take_append_of_le_length hlen]

lemma ListInv.step (hs : ListInv l.state a)
    (hstep : ((passMachine h).observe noteAccept).step ((l, w), a) p = some ((l', w'), a')) :
    ListInv l'.state a' := by
  obtain ⟨hstep, rfl⟩ := Machine.step_observe hstep
  obtain ⟨hcount, hfds⟩ := handlePass_list (passMachine_step hstep).2
  simp only [noteAccept]
  split_ifs at hcount hfds ⊢
  · cases haccept : p.accept with
    | error e =>
      rw [haccept] at hcount hfds
      exact ⟨hcount.trans hs.numConns, hfds.trans hs.fds, hs.index, hs.before⟩
    | ok fd =>
      rw [haccept] at hcount hfds
      exact hs.accept hcount hfds
  · exact ⟨hcount.trans hs.numConns, hfds.trans hs.fds, hs.index, hs.before⟩

lemma ListInv.iff_length_le (hs : ListInv s a) : Listed s a ↔ a.accepted.length ≤ MAX_CONNS := by
  rw [← hs.index]
  refine ⟨Listed.index, fun hindex => ⟨hindex, ?_, hs.fds, fun st hst hfull => ?_⟩⟩
  · rw [hs.numConns]
    exact min_le_right _ _
  · have hlt := hindex st hst
    rw [hs.before st hst, hfull] at hlt
    exact (lt_irrefl _ hlt).elim

lemma listInv_run {passes : List Pass} (hconns : l.state.numConns = 0)
    (hrun : ((passMachine h).observe noteAccept).run passes ((l, w), {}) = some ((l', w'), a)) :
    ListInv l'.state a := by
  have hinv : ListInv l.state {} := ⟨by simp [hconns], by simp [State.fds, hconns], by simp, by simp⟩
  exact Machine.run_invariant (I := fun q => ListInv q.1.1.state q.2) hinv
    (fun done e x y _ _ hx hstep => hx.step hstep) passes ((l', w'), a) (List.prefix_refl _) hrun

theorem listed_iff (h : Host) (passes : List Pass) (l : Loop) (w : World)
    (hconns : l.state.numConns = 0) (l' : Loop) (w' : World) :
    (∀ a, ((passMachine h).observe noteAccept).run passes ((l, w), {}) = some ((l', w'), a) →
      (Listed l'.state a ↔ a.accepted.length ≤ MAX_CONNS)) ∧
    (handleLoop h passes l w = some (l', w') → ∃ done rest a, passes = done ++ rest ∧
      ((passMachine h).observe noteAccept).run done ((l, w), {}) = some ((l', w'), a)) := by
  refine ⟨fun a hrun => (listInv_run hconns hrun).iff_length_le, fun hloop => ?_⟩
  obtain ⟨done, rest, hpasses, hdone⟩ := handleLoop_run hloop
  obtain ⟨a, ha⟩ := Machine.run_observe noteAccept hdone {}
  exact ⟨done, rest, a, hpasses, ha⟩

def connects (n : ℕ) : List Pass :=
  (List.range n).map fun i : ℕ => { poll := .ok (true, false), accept := .ok (5 + i) }

lemma connect_step (hexit : l.exit = false) (fd : ℤ) :
    ∃ l' a', ((passMachine h).observe noteAccept).step ((l, w), a)
        { poll := .ok (true, false), accept := .ok fd } = some ((l', w), a') ∧
      a'.accepted = a.accepted ++ [fd] ∧ (l.state.numConns < MAX_CONNS → l'.exit = false) := by
  let p : Pass := { poll := .ok (true, false), accept := .ok fd }
  refine ⟨listenReady p (pollFds p l), noteAccept (l, w) p a, ?_, rfl, fun hroom => ?_⟩
  · simp [Machine.observe, passMachine, hexit, handlePass, stdinReady, listenReady, pollFds, p]
  · simp [listenReady, pollFds, p, handleAccept, Nat.not_le.mpr hroom, SUCCESS, ERROR]

lemma connects_run (hexit : l.exit = false) (hconns : l.state.numConns = 0) (n : ℕ)
    (hn : n ≤ MAX_CONNS + 1) :
    ∃ l' a, ((passMachine h).observe noteAccept).run (connects n) ((l, w), {}) = some ((l', w), a) ∧
      a.accepted.length = n ∧ (n ≤ MAX_CONNS → l'.exit = false) := by
  induction n with
  | zero => exact ⟨l, {}, rfl, rfl, fun _ => hexit⟩
  | succ n ih =>
    obtain ⟨l₁, a₁, hrun, hlen, hexit₁⟩ := ih (by omega)
    have hconns₁ : l₁.state.numConns = n := by
      rw [(listInv_run hconns hrun).numConns, hlen]
      omega
    obtain ⟨l₂, a₂, hstep, haccepted, hexit₂⟩ :=
      connect_step (h := h) (w := w) (a := a₁) (hexit₁ (by omega)) (5 + n)
    refine ⟨l₂, a₂, ?_, ?_, fun hle => hexit₂ (by omega)⟩
    · rw [connects, List.range_succ, List.map_append, Machine.run_append]
      refine Option.bind_eq_some_iff.mpr ⟨_, hrun, ?_⟩
      rw [List.map_singleton, Machine.run_singleton]
      exact hstep
    · rw [haccepted, List.length_append, List.length_singleton, hlen]

def oneHost : Host := ⟨.little, fun _ => true, fun _ => []⟩

def emptyState : State where
  serverIp := [49, 46, 50]
  serverPort := 5000
  acceptedFds _ := 0
  numConns := 0
  data := [7, 8]
  dataSize := 2

def startingLoop : Loop := { result := 0, revents := (false, false), state := emptyState }

def quietWorld : World := fun _ =>
  { recvs := Stream'.const (.moves 1), sends := Stream'.const (.moves 2)
    selects := Stream'.const (.moves 0) }

theorem not_listed :
    ¬ ∀ (h : Host) (passes : List Pass) (l : Loop) (w : World), l.state.numConns = 0 →
        ∀ (l' : Loop) (w' : World) (a : Accepts),
        ((passMachine h).observe noteAccept).run passes ((l, w), {}) = some ((l', w'), a) →
        Listed l'.state a := by
  intro hall
  obtain ⟨l', a, hrun, hlen, -⟩ := connects_run (h := oneHost) (l := startingLoop) (w := quietWorld)
    rfl rfl 501 (by decide)
  have hlisted := hall oneHost (connects 501) startingLoop quietWorld rfl l' quietWorld a hrun
  have hle := (listInv_run rfl hrun).iff_length_le.mp hlisted
  rw [hlen] at hle
  exact absurd hle (by decide)

theorem listed_full :
    ∃ l' a, ((passMachine oneHost).observe noteAccept).run (connects 500)
        ((startingLoop, quietWorld), {}) = some ((l', quietWorld), a) ∧
      a.accepted.length = 500 ∧ Listed l'.state a := by
  obtain ⟨l', a, hrun, hlen, -⟩ := connects_run (h := oneHost) (l := startingLoop) (w := quietWorld)
    rfl rfl 500 (by decide)
  exact ⟨l', a, hrun, hlen, ((listed_iff _ _ _ _ rfl l' quietWorld).1 a hrun).mpr hlen.le⟩

end ScalableServer.ClientController
