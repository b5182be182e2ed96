import ScalableServer.ClientController.Handle

namespace ScalableServer.ClientController

open ScalableServer.Foundations ScalableServer.Core

variable {h : Host} {p : Pass} {passes : List Pass} {l l' : Loop} {s s' : State} {w w' : World}
  {i : ℕ} {bs data : List UInt8} {size : ℕ} {c d : Conn} {r : ℤ}

def Puts (bs : List UInt8) (c d : Conn) : Prop :=
  Writable c.sends → d.sent = c.sent ++ bs ∧ Writable d.sends

lemma Puts.trans {e : Conn} {bs' : List UInt8} (h : Puts bs c d) (h' : Puts bs' d e) :
    Puts (bs ++ bs') c e := by
  intro hs
  obtain ⟨hsent, hs'⟩ := h hs
  obtain ⟨hsent', hs''⟩ := h' hs'
  refine ⟨?_, hs''⟩
  rw [hsent', hsent, List.append_assoc]

lemma writeFullyTo_puts (fd : ℤ) (w : World) (hdata : size ≤ data.length) (hsize : size < 2 ^ 63) :
    ∃ r w', writeFullyTo fd data size w = some (r, w') ∧ (∀ g, g ≠ fd → w' g = w g) ∧
      Puts (data.take size) (w fd) (w' fd) := by
  obtain ⟨⟨r, d⟩, hr⟩ := writeFully_total (w fd) hdata
  refine ⟨r, Function.update w fd d.conn, by rw [writeFullyTo, hr]; rfl, ?_, fun hs => ?_⟩
  · intro g hg
    rw [Function.update_of_ne hg]
  · obtain ⟨hne, hs'⟩ := writeFully_writable hr hs
    rw [Function.update_self]
    exact ⟨writeFully_sent hdata hsize hr hne, hs'⟩

lemma writeEach_acts {writes : List (List UInt8 × ℕ)}
    (hwrites : ∀ p ∈ writes, p.2 ≤ p.1.length ∧ p.2 < 2 ^ 63) :
    Acts (fun fd => writeEach fd writes) fun c _ d =>
      Puts (writes.flatMap fun p => p.1.take p.2) c d := by
  intro fd acc
  induction writes generalizing acc with
  | nil =>
    refine ⟨acc.1, acc.2, rfl, fun _ _ => rfl, fun hs => ⟨?_, hs⟩⟩
    exact (List.append_nil _).symm
  | cons p writes ih =>
    obtain ⟨hlen, hlt⟩ := hwrites p List.mem_cons_self
    obtain ⟨r, w, hw, hother, hputs⟩ := writeFullyTo_puts fd acc.2 hlen hlt
    have hnext : writeNext fd acc p = some (if r = -1 then -1 else acc.1, w) := by
      rw [writeNext, hw]
      rfl
    obtain ⟨r', w', hw', hother', hputs'⟩ := ih (fun p hp => hwrites p (List.mem_cons_of_mem _ hp))
      (if r = -1 then -1 else acc.1, w)
    refine ⟨r', w', ?_, fun g hg => (hother' g hg).trans (hother g hg), hputs.trans hputs'⟩
    change (p :: writes).foldlM (writeNext fd) acc = _
    rw [List.foldlM_cons, hnext]
    exact hw'

def Distinct (passes : List Pass) (s : State) : Prop :=
  (s.fds ++ passes.filterMap Pass.accepted).Nodup

lemma Distinct.injective (h : Distinct passes s) (hi : i < s.numConns) :
    ∀ j < s.numConns, s.acceptedFds j = s.acceptedFds i → j = i := by
  intro j hj he
  have hnodup : s.fds.Nodup := (List.nodup_append.mp h).1
  exact List.inj_on_of_nodup_map hnodup (List.mem_range.mpr hj) (List.mem_range.mpr hi) he

lemma Distinct.handleAccept (h : Distinct (p :: passes) s) :
    Distinct passes (handleAccept p.accept s).2 := by
  rw [Distinct, List.filterMap_cons] at h
  rcases handleAccept_fds p.accept s with hfds | ⟨fd, haccept, hfds⟩
  · rw [Distinct, hfds]
    refine h.sublist (List.Sublist.append_left ?_ _)
    cases p.accepted with
    | none => exact List.Sublist.refl _
    | some fd => exact List.sublist_cons_self fd _
  · have haccepted : p.accepted = some fd := by rw [Pass.accepted, haccept]; rfl
    rw [haccepted] at h
    rwa [Distinct, hfds, List.append_assoc]

lemma Distinct.tail (h : Distinct (p :: passes) s) : Distinct passes s := by
  refine h.sublist (List.Sublist.append_left ?_ _)
  exact (List.sublist_cons_self p passes).filterMap _

def idleStdin (p : Pass) (l : Loop) : Loop :=
  if l.revents.2 then
    l.afterStdin (match p.read with | .error _ => ERROR | .ok _ => SUCCESS) l.state
  else l

def readsStart (p : Pass) (l : Loop) : Bool :=
  l.revents.2 &&
    match p.read with
    | .error _ => false
    | .ok bs => startsOn p.prior bs = some true

def startingState : List Pass → Loop → Option State
  | [], _ => none
  | p :: ps, l =>
    if l.exit || p.quit then none
    else
      let l := listenReady p (pollFds p l)
      if readsStart p l = true then some l.state else startingState ps (idleStdin p l)

structure SameRequest (s s' : State) : Prop where
  serverIp : s'.serverIp = s.serverIp
  serverPort : s'.serverPort = s.serverPort
  data : s'.data = s.data
  dataSize : s'.dataSize = s.dataSize
  started : s'.started = s.started

lemma SameRequest.trans {s'' : State} (h : SameRequest s s') (h' : SameRequest s' s'') :
    SameRequest s s'' :=
  ⟨h'.serverIp.trans h.serverIp, h'.serverPort.trans h.serverPort, h'.data.trans h.data,
    h'.dataSize.trans h.dataSize, h'.started.trans h.started⟩

lemma handleAccept_sameRequest (accept : Except Errno ℤ) (s : State) :
    SameRequest s (handleAccept accept s).2 := by
  cases accept with
  | error e => exact ⟨rfl, rfl, rfl, rfl, rfl⟩
  | ok fd =>
    rw [handleAccept]
    split_ifs <;> exact ⟨rfl, rfl, rfl, rfl, rfl⟩

@[simp] lemma pollFds_state (p : Pass) (l : Loop) : (pollFds p l).state = l.state := by
  rw [pollFds]
  split <;> rfl

@[simp] lemma idleStdin_state (p : Pass) (l : Loop) : (idleStdin p l).state = l.state := by
  rw [idleStdin]
  split_ifs <;> rfl

lemma listenReady_state (p : Pass) (l : Loop) :
    (listenReady p l).state = l.state ∨
      (listenReady p l).state = (handleAccept p.accept l.state).2 := by
  rw [listenReady]
  split_ifs
  · exact .inr rfl
  · exact .inl rfl

lemma listenReady_keeps (hl : Distinct (p :: passes) l.state) :
    Distinct passes (listenReady p (pollFds p l)).state ∧
      SameRequest l.state (listenReady p (pollFds p l)).state := by
  rcases listenReady_state p (pollFds p l) with hs | hs
  · rw [hs, pollFds_state]
    exact ⟨hl.tail, rfl, rfl, rfl, rfl, rfl⟩
  · rw [hs, pollFds_state]
    exact ⟨hl.handleAccept, handleAccept_sameRequest p.accept l.state⟩

lemma startingState_some (hl : Distinct passes l.state) (hs : startingState passes l = some s) :
    Distinct [] s ∧ SameRequest l.state s := by
  induction passes generalizing l with
  | nil => cases hs
  | cons p ps ih =>
    simp only [startingState] at hs
    obtain ⟨hdistinct, hsame⟩ := listenReady_keeps hl
    split_ifs at hs
    · obtain rfl := Option.some.inj hs
      refine ⟨?_, hsame⟩
      rw [Distinct, List.filterMap_nil, List.append_nil]
      exact (List.nodup_append.mp hdistinct).1
    · rw [← idleStdin_state p] at hdistinct
      obtain ⟨hfds, hsame'⟩ := ih hdistinct hs
      rw [idleStdin_state] at hsame'
      exact ⟨hfds, hsame.trans hsame'⟩

lemma stdinReady_idle (hidle : ¬ readsStart p l = true) :
    stdinReady h p l w = some (idleStdin p l, w) := by
  rw [stdinReady, idleStdin]
  by_cases hin : l.revents.2 = true
  · rw [if_pos hin, if_pos hin]
    rw [readsStart, hin, Bool.true_and] at hidle
    cases hread : p.read with
    | error e => rfl
    | ok bs =>
      simp only [hread, decide_eq_true_eq] at hidle
      rw [handleStdin, if_neg hidle]
      rfl
  · rw [if_neg hin, if_neg hin]

lemma stdinReady_start (hstart : readsStart p l = true) :
    stdinReady h p l w =
      (startClients h l.state w).map fun (r, s, w) => (l.afterStdin r s, w) := by
  rw [readsStart, Bool.and_eq_true] at hstart
  obtain ⟨hin, hstart⟩ := hstart
  rw [stdinReady, if_pos hin]
  cases hread : p.read with
  | error e => simp only [hread, Bool.false_eq_true] at hstart
  | ok bs =>
    simp only [hread, decide_eq_true_eq] at hstart
    rw [handleStdin, if_pos hstart]

lemma startClients_result (hs : startClients h s w = some (r, s', w')) :
    r = STARTED ∨ r = ERROR := by
  rw [startClients] at hs
  split at hs
  · cases hs
  · split_ifs at hs
    · obtain ⟨rfl, -⟩ := Prod.mk.inj (Option.some.inj hs)
      exact .inr rfl
    · obtain ⟨⟨r', w''⟩, -, he⟩ := Option.map_eq_some_iff.mp hs
      obtain ⟨rfl, -⟩ := Prod.mk.inj he
      by_cases hr : r' ≠ 0
      · exact .inr (if_pos hr)
      · exact .inl (if_neg hr)

lemma handleLoop_exit (hexit : l.exit = true) : handleLoop h passes l w = some (l, w) := by
  cases passes with
  | nil => rw [handleLoop, if_pos hexit]
  | cons p ps => rw [handleLoop, if_pos (by rw [hexit, Bool.true_or])]

lemma handleLoop_start (hs : startingState passes l = some s)
    (hrun : handleLoop h passes l w = some (l', w')) :
    ∃ r, startClients h s w = some (r, l'.state, w') := by
  induction passes generalizing l with
  | nil => cases hs
  | cons p ps ih =>
    simp only [startingState] at hs
    rw [handleLoop] at hrun
    split_ifs at hs hrun with hend hstart
    · obtain rfl := Option.some.inj hs
      rw [handlePass, stdinReady_start hstart] at hrun
      cases hclients : startClients h (listenReady p (pollFds p l)).state w with
      | none => simp [hclients] at hrun
      | some q =>
        obtain ⟨r, s₁, w₁⟩ := q
        have hexit : ((listenReady p (pollFds p l)).afterStdin r s₁).exit = true := by
          rcases startClients_result hclients with rfl | rfl <;> simp [Loop.afterStdin]
        simp only [hclients, Option.map_some, Option.bind_some, handleLoop_exit hexit] at hrun
        obtain ⟨rfl, rfl⟩ := Prod.mk.inj (Option.some.inj hrun)
        exact ⟨r, rfl⟩
    · rw [handlePass, stdinReady_idle hstart] at hrun
      exact ih hs hrun

lemma handleLoop_idle (hs : startingState passes l = none) (hl : Distinct passes l.state)
    (hrun : handleLoop h passes l w = some (l', w')) :
    w' = w ∧ l'.state.started = l.state.started := by
  induction passes generalizing l with
  | nil =>
    rw [handleLoop] at hrun
    split_ifs at hrun
    obtain ⟨rfl, rfl⟩ := Prod.mk.inj (Option.some.inj hrun)
    exact ⟨rfl, rfl⟩
  | cons p ps ih =>
    simp only [startingState] at hs
    rw [handleLoop] at hrun
    split_ifs at hs hrun with hend hstart
    · obtain ⟨rfl, rfl⟩ := Prod.mk.inj (Option.some.inj hrun)
      exact ⟨rfl, rfl⟩
    · rw [handlePass, stdinReady_idle hstart] at hrun
      obtain ⟨hdistinct, hsame⟩ := listenReady_keeps hl
      rw [← idleStdin_state p] at hdistinct
      obtain ⟨hw, hstarted⟩ := ih hs hdistinct hrun
      rw [idleStdin_state] at hstarted
      exact ⟨hw, hstarted.trans hsame.started⟩

lemma forEachConn_result {body : ℤ → ℤ × World → Option (ℤ × World)} {R : Conn → ℤ → Conn → Prop}
    (hb : Acts body R) (hs : Distinct [] s) (hi : i < s.numConns)
    (hrun : forEachConn s body w = some (r, w')) :
    ∃ q, R (w (s.acceptedFds i)) q (w' (s.acceptedFds i)) ∧ (i + 1 = s.numConns → q = r) := by
  obtain ⟨q, w'', r', hrun', hq, hlast⟩ := forEachConn_acts hb (w := w) hi (hs.injective hi)
  rw [hrun] at hrun'
  obtain ⟨rfl, rfl⟩ := Prod.mk.inj (Option.some.inj hrun')
  exact ⟨q, hq, hlast⟩

def lastTakesStart (s : State) (w : World) : Bool :=
  takesWord (w (s.acceptedFds (s.numConns - 1))).sends

lemma startClients_fds (hstart : startClients h s w = some (r, s', w')) : s'.fds = s.fds := by
  rw [startClients] at hstart
  split at hstart
  · cases hstart
  · rename_i r₁ s₁ w₁ hcommand
    obtain ⟨q, -, he⟩ := Option.map_eq_some_iff.mp hcommand
    simp only [Prod.mk.injEq] at he
    obtain ⟨-, rfl, -⟩ := he
    split_ifs at hstart
    · obtain ⟨-, rfl, -⟩ := hstart
      rfl
    · obtain ⟨q, -, he⟩ := Option.map_eq_some_iff.mp hstart
      simp only [Prod.mk.injEq] at he
      obtain ⟨-, rfl, -⟩ := he
      rfl

lemma destroyState_fds (hstop : destroyState h s w = some (r, s', w')) : s'.fds = s.fds := by
  rw [destroyState] at hstop
  split_ifs at hstop
  · obtain ⟨q, -, he⟩ := Option.map_eq_some_iff.mp hstop
    simp only [Prod.mk.injEq] at he
    obtain ⟨-, rfl, -⟩ := he
    rfl
  · obtain ⟨-, rfl, -⟩ := hstop
    rfl

variable {result : ℤ} {revents : Bool × Bool} {failed : Bool}

lemma run_some (hrun : run h passes result revents s w = some (failed, s', w')) :
    ∃ l w₁ r, handleLoop h passes { result, revents, state := s } w = some (l, w₁) ∧
      destroyState h l.state w₁ = some (r, s', w') := by
  rw [run, handle] at hrun
  cases hloop : handleLoop h passes { result, revents, state := s } w with
  | none => simp [hloop] at hrun
  | some q =>
    obtain ⟨l, w₁⟩ := q
    simp only [hloop, Option.map_some] at hrun
    obtain ⟨⟨r, s₂, w₂⟩, hstop, he⟩ := Option.map_eq_some_iff.mp hrun
    simp only [Prod.mk.injEq] at he
    obtain ⟨-, rfl, rfl⟩ := he
    exact ⟨l, w₁, r, rfl, hstop⟩

lemma run_idle (hnone : startingState passes { result, revents, state := s } = none)
    (hs : Distinct passes s) (hstarted : s.started = false)
    (hrun : run h passes result revents s w = some (failed, s', w')) : w' = w := by
  obtain ⟨l, w₁, r, hloop, hstop⟩ := run_some hrun
  obtain ⟨rfl, hidle⟩ := handleLoop_idle hnone hs hloop
  rw [destroyState, hidle, if_neg (by simp [hstarted])] at hstop
  obtain ⟨-, -, rfl⟩ := hstop
  rfl

end ScalableServer.ClientController
