import ScalableServer.Lending
import ScalableServer.PollServer.RunServer

namespace ScalableServer.PollServer

open ScalableServer.Foundations ScalableServer.Core

structure ListenCalls where
  socket : Except Errno ℤ
  bind : Except Errno Unit
  listen : Except Errno Unit

def openPollServerForListen (calls : ListenCalls) : Except Errno ℤ × List FdEvent :=
  match calls.socket with
  | .error e => (.error e, [])
  | .ok fd =>
    match calls.bind with
    | .error e => (.error e, [.opened fd, .closed fd])
    | .ok () =>
      match calls.listen with
      | .error e => (.error e, [.opened fd, .closed fd])
      | .ok () => (.ok fd, [.opened fd])

def destroyed (s : Server) : List FdEvent :=
  .closed s.so.listenFd :: (List.finRange maxConnections).map fun i => .closed (s.so.clientFd i)

def descriptors (calls : ListenCalls) (us : List (Loan ℤ)) (s : Server) : List FdEvent :=
  (openPollServerForListen calls).2 ++ us.filterMap Loan.fdEvent ++ destroyed s

variable {h : Host} {s t : Server} {e : Event} {calls : ListenCalls} {us : List (Loan ℤ)}
  {listenFd fd : ℤ} {others : ℤ → Bool}

lemma openPollServerForListen_cases (calls : ListenCalls) :
    (∃ err, openPollServerForListen calls = (.error err, [])) ∨
      (∃ err fd, openPollServerForListen calls = (.error err, [.opened fd, .closed fd])) ∨
      ∃ fd, calls.socket = .ok fd ∧ openPollServerForListen calls = (.ok fd, [.opened fd]) := by
  rw [openPollServerForListen]
  cases calls.socket with
  | error err => exact .inl ⟨err, rfl⟩
  | ok fd =>
    refine .inr ?_
    cases calls.bind with
    | error err => exact .inl ⟨err, fd, rfl⟩
    | ok =>
      cases calls.listen with
      | error err => exact .inl ⟨err, fd, rfl⟩
      | ok => exact .inr ⟨fd, rfl, rfl⟩

lemma openPollServerForListen_failed {err : Errno}
    (hfail : (openPollServerForListen calls).1 = .error err) :
    ClosesAll (openPollServerForListen calls).2 := by
  rcases openPollServerForListen_cases calls with ⟨_, h⟩ | ⟨_, fd, h⟩ | ⟨fd, -, h⟩ <;> rw [h]
  · rfl
  · exact ledger_perm (.refl [fd])
  · rw [h] at hfail
    cases hfail

lemma openPollServerForListen_ok (hok : (openPollServerForListen calls).1 = .ok listenFd) :
    calls.socket = .ok listenFd ∧ (openPollServerForListen calls).2 = [.opened listenFd] := by
  rcases openPollServerForListen_cases calls with ⟨_, h⟩ | ⟨_, _, h⟩ | ⟨fd, hsocket, h⟩ <;>
    rw [h] at hok ⊢
  · cases hok
  · cases hok
  · obtain rfl := Except.ok.inj hok
    exact ⟨hsocket, rfl⟩

lemma listenFd_of_moves (hstep : Moves h s e t) : t.so.listenFd = s.so.listenFd := by
  cases hstep with
  | serve =>
    rw [served]
    split_ifs <;> rfl
  | _ => rfl

lemma listenFd_of_reaches
    (hs : ((server h).observe noteLoans).Reaches (fun p e => OrderlyEvent p.1 e)
      (initial listenFd others, []) (s, us)) : s.so.listenFd = listenFd :=
  hs.invariant (I := fun p => p.1.so.listenFd = listenFd) rfl fun _ _ _ hp _ hstep =>
    (listenFd_of_moves (moves_of_step (Machine.step_observe hstep).1)).trans hp

lemma destroyed_count (s : Server) :
    (destroyed s).length = maxConnections + 1 ∧ opens (destroyed s) = 0 ∧
      closes (destroyed s) = maxConnections + 1 := by
  have hmap : destroyed s =
      (s.so.listenFd :: (List.finRange maxConnections).map s.so.clientFd).map .closed := by
    rw [destroyed, List.map_cons, List.map_map]
    rfl
  rw [hmap, opens_map_closed, closes_map_closed]
  simp

lemma destroyed_filter (hs : Table s) (hlisten : s.so.listenFd ≠ 0) :
    (destroyed s).filter (· ≠ .closed 0) = .closed s.so.listenFd ::
      (SlotTable.keys Used (fun q : PollFd => id q.fd) s.pollfds.client).map .closed := by
  have hused : ∀ i ∈ List.finRange maxConnections,
      ((fun e => decide (e ≠ FdEvent.closed 0)) ∘ fun i => FdEvent.closed (s.so.clientFd i)) i =
        decide (Used (s.pollfds.client i)) := by
    intro i _
    change decide (FdEvent.closed (s.so.clientFd i) ≠ .closed 0) = _
    refine decide_eq_decide.mpr ?_
    rw [hs.agree i, Used, ne_eq, FdEvent.closed.injEq]
  have hclosed : (fun i => FdEvent.closed (s.so.clientFd i)) =
      FdEvent.closed ∘ fun i => (s.pollfds.client i).fd := by
    funext i
    rw [hs.agree i]
    rfl
  rw [destroyed, List.filter_cons_of_pos (by simpa using hlisten), List.filter_map,
    List.filter_congr hused, SlotTable.keys, List.map_map, hclosed]
  rfl

lemma count_destroyed (hs : Table s) (hlisten : s.so.listenFd ≠ 0) :
    (destroyed s).count (.closed 0) + s.so.numConnections = maxConnections := by
  have hfilter : ((destroyed s).filter (· ≠ .closed 0)).length = s.so.numConnections + 1 := by
    rw [destroyed_filter hs hlisten, List.length_cons, List.length_map, SlotTable.length_keys,
      hs.registered.count]
  have hsplit : (destroyed s).length = (destroyed s).count (.closed 0) +
      ((destroyed s).filter (· ≠ .closed 0)).length := by
    rw [List.count, List.length_eq_countP_add_countP (· == FdEvent.closed 0),
      ← List.countP_eq_length_filter]
    congr 1
    exact List.countP_congr fun e _ => by simp
  have hlength := (destroyed_count s).1
  omega

lemma destroyPollState_accepted (hs : Table s) (fd : ℤ) : (destroyPollState s).accepted fd = none := by
  rw [Server.accepted]
  by_cases hfd : s.accepted fd = none
  · have hkept := foldl_update_none_or s.so.clientFd (List.finRange maxConnections)
      (Function.update s.fds s.so.listenFd none) fd
    rcases hkept with hnone | hsame
    · rw [show (destroyPollState s).fds fd = none from hnone]
      rfl
    · rw [show (destroyPollState s).fds fd = _ from hsame]
      by_cases hlisten : fd = s.so.listenFd
      · rw [hlisten, Function.update_self]
        rfl
      · rw [Function.update_of_ne hlisten]
        exact hfd
  · obtain ⟨i, -, hi⟩ := hs.registered.lists.covers fd hfd
    have hslot : s.so.clientFd i = fd := (hs.agree i).trans hi
    rw [← hslot, destroyPollState_closed]
    rfl

lemma ledger_of_reaches
    (hs : ((server h).observe noteLoans).Reaches (fun p e => OrderlyEvent p.1 e)
      (initial listenFd others, []) (s, us)) :
    Table s ∧ ∃ held, ledger [] (.opened listenFd :: us.filterMap Loan.fdEvent) = some held ∧
      held.Perm (listenFd :: SlotTable.keys Used (fun q : PollFd => id q.fd) s.pollfds.client) := by
  obtain ⟨p, hp, hsound, hkeeps⟩ := keeps_loans hs
  obtain ⟨held, hheld, hnodup, hmem⟩ := Lending.ledger_of_run hp
  refine ⟨hsound.toTable, held ++ [listenFd], ledger_frame [listenFd] hheld, ?_⟩
  have hslots : held.Perm (SlotTable.keys Used (fun q : PollFd => id q.fd) s.pollfds.client) := by
    refine (List.perm_ext_iff_of_nodup hnodup hsound.registered.lists.nodup_keys).mpr fun fd => ?_
    rw [hmem, hkeeps.members, hsound.registered.lists.mem_keys]
  exact (List.perm_append_singleton listenFd held).trans (hslots.cons listenFd)

theorem pollServer_descriptors (h : Host) (calls : ListenCalls) (others : ℤ → Bool)
    (hsocket : calls.socket ≠ .ok 0) :
    (∀ err, (openPollServerForListen calls).1 = .error err →
        ClosesAll (openPollServerForListen calls).2 ∧
          ¬ ClosesAll (descriptors calls [] (initializeServer (.error err) others).2)) ∧
      ∀ listenFd, (openPollServerForListen calls).1 = .ok listenFd → ∀ s us,
        ((server h).observe noteLoans).Reaches (fun p e => OrderlyEvent p.1 e)
          ((initializeServer (.ok listenFd) others).2, []) (s, us) →
        ClosesAll ((openPollServerForListen calls).2 ++ us.filterMap Loan.fdEvent ++
            (destroyed s).filter (· ≠ .closed 0)) ∧
          (∀ fd, (destroyPollState s).accepted fd = none) ∧
          (destroyed s).count (.closed 0) + s.so.numConnections = maxConnections ∧
          (ClosesAll (descriptors calls us s) ↔ s.so.numConnections = maxConnections) := by
  constructor
  · intro err hfail
    have hclosed := openPollServerForListen_failed hfail
    refine ⟨hclosed, ?_⟩
    rw [descriptors, List.filterMap_nil, List.append_nil, hclosed.append_iff]
    exact of_decide_eq_false rfl
  · intro listenFd hok s us hs
    obtain ⟨hfd, hopened⟩ := openPollServerForListen_ok hok
    have hlisten : listenFd ≠ 0 := by
      rintro rfl
      exact hsocket hfd
    have hfixed : s.so.listenFd = listenFd := listenFd_of_reaches hs
    obtain ⟨htable, held, hheld, hperm⟩ := ledger_of_reaches hs
    have hfilter := destroyed_filter htable (hfixed ▸ hlisten)
    have hcount := count_destroyed htable (hfixed ▸ hlisten)
    have hall : ClosesAll ((openPollServerForListen calls).2 ++ us.filterMap Loan.fdEvent ++
        (destroyed s).filter (· ≠ .closed 0)) := by
      rw [ClosesAll, hopened, List.singleton_append, ledger_append, hheld, Option.bind_some, hfilter,
        hfixed]
      exact ledger_perm hperm
    refine ⟨hall, destroyPollState_accepted htable, hcount, fun hclosed => ?_, fun hfull => ?_⟩
    · obtain ⟨-, hopens, hcloses⟩ := destroyed_count s
      have hsome := hall.count
      have hevery := hclosed.count
      rw [hfilter, closes_append, opens_append, closes_closed, opens_closed, closes_map_closed,
        opens_map_closed, SlotTable.length_keys, ← htable.registered.count] at hsome
      rw [descriptors, closes_append, opens_append, hcloses, hopens] at hevery
      omega
    · have hzero : (destroyed s).count (.closed 0) = 0 := by omega
      have hnone : (destroyed s).filter (· ≠ .closed 0) = destroyed s :=
        List.filter_eq_self.mpr fun e he => by
          simpa using fun heq : e = .closed 0 => List.count_eq_zero.mp hzero (heq ▸ he)
      rw [descriptors, ← hnone]
      exact hall

theorem pollServer_descriptors_one_client :
    let h : Host := ⟨.little, fun _ => true, fun _ => []⟩
    let calls : ListenCalls := ⟨.ok 4, .ok (), .ok ()⟩
    ∃ s us, ((server h).observe noteLoans).Reaches (fun p e => OrderlyEvent p.1 e)
        (initial 4 (· < 5), []) (s, us) ∧ us = [.join 5] ∧
      descriptors calls us s = [.opened 4, .opened 5, .closed 4, .closed 5, .closed 0, .closed 0,
        .closed 0, .closed 0] ∧ ¬ ClosesAll (descriptors calls us s) := by
  intro h calls
  let c : Conn :=
    { recvs := Stream'.const (.moves 4), sends := Stream'.const (.moves 4)
      selects := Stream'.const (.moves 0) }
  let es : List Event := [.run 0 {}, .poll (.ok ⟨POLLIN, fun _ => .zero⟩), .accept (.ok (5, {}, c)),
    .run 0 {}]
  have hrun : (((server h).observe noteLoans).runWithin (fun p e => WellReported p.1 e) es
      (initial 4 (· < 5), [])).map (fun q => (q.2, descriptors calls q.2 q.1, q.1.so.numConnections)) =
        some ([.join 5], [.opened 4, .opened 5, .closed 4, .closed 5, .closed 0, .closed 0,
          .closed 0, .closed 0], 1) := by decide
  obtain ⟨⟨s, us⟩, hs, hval⟩ := Option.map_eq_some_iff.mp hrun
  obtain ⟨hus, hval⟩ := Prod.mk.inj hval
  obtain ⟨hdescriptors, hone⟩ := Prod.mk.inj hval
  have hreaches := (Machine.reaches_of_runWithin hs).mono fun _ _ he => he.orderly
  obtain ⟨-, -, -, hiff⟩ := (pollServer_descriptors h calls (· < 5) (by decide)).2 4 rfl s us hreaches
  refine ⟨s, us, hreaches, hus, hdescriptors, fun hcloses => ?_⟩
  exact absurd (hiff.mp hcloses) (hone ▸ by decide)

end ScalableServer.PollServer
