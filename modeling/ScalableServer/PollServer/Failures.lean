import ScalableServer.PollServer.Removals
import ScalableServer.PollServer.RunServer

namespace ScalableServer.PollServer

open ScalableServer.Foundations ScalableServer.Core

def callError (h : Host) (prior : ℕ) (c : Conn) : Option Errno :=
  match c.recv 4 with
  | none => none
  | some (.error e, _) => some e
  | some (.ok header, c) =>
    let bytesToRead := h.readWord prior header
    let bufferSize := bytesToRead + 1
    if h.alloc bufferSize = false then none
    else
      match payloadLoop bytesToRead
          { bytesRead := 0, bytes := header.length, buffer := { size := bufferSize }, conn := c } with
      | none => none
      | some (.error e, _) => some e
      | some (.ok (), s) =>
        match s.conn.send (h.wordBytes s.bytesRead) with
        | (.error e, _) => some e
        | (.ok _, _) => none

structure Isolated (s t : Server) (i : Fin maxConnections) : Prop where
  polling : ∀ ret, t.pc ≠ .returned ret
  clientFd : ∀ j, j ≠ i → t.so.clientFd j = s.so.clientFd j
  clientAddr : ∀ j, j ≠ i → t.so.clientAddr j = s.so.clientAddr j
  pollfds : ∀ j, j ≠ i → t.pollfds.client j = s.pollfds.client j
  pending : ∀ j, j ≠ i → t.fds (s.so.clientFd j) = s.fds (s.so.clientFd j)

variable {h : Host} {s t : Server} {i : Fin maxConnections} {addr : SockAddr} {c : Conn} {prior : ℕ}
  {ti : Timing} {e : Errno}

lemma pollRecvAndLog_fails (hfail : callError h prior c = some e) (so : StateObject)
    (i : Fin maxConnections) (ti : Timing) :
    ∃ r, pollRecvAndLog h so i prior ti c = some r ∧ r.ret = -1 := by
  rw [callError] at hfail
  rw [pollRecvAndLog]
  cases hrecv : c.recv 4 with
  | none =>
    rw [hrecv] at hfail
    cases hfail
  | some q =>
    obtain ⟨r, d⟩ := q
    rw [hrecv] at hfail
    cases r with
    | error err => exact ⟨_, rfl, rfl⟩
    | ok header =>
      dsimp only at hfail ⊢
      split_ifs at hfail ⊢
      cases hloop : payloadLoop (h.readWord prior header)
          { bytesRead := 0, bytes := header.length,
            buffer := { size := h.readWord prior header + 1 }, conn := d } with
      | none =>
        rw [hloop] at hfail
        cases hfail
      | some q =>
        obtain ⟨r, u⟩ := q
        rw [hloop] at hfail
        cases r with
        | error err => exact ⟨_, rfl, rfl⟩
        | ok x =>
          dsimp only at hfail ⊢
          cases hsend : u.conn.send (h.wordBytes u.bytesRead) with
          | mk r d' =>
            rw [hsend] at hfail
            cases r with
            | error err => exact ⟨_, rfl, rfl⟩
            | ok n => cases hfail

lemma pollRecvAndLog_passes (halloc : ∀ n, h.alloc n = true) (hpass : callError h prior c = none)
    {so : StateObject} {r : Handled} (hr : pollRecvAndLog h so i prior ti c = some r) :
    r.ret = 0 := by
  rw [callError] at hpass
  rw [pollRecvAndLog] at hr
  cases hrecv : c.recv 4 with
  | none =>
    rw [hrecv] at hr
    cases hr
  | some q =>
    obtain ⟨r', d⟩ := q
    rw [hrecv] at hpass hr
    cases r' with
    | error err => cases hpass
    | ok header =>
      simp only [halloc, Bool.true_eq_false, if_false] at hpass hr
      cases hloop : payloadLoop (h.readWord prior header)
          { bytesRead := 0, bytes := header.length,
            buffer := { size := h.readWord prior header + 1 }, conn := d } with
      | none =>
        rw [hloop] at hr
        cases hr
      | some q =>
        obtain ⟨r', u⟩ := q
        rw [hloop] at hpass hr
        cases r' with
        | error err => cases hpass
        | ok x =>
          dsimp only at hpass hr
          cases hsend : u.conn.send (h.wordBytes u.bytesRead) with
          | mk r' d' =>
            rw [hsend] at hpass hr
            cases r' with
            | error err => cases hpass
            | ok n =>
              cases hr
              rfl

lemma step_fails (hpc : s.pc = .comm i) (hin : (s.pollfds.client i).revents = POLLIN)
    (hc : s.fds (s.pollfds.client i).fd = some (.accepted addr c))
    (hfail : callError h prior c = some e) (ti : Timing) :
    ∃ t, step h s (.run prior ti) = some t ∧ t.pc = .returned (-1) ∧ t.so = s.so := by
  obtain ⟨r, hr, hret⟩ := pollRecvAndLog_fails hfail s.so i ti
  refine ⟨served s i addr r, ?_, ?_, ?_⟩
  · simp only [step, hpc, i.isLt, dif_pos, Fin.eta, pollComm, hin, if_true, serveSlot, hc, hr,
      Option.map_some]
  · simp [served, hret]
  · simp [served, hret]

def resetEvents : List Event :=
  let reset : Conn :=
    { recvs := Stream'.const ⟨.fail (.other 104), false⟩, sends := Stream'.const (.moves 4)
      selects := Stream'.const (.moves 0) }
  let other : Conn :=
    { unread := [0, 0, 0, 1, 7], recvs := Stream'.const (.moves 4)
      sends := Stream'.const (.moves 4), selects := Stream'.const (.moves 0) }
  [.run 0 {}, .poll (.ok ⟨POLLIN, fun _ => .zero⟩), .accept (.ok (5, ⟨1, 2⟩, reset)), .run 0 {},
    .poll (.ok ⟨POLLIN, fun _ => .zero⟩), .accept (.ok (6, ⟨3, 4⟩, other)), .run 0 {},
    .poll (.ok ⟨.zero, fun i => if i = 0 ∨ i = 1 then POLLIN else .zero⟩)]

lemma resetEvents_run : ∃ s addr c,
    (server ⟨.little, fun _ => true, fun _ => []⟩).runWithin PosixEvent resetEvents (initial 4 (· < 5)) =
        some s ∧
    s.pc = .comm (0 : Fin maxConnections) ∧
    (s.pollfds.client 0).revents = POLLIN ∧
    s.fds (s.pollfds.client 0).fd = some (.accepted addr c) ∧
    callError ⟨.little, fun _ => true, fun _ => []⟩ 0 c = some (.other 104) ∧
    s.so.clientFd 1 = 6 ∧ (s.conn 1).map (fun c => c.unread) = some [0, 0, 0, 1, 7] := by
  have hrun : ((server ⟨.little, fun _ => true, fun _ => []⟩).runWithin PosixEvent
      resetEvents (initial 4 (· < 5))).map (fun s =>
        (decide (s.pc = .comm 0 ∧ (s.pollfds.client 0).revents = POLLIN ∧ s.so.clientFd 1 = 6),
          (s.conn 0).map (callError ⟨.little, fun _ => true, fun _ => []⟩ 0),
          (s.conn 1).map fun c => c.unread)) =
          some (true, some (some (.other 104)), some [0, 0, 0, 1, 7]) := by decide +kernel
  obtain ⟨s, hs, hval⟩ := Option.map_eq_some_iff.mp hrun
  simp only [Prod.mk.injEq, decide_eq_true_eq, Option.map_eq_some_iff] at hval
  obtain ⟨⟨hpc, hin, hfd⟩, ⟨c, hc, hfail⟩, hunread⟩ := hval
  obtain ⟨addr, hc⟩ := mem_conn.mp hc
  exact ⟨s, addr, c, hs, hpc, hin, hc, hfail, hfd, Option.map_eq_some_iff.mpr hunread⟩

theorem not_isolated_after_reset :
    ¬ ∀ (h : Host) (listenFd : ℤ) (others : ℤ → Bool) (es : List Event) (s t : Server)
      (i : Fin maxConnections) (addr : SockAddr) (c : Conn) (prior : ℕ) (ti : Timing)
      (e : Errno),
      (server h).runWithin PosixEvent es (initial listenFd others) = some s → s.pc = .comm i →
        (s.pollfds.client i).revents = POLLIN →
        s.fds (s.pollfds.client i).fd = some (.accepted addr c) → callError h prior c = some e →
        step h s (.run prior ti) = some t → Isolated s t i := by
  intro hall
  obtain ⟨s, addr, c, hs, hpc, hin, hc, hfail, -⟩ := resetEvents_run
  obtain ⟨t, ht, hreturned, -⟩ := step_fails hpc hin hc hfail {}
  exact (hall _ 4 (· < 5) _ s t 0 addr c 0 {} _ hs hpc hin hc hfail ht).polling _ hreturned

theorem clientFailure_ends_server (h : Host) (listenFd : ℤ) (others : ℤ → Bool) (es : List Event)
    (s : Server) (hs : (server h).runWithin PosixEvent es (initial listenFd others) = some s)
    (i : Fin maxConnections) (hpc : s.pc = .comm i) (hin : (s.pollfds.client i).revents = POLLIN)
    (addr : SockAddr) (c : Conn) (hc : s.fds (s.pollfds.client i).fd = some (.accepted addr c))
    (prior : ℕ) (ti : Timing) (e : Errno) (hfail : callError h prior c = some e) :
    ∃ t, step h s (.run prior ti) = some t ∧ ¬ Isolated s t i ∧
      runServer h (es ++ [.run prior ti]) (initial listenFd others) = some (.error, t) ∧
      runCore (some (api h (.ok listenFd) others (es ++ [.run prior ti]))) (initial 0 others) =
        some (exitFailure, destroyPollState t) ∧
      ∀ j, (destroyPollState t).fds (s.so.clientFd j) = none := by
  obtain ⟨t, ht, hreturned, hso⟩ := step_fails hpc hin hc hfail ti
  have hrun : (server h).run (es ++ [.run prior ti]) (initial listenFd others) = some t := by
    rw [Machine.run_append, Machine.run_of_runWithin hs, Option.bind_some, Machine.run_singleton]
    exact ht
  refine ⟨t, ht, fun hisolated => hisolated.polling _ hreturned, ?_, runCore_returned hrun hreturned,
    fun j => ?_⟩
  · rw [runServer, hrun, Option.bind_some, runResult, hreturned]
    rfl
  · rw [← hso]
    exact destroyPollState_closed t j

theorem clientFailure_ends_server_reset :
    ∃ s t, (server ⟨.little, fun _ => true, fun _ => []⟩).runWithin PosixEvent resetEvents
        (initial 4 (· < 5)) = some s ∧
      (s.conn 1).map (fun c => c.unread) = some [0, 0, 0, 1, 7] ∧ ¬ Isolated s t 0 ∧
      runCore (some (api ⟨.little, fun _ => true, fun _ => []⟩ (.ok 4) (· < 5)
        (resetEvents ++ [.run 0 {}]))) (initial 0 (· < 5)) =
          some (exitFailure, destroyPollState t) ∧
      (destroyPollState t).fds 6 = none := by
  obtain ⟨s, addr, c, hs, hpc, hin, hc, hfail, hfd, hunread⟩ := resetEvents_run
  obtain ⟨t, -, hisolated, -, hcore, hclosed⟩ := clientFailure_ends_server
    ⟨.little, fun _ => true, fun _ => []⟩ 4 (· < 5) resetEvents s hs 0 hpc hin addr c hc 0 {} _ hfail
  exact ⟨s, t, hs, hunread, hisolated, hcore, hfd ▸ hclosed 1⟩

end ScalableServer.PollServer
