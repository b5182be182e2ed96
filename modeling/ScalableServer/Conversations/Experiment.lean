import ScalableServer.AnnouncedLengths
import ScalableServer.Client.Session
import ScalableServer.ClientController.Session
import ScalableServer.Conversations.Agreement
import ScalableServer.Conversations.Commands

namespace ScalableServer.Conversations

open ScalableServer.Foundations ScalableServer.Core

structure Connected (c d : Conn) : Prop where
  client : Fresh c
  server : Fresh d
  sends : Undisturbed c.sends
  recvs : Undisturbed c.recvs

/-- Whichever server the thread talks to counts the data, logs it and answers with its size, and the
two servers with a buffer for the whole data hold what the thread has. -/
structure Served (client server : Host) (a : Client.HandleArgs) : Prop where
  oneToOne : ∀ t c d so prior time, Connected c d → OneToOne.Quiet d → Agrees a
    (fun r : OneToOne.Received => r.result = .success ∧
      r.rows = [OneToOne.log server so a.data.length time])
    (Client.handle client a {} t
      (peerOf (OneToOne.receiveMessage server so prior time) (fun r => r.conn) d) c)
  poll : ∀ t c d so i prior time (sizes : Stream' ℕ), Connected c d →
    d.recvs = sizes.map Answer.moves → 4 ≤ sizes.head → d.sends.head = .moves 4 → Agrees a
      (fun r : PollServer.Handled => r.ret = 0 ∧
        r.rows = [PollServer.log server so i a.data.length time] ∧ StoredWithin a.data r.buffer)
      (Client.handle client a {} t
        (peerOf (PollServer.pollRecvAndLog server so i prior time) (fun r => r.conn) d) c)
  process : ∀ t c d pid child prior time (sizes : Stream' ℕ), Connected c d →
    d.recvs = sizes.map Answer.moves → 4 ≤ sizes.head → d.sends.head = .moves 4 → Agrees a
      (fun r : ProcessServer.Handled => r.ret = 0 ∧ r.notified = [child.clientFdParent] ∧
        r.rows = [ProcessServer.cLogRow server pid child a.data.length time] ∧
        StoredWithin a.data r.buffer)
      (Client.handle client a {} t
        (peerOf (ProcessServer.cRecvLogNotifyParentRespond server pid child succeeding prior time)
          (fun r => r.conn) d) c)

structure Commanded (passes : List Client.ControllerPass) (processors : ℤ) : Prop where
  split : ∃ idle pass idle' pass' rest, passes = idle ++ pass :: (idle' ++ pass' :: rest) ∧
    (∀ p ∈ idle, p.poll = .ok false) ∧ (∀ p ∈ idle', p.poll = .ok false) ∧ pass.poll = .ok true ∧
    pass'.poll = .ok true ∧ pass.calls.Succeed ∧ pass.calls.processors = processors

def threadArgs (addr port : ℕ) (contents : List UInt8) (i : ℕ) : Client.HandleArgs where
  serverAddr := ⟨addr, port⟩
  data := Client.strncpy contents.length contents
  dataSize := contents.length
  threadId := i

variable {client server : Host} {a : Client.HandleArgs}

lemma served (client : Host) (hsize : a.dataSize = a.data.length) (hlt : a.data.length < 2 ^ 32)
    (halloc : server.alloc (a.data.length + 1) = true) : Served client server a where
  oneToOne t c d so prior time hconn hquiet := by
    have hframe : ({ d with unread := frame a.data } : Conn).unread = frame a.data ++ [] :=
      (List.append_nil _).symm
    obtain ⟨r, hr, hresult, hrows, -, -, -, hsent, -⟩ :=
      OneToOne.receiveMessage_frame server so prior time hlt hframe
        ⟨hquiet.recvs, hquiet.sends, hquiet.selects, hquiet.signalled⟩
    rw [← hconn.server.delivered] at hr
    refine agrees_of_peer hsize hlt hconn.client hconn.sends hconn.recvs
      ⟨r, hr, ?_, hresult, hrows⟩
    rw [hsent]
    change d.sent ++ _ = _
    rw [hconn.server.sent, List.nil_append]
  poll t c d so i prior time sizes hconn hrecvs h4 hsend := by
    obtain ⟨s, e, he, hsent, -, hbytes, hcells, hwithin⟩ := exchanges_counts List.length prior
      hconn.server (fun bs hbs => by simpa using hbs) hlt halloc hrecvs h4 hsend
    refine agrees_of_peer hsize hlt hconn.client hconn.sends hconn.recvs
      ⟨_, pollRecvAndLog_of_exchanges so i he, hsent, rfl, ?_, _, rfl, hcells, hwithin⟩
    rw [hbytes]
  process t c d pid child prior time sizes hconn hrecvs h4 hsend := by
    obtain ⟨s, e, he, hsent, -, hbytes, hcells, hwithin⟩ := exchanges_counts (fun _ => 1) prior
      hconn.server (fun _ _ => one_ne_zero) hlt halloc hrecvs h4 hsend
    refine agrees_of_peer hsize hlt hconn.client hconn.sends hconn.recvs
      ⟨_, cRecvLog_of_exchanges pid child he, hsent, rfl, rfl, ?_, _, rfl, hcells, hwithin⟩
    rw [hbytes]

lemma startBytes_eq (s : ClientController.State) :
    bigEndian 2 ClientController.start ++ ClientController.dataBytes s =
      Client.startBytes s.serverPort (s.serverIp ++ [0]) s.data := by
  simp only [ClientController.dataBytes, Client.startBytes, List.append_assoc, List.length_append,
    List.length_singleton]
  rfl

/-- What a client makes of the commands: it exits with 0, and until it joins them it has a thread for
each processor. -/
structure Answers (l : Client.Loop) (args : List Client.HandleArgs) : Prop where
  exit : l.exit = true
  result : l.result = .SUCCESS
  threads : l.pool.running.map Client.Thread.args = args
  stops : ∀ results, (∀ i, (results i).2 = 0) →
    (Client.stopThreads results l.pool).2.running = []

lemma handleArgs_eq {s : Client.State} {port : ℕ} {ip contents : List UInt8} (addr : ℕ)
    (hs : Client.Received port ip contents s) (i : ℕ) :
    Client.handleArgs s ⟨addr, port⟩ i = threadArgs addr port contents i := by
  rw [Client.handleArgs, hs.dataSize, hs.data]
  rfl

lemma served_threadArgs (client : Host) {contents : List UInt8} (hlen : contents.length < 2 ^ 32)
    (halloc : server.alloc (contents.length + 1) = true) (addr port i : ℕ) :
    Served client server (threadArgs addr port contents i) := by
  have hlength : (threadArgs addr port contents i).data.length = contents.length :=
    Client.strncpy_length contents.length contents
  refine served client ?_ (by rwa [hlength]) (by rwa [hlength])
  rw [hlength]
  rfl

/-- The client passes the length of the data to `malloc` as it has come, before `ntohl`. -/
theorem experiment_served (controller client server : Host) (contents : List UInt8)
    (hfits : contents.length ≤ client.endian.hton 4 contents.length)
    (hload : controller.alloc contents.length = true)
    (halloc : ∀ n, client.alloc n = true) (hserver : server.alloc (contents.length + 1) = true)
    (s₀ : ClientController.State) (hport : s₀.serverPort < 2 ^ 16) (hnul : (0 : UInt8) ∉ s₀.serverIp)
    (hip : s₀.serverIp.length + 2 < 2 ^ 32) (hconns : s₀.numConns = 0)
    (before rest : List ClientController.Pass) (last : ClientController.Pass)
    (hwaits : ∀ p ∈ before, p.Waits) (hlast : last.Starts) (fds : List ℤ)
    (hfds : (before ++ [last]).flatMap ClientController.Pass.joined = fds) (hnodup : fds.Nodup)
    (hroom : fds.length ≤ ClientController.MAX_CONNS) (w : ClientController.World)
    (hsent : ∀ fd ∈ fds, (w fd).sent = []) (hsends : ∀ fd ∈ fds, Undisturbed (w fd).sends)
    (result : ℤ) (revents : Bool × Bool) (inetAddr : List UInt8 → Option ℕ) (addr : ℕ)
    (haddr : inetAddr s₀.serverIp = some addr) :
    ∃ s s' w', ClientController.loadData controller {} contents.length contents s₀ = (0, s) ∧
      ClientController.run controller (before ++ last :: rest) result revents s w =
        some (false, s', w') ∧
      ∀ fd ∈ fds, ∀ (c : Client.State) processors passes result revents,
        c.controller.unread = (w' fd).sent → Undisturbed c.controller.recvs →
        Commanded passes processors →
        ∃ l, Client.runController client inetAddr passes { result, revents, state := c } = some l ∧
          Client.RunWithin client inetAddr passes { result, revents, state := c } ∧
          Answers l ((List.range processors.toNat).map (threadArgs addr s₀.serverPort contents)) ∧
          ∀ t ∈ l.pool.running, (t.args.data = contents ↔ Client.ZerosLast contents) ∧
            Served client server t.args := by
  have hlen : contents.length < 2 ^ 32 := lt_of_le_of_lt hfits (client.endian.hton_lt 4 _)
  let s : ClientController.State := { s₀ with data := contents, dataSize := contents.length }
  have hloaded : ClientController.loadData controller {} contents.length contents s₀ = (0, s) := by
    simp [ClientController.loadData, hload, s]
  have hempty : s.fds = [] := by
    rw [ClientController.State.fds]
    change (List.range s₀.numConns).map _ = []
    rw [hconns]
    rfl
  have hall : s.fds ++ (before ++ [last]).flatMap ClientController.Pass.joined = fds := by
    rw [hempty, List.nil_append, hfds]
  obtain ⟨s', w', hrun, htold⟩ := ClientController.run_session controller rest result revents
    (s := s) hwaits hlast (hall ▸ hnodup) (hall ▸ hroom)
    (by change s₀.serverIp.length + 1 < 2 ^ 32; omega) (by change contents.length < 2 ^ 63; omega)
    rfl (hall ▸ hsends)
  rw [hall] at htold
  refine ⟨s, s', w', hloaded, hrun, ?_⟩
  intro fd hfd c processors passes result' revents' hunread hrecvs hcommanded
  obtain ⟨idle, pass, idle', pass', rest', rfl, hidle, hidle', hpass, hpass', hcalls, rfl⟩ :=
    hcommanded.split
  -- the text ends at the NUL that was sent, which comes before the one that the client adds
  have hip' : Client.cString ((s₀.serverIp ++ [0]) ++ [0]) = s₀.serverIp := by
    rw [List.append_assoc]
    exact cString_terminated [0] hnul
  have haddr' : Client.initAddr inetAddr (Client.cString ((s₀.serverIp ++ [0]) ++ [0])) s₀.serverPort =
      some ⟨addr, s₀.serverPort⟩ := by
    rw [Client.initAddr, hip', haddr]
    rfl
  have hstream : c.controller.unread = Client.startBytes s₀.serverPort (s₀.serverIp ++ [0]) contents ++
      (bigEndian 2 Client.STOP ++ []) := by
    rw [hunread, (htold.own fd hfd).1, hsent fd hfd, List.nil_append, startBytes_eq, List.append_nil]
    rfl
  have hrequest : Client.Fits client s₀.serverPort (s₀.serverIp ++ [0]) contents := by
    refine ⟨hport, ?_, hfits⟩
    rw [List.length_append, List.length_singleton]
    omega
  obtain ⟨l, t, hl, hwithin, hexit, hresult, hkept, ht, hargs⟩ := Client.runController_session
    (l := { result := result', revents := revents', state := c }) ⟨addr, s₀.serverPort⟩ rest' halloc
    hrequest hidle hidle' hpass hpass' hcalls haddr' rfl Client.kept_initial rfl
    (by change (0 : ℤ) ≠ -1; decide) hstream hrecvs
  have hthreads : l.pool.running.map Client.Thread.args =
      (List.range pass.calls.processors.toNat).map (threadArgs addr s₀.serverPort contents) := by
    rw [hargs]
    exact List.map_congr_left fun i _ => handleArgs_eq addr ht i
  refine ⟨l, hl, hwithin, ⟨hexit, hresult, hthreads, fun results hjoins => ?_⟩, fun t hmem => ?_⟩
  · exact Client.stopThreads_running hkept.listed hjoins
  · have hmem' := List.mem_map_of_mem (f := Client.Thread.args) hmem
    rw [hthreads] at hmem'
    obtain ⟨i, -, hi⟩ := List.mem_map.mp hmem'
    rw [← hi]
    exact ⟨Client.strncpy_eq_iff contents, served_threadArgs client hlen hserver addr _ i⟩

theorem experiment_served_two_clients :
    let h : Host := ⟨.little, fun _ => true, fun _ => []⟩
    let s₀ : ClientController.State :=
      { serverIp := [49, 46, 50], serverPort := 5000, acceptedFds := fun _ => 0, numConns := 0
        data := [], dataSize := 0 }
    let conn : Conn :=
      { recvs := Stream'.const (.moves 1), sends := Stream'.const (.moves 2)
        selects := Stream'.const (.moves 0) }
    let before : List ClientController.Pass :=
      [{ poll := .ok (true, false), accept := .ok 5 },
        { poll := .ok (true, true), accept := .ok 6, read := .ok [103, 111, 10] }]
    let last : ClientController.Pass :=
      { poll := .ok (false, true), read := .ok (ClientController.START_COMMAND ++ [10]) }
    let passes : List Client.ControllerPass :=
      [{ poll := .ok false, calls := { processors := 0 } },
        { poll := .ok true, calls := { processors := 2 } },
        { poll := .ok true, calls := { processors := 2 } }]
    ∃ s s' w' l, ClientController.loadData h {} 3 [72, 105, 10] s₀ = (0, s) ∧
      ClientController.run h (before ++ [last]) 0 (false, false) s (fun _ => conn) =
        some (false, s', w') ∧
      Client.runController h (fun _ => some 9) passes
        { state := { controller := { conn with unread := (w' 6).sent } } } = some l ∧
      Client.RunWithin h (fun _ => some 9) passes
        { state := { controller := { conn with unread := (w' 6).sent } } } ∧
      Answers l [threadArgs 9 5000 [72, 105, 10] 0, threadArgs 9 5000 [72, 105, 10] 1] := by
  intro h s₀ conn before last passes
  have hconst : ∀ k, Undisturbed (Stream'.const (.moves k)) := fun k _ => ⟨k, rfl⟩
  have hwaits : ∀ p ∈ before, p.Waits := by
    intro p hp
    simp only [before, List.mem_cons, List.not_mem_nil, or_false] at hp
    obtain rfl | rfl := hp
    · exact ⟨(true, false), ⟨rfl, rfl, fun _ => ⟨5, rfl⟩, fun hr => (by cases hr)⟩,
        fun hr => (by cases hr)⟩
    · refine ⟨(true, true), ⟨rfl, rfl, fun _ => ⟨6, rfl⟩, fun _ => ⟨_, rfl⟩⟩, fun _ bs hbs => ?_⟩
      obtain rfl := Except.ok.inj hbs
      decide
  have hlast : last.Starts := by
    refine ⟨(false, true), ⟨rfl, rfl, fun hr => (by cases hr), fun _ => ⟨_, rfl⟩⟩, rfl, ?_⟩
    intro bs hbs
    obtain rfl := Except.ok.inj hbs
    decide
  obtain ⟨s, s', w', hload, hrun, hclients⟩ := experiment_served h h h [72, 105, 10] (by decide) rfl
    (fun _ => rfl) rfl s₀ (by decide) (by decide) (by decide) rfl before [] last hwaits hlast [5, 6]
    rfl (by decide) (by decide) (fun _ => conn) (fun _ _ => rfl) (fun _ _ => hconst 2) 0
    (false, false) (fun _ => some 9) 9 rfl
  obtain ⟨l, hl, hwithin, hanswers, -⟩ := hclients 6 (by decide)
    { controller := { conn with unread := (w' 6).sent } } 2 passes .SUCCESS false rfl (hconst 1)
    ⟨[passes[0]], passes[1], [], passes[2], [], rfl, by simp [passes], by simp, rfl, rfl,
      ⟨rfl, fun _ => rfl⟩, rfl⟩
  exact ⟨s, s', w', l, hload, hrun, hl, hwithin, hanswers⟩

end ScalableServer.Conversations
