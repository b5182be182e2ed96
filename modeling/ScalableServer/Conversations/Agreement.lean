import ScalableServer.Client.Handle
import ScalableServer.Conversations.Framing
import ScalableServer.OneToOne.HandleClient

/-! The server reads while the client still writes; a result of one of its reads is then a piece of
what has been written so far, and so one of the pieces that `recvs` may choose of the whole. No byte
follows the data before the reply, so no result runs past it. -/

namespace ScalableServer.Conversations

open ScalableServer.Foundations ScalableServer.Core

structure Fresh (c : Conn) : Prop where
  unread : c.unread = []
  closed : c.closed = false
  position : c.position = 0
  requests : c.requests = []
  sent : c.sent = []

def peerOf {α : Type*} (serve : Conn → Option α) (conn : α → Conn) (d : Conn)
    (bytes : List UInt8) : Option (α × List UInt8) :=
  (serve (d.deliver bytes)).map fun r => (r, (conn r).sent)

def Agrees {α : Type*} (a : Client.HandleArgs) (P : α → Prop)
    (pass : Option (Client.Pass × Option α)) : Prop :=
  ∃ row r, pass = some ({ ended := .again, rows := [row] }, some r) ∧
    (row.dataSize : ℤ) = a.dataSize ∧ (row.serverResp : ℤ) = a.dataSize ∧ P r

def StoredWithin (data : List UInt8) (buffer : Option Buffer) : Prop :=
  ∃ b, buffer = some b ∧ b.cells = data ∧ b.Within data.length

variable {client server : Host} {a : Client.HandleArgs} {t : Client.HandleTiming} {c d : Conn}

lemma Fresh.delivered (hd : Fresh d) (bytes : List UInt8) :
    d.deliver bytes = { d with unread := bytes } := by
  rw [Conn.deliver, hd.closed, hd.unread, List.nil_append]
  rfl

lemma agrees_of_peer {α : Type*} {serve : Conn → Option α} {conn : α → Conn} {P : α → Prop}
    (hsize : a.dataSize = a.data.length) (hlt : a.data.length < 2 ^ 32) (hc : Fresh c)
    (hs : Undisturbed c.sends) (hr : Undisturbed c.recvs)
    (hserve : ∃ r, serve (d.deliver (frame a.data)) = some r ∧
      (conn r).sent = bigEndian 4 a.data.length ∧ P r) :
    Agrees a P (Client.handle client a {} t (peerOf serve conn d) c) := by
  obtain ⟨r, hr', hsent, hp⟩ := hserve
  have hpeer : peerOf serve conn d (frame a.data) = some (r, bigEndian 4 a.data.length) := by
    rw [peerOf, hr', Option.map_some, hsent]
  refine ⟨_, r, Client.handle_quiet hsize hlt hc.sent hc.unread hc.closed hs hr hpeer, ?_, ?_, hp⟩
  · change (a.dataSizeWord : ℤ) = _
    rw [Client.dataSizeWord_eq hsize hlt, hsize]
  · exact hsize.symm

lemma receiveMessage_answers (hd : Fresh d) (hq : OneToOne.Quiet d) (hlt : a.data.length < 2 ^ 32)
    (so : OneToOne.StateObject) (prior : ℕ) (time : Timing) :
    ∃ r, OneToOne.receiveMessage server so prior time (d.deliver (frame a.data)) = some r ∧
      r.conn.sent = bigEndian 4 a.data.length ∧ r.result = .success ∧ r.conn.unread = [] ∧
      r.conn.position = (frame a.data).length ∧
      (∀ q ∈ r.conn.requests, q.1 + q.2 ≤ (frame a.data).length) ∧
      ∃ b, r.buffer = some b ∧ b.Within OneToOne.sizeofBuf := by
  rw [hd.delivered]
  have hframe : ({ d with unread := frame a.data } : Conn).unread = frame a.data ++ [] :=
    (List.append_nil _).symm
  obtain ⟨r, hr, hresult, -, hu, hposition, ⟨qs, hqs, hbound⟩, hsent, -, -, hbuffer⟩ :=
    OneToOne.receiveMessage_frame server so prior time hlt hframe
      ⟨hq.recvs, hq.sends, hq.selects, hq.signalled⟩
  refine ⟨r, hr, ?_, hresult, hu, ?_, fun q hmem => ?_, hbuffer⟩
  · rw [hsent]
    change d.sent ++ _ = _
    rw [hd.sent, List.nil_append]
  · rw [hposition]
    change d.position + _ = _
    rw [hd.position, Nat.zero_add]
  · rw [hqs] at hmem
    change q ∈ d.requests ++ qs at hmem
    rw [hd.requests, List.nil_append] at hmem
    have hq' := (hbound q hmem).2.2
    change q.1 + q.2 ≤ d.position + _ at hq'
    rw [hd.position, Nat.zero_add] at hq'
    exact hq'

lemma exchanges_counts {sizes : Stream' ℕ} (first : List UInt8 → ℕ) (prior : ℕ) (hd : Fresh d)
    (hfirst : ∀ bs ≠ [], first bs ≠ 0) (hlt : a.data.length < 2 ^ 32)
    (halloc : server.alloc (a.data.length + 1) = true) (hrecvs : d.recvs = sizes.map Answer.moves)
    (h4 : 4 ≤ sizes.head) (hsend : d.sends.head = .moves 4) :
    ∃ s e, Exchanges server first prior (d.deliver (frame a.data)) s e ∧
      e.sent = bigEndian 4 a.data.length ∧ e.unread = [] ∧ s.bytesRead = a.data.length ∧
      s.buffer.cells = a.data ∧ s.buffer.Within a.data.length := by
  rw [hd.delivered]
  have hframe : ({ d with unread := frame a.data } : Conn).unread = frame a.data ++ [] :=
    (List.append_nil _).symm
  obtain ⟨rest, hends⟩ := payloadEnds_last a.data.length sizes.tail
  obtain ⟨s, e, he, hbytes, hcells, -, hwithin, hu, hsent, -⟩ :
      ∃ s e, Exchanges server first prior { d with unread := frame a.data } s e ∧ _ :=
    exchanges_of_ends hfirst hlt halloc hframe hrecvs hsend h4 hends
  refine ⟨s, e, he, ?_, hu, hbytes, hcells, hwithin⟩
  rw [hsent]
  change d.sent ++ _ = _
  rw [hd.sent, List.nil_append]

lemma exchanges_whole {first : List UInt8 → ℕ} {sizes : Stream' ℕ} (prior : ℕ) (hd : Fresh d)
    (hfirst : ∀ bs ≠ [], first bs ≠ 0) (hlt : a.data.length < 2 ^ 32)
    (halloc : server.alloc (a.data.length + 1) = true) (hrecvs : d.recvs = sizes.map Answer.moves)
    (h4 : 4 ≤ sizes.head) (hsend : d.sends.head = .moves 4) :
    ∃ s e, Exchanges server first prior (d.deliver (frame a.data)) s e ∧
      e.sent = bigEndian 4 a.data.length ∧ e.unread = [] ∧ s.buffer.cells = a.data ∧
      s.buffer.Within a.data.length := by
  obtain ⟨s, e, he, hsent, hu, -, hstored⟩ :=
    exchanges_counts first prior hd hfirst hlt halloc hrecvs h4 hsend
  exact ⟨s, e, he, hsent, hu, hstored⟩

theorem conversation_agrees (client server : Host) (a : Client.HandleArgs) (t : Client.HandleTiming)
    (hsize : a.dataSize = a.data.length) (hlt : a.data.length < 2 ^ 32) (c d : Conn) (hc : Fresh c)
    (hs : Undisturbed c.sends) (hr : Undisturbed c.recvs) (hd : Fresh d) (prior : ℕ) (time : Timing) :
    (OneToOne.Quiet d → ∀ so, Agrees a
        (fun r : OneToOne.Received => r.result = .success ∧ r.conn.unread = [] ∧
          r.conn.position = (frame a.data).length ∧
          (∀ q ∈ r.conn.requests, q.1 + q.2 ≤ (frame a.data).length) ∧
          ∃ b, r.buffer = some b ∧ b.Within OneToOne.sizeofBuf)
        (Client.handle client a {} t
          (peerOf (OneToOne.receiveMessage server so prior time) (fun r => r.conn) d) c)) ∧
      ∀ sizes : Stream' ℕ, server.alloc (a.data.length + 1) = true →
        d.recvs = sizes.map Answer.moves → 4 ≤ sizes.head → d.sends.head = .moves 4 →
        (∀ so i, Agrees a
          (fun r : PollServer.Handled => r.ret = 0 ∧ r.conn.unread = [] ∧
            StoredWithin a.data r.buffer)
          (Client.handle client a {} t
            (peerOf (PollServer.pollRecvAndLog server so i prior time) (fun r => r.conn) d) c)) ∧
        ∀ pid child, Agrees a
          (fun r : ProcessServer.Handled => r.ret = 0 ∧ r.conn.unread = [] ∧
            StoredWithin a.data r.buffer)
          (Client.handle client a {} t
            (peerOf (ProcessServer.cRecvLogNotifyParentRespond server pid child succeeding prior time)
              (fun r => r.conn) d) c) := by
  have hlength : ∀ bs : List UInt8, bs ≠ [] → bs.length ≠ 0 := fun bs hbs => by simpa using hbs
  have hone : ∀ bs : List UInt8, bs ≠ [] → 1 ≠ 0 := fun _ _ => one_ne_zero
  refine ⟨fun hq so => ?_, fun sizes halloc hrecvs h4 hsend => ⟨fun so i => ?_, fun pid child => ?_⟩⟩
  · exact agrees_of_peer hsize hlt hc hs hr (receiveMessage_answers hd hq hlt so prior time)
  · obtain ⟨s, e, he, hsent, hu, hcells, hwithin⟩ := exchanges_whole prior hd hlength hlt halloc
      hrecvs h4 hsend
    exact agrees_of_peer hsize hlt hc hs hr
      ⟨_, pollRecvAndLog_of_exchanges so i he, hsent, rfl, hu, _, rfl, hcells, hwithin⟩
  · obtain ⟨s, e, he, hsent, hu, hcells, hwithin⟩ := exchanges_whole prior hd hone hlt halloc hrecvs
      h4 hsend
    exact agrees_of_peer hsize hlt hc hs hr
      ⟨_, cRecvLog_of_exchanges pid child he, hsent, rfl, hu, _, rfl, hcells, hwithin⟩

theorem conversation_agrees_on_three_bytes :
    let h : Host := ⟨.little, fun _ => true, fun _ => []⟩
    let a : Client.HandleArgs := { data := [1, 2, 3], dataSize := 3 }
    let c : Conn :=
      { recvs := Stream'.const (.moves 5), sends := Stream'.const (.moves 4)
        selects := Stream'.const (.moves 0) }
    Agrees a (fun r => r.result = .success) (Client.handle h a {} {}
        (peerOf (OneToOne.receiveMessage h ⟨3, 4, {}⟩ 0 {}) (fun r => r.conn) c) c) ∧
      Agrees a (fun r => StoredWithin [1, 2, 3] r.buffer) (Client.handle h a {} {}
        (peerOf (PollServer.pollRecvAndLog h sampleState 0 0 {}) (fun r => r.conn) c) c) ∧
      Agrees a (fun r => StoredWithin [1, 2, 3] r.buffer) (Client.handle h a {} {}
        (peerOf (ProcessServer.cRecvLogNotifyParentRespond h 7 {} succeeding 0 {})
          (fun r => r.conn) c) c) := by
  intro h a c
  have hconst : ∀ k, Undisturbed (Stream'.const (.moves k)) := fun k _ => ⟨k, rfl⟩
  have hc : Fresh c := ⟨rfl, rfl, rfl, rfl, rfl⟩
  obtain ⟨hone, hboth⟩ := conversation_agrees h h a {} rfl (by decide) c c hc (hconst 4) (hconst 5) hc
    0 {}
  obtain ⟨hpoll, hprocess⟩ := hboth (Stream'.const 5) rfl rfl (by decide) rfl
  obtain ⟨row, r, hpass, hsize, hresp, hresult, -⟩ :=
    hone ⟨hconst 5, hconst 4, hconst 0, rfl⟩ ⟨3, 4, {}⟩
  obtain ⟨row', r', hpass', hsize', hresp', -, -, hstored'⟩ := hpoll sampleState 0
  obtain ⟨row'', r'', hpass'', hsize'', hresp'', -, -, hstored''⟩ := hprocess 7 {}
  exact ⟨⟨row, r, hpass, hsize, hresp, hresult⟩, ⟨row', r', hpass', hsize', hresp', hstored'⟩,
    ⟨row'', r'', hpass'', hsize'', hresp'', hstored''⟩⟩

end ScalableServer.Conversations
