import ScalableServer.OneToOne.HandleClient
import ScalableServer.PayloadBounds

namespace ScalableServer.OneToOne

open ScalableServer.Foundations ScalableServer.Core

structure Rest (len : ℕ) (c : Conn) : Prop where
  closed : c.closed = true
  quiet : Quiet c
  unread : c.unread.length ≤ len

variable {h : Host} {so : StateObject} {c : Conn} {len : ℕ} {s : Payload}

lemma Rest.mono {len' : ℕ} (hc : Rest len c) (hle : len ≤ len') : Rest len' c :=
  ⟨hc.closed, hc.quiet, hc.unread.trans hle⟩

lemma Rest.selected (hc : Rest len c) : Rest len c.selected :=
  ⟨hc.closed, hc.quiet.selected, hc.unread⟩

lemma Rest.consumed {req n : ℕ} (hc : Rest len c) : Rest (len - n) (c.consumed req n) where
  closed := hc.closed
  quiet := ⟨hc.quiet.recvs.tail, hc.quiet.sends, hc.quiet.selects, hc.quiet.signalled⟩
  unread := by
    have hlen := hc.unread
    rw [Conn.consumed_unread, List.length_drop]
    omega

lemma receivePayloadBody_rest (hs : Rest len s.conn) :
    (∃ t, receivePayloadBody s = .again t ∧ Rest len t.conn ∧
        t.conn.unread.length < s.conn.unread.length) ∨
      ∃ r, receivePayloadBody s = .done r ∧ (r.1 = .success ∨ r.1 = .closed) ∧ Rest len r.2.conn := by
  by_cases hgo : 0 < s.remainingBytes
  · set req := if sizeofBuf < s.remainingBytes then sizeofBuf else s.remainingBytes with hreq
    have hreqpos : 0 < req := by
      rw [hreq]
      split_ifs
      · decide
      · exact hgo
    obtain ⟨k, hk⟩ : ∃ k, s.conn.selected.recvs.head = .moves k := hs.quiet.recvs.head
    have hrecv : s.conn.selected.recv req = _ := Conn.recv_moves hk (.inr hs.closed)
    set n := chunk k req s.conn.selected.unread.length with hn
    have hrest : Rest len (s.conn.selected.consumed req n) :=
      hs.selected.consumed.mono (Nat.sub_le len n)
    rw [receivePayloadBody, if_pos hgo, checkFdMsg_quiet hs.quiet (.inr hs.closed)]
    simp only [← hreq, hrecv]
    cases hbytes : s.conn.selected.unread.take n with
    | nil => exact .inr ⟨_, rfl, .inr rfl, hrest⟩
    | cons b bs =>
      have hne : s.conn.unread ≠ [] := by
        intro hempty
        change s.conn.unread.take n = b :: bs at hbytes
        rw [hempty, List.take_nil] at hbytes
        cases hbytes
      have hpos : 0 < n := chunk_pos hreqpos (List.length_pos_iff.mpr hne)
      have hlen := List.length_pos_iff.mpr hne
      refine .inl ⟨_, rfl, hrest, ?_⟩
      change (s.conn.unread.drop n).length < s.conn.unread.length
      rw [List.length_drop]
      omega
  · refine .inr ⟨(.success, s), ?_, .inl rfl, hs⟩
    rw [receivePayloadBody, if_neg hgo]

lemma receivePayload_rest (hs : Rest len s.conn) :
    ∃ r, receivePayload s = some r ∧ (r.1 = .success ∨ r.1 = .closed) ∧ Rest len r.2.conn := by
  let I : Payload → Prop := fun x => Rest len x.conn
  let Q : MsgResult × Payload → Prop := fun r =>
    (r.1 = .success ∨ r.1 = .closed) ∧ Rest len r.2.conn
  exact iterate_total I Q (fun x => x.conn.unread.length) (fun x hx => receivePayloadBody_rest hx)
    hs (Nat.lt_succ_self _)

lemma sendReply_rest {word : List UInt8} (hw : word.length = 4) (hc : Rest len c) :
    ∃ r, sendReply word c = some (.success, r) ∧ Rest len r.conn := by
  obtain ⟨r, hr, -, hin, hsends⟩ := sendReply_quiet hw hc.quiet.sends
  refine ⟨r, hr, hin.closed.trans hc.closed, ⟨?_, hsends, ?_, ?_⟩, ?_⟩
  · rw [hin.recvs]
    exact hc.quiet.recvs
  · rw [hin.selects]
    exact hc.quiet.selects
  · exact hin.signalled.trans hc.quiet.signalled
  · rw [hin.unread]
    exact hc.unread

lemma receiveMessage_rest (h : Host) (so : StateObject) (prior : ℕ) (t : Timing)
    (hc : Rest len c) :
    ∃ r, receiveMessage h so prior t c = some r ∧ (r.result = .success ∨ r.result = .closed) ∧
      Rest len r.conn ∧ (r.result = .success → r.conn.unread.length < c.unread.length) := by
  by_cases hempty : c.unread = []
  · refine ⟨_, receiveMessage_end h so prior t hempty hc.closed hc.quiet, .inr rfl, ?_, ?_⟩
    · have hrest : Rest (len - 0) (c.selected.consumed 4 0) := hc.selected.consumed
      exact hrest
    · rintro ⟨⟩
  · have hlen := List.length_pos_iff.mpr hempty
    obtain ⟨k, hk⟩ : ∃ k, c.selected.recvs.head = .moves k := hc.quiet.recvs.head
    have hrecv : c.selected.recvAll 4 = _ := Conn.recvAll_moves hk (.inr hc.closed) (by decide)
    set n := chunk 4 4 c.selected.unread.length with hn
    have hpos : 0 < n := chunk_pos (by decide) hlen
    obtain ⟨b, bs, hbs⟩ : ∃ b bs, c.selected.unread.take n = b :: bs := by
      apply List.exists_cons_of_ne_nil
      rw [← List.length_pos_iff, List.length_take]
      change 0 < min n c.unread.length
      omega
    rw [hbs] at hrecv
    have hheader : Rest (c.unread.length - n) (c.selected.consumed 4 n) :=
      (Rest.selected ⟨hc.closed, hc.quiet, le_refl _⟩).consumed
    obtain ⟨⟨r, p⟩, hp, hresult, hrest⟩ := receivePayload_rest
      (s := { remainingBytes := h.readWord prior (b :: bs), conn := c.selected.consumed 4 n }) hheader
    have hle : c.unread.length - n ≤ len := (Nat.sub_le _ _).trans hc.unread
    simp only [receiveMessage, checkFdMsg_quiet hc.quiet (.inr hc.closed), hrecv, hp]
    rcases hresult with hresult | hresult
    · obtain rfl : r = .success := hresult
      obtain ⟨reply, hreply, hrest'⟩ := sendReply_rest
        (h.wordBytes_length (h.readWord prior (b :: bs))) hrest
      simp only [hreply, Option.map_some]
      refine ⟨_, rfl, .inl rfl, hrest'.mono hle, fun _ => ?_⟩
      have hunread := hrest'.unread
      change reply.conn.unread.length < c.unread.length
      omega
    · obtain rfl : r = .closed := hresult
      exact ⟨_, rfl, .inr rfl, hrest.mono hle, by rintro ⟨⟩⟩

lemma handleClient_rest (h : Host) (so : StateObject) (prior : ℕ → ℕ) (t : ℕ → Timing)
    (hclosed : c.closed = true) (hq : Quiet c) :
    ∃ r, handleClient h so prior t c = some (.success, r) ∧ r.calls ≤ c.unread.length + 1 := by
  let I : Client → Prop := fun x => Rest (c.unread.length - x.calls) x.conn ∧
    x.calls ≤ c.unread.length
  let Q : ClientResult × Client → Prop := fun r =>
    r.1 = .success ∧ r.2.calls ≤ c.unread.length + 1
  have hbody : ∀ x, I x →
      (∃ y, handleClientBody h so prior t x = .again y ∧ I y ∧
        y.conn.unread.length < x.conn.unread.length) ∨
      ∃ r, handleClientBody h so prior t x = .done r ∧ Q r := by
    rintro x ⟨hx, hcalls⟩
    obtain ⟨r, hr, hresult, hrest, hless⟩ :=
      receiveMessage_rest h so (prior x.calls) (t x.calls) hx
    rw [handleClientBody, hr]
    rcases hresult with hresult | hresult
    · simp only [hresult]
      have hlt := hless hresult
      have hunread := hx.unread
      refine .inl ⟨_, rfl, ⟨⟨hrest.closed, hrest.quiet, ?_⟩, ?_⟩, hlt⟩
      · change r.conn.unread.length ≤ c.unread.length - (x.calls + 1)
        omega
      · change x.calls + 1 ≤ c.unread.length
        omega
    · simp only [hresult]
      exact .inr ⟨_, rfl, rfl, Nat.succ_le_succ hcalls⟩
  obtain ⟨⟨r, d⟩, hr, rfl, hd⟩ := iterate_total I Q (fun x => x.conn.unread.length) hbody
    (s := { conn := c }) ⟨⟨hclosed, hq, le_refl _⟩, Nat.zero_le _⟩ (Nat.lt_succ_self _)
  exact ⟨d, hr, hd⟩

end ScalableServer.OneToOne

namespace ScalableServer

open ScalableServer.Foundations ScalableServer.Core

variable {h : Host} {prior bytesToRead : ℕ} {c : Conn} {s : PayloadLoop}

lemma payloadLoop_ends_of_recv {req : ℕ} {r : Except Errno (List UInt8)} {d : Conn}
    (hclosed : c.closed = true) (hquiet : Undisturbed c.recvs) (hrecv : c.recv req = some (r, d))
    (hs : s.conn = d) : ∃ t, payloadLoop bytesToRead s = some (.ok (), t) := by
  subst hs
  exact payloadLoop_total bytesToRead ((Conn.recv_drains hrecv).closed.trans hclosed)
    (undisturbed_of_recv hquiet hrecv)

lemma payloadLoop_not_blocked {req : ℕ} {r : Except Errno (List UInt8)} {d : Conn}
    (hclosed : c.closed = true) (hquiet : Undisturbed c.recvs) (hrecv : c.recv req = some (r, d))
    (hs : s.conn = d) : payloadLoop bytesToRead s ≠ none := by
  have hends : ∃ t, payloadLoop bytesToRead s = some (.ok (), t) :=
    payloadLoop_ends_of_recv hclosed hquiet hrecv hs
  obtain ⟨t, ht⟩ := hends
  rw [ht]
  exact Option.some_ne_none _

lemma PollServer.pollRecvAndLog_returns (so : StateObject) (i : Fin maxConnections) (t : Timing)
    (hclosed : c.closed = true) (hquiet : Undisturbed c.recvs) :
    ∃ r, pollRecvAndLog h so i prior t c = some r := by
  obtain ⟨k, hk⟩ := hquiet.head
  have hrecv : c.recv 4 = _ := Conn.recv_moves hk (.inr hclosed)
  simp only [pollRecvAndLog, hrecv]
  split_ifs with halloc
  · exact ⟨_, rfl⟩
  · split
    · rename_i hblocked
      exact absurd hblocked (payloadLoop_not_blocked hclosed hquiet hrecv rfl)
    · exact ⟨_, rfl⟩
    · split <;> exact ⟨_, rfl⟩

lemma ProcessServer.cRecvLogNotifyParentRespond_returns (pid : ℕ) (child : ChildStruct)
    (calls : SharedCalls) (t : Timing) (hclosed : c.closed = true) (hquiet : Undisturbed c.recvs) :
    ∃ r, cRecvLogNotifyParentRespond h pid child calls prior t c = some r := by
  obtain ⟨k, hk⟩ := hquiet.head
  have hrecv : c.recv 4 = _ := Conn.recv_moves hk (.inr hclosed)
  simp only [cRecvLogNotifyParentRespond, hrecv]
  split
  · exact ⟨_, rfl⟩
  · split
    · rename_i hblocked
      exact absurd hblocked (payloadLoop_not_blocked hclosed hquiet hrecv rfl)
    · exact ⟨_, rfl⟩
    · split
      · exact ⟨_, rfl⟩
      · split
        · exact ⟨_, rfl⟩
        · split <;> exact ⟨_, rfl⟩

theorem receive_loops_end (h : Host) (c : Conn) (hclosed : c.closed = true)
    (hquiet : OneToOne.Quiet c) :
    (∀ prior bytesToRead s, PollServer.payloadStart h prior c = some (bytesToRead, s) ∨
        ProcessServer.payloadStart h prior c = some (bytesToRead, s) →
        ∃ t, payloadLoop bytesToRead s = some (.ok (), t)) ∧
      (∀ so i prior t, ∃ r, PollServer.pollRecvAndLog h so i prior t c = some r) ∧
      (∀ pid child calls prior t,
        ∃ r, ProcessServer.cRecvLogNotifyParentRespond h pid child calls prior t c = some r) ∧
      ∀ (so : OneToOne.StateObject) (prior : ℕ → ℕ) (t : ℕ → Timing),
        ∃ r, OneToOne.handleClient h so prior t c = some (.success, r) ∧
          r.calls ≤ c.unread.length + 1 := by
  refine ⟨?_, ?_, ?_, fun so prior t => OneToOne.handleClient_rest h so prior t hclosed hquiet⟩
  · rintro prior bytesToRead s (hstart | hstart)
    · obtain ⟨header, d, hrecv, -, rfl, rfl⟩ := PollServer.payloadStart_some hstart
      exact payloadLoop_ends_of_recv hclosed hquiet.recvs hrecv rfl
    · obtain ⟨header, d, hrecv, -, rfl, rfl⟩ := ProcessServer.payloadStart_some hstart
      exact payloadLoop_ends_of_recv hclosed hquiet.recvs hrecv rfl
  · intro so i prior t
    exact PollServer.pollRecvAndLog_returns so i t hclosed hquiet.recvs
  · intro pid child calls prior t
    exact ProcessServer.cRecvLogNotifyParentRespond_returns pid child calls t hclosed hquiet.recvs

theorem receive_loops_end_cut :
    (PollServer.payloadStart boundsHost 7 (boundsConn [0, 0])).isSome ∧
      ∃ r, OneToOne.handleClient boundsHost ⟨3, 4, {}⟩ (fun _ => 7) (fun _ => {})
        (boundsConn [0, 0]) = some (.success, r) ∧ r.calls ≤ 3 := by
  refine ⟨by decide, ?_⟩
  exact (receive_loops_end boundsHost (boundsConn [0, 0]) rfl
    ⟨fun _ => ⟨8, rfl⟩, fun _ => ⟨4, rfl⟩, fun _ => ⟨0, rfl⟩, rfl⟩).2.2.2 ⟨3, 4, {}⟩ (fun _ => 7)
    fun _ => {}

end ScalableServer
