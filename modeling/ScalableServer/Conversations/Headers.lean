import ScalableServer.Conversations.Exchange
import ScalableServer.OneToOne.HandleClient

namespace ScalableServer.Conversations

open ScalableServer.Foundations ScalableServer.Core

variable {h : Host} {prior : ℕ} {c : Conn} {sizes : Stream' ℕ}

def HeaderReceived (c : Conn) : Prop :=
  ∃ header d, c.recv 4 = some (.ok header, d) ∧ header.length = 4

def HeaderReceivedAll (c : Conn) : Prop :=
  ∃ header d, c.recvAll 4 = some (.ok header, d) ∧ header.length = 4

def PollAnswersReceived (h : Host) (prior : ℕ) (c : Conn) : Prop :=
  ∀ so i t r, PollServer.pollRecvAndLog h so i prior t c = some r →
    r.rows ≠ [] ∨ r.conn.sent ≠ c.sent → HeaderReceived c

def ChildAnswersReceived (h : Host) (prior : ℕ) (c : Conn) : Prop :=
  ∀ pid child calls t r,
    ProcessServer.cRecvLogNotifyParentRespond h pid child calls prior t c = some r →
    r.rows ≠ [] ∨ r.conn.sent ≠ c.sent → HeaderReceived c

def OneToOneAnswersReceived (h : Host) (prior : ℕ) (c : Conn) : Prop :=
  ∀ so t r, OneToOne.receiveMessage h so prior t c = some r →
    r.rows ≠ [] ∨ r.conn.sent ≠ c.sent → HeaderReceivedAll c

lemma undisturbed_map (sizes : Stream' ℕ) : Undisturbed (sizes.map Answer.moves) :=
  fun n => ⟨sizes.get n, Stream'.get_map _ _ _⟩

def headerBytes (sizes : Stream' ℕ) (c : Conn) : List UInt8 :=
  c.unread.take (chunk sizes.head 4 c.unread.length)

lemma recv_header (hclosed : c.closed = true) (hrecvs : c.recvs = sizes.map Answer.moves) :
    c.recv 4 = some (.ok (headerBytes sizes c),
      c.consumed 4 (chunk sizes.head 4 c.unread.length)) :=
  Conn.recv_moves (by rw [hrecvs, Stream'.head_map]) (.inr hclosed)

lemma headerReceived_iff (hclosed : c.closed = true) (hrecvs : c.recvs = sizes.map Answer.moves) :
    HeaderReceived c ↔ 4 ≤ c.unread.length ∧ 4 ≤ sizes.head := by
  have hrecv := recv_header hclosed hrecvs
  have hlen : (headerBytes sizes c).length = chunk sizes.head 4 c.unread.length := by
    rw [headerBytes, List.length_take]
    exact min_eq_left (chunk_le_available _ _ _)
  have hfour : (headerBytes sizes c).length = 4 ↔ 4 ≤ c.unread.length ∧ 4 ≤ sizes.head := by
    rw [hlen, chunk]
    omega
  rw [← hfour]
  constructor
  · rintro ⟨header, d, hd, hheader⟩
    rw [hrecv] at hd
    obtain ⟨rfl, -⟩ := Except.ok.inj (Prod.mk.inj (Option.some.inj hd)).1
    exact hheader
  · exact fun hheader => ⟨_, _, hrecv, hheader⟩

lemma undisturbed_consumed (hrecvs : c.recvs = sizes.map Answer.moves) (req n : ℕ) :
    Undisturbed (c.consumed req n).recvs := by
  change Undisturbed c.recvs.tail
  rw [hrecvs, Stream'.tail_map]
  exact undisturbed_map _

section Length

variable (hclosed : c.closed = true) (hrecvs : c.recvs = sizes.map Answer.moves)

include hclosed hrecvs

lemma pollRecvAndLog_refused (halloc : h.alloc (h.readWord prior (headerBytes sizes c) + 1) = false)
    {so : PollServer.StateObject} {i : Fin PollServer.maxConnections} {t : Timing}
    {r : PollServer.Handled} (hr : PollServer.pollRecvAndLog h so i prior t c = some r) :
    r.rows = [] ∧ r.conn.sent = c.sent := by
  rw [PollServer.pollRecvAndLog, recv_header hclosed hrecvs] at hr
  simp only [halloc, if_true, Option.some.injEq] at hr
  subst hr
  exact ⟨rfl, rfl⟩

variable (prior) in
lemma pollRecvAndLog_row (halloc : h.alloc (h.readWord prior (headerBytes sizes c) + 1) = true)
    (so : PollServer.StateObject) (i : Fin PollServer.maxConnections) (t : Timing) :
    ∃ r, PollServer.pollRecvAndLog h so i prior t c = some r ∧ r.rows ≠ [] := by
  obtain ⟨s, hs⟩ := payloadLoop_total (h.readWord prior (headerBytes sizes c))
    (s := { bytesRead := 0, bytes := (headerBytes sizes c).length
            buffer := { size := h.readWord prior (headerBytes sizes c) + 1 }
            conn := c.consumed 4 (chunk sizes.head 4 c.unread.length) }) hclosed
    (undisturbed_consumed hrecvs 4 _)
  rw [PollServer.pollRecvAndLog, recv_header hclosed hrecvs]
  simp only [halloc, Bool.true_eq_false, if_false, hs]
  cases hsend : s.conn.send (h.wordBytes s.bytesRead) with
  | mk result d =>
    cases result with
    | error e => exact ⟨_, rfl, List.cons_ne_nil _ _⟩
    | ok n => exact ⟨_, rfl, List.cons_ne_nil _ _⟩

lemma cRecvLog_refused (halloc : h.alloc (h.readWord prior (headerBytes sizes c) + 1) = false)
    {pid : ℕ} {child : ProcessServer.ChildStruct} {calls : ProcessServer.SharedCalls} {t : Timing}
    {r : ProcessServer.Handled}
    (hr : ProcessServer.cRecvLogNotifyParentRespond h pid child calls prior t c = some r) :
    r.rows = [] ∧ r.conn.sent = c.sent := by
  rw [ProcessServer.cRecvLogNotifyParentRespond, recv_header hclosed hrecvs] at hr
  simp only [ProcessServer.cGetMessageLength, halloc, if_true, Option.some.injEq] at hr
  subst hr
  exact ⟨rfl, rfl⟩

variable (prior) in
lemma cRecvLog_row (halloc : h.alloc (h.readWord prior (headerBytes sizes c) + 1) = true)
    (pid : ℕ) (child : ProcessServer.ChildStruct) (t : Timing) :
    ∃ r, ProcessServer.cRecvLogNotifyParentRespond h pid child succeeding prior t c = some r ∧
      r.rows ≠ [] := by
  obtain ⟨s, hs⟩ := payloadLoop_total (h.readWord prior (headerBytes sizes c))
    (s := { bytesRead := 0, bytes := 1
            buffer := { size := h.readWord prior (headerBytes sizes c) + 1 }
            conn := c.consumed 4 (chunk sizes.head 4 c.unread.length) }) hclosed
    (undisturbed_consumed hrecvs 4 _)
  rw [ProcessServer.cRecvLogNotifyParentRespond, recv_header hclosed hrecvs]
  simp only [ProcessServer.cGetMessageLength, halloc, Bool.true_eq_false, if_false, hs,
    ProcessServer.cInformParentRecvFinished, ProcessServer.cLog, succeeding]
  cases hsend : s.conn.send (h.wordBytes s.bytesRead) with
  | mk result d =>
    cases result with
    | error e => exact ⟨_, rfl, List.cons_ne_nil _ _⟩
    | ok n => exact ⟨_, rfl, List.cons_ne_nil _ _⟩

lemma recvAll_header :
    c.recvAll 4 = some (.ok (c.unread.take 4), c.consumed 4 (min 4 c.unread.length)) := by
  have hchunk : chunk 4 4 c.unread.length = min 4 c.unread.length := by
    rw [chunk]
    omega
  have hrecv := Conn.recvAll_moves (c := c) (by rw [hrecvs, Stream'.head_map]) (.inr hclosed)
    (by decide : 0 < 4)
  rw [hrecv, hchunk, ← List.take_take]
  simp

lemma headerReceivedAll_iff : HeaderReceivedAll c ↔ 4 ≤ c.unread.length := by
  have hrecv := recvAll_header hclosed hrecvs
  have hlen : (c.unread.take 4).length = 4 ↔ 4 ≤ c.unread.length := by
    rw [List.length_take]
    omega
  rw [← hlen]
  constructor
  · rintro ⟨header, d, hd, hheader⟩
    rw [hrecv] at hd
    obtain ⟨rfl, -⟩ := Except.ok.inj (Prod.mk.inj (Option.some.inj hd)).1
    exact hheader
  · exact fun hheader => ⟨_, _, hrecv, hheader⟩

section OneToOne

variable (hselects : Undisturbed c.selects) (hsignalled : c.signalled = false)

include hselects hsignalled

variable (prior) in
lemma receiveMessage_empty (so : OneToOne.StateObject) (t : Timing) (hu : c.unread = []) :
    ∃ d, OneToOne.receiveMessage h so prior t c = some { result := .closed, conn := d } ∧
      d.sent = c.sent := by
  have hrecv : c.selected.recvAll 4 = _ := recvAll_header (c := c.selected) hclosed hrecvs
  have hheader : c.selected.unread.take 4 = [] := by
    change c.unread.take 4 = []
    rw [hu, List.take_nil]
  rw [hheader] at hrecv
  rw [OneToOne.receiveMessage, OneToOne.checkFdMsg_ready hselects hsignalled (.inr hclosed)]
  simp only [hrecv]
  exact ⟨_, rfl, rfl⟩

variable (prior) in
lemma receiveMessage_partial (so : OneToOne.StateObject) (t : Timing) (hu : c.unread ≠ [])
    (hshort : c.unread.length < 4) :
    ∃ r, OneToOne.receiveMessage h so prior t c = some r ∧
      (h.readWord prior c.unread = 0 → r.rows ≠ []) ∧
      (h.readWord prior c.unread ≠ 0 → r.rows = [] ∧ r.conn.sent = c.sent) := by
  -- The stream ends in the header: `remaining_bytes` starts with what the bytes and `prior` make.
  have hrecv : c.selected.recvAll 4 = _ := recvAll_header (c := c.selected) hclosed hrecvs
  have hheader : c.selected.unread.take 4 = c.unread := List.take_of_length_le hshort.le
  rw [hheader] at hrecv
  set d := c.selected.consumed 4 (min 4 c.selected.unread.length) with hd
  have hselects' : Undisturbed d.selects := hselects.tail
  have hunread : d.unread = [] := by
    change c.unread.drop (min 4 c.unread.length) = []
    rw [List.drop_eq_nil_iff]
    omega
  obtain ⟨b, bs, hbs⟩ := List.exists_cons_of_ne_nil hu
  rw [OneToOne.receiveMessage, OneToOne.checkFdMsg_ready hselects hsignalled (.inr hclosed)]
  rw [hbs] at hrecv
  simp only [hrecv]
  rw [← hbs]
  by_cases hzero : h.readWord prior c.unread = 0
  · have hloop : OneToOne.receivePayload { remainingBytes := 0, conn := d } =
        some (.success, { remainingBytes := 0, conn := d }) := iterate_done rfl
    obtain ⟨⟨result, reply⟩, hreply⟩ := OneToOne.sendReply_total (h.wordBytes_length 0) d
    simp only [hzero, hloop, hreply, Option.map_some]
    exact ⟨_, rfl, fun _ => List.cons_ne_nil _ _, fun hne => absurd rfl hne⟩
  · have hready : OneToOne.checkFdMsg d = some (.success, d.selected) :=
      OneToOne.checkFdMsg_ready hselects' hsignalled (.inr hclosed)
    have hend : ∀ n, ∃ e, d.selected.recv n = some (.ok [], e) ∧ e.sent = c.sent := by
      intro n
      obtain ⟨k, hk⟩ := (undisturbed_consumed (c := c.selected) hrecvs 4
        (min 4 c.selected.unread.length)).head
      have hr : d.selected.recv n = _ := Conn.recv_moves hk (.inr hclosed)
      have hnil : d.selected.unread = [] := hunread
      rw [hnil, List.take_nil] at hr
      exact ⟨_, hr, rfl⟩
    obtain ⟨e, he, hsent⟩ := hend (if OneToOne.sizeofBuf < h.readWord prior c.unread then
      OneToOne.sizeofBuf else h.readWord prior c.unread)
    have hloop : OneToOne.receivePayload { remainingBytes := h.readWord prior c.unread, conn := d } =
        some (.closed, { remainingBytes := h.readWord prior c.unread, conn := e }) := by
      apply iterate_done
      rw [OneToOne.receivePayloadBody, if_pos (Nat.pos_of_ne_zero hzero), hready]
      simp only [he]
    simp only [hloop]
    exact ⟨_, rfl, fun h0 => absurd h0 hzero, fun _ => ⟨rfl, hsent⟩⟩

end OneToOne

end Length

section Iff

variable {h : Host} {sizes : Stream' ℕ} {c : Conn} (prior : ℕ) (hclosed : c.closed = true)
  (hrecvs : c.recvs = sizes.map Answer.moves)

include hclosed hrecvs

lemma pollAnswersReceived_iff : PollAnswersReceived h prior c ↔
    HeaderReceived c ∨ h.alloc (h.readWord prior (headerBytes sizes c) + 1) = false := by
  constructor
  · intro hall
    by_contra hnot
    rw [not_or, Bool.not_eq_false] at hnot
    obtain ⟨r, hr, hrows⟩ := pollRecvAndLog_row prior hclosed hrecvs hnot.2
      ⟨0, fun _ => 0, fun _ => {}, 0⟩ 0 {}
    exact hnot.1 (hall _ _ _ r hr (.inl hrows))
  · rintro (hheader | halloc) so i t r hr hanswered
    · exact hheader
    · obtain ⟨hrows, hsent⟩ := pollRecvAndLog_refused hclosed hrecvs halloc hr
      rcases hanswered with hrow | hreply
      · exact (hrow hrows).elim
      · exact (hreply hsent).elim

lemma childAnswersReceived_iff : ChildAnswersReceived h prior c ↔
    HeaderReceived c ∨ h.alloc (h.readWord prior (headerBytes sizes c) + 1) = false := by
  constructor
  · intro hall
    by_contra hnot
    rw [not_or, Bool.not_eq_false] at hnot
    obtain ⟨r, hr, hrows⟩ := cRecvLog_row prior hclosed hrecvs hnot.2 0 ⟨5, 4, {}⟩ {}
    exact hnot.1 (hall _ _ _ _ r hr (.inl hrows))
  · rintro (hheader | halloc) pid child calls t r hr hanswered
    · exact hheader
    · obtain ⟨hrows, hsent⟩ := cRecvLog_refused hclosed hrecvs halloc hr
      rcases hanswered with hrow | hreply
      · exact (hrow hrows).elim
      · exact (hreply hsent).elim

lemma oneToOneAnswersReceived_iff (hselects : Undisturbed c.selects)
    (hsignalled : c.signalled = false) : OneToOneAnswersReceived h prior c ↔
      c.unread = [] ∨ 4 ≤ c.unread.length ∨ h.readWord prior c.unread ≠ 0 := by
  constructor
  · intro hall
    by_contra hnot
    rw [not_or, not_or, not_le, not_not] at hnot
    obtain ⟨hu, hshort, hzero⟩ := hnot
    obtain ⟨r, hr, hrows, -⟩ := receiveMessage_partial (h := h) prior hclosed hrecvs
      hselects hsignalled ⟨0, 0, {}⟩ {} hu hshort
    have hheader := hall _ _ r hr (.inl (hrows hzero))
    rw [headerReceivedAll_iff hclosed hrecvs] at hheader
    omega
  · intro hcond so t r hr hanswered
    rw [headerReceivedAll_iff hclosed hrecvs]
    by_contra hshort
    have hsilent : r.rows = [] ∧ r.conn.sent = c.sent := by
      by_cases hu : c.unread = []
      · obtain ⟨d, hd, hsent⟩ := receiveMessage_empty (h := h) prior hclosed hrecvs
          hselects hsignalled so t hu
        rw [hr] at hd
        obtain rfl := Option.some.inj hd
        exact ⟨rfl, hsent⟩
      · obtain ⟨q, hq, -, hquiet⟩ := receiveMessage_partial (h := h) prior hclosed
          hrecvs hselects hsignalled so t hu (by omega)
        rw [hr] at hq
        obtain rfl := Option.some.inj hq
        exact hquiet ((hcond.resolve_left hu).resolve_left hshort)
    rcases hanswered with hrow | hreply
    · exact hrow hsilent.1
    · exact hreply hsilent.2

end Iff

theorem not_answers_received :
    let closed : Conn :=
      { closed := true, recvs := Stream'.const (.moves 4), sends := Stream'.const (.moves 4)
        selects := Stream'.const (.moves 0) }
    let h : Host := ⟨.little, fun _ => true, fun _ => []⟩
    ¬ PollAnswersReceived h 0 closed ∧ ¬ ChildAnswersReceived h 0 closed ∧
      ¬ OneToOneAnswersReceived h 0 { closed with unread := [0] } := by
  intro closed h
  have hrecvs : closed.recvs = (Stream'.const 4).map Answer.moves := rfl
  have hselects : Undisturbed (Stream'.const (.moves 0)) := fun _ => ⟨0, rfl⟩
  refine ⟨fun hall => ?_, fun hall => ?_, fun hall => ?_⟩
  · obtain ⟨r, hr, hrows⟩ := pollRecvAndLog_row (h := h) 0 rfl hrecvs rfl
      ⟨0, fun _ => 0, fun _ => {}, 0⟩ 0 {}
    obtain ⟨hlen, -⟩ := (headerReceived_iff rfl hrecvs).mp (hall _ _ _ r hr (.inl hrows))
    exact absurd hlen (by decide)
  · obtain ⟨r, hr, hrows⟩ := cRecvLog_row (h := h) 0 rfl hrecvs rfl 0 ⟨5, 4, {}⟩ {}
    obtain ⟨hlen, -⟩ := (headerReceived_iff rfl hrecvs).mp (hall _ _ _ _ r hr (.inl hrows))
    exact absurd hlen (by decide)
  · obtain ⟨r, hr, hrows, -⟩ := receiveMessage_partial (h := h) 0
      (c := { closed with unread := [0] }) rfl hrecvs hselects rfl ⟨0, 0, {}⟩ {} (by decide)
      (by decide)
    have hlen := (headerReceivedAll_iff (c := { closed with unread := [0] }) rfl hrecvs).mp
      (hall _ _ r hr (.inl (hrows (by decide))))
    exact absurd hlen (by decide)

theorem answers_received_iff (h : Host) (prior : ℕ) (sizes : Stream' ℕ) (c : Conn)
    (hclosed : c.closed = true) (hrecvs : c.recvs = sizes.map Answer.moves)
    (hselects : Undisturbed c.selects) (hsignalled : c.signalled = false) :
    (PollAnswersReceived h prior c ↔ 4 ≤ c.unread.length ∧ 4 ≤ sizes.head ∨
      h.alloc (h.readWord prior (headerBytes sizes c) + 1) = false) ∧
    (ChildAnswersReceived h prior c ↔ 4 ≤ c.unread.length ∧ 4 ≤ sizes.head ∨
      h.alloc (h.readWord prior (headerBytes sizes c) + 1) = false) ∧
    (OneToOneAnswersReceived h prior c ↔
      c.unread = [] ∨ 4 ≤ c.unread.length ∨ h.readWord prior c.unread ≠ 0) := by
  refine ⟨?_, ?_, oneToOneAnswersReceived_iff prior hclosed hrecvs hselects hsignalled⟩
  · rw [← headerReceived_iff hclosed hrecvs]
    exact pollAnswersReceived_iff prior hclosed hrecvs
  · rw [← headerReceived_iff hclosed hrecvs]
    exact childAnswersReceived_iff prior hclosed hrecvs

theorem answers_received_one_message :
    let c : Conn :=
      { unread := [0, 0, 0, 1, 7], closed := true, recvs := Stream'.const (.moves 4)
        sends := Stream'.const (.moves 4), selects := Stream'.const (.moves 0) }
    let h : Host := ⟨.little, fun _ => true, fun _ => []⟩
    PollAnswersReceived h 9 c ∧ ChildAnswersReceived h 9 c ∧ OneToOneAnswersReceived h 9 c := by
  intro c h
  obtain ⟨hpoll, hchild, honeToOne⟩ := answers_received_iff h 9 (Stream'.const 4) c rfl rfl
    (fun _ => ⟨0, rfl⟩) rfl
  have hlen : 4 ≤ c.unread.length := by decide
  exact ⟨hpoll.mpr (.inl ⟨hlen, le_refl 4⟩), hchild.mpr (.inl ⟨hlen, le_refl 4⟩),
    honeToOne.mpr (.inr (.inl hlen))⟩

end ScalableServer.Conversations
