import ScalableServer.Conversations.Exchange

namespace ScalableServer.Conversations

open ScalableServer.Foundations ScalableServer.Core

variable {h : Host} {first : List UInt8 → ℕ} {prior : ℕ} {c d : Conn} {s : PayloadLoop}
  {m after : List UInt8} {sizes rest : Stream' ℕ}

lemma readWord_header (h : Host) (prior : ℕ) (hm : m.length < 2 ^ 32) :
    h.readWord prior (bigEndian 4 m.length) = m.length := by
  rw [h.readWord_whole prior (by simp), ofBigEndian_bigEndian (by simpa using hm)]

lemma bigEndian_four_inj {a b : ℕ} (ha : a < 2 ^ 32) (hb : b < 2 ^ 32)
    (he : bigEndian 4 a = bigEndian 4 b) : a = b := by
  have hw := congrArg ofBigEndian he
  rwa [ofBigEndian_bigEndian (by simpa using ha), ofBigEndian_bigEndian (by simpa using hb)] at hw

lemma header_whole (hunread : c.unread = frame m ++ after)
    (hrecvs : c.recvs = sizes.map Answer.moves) (h4 : 4 ≤ sizes.head) :
    c.recv 4 = some (.ok (bigEndian 4 m.length), c.consumed 4 4) := by
  have hlen : c.unread.length = 4 + m.length + after.length := by simp [hunread]
  have hne : c.unread ≠ [] := by
    rw [← List.length_pos_iff]
    omega
  have hk : chunk sizes.head 4 c.unread.length = 4 := by rw [chunk]; omega
  have hhead : c.recvs.head = .moves sizes.head := by rw [hrecvs, Stream'.head_map]
  rw [Conn.recv_moves hhead (.inl hne), hk, hunread, frame, List.append_assoc,
    List.take_left' (by simp)]

lemma exchanges_of_ends (hfirst : ∀ bs ≠ [], first bs ≠ 0) (hm : m.length < 2 ^ 32)
    (halloc : h.alloc (m.length + 1) = true) (hunread : c.unread = frame m ++ after)
    (hrecvs : c.recvs = sizes.map Answer.moves) (hsend : c.sends.head = .moves 4)
    (h4 : 4 ≤ sizes.head) (hends : PayloadEnds after.length m.length sizes.tail rest) :
    ∃ s d, Exchanges h first prior c s d ∧ s.bytesRead = m.length ∧ s.buffer.cells = m ∧
      s.buffer.size = m.length + 1 ∧ s.buffer.Within m.length ∧ d.unread = after ∧
      d.sent = c.sent ++ bigEndian 4 m.length ∧ d.recvs = rest.map Answer.moves ∧
      d.sends = c.sends.tail := by
  have hheader := header_whole hunread hrecvs h4
  let s₀ : PayloadLoop :=
    { bytesRead := 0, bytes := first (bigEndian 4 m.length)
      buffer := { size := m.length + 1 }, conn := c.consumed 4 4 }
  have hu₀ : s₀.conn.unread = m ++ after := by
    change (c.consumed 4 4).unread = _
    rw [Conn.consumed_unread, hunread, frame, List.append_assoc, List.drop_left' (by simp)]
  have hr₀ : s₀.conn.recvs = sizes.tail.map Answer.moves := by
    change c.recvs.tail = _
    rw [hrecvs, Stream'.tail_map]
  have hbytes : s₀.bytes ≠ 0 := hfirst _ (by rw [← List.length_pos_iff]; simp)
  obtain ⟨s, hs, hread, hu, hr, hsame, hcells, hsize, hwithin⟩ := payloadLoop_ends hends hm
    (s := s₀) (Nat.zero_add _) (by rw [hu₀, List.length_append]) hr₀ hbytes rfl
    (by intro st hst; cases hst)
    (by rw [hu₀, List.length_append]; omega : m.length < s₀.conn.unread.length + 2)
  have hsends : s.conn.sends.head = .moves 4 := by rw [hsame.sends]; exact hsend
  have hsent := Conn.send_moves (h.wordBytes s.bytesRead) hsends
  rw [h.wordBytes_eq, bigEndian_length, hread] at hsent
  have hchunk : chunk 4 4 4 = 4 := by decide
  rw [hchunk, List.take_of_length_le (by simp)] at hsent
  refine ⟨s, s.conn.accepted (bigEndian 4 m.length),
    ⟨bigEndian 4 m.length, c.consumed 4 4, hheader, ?_, ?_, 4, ?_⟩, hread, ?_, hsize, hwithin,
    ?_, ?_, ?_, ?_⟩
  · rwa [readWord_header h prior hm]
  · rw [readWord_header h prior hm]
    exact hs
  · rw [h.wordBytes_eq, hread]
    exact hsent
  · rw [hcells, hu₀, List.take_left]
    rfl
  · change s.conn.unread = after
    rw [hu, hu₀, List.drop_left]
  · change s.conn.sent ++ _ = _
    rw [hsame.sent]
    rfl
  · exact hr
  · change s.conn.sends.tail = _
    rw [hsame.sends]
    rfl

lemma ends_of_exchanges (hfirst : ∀ bs ≠ [], first bs ≠ 0) (hm : m.length < 2 ^ 32)
    (hunread : c.unread = frame m ++ after) (hrecvs : c.recvs = sizes.map Answer.moves)
    (hsend : c.sends.head = .moves 4) (he : Exchanges h first prior c s d)
    (hu : d.unread = after) (hsent : d.sent = c.sent ++ bigEndian 4 m.length) :
    h.alloc (m.length + 1) = true ∧ 4 ≤ sizes.head ∧
      ∃ rest, PayloadEnds after.length m.length sizes.tail rest := by
  obtain ⟨header, c₁, hrecv, halloc, hloop, n, hs⟩ := he
  have hlen : c.unread.length = 4 + m.length + after.length := by simp [hunread]
  have hne : c.unread ≠ [] := by
    rw [← List.length_pos_iff]
    omega
  have hhead : c.recvs.head = .moves sizes.head := by rw [hrecvs, Stream'.head_map]
  rw [Conn.recv_moves hhead (.inl hne)] at hrecv
  set k := chunk sizes.head 4 c.unread.length with hk
  have hk4 : k ≤ 4 := chunk_le_request _ _ _
  have hkpos : 0 < k := chunk_pos (by decide) (by omega)
  simp only [Option.some.injEq, Prod.mk.injEq, Except.ok.injEq] at hrecv
  obtain ⟨rfl, rfl⟩ := hrecv
  obtain ⟨p, hp, hpu, hcount, hpsent, hpsends⟩ := payloadLoop_counts (Nat.two_pow_pos 32) hloop
  have hconn := Conn.send_moves (h.wordBytes s.bytesRead) (by rw [hpsends]; exact hsend)
  rw [hs] at hconn
  obtain ⟨-, rfl⟩ := Prod.mk.inj hconn
  have hp' : p = 4 + m.length - k := by
    have hleft := congrArg List.length (hpu.symm.trans hu)
    simp only [Conn.consumed_unread, List.length_drop] at hleft hp
    omega
  have hread : s.bytesRead = m.length := by
    apply bigEndian_four_inj (by rw [hcount]; exact Nat.mod_lt _ (by decide)) hm
    have hreply : s.conn.sent ++ bigEndian 4 s.bytesRead = c.sent ++ bigEndian 4 m.length := by
      rw [← hsent]
      change _ = s.conn.sent ++ _
      rw [h.wordBytes_eq, bigEndian_length, List.take_of_length_le (by simp [chunk])]
    rw [hpsent] at hreply
    exact List.append_cancel_left hreply
  have hk4' : k = 4 := by
    rw [hread, hp'] at hcount
    change m.length = (0 + (4 + m.length - k)) % 2 ^ 32 at hcount
    omega
  have hh4 : 4 ≤ sizes.head := by
    rw [hk] at hk4'
    rw [chunk] at hk4'
    omega
  have hheader : c.unread.take k = bigEndian 4 m.length := by
    rw [hk4', hunread, frame, List.append_assoc, List.take_left' (by simp)]
  rw [hheader, readWord_header h prior hm] at halloc hloop
  refine ⟨halloc, hh4, payloadEnds_of_exact hm (Nat.zero_add _) ?_ ?_ ?_ hloop ?_⟩
  · change (c.unread.drop k).length = _
    rw [List.length_drop]
    omega
  · change c.recvs.tail = _
    rw [hrecvs, Stream'.tail_map]
  · exact hfirst _ (by rw [← List.length_pos_iff]; simp)
  · exact congrArg List.length hu

inductive Aligned (alloc : ℕ → Bool) : List (List UInt8) → Stream' ℕ → Prop
  | nil (sizes : Stream' ℕ) : Aligned alloc [] sizes
  | cons {m : List UInt8} {ms : List (List UInt8)} {sizes rest : Stream' ℕ}
      (halloc : alloc (m.length + 1) = true) (hheader : 4 ≤ sizes.head)
      (hends : PayloadEnds (frames ms).length m.length sizes.tail rest)
      (hrest : Aligned alloc ms rest) : Aligned alloc (m :: ms) sizes

def ServesEach (call : ℕ → Conn → Option (ℤ × Conn)) : ℕ → List (List UInt8) → Conn → Prop
  | _, [], _ => True
  | k, m :: ms, c => ∃ d, call k c = some (0, d) ∧ d.unread = frames ms ∧
      d.sent = c.sent ++ bigEndian 4 m.length ∧ ServesEach call (k + 1) ms d

lemma servesEach_iff_aligned {call : ℕ → Conn → Option (ℤ × Conn)} {prior : ℕ → ℕ}
    (hfirst : ∀ bs ≠ [], first bs ≠ 0)
    (hcall : ∀ k c d, call k c = some (0, d) ↔ ∃ s, Exchanges h first (prior k) c s d)
    {ms : List (List UInt8)} (hms : ∀ m ∈ ms, m.length < 2 ^ 32) (k : ℕ)
    (hunread : c.unread = frames ms) (hrecvs : c.recvs = sizes.map Answer.moves)
    (hsends : c.sends = Stream'.const (.moves 4)) :
    ServesEach call k ms c ↔ Aligned h.alloc ms sizes := by
  induction ms generalizing k c sizes with
  | nil => exact ⟨fun _ => .nil sizes, fun _ => trivial⟩
  | cons m ms ih =>
    have hm : m.length < 2 ^ 32 := hms m List.mem_cons_self
    have hsend : c.sends.head = .moves 4 := by rw [hsends]; rfl
    have hstep : h.alloc (m.length + 1) = true → 4 ≤ sizes.head →
        ∀ rest, PayloadEnds (frames ms).length m.length sizes.tail rest →
        ∃ d, call k c = some (0, d) ∧ d.unread = frames ms ∧
          d.sent = c.sent ++ bigEndian 4 m.length ∧
          (ServesEach call (k + 1) ms d ↔ Aligned h.alloc ms rest) := by
      intro halloc h4 rest hends
      obtain ⟨s, d, he, -, -, -, -, hu, hsent, hr, ho⟩ : ∃ s d, Exchanges h first (prior k) c s d ∧ _ :=
        exchanges_of_ends hfirst hm halloc hunread hrecvs hsend h4 hends
      refine ⟨d, (hcall k c d).mpr ⟨s, he⟩, hu, hsent, ?_⟩
      apply ih (fun x hx => hms x (List.mem_cons_of_mem m hx)) (k + 1) hu hr
      rw [ho, hsends]
      rfl
    constructor
    · rintro ⟨d, hd, hu, hsent, hrest⟩
      obtain ⟨s, he⟩ := (hcall k c d).mp hd
      obtain ⟨halloc, h4, rest, hends⟩ :=
        ends_of_exchanges hfirst hm hunread hrecvs hsend he hu hsent
      obtain ⟨d', hd', -, -, hiff⟩ := hstep halloc h4 rest hends
      obtain rfl : d = d' := by
        rw [hd] at hd'
        exact (Prod.mk.inj (Option.some.inj hd')).2
      exact .cons halloc h4 hends (hiff.mp hrest)
    · intro ha
      cases ha with
      | @cons _ _ _ rest halloc h4 hends hrest =>
        obtain ⟨d, hd, hu, hsent, hiff⟩ := hstep halloc h4 rest hends
        exact ⟨d, hd, hu, hsent, hiff.mpr hrest⟩

def pollCall (h : Host) (so : ℕ → PollServer.StateObject) (i : Fin PollServer.maxConnections)
    (prior : ℕ → ℕ) (t : ℕ → Timing) (k : ℕ) (c : Conn) : Option (ℤ × Conn) :=
  (PollServer.pollRecvAndLog h (so k) i (prior k) (t k) c).map fun r => (r.ret, r.conn)

def childCall (h : Host) (pid : ℕ → ℕ) (child : ℕ → ProcessServer.ChildStruct)
    (prior : ℕ → ℕ) (t : ℕ → Timing) (k : ℕ) (c : Conn) : Option (ℤ × Conn) :=
  (ProcessServer.cRecvLogNotifyParentRespond h (pid k) (child k) succeeding (prior k) (t k) c).map
    fun r => (r.ret, r.conn)

lemma pollCall_iff (h : Host) (so : ℕ → PollServer.StateObject)
    (i : Fin PollServer.maxConnections) (prior : ℕ → ℕ) (t : ℕ → Timing) (k : ℕ) (c d : Conn) :
    pollCall h so i prior t k c = some (0, d) ↔
      ∃ s, Exchanges h List.length (prior k) c s d := by
  constructor
  · intro hc
    obtain ⟨r, hr, he⟩ := Option.map_eq_some_iff.mp hc
    obtain ⟨hret, rfl⟩ := Prod.mk.inj he
    exact exchanges_of_pollRecvAndLog hr hret
  · rintro ⟨s, hs⟩
    rw [pollCall, pollRecvAndLog_of_exchanges _ _ hs]
    rfl

lemma childCall_iff (h : Host) (pid : ℕ → ℕ) (child : ℕ → ProcessServer.ChildStruct)
    (prior : ℕ → ℕ) (t : ℕ → Timing) (k : ℕ) (c d : Conn) :
    childCall h pid child prior t k c = some (0, d) ↔
      ∃ s, Exchanges h (fun _ => 1) (prior k) c s d := by
  constructor
  · intro hc
    obtain ⟨r, hr, he⟩ := Option.map_eq_some_iff.mp hc
    obtain ⟨hret, rfl⟩ := Prod.mk.inj he
    exact exchanges_of_cRecvLog hr hret
  · rintro ⟨s, hs⟩
    rw [childCall, cRecvLog_of_exchanges _ _ hs]
    rfl

theorem servesEach_iff_results_end_with_messages (h : Host) (so : ℕ → PollServer.StateObject)
    (i : Fin PollServer.maxConnections) (pid : ℕ → ℕ) (child : ℕ → ProcessServer.ChildStruct)
    (prior : ℕ → ℕ) (t : ℕ → Timing) (ms : List (List UInt8)) (hms : ∀ m ∈ ms, m.length < 2 ^ 32)
    (sizes : Stream' ℕ) (c : Conn) (hunread : c.unread = frames ms)
    (hrecvs : c.recvs = sizes.map Answer.moves) (hsends : c.sends = Stream'.const (.moves 4)) :
    (ServesEach (pollCall h so i prior t) 0 ms c ↔ Aligned h.alloc ms sizes) ∧
      (ServesEach (childCall h pid child prior t) 0 ms c ↔ Aligned h.alloc ms sizes) := by
  have hlength : ∀ bs : List UInt8, bs ≠ [] → bs.length ≠ 0 := fun bs hbs => by simpa using hbs
  have hone : ∀ bs : List UInt8, bs ≠ [] → 1 ≠ 0 := fun _ _ => one_ne_zero
  refine ⟨?_, ?_⟩
  · exact servesEach_iff_aligned hlength (pollCall_iff h so i prior t) hms 0 hunread hrecvs hsends
  · exact servesEach_iff_aligned hone (childCall_iff h pid child prior t) hms 0 hunread hrecvs hsends

def littleHost : Host := ⟨.little, fun _ => true, fun _ => []⟩

def sampleState : PollServer.StateObject := ⟨3, fun _ => 5, fun _ => {}, 1⟩

def sampleConn (ms : List (List UInt8)) (sizes : Stream' ℕ) : Conn :=
  { unread := frames ms, recvs := sizes.map Answer.moves, sends := Stream'.const (.moves 4)
    selects := Stream'.const (.moves 0) }

theorem not_servesEach_of_results_of_eight :
    ¬ ServesEach (pollCall littleHost (fun _ => sampleState) 0 (fun _ => 0) (fun _ => {})) 0
        [[1, 2, 3], []] (sampleConn [[1, 2, 3], []] (Stream'.const 8)) ∧
      ¬ ServesEach (childCall littleHost (fun _ => 7) (fun _ => ⟨5, 4, {}⟩) (fun _ => 0)
        (fun _ => {})) 0 [[1, 2, 3], []] (sampleConn [[1, 2, 3], []] (Stream'.const 8)) := by
  have hpoll : ((pollCall littleHost (fun _ => sampleState) 0 (fun _ => 0) (fun _ => {}) 0
      (sampleConn [[1, 2, 3], []] (Stream'.const 8))).map
        fun p => (p.1, p.2.unread, p.2.sent)) = some (0, [], [0, 0, 0, 7]) := by decide
  have hchild : ((childCall littleHost (fun _ => 7) (fun _ => ⟨5, 4, {}⟩) (fun _ => 0)
      (fun _ => {}) 0 (sampleConn [[1, 2, 3], []] (Stream'.const 8))).map
        fun p => (p.1, p.2.unread, p.2.sent)) = some (0, [], [0, 0, 0, 7]) := by decide
  have hheader : frames [[]] ≠ [] := by decide
  constructor
  · rintro ⟨d, hd, hu, -⟩
    rw [hd] at hpoll
    simp only [Option.map_some, Option.some.injEq, Prod.mk.injEq] at hpoll
    exact hheader (hu.symm.trans hpoll.2.1)
  · rintro ⟨d, hd, hu, -⟩
    rw [hd] at hchild
    simp only [Option.map_some, Option.some.injEq, Prod.mk.injEq] at hchild
    exact hheader (hu.symm.trans hchild.2.1)

theorem servesEach_of_results_of_messages :
    ServesEach (pollCall littleHost (fun _ => sampleState) 0 (fun _ => 0) (fun _ => {})) 0
        [[1, 2, 3], []] (sampleConn [[1, 2, 3], []] (Stream'.cons 4 (Stream'.cons 3 (Stream'.const 4)))) ∧
      ServesEach (childCall littleHost (fun _ => 7) (fun _ => ⟨5, 4, {}⟩) (fun _ => 0)
        (fun _ => {})) 0 [[1, 2, 3], []]
        (sampleConn [[1, 2, 3], []] (Stream'.cons 4 (Stream'.cons 3 (Stream'.const 4)))) := by
  have haligned : Aligned littleHost.alloc [[1, 2, 3], []]
      (Stream'.cons 4 (Stream'.cons 3 (Stream'.const 4))) := by
    have hpayload : PayloadEnds 4 3 (Stream'.cons 3 (Stream'.const 4)) (Stream'.const 4) :=
      .piece (by decide) (by decide) (.done _)
    have hheader : 4 ≤ (Stream'.const 4).head := le_refl 4
    exact .cons rfl (by decide) hpayload (.cons rfl hheader (.done _) (.nil _))
  obtain ⟨hpoll, hchild⟩ := servesEach_iff_results_end_with_messages littleHost
    (fun _ => sampleState) 0 (fun _ => 7) (fun _ => ⟨5, 4, {}⟩) (fun _ => 0) (fun _ => {})
    [[1, 2, 3], []] (by decide) (Stream'.cons 4 (Stream'.cons 3 (Stream'.const 4)))
    (sampleConn [[1, 2, 3], []] _) rfl rfl
    rfl
  exact ⟨hpoll.mpr haligned, hchild.mpr haligned⟩

end ScalableServer.Conversations
