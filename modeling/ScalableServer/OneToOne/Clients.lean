import ScalableServer.LogText

namespace ScalableServer.OneToOne

open ScalableServer.Foundations ScalableServer.Core

structure Visit where
  fd : ℤ
  conn : Conn
  messages : List (List UInt8)
  select : ℕ
  prior : ℕ → ℕ
  t : ℕ → Timing

namespace Visit

def calls (v : Visit) : Calls where
  select := .moves v.select
  accept := .ok (v.fd, v.conn)
  acceptSignal := false
  prior := v.prior
  t := v.t

structure Whole (v : Visit) : Prop where
  lengths : ∀ m ∈ v.messages, m.length < 2 ^ 32
  unread : v.conn.unread = frames v.messages
  closed : v.conn.closed = true
  quiet : Quiet v.conn

def entries (v : Visit) : List (ℤ × ℕ) := v.messages.map fun m => (v.fd, m.length)

structure Answered (v : Visit) (c : Conn) : Prop where
  unread : c.unread = []
  sent : c.sent = v.conn.sent ++ v.messages.flatMap fun m => bigEndian 4 m.length

end Visit

def noteServed (h : Host) (s : Server) (e : Event) (g : List Conn) : List Conn :=
  match e with
  | .pass calls =>
    match acceptConn s calls with
    | (_, .error _) => g
    | (s, .ok c) =>
      g ++ ((handleClient h s.so calls.prior calls.t { c with signalled := s.signalled }).map
        fun r => r.2.conn).toList
  | .signal => g

structure Waiting (s : Server) : Prop where
  signalled : s.signalled = false
  result : s.result = none

def LogRow.entry (row : LogRow) : ℤ × ℕ := (row.fd, row.bytes)

variable {h : Host} {s t : Server} {v : Visit} {so : StateObject} {c : Conn} {g : List Conn}
  {clients : List Visit} {stop : Calls}

lemma frames_length_le (ms : List (List UInt8)) : ms.length ≤ (frames ms).length := by
  induction ms with
  | nil => exact le_refl 0
  | cons m ms ih =>
    rw [frames_cons, List.length_append, List.length_cons, frame_length]
    omega

lemma handleClient_fd {prior : ℕ → ℕ} {ti : ℕ → Timing} {r : ClientResult × Client}
    (hr : handleClient h so prior ti c = some r) : ∀ row ∈ r.2.rows, row.fd = so.clientFd := by
  let I : Client → Prop := fun x => ∀ row ∈ x.rows, row.fd = so.clientFd
  refine iterate_keeps (I := I) (Q := fun r => I r.2) (fun x hx => ?_) (by simp [I]) hr
  rw [handleClientBody]
  cases hreceive : receiveMessage h so (prior x.calls) (ti x.calls) x.conn with
  | none => trivial
  | some q =>
    have hrows : ∀ row ∈ x.rows ++ q.rows, row.fd = so.clientFd := by
      intro row hrow
      rcases List.mem_append.mp hrow with hrow | hrow
      · exact hx row hrow
      · obtain ⟨n, rfl⟩ := receiveMessage_row hreceive row hrow
        rfl
    cases hresult : q.result <;> simp only [hresult] <;> exact hrows

lemma handleClient_signalled {prior : ℕ → ℕ} {ti : ℕ → Timing} {ms : List (List UInt8)}
    {r : ClientResult × Client} (hms : ∀ m ∈ ms, m.length < 2 ^ 32) (hu : c.unread = frames ms)
    (hclosed : c.closed = true) (hq : Quiet c) (hr : handleClient h so prior ti c = some r) :
    r.2.conn.signalled = false := by
  let I : Client → Prop := fun x => ∃ ms : List (List UInt8), (∀ m ∈ ms, m.length < 2 ^ 32) ∧
    x.conn.unread = frames ms ∧ x.conn.closed = true ∧ Quiet x.conn
  refine iterate_keeps (I := I) (Q := fun r => r.2.conn.signalled = false) ?_
    ⟨ms, hms, hu, hclosed, hq⟩ hr
  rintro x ⟨ms, hms, hu, hclosed, hq⟩
  rw [handleClientBody]
  cases ms with
  | nil =>
    rw [receiveMessage_end h so _ _ hu hclosed hq]
    exact hq.signalled
  | cons m ms =>
    obtain ⟨q, hq, hresult, -, hu', -, -, -, hclosed', hquiet, -⟩ := receiveMessage_frame h so
      (prior x.calls) (ti x.calls) (hms m List.mem_cons_self) hu hq
    simp only [hq, hresult]
    exact ⟨ms, fun m' hm' => hms m' (List.mem_cons_of_mem m hm'), hu', hclosed'.trans hclosed, hquiet⟩

lemma handleClient_visit (h : Host) (hv : v.Whole) (hfd : so.clientFd = v.fd) :
    ∃ r, handleClient h so v.prior v.t v.conn = some (.success, r) ∧ v.Answered r.conn ∧
      r.conn.signalled = false ∧ r.rows.map LogRow.entry = v.entries := by
  have hfuel : v.messages.length < v.conn.unread.length + 1 := by
    have hle := frames_length_le v.messages
    rw [hv.unread]
    omega
  obtain ⟨r, hr, hu, -, hsent, hrows, -⟩ := handleClient_frames (s := { conn := v.conn }) hv.lengths
    hv.unread hv.closed hv.quiet hfuel
  change handleClient h so v.prior v.t v.conn = some (.success, r) at hr
  refine ⟨r, hr, ⟨hu, hsent⟩, handleClient_signalled hv.lengths hv.unread hv.closed hv.quiet hr, ?_⟩
  have hentry : r.rows.map LogRow.entry = (r.rows.map LogRow.bytes).map fun n => (v.fd, n) := by
    rw [List.map_map]
    refine List.map_congr_left fun row hrow => ?_
    rw [LogRow.entry, handleClient_fd hr row hrow, hfd]
    rfl
  rw [hentry, hrows, Visit.entries]
  simp

lemma visit_step (hs : Waiting s) (hv : v.Whole) :
    ∃ t c, ((server h).observe (noteServed h)).step (s, g) (.pass v.calls) = some (t, g ++ [c]) ∧
      Waiting t ∧ v.Answered c ∧ t.rows.map LogRow.entry = s.rows.map LogRow.entry ++ v.entries := by
  let so : StateObject := { s.so with clientFd := v.fd }
  have haccept : acceptConn s v.calls = ({ s with so := so }, .ok v.conn) := by
    have hcheck : checkListenFd s.signalled v.calls.select = .success := by
      rw [hs.signalled]
      rfl
    have hsignalled : (s.signalled || v.calls.acceptSignal) = s.signalled := Bool.or_false _
    simp only [acceptConn, hcheck, hsignalled]
    rfl
  have hconn : ({ v.conn with signalled := s.signalled } : Conn) = v.conn := by
    rw [hs.signalled, ← hv.quiet.signalled]
  obtain ⟨r, hr, hanswered, hsignalled, hrows⟩ := @handleClient_visit v so h hv rfl
  have hhandle : handleClient h so v.calls.prior v.calls.t
      { v.conn with signalled := s.signalled } = some (.success, r) := by
    rw [hconn]
    exact hr
  let t : Server := { s with
    so := so, signalled := r.conn.signalled, result := none, rows := s.rows ++ r.rows }
  have hpass : step h s (.pass v.calls) = some t := by
    simp only [step, hs.result, if_true, pass, haccept, hhandle, Option.map_some]
    rfl
  refine ⟨t, r.conn, ?_, ⟨hsignalled, rfl⟩, hanswered, ?_⟩
  · refine Option.map_eq_some_iff.mpr ⟨t, hpass, ?_⟩
    simp only [noteServed, haccept, hhandle]
    rfl
  · change (s.rows ++ r.rows).map _ = _
    rw [List.map_append, hrows]

lemma visits_run (hs : Waiting s) (hclients : ∀ v ∈ clients, v.Whole) :
    ∃ t served, ((server h).observe (noteServed h)).run (clients.map fun v => .pass v.calls) (s, g) =
        some (t, g ++ served) ∧ Waiting t ∧ List.Forall₂ Visit.Answered clients served ∧
      t.rows.map LogRow.entry = s.rows.map LogRow.entry ++ clients.flatMap Visit.entries := by
  induction clients generalizing s g with
  | nil => exact ⟨s, [], by simp [Machine.run], hs, .nil, by simp⟩
  | cons v clients ih =>
    obtain ⟨a, c, ha, hwaiting, hanswered, hrows⟩ :=
      visit_step (h := h) (g := g) hs (hclients v List.mem_cons_self)
    obtain ⟨t, served, ht, hrest⟩ := ih (g := g ++ [c]) hwaiting fun w hw =>
      hclients w (List.mem_cons_of_mem v hw)
    refine ⟨t, c :: served, ?_, hrest.1, hrest.2.1.cons hanswered, ?_⟩
    · rw [List.map_cons, Machine.run, ha, Option.bind_some, ht, List.append_assoc]
      rfl
    · rw [hrest.2.2, hrows, List.flatMap_cons, List.append_assoc]

theorem oneToOne_serves_clients (h : Host) (listenFd : ℤ) (clients : List Visit)
    (hclients : ∀ v ∈ clients, v.Whole) (stop : Calls)
    (hstop : checkListenFd false stop.select = .termination) (co : Server) :
    let events := clients.map (fun v => Event.pass v.calls) ++ [.pass stop]
    ∃ s served, ((server h).observe (noteServed h)).run events (initial listenFd, []) =
        some (s, served) ∧ List.Forall₂ Visit.Answered clients served ∧
      s.rows.map LogRow.entry = clients.flatMap Visit.entries ∧
        runCore (some (api h (.ok listenFd) events)) co = some (exitSuccess, s) := by
  intro events
  have hstart : Waiting (initial listenFd) := ⟨rfl, rfl⟩
  obtain ⟨t, served, ht, hwaiting, hanswered, hrows⟩ :=
    visits_run (h := h) (g := []) hstart hclients
  let s : Server := { t with signalled := t.signalled || stop.select.signal, result := some .closeServer }
  have haccept : acceptConn t stop =
      ({ t with signalled := t.signalled || stop.select.signal }, .error .termination) := by
    have hcheck : checkListenFd t.signalled stop.select = .termination := by
      rw [hwaiting.signalled]
      exact hstop
    simp only [acceptConn, hcheck]
  have hpass : step h t (.pass stop) = some s := by
    simp only [step, hwaiting.result, if_true, pass, haccept]
    rfl
  have hlast : ((server h).observe (noteServed h)).step (t, served) (.pass stop) =
      some (s, served) := by
    refine Option.map_eq_some_iff.mpr ⟨s, hpass, ?_⟩
    simp only [noteServed, haccept]
  have hrun : ((server h).observe (noteServed h)).run events (initial listenFd, []) =
      some (s, served) := by
    rw [Machine.run_append, ht, List.nil_append, Option.bind_some, Machine.run_singleton, hlast]
  have hserver : runServer h events (initial listenFd) = some (.closeServer, s) := by
    rw [runServer, Machine.run_of_observe hrun]
    rfl
  refine ⟨s, served, hrun, hanswered, hrows, ?_⟩
  exact runCore_returns rfl hserver (.inl ⟨rfl, rfl⟩) rfl

theorem oneToOne_serves_two_clients :
    let h : Host := ⟨.little, fun _ => true, fun _ => []⟩
    let conn (bs : List UInt8) : Conn :=
      { unread := bs, closed := true, recvs := Stream'.const (.moves 2)
        sends := Stream'.const (.moves 3), selects := Stream'.const (.moves 0) }
    let first : Visit := ⟨4, conn (frames [[1, 2, 3], []]), [[1, 2, 3], []], 0, fun _ => 0, fun _ => {}⟩
    let second : Visit := ⟨5, conn (frames [[7]]), [[7]], 0, fun _ => 0, fun _ => {}⟩
    let stop : Calls := { first.calls with select := ⟨.fail .EINTR, false⟩ }
    ∃ s, runCore (some (api h (.ok 3) [.pass first.calls, .pass second.calls, .pass stop]))
        (initial 0) = some (exitSuccess, s) ∧ s.rows.map LogRow.entry = [(4, 3), (4, 0), (5, 1)] := by
  intro h conn first second stop
  have hconst : ∀ k, Undisturbed (Stream'.const (.moves k)) := fun k _ => ⟨k, rfl⟩
  have hwhole : ∀ v ∈ [first, second], v.Whole := by
    intro v hv
    rcases List.mem_pair.mp hv with rfl | rfl
    · exact ⟨by decide, rfl, rfl, hconst 2, hconst 3, hconst 0, rfl⟩
    · exact ⟨by decide, rfl, rfl, hconst 2, hconst 3, hconst 0, rfl⟩
  obtain ⟨s, -, -, -, hrows, hcore⟩ :=
    oneToOne_serves_clients h 3 [first, second] hwhole stop rfl (initial 0)
  exact ⟨s, hcore, hrows⟩

end ScalableServer.OneToOne
