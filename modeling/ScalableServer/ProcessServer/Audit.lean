import ScalableServer.Core.Audit
import ScalableServer.ProcessServer.Attribution

namespace ScalableServer.ProcessServer

open ScalableServer.Foundations ScalableServer.Core

variable {M N : ℕ}

structure Audit (N : ℕ) where
  header : Fin N → ℕ := fun _ => 0
  logged : List Entry := []
  replied : List Entry := []

def Action.conns (a : Action) (conns : ℕ → Conn) : ℕ → Conn :=
  match a with
  | .transfer id d => Function.update conns id d
  | _ => conns

namespace Child

def entries (c : Child) (header n : ℕ) : List Entry := c.conn.toList.map fun id => ⟨id, header, n⟩

def unlogged (c : Child) (header : ℕ) : List Entry :=
  match c.pc with
  | .payload _ n _ _ | .waitPipe n | .writePipe n | .waitLog n | .postLog n => c.entries header n
  | _ => []

def unreplied (c : Child) (header : ℕ) : List Entry :=
  match c.pc with
  | .reply n => c.entries header n
  | _ => []

def newHeader (conns : ℕ → Conn) (c : Child) (a : Action) (header : ℕ) : ℕ :=
  match a, c.pc with
  | .transfer id d, .header => d.position - (conns id).position
  | _, _ => header

def newLogged (c : Child) (a : Action) (header : ℕ) : List Entry :=
  match a with
  | .postLog _ => c.unlogged header
  | _ => []

def newReplied (c c' : Child) (header : ℕ) : List Entry :=
  match c.pc, c'.pc with
  | .reply _, .close => c.unreplied header
  | _, _ => []

def Connected (c : Child) : Prop :=
  match c.pc with
  | .payload _ _ _ _ | .waitPipe _ | .writePipe _ | .waitLog _ | .postLog _ | .reply _ => c.conn ≠ none
  | _ => True

def RepliesWhole (conns : ℕ → Conn) (c : Child) : Prop :=
  match c.pc, c.conn with
  | .reply _, some id => 4 ≤ (conns id).sends.head.amount
  | _, _ => True

instance (conns : ℕ → Conn) (c : Child) : Decidable (c.RepliesWhole conns) := by
  unfold RepliesWhole
  split <;> infer_instance

structure Accounted (conns : ℕ → Conn) (c : Child) (a : Action) (header : ℕ) (c' : Child) : Prop where
  connected : c'.Connected
  taken : ∀ id, ∃ w, (a.conns conns id).position + taken id (c.unlogged header) =
    (conns id).position + Core.taken id (c'.unlogged (c.newHeader conns a header)) +
      Core.taken id (c.newLogged a header) + 2 ^ 32 * w
  settled : c.newLogged a header ++ c.unreplied header =
    c.newReplied c' header ++ c'.unreplied (c.newHeader conns a header)
  sent : ∀ id, (a.conns conns id).sent = (conns id).sent ++ Core.replies id (c.newReplied c' header)
  rows : a.logged.map LogRow.bytes = (c.newLogged a header).map Entry.bytes

variable {h : Host} {pid : ℕ} {conns : ℕ → Conn} {c c' : Child} {e : ChildEvent} {a : Action}
  {header : ℕ}

lemma entries_eq {id : ℕ} (hconn : c.conn = some id) (n : ℕ) :
    c.entries header n = [⟨id, header, n⟩] := by
  rw [entries, hconn]
  rfl

lemma accounted_of_quiet (hconns : a.conns conns = conns) (hlogged : a.logged = [])
    (hnew : c.newLogged a header = []) (hheader : c.newHeader conns a header = header)
    (hreplied : c.newReplied c' header = []) (hconnected : c'.Connected)
    (hunlogged : c'.unlogged header = c.unlogged header)
    (hunreplied : c'.unreplied header = c.unreplied header) : c.Accounted conns a header c' where
  connected := hconnected
  taken id := by
    rw [hconns, hnew, hheader, hunlogged]
    exact ⟨0, rfl⟩
  settled := by rw [hnew, hreplied, hheader, hunreplied]
  sent id := by
    rw [hconns, hreplied]
    exact (List.append_nil _).symm
  rows := by
    rw [hlogged, hnew]
    rfl

lemma taken_of_counts {id n : ℕ} {d : Conn} {x y : List Entry} (hcounts : Counts (conns id) n d)
    (hx : ∀ z ∈ x, z.conn = id) (hy : ∀ z ∈ y, z.conn = id)
    (hread : ∃ w, Core.taken id x + n = Core.taken id y + 2 ^ 32 * w) (id' : ℕ) :
    ∃ w, ((Action.transfer id d).conns conns id').position + Core.taken id' x =
      (conns id').position + Core.taken id' y + 2 ^ 32 * w := by
  change ∃ w, (Function.update conns id d id').position + _ = _
  by_cases hid : id' = id
  · subst hid
    obtain ⟨w, hw⟩ := hread
    rw [Function.update_self, hcounts.position]
    exact ⟨w, by omega⟩
  · have hnone : ∀ {z : List Entry}, (∀ e ∈ z, e.conn = id) → Core.taken id' z = 0 := fun hz =>
      taken_eq_zero fun e he hconn => hid (hconn.symm.trans (hz e he))
    rw [Function.update_of_ne hid, hnone hx, hnone hy]
    exact ⟨0, rfl⟩

lemma sent_of_counts {id n : ℕ} {d : Conn} (hcounts : Counts (conns id) n d) (id' : ℕ) :
    ((Action.transfer id d).conns conns id').sent = (conns id').sent := by
  change (Function.update conns id d id').sent = _
  by_cases hid : id' = id
  · rw [hid, Function.update_self, hcounts.sent]
  · rw [Function.update_of_ne hid]

lemma entries_conn {id n : ℕ} (hconn : c.conn = some id) : ∀ x ∈ c.entries header n, x.conn = id := by
  intro x hx
  rw [entries_eq hconn, List.mem_singleton] at hx
  rw [hx]

lemma accounted_of_received {id n k header' : ℕ} {d : Conn} (hcounts : Counts (conns id) n d)
    (hconn : c'.conn = some id) (hheader : c.newHeader conns (.transfer id d) header = header')
    (hnew : c'.unlogged header' = c'.entries header' k)
    (hold : ∀ x ∈ c.unlogged header, x.conn = id)
    (hread : ∃ w, Core.taken id (c.unlogged header) + n = header' + k + 2 ^ 32 * w)
    (hreplied : c.newReplied c' header = []) (hunreplied : c.unreplied header = [])
    (hunreplied' : c'.unreplied header' = []) (hconnected : c'.Connected) :
    c.Accounted conns (.transfer id d) header c' where
  connected := hconnected
  taken := by
    rw [hheader, hnew]
    refine taken_of_counts hcounts hold (entries_conn hconn) ?_
    rw [entries_eq hconn]
    simpa [Entry.size] using hread
  settled := by
    rw [hreplied, hheader, hunreplied, hunreplied']
    rfl
  sent id' := by
    rw [sent_of_counts hcounts, hreplied]
    exact (List.append_nil _).symm
  rows := rfl

lemma accounted_of_header {id n : ℕ} {bs : List UInt8} {d : Conn} {buffer : Buffer} (b : Bool)
    (hpc : c.pc = .header) (hconn : c.conn = some id) (hrecv : (conns id).recv 4 = some (.ok bs, d)) :
    c.Accounted conns (.transfer id d) header
      ({ c with gogo := b }.goto (.payload n 0 1 buffer)) := by
  obtain ⟨hcounts, -⟩ := counts_of_recv hrecv
  have hheader : c.newHeader conns (.transfer id d) header = bs.length := by
    simp only [newHeader, hpc, hcounts.position, Nat.add_sub_cancel_left]
  have hold : c.unlogged header = [] := by rw [unlogged, hpc]
  refine accounted_of_received hcounts hconn hheader rfl ?_ ?_ (by rw [newReplied, hpc])
    (by rw [unreplied, hpc]) rfl (Option.ne_none_iff_exists'.mpr ⟨id, hconn⟩)
  · rw [hold]
    exact fun x hx => (List.not_mem_nil hx).elim
  · rw [hold]
    exact ⟨0, Nat.add_comm _ _⟩

lemma accounted_of_payload {id n k b : ℕ} {buffer : Buffer} {s : PayloadLoop} (gogo : Bool)
    (hpc : c.pc = .payload n k b buffer) (hconn : c.conn = some id)
    (hbody : payloadBody n ⟨k, b, buffer, conns id⟩ = .again s) :
    c.Accounted conns (.transfer id s.conn) header
      ({ c with gogo := gogo }.goto (.payload n s.bytesRead s.bytes s.buffer)) := by
  obtain ⟨len, hcounts, hread, -⟩ := counts_of_payloadBody hbody
  have hold : c.unlogged header = c.entries header k := by rw [unlogged, hpc]
  have hheader : c.newHeader conns (.transfer id s.conn) header = header := by
    simp only [newHeader, hpc]
  refine accounted_of_received hcounts hconn hheader rfl ?_ ?_ (by rw [newReplied, hpc])
    (by rw [unreplied, hpc]) rfl (Option.ne_none_iff_exists'.mpr ⟨id, hconn⟩)
  · rw [hold]
    exact entries_conn hconn
  · -- the counter of the loop has 32 bits
    have hk : s.bytesRead + 2 ^ 32 * ((k + len) / 2 ^ 32) = k + len := by
      rw [hread]
      exact Nat.mod_add_div _ _
    have hsize : Core.taken id ([⟨id, header, k⟩] : List Entry) = header + k := by
      simp [Entry.size]
    rw [hold, entries_eq hconn, hsize]
    exact ⟨(k + len) / 2 ^ 32, by omega⟩

lemma accounted_of_postLog {n : ℕ} (t : Timing) (hpc : c.pc = .postLog n) (hc : c.Connected) :
    c.Accounted conns (.postLog (cLogRow h pid c.child n t)) header (c.goto (.reply n)) := by
  have hunlogged : c.unlogged header = c.entries header n := by rw [unlogged, hpc]
  rw [Connected, hpc] at hc
  obtain ⟨id, hconn⟩ := Option.ne_none_iff_exists'.mp hc
  have hnew : c.newLogged (.postLog (cLogRow h pid c.child n t)) header = c.entries header n :=
    hunlogged
  have hreplied : c.newReplied (c.goto (.reply n)) header = [] := by rw [newReplied, hpc]
  refine ⟨hc, fun id' => ?_, ?_, fun id' => ?_, ?_⟩
  · rw [hnew, hunlogged]
    exact ⟨0, rfl⟩
  · rw [hnew, hreplied, unreplied, hpc, List.append_nil]
    rfl
  · rw [hreplied]
    exact (List.append_nil _).symm
  · rw [hnew, entries_eq hconn]
    rfl

lemma accounted_of_reply {id n k : ℕ} {d : Conn} (b : Bool) (hpc : c.pc = .reply n)
    (hconn : c.conn = some id) (hsend : (conns id).send (h.wordBytes n) = (.ok k, d))
    (hwhole : c.RepliesWhole conns) :
    c.Accounted conns (.transfer id d) header ({ c with gogo := b }.goto .close) := by
  rw [RepliesWhole, hpc, hconn] at hwhole
  obtain ⟨hposition, hsent⟩ := send_whole (h.wordBytes_length n) hwhole hsend
  have hreplied : c.newReplied ({ c with gogo := b }.goto .close) header = [⟨id, header, n⟩] := by
    rw [← entries_eq hconn, newReplied, hpc, unreplied, hpc]
    rfl
  refine ⟨trivial, fun id' => ?_, ?_, fun id' => ?_, rfl⟩
  · have hsame : (Function.update conns id d id').position = (conns id').position := by
      by_cases hid : id' = id
      · rw [hid, Function.update_self, hposition]
      · rw [Function.update_of_ne hid]
    rw [unlogged, hpc]
    exact ⟨0, hsame⟩
  · rw [hreplied, unreplied, hpc, ← entries_eq hconn]
    exact (List.append_nil _).symm
  · rw [hreplied]
    change (Function.update conns id d id').sent = _
    by_cases hid : id' = id
    · rw [hid, Function.update_self, hsent, h.wordBytes_eq]
      simp [Core.replies]
    · rw [Function.update_of_ne hid, replies_eq_nil (by simpa using Ne.symm hid), List.append_nil]

lemma Steps.accounted (hsteps : c.Steps h pid conns e c' a) (hc : c.Connected)
    (hcalls : ¬ (c.clientCallFails h conns e = true ∨ c.otherCallFails e = true))
    (halloc : ∀ n, h.alloc n = true) (hwhole : c.RepliesWhole conns) :
    c.Accounted conns a header c' := by
  cases hsteps with
  | start hpc hgogo | recvMsg hpc hfd =>
    exact accounted_of_quiet rfl rfl rfl rfl (by rw [newReplied, hpc]) trivial
      (by rw [unlogged, unlogged, hpc]) (by rw [unreplied, unreplied, hpc])
  | leave hpc hgogo | waitRead hpc | close hpc =>
    exact accounted_of_quiet rfl rfl rfl rfl (by rw [newReplied, hpc]) trivial
      (by rw [unlogged, unlogged, hpc]; rfl) (by rw [unreplied, unreplied, hpc]; rfl)
  | @postWrite received hpc =>
    refine accounted_of_quiet rfl rfl rfl rfl (by rw [newReplied, hpc]) ?_ ?_ ?_
    · cases received <;> trivial
    · rw [unlogged, unlogged, hpc]
      cases received <;> rfl
    · rw [unreplied, unreplied, hpc]
      cases received <;> rfl
  | @peerName addr id hpc hfd =>
    refine accounted_of_quiet rfl rfl rfl rfl (by rw [newReplied, hpc]) ?_ ?_ ?_
    · rw [Connected]
      split_ifs <;> trivial
    · rw [unlogged, unlogged, hpc]
      split_ifs <;> rfl
    · rw [unreplied, unreplied, hpc]
      split_ifs <;> rfl
  | @header prior id n t r d buffer hpc hconn hrecv hlen =>
    cases r with
    | error err => cases hlen
    | ok bs => exact accounted_of_header _ hpc hconn hrecv
  | payload hpc hconn hbody => exact accounted_of_payload _ hpc hconn hbody
  | @payloadEnd prior id n k b t buffer s hpc hconn hbody =>
    obtain rfl := payloadBody_ends hbody
    exact accounted_of_quiet rfl rfl rfl rfl (by rw [newReplied, hpc])
      (Option.ne_none_iff_exists'.mpr ⟨id, hconn⟩) (by rw [unlogged, unlogged, hpc]; rfl)
      (by rw [unreplied, unreplied, hpc]; rfl)
  | waitPipe hpc | writePipe hpc | waitLog hpc =>
    rw [Connected, hpc] at hc
    exact accounted_of_quiet rfl rfl rfl rfl (by rw [newReplied, hpc]) hc
      (by rw [unlogged, unlogged, hpc]; rfl) (by rw [unreplied, unreplied, hpc]; rfl)
  | postLog hpc => exact accounted_of_postLog _ hpc hc
  | reply hpc hconn hsend => exact accounted_of_reply _ hpc hconn hsend hwhole
  | signal =>
    refine accounted_of_quiet rfl rfl rfl rfl ?_ hc rfl rfl
    rw [newReplied]
    split
    · rename_i hpc hpc'
      rw [hpc] at hpc'
      cases hpc'
    · rfl
  | unconnected hpc hconn => exact (hcalls (.inl (clientCallFails_of_unconnected hpc hconn))).elim
  | headerFail hpc hconn hrecv hlen =>
    obtain hfail | ⟨n, hn⟩ := fails_of_headerFail hpc hconn hrecv hlen
    · exact (hcalls (.inl hfail)).elim
    · rw [halloc] at hn
      cases hn
  | payloadFail hpc hconn hbody =>
    refine (hcalls (.inl ?_)).elim
    simp [clientCallFails, hpc, hconn, hbody, Except.isOk, Except.toBool]
  | replyFail hpc hconn hsend =>
    refine (hcalls (.inl ?_)).elim
    simp [clientCallFails, hpc, hconn, hsend, Except.isOk, Except.toBool]
  | interrupted hpc => exact (hcalls otherCallFails_or).elim
  | recvMsgFail hpc => exact (hcalls otherCallFails_or).elim
  | callFail hpc => exact (hcalls otherCallFails_or).elim

end Child

namespace System

def unlogged (s : System M N) (g : Audit N) : Multiset Entry :=
  ∑ i, ((s.children i).unlogged (g.header i) : Multiset Entry)

def unreplied (s : System M N) (g : Audit N) : Multiset Entry :=
  ∑ i, ((s.children i).unreplied (g.header i) : Multiset Entry)

def noteAudit (h : Host) (s : System M N) (e : Event M N) (g : Audit N) : Audit N :=
  match e with
  | .child i e =>
    match (s.children i).step h i s.conns e with
    | some (c, a) =>
      { header := Function.update g.header i ((s.children i).newHeader s.conns a (g.header i))
        logged := g.logged ++ (s.children i).newLogged a (g.header i)
        replied := g.replied ++ (s.children i).newReplied c (g.header i) }
    | none => g
  | _ => g

def AuditEvent (h : Host) (s : System M N) : Event M N → Prop
  | .child i e => ¬ ((s.children i).clientCallFails h s.conns e = true ∨
      (s.children i).otherCallFails e = true) ∧ (s.children i).RepliesWhole s.conns
  | _ => True

instance (h : Host) (s : System M N) : (e : Event M N) → Decidable (s.AuditEvent h e)
  | .child _ _ => inferInstanceAs (Decidable (_ ∧ _))
  | .parent _ | .deliver _ _ | .hangup _ => .isTrue trivial

/-- Every byte received on a connection is in a row or with a child, but that the count of a message
is taken modulo `2 ^ 32`; every row has its reply or a child that is about to send it. -/
structure Accounted (s : System M N) (g : Audit N) : Prop where
  rows : s.rows.map LogRow.bytes = g.logged.map Entry.bytes
  taken : ∀ id, ∃ w, (s.conns id).position = taken id (g.logged + s.unlogged g) + 2 ^ 32 * w
  replied : (g.logged : Multiset Entry) = g.replied + s.unreplied g
  sent : ∀ id, (s.conns id).sent = replies id g.replied

variable {h : Host} {s s' t : System M N} {g : Audit N} {i : Fin N} {c : Child} {a : Action}
  {e : Event M N}

lemma act_conns (hact : s.act a = some s') : s'.conns = a.conns s.conns := by
  cases acts_of_act hact <;> rfl

lemma Accounted.childStep [NeZero M] {e : ChildEvent} (hs : s.Accounted g)
    (hc : ∀ i, (s.children i).Connected) (halloc : ∀ n, h.alloc n = true)
    (he : s.AuditEvent h (.child i e)) (hstep : s.step h (.child i e) = some t) :
    t.Accounted (s.noteAudit h (.child i e) g) ∧ ∀ i, (t.children i).Connected := by
  obtain ⟨c, a, s', hc', hs', rfl⟩ := acted_of_step hstep
  have hchild : (s.children i).Accounted s.conns a (g.header i) c :=
    (Child.steps_of_step hc').accounted (hc i) he.1 halloc he.2
  obtain ⟨-, hchildren, -⟩ := act_frame hs'
  have hnote : s.noteAudit h (.child i e) g =
      { header := Function.update g.header i ((s.children i).newHeader s.conns a (g.header i))
        logged := g.logged ++ (s.children i).newLogged a (g.header i)
        replied := g.replied ++ (s.children i).newReplied c (g.header i) } := by
    simp only [noteAudit, hc']
  have hacted : s'.conns = a.conns s.conns := act_conns hs'
  have hconns : ∀ id, (s'.setChild i c).conns id = a.conns s.conns id := congrFun hacted
  have hunlogged : (s'.setChild i c).unlogged (s.noteAudit h (.child i e) g) +
      (s.children i).unlogged (g.header i) = s.unlogged g +
        c.unlogged ((s.children i).newHeader s.conns a (g.header i)) := by
    rw [hnote, unlogged, setChild, hchildren]
    exact sum_update₂ (fun (c : Child) n => (c.unlogged n : Multiset Entry)) _ _ _ _ _
  have hunreplied : (s'.setChild i c).unreplied (s.noteAudit h (.child i e) g) +
      (s.children i).unreplied (g.header i) = s.unreplied g +
        c.unreplied ((s.children i).newHeader s.conns a (g.header i)) := by
    rw [hnote, unreplied, setChild, hchildren]
    exact sum_update₂ (fun (c : Child) n => (c.unreplied n : Multiset Entry)) _ _ _ _ _
  refine ⟨⟨?_, fun id => ?_, ?_, fun id => ?_⟩, fun j => ?_⟩
  · rw [hnote]
    change s'.rows.map _ = List.map _ (_ ++ _)
    rw [act_rows hs', List.map_append, List.map_append, hs.rows, hchild.rows]
  · obtain ⟨w, hw⟩ := hs.taken id
    obtain ⟨w', hw'⟩ := hchild.taken id
    have hsum := congrArg (Core.taken id) hunlogged
    have hlogged : Core.taken id (s.noteAudit h (.child i e) g).logged =
        Core.taken id g.logged + Core.taken id ((s.children i).newLogged a (g.header i)) := by
      rw [hnote, ← taken_add, Multiset.coe_add]
    rw [taken_add, taken_add] at hsum
    rw [taken_add] at hw
    rw [hconns, taken_add, hlogged]
    exact ⟨w + w', by omega⟩
  · have hsettled := congrArg (fun l : List Entry => (l : Multiset Entry)) hchild.settled
    simp only [← Multiset.coe_add] at hsettled
    have hlogged : ((s.noteAudit h (.child i e) g).logged : Multiset Entry) =
        g.logged + (s.children i).newLogged a (g.header i) := by
      rw [hnote, ← Multiset.coe_add]
    have hreplied : ((s.noteAudit h (.child i e) g).replied : Multiset Entry) =
        g.replied + (s.children i).newReplied c (g.header i) := by
      rw [hnote, ← Multiset.coe_add]
    refine add_right_cancel (b := ((s.children i).unreplied (g.header i) : Multiset Entry)) ?_
    rw [hlogged, hreplied, add_assoc, hsettled, hs.replied, add_assoc (g.replied + _ : Multiset Entry),
      hunreplied]
    abel
  · rw [hconns, hchild.sent, hs.sent, hnote, replies_append]
  · change (Function.update s'.children i c j).Connected
    rw [hchildren]
    by_cases hj : j = i
    · rw [hj, Function.update_self]
      exact hchild.connected
    · rw [Function.update_of_ne hj]
      exact hc j

lemma Accounted.same (hs : s.Accounted g) (hrows : t.rows = s.rows)
    (hchildren : t.children = s.children)
    (hconns : ∀ id, Counts (s.conns id) 0 (t.conns id)) : t.Accounted g where
  rows := hrows ▸ hs.rows
  taken id := by
    rw [(hconns id).position, unlogged, hchildren]
    exact hs.taken id
  replied := by
    rw [unreplied, hchildren]
    exact hs.replied
  sent id := (hconns id).sent.trans (hs.sent id)

lemma Accounted.step [NeZero M] (hs : s.Accounted g) (hc : ∀ i, (s.children i).Connected)
    (halloc : ∀ n, h.alloc n = true) (he : s.AuditEvent h e) (hstep : s.step h e = some t) :
    t.Accounted (s.noteAudit h e g) ∧ ∀ i, (t.children i).Connected := by
  cases e with
  | child i e => exact hs.childStep hc halloc he hstep
  | parent e =>
    obtain ⟨p, s', -, hcall, rfl⟩ := parent_of_step hstep
    have hchildren : s'.children = s.children := (called hcall).children
    have hconns : s'.conns = s.conns := by cases calls_of_call hcall <;> rfl
    refine ⟨hs.same (call_frame hcall).1 hchildren fun id => ?_, ?_⟩
    · change Counts _ 0 (s'.conns id)
      rw [hconns]
      exact .refl _
    · change ∀ i, (s'.children i).Connected
      rw [hchildren]
      exact hc
  | deliver id bytes =>
    obtain rfl := Option.some.inj hstep
    exact ⟨hs.same rfl rfl (counts_update (counts_deliver bytes _)), hc⟩
  | hangup id =>
    obtain rfl := Option.some.inj hstep
    exact ⟨hs.same rfl rfl (counts_update (counts_hangup _)), hc⟩

lemma initial_accounted (listenFd pipeFd : ℤ) (others childOthers : ℤ → Bool) {conns : ℕ → Conn}
    (hfresh : ∀ id, (conns id).position = 0 ∧ (conns id).sent = []) :
    (initial listenFd pipeFd others childOthers conns : System M N).Accounted {} where
  rows := rfl
  taken id := by
    have hnone : (initial listenFd pipeFd others childOthers conns : System M N).unlogged {} = 0 :=
      Finset.sum_eq_zero fun _ _ => rfl
    rw [hnone]
    exact ⟨0, (hfresh id).1⟩
  replied := by
    have hnone : (initial listenFd pipeFd others childOthers conns : System M N).unreplied {} = 0 :=
      Finset.sum_eq_zero fun _ _ => rfl
    rw [hnone]
    rfl
  sent id := (hfresh id).2

lemma accounted [NeZero M] {listenFd pipeFd : ℤ} {others childOthers : ℤ → Bool} {conns : ℕ → Conn}
    (hfresh : ∀ id, (conns id).position = 0 ∧ (conns id).sent = [])
    (halloc : ∀ n, h.alloc n = true)
    (hr : ((machine h).observe (noteAudit h)).Reaches (fun p e => p.1.AuditEvent h e)
      (initial listenFd pipeFd others childOthers conns, {}) (s, g)) : s.Accounted g := by
  have hinv : s.Accounted g ∧ ∀ i, (s.children i).Connected := by
    refine hr.invariant (I := fun q => q.1.Accounted q.2 ∧ ∀ i, (q.1.children i).Connected)
      ⟨initial_accounted listenFd pipeFd others childOthers hfresh, fun _ => trivial⟩ ?_
    rintro a e b ⟨ha, hc⟩ he hstep
    obtain ⟨hb, hg⟩ := Machine.step_observe hstep
    rw [hg]
    exact ha.step hc halloc he hb
  exact hinv.1

end System

end ScalableServer.ProcessServer
