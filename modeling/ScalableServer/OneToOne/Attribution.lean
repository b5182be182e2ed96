import ScalableServer.OneToOne.RunServer

/-! `peers n` is the address of the peer of the `n`th connection. `accept` puts it into a local
variable of `accept_conn`, and `client_addr` of the state keeps the zeros of `calloc`. -/

namespace ScalableServer.OneToOne

open ScalableServer.Foundations ScalableServer.Core

def LogRow.client (row : LogRow) : SockAddr := ⟨row.clientAddr, row.clientPort⟩

structure Sources where
  numAccepted : ℕ := 0
  rows : List SockAddr := []

def rowsOf (h : Host) (s : Server) (calls : Calls) (c : Conn) : List LogRow :=
  ((handleClient h s.so calls.prior calls.t { c with signalled := s.signalled }).map
    fun r => r.2.rows).getD []

def noteSources (h : Host) (peers : ℕ → SockAddr) (s : Server) (e : Event) (g : Sources) : Sources :=
  match e with
  | .pass calls =>
    match acceptConn s calls with
    | (_, .error _) => g
    | (s, .ok c) =>
      { numAccepted := g.numAccepted + 1
        rows := g.rows ++ (rowsOf h s calls c).map fun _ => peers g.numAccepted }
  | .signal => g

def Attributed (s : Server) (g : Sources) : Prop := s.rows.map LogRow.client = g.rows

variable {h : Host} {so : StateObject} {s t : Server} {g : Sources} {c : Conn} {listenFd : ℤ}

lemma receiveMessage_client {prior : ℕ} {ti : Timing} {r : Received}
    (hr : receiveMessage h so prior ti c = some r) : ∀ row ∈ r.rows, row.client = so.clientAddr := by
  rw [receiveMessage] at hr
  split at hr
  · cases hr
  · split at hr
    · cases hr
    · obtain rfl := Option.some.inj hr
      simp
    · obtain rfl := Option.some.inj hr
      simp
    · simp only at hr
      split at hr
      · cases hr
      · obtain ⟨-, -, rfl⟩ := Option.map_eq_some_iff.mp hr
        intro row hrow
        obtain rfl := List.mem_singleton.mp hrow
        rfl
      · obtain rfl := Option.some.inj hr
        simp
  · obtain rfl := Option.some.inj hr
    simp

lemma handleClient_client {prior : ℕ → ℕ} {ti : ℕ → Timing} {r : ClientResult × Client}
    (hr : handleClient h so prior ti c = some r) : ∀ row ∈ r.2.rows, row.client = so.clientAddr := by
  let I : Client → Prop := fun x => ∀ row ∈ x.rows, row.client = so.clientAddr
  refine iterate_keeps (I := I) (Q := fun r => I r.2) (fun x hx => ?_) (by simp [I]) hr
  rw [handleClientBody]
  cases hreceive : receiveMessage h so (prior x.calls) (ti x.calls) x.conn with
  | none => trivial
  | some q =>
    have hrows : ∀ row ∈ x.rows ++ q.rows, row.client = so.clientAddr := by
      intro row hrow
      rcases List.mem_append.mp hrow with hrow | hrow
      · exact hx row hrow
      · exact receiveMessage_client hreceive row hrow
    cases hresult : q.result <;> simp only [hresult] <;> exact hrows

structure Zeroed (s : Server) (g : Sources) : Prop where
  clientAddr : s.so.clientAddr = {}
  rows : s.rows.map LogRow.client = g.rows.map fun _ => {}

lemma acceptConn_clientAddr (s : Server) (calls : Calls) :
    (acceptConn s calls).1.so.clientAddr = s.so.clientAddr ∧ (acceptConn s calls).1.rows = s.rows := by
  rw [acceptConn]
  split
  · simp only
    split <;> exact ⟨rfl, rfl⟩
  · exact ⟨rfl, rfl⟩

lemma Zeroed.step {peers : ℕ → SockAddr} {e : Event} (hz : Zeroed s g)
    (hstep : step h s e = some t) : Zeroed t (noteSources h peers s e g) := by
  cases e with
  | signal =>
    obtain rfl := Option.some.inj hstep
    exact ⟨hz.clientAddr, hz.rows⟩
  | pass calls =>
    rw [OneToOne.step] at hstep
    split_ifs at hstep
    obtain ⟨hclient, hrows⟩ := acceptConn_clientAddr s calls
    rcases haccept : acceptConn s calls with ⟨a, r | c⟩ <;> rw [haccept] at hclient hrows
    · have hnote : noteSources h peers s (.pass calls) g = g := by simp only [noteSources, haccept]
      simp only [pass, haccept, Option.some.injEq] at hstep
      rw [hnote, ← hstep]
      exact ⟨hclient.trans hz.clientAddr, (congrArg _ hrows).trans hz.rows⟩
    · simp only [pass, haccept] at hstep
      obtain ⟨⟨r, client⟩, hhandle, rfl⟩ := Option.map_eq_some_iff.mp hstep
      have hnote : noteSources h peers s (.pass calls) g =
          { numAccepted := g.numAccepted + 1
            rows := g.rows ++ client.rows.map fun _ => peers g.numAccepted } := by
        simp only [noteSources, haccept, rowsOf, hhandle, Option.map_some, Option.getD_some]
      have hzero := hclient.trans hz.clientAddr
      have hbefore : a.rows.map LogRow.client = g.rows.map fun _ => {} :=
        (congrArg _ hrows).trans hz.rows
      have hclients : client.rows.map LogRow.client = client.rows.map fun _ => {} := by
        refine List.map_congr_left fun row hrow => ?_
        exact (handleClient_client hhandle row hrow).trans hzero
      rw [hnote]
      refine ⟨hzero, ?_⟩
      simp only [List.map_append, hbefore, hclients, List.map_map]
      rfl

lemma attributed_iff {peers : ℕ → SockAddr}
    (hr : ((server h).observe (noteSources h peers)).Reaches (fun _ _ => True)
      (initial listenFd, {}) (s, g)) : Attributed s g ↔ ∀ peer ∈ g.rows, peer = {} := by
  have hz : Zeroed s g := by
    refine hr.invariant (I := fun q => Zeroed q.1 q.2) ⟨rfl, rfl⟩ ?_
    rintro a e b ha - hstep
    obtain ⟨hb, hg⟩ := Machine.step_observe hstep
    rw [hg]
    exact ha.step hb
  rw [Attributed, hz.rows]
  constructor
  · intro heq peer hpeer
    rw [← heq] at hpeer
    obtain ⟨-, -, rfl⟩ := List.mem_map.mp hpeer
    rfl
  · intro hzero
    conv_rhs => rw [← List.map_id g.rows]
    exact List.map_congr_left fun peer hpeer => (hzero peer hpeer).symm

end ScalableServer.OneToOne
