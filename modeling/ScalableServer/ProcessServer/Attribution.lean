import ScalableServer.ProcessServer.Removals

namespace ScalableServer.ProcessServer

open ScalableServer.Foundations ScalableServer.Core

variable {M N : ℕ}

def LogRow.client (row : LogRow) : SockAddr := ⟨row.clientAddr, row.clientPort⟩

def Fits (socklen : ℕ) (addr : SockAddr) : Prop :=
  256 ^ (4 - (socklen - 4)) ∣ addr.sinAddr ∧ 256 ^ (2 - (socklen - 2)) ∣ addr.sinPort

instance (socklen : ℕ) (addr : SockAddr) : Decidable (Fits socklen addr) :=
  inferInstanceAs (Decidable (_ ∧ _))

lemma clearLow_eq_iff {k n : ℕ} : clearLow k n = n ↔ 256 ^ k ∣ n :=
  ⟨fun h => ⟨n / 256 ^ k, by rw [mul_comm]; exact h.symm⟩, Nat.div_mul_cancel⟩

lemma storeName_eq_iff {socklen : ℕ} {addr : SockAddr} :
    storeName socklen addr = addr ↔ Fits socklen addr := by
  rw [Fits, ← clearLow_eq_iff, ← clearLow_eq_iff]
  obtain ⟨sinAddr, sinPort⟩ := addr
  exact SockAddr.mk.injEq .. ▸ Iff.rfl

def ChildEvent.NameFits : ChildEvent → Prop
  | .received ⟨_, .accepted addr _⟩ _ socklen => Fits socklen addr
  | _ => True

def Event.NameFits : Event M N → Prop
  | .child _ e => e.NameFits
  | _ => True

instance : (e : ChildEvent) → Decidable e.NameFits
  | .received ⟨_, .accepted addr _⟩ _ socklen => inferInstanceAs (Decidable (Fits socklen addr))
  | .received ⟨_, .other⟩ _ _ | .run _ _ | .ok | .fail _ | .signal => .isTrue trivial

instance : (e : Event M N) → Decidable e.NameFits
  | .child _ e => inferInstanceAs (Decidable e.NameFits)
  | .parent _ | .deliver _ _ | .hangup _ => .isTrue trivial

structure Sources (N : ℕ) where
  peers : List SockAddr := []
  reads : Fin N → List ℕ := fun _ => []
  rows : List (List ℕ) := []

def ParentEvent.acceptedPeers : ParentEvent M → List SockAddr
  | .accept (.ok (_, addr, _)) => [addr]
  | _ => []

def Action.logged : Action → List LogRow
  | .postLog row => [row]
  | _ => []

def Descriptor.PeerIn (peers : List SockAddr) : Descriptor → Prop
  | .accepted addr id => peers[id]? = some addr
  | .other => True

namespace Child

def readFrom (c : Child) (a : Action) (ids : List ℕ) : List ℕ :=
  match a, c.pc with
  | .recvMsg _, _ => []
  | .transfer _ _, .reply _ => ids
  | .transfer id _, _ => ids ++ [id]
  | _, _ => ids

def Follows (c : Child) (ids : List ℕ) : Prop :=
  match c.pc with
  | .postWrite true | .peerName => ids = [] ∧
      ∀ addr id, c.fds c.child.clientFdLocal = some (.accepted addr id) → Fits c.socklen addr
  | .header => ids = [] ∧
      ∃ id, c.fds c.child.clientFdLocal = some (.accepted c.child.clientAddr id)
  | .payload _ _ _ _ | .waitPipe _ | .writePipe _ | .waitLog _ | .postLog _ => ids ≠ [] ∧
      ∃ id, c.fds c.child.clientFdLocal = some (.accepted c.child.clientAddr id) ∧ ∀ x ∈ ids, x = id
  | _ => True

variable {h : Host} {pid : ℕ} {conns : ℕ → Conn} {c c' : Child} {e : ChildEvent} {a : Action}
  {ids : List ℕ}

lemma conn_of_fds {addr : SockAddr} {id id' : ℕ}
    (hfd : c.fds c.child.clientFdLocal = some (.accepted addr id)) (hconn : c.conn = some id') :
    id' = id := by
  rw [conn, hfd] at hconn
  exact (Option.some.inj hconn).symm

lemma Steps.follows (hsteps : c.Steps h pid conns e c' a) (hc : c.Follows ids)
    (hfits : e.NameFits) : c'.Follows (c.readFrom a ids) := by
  cases hsteps with
  | @recvMsg m fd socklen hpc hfd =>
    refine ⟨rfl, fun addr id haddr => ?_⟩
    change Function.update c.fds fd (some m.descriptor) fd = _ at haddr
    rw [Function.update_self] at haddr
    obtain ⟨number, descriptor⟩ := m
    obtain rfl := Option.some.inj haddr
    exact hfits
  | @postWrite received hpc =>
    cases received with
    | false => trivial
    | true =>
      rw [Follows, hpc] at hc
      exact hc
  | @peerName addr id hpc hfd =>
    rw [Follows, hpc] at hc
    by_cases herrno : c.errno = some .EINTR
    · simp only [Follows, if_pos herrno]
    · simp only [Follows, if_neg herrno]
      refine ⟨hc.1, id, ?_⟩
      rw [storeName_eq_iff.mpr (hc.2 addr id hfd)]
      exact hfd
  | @header prior id n t r d buffer hpc hconn hrecv hlen =>
    rw [Follows, hpc] at hc
    obtain ⟨rfl, id', hfd⟩ := hc
    have hreads : c.readFrom (.transfer id d) [] = [id] := by
      simp only [readFrom, hpc, List.nil_append]
    rw [hreads]
    refine ⟨List.cons_ne_nil _ _, id', hfd, fun x hx => ?_⟩
    rw [List.mem_singleton.mp hx, conn_of_fds hfd hconn]
  | @payload prior id n k b t buffer s hpc hconn hbody =>
    rw [Follows, hpc] at hc
    obtain ⟨-, id', hfd, hids⟩ := hc
    have hreads : c.readFrom (.transfer id s.conn) ids = ids ++ [id] := by simp only [readFrom, hpc]
    rw [hreads]
    refine ⟨by simp, id', hfd, fun x hx => ?_⟩
    rcases List.mem_append.mp hx with hx | hx
    · exact hids x hx
    · rw [List.mem_singleton.mp hx, conn_of_fds hfd hconn]
  | payloadEnd hpc hconn hbody =>
    rw [Follows, hpc] at hc
    exact hc
  | waitPipe hpc | writePipe hpc | waitLog hpc =>
    rw [Follows, hpc] at hc
    exact hc
  | @interrupted err next hpc =>
    by_cases herr : err = .EINTR
    · rw [if_pos herr]
      rcases hpc with ⟨hpc, rfl⟩ | ⟨n, hpc, rfl⟩ | ⟨n, hpc, rfl⟩
      · trivial
      · rw [Follows, hpc] at hc
        exact hc
      · trivial
    · rw [if_neg herr]
      trivial
  | signal => exact hc
  | _ => trivial

lemma Steps.row (hsteps : c.Steps h pid conns e c' a) {row : LogRow} (ha : a = .postLog row) :
    ∃ n t, c.pc = .postLog n ∧ row = cLogRow h pid c.child n t := by
  cases hsteps with
  | @postLog prior n t hpc =>
    cases ha
    exact ⟨n, t, hpc, rfl⟩
  | _ => cases ha

end Child

namespace System

def noteSources (h : Host) (s : System M N) (e : Event M N) (g : Sources N) : Sources N :=
  match e with
  | .parent e => { g with peers := g.peers ++ e.acceptedPeers }
  | .child i e =>
    match (s.children i).step h i s.conns e with
    | some (_, a) =>
      { g with
        reads := Function.update g.reads i ((s.children i).readFrom a (g.reads i))
        rows := g.rows ++ a.logged.map fun _ => g.reads i }
    | none => g
  | _ => g

def Carries (peers : List SockAddr) (row : LogRow) (ids : List ℕ) : Prop :=
  ids ≠ [] ∧ ∀ id ∈ ids, peers[id]? = some row.client

def Attributed (s : System M N) (g : Sources N) : Prop :=
  List.Forall₂ (Carries g.peers) s.rows g.rows

structure Addressed (s : System M N) (g : Sources N) : Prop where
  numbered : g.peers.length = s.nextConn
  parent : ∀ fd d, s.parent.fds fd = some d → d.PeerIn g.peers
  domain : ∀ m ∈ s.domain, m.descriptor.PeerIn g.peers
  child : ∀ i fd d, (s.children i).fds fd = some d → d.PeerIn g.peers
  follows : ∀ i, (s.children i).Follows (g.reads i)
  attributed : s.Attributed g

variable {h : Host} {s s' t : System M N} {g : Sources N} {i : Fin N} {a : Action}

lemma getElem?_append_of_eq {peers : List SockAddr} {id : ℕ} {addr : SockAddr}
    (h : peers[id]? = some addr) (more : List SockAddr) : (peers ++ more)[id]? = some addr := by
  obtain ⟨hlt, -⟩ := List.getElem?_eq_some_iff.mp h
  rw [List.getElem?_append_left hlt, h]

lemma peerIn_append {d : Descriptor} {peers : List SockAddr} (hd : d.PeerIn peers)
    (more : List SockAddr) : d.PeerIn (peers ++ more) := by
  cases d with
  | accepted addr id => exact getElem?_append_of_eq hd more
  | other => trivial

lemma call_frame {e : ParentEvent M} (hcall : s.call e = some s') :
    s'.rows = s.rows ∧ s'.nextConn = s.nextConn + e.acceptedPeers.length := by
  cases calls_of_call hcall <;> exact ⟨rfl, rfl⟩

lemma act_rows (hact : s.act a = some s') : s'.rows = s.rows ++ a.logged := by
  cases acts_of_act hact with
  | postLog row => rfl
  | _ => exact (List.append_nil _).symm

lemma Addressed.parentStep [NeZero M] {e : ParentEvent M} (hs : s.Addressed g)
    (hstep : s.step h (.parent e) = some t) : t.Addressed (s.noteSources h (.parent e) g) := by
  obtain ⟨u, s', hu, hcall, rfl⟩ := parent_of_step hstep
  obtain ⟨hrows, hnext⟩ := call_frame hcall
  have hchildren := (called hcall).children
  refine ⟨?_, fun fd d hd => ?_, fun m hm => ?_, fun i fd d hd => ?_, fun i => ?_, ?_⟩
  · change (g.peers ++ e.acceptedPeers).length = s'.nextConn
    rw [List.length_append, hs.numbered, hnext]
  · rcases (Parent.moves_of_step hu).opened hd with hd | ⟨addr, conn, rfl, rfl⟩
    · exact peerIn_append (hs.parent fd d hd) _
    · -- a new connection has the number of the next peer
      obtain ⟨rfl, -⟩ := (called hcall).accepted fd addr conn rfl
      change (g.peers ++ [addr])[s.nextConn]? = some addr
      rw [← hs.numbered, List.getElem?_concat_length]
  · rcases (call_uses hcall).2 m hm with hm | ⟨-, hsent⟩
    · exact peerIn_append (hs.domain m hm) _
    · obtain ⟨fd, -, hd⟩ := Option.bind_eq_some_iff.mp hsent
      exact peerIn_append (hs.parent fd _ hd) _
  · change (s'.children i).fds fd = some d at hd
    rw [hchildren] at hd
    exact peerIn_append (hs.child i fd d hd) _
  · change (s'.children i).Follows (g.reads i)
    rw [hchildren]
    exact hs.follows i
  · change List.Forall₂ (Carries (g.peers ++ e.acceptedPeers)) s'.rows g.rows
    rw [hrows]
    refine hs.attributed.imp fun row ids hcarries => ⟨hcarries.1, fun id hid => ?_⟩
    exact getElem?_append_of_eq (hcarries.2 id hid) _

lemma Addressed.carries {e : ChildEvent} {c : Child} (hs : s.Addressed g)
    (hsteps : (s.children i).Steps h i s.conns e c a) :
    List.Forall₂ (Carries g.peers) a.logged (a.logged.map fun _ => g.reads i) := by
  cases a with
  | postLog row =>
    refine .cons ?_ .nil
    obtain ⟨n, ti, hpc, rfl⟩ := hsteps.row rfl
    have hfollows := hs.follows i
    rw [Child.Follows, hpc] at hfollows
    obtain ⟨hne, id, hfd, hids⟩ := hfollows
    refine ⟨hne, fun x hx => ?_⟩
    rw [hids x hx]
    exact hs.child i _ _ hfd
  | _ => exact .nil

lemma Addressed.childStep [NeZero M] {e : ChildEvent} (hs : s.Addressed g) (hfits : e.NameFits)
    (hstep : s.step h (.child i e) = some t) : t.Addressed (s.noteSources h (.child i e) g) := by
  obtain ⟨c, a, s', hc, hs', rfl⟩ := acted_of_step hstep
  have hsteps := Child.steps_of_step hc
  obtain ⟨hdomain, htaken, -⟩ := act_uses hs'
  obtain ⟨hparent, hchildren, hnext⟩ := act_frame hs'
  have hnote : s.noteSources h (.child i e) g =
      { g with
        reads := Function.update g.reads i ((s.children i).readFrom a (g.reads i))
        rows := g.rows ++ a.logged.map fun _ => g.reads i } := by
    simp only [noteSources, hc]
  rw [hnote]
  refine ⟨hs.numbered.trans hnext.symm, fun fd d hd => ?_, fun m hm => hs.domain m (hdomain m hm),
    fun j fd d hd => ?_, fun j => ?_, ?_⟩
  · change s'.parent.fds fd = some d at hd
    rw [hparent] at hd
    exact hs.parent fd d hd
  · change (Function.update s'.children i c j).fds fd = some d at hd
    by_cases hj : j = i
    · rw [hj, Function.update_self] at hd
      rcases hsteps.uses.fds fd d hd with hd | ⟨m, rfl, rfl⟩
      · exact hs.child i fd d hd
      · exact hs.domain m (htaken m rfl)
    · rw [Function.update_of_ne hj, hchildren] at hd
      exact hs.child j fd d hd
  · change (Function.update s'.children i c j).Follows (Function.update g.reads i _ j)
    by_cases hj : j = i
    · rw [hj, Function.update_self, Function.update_self]
      exact hsteps.follows (hs.follows i) hfits
    · rw [Function.update_of_ne hj, Function.update_of_ne hj, hchildren]
      exact hs.follows j
  · change List.Forall₂ (Carries g.peers) s'.rows _
    rw [act_rows hs']
    exact List.rel_append hs.attributed (hs.carries hsteps)

lemma Addressed.step [NeZero M] {e : Event M N} (hs : s.Addressed g) (hfits : e.NameFits)
    (hstep : s.step h e = some t) : t.Addressed (s.noteSources h e g) := by
  cases e with
  | parent e => exact hs.parentStep hstep
  | child i e => exact hs.childStep hfits hstep
  | deliver id bytes | hangup id =>
    obtain rfl := Option.some.inj hstep
    exact ⟨hs.numbered, hs.parent, hs.domain, hs.child, hs.follows, hs.attributed⟩

lemma initial_addressed (listenFd pipeFd : ℤ) (others childOthers : ℤ → Bool)
    (conns : ℕ → Conn) :
    (initial listenFd pipeFd others childOthers conns : System M N).Addressed {} := by
  have hother : ∀ (open' : ℤ → Bool) (fd : ℤ) (d : Descriptor),
      (if open' fd then some Descriptor.other else none) = some d → d.PeerIn [] := by
    intro open' fd d hd
    split_ifs at hd
    obtain rfl := Option.some.inj hd
    trivial
  exact ⟨rfl, hother others, fun m hm => (List.not_mem_nil hm).elim, fun _ => hother childOthers,
    fun _ => trivial, .nil⟩

lemma attributed [NeZero M] {listenFd pipeFd : ℤ} {others childOthers : ℤ → Bool} {conns : ℕ → Conn}
    (hr : ((machine h).observe (noteSources h)).Reaches (fun _ e => e.NameFits)
      (initial listenFd pipeFd others childOthers conns, {}) (s, g)) : s.Attributed g := by
  have hinv : s.Addressed g := by
    refine hr.invariant (I := fun q => q.1.Addressed q.2)
      (initial_addressed listenFd pipeFd others childOthers conns) ?_
    rintro a e b ha hfits hstep
    obtain ⟨hb, hg⟩ := Machine.step_observe hstep
    rw [hg]
    exact ha.step hfits hb
  exact hinv.attributed

end System

end ScalableServer.ProcessServer
