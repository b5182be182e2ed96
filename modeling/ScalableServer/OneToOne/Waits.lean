import ScalableServer.OneToOne.RunServer

/-! Where a visit of the one-to-one server does not return: in a `select` while the client is silent
and no signal has come, or, whether or not one has, in the `recv` of a header of which only a part
has come, which waits for all of it. -/

namespace ScalableServer.OneToOne

open ScalableServer.Foundations ScalableServer.Core

def SelectWaits (c : Conn) : Prop := c.Silent ∧ (c.signalled || c.selects.head.signal) = false

def HeaderWaits (c : Conn) : Prop := c.closed = false ∧ c.unread ≠ [] ∧ c.unread.length < 4

inductive MessageWaits (h : Host) (prior : ℕ) (c : Conn) : Prop
  | select (hwaits : SelectWaits c)
  | header {d : Conn} (hselect : checkFdMsg c = some (.success, d)) (hwaits : HeaderWaits d)
  | payload {d e : Conn} {header : List UInt8} {s : Payload}
      (hselect : checkFdMsg c = some (.success, d)) (hrecv : d.recvAll 4 = some (.ok header, e))
      (hpasses : Passes receivePayloadBody
        { remainingBytes := h.readWord prior header, conn := e } s)
      (hmore : 0 < s.remainingBytes) (hwaits : SelectWaits s.conn)

def VisitWaits (h : Host) (so : StateObject) (prior : ℕ → ℕ) (t : ℕ → Timing) (c : Conn) : Prop :=
  ∃ s, Passes (handleClientBody h so prior t) { conn := c } s ∧
    MessageWaits h (prior s.calls) s.conn

/-- `accept_conn` gives a connection only while no signal has come. -/
def Waits (h : Host) (s : Server) (calls : Calls) : Prop :=
  ∃ t c, acceptConn s calls = (t, .ok c) ∧
    VisitWaits h t.so calls.prior calls.t { c with signalled := t.signalled }

variable {h : Host} {so : StateObject} {prior : ℕ} {c d : Conn}

end ScalableServer.OneToOne
