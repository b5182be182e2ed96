import ScalableServer.ProcessServer.RunServer

/-! The calls of the process server that may wait for ever: those of the parent in `poll`, in the
`read` of the pipe and in `sem_wait`, when the children that would end them have gone, and those of a
child in `sem_wait`, `recvmsg` and `recv`. Every other call returns. -/

namespace ScalableServer.ProcessServer

open ScalableServer.Foundations ScalableServer.Core

variable {M N : ℕ}

def ParentEvent.Succeeds : ParentEvent M → Prop
  | .run | .poll (.ok _) | .accept (.ok _) | .read (.ok _) | .wait (.ok _) | .send (.ok _)
  | .post => True
  | .poll (.error _) | .accept (.error _) | .read (.error _) | .wait (.error _) | .send (.error _)
  | .signal => False

def ChildEvent.Succeeds : ChildEvent → Prop
  | .run _ _ | .ok | .received _ _ _ => True
  | .fail _ | .signal => False

namespace System

/-- Where the process waits for the others, for its client or, in `poll`, for whatever may come. -/
def Waits (s : System M N) : Process N → Prop
  | .parent =>
    match s.parent.pc with
    | .poll => True
    | .readPipe => s.pipe = []
    | .waitWrite _ => s.domainWrite = 0
    | _ => False
  | .child i =>
    match (s.children i).pc with
    | .waitRead => s.domainRead = 0
    | .recvMsg => s.domain = []
    | .header | .payload _ _ _ _ => ∃ id, (s.children i).conn = some id ∧ (s.conns id).Silent
    | .waitPipe _ => s.pipeWrite = 0
    | .waitLog _ => s.logSem = 0
    | _ => False

variable {h : Host} {s : System M N} {p : Process N} {i : Fin N}

variable [NeZero M]

end System

end ScalableServer.ProcessServer
