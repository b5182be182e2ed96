import ScalableServer.Core.RunCore
import ScalableServer.ProcessServer.System

/-! The parent and the children run in `run_core` one by one, and `run_server` of each is a run of
the whole system, seen in that process. `setup` is the result of `setup_process_server` there, and
`close_server` is taken to return: what these two do outside the loops is in `SetupTeardown`. -/

namespace ScalableServer.ProcessServer

open ScalableServer.Foundations ScalableServer.Core

variable {M N : ℕ}

def runResult (ret : ℤ) : ServerStates := if ret = -1 then .error else .closeServer

def Parent.result (s : Parent M) : Option ServerStates :=
  match s.pc with
  | .returned ret => some (runResult ret)
  | _ => none

def Child.result (c : Child) : Option ServerStates :=
  match c.pc with
  | .returned ret => some (runResult ret)
  | _ => none

inductive Process (N : ℕ)
  | parent
  | child (i : Fin N)

namespace System

def result (s : System M N) : Process N → Option ServerStates
  | .parent => s.parent.result
  | .child i => (s.children i).result

def runServer [NeZero M] (h : Host) (p : Process N) (es : List (Event M N)) (s : System M N) :
    Option (ServerStates × System M N) :=
  ((machine h).run es s).bind fun t => (t.result p).map fun next => (next, t)

def api [NeZero M] (h : Host) (setup : Except Errno (System M N)) (p : Process N)
    (es : List (Event M N)) : Api (System M N) where
  initializeServer co :=
    match setup with
    | .error _ => some (.error, co)
    | .ok s => some (.runServer, s)
  runServer := runServer h p es
  closeServer s := some (.exit, s)

end System

end ScalableServer.ProcessServer
