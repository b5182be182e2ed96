import ScalableServer.Core.RunCore
import ScalableServer.Foundations.Updates
import ScalableServer.PollServer.ExecutePoll

namespace ScalableServer.PollServer

open ScalableServer.Foundations ScalableServer.Core

def initializeServer (listen : Except Errno ℤ) (others : ℤ → Bool) : ServerStates × Server :=
  match listen with
  | .error _ => (.error, initial 0 others)
  | .ok listenFd => (.runServer, initial listenFd others)

def runResult (s : Server) : Option ServerStates :=
  match s.pc with
  | .returned ret => some (if ret = -1 then .error else .closeServer)
  | _ => none

def runServer (h : Host) (es : List Event) (s : Server) : Option (ServerStates × Server) :=
  ((server h).run es s).bind fun t => (runResult t).map fun next => (next, t)

def destroyPollState (s : Server) : Server :=
  { s with
    fds := (List.finRange maxConnections).foldl
      (fun fds i => Function.update fds (s.so.clientFd i) none)
      (Function.update s.fds s.so.listenFd none) }

def closeServer (s : Server) : ServerStates × Server := (.exit, destroyPollState s)

def api (h : Host) (listen : Except Errno ℤ) (others : ℤ → Bool) (es : List Event) :
    Api Server where
  initializeServer _ := some (initializeServer listen others)
  runServer := runServer h es
  closeServer s := some (closeServer s)

variable {h : Host} {s t co : Server} {es : List Event} {listenFd : ℤ} {others : ℤ → Bool}

lemma destroyPollState_closed (s : Server) (i : Fin maxConnections) :
    (destroyPollState s).fds (s.so.clientFd i) = none :=
  foldl_update_none s.so.clientFd _ (.inl (List.mem_finRange i))

lemma runCore_returned {ret : ℤ} (hrun : (server h).run es (initial listenFd others) = some t)
    (hpc : t.pc = .returned ret) :
    runCore (some (api h (.ok listenFd) others es)) co =
      some (if ret = -1 then exitFailure else exitSuccess, destroyPollState t) := by
  have hserver : runServer h es (initial listenFd others) =
      some (if ret = -1 then .error else .closeServer, t) := by
    rw [runServer, hrun, Option.bind_some, runResult, hpc]
    rfl
  refine runCore_returns rfl hserver ?_ rfl
  split_ifs
  · exact .inr ⟨rfl, rfl⟩
  · exact .inl ⟨rfl, rfl⟩

end ScalableServer.PollServer
