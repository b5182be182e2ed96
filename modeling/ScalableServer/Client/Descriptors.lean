import ScalableServer.Client.Handle
import ScalableServer.Foundations.Descriptors

/-! A run of a thread is given by what the calls of each pass return, `true` where they succeed. The
result of `close` leads to a message alone, and a thread that is cancelled has no end here. -/

namespace ScalableServer.Client

open ScalableServer.Foundations ScalableServer.Core

structure Outcomes where
  socket : Except Errno ℤ
  connect : Bool := true
  writeSize : Bool := true
  writeData : Bool := true
  read : Bool := true
  doLog : Bool := true

def serverPass (o : Outcomes) (serverSock : ℤ) : PassEnd × List FdEvent :=
  if o.connect = false then (.again, [.closed serverSock])
  else if o.writeSize = false then (.returned, [.closed serverSock])
  else if o.writeData = false then (.returned, [.closed serverSock])
  else if o.read = false then (.returned, [.closed serverSock])
  else (if o.doLog = false then .returned else .again, [.closed serverSock])

/-- A pass, with what `server_sock` holds before and after it. -/
def threadPass (o : Outcomes) (serverSock : ℤ) : PassEnd × ℤ × List FdEvent :=
  match o.socket with
  | .error _ => (.returned, serverSock, [.closed serverSock])
  | .ok fd => ((serverPass o fd).1, fd, .opened fd :: (serverPass o fd).2)

def threadRun : List Outcomes → ℤ → Bool × List (List FdEvent)
  | [], _ => (false, [])
  | o :: os, serverSock =>
    match threadPass o serverSock with
    | (.returned, _, events) => (true, [events])
    | (.again, serverSock, events) =>
      let (returned, passes) := threadRun os serverSock
      (returned, events :: passes)

structure Disciplined (run : Bool × List (List FdEvent)) : Prop where
  own : ∀ events ∈ run.2, ledger [] events ≠ none
  closed : run.1 = true → ClosesAll run.2.flatten

def Outcomes.returns (o : Outcomes) : Bool :=
  !o.socket.isOk || o.connect && !(o.writeSize && o.writeData && o.read && o.doLog)

def made : List Outcomes → List Outcomes
  | [] => []
  | o :: os => if o.returns then [o] else o :: made os

variable {o : Outcomes} {os : List Outcomes} {fd serverSock : ℤ} {h : Host} {a : HandleArgs}
  {calls : HandleCalls} {t : HandleTiming} {c : Conn}

lemma serverPass_events (o : Outcomes) (fd : ℤ) : (serverPass o fd).2 = [.closed fd] := by
  rw [serverPass]
  split_ifs <;> rfl

lemma threadPass_end (o : Outcomes) (serverSock : ℤ) :
    (threadPass o serverSock).1 = if o.returns then .returned else .again := by
  obtain ⟨socket, connect, writeSize, writeData, read, doLog⟩ := o
  cases socket with
  | error e => rfl
  | ok fd => cases connect <;> cases writeSize <;> cases writeData <;> cases read <;> cases doLog <;> rfl

lemma threadPass_closesAll (hsocket : o.socket = .ok fd) :
    ClosesAll (threadPass o serverSock).2.2 := by
  simp only [threadPass, hsocket, serverPass_events]
  simp [ClosesAll, ledger]

lemma threadPass_foreign {e : Errno} (hsocket : o.socket = .error e) :
    ledger [] (threadPass o serverSock).2.2 = none := by
  simp only [threadPass, hsocket]
  exact ledger_foreign List.not_mem_nil

lemma threadRun_returns (hreturns : o.returns = true) :
    threadRun (o :: os) serverSock = (true, [(threadPass o serverSock).2.2]) := by
  have hend := threadPass_end o serverSock
  rw [if_pos hreturns] at hend
  rw [threadRun]
  split
  · rename_i hpass
    rw [hpass]
  · rename_i hpass
    rw [hpass] at hend
    cases hend

lemma threadRun_again (hreturns : ¬ o.returns = true) :
    threadRun (o :: os) serverSock =
      ((threadRun os (threadPass o serverSock).2.1).1,
        (threadPass o serverSock).2.2 :: (threadRun os (threadPass o serverSock).2.1).2) := by
  have hend := threadPass_end o serverSock
  rw [if_neg hreturns] at hend
  rw [threadRun]
  split
  · rename_i hpass
    rw [hpass] at hend
    cases hend
  · rename_i hpass
    rw [hpass]

lemma disciplined_cons_iff {returned : Bool} {events : List FdEvent} {passes : List (List FdEvent)}
    (hevents : ClosesAll events) :
    Disciplined (returned, events :: passes) ↔ Disciplined (returned, passes) := by
  have hown : ledger [] events ≠ none := by
    rw [show ledger [] events = some [] from hevents]
    exact Option.some_ne_none _
  constructor
  · rintro ⟨hall, hclosed⟩
    exact ⟨fun es hes => hall es (List.mem_cons_of_mem _ hes),
      fun hr => hevents.append_iff.mp (hclosed hr)⟩
  · rintro ⟨hall, hclosed⟩
    exact ⟨List.forall_mem_cons.mpr ⟨hown, hall⟩, fun hr => hevents.append_iff.mpr (hclosed hr)⟩

lemma disciplined_nil (returned : Bool) : Disciplined (returned, []) :=
  ⟨fun _ hes => (List.not_mem_nil hes).elim, fun _ => rfl⟩

theorem disciplined_iff (os : List Outcomes) (serverSock : ℤ) :
    Disciplined (threadRun os serverSock) ↔ ∀ o ∈ made os, o.socket.isOk = true := by
  induction os generalizing serverSock with
  | nil => exact iff_of_true (disciplined_nil false) fun _ ho => (List.not_mem_nil ho).elim
  | cons o os ih =>
    cases hsocket : o.socket with
    | error e =>
      have hreturns : o.returns = true := by rw [Outcomes.returns, hsocket]; rfl
      rw [threadRun_returns hreturns, made, if_pos hreturns]
      refine iff_of_false (fun hd => ?_) fun hall => ?_
      · exact hd.own _ (List.mem_singleton_self _) (threadPass_foreign hsocket)
      · have hok := hall o (List.mem_singleton_self o)
        rw [hsocket] at hok
        cases hok
    | ok fd =>
      have hevents : ClosesAll (threadPass o serverSock).2.2 := threadPass_closesAll hsocket
      by_cases hreturns : o.returns = true
      · rw [threadRun_returns hreturns, made, if_pos hreturns, disciplined_cons_iff hevents]
        refine iff_of_true (disciplined_nil true) fun o' ho' => ?_
        rw [List.mem_singleton.mp ho', hsocket]
        rfl
      · rw [threadRun_again hreturns, made, if_neg hreturns, disciplined_cons_iff hevents, ih,
          List.forall_mem_cons, hsocket]
        exact (and_iff_right rfl).symm

theorem not_disciplined :
    ¬ ∀ (os : List Outcomes) (serverSock : ℤ), Disciplined (threadRun os serverSock) := by
  intro hall
  have hown := (hall [{ socket := .error (.other 24) }] 7).own [.closed 7] (by decide)
  exact hown rfl

end ScalableServer.Client
