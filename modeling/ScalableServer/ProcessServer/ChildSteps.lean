import ScalableServer.ProcessServer.System

/-! `Moves` lists what a step of a child does; `Phase` is what the other processes can tell of it,
which is how far the child is with the message it has received. A child is `Working` until a call of
its own fails; it leaves its loop only after a signal. -/

namespace ScalableServer.ProcessServer

open ScalableServer.Foundations ScalableServer.Core

inductive Phase
  | idle
  | receiving
  | received (m : Message)
  | holding (m : Message)
  | writing (m : Message)

namespace Phase

def message : Phase → Option Message
  | .received m | .holding m | .writing m => some m
  | _ => none

inductive Step : Phase → Action → Phase → Prop
  | waitRead : Step .idle .waitRead .receiving
  | recvMsg (m : Message) : Step .receiving (.recvMsg m) (.received m)
  | postWrite (m : Message) : Step (.received m) .postWrite (.holding m)
  | waitPipe (m : Message) : Step (.holding m) .waitPipe (.writing m)
  | writePipe (m : Message) : Step (.writing m) (.writePipe m.number) .idle
  | internal (p : Phase) : Step p .internal p
  | waitLog (p : Phase) : Step p .waitLog p
  | postLog (p : Phase) (row : LogRow) : Step p (.postLog row) p
  | transfer (p : Phase) (id : ℕ) (d : Conn) : Step p (.transfer id d) p

end Phase

namespace Child

variable {h : Host} {pid : ℕ} {conns : ℕ → Conn} {c c' : Child} {e : ChildEvent} {a : Action}

def message (c : Child) : Message :=
  ⟨c.child.clientFdParent, (c.fds c.child.clientFdLocal).getD .other⟩

def phase (c : Child) : Phase :=
  match c.pc with
  | .recvMsg => .receiving
  | .postWrite true => .received c.message
  | .peerName | .header | .payload _ _ _ _ | .waitPipe _ => .holding c.message
  | .writePipe _ => .writing c.message
  | _ => .idle

def clientCallFails (h : Host) (conns : ℕ → Conn) (c : Child) : ChildEvent → Bool
  | .fail _ => decide (c.pc = .peerName)
  | .run _ _ =>
    match c.pc with
    | .header => c.conn.all fun id => ((conns id).recv 4).any fun r => !r.1.isOk
    | .payload bytesToRead bytesRead bytes buffer =>
      c.conn.all fun id =>
        match payloadBody bytesToRead ⟨bytesRead, bytes, buffer, conns id⟩ with
        | .done (r, _) => !r.isOk
        | _ => false
    | .reply n => c.conn.all fun id => !((conns id).send (h.wordBytes n)).1.isOk
    | _ => false
  | _ => false

def otherCallFails (c : Child) : ChildEvent → Bool
  | .fail _ => decide (c.pc ≠ .peerName)
  | _ => false

def Failed (c : Child) : Prop := c.pc = .postWrite false ∨ ∃ ret, c.pc = .returned ret

def running (c : Child) : Bool :=
  match c.pc with
  | .postWrite false | .returned _ => false
  | _ => true

structure Working (c : Child) : Prop where
  errno : c.errno = none
  receiving : c.pc ≠ .postWrite false
  looping : ∀ ret, c.pc = .returned ret → c.gogo = false

/-- What a step can do; a call that a signal ends before it has done anything is left open. -/
inductive Moves (h : Host) (pid : ℕ) (conns : ℕ → Conn) (c : Child) :
    ChildEvent → Child → Action → Prop
  | start {prior : ℕ} {t : Timing} (hpc : c.pc = .head) :
      Moves h pid conns c (.run prior t) { c with pc := .waitRead, child := {} } .internal
  | leave {prior : ℕ} {t : Timing} (hpc : c.pc = .head) (hgogo : c.gogo = false) :
      Moves h pid conns c (.run prior t) (c.goto (.returned 0)) .internal
  | waitRead (hpc : c.pc = .waitRead) : Moves h pid conns c .ok (c.goto .recvMsg) .waitRead
  | recvMsg {m : Message} {fd : ℤ} {socklen : ℕ} (hpc : c.pc = .recvMsg) :
      Moves h pid conns c (.received m fd socklen)
        { c with
          pc := .postWrite true
          child := { c.child with clientFdParent := m.number, clientFdLocal := fd }
          socklen := socklen
          fds := Function.update c.fds fd (some m.descriptor) } (.recvMsg m)
  | postWrite {received : Bool} (hpc : c.pc = .postWrite received) :
      Moves h pid conns c .ok (c.goto (if received then .peerName else .returned (-1))) .postWrite
  | peerName {addr : SockAddr} (hpc : c.pc = .peerName) :
      Moves h pid conns c .ok
        { c with
          child := { c.child with clientAddr := addr }
          pc := if c.errno = some .EINTR then .close else .header } .internal
  | recv {prior : ℕ} {t : Timing} {pc : ChildPc} {id : ℕ} {d : Conn} {answer : Answer}
      (hpc : c.pc = .header ∨ ∃ n k b buffer, c.pc = .payload n k b buffer)
      (hpc' : ∃ n k b buffer, pc = .payload n k b buffer) :
      Moves h pid conns c (.run prior t) ((c.hear answer).goto pc) (.transfer id d)
  | finish {prior : ℕ} {t : Timing} {n k b k' : ℕ} {buffer : Buffer}
      (hpc : c.pc = .payload n k b buffer) :
      Moves h pid conns c (.run prior t) (c.goto (.waitPipe k')) .internal
  | waitPipe {n : ℕ} (hpc : c.pc = .waitPipe n) :
      Moves h pid conns c .ok (c.goto (.writePipe n)) .waitPipe
  | writePipe {n : ℕ} (hpc : c.pc = .writePipe n) :
      Moves h pid conns c .ok (c.goto (.waitLog n)) (.writePipe c.child.clientFdParent)
  | waitLog {n : ℕ} (hpc : c.pc = .waitLog n) :
      Moves h pid conns c .ok (c.goto (.postLog n)) .waitLog
  | postLog {prior n : ℕ} {t : Timing} {row : LogRow} (hpc : c.pc = .postLog n) :
      Moves h pid conns c (.run prior t) (c.goto (.reply n)) (.postLog row)
  | reply {prior n id : ℕ} {t : Timing} {d : Conn} {answer : Answer} (hpc : c.pc = .reply n) :
      Moves h pid conns c (.run prior t) ((c.hear answer).goto .close) (.transfer id d)
  | close {prior : ℕ} {t : Timing} (hpc : c.pc = .close) :
      Moves h pid conns c (.run prior t) (c.closeLocal.goto .head) .internal
  | interrupt {c' : Child} : Moves h pid conns c (.fail .EINTR) c' .internal
  | signal : Moves h pid conns c .signal { c with gogo := false } .internal
  | fail {e : ChildEvent} {c' : Child} {a : Action} (hc : c'.Failed)
      (he : c.clientCallFails h conns e = true ∨ c.otherCallFails e = true ∨
        ∃ n, h.alloc n = false) : Moves h pid conns c e c' a

inductive Steps (h : Host) (pid : ℕ) (conns : ℕ → Conn) (c : Child) :
    ChildEvent → Child → Action → Prop
  | start {prior : ℕ} {t : Timing} (hpc : c.pc = .head) (hgogo : c.gogo = true) :
      Steps h pid conns c (.run prior t) { c with pc := .waitRead, child := {} } .internal
  | leave {prior : ℕ} {t : Timing} (hpc : c.pc = .head) (hgogo : c.gogo = false) :
      Steps h pid conns c (.run prior t) (c.goto (.returned 0)) .internal
  | waitRead (hpc : c.pc = .waitRead) : Steps h pid conns c .ok (c.goto .recvMsg) .waitRead
  | recvMsg {m : Message} {fd : ℤ} {socklen : ℕ} (hpc : c.pc = .recvMsg) (hfd : c.fds fd = none) :
      Steps h pid conns c (.received m fd socklen)
        { c with
          pc := .postWrite true
          child := { c.child with clientFdParent := m.number, clientFdLocal := fd }
          socklen := socklen
          fds := Function.update c.fds fd (some m.descriptor) } (.recvMsg m)
  | postWrite {received : Bool} (hpc : c.pc = .postWrite received) :
      Steps h pid conns c .ok (c.goto (if received then .peerName else .returned (-1))) .postWrite
  | peerName {addr : SockAddr} {id : ℕ} (hpc : c.pc = .peerName)
      (hfd : c.fds c.child.clientFdLocal = some (.accepted addr id)) :
      Steps h pid conns c .ok
        { c with
          child := { c.child with clientAddr := storeName c.socklen addr }
          pc := if c.errno = some .EINTR then .close else .header } .internal
  | unconnected {prior : ℕ} {t : Timing} (hpc : c.pc = .header ∨
      (∃ n k b buffer, c.pc = .payload n k b buffer) ∨ ∃ n, c.pc = .reply n)
      (hconn : c.conn = none) :
      Steps h pid conns c (.run prior t) (c.goto (.returned (-1))) .internal
  | header {prior id n : ℕ} {t : Timing} {r : Except Errno (List UInt8)} {d : Conn}
      {buffer : Buffer} (hpc : c.pc = .header) (hconn : c.conn = some id)
      (hrecv : (conns id).recv 4 = some (r, d))
      (hlen : cGetMessageLength h prior r = some (n, buffer)) :
      Steps h pid conns c (.run prior t)
        ((c.hear (conns id).recvs.head).goto (.payload n 0 1 buffer)) (.transfer id d)
  | headerFail {prior id : ℕ} {t : Timing} {r : Except Errno (List UInt8)} {d : Conn}
      (hpc : c.pc = .header) (hconn : c.conn = some id) (hrecv : (conns id).recv 4 = some (r, d))
      (hlen : cGetMessageLength h prior r = none) :
      Steps h pid conns c (.run prior t)
        ((c.hear (conns id).recvs.head).goto (.returned (-1))) (.transfer id d)
  | payload {prior id n k b : ℕ} {t : Timing} {buffer : Buffer} {s : PayloadLoop}
      (hpc : c.pc = .payload n k b buffer) (hconn : c.conn = some id)
      (hbody : payloadBody n ⟨k, b, buffer, conns id⟩ = .again s) :
      Steps h pid conns c (.run prior t)
        ((c.hear (conns id).recvs.head).goto (.payload n s.bytesRead s.bytes s.buffer))
        (.transfer id s.conn)
  | payloadFail {prior id n k b : ℕ} {t : Timing} {buffer : Buffer} {err : Errno} {s : PayloadLoop}
      (hpc : c.pc = .payload n k b buffer) (hconn : c.conn = some id)
      (hbody : payloadBody n ⟨k, b, buffer, conns id⟩ = .done (.error err, s)) :
      Steps h pid conns c (.run prior t)
        ((c.hear (conns id).recvs.head).goto (.returned (-1))) (.transfer id s.conn)
  | payloadEnd {prior id n k b : ℕ} {t : Timing} {buffer : Buffer} {s : PayloadLoop}
      (hpc : c.pc = .payload n k b buffer) (hconn : c.conn = some id)
      (hbody : payloadBody n ⟨k, b, buffer, conns id⟩ = .done (.ok (), s)) :
      Steps h pid conns c (.run prior t) (c.goto (.waitPipe s.bytesRead)) .internal
  | waitPipe {n : ℕ} (hpc : c.pc = .waitPipe n) :
      Steps h pid conns c .ok (c.goto (.writePipe n)) .waitPipe
  | writePipe {n : ℕ} (hpc : c.pc = .writePipe n) :
      Steps h pid conns c .ok (c.goto (.waitLog n)) (.writePipe c.child.clientFdParent)
  | waitLog {n : ℕ} (hpc : c.pc = .waitLog n) :
      Steps h pid conns c .ok (c.goto (.postLog n)) .waitLog
  | postLog {prior n : ℕ} {t : Timing} (hpc : c.pc = .postLog n) :
      Steps h pid conns c (.run prior t) (c.goto (.reply n)) (.postLog (cLogRow h pid c.child n t))
  | reply {prior n id k : ℕ} {t : Timing} {d : Conn} (hpc : c.pc = .reply n)
      (hconn : c.conn = some id) (hsend : (conns id).send (h.wordBytes n) = (.ok k, d)) :
      Steps h pid conns c (.run prior t) ((c.hear (conns id).sends.head).goto .close)
        (.transfer id d)
  | replyFail {prior n id : ℕ} {t : Timing} {err : Errno} {d : Conn} (hpc : c.pc = .reply n)
      (hconn : c.conn = some id) (hsend : (conns id).send (h.wordBytes n) = (.error err, d)) :
      Steps h pid conns c (.run prior t) ((c.hear (conns id).sends.head).goto (.returned (-1)))
        (.transfer id d)
  | close {prior : ℕ} {t : Timing} (hpc : c.pc = .close) :
      Steps h pid conns c (.run prior t) (c.closeLocal.goto .head) .internal
  | interrupted {err : Errno} {next : ChildPc} (hpc : c.pc = .waitRead ∧ next = .close ∨
      (∃ n, c.pc = .waitPipe n ∧ next = .waitLog n) ∨ ∃ n, c.pc = .waitLog n ∧ next = .reply n) :
      Steps h pid conns c (.fail err)
        (c.failWith err (if err = .EINTR then next else .returned (-1))) .internal
  | recvMsgFail {err : Errno} (hpc : c.pc = .recvMsg) :
      Steps h pid conns c (.fail err) (c.failWith err (.postWrite false)) .internal
  | callFail {err : Errno} (hpc : c.pc = .peerName ∨ ∃ n, c.pc = .writePipe n) :
      Steps h pid conns c (.fail err) (c.failWith err (.returned (-1))) .internal
  | signal : Steps h pid conns c .signal { c with gogo := false } .internal

lemma run_steps {prior : ℕ} {t : Timing} (hstep : c.step h pid conns (.run prior t) = some (c', a)) :
    c.Steps h pid conns (.run prior t) c' a := by
  cases hpc : c.pc with
  | head =>
    simp only [step, hpc, Option.some.injEq, Prod.mk.injEq] at hstep
    obtain ⟨rfl, rfl⟩ := hstep
    by_cases hgogo : c.gogo = true
    · rw [if_pos hgogo]
      exact .start hpc hgogo
    · rw [if_neg hgogo]
      exact .leave hpc (by simpa using hgogo)
  | header =>
    simp only [step, hpc, recvHeader] at hstep
    split at hstep
    · rename_i hconn
      obtain ⟨rfl, rfl⟩ := Prod.mk.inj (Option.some.inj hstep)
      exact .unconnected (.inl hpc) hconn
    · rename_i id hconn
      obtain ⟨⟨r, d⟩, hrecv, hres⟩ := Option.map_eq_some_iff.mp hstep
      simp only at hres
      split at hres
      · rename_i hlen
        obtain ⟨rfl, rfl⟩ := Prod.mk.inj hres
        exact .headerFail hpc hconn hrecv hlen
      · rename_i hlen
        obtain ⟨rfl, rfl⟩ := Prod.mk.inj hres
        exact .header hpc hconn hrecv hlen
  | payload n k b buffer =>
    simp only [step, hpc, recvPayload] at hstep
    split at hstep
    · rename_i hconn
      obtain ⟨rfl, rfl⟩ := Prod.mk.inj (Option.some.inj hstep)
      exact .unconnected (.inr (.inl ⟨n, k, b, buffer, hpc⟩)) hconn
    · rename_i id hconn
      split at hstep
      · cases hstep
      · rename_i hbody
        obtain ⟨rfl, rfl⟩ := Prod.mk.inj (Option.some.inj hstep)
        exact .payload hpc hconn hbody
      · rename_i hbody
        obtain ⟨rfl, rfl⟩ := Prod.mk.inj (Option.some.inj hstep)
        exact .payloadFail hpc hconn hbody
      · rename_i hbody
        obtain ⟨rfl, rfl⟩ := Prod.mk.inj (Option.some.inj hstep)
        exact .payloadEnd hpc hconn hbody
  | postLog n =>
    simp only [step, hpc, Option.some.injEq, Prod.mk.injEq] at hstep
    obtain ⟨rfl, rfl⟩ := hstep
    exact .postLog hpc
  | reply n =>
    simp only [step, hpc, sendReply, Option.some.injEq] at hstep
    split at hstep
    · rename_i hconn
      obtain ⟨rfl, rfl⟩ := Prod.mk.inj hstep
      exact .unconnected (.inr (.inr ⟨n, hpc⟩)) hconn
    · rename_i id hconn
      split at hstep
      · rename_i hsend
        obtain ⟨rfl, rfl⟩ := Prod.mk.inj hstep
        exact .replyFail hpc hconn hsend
      · rename_i hsend
        obtain ⟨rfl, rfl⟩ := Prod.mk.inj hstep
        exact .reply hpc hconn hsend
  | close =>
    simp only [step, hpc, Option.some.injEq, Prod.mk.injEq] at hstep
    obtain ⟨rfl, rfl⟩ := hstep
    exact .close hpc
  | _ => simp [step, hpc] at hstep

lemma ok_steps (hstep : c.step h pid conns .ok = some (c', a)) : c.Steps h pid conns .ok c' a := by
  cases hpc : c.pc with
  | peerName =>
    simp only [step, hpc, getPeerName] at hstep
    split at hstep
    · rename_i hfd
      simp only [Option.map_some, Option.some.injEq, Prod.mk.injEq] at hstep
      obtain ⟨rfl, rfl⟩ := hstep
      exact .peerName hpc hfd
    · cases hstep
  | waitRead | postWrite | waitPipe | writePipe | waitLog =>
    simp only [step, hpc, Option.some.injEq, Prod.mk.injEq] at hstep
    obtain ⟨rfl, rfl⟩ := hstep
    constructor
    assumption
  | _ => simp [step, hpc] at hstep

lemma fail_steps {err : Errno} (hstep : c.step h pid conns (.fail err) = some (c', a)) :
    c.Steps h pid conns (.fail err) c' a := by
  cases hpc : c.pc with
  | waitRead =>
    simp only [step, hpc, Option.some.injEq] at hstep
    obtain ⟨rfl, rfl⟩ := Prod.mk.inj hstep
    exact .interrupted (.inl ⟨hpc, rfl⟩)
  | waitPipe n =>
    simp only [step, hpc, Option.some.injEq] at hstep
    obtain ⟨rfl, rfl⟩ := Prod.mk.inj hstep
    exact .interrupted (.inr (.inl ⟨n, hpc, rfl⟩))
  | waitLog n =>
    simp only [step, hpc, Option.some.injEq] at hstep
    obtain ⟨rfl, rfl⟩ := Prod.mk.inj hstep
    exact .interrupted (.inr (.inr ⟨n, hpc, rfl⟩))
  | recvMsg =>
    simp only [step, hpc, Option.some.injEq] at hstep
    obtain ⟨rfl, rfl⟩ := Prod.mk.inj hstep
    exact .recvMsgFail hpc
  | peerName =>
    simp only [step, hpc, Option.some.injEq] at hstep
    obtain ⟨rfl, rfl⟩ := Prod.mk.inj hstep
    exact .callFail (.inl hpc)
  | writePipe n =>
    simp only [step, hpc, Option.some.injEq] at hstep
    obtain ⟨rfl, rfl⟩ := Prod.mk.inj hstep
    exact .callFail (.inr ⟨n, hpc⟩)
  | _ => simp [step, hpc] at hstep

lemma steps_of_step (hstep : c.step h pid conns e = some (c', a)) : c.Steps h pid conns e c' a := by
  cases e with
  | run prior t => exact run_steps hstep
  | ok => exact ok_steps hstep
  | received m fd socklen =>
    simp only [step] at hstep
    split_ifs at hstep with hpc
    obtain ⟨rfl, rfl⟩ := Prod.mk.inj (Option.some.inj hstep)
    exact .recvMsg hpc.1 hpc.2
  | fail err => exact fail_steps hstep
  | signal =>
    obtain ⟨rfl, rfl⟩ := Prod.mk.inj (Option.some.inj hstep)
    exact .signal

lemma clientCallFails_of_unconnected {prior : ℕ} {t : Timing} (hpc : c.pc = .header ∨
    (∃ n k b buffer, c.pc = .payload n k b buffer) ∨ ∃ n, c.pc = .reply n) (hconn : c.conn = none) :
    c.clientCallFails h conns (.run prior t) = true := by
  obtain hpc | ⟨n, k, b, buffer, hpc⟩ | ⟨n, hpc⟩ := hpc <;> simp [clientCallFails, hpc, hconn]

lemma fails_of_headerFail {prior id : ℕ} {t : Timing} {r : Except Errno (List UInt8)} {d : Conn}
    (hpc : c.pc = .header) (hconn : c.conn = some id) (hrecv : (conns id).recv 4 = some (r, d))
    (hlen : cGetMessageLength h prior r = none) :
    c.clientCallFails h conns (.run prior t) = true ∨ ∃ n, h.alloc n = false := by
  cases r with
  | error err => exact .inl (by simp [clientCallFails, hpc, hconn, hrecv, Except.isOk, Except.toBool])
  | ok header =>
    simp only [cGetMessageLength] at hlen
    split_ifs at hlen with halloc
    exact .inr ⟨_, halloc⟩

lemma otherCallFails_or {err : Errno} : c.clientCallFails h conns (.fail err) = true ∨
    c.otherCallFails (.fail err) = true := by
  by_cases hpc : c.pc = .peerName
  · exact .inl (decide_eq_true hpc)
  · exact .inr (decide_eq_true hpc)

lemma Steps.moves (hsteps : c.Steps h pid conns e c' a) : c.Moves h pid conns e c' a := by
  cases hsteps with
  | start hpc hgogo => exact .start hpc
  | leave hpc hgogo => exact .leave hpc hgogo
  | recvMsg hpc hfd => exact .recvMsg hpc
  | peerName hpc hfd => exact .peerName hpc
  | unconnected hpc hconn =>
    exact .fail (.inr ⟨_, rfl⟩) (.inl (clientCallFails_of_unconnected hpc hconn))
  | header hpc hconn hrecv hlen => exact .recv (.inl hpc) ⟨_, _, _, _, rfl⟩
  | headerFail hpc hconn hrecv hlen =>
    exact .fail (.inr ⟨_, rfl⟩) ((fails_of_headerFail hpc hconn hrecv hlen).imp_right .inr)
  | payload hpc hconn hbody => exact .recv (.inr ⟨_, _, _, _, hpc⟩) ⟨_, _, _, _, rfl⟩
  | payloadFail hpc hconn hbody =>
    refine .fail (.inr ⟨_, rfl⟩) (.inl ?_)
    simp [clientCallFails, hpc, hconn, hbody, Except.isOk, Except.toBool]
  | payloadEnd hpc hconn hbody => exact .finish hpc
  | reply hpc hconn hsend => exact .reply hpc
  | replyFail hpc hconn hsend =>
    refine .fail (.inr ⟨_, rfl⟩) (.inl ?_)
    simp [clientCallFails, hpc, hconn, hsend, Except.isOk, Except.toBool]
  | close hpc => exact .close hpc
  | @interrupted err next hpc =>
    by_cases herr : err = .EINTR
    · subst herr
      exact .interrupt
    · rw [if_neg herr]
      exact .fail (.inr ⟨_, rfl⟩) (otherCallFails_or.imp_right .inl)
  | recvMsgFail hpc => exact .fail (.inl rfl) (otherCallFails_or.imp_right .inl)
  | callFail hpc => exact .fail (.inr ⟨_, rfl⟩) (otherCallFails_or.imp_right .inl)
  | signal => exact .signal
  | waitRead hpc => exact .waitRead hpc
  | postWrite hpc => exact .postWrite hpc
  | waitPipe hpc => exact .waitPipe hpc
  | writePipe hpc => exact .writePipe hpc
  | waitLog hpc => exact .waitLog hpc
  | postLog hpc => exact .postLog hpc

lemma moves_of_step (hstep : c.step h pid conns e = some (c', a)) : c.Moves h pid conns e c' a :=
  (steps_of_step hstep).moves

lemma Failed.stopped (hc : c.Failed) : c.running = false := by
  rcases hc with hpc | ⟨ret, hpc⟩ <;> rw [running, hpc]

lemma Working.at (hw : c.Working) (herrno : c'.errno = c.errno) (hrunning : c'.running = true) :
    c'.Working := by
  have hnot : ¬ c'.Failed := fun hfailed => by simp [hfailed.stopped] at hrunning
  exact ⟨herrno.trans hw.errno, fun hpc => hnot (.inl hpc), fun ret hpc => (hnot (.inr ⟨ret, hpc⟩)).elim⟩

lemma Moves.working (hm : c.Moves h pid conns e c' a) (hw : c.Working) (he : e ≠ .fail .EINTR) :
    (c'.Working ∧ c.phase.Step a c'.phase) ∨
      c'.Failed ∧ (c.clientCallFails h conns e = true ∨ c.otherCallFails e = true ∨
        ∃ n, h.alloc n = false) := by
  cases hm with
  | start hpc =>
    refine .inl ⟨hw.at rfl rfl, ?_⟩
    rw [phase, hpc]
    exact .internal _
  | leave hpc hgogo =>
    refine .inl ⟨⟨hw.errno, by rintro ⟨⟩, fun _ _ => hgogo⟩, ?_⟩
    rw [phase, hpc]
    exact .internal _
  | waitRead hpc =>
    refine .inl ⟨hw.at rfl rfl, ?_⟩
    rw [phase, hpc]
    exact .waitRead
  | @recvMsg m fd socklen hpc =>
    refine .inl ⟨hw.at rfl rfl, ?_⟩
    rw [phase, hpc]
    have hmessage : ({ c with
        pc := .postWrite true
        child := { c.child with clientFdParent := m.number, clientFdLocal := fd }
        socklen := socklen
        fds := Function.update c.fds fd (some m.descriptor) } : Child).phase = .received m := by
      simp [phase, message]
    rw [hmessage]
    exact .recvMsg m
  | @postWrite received hpc =>
    cases received with
    | false => exact (hw.receiving hpc).elim
    | true =>
      refine .inl ⟨hw.at rfl rfl, ?_⟩
      rw [phase, hpc]
      exact .postWrite _
  | peerName hpc =>
    have hheader : (if c.errno = some .EINTR then ChildPc.close else .header) = .header :=
      if_neg (by rw [hw.errno]; rintro ⟨⟩)
    rw [hheader]
    refine .inl ⟨hw.at rfl rfl, ?_⟩
    rw [phase, hpc]
    exact .internal _
  | recv hpc hpc' =>
    obtain ⟨n, k, b, buffer, rfl⟩ := hpc'
    refine .inl ⟨hw.at rfl rfl, ?_⟩
    have hphase : c.phase = .holding c.message := by
      rcases hpc with hpc | ⟨_, _, _, _, hpc⟩ <;> rw [phase, hpc]
    rw [hphase]
    exact .transfer _ _ _
  | finish hpc =>
    refine .inl ⟨hw.at rfl rfl, ?_⟩
    rw [phase, hpc]
    exact .internal _
  | waitPipe hpc =>
    refine .inl ⟨hw.at rfl rfl, ?_⟩
    rw [phase, hpc]
    exact .waitPipe _
  | writePipe hpc =>
    refine .inl ⟨hw.at rfl rfl, ?_⟩
    rw [phase, hpc]
    exact .writePipe c.message
  | waitLog hpc =>
    refine .inl ⟨hw.at rfl rfl, ?_⟩
    rw [phase, hpc]
    exact .waitLog _
  | postLog hpc =>
    refine .inl ⟨hw.at rfl rfl, ?_⟩
    rw [phase, hpc]
    exact .postLog _ _
  | reply hpc =>
    refine .inl ⟨hw.at rfl rfl, ?_⟩
    rw [phase, hpc]
    exact .transfer _ _ _
  | close hpc =>
    have herrno : c.closeLocal.errno = c.errno := by simp [closeLocal, hw.errno]
    refine .inl ⟨hw.at herrno rfl, ?_⟩
    rw [phase, hpc]
    exact .internal _
  | interrupt => exact (he rfl).elim
  | signal => exact .inl ⟨⟨hw.errno, hw.receiving, fun _ _ => rfl⟩, .internal _⟩
  | fail hc hfail => exact .inr ⟨hc, hfail⟩

lemma Failed.step (hm : c.Moves h pid conns e c' a) (hc : c.Failed) (he : e ≠ .fail .EINTR) :
    c'.Failed := by
  have hstopped := hc.stopped
  cases hm with
  | @postWrite received hpc =>
    cases received with
    | false => exact .inr ⟨_, rfl⟩
    | true => simp [running, hpc] at hstopped
  | recv hpc => rcases hpc with hpc | ⟨_, _, _, _, hpc⟩ <;> simp [running, hpc] at hstopped
  | leave => exact .inr ⟨_, rfl⟩
  | interrupt => exact (he rfl).elim
  | signal => exact hc
  | fail hc' => exact hc'
  | _ =>
    rename_i hpc
    simp [running, hpc] at hstopped

end Child

end ScalableServer.ProcessServer
