import ScalableServer.Client.Handle
import ScalableServer.Client.Run

/-! A `Pool` keeps the variables of the file, where an entry of `t_ids` is `none` until
`pthread_create` has filled it. `running` are the threads that have been created and not joined, and
`stray` the indices at which `stop_threads` has read an entry that was not filled, in the array or
outside it. -/

namespace ScalableServer.Client

open ScalableServer.Foundations ScalableServer.Core

structure Thread where
  id : ℕ
  args : HandleArgs

structure Pool where
  tIds : Option (List (Option ℕ)) := none
  nThreads : ℕ := 0
  nProcessors : ℤ := 0
  running : List Thread := []
  nextId : ℕ := 0
  stray : List ℕ := []

structure CreateCalls where
  malloc : Bool := true
  calloc : Bool := true
  create : Bool := true

/-- The calls of `start_threads`: what `sysconf` returns, whether the array is granted, the passes
of `create_threads`, and what `pthread_cancel` and `pthread_join` return for each entry. -/
structure StartCalls where
  processors : ℤ
  malloc : Bool := true
  passes : ℕ → CreateCalls := fun _ => {}
  stop : ℕ → ℤ × ℤ := fun _ => (0, 0)

/-- `strncpy` into `n` bytes: up to the first NUL of `src`, and NULs after it. -/
def strncpy (n : ℕ) (src : List UInt8) : List UInt8 :=
  let s := cString (src.take n)
  s ++ List.replicate (n - s.length) 0

def initAddr (inetAddr : List UInt8 → Option ℕ) (ip : List UInt8) (port : ℕ) : Option SockAddr :=
  (inetAddr ip).map fun addr => { sinAddr := addr, sinPort := port }

def handleArgs (s : State) (addr : SockAddr) (i : ℕ) : HandleArgs where
  serverAddr := addr
  data := strncpy s.dataSize.toNat s.data.cells
  dataSize := s.dataSize
  threadId := i

def Pool.entry (p : Pool) (i : ℕ) : Option ℕ := p.tIds.bind fun ids => ids[i]?.join

def Pool.add (i : ℕ) (args : HandleArgs) (p : Pool) : Pool :=
  { p with
    tIds := p.tIds.map fun ids => ids.set i (some p.nextId)
    nThreads := p.nThreads + 1
    running := p.running ++ [⟨p.nextId, args⟩]
    nextId := p.nextId + 1 }

def createThread (inetAddr : List UInt8 → Option ℕ) (calls : CreateCalls) (s : State) (i : ℕ)
    (p : Pool) : Option Pool :=
  if calls.malloc = false then none
  else if calls.calloc = false then none
  else
    match initAddr inetAddr (cString s.serverIp.cells) s.serverPort with
    | none => none
    | some addr => if calls.create = false then none else some (p.add i (handleArgs s addr i))

def createLoop (inetAddr : List UInt8 → Option ℕ) (passes : ℕ → CreateCalls) (s : State) :
    ℕ → ℕ → Pool → ℤ × Pool
  | 0, _, p => (0, p)
  | left + 1, i, p =>
    match createThread inetAddr (passes i) s i p with
    | none => (-1, p)
    | some p => createLoop inetAddr passes s left (i + 1) p

def createThreads (inetAddr : List UInt8 → Option ℕ) (calls : StartCalls) (n : ℤ) (s : State)
    (p : Pool) : ℤ × Pool :=
  if calls.malloc = false then (-1, { p with tIds := none })
  else
    createLoop inetAddr calls.passes s n.toNat 0
      { p with tIds := some (List.replicate n.toNat none) }

def stopThreads (results : ℕ → ℤ × ℤ) (p : Pool) : ℤ × Pool :=
  let indices := List.range p.nThreads
  let joined := indices.filterMap fun i => if (results i).2 = 0 then p.entry i else none
  (if indices.any fun i => (results i).1 = -1 ∨ (results i).2 = -1 then -1 else 0,
    { p with
      tIds := none
      nThreads := 0
      running := p.running.filter fun t => t.id ∉ joined
      stray := p.stray ++ indices.filter fun i => p.entry i = none })

/-- The test of `get_processors` is on `n_processors`, not on what `sysconf` returned. -/
def getProcessors (nProcessors processors : ℤ) : Option ℤ :=
  if nProcessors = -1 then none else some processors

def startThreads (inetAddr : List UInt8 → Option ℕ) (calls : StartCalls) (s : State) (p : Pool) :
    ℤ × Pool :=
  match getProcessors p.nProcessors calls.processors with
  | none => (-1, p)
  | some n =>
    let (result, p) := createThreads inetAddr calls n s { p with nProcessors := n }
    if result = -1 then (-1, (stopThreads calls.stop p).2) else (result, p)

def controlThreads (h : Host) (inetAddr : List UInt8 → Option ℕ) (calls : StartCalls) (s : State)
    (p : Pool) : Option (States × State × Pool) :=
  match readFully 2 { size := 2 } s.controller with
  | none => none
  | some (r, d) =>
    let s := { s with controller := d.conn }
    if r = -1 then some (.ERROR, s, p)
    else
      let command := h.endian.ntoh 2 (h.endian.load d.buffer.cells)
      if command = START then
        (readData h s).map fun (r, s) =>
          if r = -1 then (.ERROR, s, p)
          else
            let (result, p) := startThreads inetAddr calls s p
            (if result = -1 then .ERROR else .SUCCESS, s, p)
      else if command = STOP then some (.END, s, p)
      else some (.ERROR, s, p)

lemma createThread_some {inetAddr : List UInt8 → Option ℕ} {calls : CreateCalls} {s : State} {i : ℕ}
    {p q : Pool} (hcreate : createThread inetAddr calls s i p = some q) :
    ∃ addr, q = p.add i (handleArgs s addr i) := by
  simp only [createThread] at hcreate
  cases haddr : initAddr inetAddr (cString s.serverIp.cells) s.serverPort with
  | none =>
    rw [haddr] at hcreate
    split_ifs at hcreate
  | some addr =>
    rw [haddr] at hcreate
    split_ifs at hcreate
    exact ⟨addr, (Option.some.inj hcreate).symm⟩

end ScalableServer.Client
