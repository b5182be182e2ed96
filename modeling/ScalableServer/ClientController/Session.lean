import ScalableServer.ClientController.Failures

namespace ScalableServer.ClientController

open ScalableServer.Foundations ScalableServer.Core

structure Pass.Succeeds (p : Pass) (revents : Bool × Bool) : Prop where
  quit : p.quit = false
  poll : p.poll = .ok revents
  accept : revents.1 = true → ∃ fd, p.accept = .ok fd
  read : revents.2 = true → ∃ bs, p.read = .ok bs

def Pass.Waits (p : Pass) : Prop :=
  ∃ revents, p.Succeeds revents ∧
    (revents.2 = true → ∀ bs, p.read = .ok bs → startsOn p.prior bs ≠ some true)

def Pass.Starts (p : Pass) : Prop :=
  ∃ revents, p.Succeeds revents ∧ revents.2 = true ∧
    ∀ bs, p.read = .ok bs → startsOn p.prior bs = some true

def Pass.joined (p : Pass) : List ℤ :=
  match p.poll, p.accept with
  | .ok (true, _), .ok fd => [fd]
  | _, _ => []

structure Told (fds : List ℤ) (bs : List UInt8) (w w' : World) : Prop where
  own : ∀ fd ∈ fds, (w' fd).sent = (w fd).sent ++ bs ∧ Undisturbed (w' fd).sends
  other : ∀ fd ∉ fds, w' fd = w fd

def Tells (body : ℤ → ℤ × World → Option (ℤ × World)) (bs : List UInt8) : Prop :=
  ∀ fd w, Undisturbed (w fd).sends → ∃ w', body fd (0, w) = some (0, w') ∧ Told [fd] bs w w'

variable {h : Host} {p : Pass} {before rest : List Pass} {l : Loop} {s : State} {w w' w'' : World}
  {fds : List ℤ} {bs bs' data : List UInt8} {size : ℕ} {revents : Bool × Bool}
  {body : ℤ → ℤ × World → Option (ℤ × World)}

section Writes

lemma Told.trans (h : Told fds bs w w') (h' : Told fds bs' w' w'') :
    Told fds (bs ++ bs') w w'' where
  own fd hfd := by
    obtain ⟨hsent, hsends⟩ := h'.own fd hfd
    refine ⟨?_, hsends⟩
    rw [hsent, (h.own fd hfd).1, List.append_assoc]
  other fd hfd := (h'.other fd hfd).trans (h.other fd hfd)

lemma writeFullyTo_told (fd : ℤ) (hdata : data.length = size) (hsize : size < 2 ^ 63)
    (hs : Undisturbed (w fd).sends) :
    ∃ w', writeFullyTo fd data size w = some (0, w') ∧ Told [fd] data w w' := by
  obtain ⟨d, hd, hsent, -, hsends⟩ := writeFully_quiet hdata.ge hsize hs
  rw [List.take_of_length_le hdata.le] at hsent
  refine ⟨Function.update w fd d.conn, by rw [writeFullyTo, hd]; rfl, fun g hg => ?_, fun g hg => ?_⟩
  · obtain rfl := List.mem_singleton.mp hg
    rw [Function.update_self]
    exact ⟨hsent, hsends⟩
  · rw [Function.update_of_ne (fun he => hg (List.mem_singleton.mpr he))]

lemma writeCommand_tells (h : Host) (command : ℕ) :
    Tells (writeCommand h command) (bigEndian 2 command) := by
  intro fd w hs
  have hlen : (bigEndian 2 command).length = 2 := bigEndian_length 2 command
  obtain ⟨w', hw', htold⟩ := writeFullyTo_told fd hlen (by decide) hs
  refine ⟨w', ?_, htold⟩
  rw [writeCommand, Endian.store_hton]
  exact hw'

lemma writeEach_tells {writes : List (List UInt8 × ℕ)}
    (hwrites : ∀ p ∈ writes, p.2 = p.1.length ∧ p.2 < 2 ^ 63) :
    Tells (fun fd => writeEach fd writes) (writes.flatMap Prod.fst) := by
  intro fd w hs
  induction writes generalizing w with
  | nil =>
    refine ⟨w, rfl, fun g hg => ?_, fun _ _ => rfl⟩
    obtain rfl := List.mem_singleton.mp hg
    exact ⟨(List.append_nil _).symm, hs⟩
  | cons p writes ih =>
    obtain ⟨hlen, hlt⟩ := hwrites p List.mem_cons_self
    obtain ⟨w₁, hw₁, htold⟩ := writeFullyTo_told fd hlen.symm hlt hs
    obtain ⟨w', hw', htold'⟩ := ih (fun p hp => hwrites p (List.mem_cons_of_mem _ hp)) w₁
      (htold.own fd List.mem_cons_self).2
    refine ⟨w', ?_, htold.trans htold'⟩
    have hnext : writeNext fd (0, w) p = some (0, w₁) := by
      rw [writeNext, hw₁]
      rfl
    change (p :: writes).foldlM (writeNext fd) (0, w) = _
    rw [List.foldlM_cons, hnext]
    exact hw'

lemma foldlM_tells (hb : Tells body bs) (hfds : fds.Nodup)
    (hs : ∀ fd ∈ fds, Undisturbed (w fd).sends) :
    ∃ w', fds.foldlM (fun acc fd => body fd acc) (0, w) = some (0, w') ∧ Told fds bs w w' := by
  induction fds generalizing w with
  | nil => exact ⟨w, rfl, fun _ hfd => (List.not_mem_nil hfd).elim, fun _ _ => rfl⟩
  | cons fd fds ih =>
    obtain ⟨hnew, hfds⟩ := List.nodup_cons.mp hfds
    obtain ⟨w₁, hw₁, htold⟩ := hb fd w (hs fd List.mem_cons_self)
    have hkept : ∀ g ∈ fds, w₁ g = w g := fun g hg =>
      htold.other g fun he => hnew (List.mem_singleton.mp he ▸ hg)
    have hs₁ : ∀ g ∈ fds, Undisturbed (w₁ g).sends := by
      intro g hg
      rw [hkept g hg]
      exact hs g (List.mem_cons_of_mem _ hg)
    obtain ⟨w', hw', htold'⟩ := ih hfds hs₁
    refine ⟨w', by rw [List.foldlM_cons, hw₁]; exact hw', fun g hg => ?_, fun g hg => ?_⟩
    · obtain rfl | hg := List.mem_cons.mp hg
      · rw [htold'.other g hnew]
        exact htold.own g List.mem_cons_self
      · rw [← hkept g hg]
        exact htold'.own g hg
    · rw [htold'.other g fun hmem => hg (List.mem_cons_of_mem _ hmem)]
      exact htold.other g fun hmem => hg (List.mem_singleton.mp hmem ▸ List.mem_cons_self)

lemma forEachConn_tells (hb : Tells body bs) (hfds : s.fds.Nodup)
    (hs : ∀ fd ∈ s.fds, Undisturbed (w fd).sends) :
    ∃ w', forEachConn s body w = some (0, w') ∧ Told s.fds bs w w' := by
  obtain ⟨w', hw', htold⟩ := foldlM_tells hb hfds hs
  refine ⟨w', ?_, htold⟩
  rw [State.fds, List.foldlM_map] at hw'
  exact hw'

end Writes

section Passes

@[simp] lemma State.fds_length (s : State) : s.fds.length = s.numConns := by simp [State.fds]

lemma handleAccept_joins (fd : ℤ) (hroom : s.numConns < MAX_CONNS) :
    (handleAccept (.ok fd) s).1 = SUCCESS ∧ (handleAccept (.ok fd) s).2.fds = s.fds ++ [fd] := by
  have hnot : ¬ MAX_CONNS ≤ s.numConns := by omega
  refine ⟨by simp only [handleAccept, if_neg hnot], ?_⟩
  obtain hfds | ⟨fd', haccept, hfds⟩ := handleAccept_fds (.ok fd) s
  · have hlen := congrArg List.length hfds
    simp [handleAccept, if_neg hnot] at hlen
  · obtain rfl := Except.ok.inj haccept
    exact hfds

lemma Pass.Succeeds.listens (hp : p.Succeeds revents) (hexit : l.exit = false)
    (hroom : l.state.numConns + p.joined.length ≤ MAX_CONNS) :
    let l' := listenReady p (pollFds p l)
    l'.exit = false ∧ l'.revents.2 = revents.2 ∧ l'.state.fds = l.state.fds ++ p.joined ∧
      SameRequest l.state l'.state := by
  intro l'
  have hpoll : pollFds p l =
      { l with result := revents.1.toNat + revents.2.toNat, revents := revents } := by
    rw [pollFds, hp.poll]
  cases hlisten : revents.1 with
  | false =>
    have hl' : l' = pollFds p l := by
      simp only [l', listenReady, hpoll, hlisten, Bool.false_eq_true, if_false]
    have hjoined : p.joined = [] := by
      rw [Pass.joined, hp.poll, ← Prod.mk.eta (p := revents), hlisten]
    rw [hl', hpoll, hjoined, List.append_nil]
    exact ⟨hexit, rfl, rfl, rfl, rfl, rfl, rfl, rfl⟩
  | true =>
    obtain ⟨fd, hfd⟩ := hp.accept hlisten
    have hjoined : p.joined = [fd] := by
      rw [Pass.joined, hp.poll, hfd, ← Prod.mk.eta (p := revents), hlisten]
    rw [hjoined, List.length_singleton] at hroom
    obtain ⟨hret, hfds⟩ := handleAccept_joins fd hroom
    have hl' : l' =
        { exit := (handleAccept (.ok fd) l.state).1 = ERROR
          result := (handleAccept (.ok fd) l.state).1
          revents := (false, revents.2)
          state := (handleAccept (.ok fd) l.state).2 } := by
      simp only [l', listenReady, hpoll, hlisten, if_true, hfd]
    rw [hl', hjoined]
    refine ⟨?_, rfl, hfds, handleAccept_sameRequest _ _⟩
    change decide ((handleAccept (.ok fd) l.state).1 = ERROR) = false
    rw [hret]
    rfl

lemma Pass.Waits.passes (hp : p.Waits) (hexit : l.exit = false)
    (hroom : l.state.numConns + p.joined.length ≤ MAX_CONNS) :
    ∃ l', handlePass h p l w = some (l', w) ∧ l'.exit = false ∧
      l'.state.fds = l.state.fds ++ p.joined ∧ SameRequest l.state l'.state := by
  obtain ⟨revents, hsucceeds, hother⟩ := hp
  obtain ⟨hexit', hin, hfds, hsame⟩ := hsucceeds.listens hexit hroom
  have hidle : ¬ readsStart p (listenReady p (pollFds p l)) = true := by
    rw [readsStart, hin]
    cases hr : revents.2 with
    | false => simp
    | true =>
      obtain ⟨bs, hbs⟩ := hsucceeds.read hr
      simp [hbs, hother hr bs hbs]
  refine ⟨_, stdinReady_idle hidle, ?_, by rwa [idleStdin_state], by rwa [idleStdin_state]⟩
  rw [idleStdin, hin]
  split_ifs with hr
  · obtain ⟨bs, hbs⟩ := hsucceeds.read hr
    simp [Loop.afterStdin, hbs, hexit', SUCCESS, STARTED, ERROR]
  · exact hexit'

lemma handleLoop_waits (rest : List Pass) (hwaits : ∀ p ∈ before, p.Waits) (hexit : l.exit = false)
    (hroom : l.state.numConns + (before.flatMap Pass.joined).length ≤ MAX_CONNS) :
    ∃ l', handleLoop h (before ++ rest) l w = handleLoop h rest l' w ∧ l'.exit = false ∧
      l'.state.fds = l.state.fds ++ before.flatMap Pass.joined ∧ SameRequest l.state l'.state := by
  induction before generalizing l with
  | nil => exact ⟨l, rfl, hexit, (List.append_nil _).symm, rfl, rfl, rfl, rfl, rfl⟩
  | cons p before ih =>
    rw [List.flatMap_cons, List.length_append] at hroom
    have hp := hwaits p List.mem_cons_self
    obtain ⟨l₁, hpass, hexit₁, hfds₁, hsame₁⟩ := hp.passes (h := h) (w := w) hexit (by omega)
    have hlen := congrArg List.length hfds₁
    rw [List.length_append, State.fds_length, State.fds_length] at hlen
    obtain ⟨l', hloop, hexit', hfds', hsame'⟩ :=
      ih (fun q hq => hwaits q (List.mem_cons_of_mem _ hq)) hexit₁ (by omega)
    obtain ⟨revents, hsucceeds, -⟩ := hp
    refine ⟨l', ?_, hexit', ?_, hsame₁.trans hsame'⟩
    · rw [List.cons_append, handleLoop, if_neg (by rw [hexit, hsucceeds.quit]; decide), hpass]
      exact hloop
    · rw [hfds', hfds₁, List.flatMap_cons, List.append_assoc]

lemma handleLoop_starts {last : Pass} {s' : State} (rest : List Pass) (hlast : last.Starts)
    (hexit : l.exit = false)
    (hstart : startClients h (listenReady last (pollFds last l)).state w = some (STARTED, s', w'))
    (hroom : l.state.numConns + last.joined.length ≤ MAX_CONNS) :
    ∃ l', handleLoop h (last :: rest) l w = some (l', w') ∧ l'.state = s' ∧ l'.result = SUCCESS := by
  obtain ⟨revents, hsucceeds, hr, hcommand⟩ := hlast
  obtain ⟨-, hin, -⟩ := hsucceeds.listens hexit hroom
  have hreads : readsStart last (listenReady last (pollFds last l)) = true := by
    obtain ⟨bs, hbs⟩ := hsucceeds.read hr
    simp [readsStart, hin, hr, hbs, hcommand bs hbs]
  have hpass : handlePass h last l w =
      some ((listenReady last (pollFds last l)).afterStdin STARTED s', w') := by
    rw [handlePass, stdinReady_start hreads, hstart]
    rfl
  refine ⟨(listenReady last (pollFds last l)).afterStdin STARTED s', ?_, rfl, rfl⟩
  rw [handleLoop, if_neg (by rw [hexit, hsucceeds.quit]; decide), hpass, Option.bind_some]
  exact handleLoop_exit (by simp [Loop.afterStdin])

end Passes

lemma startClients_tells (h : Host) (hfds : s.fds.Nodup)
    (hip : s.serverIp.length + 1 < 2 ^ 32) (hdata : s.data.length < 2 ^ 63)
    (hsize : s.dataSize = s.data.length) (hs : ∀ fd ∈ s.fds, Undisturbed (w fd).sends) :
    ∃ w', startClients h s w = some (STARTED, { s with started := true }, w') ∧
      Told s.fds (bigEndian 2 start ++ dataBytes s) w w' := by
  obtain ⟨w₁, hw₁, htold₁⟩ := forEachConn_tells (writeCommand_tells h start) hfds hs
  let s₁ : State := { s with started := true }
  have hwrites := dataWrites_size (s := s₁) h hip hdata hsize
  obtain ⟨w', hw', htold'⟩ := forEachConn_tells (s := s₁) (writeEach_tells hwrites) hfds
    fun fd hfd => (htold₁.own fd hfd).2
  rw [dataWrites_bytes (s := s₁) h hip hdata hsize] at htold'
  have hcommand : sendStart h s w = some (0, s₁, w₁) := by
    rw [sendStart, hw₁]
    rfl
  have hpayload : sendData h s₁ w₁ = some (0, w') := hw'
  refine ⟨w', ?_, htold₁.trans htold'⟩
  simp only [startClients, hcommand, hpayload]
  rfl

lemma run_session {last : Pass} (h : Host) (rest : List Pass) (result : ℤ) (revents : Bool × Bool)
    (hwaits : ∀ p ∈ before, p.Waits)
    (hlast : last.Starts) (hfds : (s.fds ++ (before ++ [last]).flatMap Pass.joined).Nodup)
    (hroom : (s.fds ++ (before ++ [last]).flatMap Pass.joined).length ≤ MAX_CONNS)
    (hip : s.serverIp.length + 1 < 2 ^ 32) (hdata : s.data.length < 2 ^ 63)
    (hsize : s.dataSize = s.data.length)
    (hs : ∀ fd ∈ s.fds ++ (before ++ [last]).flatMap Pass.joined, Undisturbed (w fd).sends) :
    ∃ s' w', run h (before ++ last :: rest) result revents s w = some (false, s', w') ∧
      Told (s.fds ++ (before ++ [last]).flatMap Pass.joined)
        (bigEndian 2 start ++ dataBytes s ++ bigEndian 2 stop) w w' := by
  set fds := s.fds ++ (before ++ [last]).flatMap Pass.joined with hall
  have hcount : s.numConns + (before.flatMap Pass.joined).length + last.joined.length ≤ MAX_CONNS := by
    rw [hall] at hroom
    simpa [Nat.add_assoc] using hroom
  obtain ⟨l, hloop, hexit, hl, hsame⟩ := handleLoop_waits (h := h) (w := w) (last :: rest)
    (l := { result, revents, state := s }) hwaits rfl (Nat.le_of_add_right_le hcount)
  have hlen := congrArg List.length hl
  rw [List.length_append, State.fds_length, State.fds_length] at hlen
  change l.state.numConns = s.numConns + _ at hlen
  have hroom' : l.state.numConns + last.joined.length ≤ MAX_CONNS := hlen ▸ hcount
  set s₁ := (listenReady last (pollFds last l)).state with hs₁
  obtain ⟨revents', hsucceeds, -⟩ := id hlast
  obtain ⟨-, -, hjoined, hsame'⟩ := hsucceeds.listens hexit hroom'
  have hrequest : SameRequest s s₁ := hsame.trans hsame'
  have hs₁fds : s₁.fds = fds := by
    rw [hs₁, hjoined, hl, hall, List.flatMap_append, List.flatMap_singleton, List.append_assoc]
  -- the clients are told what the state asked for before any of them had connected
  have hbytes : dataBytes s₁ = dataBytes s := by
    simp only [dataBytes, hrequest.serverIp, hrequest.serverPort, hrequest.data]
  obtain ⟨w₁, hstart, htold⟩ := startClients_tells (s := s₁) h (hs₁fds ▸ hfds)
    (hrequest.serverIp ▸ hip) (hrequest.data ▸ hdata)
    (by rw [hrequest.dataSize, hrequest.data, hsize]) (hs₁fds ▸ hs)
  rw [hs₁fds, hbytes] at htold
  obtain ⟨l', hlast', hstate, hresult⟩ := handleLoop_starts rest hlast hexit hstart hroom'
  obtain ⟨w', hw', htold'⟩ := forEachConn_tells (s := l'.state) (writeCommand_tells h stop)
    (by rw [hstate]; exact hs₁fds ▸ hfds)
    (by rw [hstate]; exact fun fd hfd => (htold.own fd (hs₁fds ▸ hfd)).2)
  have hhandle : handle h (before ++ last :: rest) result revents s w =
      some (SUCCESS, l'.state, w₁) := by
    rw [handle, hloop, hlast', Option.map_some, ← hresult]
  have hdestroy : destroyState h l'.state w₁ = some (0, { l'.state with started := false }, w') := by
    rw [destroyState, if_pos (by rw [hstate]), sendStop, hw']
    rfl
  have htold'' : Told fds (bigEndian 2 stop) w₁ w' := by
    rw [hstate] at htold'
    exact hs₁fds ▸ htold'
  refine ⟨{ l'.state with started := false }, w', ?_, htold.trans htold''⟩
  rw [run, hhandle]
  simp only [hdestroy]
  rfl

end ScalableServer.ClientController
