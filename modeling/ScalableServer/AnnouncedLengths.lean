import ScalableServer.Client.Payload
import ScalableServer.ClientController.FanOut

namespace ScalableServer

open ScalableServer.Foundations ScalableServer.Core

namespace ClientController

def loadData (h : Host) (calls : Client.LoadCalls) (stSize : ℕ) (contents : List UInt8)
    (s : State) : ℤ × State :=
  if calls.stat = false then (-1, s)
  else if h.alloc stSize = false then (-1, s)
  else if calls.fopen = false then (-1, { s with data := [] })
  else
    let read := contents.take stSize
    (if read.length < stSize ∨ calls.fclose = false then -1 else 0,
      { s with data := read, dataSize := stSize })

def addressSize (s : State) : ℕ := 2 + 4 + (s.serverIp.length + 1) % 2 ^ 32

end ClientController

def Announces (bs : List UInt8) : Prop :=
  4 ≤ bs.length ∧ (bs.drop 4).length = ofBigEndian (bs.take 4)

def ClientController.AnnouncesData (h : Host) (s : State) : Prop :=
  ∀ w r w', sendData h s w = some (r, w') → ∀ fd ∈ s.fds, Writable (w fd).sends →
    Announces ((w' fd).sent.drop ((w fd).sent.length + addressSize s))

def Client.AnnouncesData (h : Host) (a : HandleArgs) : Prop :=
  ∀ calls t (reply : List UInt8 → List UInt8) c pass bs, c.sent = [] →
    handle h a calls t (fun bs => some (bs, reply bs)) c = some (pass, some bs) → Announces bs

variable {h : Host}

lemma announces_append_iff (n : ℕ) (data : List UInt8) :
    Announces (bigEndian 4 n ++ data) ↔ data.length = n % 2 ^ 32 := by
  have hlen : (bigEndian 4 n).length = 4 := bigEndian_length 4 n
  rw [Announces, List.take_left' hlen, List.drop_left' hlen, ofBigEndian_bigEndian_mod,
    List.length_append, hlen, and_iff_right (by omega)]
  norm_num

namespace ClientController

variable {calls : Client.LoadCalls} {stSize : ℕ} {contents : List UInt8} {s₀ s : State}
  {w w' : World} {r fd : ℤ}

lemma loadData_size (hload : loadData h calls stSize contents s₀ = (0, s)) :
    s.data.length = stSize ∧ s.dataSize = stSize := by
  rw [loadData] at hload
  split_ifs at hload
  · cases hload
  · cases hload
  · cases hload
  · obtain ⟨hret, rfl⟩ := Prod.mk.inj hload
    have hlen : ¬ (contents.take stSize).length < stSize := by
      intro hlt
      rw [if_pos (.inl hlt)] at hret
      cases hret
    refine ⟨?_, rfl⟩
    change (contents.take stSize).length = stSize
    rw [List.length_take] at hlen ⊢
    omega

lemma dataWrites_lt (hdata : s.data.length < 2 ^ 63) (hsize : s.dataSize = s.data.length) :
    ∀ write ∈ dataWrites h s, write.2 < 2 ^ 63 := by
  intro write hwrite
  simp only [dataWrites, List.mem_cons, List.not_mem_nil, or_false] at hwrite
  rcases hwrite with rfl | rfl | rfl | rfl | rfl
  · change 2 < 2 ^ 63
    decide
  · change 4 < 2 ^ 63
    decide
  · change (s.serverIp.length + 1) % 2 ^ 32 < 2 ^ 63
    omega
  · change 4 < 2 ^ 63
    decide
  · change (s.dataSize % 2 ^ 64).toNat < 2 ^ 63
    omega

lemma dataWrites_split (hdata : s.data.length < 2 ^ 63) (hsize : s.dataSize = s.data.length) :
    ∃ address : List UInt8, address.length = addressSize s ∧
      ((dataWrites h s).flatMap fun p => p.1.take p.2) =
        address ++ (bigEndian 4 s.data.length ++ s.data) := by
  have hlong : (s.dataSize % 2 ^ 64).toNat = s.data.length := by omega
  have hword : bigEndian 4 (s.dataSize % 2 ^ 32).toNat = bigEndian 4 s.data.length := by
    have hmod : (s.dataSize % 2 ^ 32).toNat = s.data.length % 256 ^ 4 := by omega
    rw [hmod, bigEndian_mod]
  refine ⟨bigEndian 2 s.serverPort ++ bigEndian 4 ((s.serverIp.length + 1) % 2 ^ 32) ++
    (s.serverIp ++ [0]).take ((s.serverIp.length + 1) % 2 ^ 32), ?_, ?_⟩
  · have hle := Nat.mod_le (s.serverIp.length + 1) (2 ^ 32)
    simp only [List.length_append, List.length_take, bigEndian_length, List.length_singleton,
      addressSize, min_eq_left hle]
  · have hport := List.take_of_length_le (bigEndian_length 2 s.serverPort).le
    have hlength := fun n => List.take_of_length_le (bigEndian_length 4 n).le
    simp only [dataWrites, List.flatMap_cons, List.flatMap_nil, Endian.store_hton, h.wordBytes_eq,
      hlong, hword, hport, hlength, List.take_length, List.append_nil, List.append_assoc]

lemma sendData_sent (hdata : s.data.length < 2 ^ 63) (hsize : s.dataSize = s.data.length)
    (hfds : s.fds.Nodup) (hfd : fd ∈ s.fds) (hsend : sendData h s w = some (r, w'))
    (hwrites : Writable (w fd).sends) :
    (w' fd).sent.drop ((w fd).sent.length + addressSize s) =
      bigEndian 4 s.data.length ++ s.data := by
  obtain ⟨i, hi, rfl⟩ := List.mem_map.mp hfd
  have hdistinct : Distinct [] s := by rwa [Distinct, List.filterMap_nil, List.append_nil]
  have hacts := writeEach_acts fun p hp =>
    ⟨dataWrites_fit h hsize p hp, dataWrites_lt hdata hsize p hp⟩
  obtain ⟨-, hputs, -⟩ := forEachConn_result hacts hdistinct (List.mem_range.mp hi) hsend
  obtain ⟨address, haddress, hbytes⟩ := dataWrites_split (h := h) hdata hsize
  rw [(hputs hwrites).1, hbytes, ← List.append_assoc, List.drop_left' (by simp [haddress])]

lemma sendData_returns (hsize : s.dataSize = s.data.length) (w : World) :
    ∃ r w', sendData h s w = some (r, w') := by
  obtain ⟨results, w', -, hrun⟩ := sendData_fansOut h w hsize
  exact ⟨_, w', hrun⟩

lemma announcesData_iff (hdata : s.data.length < 2 ^ 63) (hsize : s.dataSize = s.data.length)
    (hfds : s.fds.Nodup) : AnnouncesData h s ↔ s.data.length < 2 ^ 32 ∨ s.fds = [] := by
  constructor
  · intro hall
    by_contra hnot
    obtain ⟨hlong, hsome⟩ := not_or.mp hnot
    obtain ⟨fd, hfd⟩ := List.exists_mem_of_ne_nil _ hsome
    let w : World := fun _ =>
      { recvs := Stream'.const (.moves 1), sends := Stream'.const (.moves 1)
        selects := Stream'.const (.moves 0) }
    have hwrites : Writable (w fd).sends := by
      intro n e
      simp [w, Stream'.get_const, Answer.moves]
    obtain ⟨r, w', hsend⟩ := sendData_returns (h := h) hsize w
    have hannounces := hall w r w' hsend fd hfd hwrites
    rw [sendData_sent hdata hsize hfds hfd hsend hwrites, announces_append_iff] at hannounces
    omega
  · rintro (hshort | hnone) w r w' hsend fd hfd hwrites
    · rw [sendData_sent hdata hsize hfds hfd hsend hwrites, announces_append_iff]
      omega
    · rw [hnone] at hfd
      cases hfd

end ClientController

namespace Client

variable {a : HandleArgs}

lemma announcesData (hword : a.dataSizeWord ≤ a.data.length) : AnnouncesData h a := by
  intro calls t reply c pass bs hsent hhandle
  have hlt : a.dataSizeWord < 2 ^ 32 := by
    rw [HandleArgs.dataSizeWord]
    omega
  rw [handle_sent hword hlt hsent hhandle, h.wordBytes_eq, announces_append_iff, List.length_take]
  omega

lemma createThreads_word {s : State} (hs : Obtained h s) {inetAddr : List UInt8 → Option ℕ}
    {calls : StartCalls} {n : ℤ} {p : Pool} {t : Thread}
    (ht : t ∈ (createThreads inetAddr calls n s p).2.running) (hnew : t ∉ p.running) :
    t.args.dataSizeWord ≤ t.args.data.length := by
  obtain ⟨addr, j, hargs⟩ := (createThreads_args t ht).resolve_left hnew
  have hsize := hs.size
  rw [hargs, HandleArgs.dataSizeWord, handleArgs, strncpy_length]
  change (s.dataSize % 2 ^ 32).toNat ≤ s.dataSize.toNat
  omega

end Client

theorem announces_iff (h : Host) (calls : Client.LoadCalls) (stSize : ℕ) (hoff : stSize < 2 ^ 63)
    (contents : List UInt8) (s₀ s : ClientController.State)
    (hload : ClientController.loadData h calls stSize contents s₀ = (0, s)) (hfds : s.fds.Nodup) :
    (∀ (c₀ c : Client.State) (inetAddr : List UInt8 → Option ℕ) (start : Client.StartCalls) (n : ℤ)
        (p : Client.Pool), Client.loadData h calls stSize contents c₀ = (0, c) →
      ∀ t ∈ (Client.createThreads inetAddr start n c p).2.running, t ∉ p.running →
        Client.AnnouncesData h t.args) ∧
      (ClientController.AnnouncesData h s ↔ stSize < 2 ^ 32 ∨ s.fds = []) := by
  refine ⟨fun c₀ c inetAddr start n p hfile t ht hnew => ?_, ?_⟩
  · exact Client.announcesData (Client.createThreads_word (.file hfile) ht hnew)
  · obtain ⟨hlen, hsize⟩ := ClientController.loadData_size hload
    rw [← hlen] at hsize hoff ⊢
    exact ClientController.announcesData_iff hoff hsize hfds

lemma ClientController.loadData_whole {stSize : ℕ} {contents : List UInt8}
    (s : ClientController.State) (halloc : h.alloc stSize = true) (hlen : contents.length = stSize) :
    ∃ s', ClientController.loadData h {} stSize contents s = (0, s') ∧ s'.fds = s.fds := by
  have hread : contents.take stSize = contents := List.take_of_length_le hlen.le
  refine ⟨{ s with data := contents, dataSize := stSize }, ?_, rfl⟩
  simp [ClientController.loadData, halloc, hread, hlen]

theorem not_announces :
    ¬ ∀ (h : Host) (calls : Client.LoadCalls) (stSize : ℕ), stSize < 2 ^ 63 →
        ∀ (contents : List UInt8) (s₀ s : ClientController.State),
        ClientController.loadData h calls stSize contents s₀ = (0, s) → s.fds.Nodup →
        ClientController.AnnouncesData h s := by
  intro hall
  let h : Host := ⟨.little, fun _ => true, fun _ => []⟩
  obtain ⟨contents, hlen⟩ : ∃ contents : List UInt8, contents.length = 2 ^ 32 :=
    ⟨List.replicate (2 ^ 32) 0, List.length_replicate⟩
  obtain ⟨s, hload, hfds⟩ :=
    ClientController.loadData_whole (h := h) ClientController.twoClients rfl hlen
  have hnodup : s.fds.Nodup := by
    rw [hfds]
    decide
  have hannounces := hall h {} (2 ^ 32) (by decide) contents _ s hload hnodup
  obtain ⟨hdata, hsize⟩ := ClientController.loadData_size hload
  rw [← hdata] at hsize
  have hlt : s.data.length < 2 ^ 63 := by
    rw [hdata]
    decide
  have hiff := (ClientController.announcesData_iff hlt hsize hnodup).mp hannounces
  rw [hdata, hfds] at hiff
  exact hiff.elim (lt_irrefl _) (by decide)

theorem announces_three_bytes :
    let h : Host := ⟨.little, fun _ => true, fun _ => []⟩
    ∃ s, ClientController.loadData h {} 3 [72, 105, 10] ClientController.twoClients = (0, s) ∧
      s.fds = [5, 6] ∧ ClientController.AnnouncesData h s := by
  intro h
  obtain ⟨s, hload, hfds⟩ :
      ∃ s, ClientController.loadData h {} 3 [72, 105, 10] ClientController.twoClients = (0, s) ∧
        s.fds = ClientController.twoClients.fds :=
    ClientController.loadData_whole _ rfl rfl
  have hnodup : s.fds.Nodup := by
    rw [hfds]
    decide
  exact ⟨s, hload, hfds, (announces_iff h {} 3 (by decide) _ _ s hload hnodup).2.mpr
    (.inl (by decide))⟩

end ScalableServer
