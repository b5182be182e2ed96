import ScalableServer.Core.Transfer

/-! `send_start`, `send_data` and `send_stop` of the controller. A `World` gives the connection
behind each descriptor, and the server IP is the text before its terminating NUL. -/

namespace ScalableServer.ClientController

open ScalableServer.Foundations ScalableServer.Core

structure State where
  serverIp : List UInt8
  serverPort : ℕ
  acceptedFds : ℕ → ℤ
  numConns : ℕ
  data : List UInt8
  dataSize : ℤ
  started : Bool := false

abbrev World := ℤ → Conn

def start : ℕ := 1

def stop : ℕ := 2

def writeFullyTo (fd : ℤ) (data : List UInt8) (size : ℕ) (w : World) : Option (ℤ × World) :=
  (writeFully data size (w fd)).map fun (r, s) => (r, Function.update w fd s.conn)

/-- `for (int i = 0; i < s->num_conns; i++)`, with the `result` that the loop carries. -/
def forEachConn (s : State) (body : ℤ → ℤ × World → Option (ℤ × World)) (w : World) :
    Option (ℤ × World) :=
  (List.range s.numConns).foldlM (fun acc i => body (s.acceptedFds i) acc) (0, w)

def writeCommand (h : Host) (command : ℕ) (fd : ℤ) (acc : ℤ × World) : Option (ℤ × World) :=
  writeFullyTo fd (h.endian.store 2 (h.endian.hton 2 command)) 2 acc.2

def sendStart (h : Host) (s : State) (w : World) : Option (ℤ × State × World) :=
  (forEachConn s (writeCommand h start) w).map fun (result, w) =>
    (result, { s with started := true }, w)

def sendStop (h : Host) (s : State) (w : World) : Option (ℤ × State × World) :=
  (forEachConn s (writeCommand h stop) w).map fun (result, w) =>
    (result, { s with started := false }, w)

def writeNext (fd : ℤ) (acc : ℤ × World) (write : List UInt8 × ℕ) : Option (ℤ × World) :=
  (writeFullyTo fd write.1 write.2 acc.2).map fun (r, w) => (if r = -1 then -1 else acc.1, w)

def writeEach (fd : ℤ) (writes : List (List UInt8 × ℕ)) (acc : ℤ × World) : Option (ℤ × World) :=
  writes.foldlM (writeNext fd) acc

def dataWrites (h : Host) (s : State) : List (List UInt8 × ℕ) :=
  let netPort := h.endian.store 2 (h.endian.hton 2 s.serverPort)
  let ipSize := (s.serverIp.length + 1) % 2 ^ 32
  let netIpSize := h.wordBytes ipSize
  let netDataSize := h.wordBytes (s.dataSize % 2 ^ 32).toNat
  [(netPort, 2), (netIpSize, 4), (s.serverIp ++ [0], ipSize), (netDataSize, 4),
    (s.data, (s.dataSize % 2 ^ 64).toNat)]

def sendData (h : Host) (s : State) (w : World) : Option (ℤ × World) :=
  forEachConn s (fun fd => writeEach fd (dataWrites h s)) w

def Acts (body : ℤ → ℤ × World → Option (ℤ × World)) (R : Conn → ℤ → Conn → Prop) : Prop :=
  ∀ fd acc, ∃ r w, body fd acc = some (r, w) ∧ (∀ g, g ≠ fd → w g = acc.2 g) ∧
    R (acc.2 fd) r (w fd)

def Delivers (body : ℤ → ℤ × World → Option (ℤ × World)) (bs : List UInt8) : Prop :=
  ∀ fd acc, ∃ acc', body fd acc = some acc' ∧ (∀ g, g ≠ fd → acc'.2 g = acc.2 g) ∧
    (Undisturbed (acc.2 fd).sends →
      (acc'.2 fd).sent = (acc.2 fd).sent ++ bs ∧ Undisturbed (acc'.2 fd).sends)

variable {h : Host} {s : State} {w : World} {i : ℕ} {bs data : List UInt8} {size : ℕ}
  {body : ℤ → ℤ × World → Option (ℤ × World)} {R : Conn → ℤ → Conn → Prop}

lemma Delivers.acts (hb : Delivers body bs) :
    Acts body fun c _ d => Undisturbed c.sends → d.sent = c.sent ++ bs ∧ Undisturbed d.sends := by
  intro fd acc
  obtain ⟨⟨r, w⟩, hw, hother, hown⟩ := hb fd acc
  exact ⟨r, w, hw, hother, hown⟩

lemma forEachConn_acts (hb : Acts body R) (hi : i < s.numConns)
    (hdistinct : ∀ j < s.numConns, s.acceptedFds j = s.acceptedFds i → j = i) :
    ∃ r w' result, forEachConn s body w = some (result, w') ∧
      R (w (s.acceptedFds i)) r (w' (s.acceptedFds i)) ∧ (i + 1 = s.numConns → r = result) := by
  -- What the loop leaves on a connection that no other number of the table has is what one pass
  -- has left, and the result is that of the last pass.
  have hprefix : ∀ n ≤ s.numConns, ∃ result w',
      (List.range n).foldlM (fun acc i => body (s.acceptedFds i) acc) (0, w) = some (result, w') ∧
      (n ≤ i → w' (s.acceptedFds i) = w (s.acceptedFds i)) ∧
      (i < n → ∃ r, R (w (s.acceptedFds i)) r (w' (s.acceptedFds i)) ∧
        (i + 1 = n → r = result)) := by
    intro n
    induction n with
    | zero => exact fun _ => ⟨0, w, rfl, fun _ => rfl, fun hi => absurd hi (Nat.not_lt_zero i)⟩
    | succ n ih =>
      intro hn
      obtain ⟨result, w', hw', hbefore, hafter⟩ := ih (by omega)
      obtain ⟨result', w'', hw'', hother, hown⟩ := hb (s.acceptedFds n) (result, w')
      refine ⟨result', w'', ?_, fun hle => ?_, fun hlt => ?_⟩
      · rw [List.range_succ, List.foldlM_append, hw']
        simpa using hw''
      · have hne : s.acceptedFds i ≠ s.acceptedFds n := by
          intro he
          have hni := hdistinct n hn he.symm
          omega
        rw [hother _ hne]
        exact hbefore (by omega)
      · by_cases hni : n = i
        · subst hni
          simp only [hbefore (le_refl n)] at hown
          exact ⟨result', hown, fun _ => rfl⟩
        · have hne : s.acceptedFds i ≠ s.acceptedFds n := fun he => hni (hdistinct n hn he.symm)
          obtain ⟨r, hr, -⟩ := hafter (by omega)
          rw [hother _ hne]
          exact ⟨r, hr, fun he => by omega⟩
  obtain ⟨result, w', hw', -, hafter⟩ := hprefix s.numConns (le_refl _)
  obtain ⟨r, hr, hlast⟩ := hafter hi
  exact ⟨r, w', result, hw', hr, hlast⟩

lemma writeFullyTo_delivers (fd : ℤ) (w : World) (hdata : size ≤ data.length)
    (hsize : size < 2 ^ 63) :
    ∃ r w', writeFullyTo fd data size w = some (r, w') ∧ (∀ g, g ≠ fd → w' g = w g) ∧
      (Undisturbed (w fd).sends →
        (w' fd).sent = (w fd).sent ++ data.take size ∧ Undisturbed (w' fd).sends) := by
  obtain ⟨⟨r, d⟩, hr⟩ := writeFully_total (w fd) hdata
  refine ⟨r, Function.update w fd d.conn, by rw [writeFullyTo, hr]; rfl, ?_, fun hs => ?_⟩
  · intro g hg
    rw [Function.update_of_ne hg]
  · obtain ⟨d', hd', hsent, -, hs'⟩ := writeFully_quiet hdata hsize hs
    rw [hr] at hd'
    obtain ⟨-, rfl⟩ := Prod.mk.inj (Option.some.inj hd')
    rw [Function.update_self]
    exact ⟨hsent, hs'⟩

lemma writeCommand_delivers (h : Host) (command : ℕ) :
    Delivers (writeCommand h command) (bigEndian 2 command) := by
  intro fd acc
  have hword : 2 ≤ (h.endian.store 2 (h.endian.hton 2 command)).length := by simp
  obtain ⟨r, w', hw, hother, hown⟩ := writeFullyTo_delivers fd acc.2 hword (by decide)
  refine ⟨(r, w'), hw, hother, fun hs => ?_⟩
  obtain ⟨hsent, hs'⟩ := hown hs
  rw [Endian.store_hton, List.take_of_length_le (by simp)] at hsent
  exact ⟨hsent, hs'⟩

lemma writeEach_delivers {writes : List (List UInt8 × ℕ)}
    (hwrites : ∀ p ∈ writes, p.2 = p.1.length ∧ p.2 < 2 ^ 63) :
    Delivers (fun fd => writeEach fd writes) (writes.flatMap Prod.fst) := by
  intro fd acc
  induction writes generalizing acc with
  | nil =>
    refine ⟨acc, rfl, fun _ _ => rfl, fun hs => ⟨?_, hs⟩⟩
    exact (List.append_nil _).symm
  | cons p writes ih =>
    obtain ⟨hlen, hlt⟩ := hwrites p List.mem_cons_self
    obtain ⟨r, w', hw, hother, hown⟩ := writeFullyTo_delivers fd acc.2 hlen.le hlt
    have hnext : writeNext fd acc p = some (if r = -1 then -1 else acc.1, w') := by
      rw [writeNext, hw]
      rfl
    obtain ⟨acc', hacc, hother', hown'⟩ := ih (fun p hp => hwrites p (List.mem_cons_of_mem _ hp))
      (if r = -1 then -1 else acc.1, w')
    refine ⟨acc', ?_, fun g hg => (hother' g hg).trans (hother g hg), fun hs => ?_⟩
    · change (p :: writes).foldlM (writeNext fd) acc = some acc'
      rw [List.foldlM_cons, hnext]
      exact hacc
    · obtain ⟨hsent, hs'⟩ := hown hs
      obtain ⟨hsent', hs''⟩ := hown' hs'
      rw [List.take_of_length_le hlen.ge] at hsent
      refine ⟨?_, hs''⟩
      rw [hsent', hsent, List.append_assoc, List.flatMap_cons]

lemma forEachConn_delivers (hb : Delivers body bs) (hi : i < s.numConns)
    (hdistinct : ∀ j < s.numConns, s.acceptedFds j = s.acceptedFds i → j = i)
    (hs : Undisturbed (w (s.acceptedFds i)).sends) :
    ∃ acc, forEachConn s body w = some acc ∧
      (acc.2 (s.acceptedFds i)).sent = (w (s.acceptedFds i)).sent ++ bs ∧
      Undisturbed (acc.2 (s.acceptedFds i)).sends := by
  obtain ⟨r, w', result, hw', hr, -⟩ := forEachConn_acts hb.acts hi hdistinct
  exact ⟨(result, w'), hw', hr hs⟩

def dataBytes (s : State) : List UInt8 :=
  bigEndian 2 s.serverPort ++ bigEndian 4 (s.serverIp.length + 1) ++ (s.serverIp ++ [0]) ++
    bigEndian 4 s.data.length ++ s.data

lemma dataWrites_eq (h : Host) (hip : s.serverIp.length + 1 < 2 ^ 32)
    (hdata : s.data.length < 2 ^ 63) (hsize : s.dataSize = s.data.length) :
    dataWrites h s = [(bigEndian 2 s.serverPort, 2),
      (bigEndian 4 (s.serverIp.length + 1), 4), (s.serverIp ++ [0], s.serverIp.length + 1),
      (bigEndian 4 s.data.length, 4), (s.data, s.data.length)] := by
  have hip' : (s.serverIp.length + 1) % 2 ^ 32 = s.serverIp.length + 1 := Nat.mod_eq_of_lt hip
  have hword : (s.dataSize % 2 ^ 32).toNat = s.data.length % 2 ^ 32 := by omega
  have hlong : (s.dataSize % 2 ^ 64).toNat = s.data.length := by omega
  have hmod : bigEndian 4 (s.data.length % 2 ^ 32) = bigEndian 4 s.data.length :=
    bigEndian_mod 4 s.data.length
  simp only [dataWrites, hip', hword, hlong, Endian.store_hton, h.wordBytes_eq, hmod]

lemma dataWrites_size (h : Host) (hip : s.serverIp.length + 1 < 2 ^ 32)
    (hdata : s.data.length < 2 ^ 63) (hsize : s.dataSize = s.data.length) :
    ∀ p ∈ dataWrites h s, p.2 = p.1.length ∧ p.2 < 2 ^ 63 := by
  rw [dataWrites_eq h hip hdata hsize]
  intro p hp
  simp only [List.mem_cons, List.not_mem_nil, or_false] at hp
  rcases hp with rfl | rfl | rfl | rfl | rfl
  · exact ⟨(bigEndian_length _ _).symm, by change 2 < 2 ^ 63; decide⟩
  · exact ⟨(bigEndian_length _ _).symm, by change 4 < 2 ^ 63; decide⟩
  · exact ⟨by simp, by change s.serverIp.length + 1 < 2 ^ 63; omega⟩
  · exact ⟨(bigEndian_length _ _).symm, by change 4 < 2 ^ 63; decide⟩
  · exact ⟨rfl, hdata⟩

lemma dataWrites_bytes (h : Host) (hip : s.serverIp.length + 1 < 2 ^ 32)
    (hdata : s.data.length < 2 ^ 63) (hsize : s.dataSize = s.data.length) :
    (dataWrites h s).flatMap Prod.fst = dataBytes s := by
  rw [dataWrites_eq h hip hdata hsize]
  simp [dataBytes]

lemma dataWrites_delivers (h : Host) (hip : s.serverIp.length + 1 < 2 ^ 32)
    (hdata : s.data.length < 2 ^ 32) (hsize : s.dataSize = s.data.length) :
    Delivers (fun fd => writeEach fd (dataWrites h s)) (dataBytes s) := by
  have hlong : s.data.length < 2 ^ 63 := by omega
  rw [← dataWrites_bytes h hip hlong hsize]
  exact writeEach_delivers (dataWrites_size h hip hlong hsize)

end ScalableServer.ClientController
