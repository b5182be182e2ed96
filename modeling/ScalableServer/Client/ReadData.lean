import ScalableServer.Client.ReadFully
import ScalableServer.Client.Run

/-! What `read_data` stores, also where it does not return: `readDataFilled` are the buffers that it
gives to `read_fully`, as they are at the start of each pass, and that of the address. -/

namespace ScalableServer.Client

open ScalableServer.Foundations ScalableServer.Core

def filledThen (size : ℕ) (b : Buffer) (put : Buffer → State → State)
    (next : Buffer → State → Set Buffer) (s : State) : Set Buffer :=
  {x | ∃ d, Passes (readFullyBody size) { buffer := b, conn := s.controller } d ∧ d.buffer = x} ∪
    {x | ∃ r d, readFully size b s.controller = some (r, d) ∧ r ≠ -1 ∧
      x ∈ next d.buffer (put d.buffer { s with controller := d.conn })}

def payloadFilled (h : Host) (size : Buffer) (s : State) : Set Buffer :=
  let dataSize := h.endian.load size.cells
  let s := { s with dataSize := h.endian.ntoh 4 dataSize }
  if h.alloc dataSize = false then ∅
  else filledThen (s.dataSize % 2 ^ 64).toNat { size := dataSize } putData (fun _ _ => ∅) s

def serverIpFilled (h : Host) (size : Buffer) (s : State) : Set Buffer :=
  let serverIpSize := h.endian.ntoh 4 (h.endian.load size.cells)
  let bufferSize := (serverIpSize + 1) % 2 ^ 32
  if h.alloc bufferSize = false then ∅
  else
    filledThen serverIpSize { size := bufferSize } putServerIp (fun b s =>
      {b.store serverIpSize [0]} ∪ filledThen 4 { size := 4 } putLocal (payloadFilled h)
        (putServerIp (b.store serverIpSize [0]) s)) s

def readDataFilled (h : Host) (s : State) : Set Buffer :=
  filledThen 2 { size := 2 } putLocal (fun netPort s =>
    filledThen 4 { size := 4 } putLocal (serverIpFilled h)
      { s with serverPort := h.endian.ntoh 2 (h.endian.load netPort.cells) }) s

def StoresWithin (h : Host) (s : State) : Prop := ∀ b ∈ readDataFilled h s, b.Within b.size

def ipHeader (u : List UInt8) : List UInt8 := (u.drop 2).take 4

def announcedIp (u : List UInt8) : ℕ := ofBigEndian (ipHeader u)

def dataHeader (u : List UInt8) : List UInt8 := (u.drop (6 + announcedIp u)).take 4

/-- The lengths that are announced fit what `malloc` is asked for, where it grants it. `data_size` is
passed to it before `ntohl`. -/
structure SizesFit (h : Host) (u : List UInt8) : Prop where
  serverIp : 6 < u.length → h.alloc ((announcedIp u + 1) % 2 ^ 32) = true →
    announcedIp u + 1 < 2 ^ 32
  data : 10 + announcedIp u ≤ u.length → h.alloc ((announcedIp u + 1) % 2 ^ 32) = true →
    h.alloc (h.endian.load (dataHeader u)) = true →
    min (ofBigEndian (dataHeader u)) (u.length - (10 + announcedIp u)) ≤
      h.endian.load (dataHeader u)

section Fill

variable {size m : ℕ} {c : Conn} {d : Read} {s : State} {put : Buffer → State → State}
  {next : Buffer → State → Set Buffer}

lemma passes_within (h : Passes (readFullyBody size) { buffer := { size := m }, conn := c } d) :
    d.buffer.size = m ∧ d.buffer.Within (min size c.unread.length) := by
  let I : Read → Prop := fun s => s.nread ≤ size ∧ s.nread ≤ c.unread.length ∧
    s.conn.unread = c.unread.drop s.nread ∧ s.buffer.size = m ∧
    s.buffer.Within (min size c.unread.length)
  have hI : I d := by
    refine h.invariant (I := I) ⟨Nat.zero_le _, Nat.zero_le _, rfl, rfl, ?_⟩ ?_
    · intro st hst
      cases hst
    · rintro x y ⟨hle, havail, hunread, hsize, hwithin⟩ hpass
      rw [readFullyBody] at hpass
      split_ifs at hpass
      cases hrecv : x.conn.recv (size - x.nread) with
      | none =>
        rw [hrecv] at hpass
        cases hpass
      | some q =>
        obtain ⟨r, e⟩ := q
        rw [hrecv] at hpass
        cases r with
        | error err => cases hpass
        | ok bs =>
          obtain rfl := Iter.again.inj hpass
          obtain ⟨n, hreq, hn, rfl, hunread', -⟩ := Conn.recv_takes hrecv
          have hlen : (x.conn.unread.take n).length = n := by
            rw [List.length_take]
            omega
          rw [hunread, List.length_drop] at hn
          refine ⟨?_, ?_, ?_, hsize, Buffer.store_within hwithin ?_⟩
          · change x.nread + (x.conn.unread.take n).length ≤ size
            omega
          · change x.nread + (x.conn.unread.take n).length ≤ c.unread.length
            omega
          · change e.unread = c.unread.drop (x.nread + (x.conn.unread.take n).length)
            rw [hunread', hlen, hunread, List.drop_drop]
          · omega
  exact hI.2.2.2

lemma passes_fills (hsize : size < 2 ^ 63) (hquiet : Undisturbed c.recvs)
    (hsome : 0 < min size c.unread.length) :
    ∃ d, Passes (readFullyBody size) { buffer := { size := m }, conn := c } d ∧
      ∃ st ∈ d.buffer.stores, st.1 + st.2 = min size c.unread.length := by
  have hssize := ssize_eq hsize
  have hfill : ∀ left (s : Read), ReadsFrom size c s → s.nread < min size c.unread.length →
      min size c.unread.length - s.nread ≤ left →
      ∃ d, Passes (readFullyBody size) s d ∧
        ∃ st ∈ d.buffer.stores, st.1 + st.2 = min size c.unread.length := by
    intro left
    induction left with
    | zero =>
      intro s _ hlt hleft
      omega
    | succ left ih =>
      intro s hs hlt hleft
      have hpos := hs.nextRead_pos (by omega) (by omega)
      have hnext := hs.next
      have hread : (readOn size s).nread = s.nread + nextRead size s := rfl
      have hne : s.conn.unread ≠ [] := by
        rw [hs.unread, ← List.length_pos_iff, List.length_drop]
        omega
      have hpass : readFullyBody size s = .again (readOn size s) :=
        readFullyBody_next (by omega) hs.recvs (.inl hne)
      by_cases hlast : (readOn size s).nread < min size c.unread.length
      · obtain ⟨d, hd, hst⟩ := ih (readOn size s) hnext hlast (by omega)
        exact ⟨d, .head hpass hd, hst⟩
      · have hle := hnext.nread
        have hle' := hnext.avail
        have hlen : (s.conn.unread.take (nextRead size s)).length = nextRead size s := by
          rw [List.length_take]
          exact min_eq_left (chunk_le_available _ _ _)
        refine ⟨readOn size s, .single hpass,
          (s.nread, (s.conn.unread.take (nextRead size s)).length),
          List.mem_append_right _ (List.mem_singleton_self _), ?_⟩
        simp only [hlen]
        omega
  exact hfill _ _ (readsFrom_start hquiet) hsome (le_refl _)

lemma readFully_done (hsize : size < 2 ^ 63) (hquiet : Undisturbed c.recvs) {r : ℤ}
    (hrun : readFully size { size := m } c = some (r, d)) (hr : r ≠ -1) :
    size ≤ c.unread.length ∧ d.buffer.cells = c.unread.take size ∧ d.buffer.size = m ∧
      d.buffer.Within size ∧ d.conn.unread = c.unread.drop size ∧ Undisturbed d.conn.recvs := by
  obtain ⟨-, hlen⟩ := readFully_took hsize rfl hrun hr
  obtain ⟨e, he, hcells, hm, hwithin, hunread, hquiet', -⟩ := readFully_quiet
    (b := { size := m }) (List.take_append_drop size c.unread).symm
    (by rw [List.length_take]; omega) hsize hquiet rfl (by intro st hst; cases hst)
  rw [hrun] at he
  obtain ⟨-, rfl⟩ := Prod.mk.inj (Option.some.inj he)
  exact ⟨hlen, hcells, hm, hwithin, hunread, hquiet'⟩

lemma filledThen_within_iff (hsize : size < 2 ^ 63) (hquiet : Undisturbed s.controller.recvs) :
    (∀ x ∈ filledThen size { size := m } put next s, x.Within x.size) ↔
      min size s.controller.unread.length ≤ m ∧
        ∀ r d, readFully size { size := m } s.controller = some (r, d) → r ≠ -1 →
          ∀ x ∈ next d.buffer (put d.buffer { s with controller := d.conn }), x.Within x.size := by
  constructor
  · intro hall
    refine ⟨?_, fun r d hrun hr x hx => hall x (.inr ⟨r, d, hrun, hr, hx⟩)⟩
    by_contra hlt
    obtain ⟨d, hd, st, hst, hend⟩ := passes_fills (m := m) hsize hquiet (by omega)
    have hwithin := hall d.buffer (.inl ⟨d, hd, rfl⟩) st hst
    rw [(passes_within hd).1] at hwithin
    omega
  · rintro ⟨hle, hnext⟩ x (⟨d, hd, rfl⟩ | ⟨r, d, hrun, hr, hx⟩)
    · obtain ⟨hm, hwithin⟩ := passes_within hd
      rw [hm]
      exact fun st hst => (hwithin st hst).trans hle
    · exact hnext r d hrun hr x hx

end Fill

section Stages

variable {h : Host} {s : State} {size : Buffer}

lemma payloadFilled_within_iff (hquiet : Undisturbed s.controller.recvs)
    (hsize : size.cells.length = 4) :
    (∀ x ∈ payloadFilled h size s, x.Within x.size) ↔
      (h.alloc (h.endian.load size.cells) = true →
        min (ofBigEndian size.cells) s.controller.unread.length ≤ h.endian.load size.cells) := by
  have hword : h.endian.ntoh 4 (h.endian.load size.cells) = ofBigEndian size.cells := by
    rw [← hsize, Endian.ntoh_load]
  have hlt := ofBigEndian_lt size.cells
  rw [hsize] at hlt
  have hlong : ((ofBigEndian size.cells : ℤ) % 2 ^ 64).toNat = ofBigEndian size.cells := by omega
  have hfilled : (∀ x ∈ filledThen (ofBigEndian size.cells) { size := h.endian.load size.cells }
      putData (fun _ _ => ∅) { s with dataSize := (ofBigEndian size.cells : ℤ) },
      x.Within x.size) ↔ _ := filledThen_within_iff (by omega) hquiet
  simp only [payloadFilled, hword, hlong]
  cases halloc : h.alloc (h.endian.load size.cells) with
  | false => simp
  | true =>
    rw [if_neg (by simp), hfilled]
    simp

lemma dataFilled_within_iff {n : ℕ} {u : List UInt8} (hquiet : Undisturbed s.controller.recvs)
    (hunread : s.controller.unread = u.drop n) :
    (∀ x ∈ filledThen 4 { size := 4 } putLocal (payloadFilled h) s, x.Within x.size) ↔
      (n + 4 ≤ u.length → h.alloc (h.endian.load ((u.drop n).take 4)) = true →
        min (ofBigEndian ((u.drop n).take 4)) (u.length - (n + 4)) ≤
          h.endian.load ((u.drop n).take 4)) := by
  have hdone : ∀ r d, readFully 4 { size := 4 } s.controller = some (r, d) → r ≠ -1 →
      n + 4 ≤ u.length ∧ d.buffer.cells = (u.drop n).take 4 ∧ d.buffer.cells.length = 4 ∧
        d.conn.unread.length = u.length - (n + 4) ∧ Undisturbed d.conn.recvs := by
    intro r d hrun hr
    obtain ⟨hlen, hcells, -, -, hrest, hquiet'⟩ := readFully_done (by norm_num) hquiet hrun hr
    rw [hunread] at hlen hcells hrest
    rw [List.length_drop] at hlen
    refine ⟨by omega, hcells, ?_, ?_, hquiet'⟩
    · rw [hcells, List.length_take, List.length_drop]
      omega
    · rw [hrest, List.length_drop, List.length_drop]
      omega
  rw [filledThen_within_iff (by norm_num) hquiet]
  constructor
  · rintro ⟨-, hnext⟩ hlen
    obtain ⟨d, hd⟩ := readFully_returns (b := { size := 4 }) (by norm_num) hquiet
      (show 4 ≤ s.controller.unread.length by rw [hunread, List.length_drop]; omega)
    obtain ⟨-, hcells, hfour, hrest, hquiet'⟩ := hdone 0 d hd (by decide)
    have hpayload := (payloadFilled_within_iff (s := { s with controller := d.conn }) hquiet'
      hfour).mp (hnext 0 d hd (by decide))
    change _ → min _ d.conn.unread.length ≤ _ at hpayload
    rwa [hcells, hrest] at hpayload
  · intro hfits
    refine ⟨min_le_left _ _, fun r d hrun hr => ?_⟩
    obtain ⟨hlen, hcells, hfour, hrest, hquiet'⟩ := hdone r d hrun hr
    refine (payloadFilled_within_iff (s := { s with controller := d.conn }) hquiet' hfour).mpr ?_
    change _ → min _ d.conn.unread.length ≤ _
    rw [hcells, hrest]
    exact hfits hlen

lemma serverIpFilled_within_iff (hquiet : Undisturbed s.controller.recvs)
    (hsize : size.cells.length = 4) {n : ℕ} (hn : ofBigEndian size.cells = n) {u : List UInt8}
    (hu : s.controller.unread = u) :
    (∀ x ∈ serverIpFilled h size s, x.Within x.size) ↔
      (h.alloc ((n + 1) % 2 ^ 32) = true → (0 < u.length → n + 1 < 2 ^ 32) ∧
        (n + 4 ≤ u.length → h.alloc (h.endian.load ((u.drop n).take 4)) = true →
          min (ofBigEndian ((u.drop n).take 4)) (u.length - (n + 4)) ≤
            h.endian.load ((u.drop n).take 4))) := by
  have hword : h.endian.ntoh 4 (h.endian.load size.cells) = n := by
    rw [← hn, ← hsize, Endian.ntoh_load]
  have hlt := ofBigEndian_lt size.cells
  rw [hsize, hn] at hlt
  simp only [serverIpFilled, hword]
  cases halloc : h.alloc ((n + 1) % 2 ^ 32) with
  | false => simp
  | true =>
    rw [if_neg (by simp), filledThen_within_iff (by omega) hquiet, hu]
    simp only [true_imp_iff]
    constructor
    · rintro ⟨hmin, hnext⟩
      refine ⟨fun hpos => by omega, fun hlen => ?_⟩
      obtain ⟨d, hd⟩ := readFully_returns (b := { size := (n + 1) % 2 ^ 32 }) (by omega) hquiet
        (show n ≤ s.controller.unread.length by rw [hu]; omega)
      obtain ⟨-, -, -, -, hrest, hquiet'⟩ := readFully_done (by omega) hquiet hd (by decide)
      rw [hu] at hrest
      exact (dataFilled_within_iff (s := { s with
        controller := d.conn, serverIp := d.buffer.store n [0] }) hquiet' hrest).mp
        (fun x hx => hnext 0 d hd (by decide) x (.inr hx)) hlen
    · rintro ⟨hip, hdata⟩
      refine ⟨by omega, fun r d hrun hr x hx => ?_⟩
      obtain ⟨hlen, -, hm, hwithin, hrest, hquiet'⟩ := readFully_done (by omega) hquiet hrun hr
      rw [hu] at hlen hrest
      rcases hx with rfl | hx
      · change (d.buffer.store n [0]).Within d.buffer.size
        rw [hm]
        refine Buffer.store_within (fun st hst => (hwithin st hst).trans ?_) ?_
        · omega
        · change n + 1 ≤ _
          omega
      · exact (dataFilled_within_iff (s := { s with
          controller := d.conn, serverIp := d.buffer.store n [0] }) hquiet' hrest).mpr hdata x hx

lemma localFilled_within_iff {w : ℕ} {next : Buffer → State → Set Buffer} (hw : w < 2 ^ 63)
    (hquiet : Undisturbed s.controller.recvs) :
    (∀ x ∈ filledThen w { size := w } putLocal next s, x.Within x.size) ↔
      ∀ d, readFully w { size := w } s.controller = some (0, d) →
        ∀ x ∈ next d.buffer { s with controller := d.conn }, x.Within x.size := by
  rw [filledThen_within_iff hw hquiet]
  constructor
  · rintro ⟨-, hnext⟩ d hd
    exact hnext 0 d hd (by decide)
  · intro hnext
    refine ⟨min_le_left _ _, fun r d hrun hr => ?_⟩
    obtain ⟨e, he⟩ := readFully_returns (b := { size := w }) hw hquiet
      (readFully_done hw hquiet hrun hr).1
    have hzero := hrun
    rw [he] at hzero
    obtain ⟨rfl, rfl⟩ := Prod.mk.inj (Option.some.inj hzero)
    exact hnext e hrun

lemma stage_within_iff {u : List UInt8} (hquiet : Undisturbed s.controller.recvs)
    (hcells : size.cells = ipHeader u) (hlen : 6 ≤ u.length)
    (hunread : s.controller.unread = u.drop 6) :
    (∀ x ∈ serverIpFilled h size s, x.Within x.size) ↔ SizesFit h u := by
  have hfour : size.cells.length = 4 := by
    rw [hcells, ipHeader, List.length_take, List.length_drop]
    omega
  have hrest : u.length - 6 - (announcedIp u + 4) = u.length - (10 + announcedIp u) := by omega
  rw [serverIpFilled_within_iff hquiet hfour (n := announcedIp u) (by rw [hcells]; rfl) hunread,
    List.length_drop, List.drop_drop, hrest]
  constructor
  · intro hfits
    exact ⟨fun hmore halloc => (hfits halloc).1 (by omega),
      fun hmore halloc => (hfits halloc).2 (by omega)⟩
  · rintro ⟨hip, hdata⟩ halloc
    exact ⟨fun hpos => hip (by omega) halloc, fun hmore => hdata (by omega) halloc⟩

lemma unread_of_port {d : Read} (hquiet : Undisturbed s.controller.recvs)
    (hd : readFully 2 { size := 2 } s.controller = some (0, d)) :
    d.conn.unread = s.controller.unread.drop 2 ∧ Undisturbed d.conn.recvs := by
  obtain ⟨-, -, -, -, hunread, hquiet'⟩ := readFully_done (by norm_num) hquiet hd (by decide)
  exact ⟨hunread, hquiet'⟩

lemma stage_of_ipHeader {d e : Read} (hquiet : Undisturbed s.controller.recvs)
    (hd : readFully 2 { size := 2 } s.controller = some (0, d))
    (he : readFully 4 { size := 4 } d.conn = some (0, e)) :
    (∀ x ∈ serverIpFilled h e.buffer { s with
        controller := e.conn, serverPort := h.endian.ntoh 2 (h.endian.load d.buffer.cells) },
      x.Within x.size) ↔ SizesFit h s.controller.unread := by
  obtain ⟨hunread, hquiet'⟩ := unread_of_port hquiet hd
  obtain ⟨hlen, hcells, -, -, hrest, hquiet''⟩ :=
    readFully_done (by norm_num) hquiet' he (by decide)
  rw [hunread] at hcells hrest
  rw [hunread, List.length_drop] at hlen
  refine stage_within_iff (s := { s with
    controller := e.conn, serverPort := h.endian.ntoh 2 (h.endian.load d.buffer.cells) })
    hquiet'' hcells (by omega) ?_
  rw [hrest, List.drop_drop]

lemma sizesFit_of_within (hquiet : Undisturbed s.controller.recvs)
    (hall : StoresWithin h s) : SizesFit h s.controller.unread := by
  by_cases hlen : 6 ≤ s.controller.unread.length
  · obtain ⟨d, hd⟩ := readFully_returns (b := { size := 2 }) (by norm_num) hquiet
      (show 2 ≤ s.controller.unread.length by omega)
    obtain ⟨hunread, hquiet'⟩ := unread_of_port hquiet hd
    obtain ⟨e, he⟩ := readFully_returns (b := { size := 4 }) (by norm_num) hquiet'
      (show 4 ≤ d.conn.unread.length by rw [hunread, List.length_drop]; omega)
    have hip := (localFilled_within_iff (by norm_num) hquiet).mp hall d hd
    exact (stage_of_ipHeader hquiet hd he).mp
      ((localFilled_within_iff (by norm_num) hquiet').mp hip e he)
  · exact ⟨fun hmore => by omega, fun hmore => by omega⟩

lemma within_of_sizesFit (hquiet : Undisturbed s.controller.recvs)
    (hfits : SizesFit h s.controller.unread) : StoresWithin h s := by
  refine (localFilled_within_iff (by norm_num) hquiet).mpr fun d hd => ?_
  refine (localFilled_within_iff (by norm_num) (unread_of_port hquiet hd).2).mpr fun e he => ?_
  exact (stage_of_ipHeader hquiet hd he).mpr hfits

end Stages

theorem readData_within_iff (h : Host) (s : State) (hquiet : Undisturbed s.controller.recvs) :
    StoresWithin h s ↔ SizesFit h s.controller.unread :=
  ⟨sizesFit_of_within hquiet, within_of_sizesFit hquiet⟩

def announce (ip dataSize data : List UInt8) : State where
  controller :=
    { unread := [0, 80] ++ bigEndian 4 ip.length ++ ip ++ dataSize ++ data
      recvs := Stream'.const (.moves 4)
      sends := Stream'.const (.moves 4)
      selects := Stream'.const (.moves 0) }

def littleHost : Host := ⟨.little, fun _ => true, fun _ => []⟩

theorem readData_overruns :
    ¬ StoresWithin littleHost (announce [49] [1, 0, 0, 0] [7, 7]) := by
  intro hall
  have hfits := (sizesFit_of_within (fun _ => ⟨4, rfl⟩) hall).data (by decide) rfl rfl
  revert hfits
  decide

theorem readData_within_of_text :
    StoresWithin littleHost (announce [49] [0, 0, 0, 3] [7, 8, 9]) := by
  refine (readData_within_iff littleHost (announce [49] [0, 0, 0, 3] [7, 8, 9])
    fun _ => ⟨4, rfl⟩).mpr ⟨fun _ _ => ?_, fun _ _ _ => ?_⟩ <;> decide

end ScalableServer.Client
