import ScalableServer.Client.Run
import ScalableServer.ClientController.Connection

namespace ScalableServer.Conversations

open ScalableServer.Foundations ScalableServer.Core

lemma cString_terminated {text : List UInt8} (rest : List UInt8) (h : (0 : UInt8) ∉ text) :
    Client.cString (text ++ 0 :: rest) = text := by
  have hpos : ∀ b ∈ text, decide (b ≠ 0) = true := by
    intro b hb
    rw [decide_eq_true_iff]
    rintro rfl
    exact h hb
  rw [Client.cString, List.takeWhile_append_of_pos hpos, List.takeWhile_cons_of_neg (by simp),
    List.append_nil]

variable {s : ClientController.State} {w : ClientController.World} {i : ℕ}

open ClientController in
lemma send_commands (h : Host) (hip : s.serverIp.length + 1 < 2 ^ 32)
    (hdata : s.data.length < 2 ^ 32) (hsize : s.dataSize = s.data.length) (hi : i < s.numConns)
    (hdistinct : ∀ j < s.numConns, s.acceptedFds j = s.acceptedFds i → j = i)
    (hs : Undisturbed (w (s.acceptedFds i)).sends) :
    ∃ r₁ s₁ w₁ r₂ w₂ r₃ s₃ w₃, sendStart h s w = some (r₁, s₁, w₁) ∧
      sendData h s₁ w₁ = some (r₂, w₂) ∧ sendStop h s₁ w₂ = some (r₃, s₃, w₃) ∧
      (w₂ (s.acceptedFds i)).sent =
        (w (s.acceptedFds i)).sent ++ (bigEndian 2 start ++ dataBytes s) ∧
      (w₃ (s.acceptedFds i)).sent = (w₂ (s.acceptedFds i)).sent ++ bigEndian 2 stop := by
  obtain ⟨⟨r₁, w₁⟩, h₁, hsent₁, hs₁⟩ :=
    forEachConn_delivers (writeCommand_delivers h start) hi hdistinct hs
  let s₁ : State := { s with started := true }
  obtain ⟨⟨r₂, w₂⟩, h₂, hsent₂, hs₂⟩ :=
    forEachConn_delivers (s := s₁) (dataWrites_delivers h hip hdata hsize) hi hdistinct hs₁
  obtain ⟨⟨r₃, w₃⟩, h₃, hsent₃, -⟩ :=
    forEachConn_delivers (s := s₁) (writeCommand_delivers h stop) hi hdistinct hs₂
  refine ⟨r₁, s₁, w₁, r₂, w₂, r₃, { s₁ with started := false }, w₃, ?_, h₂, ?_, ?_, hsent₃⟩
  · rw [sendStart, h₁]
    rfl
  · rw [sendStop, h₃]
    rfl
  · apply hsent₂.trans
    rw [hsent₁, List.append_assoc]

theorem commands_round_trip (controllerHost clientHost : Host) (startThreads : Client.State → ℤ)
    (halloc : ∀ n, clientHost.alloc n = true) (s : ClientController.State)
    (hport : s.serverPort < 2 ^ 16) (hnul : (0 : UInt8) ∉ s.serverIp)
    (hip : s.serverIp.length + 1 < 2 ^ 32) (hdata : s.data.length < 2 ^ 32)
    (hsize : s.dataSize = s.data.length) (w : ClientController.World) (i : ℕ)
    (hi : i < s.numConns)
    (hdistinct : ∀ j < s.numConns, s.acceptedFds j = s.acceptedFds i → j = i)
    (hsends : Undisturbed (w (s.acceptedFds i)).sends) :
    ∃ r₁ s₁ w₁ r₂ w₂ r₃ s₃ w₃,
      ClientController.sendStart controllerHost s w = some (r₁, s₁, w₁) ∧
      ClientController.sendData controllerHost s₁ w₁ = some (r₂, w₂) ∧
      ClientController.sendStop controllerHost s₁ w₂ = some (r₃, s₃, w₃) ∧
      ∃ data stop, (w₂ (s.acceptedFds i)).sent = (w (s.acceptedFds i)).sent ++ data ∧
        (w₃ (s.acceptedFds i)).sent = (w₂ (s.acceptedFds i)).sent ++ stop ∧
        ∀ (c : Client.State) (after : List UInt8),
          c.controller.unread = data ++ stop ++ after → Undisturbed c.controller.recvs →
          ∃ c₁ c₂,
            Client.handleController clientHost startThreads c =
              some (if startThreads c₁ = -1 then .ERROR else .SUCCESS, c₁) ∧
            c₁.serverPort = s.serverPort ∧ Client.cString c₁.serverIp.cells = s.serverIp ∧
            c₁.dataSize = s.dataSize ∧ c₁.data.cells = s.data ∧
            c₁.controller.unread = stop ++ after ∧
            Client.handleController clientHost startThreads c₁ =
              some (.END, { c₁ with controller := c₂ }) ∧ c₂.unread = after := by
  obtain ⟨r₁, s₁, w₁, r₂, w₂, r₃, s₃, w₃, h₁, h₂, h₃, hsent₂, hsent₃⟩ :=
    send_commands controllerHost hip hdata hsize hi hdistinct hsends
  refine ⟨r₁, s₁, w₁, r₂, w₂, r₃, s₃, w₃, h₁, h₂, h₃, _, _, hsent₂, hsent₃, ?_⟩
  intro c after hu hr
  have hterminated : (s.serverIp ++ [0]).length = s.serverIp.length + 1 := by simp
  have hu' : c.controller.unread = bigEndian 2 Client.START ++ (bigEndian 2 s.serverPort ++
      (bigEndian 4 (s.serverIp ++ [0]).length ++ ((s.serverIp ++ [0]) ++
      (bigEndian 4 s.data.length ++ (s.data ++ (bigEndian 2 Client.STOP ++ after)))))) := by
    rw [hu, hterminated]
    simp only [ClientController.dataBytes, List.append_assoc]
    rfl
  obtain ⟨c₁, hstart, hserverPort, hserverIp, hdataSize, hcells, hu₁, hr₁⟩ :=
    Client.handleController_start startThreads halloc hport (hterminated ▸ hip) hdata hu' hr
  obtain ⟨c₂, hstop, hu₂⟩ := Client.handleController_stop startThreads hu₁ hr₁
  refine ⟨c₁, c₂, hstart, hserverPort, ?_, hdataSize.trans hsize.symm, hcells, hu₁, hstop, hu₂⟩
  -- the text ends at the NUL that was sent, which comes before the one that the client adds
  rw [hserverIp, List.append_assoc]
  exact cString_terminated [0] hnul

theorem commands_round_trip_two_clients :
    let s : ClientController.State :=
      { serverIp := [49, 46, 50], serverPort := 5000, acceptedFds := fun i => 4 + i, numConns := 2
        data := [7, 0, 8], dataSize := 3 }
    let conn : Conn :=
      { recvs := Stream'.const (.moves 1), sends := Stream'.const (.moves 2)
        selects := Stream'.const (.moves 0) }
    ∃ r₁ s₁ w₁ r₂ w₂ r₃ s₃ w₃,
      ClientController.sendStart ⟨.little, fun _ => true, fun _ => []⟩ s (fun _ => conn) =
        some (r₁, s₁, w₁) ∧
      ClientController.sendData ⟨.little, fun _ => true, fun _ => []⟩ s₁ w₁ = some (r₂, w₂) ∧
      ClientController.sendStop ⟨.little, fun _ => true, fun _ => []⟩ s₁ w₂ = some (r₃, s₃, w₃) ∧
      ∃ c₁ c₂, Client.handleController ⟨.big, fun _ => true, fun _ => []⟩ (fun _ => 0)
          { controller := { conn with unread := (w₃ 5).sent } } = some (.SUCCESS, c₁) ∧
        c₁.serverPort = 5000 ∧ Client.cString c₁.serverIp.cells = [49, 46, 50] ∧
        c₁.dataSize = 3 ∧ c₁.data.cells = [7, 0, 8] ∧
        Client.handleController ⟨.big, fun _ => true, fun _ => []⟩ (fun _ => 0) c₁ =
          some (.END, { c₁ with controller := c₂ }) := by
  intro s conn
  have hconst : ∀ k, Undisturbed (Stream'.const (.moves k)) := fun k _ => ⟨k, rfl⟩
  obtain ⟨r₁, s₁, w₁, r₂, w₂, r₃, s₃, w₃, h₁, h₂, h₃, data, stop, hdata, hstop, hclient⟩ :=
    commands_round_trip ⟨.little, fun _ => true, fun _ => []⟩ ⟨.big, fun _ => true, fun _ => []⟩
      (fun _ => 0) (fun _ => rfl) s (by decide) (by decide) (by decide) (by decide) rfl
      (fun _ => conn) 1 (by decide) (by decide) (hconst 2)
  refine ⟨r₁, s₁, w₁, r₂, w₂, r₃, s₃, w₃, h₁, h₂, h₃, ?_⟩
  have hsent : (w₃ 5).sent = data ++ stop ++ [] := by
    change (w₃ (s.acceptedFds 1)).sent = _
    rw [hstop, hdata]
    simp [conn]
  obtain ⟨c₁, c₂, hc₁, hport, hip, hsize, hcells, -, hc₂, -⟩ :=
    hclient { controller := { conn with unread := (w₃ 5).sent } } [] hsent (hconst 1)
  exact ⟨c₁, c₂, hc₁, hport, hip, hsize, hcells, hc₂⟩

end ScalableServer.Conversations
