import CatOs.Net.Tcp.StateSteps

/-! What a connection keeps for as long as it lives: its endpoints and what was negotiated. -/

namespace CatOs.Tcp

def TcpConn.stable (c : TcpConn) : TcpConn :=
  { zeroConn with
    accepted := c.accepted
    backlog := c.backlog
    rcvIsn := c.rcvIsn
    sndIsn := c.sndIsn
    peerIp := c.peerIp
    peerPort := c.peerPort
    lport := c.lport
    peerMss := c.peerMss
    sackOk := c.sackOk
    nodelay := c.nodelay
    rcvWscale := c.rcvWscale
    sndWscale := c.sndWscale }

section Frames

variable (env : TcpEnv) (io : TcpIo)

theorem stable_of_eraseSender {c d : TcpConn} (same : c.eraseSender = d.eraseSender) :
    c.stable = d.stable :=
  eq_of_erased same TcpConn.stable fun _ => rfl

theorem stable_tcpHandleConn (s : TcpIn) :
    (tcpHandleConn env s io).conn.stable = io.conn.stable := by
  have put := tcpPutCtl_frame env io TcpConn.stable fun _ _ => rfl
  simp only [tcpHandleConn]
  split
  · exact put _ _
  split
  · simp only [tcpHandleRst]
    split
    · exact put _ _
    split <;> rfl
  · rw [eq_of_erased (eraseTurn_tcpHandleState ..) TcpConn.stable fun _ => rfl,
      stable_of_eraseSender (eraseSender_tcpHandleAck ..), TcpIo.modify_conn,
      stable_of_eraseSender (eraseSender_tcpHandleWindow ..)]

theorem stable_tcpSend (data : List UInt8) :
    (tcpSend env io data).1.conn.stable = io.conn.stable :=
  stable_of_eraseSender (eraseSender_tcpSend env io data)

theorem stable_tcpRecv (maxLen : Nat) : (tcpRecv env io maxLen).1.conn.stable = io.conn.stable := by
  rcases tcpRecv_conn env io maxLen with same | ⟨n, window, read⟩
  · rw [same]
  · rw [read]
    rfl

theorem stable_tcpClose :
    (tcpClose env io).conn.stable = { io.conn.stable with accepted := false } := by
  have kept := tcpClose_frame env io (fun c => { c.stable with accepted := false })
    (fun _ _ => rfl) (fun _ _ => rfl) fun _ => rfl
  exact kept

@[simp] theorem stable_tcpPersistTick : (tcpPersistTick env io).conn.stable = io.conn.stable :=
  stable_of_eraseSender (eraseSender_tcpPersistTick env io)

@[simp] theorem stable_tcpRtoTick : (tcpRtoTick env io).conn.stable = io.conn.stable := by
  rcases eraseSender_tcpRtoTick env io with same | released
  · exact stable_of_eraseSender same
  · rw [released]
    rfl

end Frames

end CatOs.Tcp
