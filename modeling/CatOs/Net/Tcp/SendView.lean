import CatOs.Net.Tcp.Step

/-! The send side of a connection, and the many operations that leave it alone. -/

namespace CatOs.Tcp

structure SendView where
  state : TcpState
  sndUna : Word
  sndNxt : Word
  snd : TcpSnd
  tx : Buffer TxSeg
  txN : Nat

def TcpConn.sendView (c : TcpConn) : SendView :=
  { state := c.state, sndUna := c.sndUna, sndNxt := c.sndNxt, snd := c.snd, tx := c.tx,
    txN := c.txN }

section Fields

variable (ticks : Word) (c : TcpConn)

theorem tcpPersistArm_fields : ∃ deadline,
    tcpPersistArm ticks c = { c with persistDeadline := deadline } := by
  unfold tcpPersistArm
  split
  · exact ⟨_, rfl⟩
  · exact ⟨c.persistDeadline, rfl⟩

theorem windowTimer_fields (s : TcpIn) : ∃ deadline backoff, windowTimer ticks s c =
    { c with persistDeadline := deadline, persistBackoff := backoff } := by
  unfold windowTimer
  split
  · exact ⟨_, _, rfl⟩
  split
  · obtain ⟨deadline, armed⟩ := tcpPersistArm_fields ticks c
    exact ⟨deadline, _, armed⟩
  · exact ⟨_, _, rfl⟩

theorem tcpHandleWindow_fields (s : TcpIn) :
    ∃ deadline backoff left right count, tcpHandleWindow ticks s c =
      { c with peerWin := s.window, persistDeadline := deadline, persistBackoff := backoff
               sackLeft := left, sackRight := right, sackN := count } := by
  obtain ⟨left, right, count, parsed⟩ := tcpParseOpts_blocks
    (resetSack (windowTimer ticks s (setPeerWin s.window c))) s.opts
  obtain ⟨deadline, backoff, timed⟩ := windowTimer_fields ticks (setPeerWin s.window c) s
  refine ⟨deadline, backoff, left, right, count, ?_⟩
  rw [tcpHandleWindow, parsed, timed]
  rfl

theorem initSynConn_fields (s : TcpIn) (srcIp isn : Word) : ∃ permitted shift size,
    initSynConn s srcIp isn c = numberSlot s isn
      { claimSlot s srcIp c with sackOk := permitted, rcvWscale := shift, peerMss := size } := by
  obtain ⟨permitted, shift, size, parsed⟩ := tcpParseOpts_syn (claimSlot s srcIp c) s.opts
  exact ⟨permitted, shift, size, congrArg (numberSlot s isn) parsed⟩

theorem tcpSynAccept_conn (env : TcpEnv) (s : TcpIn) (srcIp isn : Word) : ∃ window,
    (tcpSynAccept env s srcIp isn c).conn = tcpRtoArm env.ticks
      { initSynConn s srcIp isn c with advWin := window } := by
  obtain ⟨window, put⟩ := tcpPutPkt_conn env (startIo (initSynConn s srcIp isn c)) tcpFlagSynack
    (initSynConn s srcIp isn c).sndIsn (initSynConn s srcIp isn c).rcvNxt []
  exact ⟨window, congrArg (tcpRtoArm env.ticks) put⟩

end Fields

section Timers

variable (ticks : Word) (c : TcpConn)

@[simp] theorem sendView_tcpPersistArm : (tcpPersistArm ticks c).sendView = c.sendView := by
  unfold tcpPersistArm
  split <;> rfl

@[simp] theorem sendView_tcpRtoArm : (tcpRtoArm ticks c).sendView = c.sendView := rfl

@[simp] theorem sendView_tcpRtoRetry : (tcpRtoRetry ticks c).sendView = c.sendView := rfl

theorem sendView_setCwnd (cwnd : Word) : (setCwnd cwnd c).sendView = c.sendView := rfl

@[simp] theorem sendView_tcpAckTimer : (tcpAckTimer ticks c).sendView = c.sendView := by
  unfold tcpAckTimer
  split
  · rfl
  · split <;> rfl

@[simp] theorem sendView_countDupAck : (countDupAck c).sendView = c.sendView := by
  simp only [countDupAck, TcpConn.sendView]

@[simp] theorem sendView_inflateCwnd : (inflateCwnd c).sendView = c.sendView :=
  sendView_setCwnd c _

end Timers

section Options

variable (c : TcpConn)

def TcpConn.eraseOptions : TcpConn :=
  { c with
    peerMss := 0
    sackOk := false
    sackLeft := fun _ => 0
    sackRight := fun _ => 0
    sackN := 0
    rcvWscale := 0 }

theorem eraseOptions_tcpParseOpts (opt : List UInt8) (syn : Bool) :
    (tcpParseOpts c opt syn).eraseOptions = c.eraseOptions := by
  cases syn with
  | false =>
    obtain ⟨left, right, count, parsed⟩ := tcpParseOpts_blocks c opt
    rw [parsed]
    rfl
  | true =>
    obtain ⟨permitted, shift, size, parsed⟩ := tcpParseOpts_syn c opt
    rw [parsed]
    rfl

@[simp] theorem sendView_tcpHandleWindow (ticks : Word) (s : TcpIn) :
    (tcpHandleWindow ticks s c).sendView = c.sendView := by
  obtain ⟨_, _, _, _, _, handled⟩ := tcpHandleWindow_fields ticks c s
  rw [handled]
  rfl

theorem dupacks_tcpHandleWindow (ticks : Word) (s : TcpIn) :
    (tcpHandleWindow ticks s c).dupacks = c.dupacks := by
  obtain ⟨_, _, _, _, _, handled⟩ := tcpHandleWindow_fields ticks c s
  rw [handled]

end Options

section Receive

variable (c : TcpConn)

def TcpConn.eraseReceive : TcpConn :=
  { c with
    rcvNxt := 0
    rx := zeroConn.rx
    ooo := zeroConn.ooo
    oooBytes := 0 }

theorem eraseReceive_tcpRxAppend (data : List UInt8) :
    (tcpRxAppend c data).eraseReceive = c.eraseReceive := by
  unfold tcpRxAppend
  split <;> rfl

theorem eraseReceive_tryDeliverOoo (i : Nat) (again : Bool) :
    (tryDeliverOoo i c again).1.eraseReceive = c.eraseReceive := by
  unfold tryDeliverOoo
  split
  · rfl
  · split
    · rfl
    · have freed : ∀ (d : TcpConn) slot next bytes,
          { d.setOoo i slot with rcvNxt := next, oooBytes := bytes }.eraseReceive =
            d.eraseReceive := fun _ _ _ _ => rfl
      exact (freed _ _ _ _).trans (eraseReceive_tcpRxAppend c _)

theorem eraseReceive_mergeOooSlot (i : Nat) (again : Bool) :
    (mergeOooSlot i (c, again)).1.eraseReceive = c.eraseReceive := by
  simp only [mergeOooSlot]
  split
  · rfl
  split
  · rfl
  split
  · exact eraseReceive_tryDeliverOoo (trimOoo c i) i true
  · exact eraseReceive_tryDeliverOoo c i again

theorem eraseReceive_tcpMergeOoo : (tcpMergeOoo c).eraseReceive = c.eraseReceive := by
  refine doWhile_invariant (fun state => state.eraseReceive = c.eraseReceive)
    (fun state same => ?_) _ c rfl
  refine Eq.trans ?_ same
  exact forRange_frame (fun (state : TcpConn × Bool) => state.1.eraseReceive)
    (fun i state _ => eraseReceive_mergeOooSlot state.1 i state.2) (state, false)

theorem eraseReceive_tcpAcceptData (seq : Word) (data : List UInt8) :
    (tcpAcceptData c seq data).1.eraseReceive = c.eraseReceive := by
  simp only [tcpAcceptData]
  split
  · simp only [tcpQueueOoo]
    split
    · rfl
    split
    · rfl
    split <;> rfl
  split
  · exact (eraseReceive_tcpMergeOoo _).trans (eraseReceive_tcpRxAppend c data)
  · rfl

@[simp] theorem sendView_tcpAcceptData (seq : Word) (data : List UInt8) :
    (tcpAcceptData c seq data).1.sendView = c.sendView := by
  have same := congrArg TcpConn.sendView (eraseReceive_tcpAcceptData c seq data)
  exact same

end Receive

section Sending

variable (env : TcpEnv) (io : TcpIo)

@[simp] theorem sendView_tcpPutPkt (flags : Flags) (seq ack : Word) (data : List UInt8) :
    (tcpPutPkt env io flags seq ack data).1.conn.sendView = io.conn.sendView := by
  obtain ⟨window, sent⟩ := tcpPutPkt_conn env io flags seq ack data
  rw [sent]
  rfl

@[simp] theorem sendView_tcpPutCtl (flags : Flags) (seq : Word) :
    (tcpPutCtl env io flags seq).conn.sendView = io.conn.sendView :=
  sendView_tcpPutPkt ..

end Sending

end CatOs.Tcp
