import CatOs.Net.Tcp.Socket

/-! What the parts of a connection's handling leave alone, for any view of the connection. -/

namespace CatOs.Tcp

section Output

variable (env : TcpEnv) (io : TcpIo) {γ : Type*} (view : TcpConn → γ)

section Shared

variable (window : ∀ c advWin, view { c with advWin := advWin } = view c)
include window

theorem xmitOne_frame
    (noted : ∀ n c, view (noteSent env.ticks n c) = view c) (limit : Word) (mss : Nat) :
    view (xmitOne env limit mss io).1.conn = view io.conn := by
  simp only [xmitOne]
  split
  · rfl
  obtain ⟨advWin, sent⟩ := tcpPutPkt_conn env io (tcpFlagAck ||| tcpFlagPsh) io.conn.sndNxt
    io.conn.rcvNxt (io.conn.snd.sndb.read io.conn.inFlight.toNat (nextSegmentLen io.conn limit mss))
  split
  · rw [TcpIo.modify_conn, noted, sent, window]
  · rw [sent, window]

theorem tcpXmitPending_frame (armed : ∀ c, view (tcpPersistArm env.ticks c) = view c)
    (noted : ∀ n c, view (noteSent env.ticks n c) = view c) :
    view (tcpXmitPending env io).conn = view io.conn := by
  simp only [tcpXmitPending]
  split
  · split
    · exact armed io.conn
    · rfl
  · refine doWhile_invariant (fun current => view current.conn = view io.conn)
      (fun current earlier => ?_) _ io rfl
    rw [← earlier]
    exact xmitOne_frame env current view window noted _ _

theorem retransmitEntry_frame
    (noted : ∀ i c, view (noteRetransmitted env.ticks i c) = view c) (i : Nat) (done : Bool) :
    view (retransmitEntry env i (io, done)).1.conn = view io.conn := by
  simp only [retransmitEntry]
  split
  · rfl
  obtain ⟨advWin, sent⟩ := tcpPutPkt_conn env io (tcpFlagAck ||| tcpFlagPsh) (io.conn.tx i).seq
    io.conn.rcvNxt (io.conn.snd.sndb.read ((io.conn.tx i).seq - io.conn.sndUna).toNat
      (io.conn.tx i).len)
  split
  · rw [TcpIo.modify_conn, noted, sent, window]
  · rw [sent, window]

theorem sackRetransmit_frame (noted : ∀ i c, view (noteRetransmitted env.ticks i c) = view c) :
    view (sackRetransmit env io).1.conn = view io.conn := by
  unfold sackRetransmit
  split
  · exact forRange_frame (fun state : TcpIo × Bool => view state.1.conn)
      (fun i state _ => retransmitEntry_frame env state.1 view window noted i state.2) (io, false)
  · rfl

theorem tcpPutCtl_frame
    (flags : Flags) (seq : Word) : view (tcpPutCtl env io flags seq).conn = view io.conn := by
  obtain ⟨advWin, sent⟩ := tcpPutPkt_conn env io flags seq io.conn.rcvNxt []
  rw [tcpPutCtl, sent, window]

theorem tcpSendFin_frame (closes : ∀ c next, view (tcpRtoArm env.ticks
      { c with sndNxt := c.sndNxt + 1, state := next }) = view c) (next : TcpState) :
    view (tcpSendFin env next io).conn = view io.conn := by
  rw [tcpSendFin, TcpIo.modify_conn, closes, tcpPutCtl_frame env io view window]

theorem tcpClose_frame (closes : ∀ c next, view (tcpRtoArm env.ticks
      { c with sndNxt := c.sndNxt + 1, state := next }) = view c)
    (given : ∀ c, view { c with accepted := false } = view c) :
    view (tcpClose env io).conn = view io.conn := by
  simp only [tcpClose, TcpIo.modify_conn, given]
  split
  · exact tcpSendFin_frame env io view window closes _
  split
  · exact tcpSendFin_frame env io view window closes _
  · rfl

end Shared

end Output

section Reading

variable (env : TcpEnv) (io : TcpIo)

theorem tcpWindowUpdateAck_cases : tcpWindowUpdateAck env io = io ∨
    tcpWindowUpdateAck env io = tcpPutCtl env io tcpFlagAck io.conn.sndNxt := by
  simp only [tcpWindowUpdateAck]
  split
  · exact .inl rfl
  split
  · exact .inr rfl
  · exact .inl rfl

def readOut (n : Nat) : TcpIo :=
  { io with conn := consumeRx n io.conn, delivered := io.delivered ++ io.conn.rx.rxb.read 0 n }

theorem tcpRecv_cases (maxLen : Nat) :
    (tcpRecv env io maxLen).1 = io ∨
      ∃ n, (tcpRecv env io maxLen).1 = tcpWindowUpdateAck env (readOut io n) := by
  simp only [tcpRecv]
  split
  · exact .inl rfl
  split
  · left
    split <;> rfl
  · exact .inr ⟨_, rfl⟩

variable {env io}

theorem tcpRecv_keeps (holds : TcpIo → Prop) (before : holds io)
    (read : ∀ n, holds (readOut io n)) (answers : ∀ next : TcpIo, holds next →
      holds (tcpPutCtl env next tcpFlagAck next.conn.sndNxt)) (maxLen : Nat) :
    holds (tcpRecv env io maxLen).1 := by
  rcases tcpRecv_cases env io maxLen with same | ⟨n, taken⟩
  · rw [same]
    exact before
  rcases tcpWindowUpdateAck_cases env (readOut io n) with quiet | announced
  · rw [taken, quiet]
    exact read n
  · rw [taken, announced]
    exact answers _ (read n)

end Reading

theorem tcpRecv_conn (env : TcpEnv) (io : TcpIo) (maxLen : Nat) :
    (tcpRecv env io maxLen).1.conn = io.conn ∨
      ∃ n window, (tcpRecv env io maxLen).1.conn = { consumeRx n io.conn with advWin := window } := by
  rcases tcpRecv_cases env io maxLen with same | ⟨n, taken⟩
  · exact .inl (congrArg TcpIo.conn same)
  right
  rcases tcpWindowUpdateAck_cases env (readOut io n) with quiet | announced
  · exact ⟨n, _, congrArg TcpIo.conn (taken.trans quiet)⟩
  · obtain ⟨window, sent⟩ := tcpPutPkt_conn env (readOut io n) tcpFlagAck io.conn.sndNxt
      io.conn.rcvNxt []
    exact ⟨n, window, (congrArg TcpIo.conn (taken.trans announced)).trans sent⟩

end CatOs.Tcp
