import CatOs.Net.Tcp.SenderFrame

/-! What advancing a connection through its states is made of. -/

namespace CatOs.Tcp

inductive StateStep (env : TcpEnv) (s : TcpIn) : TcpIo → TcpIo → Prop
  /-- An acknowledgement goes out. -/
  | answer {io : TcpIo} : StateStep env s io (tcpPutCtl env io tcpFlagAck io.conn.sndNxt)
  /-- The payload is taken. -/
  | data {io : TcpIo} : StateStep env s io (io.modify fun c => (tcpAcceptData c s.seq s.data).1)
  /-- The peer's close is counted. -/
  | count {io : TcpIo} : StateStep env s io (io.modify fun c => { c with rcvNxt := c.rcvNxt + 1 })
  /-- The handshake is complete. -/
  | opens {io : TcpIo} (waiting : io.conn.state = .synReceived) :
      StateStep env s io (io.modify fun c => { c with
        state := .established, rtoDeadline := 0, rtoAttempts := 0, rtoBackoff := noBackoff })
  /-- Our own close has been acknowledged. -/
  | half {io : TcpIo} (closed : io.conn.state = .finWait1) :
      StateStep env s io (io.modify enterFinWait2)
  /-- Both sides have closed, and ours is not acknowledged. -/
  | both {io : TcpIo} (closed : io.conn.state = .finWait1) :
      StateStep env s io (io.modify fun c => { c with state := .closing })
  /-- Both closes are done. -/
  | waits {io : TcpIo}
      (closed : io.conn.state = .finWait1 ∨ io.conn.state = .finWait2 ∨ io.conn.state = .closing) :
      StateStep env s io (io.modify (enterTimeWait env.ticks))
  /-- An open connection answers the peer's close with its own. -/
  | closes {io : TcpIo} (opened : io.conn.state = .established) :
      StateStep env s io (tcpSendFin env .lastAck (io.modify fun c => { c with state := .closeWait }))
  /-- The last acknowledgement has arrived. -/
  | ends {io : TcpIo} (last : io.conn.state = .lastAck) :
      StateStep env s io (io.modify fun c => { c with
        used := false, state := .closed, rtoDeadline := 0 })

abbrev StateSteps (env : TcpEnv) (s : TcpIn) : TcpIo → TcpIo → Prop :=
  Relation.ReflTransGen (StateStep env s)

section State

variable (env : TcpEnv) (io : TcpIo)

theorem TcpConn.state_eq {c d : TcpConn} (same : c.sendView = d.sendView) : c.state = d.state :=
  congrArg SendView.state same

@[simp] theorem state_tcpPutPkt (flags : Flags) (seq ack : Word) (data : List UInt8) :
    (tcpPutPkt env io flags seq ack data).1.conn.state = io.conn.state :=
  TcpConn.state_eq (sendView_tcpPutPkt env io flags seq ack data)

@[simp] theorem state_tcpPutCtl (flags : Flags) (seq : Word) :
    (tcpPutCtl env io flags seq).conn.state = io.conn.state :=
  state_tcpPutPkt ..

theorem state_tcpAckFin : (tcpAckFin env io).conn.state = io.conn.state :=
  state_tcpPutCtl ..

theorem state_tcpHandleData (s : TcpIn) : (tcpHandleData env s io).conn.state = io.conn.state := by
  simp only [tcpHandleData]
  split
  · rfl
  · rw [state_tcpPutCtl, TcpIo.modify_conn,
      TcpConn.state_eq (sendView_tcpAcceptData io.conn s.seq s.data)]

end State

section Steps

variable (env : TcpEnv) (s : TcpIn) (io : TcpIo)

theorem steps_tcpHandleData : StateSteps env s io (tcpHandleData env s io) := by
  simp only [tcpHandleData]
  split
  · exact .refl
  · exact .tail (.single .data) .answer

theorem steps_tcpHandleFin (takes : io.conn.state ∈
      [.established, .finWait1, .finWait2, .closeWait, .closing]) :
    StateSteps env s io (tcpHandleFin env io) := by
  have acked : StateSteps env s io (tcpAckFin env io) := .tail (.single .count) .answer
  rw [← state_tcpAckFin env io] at takes
  simp only [List.mem_cons, List.not_mem_nil, or_false] at takes
  unfold tcpHandleFin tcpFinState
  rcases takes with opened | first | second | waiting | closing
  · rw [opened]
    exact acked.tail (.closes opened)
  · rw [first]
    dsimp only
    split
    · exact acked.tail (.waits (.inl first))
    · exact acked.tail (.both first)
  · rw [second]
    exact acked.tail (.waits (.inr (.inl second)))
  · rw [waiting]
    exact acked
  · rw [closing]
    exact acked.tail (.waits (.inr (.inr closing)))

theorem steps_tcpFinishClose : StateSteps env s io (io.modify (tcpFinishClose env.ticks s)) := by
  -- The first test may lead to a state that the second one then leaves alone.
  have second : ∀ next : TcpIo, StateSteps env s next (next.modify fun c =>
      if c.state = .closing ∧ s.has tcpFlagAck ∧ c.sndUna ≥ c.sndNxt then enterTimeWait env.ticks c
      else c) := by
    intro next
    unfold TcpIo.modify
    dsimp only
    split
    · rename_i ends
      exact .single (.waits (.inr (.inr ends.1)))
    · exact .refl
  by_cases closed : io.conn.state = .finWait1 ∧ s.has tcpFlagAck ∧ io.conn.sndUna ≥ io.conn.sndNxt
  · have both := second (io.modify enterFinWait2)
    unfold TcpIo.modify at both ⊢
    simp only [tcpFinishClose, if_pos closed]
    exact .head (.half closed.1) both
  · have both := second io
    unfold TcpIo.modify at both ⊢
    simp only [tcpFinishClose, if_neg closed]
    exact both

theorem steps_tcpHandleOpen (takes : io.conn.state ∈
      [.established, .finWait1, .finWait2, .closeWait, .closing]) :
    StateSteps env s io (tcpHandleOpen env s io) := by
  have received := steps_tcpHandleData env s io
  rw [← state_tcpHandleData env io s] at takes
  simp only [tcpHandleOpen]
  split
  · exact received.trans (steps_tcpHandleFin env s _ takes)
  · refine Relation.ReflTransGen.trans ?_ (steps_tcpFinishClose env s _)
    split
    · exact received.tail .answer
    · exact received

theorem steps_tcpHandleState : StateSteps env s io (tcpHandleState env s io) := by
  have opened := steps_tcpHandleOpen env s io
  unfold tcpHandleState
  cases state : io.conn.state with
  | synReceived =>
    refine Relation.ReflTransGen.trans ?_ (steps_tcpHandleData env s _)
    split
    · exact .single (.opens state)
    · exact .refl
  | established | finWait1 | finWait2 | closeWait | closing => exact opened (by rw [state]; decide)
  | lastAck =>
    dsimp only
    split
    · exact .single .answer
    split
    · exact .single (.ends state)
    · exact .refl
  | timeWait =>
    dsimp only
    split
    · exact .single .answer
    · exact .refl
  | closed => exact .refl
  | listen => exact .refl
  | synSent => exact .refl

end Steps

def TcpConn.eraseTurn (c : TcpConn) : TcpConn :=
  { c.eraseReceive with
    used := false
    state := .closed
    sndNxt := 0
    advWin := 0
    rtoDeadline := 0
    rtoBackoff := noBackoff
    rtoAttempts := 0
    twUntil := 0 }

theorem StateStep.eraseTurn {env : TcpEnv} {s : TcpIn} {io next : TcpIo}
    (step : StateStep env s io next) : next.conn.eraseTurn = io.conn.eraseTurn := by
  have put : ∀ (io : TcpIo) flags seq,
      (tcpPutCtl env io flags seq).conn.eraseTurn = io.conn.eraseTurn := by
    intro io flags seq
    obtain ⟨window, sent⟩ := tcpPutPkt_conn env io flags seq io.conn.rcvNxt []
    have sent : (tcpPutCtl env io flags seq).conn = _ := sent
    rw [sent]
    rfl
  cases step with
  | answer => exact put _ _ _
  | data =>
    exact eq_of_erased (eraseReceive_tcpAcceptData io.conn s.seq s.data) TcpConn.eraseTurn
      fun _ => rfl
  | closes opened => exact put _ _ _
  | count => rfl
  | opens waiting => rfl
  | half closed => rfl
  | both closed => rfl
  | waits closed => rfl
  | ends last => rfl

theorem eraseTurn_tcpHandleState (env : TcpEnv) (s : TcpIn) (io : TcpIo) :
    (tcpHandleState env s io).conn.eraseTurn = io.conn.eraseTurn :=
  steps_keep (steps_tcpHandleState env s io)
    (fun next => next.conn.eraseTurn = io.conn.eraseTurn)
    (fun _ _ step same => step.eraseTurn.trans same) rfl

end CatOs.Tcp
