import CatOs.Net.Tcp.SendRun

/-! Which changes of state a connection goes through, whatever happens to it. -/

namespace CatOs.Tcp

def TcpState.isIdle : TcpState → Bool
  | .closed | .listen => true
  | _ => false

inductive StateMove (c d : TcpConn) : Prop
  | stays (same : d.state = c.state)
  | opens (waiting : c.state = .synReceived) (opened : d.state = .established)
  | closes (closing : d.state.isClosing = true)
  | ends (closed : d.state = .closed) (free : d.used = false)

namespace StateMove

variable {c d : TcpConn}

theorem isOpen (move : StateMove c d) (notOpen : c.state.isOpen = false) :
    d.state.isOpen = false := by
  cases move with
  | stays same => rw [same, notOpen]
  | opens waiting opened =>
    rw [waiting] at notOpen
    cases notOpen
  | closes closing =>
    rcases TcpState.eq_of_isClosing closing with (state | state | state) | state | state <;>
      rw [state] <;> rfl
  | ends closed _ =>
    rw [closed]
    rfl

theorem isIdle (move : StateMove c d) (busy : c.state.isIdle = false) (used : d.used = true) :
    d.state.isIdle = false := by
  cases move with
  | stays same => rw [same, busy]
  | opens waiting opened =>
    rw [opened]
    rfl
  | closes closing =>
    rcases TcpState.eq_of_isClosing closing with (state | state | state) | state | state <;>
      rw [state] <;> rfl
  | ends closed free => cases used.symm.trans free

theorem synReceived (move : StateMove c d) (waiting : d.state = .synReceived) :
    c.state = .synReceived := by
  cases move with
  | stays same => exact same.symm.trans waiting
  | opens _ opened => cases opened.symm.trans waiting
  | closes closing =>
    rw [waiting] at closing
    cases closing
  | ends closed _ => cases closed.symm.trans waiting

theorem congr {e : TcpConn} (move : StateMove c d) (state : e.state = d.state)
    (used : e.used = d.used) : StateMove c e := by
  cases move with
  | stays same => exact .stays (state.trans same)
  | opens waiting opened => exact .opens waiting (state.trans opened)
  | closes closing => exact .closes (by rw [state, closing])
  | ends closed free => exact .ends (state.trans closed) (used.trans free)

end StateMove

section State

variable (env : TcpEnv) (io : TcpIo)

theorem state_tcpSend (data : List UInt8) : (tcpSend env io data).1.conn.state = io.conn.state :=
  TcpConn.state_of_eraseSender (eraseSender_tcpSend env io data)

theorem state_tcpRecv (maxLen : Nat) : (tcpRecv env io maxLen).1.conn.state = io.conn.state := by
  rcases tcpRecv_conn env io maxLen with same | ⟨n, window, read⟩
  · rw [same]
  · rw [read]
    rfl

theorem state_tcpPersistTick : (tcpPersistTick env io).conn.state = io.conn.state :=
  TcpConn.state_of_eraseSender (eraseSender_tcpPersistTick env io)

theorem state_tcpRtoTick :
    (tcpRtoTick env io).conn.state = io.conn.state ∨ (tcpRtoTick env io).conn.state = .closed := by
  rcases eraseSender_tcpRtoTick env io with same | released
  · exact .inl (TcpConn.state_of_eraseSender same)
  · rw [released]
    exact .inr rfl

end State

section Moves

variable (env : TcpEnv) (io : TcpIo)

theorem state_tcpClose : (tcpClose env io).conn.state = io.conn.state ∨
    (tcpClose env io).conn.state.isClosing = true := by
  simp only [tcpClose]
  split
  · exact .inr rfl
  split
  · exact .inr rfl
  · exact .inl rfl

theorem state_tcpTestTick : (tcpTestTick env io).conn.state = io.conn.state ∨
    (tcpTestTick env io).conn.state.isClosing = true := by
  simp only [tcpTestTick]
  split
  · split
    · obtain ⟨after, same, sent⟩ := tcpTestSend_keeps (fun next => next.conn.state = io.conn.state)
        (fun next data earlier => (state_tcpSend env next data).trans earlier) rfl
      rw [sent]
      exact .inl same
    split
    · exact state_tcpClose env io
    · exact .inl rfl
  · exact .inl rfl

theorem move_tcpTickConn : StateMove io.conn (tcpTickConn env io).conn := by
  simp only [tcpTickConn]
  split
  · exact .stays rfl
  split
  · split
    · exact .ends rfl rfl
    · exact .stays rfl
  · -- The timers come after the exercise, and only they release anything.
    rcases eraseSender_tcpRtoTick env (tcpPersistTick env (tcpTestTick env io)) with same | released
    · have unmoved := (TcpConn.state_of_eraseSender same).trans (state_tcpPersistTick env _)
      rcases state_tcpTestTick env io with tested | closing
      · exact .stays (unmoved.trans tested)
      · exact .closes (by rw [unmoved, closing])
    · rw [released]
      exact .ends rfl rfl

theorem StateMove.step {env : TcpEnv} {s : TcpIn} {c : TcpConn} {io next : TcpIo}
    (move : StateMove c io.conn) (step : StateStep env s io next) : StateMove c next.conn := by
  cases step with
  | answer =>
    exact move.congr (tcpPutCtl_frame env io TcpConn.state (fun _ _ => rfl) _ _)
      (tcpPutCtl_frame env io TcpConn.used (fun _ _ => rfl) _ _)
  | data =>
    have taken := eraseReceive_tcpAcceptData io.conn s.seq s.data
    exact move.congr (eq_of_erased taken TcpConn.state fun _ => rfl)
      (eq_of_erased taken TcpConn.used fun _ => rfl)
  | count => exact move.congr rfl rfl
  | opens waiting => exact .opens (move.synReceived waiting) rfl
  | half closed | both closed | waits closed | closes opened => exact .closes rfl
  | ends last => exact .ends rfl rfl

theorem move_tcpHandleState (s : TcpIn) : StateMove io.conn (tcpHandleState env s io).conn :=
  steps_keep (steps_tcpHandleState env s io) (fun next => StateMove io.conn next.conn)
    (fun _ _ step move => move.step step) (.stays rfl)

theorem move_tcpHandleConn (s : TcpIn) : StateMove io.conn (tcpHandleConn env s io).conn := by
  simp only [tcpHandleConn]
  split
  · refine .stays ?_
    show (tcpPutCtl env io tcpFlagSynack io.conn.sndIsn).conn.state = io.conn.state
    exact state_tcpPutCtl ..
  split
  · simp only [tcpHandleRst]
    split
    · exact .stays (state_tcpPutCtl ..)
    split
    · exact .ends rfl rfl
    · exact .stays rfl
  · -- The window and the acknowledgement leave the state as the machine finds it.
    have found : (tcpHandleAck env s io.conn.peerWin
        (io.modify (tcpHandleWindow env.ticks s))).conn.state = io.conn.state := by
      rw [state_tcpHandleAck, TcpIo.modify_conn,
        TcpConn.state_eq (sendView_tcpHandleWindow io.conn env.ticks s)]
    have move := move_tcpHandleState env (tcpHandleAck env s io.conn.peerWin
      (io.modify (tcpHandleWindow env.ticks s))) s
    cases move with
    | stays same => exact .stays (same.trans found)
    | opens waiting opened => exact .opens (found.symm.trans waiting) opened
    | closes closing => exact .closes closing
    | ends closed free => exact .ends closed free

theorem move_tcpStep (input : TcpEnv × TcpOp) : StateMove io.conn (tcpStep input io).conn := by
  obtain ⟨env, op⟩ := input
  cases op with
  | send data => exact .stays (state_tcpSend env io data)
  | recv maxLen => exact .stays (state_tcpRecv env io maxLen)
  | segment s =>
    show StateMove io.conn (tcpSegment env s io).conn
    simp only [tcpSegment]
    split
    · exact .stays rfl
    split
    · exact .ends rfl rfl
    · exact move_tcpHandleConn env io s
  | tick => exact move_tcpTickConn env io
  | close =>
    rcases state_tcpClose env io with same | closing
    · exact .stays same
    · exact .closes closing

end Moves

section Diagram

/-- The states that can follow a state. The peer's close leads straight to our own. -/
def TcpState.next : TcpState → List TcpState
  | .synReceived => [.established, .closed]
  | .established => [.finWait1, .lastAck, .closed]
  | .finWait1 => [.finWait2, .closing, .timeWait, .closed]
  | .finWait2 | .closing => [.timeWait, .closed]
  | .closeWait => [.lastAck, .closed]
  | _ => [.closed]

/-- A path in the diagram. -/
abbrev Leads : TcpState → TcpState → Prop := Relation.ReflTransGen fun a b => b ∈ a.next

variable {a b c : TcpState} (env : TcpEnv) (io : TcpIo)

theorem leads_of_eq (same : b = a) : Leads a b := same ▸ .refl

theorem leads_edge (found : a = c) (edge : b ∈ c.next) : Leads a b := .single (found ▸ edge)

theorem leads_closed : Leads a .closed := .single (by cases a <;> decide)

theorem leads_tcpClose : Leads io.conn.state (tcpClose env io).conn.state := by
  simp only [tcpClose]
  split
  · exact leads_edge (b := .finWait1) ‹_› (by decide)
  split
  · exact leads_edge (b := .lastAck) ‹_› (by decide)
  · exact .refl

theorem StateStep.leads {s : TcpIn} {next : TcpIo} (step : StateStep env s io next) :
    Leads io.conn.state next.conn.state := by
  cases step with
  | answer => exact leads_of_eq (state_tcpPutCtl ..)
  | data => exact leads_of_eq (TcpConn.state_eq (sendView_tcpAcceptData io.conn s.seq s.data))
  | count => exact .refl
  | opens found => exact leads_edge (b := .established) found (by decide)
  | half found => exact leads_edge (b := .finWait2) found (by decide)
  | both found => exact leads_edge (b := .closing) found (by decide)
  | waits found =>
    rcases found with found | found | found <;> exact leads_edge (b := .timeWait) found (by decide)
  | closes found => exact leads_edge (b := .lastAck) found (by decide)
  | ends _ => exact leads_closed

theorem leads_tcpSegment (s : TcpIn) : Leads io.conn.state (tcpSegment env s io).conn.state := by
  simp only [tcpSegment, tcpHandleConn, tcpHandleRst]
  split_ifs
  · exact .refl
  · exact leads_closed
  · exact leads_of_eq (state_tcpPutCtl env io ..)
  · exact leads_of_eq (state_tcpPutCtl ..)
  · exact leads_closed
  · exact .refl
  · -- The window and the acknowledgement leave the state as the machine finds it.
    refine .trans (leads_of_eq ?_) (.lift' (·.conn.state) (fun _ _ step => step.leads) _ _
      (steps_tcpHandleState env s _))
    exact (state_tcpHandleAck ..).trans
      (TcpConn.state_eq (sendView_tcpHandleWindow io.conn env.ticks s))

theorem leads_tcpTickConn : Leads io.conn.state (tcpTickConn env io).conn.state := by
  have tested : Leads io.conn.state (tcpTestTick env io).conn.state := by
    simp only [tcpTestTick]
    split_ifs
    · obtain ⟨after, same, sent⟩ := tcpTestSend_keeps (fun next => next.conn.state = io.conn.state)
        (fun next data earlier => (state_tcpSend env next data).trans earlier) rfl
      rw [sent]
      exact leads_of_eq same
    · exact leads_tcpClose env io
    · exact .refl
    · exact .refl
  simp only [tcpTickConn]
  split_ifs
  · exact .refl
  · exact leads_closed
  · exact .refl
  · rcases state_tcpRtoTick env (tcpPersistTick env (tcpTestTick env io)) with same | closed
    · rw [same, state_tcpPersistTick]
      exact tested
    · rw [closed]
      exact leads_closed

/-- Whatever happens to a connection, its state follows the diagram. -/
theorem state_follows_diagram (inputs : List (TcpEnv × TcpOp)) :
    Leads io.conn.state (runInputs tcpStep inputs io).conn.state := by
  induction inputs generalizing io with
  | nil => exact .refl
  | cons input rest ih =>
    refine .trans ?_ (ih (tcpStep input io))
    obtain ⟨env, op⟩ := input
    cases op with
    | send data => exact leads_of_eq (state_tcpSend env io data)
    | recv maxLen => exact leads_of_eq (state_tcpRecv env io maxLen)
    | segment s => exact leads_tcpSegment env io s
    | tick => exact leads_tcpTickConn env io
    | close => exact leads_tcpClose env io

end Diagram

end CatOs.Tcp
