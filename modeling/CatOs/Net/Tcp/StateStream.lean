import CatOs.Net.Tcp.StateSteps
import CatOs.Net.Tcp.WireStream

/-! The states a connection goes through, and what each of them says about the stream. -/

namespace CatOs.Tcp

/--
The third duplicate acknowledgement for a connection with its close in flight.

When no more than one segment's worth of numbers is in flight, retransmission takes the
number of the close for one more byte.
-/
def ResendsClose (s : TcpIn) (c : TcpConn) : Prop :=
  s.has tcpFlagAck = true ∧ s.ack = c.sndUna ∧ s.window ≤ c.peerWin ∧ c.dupacks = 2 ∧
    c.inFlight.toNat = c.snd.sndUsed + 1 ∧ c.inFlight.toNat ≤ tcpMss

instance (s : TcpIn) (c : TcpConn) : Decidable (ResendsClose s c) :=
  inferInstanceAs (Decidable (_ ∧ _ ∧ _ ∧ _ ∧ _ ∧ _))

def TcpState.isOpen : TcpState → Bool
  | .synReceived | .established => true
  | _ => false

def TcpState.isClosing : TcpState → Bool
  | .finWait1 | .finWait2 | .closing | .lastAck | .timeWait => true
  | _ => false

theorem TcpState.eq_of_isOpen {state : TcpState} (opened : state.isOpen = true) :
    state = .synReceived ∨ state = .established := by
  cases state <;> simp [isOpen] at opened ⊢

theorem TcpState.eq_of_isClosing {state : TcpState} (closing : state.isClosing = true) :
    (state = .finWait1 ∨ state = .finWait2 ∨ state = .closing) ∨ state = .lastAck ∨
      state = .timeWait := by
  cases state <;> simp [isClosing] at closing ⊢

def Phase (closed : Bool) (state : TcpState) : Prop :=
  state = .closed ∨ (if closed then state.isClosing else state.isOpen) = true

structure Live (base : Word) (closed : Bool) (io : TcpIo) : Prop where
  streaming : Streaming base closed io
  phase : Phase closed io.conn.state

def LiveOrEarly (base : Word) (io : TcpIo) : Prop :=
  (∃ closed, Live base closed io) ∨
    (io.conn.state.isClosing = true ∧ io.conn.inFlight.toNat ≤ io.conn.snd.sndUsed)

theorem Phase.established {closed : Bool} {state : TcpState} (phase : Phase closed state)
    (established : state = .established) : closed = false := by
  subst established
  rcases phase with other | fits
  · cases other
  · cases closed with
    | false => rfl
    | true => cases fits

section State

variable (env : TcpEnv) (io : TcpIo)

theorem TcpConn.state_of_eraseSender {c d : TcpConn} (same : c.eraseSender = d.eraseSender) :
    c.state = d.state :=
  eq_of_erased same TcpConn.state fun _ => rfl

@[simp] theorem state_tcpXmitPending : (tcpXmitPending env io).conn.state = io.conn.state :=
  TcpConn.state_of_eraseSender (eraseSender_tcpXmitPending env io)

theorem state_tcpHandleAck (s : TcpIn) (oldWin : Half) :
    (tcpHandleAck env s oldWin io).conn.state = io.conn.state :=
  TcpConn.state_of_eraseSender (eraseSender_tcpHandleAck env io s oldWin)

end State

section Stream

variable {base : Word} {closed : Bool} {io : TcpIo}

theorem Streaming.tcpHandleData (inv : Streaming base closed io) (env : TcpEnv) (s : TcpIn) :
    Streaming base closed (tcpHandleData env s io) := by
  simp only [CatOs.Tcp.tcpHandleData]
  split
  · exact inv
  · exact (inv.modify (sendView_tcpAcceptData io.conn _ _)).tcpPutCtl env (by decide) _

theorem tcpSendFin_conn (env : TcpEnv) (next : TcpState) (io : TcpIo) :
    (tcpSendFin env next io).conn.sendView =
      { io.conn.sendView with state := next, sndNxt := io.conn.sndNxt + 1 } := by
  have put := sendView_tcpPutCtl env io tcpFlagFinack io.conn.sndNxt
  have next : ∀ c : TcpConn, (tcpRtoArm env.ticks
      { c with sndNxt := c.sndNxt + 1, state := next }).sendView =
        { c.sendView with state := next, sndNxt := c.sendView.sndNxt + 1 } := fun _ => rfl
  refine (next _).trans ?_
  rw [put]
  rfl

theorem Streaming.tcpSendFin (inv : Streaming base false io) (env : TcpEnv) (next : TcpState)
    (complete : io.conn.snd.sndUsed ≤ io.conn.inFlight.toNat) :
    Streaming base true (tcpSendFin env next io) := by
  obtain ⟨acked, sent, view⟩ := inv.sending
  have flight : io.conn.inFlight.toNat = sent - acked := view.inFlight_eq
  have used : io.conn.snd.sndUsed = io.accepted.length - acked := view.used_eq
  have order : acked ≤ sent := view.order
  have within := view.within
  have ends : sent = io.accepted.length := by omega
  have accepted : (CatOs.Tcp.tcpSendFin env next io).accepted = io.accepted :=
    tcpPutPkt_accepted ..
  refine { sending := ⟨acked, sent, ?_⟩, wire := fun p member => ?_, noClose := nofun }
  · rw [tcpSendFin_conn, accepted]
    refine { una := view.una, nxt := ?_, order := Nat.le_succ_of_le order, within := within,
             complete := fun _ => ends, bytes := view.bytes, scoreboard := view.scoreboard }
    have number : io.conn.sndNxt = serial base sent := view.nxt
    show io.conn.sndNxt + 1 = serial base (sent + 1)
    rw [number]
    exact serial_add base sent 1
  · rw [accepted]
    rcases tcpPutPkt_wire member with before | ⟨number, flagged, carried⟩
    · exact inv.wire p before
    · refine { payload := fun nonempty => (nonempty carried).elim, close := fun _ => ?_ }
      rw [number, ← ends]
      exact view.nxt

theorem LiveOrEarly.tcpSendFin (inv : Streaming base false io) (env : TcpEnv) {next : TcpState}
    (closing : next.isClosing = true) : LiveOrEarly base (tcpSendFin env next io) := by
  have sentFin := tcpSendFin_conn env next io
  have state : (CatOs.Tcp.tcpSendFin env next io).conn.state = next :=
    congrArg SendView.state sentFin
  by_cases complete : io.conn.snd.sndUsed ≤ io.conn.inFlight.toNat
  · refine .inl ⟨true, { streaming := inv.tcpSendFin env next complete, phase := .inr ?_ }⟩
    rwa [state]
  · -- The close takes one more number, which still leaves a byte of the buffer unsent.
    refine .inr ⟨by rwa [state], ?_⟩
    have buffer : (CatOs.Tcp.tcpSendFin env next io).conn.snd = io.conn.snd :=
      congrArg SendView.snd sentFin
    have flight : (CatOs.Tcp.tcpSendFin env next io).conn.inFlight = io.conn.sndNxt + 1 -
        io.conn.sndUna := congrArg (fun v : SendView => v.sndNxt - v.sndUna) sentFin
    have one : io.conn.sndNxt + 1 - io.conn.sndUna = io.conn.inFlight + 1 := by
      simp only [TcpConn.inFlight]
      exact add_sub_right_comm ..
    rw [buffer, flight, one, BitVec.toNat_add]
    have reduced := Nat.mod_le (io.conn.inFlight.toNat + (1 : Word).toNat) (2 ^ 32)
    have unit : (1 : Word).toNat = 1 := rfl
    omega

theorem Streaming.tcpAckFin (inv : Streaming base closed io) (env : TcpEnv) :
    Streaming base closed (tcpAckFin env io) := by
  have advanced : Streaming base closed (io.modify fun c => { c with rcvNxt := c.rcvNxt + 1 }) :=
    inv.modify (by simp only [TcpConn.sendView])
  exact advanced.tcpPutCtl env (by decide : tcpFlagAck.has tcpFlagFin = false) _

theorem Live.release (inv : Streaming base closed io) {f : TcpConn → TcpConn}
    (same : (f io.conn).sendView = { io.conn.sendView with state := .closed }) :
    Live base closed (io.modify f) :=
  { streaming := inv.setState same, phase := .inl (congrArg SendView.state same) }

theorem Live.enterTimeWait (inv : Streaming base true io) (ticks : Word) :
    Live base true (io.modify (enterTimeWait ticks)) := by
  have same : (CatOs.Tcp.enterTimeWait ticks io.conn).sendView =
      { io.conn.sendView with state := .timeWait } := by
    simp only [CatOs.Tcp.enterTimeWait, TcpConn.sendView]
  exact { streaming := inv.setState same, phase := .inr rfl }

theorem LiveOrEarly.tcpHandleFin (inv : Streaming base false io) (env : TcpEnv)
    (established : io.conn.state = .established) : LiveOrEarly base (tcpHandleFin env io) := by
  have acknowledged := inv.tcpAckFin env
  have state := (state_tcpAckFin env io).trans established
  simp only [CatOs.Tcp.tcpHandleFin, tcpFinState, state]
  exact LiveOrEarly.tcpSendFin (acknowledged.setState rfl) env rfl

theorem Live.tcpHandleFin (inv : Streaming base true io) (env : TcpEnv)
    (waiting : io.conn.state = .finWait1 ∨ io.conn.state = .finWait2 ∨ io.conn.state = .closing) :
    Live base true (tcpHandleFin env io) := by
  have acknowledged := inv.tcpAckFin env
  have state := state_tcpAckFin env io
  rcases waiting with here | here | here <;>
    simp only [CatOs.Tcp.tcpHandleFin, tcpFinState, state, here]
  · split
    · exact Live.enterTimeWait acknowledged env.ticks
    · exact { streaming := acknowledged.setState rfl, phase := .inr rfl }
  · exact Live.enterTimeWait acknowledged env.ticks
  · exact Live.enterTimeWait acknowledged env.ticks

end Stream

section Work

variable {base : Word} {closed : Bool} {env : TcpEnv} {start io next : TcpIo} {third : Prop}

theorem Live.modify (inv : Live base closed io) {f : TcpConn → TcpConn}
    (same : (f io.conn).sendView = io.conn.sendView) : Live base closed (io.modify f) :=
  { streaming := inv.streaming.modify same
    phase := by rw [TcpIo.modify_conn, TcpConn.state_eq same]; exact inv.phase }

/-- The sender's work keeps a connection in order, unless it takes a close for a byte. -/
theorem Live.send (inv : Live base closed io) (step : SendStep env start third io next)
    (harmless : third → start.conn.inFlight.toNat = start.conn.snd.sndUsed + 1 →
      tcpMss < start.conn.inFlight.toNat) : Live base closed next := by
  have state := TcpConn.state_of_eraseSender (step.emits env io).side
  refine { streaming := ?_, phase := by rw [state]; exact inv.phase }
  have streaming := inv.streaming
  obtain ⟨acked, sent, view⟩ := streaming.sending
  cases step with
  | control f same => exact streaming.modify (eq_of_erased same TcpConn.sendView fun _ => rfl)
  | marks => exact streaming.marks rfl (tcpTxSack_span io.conn)
  | answer seq plain =>
    rcases plain with rfl | rfl
    · exact streaming.tcpPutCtl env (by decide) _
    · exact streaming.tcpPutCtl env (by decide) _
  | xmit window =>
    obtain ⟨positive, short⟩ := effMss_bounds io.conn
    exact streaming.xmitOne env positive short
  | entry done within short => exact streaming.retransmitEntry env _ done
  | resend due snd flight =>
    -- Everything in flight is in the buffer, except the number of a close.
    have flying : io.conn.inFlight.toNat = sent + closed.toNat - acked := view.inFlight_eq
    have used : io.conn.snd.sndUsed = io.accepted.length - acked := view.used_eq
    have within := view.within
    have beyond := harmless due
    rw [← snd, ← flight] at beyond
    have fits : 0 + min io.conn.inFlight.toNat tcpMss ≤ io.conn.snd.sndUsed := by
      cases closed with
      | false =>
        simp only [Bool.toNat_false] at flying
        omega
      | true =>
        have complete := view.complete rfl
        simp only [Bool.toNat_true] at flying
        omega
    have number : io.conn.sndUna = serial base (acked + 0) := view.una
    have put := streaming.putData view env fits number io.conn.rcvNxt
    have amount : (if io.conn.inFlight.toNat > tcpMss then tcpMss else io.conn.inFlight.toNat) =
        min io.conn.inFlight.toNat tcpMss := by split <;> omega
    simp only [resendFirst, amount]
    split
    · exact put.modify rfl
    · exact put.modify rfl
  | queue data opened =>
    obtain rfl := inv.phase.established opened
    exact streaming.accept _ (sendLen_fits io.conn data)
  | acked number quiet after upTo =>
    obtain ⟨cut, rfl, forward, bound⟩ := view.ack_position after upTo
    exact streaming.advance ⟨cut, sent, view.tcpAckAdvance env.ticks forward bound⟩

theorem Live.sends (inv : Live base closed io) (steps : SendSteps env start third io next)
    (harmless : third → start.conn.inFlight.toNat = start.conn.snd.sndUsed + 1 →
      tcpMss < start.conn.inFlight.toNat) : Live base closed next :=
  steps_keep steps (Live base closed) (fun _ _ step live => live.send step harmless) inv

theorem peerWin_tcpHandleWindow (ticks : Word) (s : TcpIn) (c : TcpConn) :
    (tcpHandleWindow ticks s c).peerWin = s.window := by
  obtain ⟨_, _, _, _, _, handled⟩ := tcpHandleWindow_fields ticks c s
  rw [handled]

theorem Live.acknowledge (inv : Live base closed io) (env : TcpEnv) (s : TcpIn)
    (harmless : ¬ResendsClose s io.conn) : Live base closed
      (tcpHandleAck env s io.conn.peerWin (io.modify (tcpHandleWindow env.ticks s))) := by
  have una : (tcpHandleWindow env.ticks s io.conn).sndUna = io.conn.sndUna :=
    eq_of_erased (eraseControl_tcpHandleWindow ..) TcpConn.sndUna fun _ => rfl
  refine inv.sends (sends_acknowledge io s) ?_
  rw [ThirdAck, una, dupacks_tcpHandleWindow, peerWin_tcpHandleWindow]
  intro third beyond
  obtain ⟨acknowledges, number, shrunk, second⟩ := third
  exact Nat.not_le.mp fun small => harmless ⟨acknowledges, number, shrunk, second, beyond, small⟩

end Work

end CatOs.Tcp
