import CatOs.Net.Tcp.StateStream

/-! Whole runs of a connection: what it sends and what it keeps track of. -/

namespace CatOs.Tcp

section Segment

variable {base : Word} {closed : Bool} {io : TcpIo}

theorem Streaming.not_resendsClose (inv : Streaming base false io) (s : TcpIn) :
    ¬ResendsClose s io.conn := by
  rintro ⟨-, -, -, -, beyond, -⟩
  obtain ⟨acked, sent, view⟩ := inv.sending
  have flight : io.conn.inFlight.toNat = sent - acked := view.inFlight_eq
  have used : io.conn.snd.sndUsed = io.accepted.length - acked := view.used_eq
  have within := view.within
  omega

theorem sendView_tcpFinishClose (ticks : Word) (s : TcpIn) (c : TcpConn) :
    (tcpFinishClose ticks s c).sendView =
      { c.sendView with state := (tcpFinishClose ticks s c).state } := by
  simp only [tcpFinishClose]
  split <;> split <;> rfl

theorem Phase.tcpFinishClose {c : TcpConn} (phase : Phase closed c.state) (ticks : Word)
    (s : TcpIn) : Phase closed (tcpFinishClose ticks s c).state := by
  have closing : ∀ {state : TcpState}, Phase closed state → state.isOpen = false →
      state ≠ .closed → closed = true := by
    rintro state (rfl | fits) notOpen other
    · exact (other rfl).elim
    · cases closed with
      | true => rfl
      | false => simp [notOpen] at fits
  simp only [CatOs.Tcp.tcpFinishClose]
  split
  · rename_i acknowledged
    rw [closing phase (by rw [acknowledged.1]; rfl) (by rw [acknowledged.1]; decide)]
    split
    · exact .inr rfl
    · exact .inr rfl
  · split
    · rename_i acknowledged
      rw [closing phase (by rw [acknowledged.1]; rfl) (by rw [acknowledged.1]; decide)]
      exact .inr rfl
    · exact phase

theorem Live.finishClose (inv : Live base closed io) (env : TcpEnv) (s : TcpIn) :
    Live base closed ((if s.has tcpFlagFin then tcpPutCtl env io tcpFlagAck io.conn.sndNxt
      else io).modify (tcpFinishClose env.ticks s)) := by
  have acknowledged : Live base closed (if s.has tcpFlagFin then
      tcpPutCtl env io tcpFlagAck io.conn.sndNxt else io) := by
    split
    · refine { streaming := inv.streaming.tcpPutCtl env (by decide) _, phase := ?_ }
      rw [state_tcpPutCtl]
      exact inv.phase
    · exact inv
  exact { streaming := acknowledged.streaming.setState (sendView_tcpFinishClose _ _ _)
          phase := acknowledged.phase.tcpFinishClose _ _ }

theorem Live.tcpHandleData (inv : Live base closed io) (env : TcpEnv) (s : TcpIn) :
    Live base closed (tcpHandleData env s io) :=
  { streaming := inv.streaming.tcpHandleData env s
    phase := by rw [state_tcpHandleData]; exact inv.phase }

theorem Live.tcpHandleState_open (inv : Live base false io) (env : TcpEnv) (s : TcpIn) :
    LiveOrEarly base (tcpHandleState env s io) := by
  rcases inv.phase with released | opened
  · simp only [tcpHandleState, released]
    exact .inl ⟨false, inv⟩
  simp only [Bool.false_eq_true, if_false] at opened
  rcases TcpState.eq_of_isOpen opened with state | state
  · simp only [tcpHandleState, state]
    refine .inl ⟨false, Live.tcpHandleData ?_ env s⟩
    split
    · exact { streaming := inv.streaming.setState rfl, phase := .inr rfl }
    · exact inv
  · have received := inv.tcpHandleData env s
    have still := (state_tcpHandleData env io s).trans state
    simp only [tcpHandleState, state, tcpHandleOpen]
    split
    · exact LiveOrEarly.tcpHandleFin received.streaming env still
    · exact .inl ⟨false, received.finishClose env s⟩

theorem Live.tcpHandleState_closing (inv : Live base true io) (env : TcpEnv) (s : TcpIn) :
    Live base true (tcpHandleState env s io) := by
  rcases inv.phase with released | closing
  · simp only [tcpHandleState, released]
    exact inv
  -- Three states still take data, and the other two only answer or end the connection.
  have receiving : io.conn.state = .finWait1 ∨ io.conn.state = .finWait2 ∨
      io.conn.state = .closing → Live base true (tcpHandleOpen env s io) := by
    intro waiting
    have received := inv.tcpHandleData env s
    simp only [tcpHandleOpen]
    split
    · refine Live.tcpHandleFin received.streaming env ?_
      rwa [state_tcpHandleData]
    · exact received.finishClose env s
  have answered : Live base true (tcpPutCtl env io tcpFlagAck io.conn.sndNxt) :=
    { streaming := inv.streaming.tcpPutCtl env (by decide) _
      phase := by rw [state_tcpPutCtl]; exact inv.phase }
  simp only [if_true] at closing
  rcases TcpState.eq_of_isClosing closing with waiting | state | state
  · rcases waiting with state | state | state <;> simp only [tcpHandleState, state]
    · exact receiving (.inl state)
    · exact receiving (.inr (.inl state))
    · exact receiving (.inr (.inr state))
  · simp only [tcpHandleState, state]
    split
    · exact answered
    split
    · exact Live.release inv.streaming rfl
    · exact inv
  · simp only [tcpHandleState, state]
    split
    · exact answered
    · exact inv

theorem Live.tcpHandleRst (inv : Live base closed io) (env : TcpEnv) (s : TcpIn) :
    Live base closed (tcpHandleRst env s io) := by
  simp only [CatOs.Tcp.tcpHandleRst]
  split
  · exact { streaming := inv.streaming.tcpPutCtl env (by decide) _
            phase := by rw [state_tcpPutCtl]; exact inv.phase }
  split
  · exact Live.release inv.streaming rfl
  · exact inv

theorem Live.tcpResendSynack (inv : Live base closed io) (env : TcpEnv) :
    Live base closed (tcpResendSynack env io) := by
  have put : Streaming base closed (tcpPutCtl env io tcpFlagSynack io.conn.sndIsn) :=
    inv.streaming.tcpPutCtl env (by decide) _
  refine { streaming := put.modify (sendView_tcpRtoArm env.ticks _), phase := ?_ }
  have same := TcpConn.state_eq (sendView_tcpRtoArm env.ticks
    (tcpPutCtl env io tcpFlagSynack io.conn.sndIsn).conn)
  rw [state_tcpPutCtl] at same
  exact same.symm ▸ inv.phase

theorem Live.tcpSegment_open (inv : Live base false io) (env : TcpEnv) (s : TcpIn) :
    LiveOrEarly base (tcpSegment env s io) := by
  simp only [tcpSegment]
  split
  · exact .inl ⟨false, inv⟩
  split
  · exact .inl ⟨false, Live.release inv.streaming rfl⟩
  simp only [tcpHandleConn]
  split
  · exact .inl ⟨false, inv.tcpResendSynack env⟩
  split
  · exact .inl ⟨false, inv.tcpHandleRst env s⟩
  · exact (inv.acknowledge env s (inv.streaming.not_resendsClose s)).tcpHandleState_open env s

theorem Live.tcpSegment_closing (inv : Live base true io) (env : TcpEnv) (s : TcpIn)
    (harmless : ¬ResendsClose s io.conn) : Live base true (tcpSegment env s io) := by
  simp only [tcpSegment]
  split
  · exact inv
  split
  · exact Live.release inv.streaming rfl
  simp only [tcpHandleConn]
  split
  · exact inv.tcpResendSynack env
  split
  · exact inv.tcpHandleRst env s
  · exact (inv.acknowledge env s harmless).tcpHandleState_closing env s

end Segment

section Calls

variable {base : Word} {closed : Bool} {io : TcpIo}

theorem Live.tcpSend (inv : Live base closed io) (env : TcpEnv) (data : List UInt8) :
    Live base closed (tcpSend env io data).1 :=
  inv.sends (@sends_tcpSend env io False io data) False.elim

theorem Live.tcpRecv (inv : Live base closed io) (env : TcpEnv) (maxLen : Nat) :
    Live base closed (tcpRecv env io maxLen).1 := by
  refine tcpRecv_keeps (Live base closed) inv (fun n => ?_) (fun next read => ?_) maxLen
  · exact
      { streaming := { sending := inv.streaming.sending, wire := inv.streaming.wire,
                       noClose := inv.streaming.noClose }
        phase := inv.phase }
  · exact read.send (@SendStep.answer env next False next tcpFlagAck _ (.inl rfl)) False.elim

theorem Live.tcpClose (inv : Live base closed io) (env : TcpEnv) :
    LiveOrEarly base (tcpClose env io) := by
  have finished : ∀ {io : TcpIo}, LiveOrEarly base io →
      LiveOrEarly base (io.modify fun c => { c with accepted := false }) := by
    rintro io (⟨closed, live⟩ | early)
    · exact .inl ⟨closed, live.modify rfl⟩
    · exact .inr early
  simp only [CatOs.Tcp.tcpClose]
  apply finished
  split
  · rename_i established
    obtain rfl := inv.phase.established established
    exact LiveOrEarly.tcpSendFin inv.streaming env rfl
  split
  · -- No connection rests in this state, since the peer's close is answered at once.
    rename_i waiting
    have phase := inv.phase
    rw [waiting] at phase
    rcases phase with other | fits
    · cases other
    · cases closed <;> cases fits
  · exact .inl ⟨closed, inv⟩

theorem Live.tcpClose_complete (inv : Live base false io) (env : TcpEnv)
    (established : io.conn.state = .established)
    (complete : io.conn.snd.sndUsed ≤ io.conn.inFlight.toNat) :
    Live base true (CatOs.Tcp.tcpClose env io) := by
  simp only [CatOs.Tcp.tcpClose, established, if_true]
  have sentFin := inv.streaming.tcpSendFin env .finWait1 complete
  have state : (tcpSendFin env .finWait1 io).conn.state = .finWait1 :=
    congrArg SendView.state (tcpSendFin_conn env .finWait1 io)
  have live : Live base true (tcpSendFin env .finWait1 io) :=
    { streaming := sentFin, phase := .inr (by rw [state]; rfl) }
  exact live.modify rfl

end Calls

section Tick

variable {base : Word} {closed : Bool} {io : TcpIo}

theorem Live.tcpTestSend (inv : Live base closed io) (env : TcpEnv) :
    Live base closed (tcpTestSend env io) := by
  simp only [CatOs.Tcp.tcpTestSend]
  refine Live.modify ?_ rfl
  refine forRange_invariant (fun _ (state : TcpIo × Bool) => Live base closed state.1) inv ?_
  intro k state _ live
  split
  · exact live.tcpSend env (testBlock k)
  · exact live

theorem Live.tcpTestTick (inv : Live base closed io) (env : TcpEnv) :
    ∃ closed, Live base closed (tcpTestTick env io) := by
  simp only [CatOs.Tcp.tcpTestTick]
  split
  · rename_i test
    obtain rfl := inv.phase.established test.1
    split
    · exact ⟨false, inv.tcpTestSend env⟩
    split
    · rename_i idle
      exact ⟨true, (inv.tcpClose_complete env test.1 (by omega)).modify rfl⟩
    · exact ⟨false, inv⟩
  · exact ⟨closed, inv⟩

theorem Live.tcpPersistTick (inv : Live base closed io) (env : TcpEnv) :
    Live base closed (tcpPersistTick env io) := by
  simp only [CatOs.Tcp.tcpPersistTick]
  split
  · exact inv
  split
  · exact inv.modify rfl
  · rename_i unsent
    obtain ⟨acked, sent, view⟩ := inv.streaming.sending
    have number : io.conn.sndUna = serial base (acked + 0) := view.una
    have put := inv.streaming.putData view env
      (show 0 + 1 ≤ io.conn.snd.sndUsed by omega) number io.conn.rcvNxt
    refine { streaming := put.modify rfl, phase := ?_ }
    have same := state_tcpPutPkt env io (tcpFlagAck ||| tcpFlagPsh) io.conn.sndUna
      io.conn.rcvNxt (io.conn.snd.sndb.read 0 1)
    exact same.symm ▸ inv.phase

theorem sendView_noteTimeout (inFlight : Nat) (c : TcpConn) :
    (noteTimeout inFlight c).sendView = { c.sendView with tx := (tcpTxClearMarks c).tx } := by
  simp only [noteTimeout, tcpLossWindow, shrinkWindow, tcpTxClearMarks, TcpConn.sendView]

theorem Live.tcpRtoData (inv : Live base closed io) (env : TcpEnv) :
    Live base closed (tcpRtoData env io) := by
  simp only [CatOs.Tcp.tcpRtoData]
  obtain ⟨len, amount, held⟩ : ∃ len, (if io.conn.inFlight.toNat > io.conn.snd.sndUsed then
      io.conn.snd.sndUsed else io.conn.inFlight.toNat) = len ∧ len ≤ io.conn.snd.sndUsed :=
    ⟨_, rfl, by split <;> omega⟩
  rw [amount]
  have view := sendView_noteTimeout len io.conn
  have lost : Streaming base closed (io.modify (noteTimeout len)) :=
    inv.streaming.marks view (tcpTxClearMarks_span io.conn)
  have buffer : (io.modify (noteTimeout len)).conn.snd = io.conn.snd := congrArg SendView.snd view
  have state : (io.modify (noteTimeout len)).conn.state = io.conn.state :=
    congrArg SendView.state view
  have una : (io.modify (noteTimeout len)).conn.sndUna = io.conn.sndUna :=
    congrArg SendView.sndUna view
  obtain ⟨acked, sent, sending⟩ := lost.sending
  have number : io.conn.sndUna = serial base (acked + 0) := una.symm.trans sending.una
  have put := lost.putData sending env (show 0 + len ≤ _ by rw [buffer]; omega) number
    io.conn.rcvNxt
  rw [buffer] at put
  have live : Live base closed (tcpPutPkt env (io.modify (noteTimeout len))
      (tcpFlagAck ||| tcpFlagPsh) io.conn.sndUna io.conn.rcvNxt
      (io.conn.snd.sndb.read 0 len)).1 :=
    { streaming := put, phase := by rw [state_tcpPutPkt, state]; exact inv.phase }
  exact live.modify (sendView_tcpRtoRetry env.ticks _)

theorem Live.resendFin (inv : Live base true io) (env : TcpEnv) :
    Live base true (tcpPutCtl env io tcpFlagFinack (io.conn.sndNxt - 1)) := by
  obtain ⟨acked, sent, view⟩ := inv.streaming.sending
  have number : io.conn.sndNxt - 1 = serial base io.accepted.length := by
    have nxt : io.conn.sndNxt = serial base (sent + 1) := view.nxt
    rw [nxt, ← view.complete rfl, ← serial_add]
    exact add_sub_cancel_right ..
  have put := inv.streaming.tcpPutPkt env tcpFlagFinack (io.conn.sndNxt - 1) io.conn.rcvNxt []
    (fun nonempty => (nonempty rfl).elim) fun _ => ⟨rfl, number⟩
  exact { streaming := put, phase := by rw [state_tcpPutCtl]; exact inv.phase }

theorem Live.tcpRtoTick (inv : Live base closed io) (env : TcpEnv) :
    Live base closed (tcpRtoTick env io) := by
  simp only [CatOs.Tcp.tcpRtoTick]
  split
  · exact inv
  generalize (if io.conn.state = .synReceived then tcpRtoRetrySynrcvd else tcpRtoRetryData) = r2
  split
  · exact Live.release inv.streaming rfl
  split
  · have put : Live base closed (tcpPutCtl env io tcpFlagSynack io.conn.sndIsn) :=
      { streaming := inv.streaming.tcpPutCtl env (by decide) _
        phase := by rw [state_tcpPutCtl]; exact inv.phase }
    exact put.modify (sendView_tcpRtoRetry env.ticks _)
  split
  · -- A connection in one of these states has sent its close.
    rename_i waiting
    have sentFin : closed = true := by
      have phase := inv.phase
      cases closed with
      | true => rfl
      | false => rcases waiting with here | ⟨here | here, -⟩ <;> rw [here] at phase <;>
          rcases phase with other | fits <;> first | cases other | cases fits
    subst sentFin
    exact (inv.resendFin env).modify (sendView_tcpRtoRetry env.ticks _)
  split
  · exact inv.tcpRtoData env
  · exact inv.modify rfl

theorem Live.tcpTickConn (inv : Live base closed io) (env : TcpEnv) :
    ∃ closed, Live base closed (tcpTickConn env io) := by
  simp only [CatOs.Tcp.tcpTickConn]
  split
  · exact ⟨closed, inv⟩
  split
  · split
    · exact ⟨closed, Live.release inv.streaming rfl⟩
    · exact ⟨closed, inv⟩
  · obtain ⟨after, tested⟩ := inv.tcpTestTick env
    exact ⟨after, (tested.tcpPersistTick env).tcpRtoTick env⟩

end Tick

theorem sendView_initSynConn (s : TcpIn) (srcIp isn : Word) (c : TcpConn) :
    (initSynConn s srcIp isn c).sendView =
      { state := .synReceived, sndUna := isn + 1, sndNxt := isn + 1
        snd := { c.snd with sndUsed := 0, sndUsed_le := Nat.zero_le _ }
        tx := (tcpTxReset c).tx, txN := 0 } := by
  obtain ⟨_, _, _, claimed⟩ := initSynConn_fields c s srcIp isn
  rw [claimed]
  simp only [numberSlot, claimSlot, tcpCcInit, tcpTxReset, TcpConn.sendView]

theorem Live.tcpSynAccept (env : TcpEnv) (s : TcpIn) (srcIp isn : Word) (c : TcpConn) :
    Live (isn + 1) false (tcpSynAccept env s srcIp isn c) := by
  have view := sendView_initSynConn s srcIp isn c
  have opened : Live (isn + 1) false (startIo (initSynConn s srcIp isn c)) := by
    refine { streaming := { sending := ⟨0, 0, ?_⟩, wire := nofun, noClose := nofun },
             phase := .inr ?_ }
    · rw [show (startIo (initSynConn s srcIp isn c)).conn.sendView = _ from view]
      exact { una := by simp, nxt := by simp, order := Nat.le_refl 0, within := Nat.le_refl 0,
              complete := nofun, bytes := rfl,
              scoreboard := { few := Nat.zero_le _, used := nofun, tiles := rfl } }
    · rw [show (startIo (initSynConn s srcIp isn c)).conn.state = .synReceived from
        congrArg SendView.state view]
      rfl
  exact opened.tcpResendSynack env

theorem Live.tcpStep_open {base : Word} {io : TcpIo} (inv : Live base false io)
    (input : TcpEnv × TcpOp) : LiveOrEarly base (tcpStep input io) := by
  obtain ⟨env, op⟩ := input
  cases op with
  | send data => exact .inl ⟨false, inv.tcpSend env data⟩
  | recv maxLen => exact .inl ⟨false, inv.tcpRecv env maxLen⟩
  | segment s => exact inv.tcpSegment_open env s
  | tick => exact .inl (inv.tcpTickConn env)
  | close => exact inv.tcpClose env

def ClosesEarly (before after : TcpConn) : Prop :=
  before.state.isClosing = false ∧ after.state.isClosing = true ∧
    after.inFlight.toNat ≤ after.snd.sndUsed

instance (before after : TcpConn) : Decidable (ClosesEarly before after) :=
  inferInstanceAs (Decidable (_ ∧ _ ∧ _))

def KeepsClose : TcpOp → TcpConn → Prop
  | .segment s, c => ¬ResendsClose s c
  | _, _ => True

instance (op : TcpOp) (c : TcpConn) : Decidable (KeepsClose op c) :=
  match op with
  | .segment s => inferInstanceAs (Decidable (¬ResendsClose s c))
  | .send _ | .recv _ | .tick | .close => inferInstanceAs (Decidable True)

def Orderly (input : TcpEnv × TcpOp) (io : TcpIo) : Prop :=
  ¬ClosesEarly io.conn (tcpStep input io).conn ∧ KeepsClose input.2 io.conn

instance (input : TcpEnv × TcpOp) (io : TcpIo) : Decidable (Orderly input io) :=
  inferInstanceAs (Decidable (_ ∧ _))

theorem Live.tcpStep {base : Word} {closed : Bool} {io : TcpIo} (inv : Live base closed io)
    (input : TcpEnv × TcpOp) (orderly : Orderly input io) :
    ∃ closed, Live base closed (tcpStep input io) := by
  cases closed with
  | false =>
    rcases inv.tcpStep_open input with live | early
    · exact live
    · have before : io.conn.state.isClosing = false := by
        rcases inv.phase with released | opened
        · rw [released]
          rfl
        · rcases TcpState.eq_of_isOpen opened with state | state <;> rw [state] <;> rfl
      exact (orderly.1 ⟨before, early⟩).elim
  | true =>
    obtain ⟨env, op⟩ := input
    cases op with
    | send data => exact ⟨true, inv.tcpSend env data⟩
    | recv maxLen => exact ⟨true, inv.tcpRecv env maxLen⟩
    | segment s => exact ⟨true, inv.tcpSegment_closing env s orderly.2⟩
    | tick => exact inv.tcpTickConn env
    | close =>
      -- A closing connection has nothing left to close.
      have other : io.conn.state ≠ .established ∧ io.conn.state ≠ .closeWait := by
        rcases inv.phase with released | closing
        · rw [released]
          exact ⟨nofun, nofun⟩
        · rcases TcpState.eq_of_isClosing closing with (state | state | state) | state | state <;>
            rw [state] <;> exact ⟨nofun, nofun⟩
      refine ⟨true, ?_⟩
      simp only [CatOs.Tcp.tcpStep, CatOs.Tcp.tcpClose, other.1, other.2, if_false]
      exact inv.modify rfl

def plainIn (flags : Flags) (seq ack : Word) (window : Half) : TcpIn :=
  { srcPort := 4000, dstPort := 80, seq := seq, ack := ack, flags := flags, window := window
    opts := [], data := [] }

end CatOs.Tcp
