import CatOs.Net.Tcp.Deadlines

/-! When a timer is running for the bytes that an established connection still has to send. -/

namespace CatOs.Tcp

/--
A timer runs for everything that a connection still has to send.

What is in flight is up to the retransmission timer alone.
-/
structure Timed (c : TcpConn) : Prop where
  flight : c.inFlight ≠ 0 → c.rtoDeadline ≠ 0
  waiting : c.snd.sndUsed ≠ 0 → c.rtoDeadline ≠ 0 ∨ c.persistDeadline ≠ 0

theorem Timed.of_armed {c : TcpConn} (armed : c.rtoDeadline ≠ 0) : Timed c :=
  { flight := fun _ => armed, waiting := fun _ => .inl armed }

theorem Timed.congr {c d : TcpConn} (timed : Timed c) (view : d.sendView = c.sendView)
    (timers : d.timers = c.timers) : Timed d := by
  refine { flight := ?_, waiting := ?_ }
  · rw [TcpConn.inFlight_eq view, TcpConn.rtoDeadline_eq timers]
    exact timed.flight
  · rw [TcpConn.snd_eq view, TcpConn.rtoDeadline_eq timers, TcpConn.persistDeadline_eq timers]
    exact timed.waiting

section Acknowledge

variable {base : Word} {env : TcpEnv} {io : TcpIo}

theorem timed_tcpXmitPending (nonzero : DeadlinesNonzero env.ticks)
    (flight : io.conn.inFlight ≠ 0 → io.conn.rtoDeadline ≠ 0)
    (first : io.conn.inFlight = 0 → env.outcome io.calls = .sent) :
    Timed (tcpXmitPending env io).conn := by
  rcases tcpXmitPending_cases nonzero io with ⟨view, same⟩ | ⟨sent, -⟩
  · by_cases idle : (tcpXmitPending env io).conn.inFlight = 0
    · obtain ⟨-, waits⟩ := tcpXmitPending_waits nonzero first idle
      refine { flight := fun flying => (flying idle).elim, waiting := fun unsent => ?_ }
      rcases waits with empty | armed
      · exact (unsent empty).elim
      · exact .inr armed
    · apply Timed.of_armed
      rw [same]
      exact flight (TcpConn.inFlight_eq view ▸ idle)
  · exact Timed.of_armed sent

theorem sackRetransmit_idle (streaming : Streaming base false io)
    (idle : io.conn.inFlight = 0) : sackRetransmit env io = (io, false) := by
  obtain ⟨acked, sent, view⟩ := streaming.sending
  have flight : io.conn.inFlight.toNat = sent - acked := view.inFlight_eq
  rw [idle] at flight
  have order : acked ≤ sent := view.order
  have scoreboard := view.scoreboard
  have none : io.conn.txN = 0 := by
    by_contra some
    -- An entry would cover at least one number between equal ends.
    have tiles := scoreboard.tiles
    obtain ⟨count, succ⟩ := Nat.exists_eq_succ_of_ne_zero
      (show io.conn.sendView.txN ≠ 0 from some)
    rw [succ, Nat.succ_eq_add_one, Nat.add_comm, Buffer.read_add] at tiles
    obtain ⟨middle, one, rest⟩ := tiles_append.mp tiles
    obtain ⟨-, positive, reaches⟩ := tiles_singleton.mp one
    have inside := rest.le
    have zero : (0 : Word).toNat = 0 := rfl
    omega
  unfold sackRetransmit tcpTxRetransmitLost
  rw [none]
  split <;> rfl

theorem timed_tcpAckTimer_flying {c : TcpConn} (ticks : Word) (flying : c.inFlight ≠ 0)
    (running : c.rtoDeadline ≠ 0) : Timed (tcpAckTimer ticks c) := by
  have apart : c.sndNxt ≠ c.sndUna := by
    intro same
    exact flying (sub_eq_zero.mpr same)
  rw [tcpAckTimer, if_neg apart, if_neg running]
  exact Timed.of_armed running

theorem timed_tcpAckTimer_idle {c : TcpConn} (ticks : Word) (idle : c.inFlight = 0)
    (waits : c.snd.sndUsed = 0 ∨ c.persistDeadline ≠ 0) : Timed (tcpAckTimer ticks c) := by
  rw [tcpAckTimer, if_pos (sub_eq_zero.mp idle)]
  refine { flight := fun flying => (flying idle).elim, waiting := fun unsent => ?_ }
  rcases waits with empty | persist
  · exact (unsent empty).elim
  · exact .inr persist

section Streaming

variable (nonzero : DeadlinesNonzero env.ticks) (streaming : Streaming base false io)
include nonzero streaming

theorem timed_refill (running : io.conn.rtoDeadline ≠ 0)
    (first : io.conn.inFlight = 0 → env.outcome io.calls = .sent) :
    Timed (tcpAckTimer env.ticks (if (sackRetransmit env io).2 then (sackRetransmit env io).1
      else tcpXmitPending env (sackRetransmit env io).1).conn) := by
  by_cases idle : io.conn.inFlight = 0
  · -- Everything is acknowledged, so that only new data can be sent.
    simp only [sackRetransmit_idle streaming idle, Bool.false_eq_true, if_false]
    by_cases still : (tcpXmitPending env io).conn.inFlight = 0
    · exact timed_tcpAckTimer_idle env.ticks still (tcpXmitPending_waits nonzero first still).2
    · exact timed_tcpAckTimer_flying env.ticks still (rtoDeadline_tcpXmitPending nonzero running)
  · have tried := rtoDeadline_sackRetransmit nonzero running
    have flying : (sackRetransmit env io).1.conn.inFlight ≠ 0 := by
      rw [sackRetransmit_frame env io TcpConn.inFlight (fun _ _ => rfl) fun _ _ => rfl]
      exact idle
    generalize sackRetransmit env io = result at tried flying
    split
    · exact timed_tcpAckTimer_flying env.ticks flying tried
    · refine timed_tcpAckTimer_flying env.ticks ?_ (rtoDeadline_tcpXmitPending nonzero tried)
      rcases tcpXmitPending_cases nonzero result.1 with ⟨view, -⟩ | ⟨-, sent⟩
      · rw [TcpConn.inFlight_eq view]
        exact flying
      · exact sent

theorem timed_tcpHandleNewAck {ack : Word} (armed : io.conn.rtoDeadline ≠ 0)
    (after : tcpSeqAfter ack io.conn.sndUna = true)
    (upTo : tcpSeqAfter ack io.conn.sndNxt = false)
    (first : ack = io.conn.sndNxt → env.outcome io.calls = .sent) :
    Timed (tcpHandleNewAck env ack io).conn := by
  obtain ⟨acked, sent, view⟩ := streaming.sending
  obtain ⟨cut, rfl, forward, bound⟩ := view.ack_position after upTo
  have advanced : Streaming base false (io.modify (tcpAckAdvance env.ticks (serial base cut))) :=
    streaming.advance ⟨cut, sent, view.tcpAckAdvance env.ticks forward bound⟩
  have moved := sendView_tcpAckAdvance env.ticks (serial base cut) io.conn
  have nxt : (tcpAckAdvance env.ticks (serial base cut) io.conn).sndNxt = io.conn.sndNxt :=
    congrArg SendView.sndNxt moved
  have una : (tcpAckAdvance env.ticks (serial base cut) io.conn).sndUna = serial base cut :=
    congrArg SendView.sndUna moved
  have refilled : (tcpHandleNewAck env (serial base cut) io).conn = tcpAckTimer env.ticks
      (if (sackRetransmit env (io.modify (tcpAckAdvance env.ticks (serial base cut)))).2 then
        (sackRetransmit env (io.modify (tcpAckAdvance env.ticks (serial base cut)))).1
      else tcpXmitPending env
        (sackRetransmit env (io.modify (tcpAckAdvance env.ticks (serial base cut)))).1).conn := by
    simp only [tcpHandleNewAck, TcpIo.modify_conn]
  rw [refilled]
  refine timed_refill nonzero advanced ?_ fun idle => first ?_
  · rwa [TcpIo.modify_conn, TcpConn.rtoDeadline_eq (timers_tcpAckAdvance ..)]
  · rw [TcpIo.modify_conn, TcpConn.inFlight, nxt, una] at idle
    exact (sub_eq_zero.mp idle).symm

theorem timed_tcpHandleAck (s : TcpIn) (oldWin : Half)
    (flight : io.conn.inFlight ≠ 0 → io.conn.rtoDeadline ≠ 0)
    (first : io.conn.inFlight = 0 ∨ s.ack = io.conn.sndNxt → env.outcome io.calls = .sent)
    (idle : io.conn.rtoDeadline = 0 → io.conn.snd.sndUsed ≠ 0 → io.conn.persistDeadline ≠ 0 ∨
      (s.has tcpFlagAck = true ∧ s.ack = io.conn.sndUna ∧ oldWin < io.conn.peerWin)) :
    Timed (tcpHandleAck env s oldWin io).conn := by
  simp only [tcpHandleAck]
  split
  · rename_i silent
    refine { flight := flight, waiting := fun unsent => ?_ }
    by_cases stopped : io.conn.rtoDeadline = 0
    · rcases idle stopped unsent with persist | ⟨acknowledges, -⟩
      · exact .inr persist
      · rw [acknowledges] at silent
        cases silent
    · exact .inl stopped
  obtain ⟨tx, spans, marking⟩ := marked_fields io
  have kept : Streaming base false (io.modify fun c => { c with tx := tx }) :=
    streaming.marks rfl spans
  rw [marking]
  split
  · rename_i duplicate
    apply Timed.of_armed
    apply rtoDeadline_tcpHandleDupAck nonzero
    exact flight duplicate.2.1
  rename_i notDuplicate
  split
  · exact timed_tcpXmitPending nonzero flight fun none => first (.inl none)
  rename_i notOpened
  split
  · rename_i new
    have after : tcpSeqAfter s.ack io.conn.sndUna = true := new.1
    have upTo : tcpSeqAfter s.ack io.conn.sndNxt = false := by simpa using new.2
    refine timed_tcpHandleNewAck nonzero kept ?_ after upTo fun all => first (.inr all)
    -- An acknowledgement of something new means that something was in flight.
    refine flight fun none => ?_
    rw [sub_eq_zero.mp none, after] at upTo
    cases upTo
  · refine { flight := flight, waiting := fun unsent => ?_ }
    by_cases stopped : io.conn.rtoDeadline = 0
    · rcases idle stopped unsent with running | ⟨-, number, wider⟩
      · exact .inr running
      · exact (notOpened ⟨number, wider⟩).elim
    · exact .inl stopped

end Streaming

end Acknowledge

structure TimedOpen (c : TcpConn) : Prop where
  handshake : c.state = .synReceived → c.snd.sndUsed = 0 ∧ c.inFlight = 0
  established : c.state = .established → Timed c

section Operations

variable {base : Word} {env : TcpEnv} {io : TcpIo}

theorem TimedOpen.of_not_open {c : TcpConn} (notOpen : c.state.isOpen = false) : TimedOpen c := by
  refine { handshake := fun state => ?_, established := fun state => ?_ } <;>
    rw [state] at notOpen <;> cases notOpen

theorem TimedOpen.congr {c d : TcpConn} (timed : TimedOpen c) (view : d.sendView = c.sendView)
    (timers : d.timers = c.timers) : TimedOpen d := by
  have state : d.state = c.state := congrArg SendView.state view
  refine { handshake := fun here => ?_, established := fun here => ?_ }
  · rw [TcpConn.snd_eq view, TcpConn.inFlight_eq view]
    exact timed.handshake (state.symm.trans here)
  · exact (timed.established (state.symm.trans here)).congr view timers

theorem TimedOpen.tcpPutCtl (timed : TimedOpen io.conn) (flags : Flags) (seq : Word) :
    TimedOpen (tcpPutCtl env io flags seq).conn :=
  timed.congr (sendView_tcpPutCtl ..) (timers_tcpPutPkt ..)

theorem TimedOpen.tcpSend (timed : TimedOpen io.conn) (nonzero : DeadlinesNonzero env.ticks)
    (first : io.conn.inFlight = 0 → env.outcome io.calls = .sent) (data : List UInt8) :
    TimedOpen (tcpSend env io data).1.conn ∧ ((tcpSend env io data).1.conn.inFlight = 0 →
      io.conn.inFlight = 0 ∧ (tcpSend env io data).1.calls = io.calls) := by
  simp only [CatOs.Tcp.tcpSend]
  split
  · exact ⟨timed, fun idle => ⟨idle, rfl⟩⟩
  split
  · exact ⟨timed, fun idle => ⟨idle, rfl⟩⟩
  rename_i established
  split
  · exact ⟨timed, fun idle => ⟨idle, rfl⟩⟩
  split
  · exact ⟨timed, fun idle => ⟨idle, rfl⟩⟩
  · have established : io.conn.state = .established := by simpa using established
    have flight := (timed.established established).flight
    generalize queued : TcpIo.mk (queueSnd io.conn (data.take (sendLen io.conn data.length))
      (sendLen_fits io.conn data)) io.calls io.wire (io.accepted ++ data.take
        (sendLen io.conn data.length)) io.delivered = current
    have same : current.conn.inFlight = io.conn.inFlight ∧ current.conn.state = .established ∧
        current.conn.rtoDeadline = io.conn.rtoDeadline ∧ current.calls = io.calls := by
      rw [← queued]
      exact ⟨rfl, established, rfl, rfl⟩
    obtain ⟨flying, state, rto, calls⟩ := same
    have goes : current.conn.inFlight = 0 → env.outcome current.calls = .sent := by
      rw [flying, calls]
      exact first
    have filled := timed_tcpXmitPending nonzero (by rw [flying, rto]; exact flight) goes
    constructor
    · refine { handshake := fun here => ?_, established := fun _ => filled }
      rw [state_tcpXmitPending, state] at here
      cases here
    · intro idle
      rw [← flying, ← calls]
      exact (tcpXmitPending_waits nonzero goes idle).1

theorem TimedOpen.tcpRecv (timed : TimedOpen io.conn) (maxLen : Nat) :
    TimedOpen (tcpRecv env io maxLen).1.conn :=
  tcpRecv_keeps (fun next => TimedOpen next.conn) timed (fun _ => timed.congr rfl rfl)
    (fun _ read => read.tcpPutCtl _ _) maxLen

theorem TimedOpen.tcpClose (timed : TimedOpen io.conn) : TimedOpen (tcpClose env io).conn := by
  have finished : ∀ next, (tcpSendFin env next io).conn.state = next := fun next =>
    congrArg SendView.state (tcpSendFin_conn env next io)
  simp only [CatOs.Tcp.tcpClose]
  split
  · apply TimedOpen.of_not_open
    show (tcpSendFin env .finWait1 io).conn.state.isOpen = false
    rw [finished]
    rfl
  split
  · apply TimedOpen.of_not_open
    show (tcpSendFin env .lastAck io).conn.state.isOpen = false
    rw [finished]
    rfl
  · exact timed.congr rfl rfl

theorem TimedOpen.tcpHandleData (timed : TimedOpen io.conn) (s : TcpIn) :
    TimedOpen (tcpHandleData env s io).conn := by
  simp only [CatOs.Tcp.tcpHandleData]
  split
  · exact timed
  · have taken : TimedOpen (tcpAcceptData io.conn s.seq s.data).1 :=
      timed.congr (sendView_tcpAcceptData ..) (timers_tcpAcceptData ..)
    exact @TimedOpen.tcpPutCtl env (io.modify fun c => (tcpAcceptData c s.seq s.data).1) taken _ _

theorem sendView_tcpHandleAck_empty (empty : io.conn.snd.sndUsed = 0)
    (idle : io.conn.inFlight = 0) (s : TcpIn) (oldWin : Half) :
    (tcpHandleAck env s oldWin io).conn.snd = io.conn.snd ∧
      (tcpHandleAck env s oldWin io).conn.inFlight = io.conn.inFlight := by
  simp only [tcpHandleAck]
  split
  · exact ⟨rfl, rfl⟩
  obtain ⟨tx, -, marking⟩ := marked_fields io
  rw [marking]
  split
  · rename_i duplicate
    exact (duplicate.2.1 idle).elim
  split
  · rw [tcpXmitPending_unsent]
    · exact ⟨rfl, rfl⟩
    · show io.conn.snd.sndUsed ≤ _
      omega
  split
  · rename_i new
    -- Nothing lies between the two ends of an empty flight.
    have after : tcpSeqAfter s.ack io.conn.sndUna = true := new.1
    have upTo : tcpSeqAfter s.ack io.conn.sndNxt = false := by simpa using new.2
    rw [sub_eq_zero.mp idle, after] at upTo
    cases upTo
  · exact ⟨rfl, rfl⟩

theorem TimedOpen.tcpHandleState (timed : TimedOpen io.conn) (s : TcpIn) :
    TimedOpen (tcpHandleState env s io).conn := by
  by_cases opened : io.conn.state.isOpen = true
  · rcases TcpState.eq_of_isOpen opened with state | state
    · -- The end of the handshake stops the timer, with nothing to send yet.
      obtain ⟨empty, idle⟩ := timed.handshake state
      simp only [CatOs.Tcp.tcpHandleState, state]
      apply TimedOpen.tcpHandleData
      split
      · refine { handshake := fun here => (by cases here), established := fun _ => ?_ }
        exact { flight := fun flying => (flying idle).elim
                waiting := fun unsent => (unsent empty).elim }
      · exact timed
    · simp only [CatOs.Tcp.tcpHandleState, state, tcpHandleOpen]
      have received : TimedOpen (CatOs.Tcp.tcpHandleData env s io).conn := timed.tcpHandleData s
      have stays : (CatOs.Tcp.tcpHandleData env s io).conn.state = .established := by
        rw [state_tcpHandleData, state]
      generalize CatOs.Tcp.tcpHandleData env s io = current at received stays
      split
      · -- The peer's close takes the connection to its last state but one.
        apply TimedOpen.of_not_open
        have finished : ∀ io, (tcpSendFin env .lastAck io).conn.state = .lastAck := fun io =>
          congrArg SendView.state (tcpSendFin_conn env .lastAck io)
        simp only [tcpHandleFin, tcpFinState, state_tcpAckFin, stays, finished]
        rfl
      · have closes : ∀ c : TcpConn, c.state = .established →
            tcpFinishClose env.ticks s c = c := by
          intro c here
          simp [tcpFinishClose, here]
        split
        · rw [TcpIo.modify_conn, closes _ (by rw [state_tcpPutCtl, stays])]
          exact received.tcpPutCtl _ _
        · rw [TcpIo.modify_conn, closes _ stays]
          exact received
  · have move := move_tcpHandleState env io s
    exact TimedOpen.of_not_open (move.isOpen (Bool.eq_false_iff.mpr opened))

theorem persistDeadline_tcpHandleWindow (nonzero : DeadlinesNonzero env.ticks) {c : TcpConn}
    (running : c.persistDeadline ≠ 0) (s : TcpIn)
    (shut : s.has tcpFlagAck = true → s.window = 0) :
    (tcpHandleWindow env.ticks s c).persistDeadline ≠ 0 := by
  have parsed : ∀ d, (tcpParseOpts (resetSack d) s.opts false).persistDeadline =
      d.persistDeadline := by
    intro d
    have same := congrArg TcpConn.persistDeadline
      (eraseOptions_tcpParseOpts (resetSack d) s.opts false)
    exact same
  rw [tcpHandleWindow, parsed]
  unfold windowTimer
  split
  · rename_i opened
    exact (opened.2 (shut opened.1)).elim
  split
  · exact persistDeadline_tcpPersistArm nonzero _
  · exact running

end Operations

def Waiting (c : TcpConn) : Prop := c.inFlight = 0 ∧ c.snd.sndUsed ≠ 0

instance (c : TcpConn) : Decidable (Waiting c) := inferInstanceAs (Decidable (_ ∧ _))

def OpensWindow (s : TcpIn) (c : TcpConn) : Prop := s.ack = c.sndUna ∧ c.peerWin < s.window

instance (s : TcpIn) (c : TcpConn) : Decidable (OpensWindow s c) :=
  inferInstanceAs (Decidable (_ ∧ _))

def TestSends (c : TcpConn) : Prop :=
  c.state = .established ∧ c.lport = testPort ∧ c.testSent = false

instance (c : TcpConn) : Decidable (TestSends c) := inferInstanceAs (Decidable (_ ∧ _ ∧ _))

section Steps

variable {base : Word} {env : TcpEnv} {io : TcpIo}

section DeadlinesNonzero

variable (timed : TimedOpen io.conn) (nonzero : DeadlinesNonzero env.ticks)
include timed nonzero

theorem TimedOpen.tcpSegment (live : io.conn.state.isOpen = true → Live base false io) (s : TcpIn)
    (first : io.conn.inFlight = 0 ∨ s.ack = io.conn.sndNxt → env.outcome io.calls = .sent)
    (opens : Waiting io.conn → s.has tcpFlagAck = true → s.window ≠ 0 → OpensWindow s io.conn) :
    TimedOpen (tcpSegment env s io).conn := by
  by_cases opened : io.conn.state.isOpen = true
  swap
  · have move := move_tcpStep io (env, .segment s)
    exact TimedOpen.of_not_open (move.isOpen (Bool.eq_false_iff.mpr opened))
  have streaming := (live opened).streaming
  simp only [CatOs.Tcp.tcpSegment]
  split
  · exact timed
  split
  · exact TimedOpen.of_not_open rfl
  simp only [tcpHandleConn]
  split
  · -- The reply to a repeated request restarts a timer that the handshake does not need.
    rename_i waits
    obtain ⟨empty, idle⟩ := timed.handshake waits.1
    have view : (tcpResendSynack env io).conn.sendView = io.conn.sendView :=
      sendView_tcpPutCtl env io tcpFlagSynack io.conn.sndIsn
    refine { handshake := fun _ => ?_, established := fun here => ?_ }
    · rw [TcpConn.snd_eq view, TcpConn.inFlight_eq view]
      exact ⟨empty, idle⟩
    · rw [TcpConn.state_eq view, waits.1] at here
      cases here
  split
  · simp only [tcpHandleRst]
    split
    · exact timed.tcpPutCtl _ _
    split
    · exact TimedOpen.of_not_open rfl
    · exact timed
  apply TimedOpen.tcpHandleState
  have view := sendView_tcpHandleWindow io.conn env.ticks s
  have windowed : Streaming base false (io.modify (tcpHandleWindow env.ticks s)) :=
    streaming.modify view
  have state : (CatOs.Tcp.tcpHandleAck env s io.conn.peerWin
      (io.modify (tcpHandleWindow env.ticks s))).conn.state = io.conn.state := by
    rw [state_tcpHandleAck, TcpIo.modify_conn, TcpConn.state_eq view]
  obtain ⟨deadline, _, _, _, _, handled⟩ := tcpHandleWindow_fields env.ticks io.conn s
  refine { handshake := fun here => ?_, established := fun here => ?_ }
  · rw [state] at here
    obtain ⟨empty, idle⟩ := timed.handshake here
    obtain ⟨same, unmoved⟩ := @sendView_tcpHandleAck_empty env
      (io.modify (tcpHandleWindow env.ticks s)) (by rw [TcpIo.modify_conn, handled]; exact empty)
      (by rw [TcpIo.modify_conn, handled]; exact idle) s io.conn.peerWin
    rw [same, unmoved, TcpIo.modify_conn, handled]
    exact ⟨empty, idle⟩
  · rw [state] at here
    have before := timed.established here
    refine timed_tcpHandleAck nonzero windowed s io.conn.peerWin ?_ ?_ ?_ <;>
      rw [TcpIo.modify_conn, handled]
    · exact before.flight
    · exact first
    · intro stopped unsent
      have idle : io.conn.inFlight = 0 := by
        by_contra some
        exact before.flight some stopped
      have running : io.conn.persistDeadline ≠ 0 := by
        rcases before.waiting unsent with rto | persist
        · exact (rto stopped).elim
        · exact persist
      -- The zero-window timer is stopped only by a window that this very segment opens.
      by_cases wide : s.has tcpFlagAck = true ∧ s.window ≠ 0
      · obtain ⟨number, wider⟩ := opens ⟨idle, unsent⟩ wide.1 wide.2
        exact .inr ⟨wide.1, number, wider⟩
      · left
        have still := persistDeadline_tcpHandleWindow nonzero running s fun acknowledges =>
          Decidable.not_not.mp fun some => wide ⟨acknowledges, some⟩
        rwa [handled] at still

theorem TimedOpen.tcpTestTick
    (first : TestSends io.conn → io.conn.inFlight = 0 → env.outcome io.calls = .sent) :
    TimedOpen (tcpTestTick env io).conn := by
  simp only [CatOs.Tcp.tcpTestTick]
  split
  · rename_i testing
    split
    · rename_i unsent
      have first := first ⟨testing.1, testing.2, by simpa using unsent⟩
      -- A block finds something in flight, or no attempt was made before it.
      have loop := @forRange_invariant _ 16 (fun k (state : TcpIo × Bool) =>
          if state.2 then
            ((CatOs.Tcp.tcpSend env state.1 (testBlock k)).1,
              decide ((CatOs.Tcp.tcpSend env state.1 (testBlock k)).2 = 90))
          else state) (io, true)
        (fun _ state => TimedOpen state.1.conn ∧ (state.1.conn.inFlight = 0 →
          io.conn.inFlight = 0 ∧ state.1.calls = io.calls)) ⟨timed, fun idle => ⟨idle, rfl⟩⟩ ?_
      · have marked : ∀ c : TcpConn, TimedOpen c → TimedOpen { c with testSent := true } :=
          fun _ kept => kept.congr rfl rfl
        simp only [tcpTestSend]
        exact marked _ loop.1
      · rintro k ⟨current, going⟩ _ ⟨kept, quiet⟩
        dsimp only
        split
        · obtain ⟨next, later⟩ := kept.tcpSend nonzero (fun idle => by
            rw [(quiet idle).2]
            exact first (quiet idle).1) (testBlock k)
          refine ⟨next, fun idle => ?_⟩
          obtain ⟨before, same⟩ := later idle
          exact ⟨(quiet before).1, same.trans (quiet before).2⟩
        · exact ⟨kept, quiet⟩
    split
    · exact timed.tcpClose.congr rfl rfl
    · exact timed
  · exact timed

theorem TimedOpen.tcpPersistTick (shut : Waiting io.conn → io.conn.peerWin = 0) :
    TimedOpen (tcpPersistTick env io).conn := by
  simp only [CatOs.Tcp.tcpPersistTick]
  split
  · exact timed
  split
  · rename_i cleared
    refine { handshake := timed.handshake, established := fun here => ?_ }
    have before := timed.established here
    refine { flight := before.flight, waiting := fun unsent => .inl ?_ }
    -- The timer is stopped for an open window, or when everything is in flight already.
    apply before.flight
    intro idle
    have zero : io.conn.inFlight.toNat = 0 := congrArg BitVec.toNat idle
    have unsent : io.conn.snd.sndUsed ≠ 0 := unsent
    rcases cleared with opened | sent
    · exact opened (shut ⟨idle, unsent⟩)
    · omega
  · have view := sendView_tcpPutPkt env io (tcpFlagAck ||| tcpFlagPsh) io.conn.sndUna
      io.conn.rcvNxt (io.conn.snd.sndb.read 0 1)
    have timers := timers_tcpPutPkt env io (tcpFlagAck ||| tcpFlagPsh) io.conn.sndUna
      io.conn.rcvNxt (io.conn.snd.sndb.read 0 1)
    have probed := timed.congr view timers
    generalize tcpPutPkt env io (tcpFlagAck ||| tcpFlagPsh) io.conn.sndUna
      io.conn.rcvNxt (io.conn.snd.sndb.read 0 1) = put at probed
    refine { handshake := probed.handshake, established := fun here => ?_ }
    exact { flight := (probed.established here).flight
            waiting := fun _ => .inr (persistDeadline_tcpPersistRetry nonzero _) }

theorem TimedOpen.tcpRtoTick
    (held : io.conn.state = .established → io.conn.inFlight.toNat ≤ io.conn.snd.sndUsed) :
    TimedOpen (tcpRtoTick env io).conn := by
  simp only [CatOs.Tcp.tcpRtoTick]
  split
  · exact timed
  generalize (if io.conn.state = .synReceived then tcpRtoRetrySynrcvd else tcpRtoRetryData) = r2
  split
  · exact TimedOpen.of_not_open rfl
  split
  · rename_i waits
    obtain ⟨empty, idle⟩ := timed.handshake waits
    have view := sendView_tcpPutCtl env io tcpFlagSynack io.conn.sndIsn
    refine { handshake := fun _ => ?_, established := fun here => ?_ }
    · rw [TcpIo.modify_conn, TcpConn.snd_eq (sendView_tcpRtoRetry env.ticks _),
        TcpConn.inFlight_eq (sendView_tcpRtoRetry env.ticks _), TcpConn.snd_eq view,
        TcpConn.inFlight_eq view]
      exact ⟨empty, idle⟩
    · exact Timed.of_armed (rtoDeadline_tcpRtoRetry nonzero _)
  rename_i notWaiting
  split
  · rename_i closing
    refine { handshake := fun here => ?_, established := fun _ => ?_ }
    · rw [TcpIo.modify_conn, TcpConn.state_eq (sendView_tcpRtoRetry env.ticks _),
        state_tcpPutCtl] at here
      exact (notWaiting here).elim
    · exact Timed.of_armed (rtoDeadline_tcpRtoRetry nonzero _)
  split
  · refine { handshake := fun here => ?_, established := fun _ => ?_ }
    · rw [TcpConn.state_of_eraseSender (eraseSender_tcpRtoData env io)] at here
      exact (notWaiting here).elim
    · exact Timed.of_armed (rtoDeadline_tcpRtoRetry nonzero _)
  · rename_i empty
    have empty : io.conn.snd.sndUsed = 0 := by simpa using empty
    refine { handshake := timed.handshake, established := fun here => ?_ }
    have none : io.conn.inFlight.toNat = 0 := by
      have held := held here
      omega
    exact { flight := fun flying => (flying (BitVec.eq_of_toNat_eq none)).elim
            waiting := fun unsent => (unsent empty).elim }

theorem TimedOpen.tcpTickConn (live : io.conn.state.isOpen = true → Live base false io)
    (first : TestSends io.conn → io.conn.inFlight = 0 → env.outcome io.calls = .sent)
    (shut : Waiting (CatOs.Tcp.tcpTestTick env io).conn →
      (CatOs.Tcp.tcpTestTick env io).conn.peerWin = 0) :
    TimedOpen (tcpTickConn env io).conn := by
  by_cases opened : io.conn.state.isOpen = true
  swap
  · exact TimedOpen.of_not_open ((move_tcpTickConn env io).isOpen (Bool.eq_false_iff.mpr opened))
  obtain ⟨closed, tested⟩ := (live opened).tcpTestTick env
  have probed := tested.tcpPersistTick env
  simp only [CatOs.Tcp.tcpTickConn]
  split
  · exact timed
  split
  · split
    · exact TimedOpen.of_not_open rfl
    · exact timed
  · exact ((timed.tcpTestTick nonzero first).tcpPersistTick nonzero shut).tcpRtoTick nonzero
      probed.inFlight_le

end DeadlinesNonzero

end Steps

/--
The operations that leave a timer running.

The first segment of new data goes out when nothing is in flight, and a window that was closed
is opened by an acknowledgement of exactly the first byte that waits.
-/
def TimersKept (input : TcpEnv × TcpOp) (io : TcpIo) : Prop :=
  DeadlinesNonzero input.1.ticks ∧
    match input.2 with
    | .send _ => io.conn.inFlight = 0 → input.1.outcome io.calls = .sent
    | .segment s =>
      (io.conn.inFlight = 0 ∨ s.ack = io.conn.sndNxt → input.1.outcome io.calls = .sent) ∧
        (Waiting io.conn → s.has tcpFlagAck = true → s.window ≠ 0 → OpensWindow s io.conn)
    | .tick =>
      (TestSends io.conn → io.conn.inFlight = 0 → input.1.outcome io.calls = .sent) ∧
        (Waiting (tcpTestTick input.1 io).conn → (tcpTestTick input.1 io).conn.peerWin = 0)
    | .recv _ | .close => True

instance (input : TcpEnv × TcpOp) (io : TcpIo) : Decidable (TimersKept input io) :=
  match input with
  | (_, .send _) => inferInstanceAs (Decidable (_ ∧ (_ → _)))
  | (_, .segment _) => inferInstanceAs (Decidable (_ ∧ (_ → _) ∧ (_ → _ → _ → _)))
  | (_, .tick) => inferInstanceAs (Decidable (_ ∧ (_ → _ → _) ∧ (_ → _)))
  | (_, .recv _) | (_, .close) => inferInstanceAs (Decidable (_ ∧ True))

theorem TimedOpen.tcpStep {base : Word} {io : TcpIo} (timed : TimedOpen io.conn)
    (live : io.conn.state.isOpen = true → Live base false io) (input : TcpEnv × TcpOp)
    (kept : TimersKept input io) : TimedOpen (tcpStep input io).conn := by
  obtain ⟨env, op⟩ := input
  obtain ⟨nonzero, kept⟩ := kept
  cases op with
  | send data => exact (timed.tcpSend nonzero kept data).1
  | recv maxLen => exact timed.tcpRecv maxLen
  | segment s => exact timed.tcpSegment nonzero live s kept.1 kept.2
  | tick => exact timed.tcpTickConn nonzero live kept.1 kept.2
  | close => exact timed.tcpClose

theorem TimedOpen.tcpSynAccept (env : TcpEnv) (s : TcpIn) (srcIp isn : Word) (c : TcpConn) :
    TimedOpen (tcpSynAccept env s srcIp isn c).conn := by
  have view : (CatOs.Tcp.tcpSynAccept env s srcIp isn c).conn.sendView =
      (initSynConn s srcIp isn c).sendView :=
    sendView_tcpPutCtl env (startIo (initSynConn s srcIp isn c)) tcpFlagSynack _
  have fresh := view.trans (sendView_initSynConn s srcIp isn c)
  refine { handshake := fun _ => ⟨?_, ?_⟩, established := fun here => ?_ }
  · exact congrArg (fun v : SendView => v.snd.sndUsed) fresh
  · have flight := congrArg (fun v : SendView => v.sndNxt - v.sndUna) fresh
    exact flight.trans (sub_self _)
  · have state : (CatOs.Tcp.tcpSynAccept env s srcIp isn c).conn.state = .synReceived :=
      congrArg SendView.state fresh
    rw [state] at here
    cases here

/-- In every established connection with buffered bytes a timer runs that will retry them. -/
theorem no_stalled_sender {env : TcpEnv} {s : TcpIn} {srcIp isn : Word} {c : TcpConn} {io : TcpIo}
    (run : TcpRun TimersKept (tcpSynAccept env s srcIp isn c) io)
    (established : io.conn.state = .established) (buffered : 0 < io.conn.snd.sndUsed) :
    io.conn.rtoDeadline ≠ 0 ∨ io.conn.persistDeadline ≠ 0 := by
  have timed := run.invariant (fun io => TimedOpen io.conn ∧
      (io.conn.state.isOpen = true → Live (isn + 1) false io))
    ⟨TimedOpen.tcpSynAccept env s srcIp isn c, fun _ => Live.tcpSynAccept env s srcIp isn c⟩
    fun input io kept ⟨timed, live⟩ =>
      ⟨timed.tcpStep live input kept, Live.of_open_step input live⟩
  exact (timed.1.established established).waiting (Nat.pos_iff_ne_zero.mp buffered)

/-- A byte waits for a closed window, is probed for, and is sent once the window opens. -/
theorem no_stalled_sender_probed :
    let env (ticks : Word) : TcpEnv := { ticks := ticks, outcome := fun _ => .sent }
    let start := tcpSynAccept (env 5) (plainIn tcpFlagSyn 100 0 0) 1 7 zeroConn
    ∃ io, TcpRun TimersKept start io ∧ io.wire.length = 3 ∧ 0 < io.conn.snd.sndUsed ∧
      (io.conn.rtoDeadline ≠ 0 ∨ io.conn.persistDeadline ≠ 0) := by
  intro env start
  have initially : TcpRun TimersKept start start := .start
  have opened := initially.step (env 6, .segment (plainIn tcpFlagAck 101 8 0)) (by decide)
  have sent := opened.step (env 7, .send [65]) (by decide)
  have probed := sent.step (env 40, .tick) (by decide)
  have resumed := probed.step (env 41, .segment (plainIn tcpFlagAck 101 8 500)) (by decide)
  exact ⟨_, resumed, by decide, by decide,
    no_stalled_sender resumed (by decide) (by decide)⟩

/--
A send that fails at once and the acknowledgement of a probe both stall the sender.

In the first run the only byte meets an unresolved next hop, and no timer is started for it.
In the second run the peer takes the byte of a probe, which stops the zero-window timer but is
not an acknowledgement of anything counted as sent.
-/
theorem sender_stalls :
    let env (ticks : Word) (outcome : TxOutcome) : TcpEnv :=
      { ticks := ticks, outcome := fun _ => outcome }
    let start (window : Half) :=
      tcpSynAccept (env 5 .sent) (plainIn tcpFlagSyn 100 0 window) 1 7 zeroConn
    let stalled (io : TcpIo) : Prop := io.conn.state = .established ∧ io.conn.snd.sndUsed = 1 ∧
      io.conn.rtoDeadline = 0 ∧ io.conn.persistDeadline = 0
    let allowed (input : TcpEnv × TcpOp) (_ : TcpIo) : Prop := DeadlinesNonzero input.1.ticks
    (∃ io, TcpRun allowed (start 500) io ∧ stalled io) ∧
      ∃ io, TcpRun allowed (start 0) io ∧ stalled io := by
  intro env start stalled allowed
  let acknowledge (ticks ack : Word) (window : Half) :=
    (env ticks .sent, TcpOp.segment (plainIn tcpFlagAck 101 ack window))
  constructor
  · have initially : TcpRun allowed (start 500) (start 500) := .start
    have run := initially.inputs
      [acknowledge 6 8 500, (env 7 .noFrame, .send [65])] (by decide)
    exact ⟨_, run, by decide⟩
  · have initially : TcpRun allowed (start 0) (start 0) := .start
    have run := initially.inputs
      [acknowledge 6 8 0, (env 7 .sent, .send [65]), (env 40 .sent, .tick), acknowledge 41 9 500]
      (by decide)
    exact ⟨_, run, by decide⟩

end CatOs.Tcp
