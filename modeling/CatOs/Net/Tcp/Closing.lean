import CatOs.Net.Tcp.SendRun

/-! When a connection takes its own close as acknowledged, and when it should. -/

namespace CatOs.Tcp

def ackStage (env : TcpEnv) (s : TcpIn) (io : TcpIo) : TcpIo :=
  tcpHandleAck env s io.conn.peerWin (io.modify (tcpHandleWindow env.ticks s))

def FinInOrder (env : TcpEnv) (s : TcpIn) (io : TcpIo) : Prop :=
  s.has tcpFlagFin = true ∧ s.seq + s.dlen = (tcpHandleData env s io).conn.rcvNxt

def RepeatedFin (s : TcpIn) (c : TcpConn) : Prop :=
  s.has tcpFlagFin = true ∧ s.seq + s.dlen + 1 = c.rcvNxt

instance (env : TcpEnv) (s : TcpIn) (io : TcpIo) : Decidable (FinInOrder env s io) :=
  inferInstanceAs (Decidable (_ ∧ _))

instance (s : TcpIn) (c : TcpConn) : Decidable (RepeatedFin s c) :=
  inferInstanceAs (Decidable (_ ∧ _))

def Completes (s : TcpIn) (before after : TcpConn) : Prop :=
  (before.state = .finWait1 ∧ (after.state = .finWait2 ∨ after.state = .timeWait)) ∨
    (before.state = .closing ∧ s.has tcpFlagAck = true ∧ after.state = .timeWait) ∨
    (before.state = .lastAck ∧ after.state = .closed)

instance (s : TcpIn) (before after : TcpConn) : Decidable (Completes s before after) :=
  inferInstanceAs (Decidable (_ ∨ _))

structure AcksFin (s : TcpIn) (c : TcpConn) : Prop where
  flagged : s.has tcpFlagAck = true
  noReset : s.has tcpFlagRst = false
  everything : s.ack = c.sndNxt
  advances : tcpSeqAfter s.ack c.sndUna = true

structure CloseAnswered (env : TcpEnv) (s : TcpIn) (io : TcpIo) : Prop where
  only : Completes s io.conn (tcpSegment env s io).conn →
    (tcpSegment env s io).conn.sndUna = (tcpSegment env s io).conn.sndNxt
  always : AcksFin s io.conn →
    (io.conn.state = .finWait1 ∧ s.has tcpFlagFin = false) ∨ io.conn.state = .closing ∨
      io.conn.state = .lastAck →
    Completes s io.conn (tcpSegment env s io).conn

section Stages

variable {env : TcpEnv} {s : TcpIn} {io : TcpIo}

theorem sendView_tcpHandleData (env : TcpEnv) (s : TcpIn) (io : TcpIo) :
    (tcpHandleData env s io).conn.sendView = io.conn.sendView := by
  simp only [tcpHandleData]
  split
  · rfl
  · rw [sendView_tcpPutCtl, TcpIo.modify_conn, sendView_tcpAcceptData]

theorem state_ackStage (env : TcpEnv) (s : TcpIn) (io : TcpIo) :
    (ackStage env s io).conn.state = io.conn.state := by
  rw [ackStage, state_tcpHandleAck, TcpIo.modify_conn,
    TcpConn.state_eq (sendView_tcpHandleWindow io.conn env.ticks s)]

theorem tcpSegment_staged (used : io.conn.used = true) (fresh : isStale s io.conn = false)
    (noReset : s.has tcpFlagRst = false) (past : io.conn.state ≠ .synReceived) :
    tcpSegment env s io = tcpHandleState env s (ackStage env s io) := by
  simp only [tcpSegment, used, fresh, tcpHandleConn, past, noReset, false_and, Bool.not_true,
    Bool.false_eq_true, if_false]
  rfl

theorem sndUna_tcpXmitPending (env : TcpEnv) (io : TcpIo) :
    (tcpXmitPending env io).conn.sndUna = io.conn.sndUna :=
  tcpXmitPending_frame env io TcpConn.sndUna (fun _ _ => rfl)
    (fun c => congrArg SendView.sndUna (sendView_tcpPersistArm env.ticks c))
    fun n c => congrArg SendView.sndUna (sendView_noteSent env.ticks n c)

theorem sndUna_tcpHandleNewAck (env : TcpEnv) (ack : Word) (io : TcpIo) :
    (tcpHandleNewAck env ack io).conn.sndUna = ack := by
  have timed : ∀ c : TcpConn, (tcpAckTimer env.ticks c).sndUna = c.sndUna := by
    intro c
    exact congrArg SendView.sndUna (sendView_tcpAckTimer env.ticks c)
  have retransmitted : (sackRetransmit env (io.modify (tcpAckAdvance env.ticks ack))).1.conn.sndUna
      = ack := by
    rw [sackRetransmit_frame env _ TcpConn.sndUna (fun _ _ => rfl) fun _ _ => rfl]
    exact congrArg SendView.sndUna (sendView_tcpAckAdvance env.ticks ack io.conn)
  simp only [tcpHandleNewAck, TcpIo.modify_conn, timed]
  split
  · exact retransmitted
  · rw [sndUna_tcpXmitPending, retransmitted]

theorem AcksFin.sndUna_ackStage (acks : AcksFin s io.conn) (env : TcpEnv) :
    (ackStage env s io).conn.sndUna = s.ack := by
  -- The acknowledgement is ahead of the last one, and not beyond what was sent.
  have differs : s.ack ≠ io.conn.sndUna := by
    intro same
    have ahead := acks.advances
    rw [same] at ahead
    simp [tcpSeqAfter] at ahead
  have within : tcpSeqAfter s.ack io.conn.sndNxt = false := by
    rw [acks.everything]
    simp [tcpSeqAfter]
  simp only [ackStage, tcpHandleAck, acks.flagged, Bool.not_true, Bool.false_eq_true, if_false]
  obtain ⟨_, _, _, _, _, handled⟩ := tcpHandleWindow_fields env.ticks io.conn s
  obtain ⟨_, -, marking⟩ := marked_fields (io.modify (tcpHandleWindow env.ticks s))
  rw [marking, TcpIo.modify_conn, TcpIo.modify_conn, handled]
  simp only [differs, acks.advances, within, false_and, if_false, Bool.not_false, and_self,
    if_true]
  exact sndUna_tcpHandleNewAck env s.ack _

end Stages

section Transitions

variable {env : TcpEnv} {s : TcpIn} {io : TcpIo}

def TcpConn.ending (c : TcpConn) : TcpState × Word × Word := (c.state, c.sndUna, c.sndNxt)

theorem TcpConn.ending_eq {c d : TcpConn} (same : c.sendView = d.sendView) :
    c.ending = d.ending :=
  congrArg (fun view : SendView => (view.state, view.sndUna, view.sndNxt)) same

theorem tcpHandleOpen_inOrder (inOrder : FinInOrder env s io) : ∃ acked : TcpIo,
    acked.conn.ending = io.conn.ending ∧ tcpHandleOpen env s io = tcpFinState env acked := by
  refine ⟨tcpAckFin env (tcpHandleData env s io), ?_, if_pos inOrder⟩
  have advanced : ∀ c : TcpConn, TcpConn.sendView { c with rcvNxt := c.rcvNxt + 1 } = c.sendView :=
    fun _ => rfl
  apply TcpConn.ending_eq
  rw [tcpAckFin, sendView_tcpPutCtl, TcpIo.modify_conn, advanced, sendView_tcpHandleData]

theorem tcpHandleOpen_other (other : ¬FinInOrder env s io) : ∃ c : TcpConn,
    c.ending = io.conn.ending ∧ (tcpHandleOpen env s io).conn = tcpFinishClose env.ticks s c := by
  have opened : tcpHandleOpen env s io = (if s.has tcpFlagFin then
      tcpPutCtl env (tcpHandleData env s io) tcpFlagAck (tcpHandleData env s io).conn.sndNxt
      else tcpHandleData env s io).modify (tcpFinishClose env.ticks s) := if_neg other
  rw [opened]
  refine ⟨_, ?_, TcpIo.modify_conn ..⟩
  apply TcpConn.ending_eq
  split
  · rw [sendView_tcpPutCtl, sendView_tcpHandleData]
  · rw [sendView_tcpHandleData]

theorem ending_finWait1 (env : TcpEnv) (s : TcpIn) {io : TcpIo}
    (state : io.conn.state = .finWait1) :
    (tcpHandleState env s io).conn.ending =
      (if FinInOrder env s io then
          if io.conn.sndNxt ≤ io.conn.sndUna then .timeWait else .closing
        else if s.has tcpFlagAck = true ∧ io.conn.sndNxt ≤ io.conn.sndUna then .finWait2
        else .finWait1, io.conn.sndUna, io.conn.sndNxt) := by
  have opened : tcpHandleState env s io = tcpHandleOpen env s io := by
    simp only [tcpHandleState, state]
  rw [opened]
  by_cases inOrder : FinInOrder env s io
  · rw [if_pos inOrder]
    obtain ⟨acked, same, result⟩ := tcpHandleOpen_inOrder inOrder
    simp only [TcpConn.ending, Prod.mk.injEq, state] at same
    obtain ⟨here, una, nxt⟩ := same
    simp only [result, tcpFinState, here, una, nxt, ge_iff_le]
    split
    · simp only [TcpConn.ending, TcpIo.modify_conn, enterTimeWait, una, nxt]
    · simp only [TcpConn.ending, TcpIo.modify_conn, una, nxt]
  · rw [if_neg inOrder]
    obtain ⟨c, same, result⟩ := tcpHandleOpen_other inOrder
    simp only [TcpConn.ending, Prod.mk.injEq, state] at same
    obtain ⟨here, una, nxt⟩ := same
    simp only [result, tcpFinishClose, here, una, nxt, ge_iff_le, true_and]
    split
    · simp [TcpConn.ending, enterFinWait2, una, nxt]
    · simp [TcpConn.ending, here, una, nxt]

theorem ending_closing (env : TcpEnv) (s : TcpIn) {io : TcpIo}
    (state : io.conn.state = .closing) :
    (tcpHandleState env s io).conn.ending =
      (if FinInOrder env s io ∨ (s.has tcpFlagAck = true ∧ io.conn.sndNxt ≤ io.conn.sndUna) then
          .timeWait
        else .closing, io.conn.sndUna, io.conn.sndNxt) := by
  have opened : tcpHandleState env s io = tcpHandleOpen env s io := by
    simp only [tcpHandleState, state]
  rw [opened]
  by_cases inOrder : FinInOrder env s io
  · rw [if_pos (.inl inOrder)]
    obtain ⟨acked, same, result⟩ := tcpHandleOpen_inOrder inOrder
    simp only [TcpConn.ending, Prod.mk.injEq, state] at same
    obtain ⟨here, una, nxt⟩ := same
    simp only [result, tcpFinState, here, TcpConn.ending, TcpIo.modify_conn, enterTimeWait, una, nxt]
  · simp only [inOrder, false_or]
    obtain ⟨c, same, result⟩ := tcpHandleOpen_other inOrder
    simp only [TcpConn.ending, Prod.mk.injEq, state] at same
    obtain ⟨here, una, nxt⟩ := same
    simp only [result, tcpFinishClose, here, una, nxt, ge_iff_le, reduceCtorEq, false_and, if_false,
      true_and]
    split
    · simp [TcpConn.ending, enterTimeWait, una, nxt]
    · simp [TcpConn.ending, here, una, nxt]

theorem ending_lastAck (env : TcpEnv) (s : TcpIn) {io : TcpIo}
    (state : io.conn.state = .lastAck) :
    (tcpHandleState env s io).conn.ending =
      (if RepeatedFin s io.conn then .lastAck
        else if s.has tcpFlagAck = true ∧ io.conn.sndNxt ≤ s.ack then .closed
        else .lastAck, io.conn.sndUna, io.conn.sndNxt) := by
  simp only [tcpHandleState, state]
  by_cases repeated : RepeatedFin s io.conn
  · have again : s.has tcpFlagFin = true ∧ s.seq + s.dlen + 1 = io.conn.rcvNxt := repeated
    rw [if_pos again, if_pos repeated, TcpConn.ending_eq (sendView_tcpPutCtl ..)]
    simp only [TcpConn.ending, state]
  · have once : ¬(s.has tcpFlagFin = true ∧ s.seq + s.dlen + 1 = io.conn.rcvNxt) := repeated
    rw [if_neg once, if_neg repeated]
    simp only [ge_iff_le]
    split
    · rfl
    · simp only [TcpConn.ending, state]

end Transitions

structure CloseOrderly (env : TcpEnv) (s : TcpIn) (io : TcpIo) : Prop where
  /-- Nothing but an acknowledgement ends a connection that waits for its last one. -/
  uncut : io.conn.state = .lastAck → isStale s io.conn = true ∨
      (s.has tcpFlagRst = true ∧ s.seq = io.conn.rcvNxt) → io.conn.sndUna = io.conn.sndNxt
  /-- The numbers in flight do not wrap after a close of ours. -/
  plain : isStale s io.conn = false → s.has tcpFlagRst = false → io.conn.state = .finWait1 →
    FinInOrder env s (ackStage env s io) ∨ s.has tcpFlagAck = true →
    (ackStage env s io).conn.sndUna ≤ (ackStage env s io).conn.sndNxt
  /-- They do not wrap after both closes, and the peer does not close twice. -/
  both : isStale s io.conn = false → s.has tcpFlagRst = false → io.conn.state = .closing →
    s.has tcpFlagAck = true →
    (ackStage env s io).conn.sndUna ≤ (ackStage env s io).conn.sndNxt ∧
      (FinInOrder env s (ackStage env s io) →
        (ackStage env s io).conn.sndUna = (ackStage env s io).conn.sndNxt)
  /-- A last acknowledgement that compares as large enough has acknowledged everything. -/
  last : isStale s io.conn = false → s.has tcpFlagRst = false → io.conn.state = .lastAck →
    s.has tcpFlagAck = true → ¬RepeatedFin s (ackStage env s io).conn →
    (ackStage env s io).conn.sndNxt ≤ s.ack →
    (ackStage env s io).conn.sndUna = (ackStage env s io).conn.sndNxt
  /-- An acknowledgement of the close lets no further data out. -/
  silent : AcksFin s io.conn →
    (io.conn.state = .finWait1 ∧ s.has tcpFlagFin = false) ∨
      (io.conn.state = .closing ∧ ¬FinInOrder env s (ackStage env s io)) ∨
      io.conn.state = .lastAck →
    (ackStage env s io).conn.sndNxt ≤ s.ack
  /-- An acknowledgement of the close does not come with a repeated close of the peer. -/
  single : AcksFin s io.conn → io.conn.state = .lastAck → ¬RepeatedFin s (ackStage env s io).conn

section Answered

variable {env : TcpEnv} {s : TcpIn} {io : TcpIo}

theorem AcksFin.fresh (acks : AcksFin s io.conn) : isStale s io.conn = false := by
  simp only [isStale, acks.flagged, Bool.not_true, Bool.and_false, Bool.false_and]

section TcpSegment

variable (staged : tcpSegment env s io = tcpHandleState env s (ackStage env s io))
include staged

theorem completes_finWait1 (state : io.conn.state = .finWait1) :
    Completes s io.conn (tcpSegment env s io).conn ↔
      (FinInOrder env s (ackStage env s io) ∨ s.has tcpFlagAck = true) ∧
        (ackStage env s io).conn.sndNxt ≤ (ackStage env s io).conn.sndUna := by
  have ending := ending_finWait1 env s ((state_ackStage env s io).trans state)
  rw [← staged] at ending
  have after := congrArg Prod.fst ending
  simp only [TcpConn.ending] at after
  simp only [Completes, state, after, reduceCtorEq, false_and, or_false, true_and]
  by_cases inOrder : FinInOrder env s (ackStage env s io) <;>
    by_cases reached : (ackStage env s io).conn.sndNxt ≤ (ackStage env s io).conn.sndUna <;>
    by_cases flagged : s.has tcpFlagAck = true <;> simp [inOrder, reached, flagged]

theorem completes_closing (state : io.conn.state = .closing) :
    Completes s io.conn (tcpSegment env s io).conn ↔ s.has tcpFlagAck = true ∧
      (FinInOrder env s (ackStage env s io) ∨
        (ackStage env s io).conn.sndNxt ≤ (ackStage env s io).conn.sndUna) := by
  have ending := ending_closing env s ((state_ackStage env s io).trans state)
  rw [← staged] at ending
  have after := congrArg Prod.fst ending
  simp only [TcpConn.ending] at after
  simp only [Completes, state, after, reduceCtorEq, false_and, or_false, false_or, true_and]
  by_cases inOrder : FinInOrder env s (ackStage env s io) <;>
    by_cases reached : (ackStage env s io).conn.sndNxt ≤ (ackStage env s io).conn.sndUna <;>
    by_cases flagged : s.has tcpFlagAck = true <;> simp [inOrder, reached, flagged]

theorem completes_lastAck (state : io.conn.state = .lastAck) :
    Completes s io.conn (tcpSegment env s io).conn ↔
      ¬RepeatedFin s (ackStage env s io).conn ∧ s.has tcpFlagAck = true ∧
        (ackStage env s io).conn.sndNxt ≤ s.ack := by
  have ending := ending_lastAck env s ((state_ackStage env s io).trans state)
  rw [← staged] at ending
  have after := congrArg Prod.fst ending
  simp only [TcpConn.ending] at after
  simp only [Completes, state, after, reduceCtorEq, false_and, false_or, true_and]
  by_cases again : RepeatedFin s (ackStage env s io).conn <;>
    by_cases reached : (ackStage env s io).conn.sndNxt ≤ s.ack <;>
    by_cases flagged : s.has tcpFlagAck = true <;> simp [again, reached, flagged]

theorem numbers_staged
    (state : io.conn.state = .finWait1 ∨ io.conn.state = .closing ∨ io.conn.state = .lastAck) :
    (tcpSegment env s io).conn.sndUna = (ackStage env s io).conn.sndUna ∧
      (tcpSegment env s io).conn.sndNxt = (ackStage env s io).conn.sndNxt := by
  have numbers : ∀ next, (tcpSegment env s io).conn.ending = (next,
      (ackStage env s io).conn.sndUna, (ackStage env s io).conn.sndNxt) →
      (tcpSegment env s io).conn.sndUna = (ackStage env s io).conn.sndUna ∧
        (tcpSegment env s io).conn.sndNxt = (ackStage env s io).conn.sndNxt := by
    intro next ending
    simp only [TcpConn.ending, Prod.mk.injEq] at ending
    exact ending.2
  have kept := state_ackStage env s io
  rcases state with here | here | here
  · exact numbers _ (staged ▸ ending_finWait1 env s (kept.trans here))
  · exact numbers _ (staged ▸ ending_closing env s (kept.trans here))
  · exact numbers _ (staged ▸ ending_lastAck env s (kept.trans here))

end TcpSegment

theorem ending_cut (env : TcpEnv) (used : io.conn.used = true) (past : io.conn.state ≠ .synReceived)
    (cut : isStale s io.conn = true ∨ s.has tcpFlagRst = true) :
    (tcpSegment env s io).conn.ending =
      (if isStale s io.conn = true ∨ (s.has tcpFlagRst = true ∧ s.seq = io.conn.rcvNxt) then .closed
        else io.conn.state, io.conn.sndUna, io.conn.sndNxt) := by
  simp only [tcpSegment, used, Bool.not_true, Bool.false_eq_true, if_false]
  by_cases stale : isStale s io.conn = true
  · simp only [stale, true_or, if_true]
    rfl
  · have reset : s.has tcpFlagRst = true := cut.resolve_left stale
    simp only [stale, reset, false_or, true_and, tcpHandleConn, past, false_and, if_false, if_true,
      tcpHandleRst, Bool.false_eq_true]
    by_cases next : s.seq = io.conn.rcvNxt
    · simp only [next, ne_eq, not_true_eq_false, false_and, if_false, if_true]
      rfl
    · rw [if_neg next]
      split
      · exact TcpConn.ending_eq (sendView_tcpPutCtl ..)
      · rfl

theorem past_handshake {c : TcpConn}
    (closing : c.state = .finWait1 ∨ c.state = .closing ∨ c.state = .lastAck) :
    c.state ≠ .synReceived := by
  intro early
  rw [early] at closing
  rcases closing with absurd | absurd | absurd <;> cases absurd

theorem tcpSegment_closed (used : io.conn.used = true)
    (closing : io.conn.state = .finWait1 ∨ io.conn.state = .closing ∨ io.conn.state = .lastAck)
    (fresh : isStale s io.conn = false) (noReset : s.has tcpFlagRst = false) :
    tcpSegment env s io = tcpHandleState env s (ackStage env s io) :=
  tcpSegment_staged used fresh noReset (past_handshake closing)

/-- Where closes complete only when they are acknowledged, and then always, the condition holds. -/
theorem CloseAnswered.orderly (answered : CloseAnswered env s io) (used : io.conn.used = true) :
    CloseOrderly env s io := by
  have staged := @tcpSegment_closed env s io used
  -- Completing a close leaves nothing unacknowledged.
  have settled : ∀ (closing : io.conn.state = .finWait1 ∨ io.conn.state = .closing ∨
      io.conn.state = .lastAck), isStale s io.conn = false → s.has tcpFlagRst = false →
      Completes s io.conn (tcpSegment env s io).conn →
      (ackStage env s io).conn.sndUna = (ackStage env s io).conn.sndNxt := by
    intro closing fresh noReset completes
    obtain ⟨una, nxt⟩ := numbers_staged (staged closing fresh noReset) closing
    rw [← una, ← nxt]
    exact answered.only completes
  -- So the plain comparison holds only if the numbers are equal.
  have ordered : ((ackStage env s io).conn.sndNxt ≤ (ackStage env s io).conn.sndUna →
      (ackStage env s io).conn.sndUna = (ackStage env s io).conn.sndNxt) →
      (ackStage env s io).conn.sndUna ≤ (ackStage env s io).conn.sndNxt := by
    intro equal
    rcases BitVec.le_total (ackStage env s io).conn.sndUna (ackStage env s io).conn.sndNxt with
      below | above
    · exact below
    · rw [equal above]
      exact BitVec.le_refl _
  refine { uncut := ?_, plain := ?_, both := ?_, last := ?_, silent := ?_, single := ?_ }
  · intro state cut
    have ending := ending_cut env used (past_handshake (.inr (.inr state)))
      (cut.imp_right And.left)
    rw [if_pos cut] at ending
    simp only [TcpConn.ending, Prod.mk.injEq] at ending
    rw [← ending.2.1, ← ending.2.2]
    exact answered.only (.inr (.inr ⟨state, ending.1⟩))
  · intro fresh noReset state noticed
    apply ordered
    intro reached
    have completes := completes_finWait1 (staged (.inl state) fresh noReset) state
    exact settled (.inl state) fresh noReset (completes.mpr ⟨noticed, reached⟩)
  · intro fresh noReset state flagged
    have completes := completes_closing (staged (.inr (.inl state)) fresh noReset) state
    refine ⟨ordered fun reached => ?_, fun inOrder => ?_⟩
    · exact settled (.inr (.inl state)) fresh noReset (completes.mpr ⟨flagged, .inr reached⟩)
    · exact settled (.inr (.inl state)) fresh noReset (completes.mpr ⟨flagged, .inl inOrder⟩)
  · intro fresh noReset state flagged once reached
    have completes := completes_lastAck (staged (.inr (.inr state)) fresh noReset) state
    exact settled (.inr (.inr state)) fresh noReset (completes.mpr ⟨once, flagged, reached⟩)
  · intro acks closing
    have una := acks.sndUna_ackStage env
    rcases closing with ⟨state, noFin⟩ | ⟨state, other⟩ | state
    · have completes := completes_finWait1 (staged (.inl state) acks.fresh acks.noReset) state
      rw [← una]
      exact (completes.mp (answered.always acks (.inl ⟨state, noFin⟩))).2
    · have completes := completes_closing (staged (.inr (.inl state)) acks.fresh acks.noReset) state
      rw [← una]
      exact (completes.mp (answered.always acks (.inr (.inl state)))).2.resolve_left other
    · have completes := completes_lastAck (staged (.inr (.inr state)) acks.fresh acks.noReset) state
      exact (completes.mp (answered.always acks (.inr (.inr state)))).2.2
  · intro acks state
    have completes := completes_lastAck (staged (.inr (.inr state)) acks.fresh acks.noReset) state
    exact (completes.mp (answered.always acks (.inr (.inr state)))).1

/-- Under the condition, closes complete only when they are acknowledged, and then always. -/
theorem CloseOrderly.answered (orderly : CloseOrderly env s io) (used : io.conn.used = true) :
    CloseAnswered env s io := by
  have staged := @tcpSegment_closed env s io used
  constructor
  · intro completes
    have closing : io.conn.state = .finWait1 ∨ io.conn.state = .closing ∨
        io.conn.state = .lastAck := completes.imp And.left (Or.imp And.left And.left)
    by_cases cut : isStale s io.conn = true ∨ s.has tcpFlagRst = true
    · -- A segment that cuts the close short completes nothing but the last wait.
      have ending := ending_cut env used (past_handshake closing) cut
      simp only [TcpConn.ending, Prod.mk.injEq] at ending
      rw [ending.2.1, ending.2.2]
      have kept := ending.1
      split at kept
      · rename_i ends
        refine orderly.uncut ?_ ends
        simp only [Completes, kept, reduceCtorEq, or_self, and_false, false_or, and_true] at completes
        exact completes
      · simp only [Completes, kept] at completes
        rcases completes with ⟨state, absurd⟩ | ⟨state, -, absurd⟩ | ⟨state, absurd⟩ <;>
          simp [state] at absurd
    · rw [not_or, Bool.not_eq_true, Bool.not_eq_true] at cut
      obtain ⟨fresh, noReset⟩ := cut
      have stages := staged closing fresh noReset
      obtain ⟨una, nxt⟩ := numbers_staged stages closing
      rw [una, nxt]
      rcases closing with state | state | state
      · obtain ⟨noticed, reached⟩ := (completes_finWait1 stages state).mp completes
        exact BitVec.le_antisymm (orderly.plain fresh noReset state noticed) reached
      · obtain ⟨flagged, inOrder | reached⟩ := (completes_closing stages state).mp completes
        · exact (orderly.both fresh noReset state flagged).2 inOrder
        · exact BitVec.le_antisymm (orderly.both fresh noReset state flagged).1 reached
      · obtain ⟨once, flagged, reached⟩ := (completes_lastAck stages state).mp completes
        exact orderly.last fresh noReset state flagged once reached
  · intro acks closing
    have una := acks.sndUna_ackStage env
    rcases closing with ⟨state, noFin⟩ | state | state
    · apply (completes_finWait1 (staged (.inl state) acks.fresh acks.noReset) state).mpr
      rw [una]
      exact ⟨.inr acks.flagged, orderly.silent acks (.inl ⟨state, noFin⟩)⟩
    · apply (completes_closing (staged (.inr (.inl state)) acks.fresh acks.noReset) state).mpr
      refine ⟨acks.flagged, ?_⟩
      by_cases inOrder : FinInOrder env s (ackStage env s io)
      · exact .inl inOrder
      · rw [una]
        exact .inr (orderly.silent acks (.inr (.inl ⟨state, inOrder⟩)))
    · apply (completes_lastAck (staged (.inr (.inr state)) acks.fresh acks.noReset) state).mpr
      exact ⟨orderly.single acks state, acks.flagged, orderly.silent acks (.inr (.inr state))⟩

end Answered

end CatOs.Tcp
