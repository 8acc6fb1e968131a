import CatOs.Net.Tcp.Closing
import CatOs.Net.Tcp.ScoreboardRun

/-! What an application reads once the peer's stream has ended, or its connection is gone. -/

namespace CatOs.Tcp

def FinTaken (env : TcpEnv) (s : TcpIn) (io : TcpIo) : Prop :=
  io.conn.used = true ∧ isStale s io.conn = false ∧ s.has tcpFlagRst = false ∧
    io.conn.state ∈ [.established, .finWait1, .finWait2, .closeWait, .closing] ∧
    FinInOrder env s (ackStage env s io)

instance (env : TcpEnv) (s : TcpIn) (io : TcpIo) : Decidable (FinTaken env s io) :=
  inferInstanceAs (Decidable (_ ∧ _))

def EndsStream (input : TcpEnv × TcpOp) (io : TcpIo) : Prop :=
  (io.conn.used = true ∧ (tcpStep input io).conn.used = false) ∨
    match input.2 with
    | .segment s => FinTaken input.1 s io
    | _ => False

instance (input : TcpEnv × TcpOp) (io : TcpIo) : Decidable (EndsStream input io) :=
  match input with
  | (_, .segment _) => inferInstanceAs (Decidable (_ ∨ FinTaken _ _ _))
  | (_, .send _) | (_, .recv _) | (_, .tick) | (_, .close) => inferInstanceAs (Decidable (_ ∨ False))

structure Reading where
  io : TcpIo
  ended : Bool

def Reading.step (input : TcpEnv × TcpOp) (r : Reading) : Reading :=
  { io := tcpStep input r.io, ended := r.ended || decide (EndsStream input r.io) }

/--
Reading at the end of a stream hands out what is still buffered, and then an end or a reset.
-/
def AtEnd (io : TcpIo) : Prop :=
  ∀ env maxLen, 0 < maxLen →
    (io.conn.rx.rxn ≠ 0 →
      (tcpRecv env io maxLen).2 = min io.conn.rx.rxn maxLen ∧
      (tcpRecv env io maxLen).1.delivered =
        io.delivered ++ io.conn.rx.rxb.read 0 (min io.conn.rx.rxn maxLen)) ∧
    (io.conn.rx.rxn = 0 →
      (tcpRecv env io maxLen).2 = 0 ∨ (tcpRecv env io maxLen).2 = -catosEconnreset)

/--
A step keeps the end of a stream recognisable.

It releases the connection only by a reset that finds nothing buffered, and it does not lead to
the state in which both sides have closed and ours is unacknowledged.
-/
def KeepsEnd (input : TcpEnv × TcpOp) (io : TcpIo) : Prop :=
  (io.conn.used = true → (tcpStep input io).conn.used = false →
    (tcpStep input io).conn.dead = true ∧ (tcpStep input io).conn.rx.rxn = 0) ∧
  (tcpStep input io).conn.state ≠ .closing

instance (input : TcpEnv × TcpOp) (io : TcpIo) : Decidable (KeepsEnd input io) :=
  inferInstanceAs (Decidable (_ ∧ _))

def TcpState.peerClosed : TcpState → Bool
  | .closeWait | .lastAck | .timeWait => true
  | _ => false

section Life

variable (env : TcpEnv) (s : TcpIn) (io : TcpIo)

def TcpConn.life (c : TcpConn) : Bool × Bool := (c.used, c.dead)

theorem TcpConn.life_of_eraseSender {c d : TcpConn} (same : c.eraseSender = d.eraseSender) :
    c.life = d.life :=
  eq_of_erased same TcpConn.life fun _ => rfl

theorem life_ackStage : (ackStage env s io).conn.life = io.conn.life := by
  rw [ackStage, TcpConn.life_of_eraseSender (eraseSender_tcpHandleAck ..), TcpIo.modify_conn,
    TcpConn.life_of_eraseSender (eraseSender_tcpHandleWindow ..)]

theorem life_stateStep {next : TcpIo} (step : StateStep env s io next) :
    next.conn.life = io.conn.life ∨ next.conn.used = false := by
  cases step with
  | answer => exact .inl (tcpPutCtl_frame env io TcpConn.life (fun _ _ => rfl) _ _)
  | data =>
    exact .inl (eq_of_erased (eraseReceive_tcpAcceptData io.conn s.seq s.data) TcpConn.life
      fun _ => rfl)
  | closes opened =>
    exact .inl (tcpSendFin_frame env _ TcpConn.life (fun _ _ => rfl) (fun _ _ => rfl) _)
  | ends last => exact .inr rfl
  | count | opens waiting | half closed | both closed | waits closed => exact .inl rfl

theorem life_tcpHandleState :
    (tcpHandleState env s io).conn.life = io.conn.life ∨
      (tcpHandleState env s io).conn.used = false := by
  refine steps_keep (steps_tcpHandleState env s io)
    (fun next => next.conn.life = io.conn.life ∨ next.conn.used = false) ?_ (.inl rfl)
  intro now next step earlier
  rcases life_stateStep env s now step with same | released
  · rcases earlier with before | gone
    · exact .inl (same.trans before)
    · exact .inr ((congrArg Prod.fst same).trans gone)
  · exact .inr released

theorem life_tcpSegment :
    (tcpSegment env s io).conn.life = io.conn.life ∨ (tcpSegment env s io).conn.used = false := by
  simp only [tcpSegment]
  split
  · exact .inl rfl
  split
  · exact .inr rfl
  simp only [tcpHandleConn]
  split
  · exact .inl (tcpPutCtl_frame env io TcpConn.life (fun _ _ => rfl) _ _)
  split
  · simp only [tcpHandleRst]
    split
    · exact .inl (tcpPutCtl_frame env io TcpConn.life (fun _ _ => rfl) _ _)
    split
    · exact .inr rfl
    · exact .inl rfl
  · rw [← life_ackStage env s io]
    exact life_tcpHandleState env s (ackStage env s io)

theorem life_tcpClose :
    (tcpClose env io).conn.life = io.conn.life ∧ (tcpClose env io).conn.rx = io.conn.rx :=
  ⟨tcpClose_frame env io TcpConn.life (fun _ _ => rfl) (fun _ _ => rfl) fun _ => rfl,
    tcpClose_frame env io TcpConn.rx (fun _ _ => rfl) (fun _ _ => rfl) fun _ => rfl⟩

theorem life_tcpRecv (maxLen : Nat) : (tcpRecv env io maxLen).1.conn.life = io.conn.life := by
  rcases tcpRecv_conn env io maxLen with same | ⟨n, window, read⟩
  · rw [same]
  · rw [read]
    rfl

theorem life_tcpSend (data : List UInt8) : (tcpSend env io data).1.conn.life = io.conn.life :=
  TcpConn.life_of_eraseSender (eraseSender_tcpSend env io data)

theorem life_tcpTickConn :
    (tcpTickConn env io).conn.life = io.conn.life ∨ (tcpTickConn env io).conn.used = false := by
  have tested : (tcpTestTick env io).conn.life = io.conn.life := by
    simp only [tcpTestTick]
    split
    · split
      · obtain ⟨after, same, sent⟩ := tcpTestSend_keeps (fun next => next.conn.life = io.conn.life)
          (fun next data earlier => (life_tcpSend env next data).trans earlier) rfl
        rw [sent]
        exact same
      split
      · exact (life_tcpClose env io).1
      · rfl
    · rfl
  simp only [tcpTickConn]
  split
  · exact .inl rfl
  split
  · split
    · exact .inr rfl
    · exact .inl rfl
  · have probed := TcpConn.life_of_eraseSender
      (eraseSender_tcpPersistTick env (tcpTestTick env io))
    rcases eraseSender_tcpRtoTick env (tcpPersistTick env (tcpTestTick env io)) with same | released
    · left
      rw [TcpConn.life_of_eraseSender same, probed, tested]
    · rw [released]
      exact .inr rfl

theorem life_tcpStep (input : TcpEnv × TcpOp) :
    (tcpStep input io).conn.life = io.conn.life ∨ (tcpStep input io).conn.used = false := by
  obtain ⟨env, op⟩ := input
  cases op with
  | send data => exact .inl (life_tcpSend env io data)
  | recv maxLen => exact .inl (life_tcpRecv env io maxLen)
  | segment s => exact life_tcpSegment env s io
  | tick => exact life_tcpTickConn env io
  | close => exact .inl (life_tcpClose env io).1

end Life

section State

variable {io : TcpIo}

theorem peerClosed_of_taken {env : TcpEnv} {s : TcpIn} (taken : FinTaken env s io) :
    (tcpSegment env s io).conn.state.peerClosed = true ∨
      (tcpSegment env s io).conn.state = .closing := by
  obtain ⟨used, fresh, noReset, among, inOrder⟩ := taken
  have past : io.conn.state ≠ .synReceived := by
    intro early
    rw [early] at among
    revert among
    decide
  have kept := state_ackStage env s io
  obtain ⟨acked, same, result⟩ := tcpHandleOpen_inOrder inOrder
  have state : acked.conn.state = io.conn.state := (congrArg Prod.fst same).trans kept
  -- Each of the states goes to the one that follows the peer's close.
  rw [tcpSegment_staged used fresh noReset past]
  have opened : tcpHandleState env s (ackStage env s io) = tcpFinState env acked := by
    rw [← result]
    simp only [List.mem_cons, List.not_mem_nil, or_false] at among
    rcases among with here | here | here | here | here <;>
      simp only [tcpHandleState, kept.trans here]
  rw [opened]
  simp only [List.mem_cons, List.not_mem_nil, or_false] at among
  rcases among with here | here | here | here | here <;>
    simp only [tcpFinState, state.trans here]
  · exact .inl rfl
  · split
    · exact .inl rfl
    · exact .inr rfl
  · exact .inl rfl
  · exact .inl rfl
  · exact .inl rfl

theorem peerClosed_tcpHandleState (env : TcpEnv) (s : TcpIn)
    (closed : io.conn.state.peerClosed = true) :
    (tcpHandleState env s io).conn.state.peerClosed = true ∨
      (tcpHandleState env s io).conn.used = false := by
  have answered : (tcpPutCtl env io tcpFlagAck io.conn.sndNxt).conn.state.peerClosed = true := by
    rw [state_tcpPutCtl]
    exact closed
  cases state : io.conn.state <;> rw [state] at closed <;>
    first | exact absurd closed (by decide) | skip
  · -- Waiting for the application to close, a further close of the peer is ignored.
    left
    have opened : tcpHandleState env s io = tcpHandleOpen env s io := by
      simp only [tcpHandleState, state]
    rw [opened]
    by_cases inOrder : FinInOrder env s io
    · obtain ⟨acked, same, result⟩ := tcpHandleOpen_inOrder inOrder
      have here : acked.conn.state = .closeWait := (congrArg Prod.fst same).trans state
      simp only [result, tcpFinState, here]
      exact closed
    · obtain ⟨c, same, result⟩ := tcpHandleOpen_other inOrder
      have here : c.state = .closeWait := (congrArg Prod.fst same).trans state
      simp only [result, tcpFinishClose, here, reduceCtorEq, false_and, if_false]
      exact closed
  · simp only [tcpHandleState, state]
    split
    · exact .inl answered
    split
    · exact .inr rfl
    · rw [state]
      exact .inl closed
  · simp only [tcpHandleState, state]
    split
    · exact .inl answered
    · rw [state]
      exact .inl closed

theorem peerClosed_tcpSegment (env : TcpEnv) (s : TcpIn) (closed : io.conn.state.peerClosed = true) :
    (tcpSegment env s io).conn.state.peerClosed = true ∨
      (tcpSegment env s io).conn.used = false := by
  simp only [tcpSegment]
  split
  · exact .inl closed
  split
  · exact .inr rfl
  simp only [tcpHandleConn]
  split
  · rename_i early
    rw [early.1] at closed
    cases closed
  split
  · simp only [tcpHandleRst]
    split
    · rw [state_tcpPutCtl]
      exact .inl closed
    split
    · exact .inr rfl
    · exact .inl closed
  · apply peerClosed_tcpHandleState
    exact (congrArg TcpState.peerClosed (state_ackStage env s io)).trans closed

theorem peerClosed_tcpTickConn (env : TcpEnv) (closed : io.conn.state.peerClosed = true) :
    (tcpTickConn env io).conn.state.peerClosed = true ∨
      (tcpTickConn env io).conn.used = false := by
  have tested : tcpTestTick env io = io := by
    have unopened : io.conn.state ≠ .established := by
      intro established
      rw [established] at closed
      cases closed
    simp [tcpTestTick, unopened]
  simp only [tcpTickConn, tested]
  split
  · exact .inl closed
  split
  · split
    · exact .inr rfl
    · exact .inl closed
  · rcases eraseSender_tcpRtoTick env (tcpPersistTick env io) with same | released
    · left
      rw [TcpConn.state_of_eraseSender same, state_tcpPersistTick]
      exact closed
    · rw [released]
      exact .inr rfl

theorem peerClosed_tcpStep (input : TcpEnv × TcpOp) (closed : io.conn.state.peerClosed = true) :
    (tcpStep input io).conn.state.peerClosed = true ∨ (tcpStep input io).conn.used = false := by
  obtain ⟨env, op⟩ := input
  cases op with
  | send data =>
    left
    show (tcpSend env io data).1.conn.state.peerClosed = true
    rw [state_tcpSend]
    exact closed
  | recv maxLen =>
    left
    show (tcpRecv env io maxLen).1.conn.state.peerClosed = true
    rw [state_tcpRecv]
    exact closed
  | segment s => exact peerClosed_tcpSegment env s closed
  | tick => exact peerClosed_tcpTickConn env closed
  | close =>
    left
    simp only [tcpStep, tcpClose, TcpIo.modify_conn]
    split
    · rename_i established
      rw [established] at closed
      cases closed
    split
    · rfl
    · exact closed

end State

structure Reading.Ok (r : Reading) : Prop where
  alive : r.io.conn.used = true → r.io.conn.dead = false
  gone : r.io.conn.used = false → r.io.conn.dead = true ∧ r.io.conn.rx.rxn = 0
  remembered : r.ended = true → r.io.conn.used = true → r.io.conn.state.peerClosed = true

section Invariant

variable {r : Reading}

theorem Reading.Ok.gone_step (ok : r.Ok) (input : TcpEnv × TcpOp)
    (released : r.io.conn.used = false) :
    (tcpStep input r.io).conn.life = r.io.conn.life ∧
      (tcpStep input r.io).conn.rx = r.io.conn.rx := by
  obtain ⟨dead, -⟩ := ok.gone released
  obtain ⟨env, op⟩ := input
  cases op with
  | send data => simp [tcpStep, tcpSend, dead]
  | recv maxLen => simp [tcpStep, tcpRecv, dead]
  | segment s => simp [tcpStep, tcpSegment, released]
  | tick => simp [tcpStep, tcpTickConn, released]
  | close => exact life_tcpClose env r.io

theorem Reading.Ok.step (ok : r.Ok) {input : TcpEnv × TcpOp} (keeps : KeepsEnd input r.io) :
    (r.step input).Ok := by
  have life := life_tcpStep r.io input
  cases used : r.io.conn.used with
  | false =>
    obtain ⟨same, buffer⟩ := ok.gone_step input used
    have still : (tcpStep input r.io).conn.used = false := (congrArg Prod.fst same).trans used
    have dead : (tcpStep input r.io).conn.dead = r.io.conn.dead := congrArg Prod.snd same
    refine { alive := fun absurd => ?_, gone := fun _ => ?_, remembered := fun _ absurd => ?_ }
    · exact (Bool.false_ne_true (still.symm.trans absurd)).elim
    · show (tcpStep input r.io).conn.dead = true ∧ (tcpStep input r.io).conn.rx.rxn = 0
      rw [dead, buffer]
      exact ok.gone used
    · exact (Bool.false_ne_true (still.symm.trans absurd)).elim
  | true =>
    refine { alive := fun still => ?_, gone := fun released => ?_,
             remembered := fun ended still => ?_ }
    · -- A slot that stays in use was not reset by this step.
      have still : (tcpStep input r.io).conn.used = true := still
      rcases life with same | released
      · exact (congrArg Prod.snd same).trans (ok.alive used)
      · rw [still] at released
        cases released
    · exact keeps.1 used released
    · have still : (tcpStep input r.io).conn.used = true := still
      have ended : (r.ended || decide (EndsStream input r.io)) = true := ended
      rw [Bool.or_eq_true, decide_eq_true_eq] at ended
      rcases ended with before | ⟨-, released⟩ | now
      · rcases peerClosed_tcpStep input (ok.remembered before used) with closed | released
        · exact closed
        · rw [still] at released
          cases released
      · rw [still] at released
        cases released
      · -- The peer's close is taken by this very step.
        obtain ⟨env, op⟩ := input
        cases op with
        | segment s => exact (peerClosed_of_taken now).resolve_right keeps.2
        | send data | recv maxLen | tick | close => exact now.elim

theorem Reading.Ok.atEnd (ok : r.Ok) (ended : r.ended = true) : AtEnd r.io := by
  intro env maxLen room
  cases used : r.io.conn.used with
  | false =>
    obtain ⟨dead, empty⟩ := ok.gone used
    refine ⟨fun buffered => (buffered empty).elim, fun _ => .inr ?_⟩
    simp only [tcpRecv, dead, if_true]
  | true =>
    have alive := ok.alive used
    have closed := ok.remembered ended used
    have state : r.io.conn.state = .closeWait ∨ r.io.conn.state = .lastAck ∨
        r.io.conn.state = .timeWait := by
      cases here : r.io.conn.state <;> rw [here] at closed <;> simp_all [TcpState.peerClosed]
    refine ⟨fun buffered => ?_, fun empty => .inl ?_⟩
    · have handed : (if r.io.conn.rx.rxn > maxLen then maxLen else r.io.conn.rx.rxn) =
          min r.io.conn.rx.rxn maxLen := by
        split <;> omega
      have updated : ∀ io : TcpIo, (tcpWindowUpdateAck env io).delivered = io.delivered := by
        intro io
        simp only [tcpWindowUpdateAck]
        split
        · rfl
        split
        · exact tcpPutPkt_delivered ..
        · rfl
      simp only [tcpRecv, alive, Bool.false_eq_true, if_false, buffered, handed, updated,
        and_self]
    · simp only [tcpRecv, alive, Bool.false_eq_true, if_false, empty, state, if_true]

end Invariant

end CatOs.Tcp
