import CatOs.Net.Tcp.SendRun
import CatOs.Net.Tcp.TwinOutput

/-! Every operation on a connection keeps twins twins, and exchanges the same. -/

namespace CatOs.Tcp

section Acknowledgement

variable {k j : Word} {whole fresh : Prop} {c d : TcpConn} {x y : TcpIo} (env : TcpEnv)

theorem Twin.tcpHandleWindow (twin : Twin k j whole fresh c d) (ticks : Word) (s : TcpIn) :
    Twin k j whole True (tcpHandleWindow ticks s c) (tcpHandleWindow ticks (s.shift k j) d) := by
  have told : PlainOp k j (setPeerWin s.window) (setPeerWin s.window) :=
    .same (fun _ => rfl) (fun _ _ _ => rfl) fun _ => rfl
  have timed : ∀ {c d}, Twin k j whole fresh c d →
      Twin k j whole fresh (windowTimer ticks s c) (windowTimer ticks (s.shift k j) d) := by
    intro c d twin
    simp only [windowTimer, twin.peerWin, twin.sndUsed, twin.inFlight]
    refine Twin.ite Iff.rfl (fun _ => twin.plain plainOp_tcpPersistClear) fun _ => ?_
    exact Twin.ite Iff.rfl (fun _ => twin.plain (plainOp_tcpPersistArm ticks)) fun _ => twin
  -- Reading the options brings both into agreement on the blocks that are reported.
  exact (timed (twin.plain told)).resetSack.tcpParseOpts s.opts

theorem TwinIo.tcpFastRetransmit (io : TwinIo k j whole True x y) (inFlight : Word)
    (sackRetx : Bool) :
    TwinIo k j whole True (tcpFastRetransmit env inFlight sackRetx x)
      (tcpFastRetransmit env inFlight sackRetx y) := by
  have entered := io.modify (io.conn.enterRecovery inFlight)
  have resent : TwinPut k j whole True
      (if sackRetx then (x.modify (enterRecovery inFlight), true)
        else CatOs.Tcp.sackRetransmit env (x.modify (enterRecovery inFlight)))
      (if sackRetx then (y.modify (enterRecovery inFlight), true)
        else CatOs.Tcp.sackRetransmit env (y.modify (enterRecovery inFlight))) := by
    split
    · exact ⟨entered, rfl⟩
    · exact entered.sackRetransmit env
  simp only [CatOs.Tcp.tcpFastRetransmit]
  revert resent
  generalize (if sackRetx then (x.modify (enterRecovery inFlight), true)
    else CatOs.Tcp.sackRetransmit env (x.modify (enterRecovery inFlight))) = p
  generalize (if sackRetx then (y.modify (enterRecovery inFlight), true)
    else CatOs.Tcp.sackRetransmit env (y.modify (enterRecovery inFlight))) = q
  intro resent
  obtain ⟨io, ok⟩ := resent
  simp only [ok]
  split
  · exact io
  -- A full segment is read from the front of the buffer, whether the buffer counts it or not.
  have short : 0 + (if inFlight.toNat > tcpMss then tcpMss else inFlight.toNat) ≤
      max p.1.conn.snd.sndUsed tcpMss := by
    split <;> omega
  generalize (if inFlight.toNat > tcpMss then tcpMss else inFlight.toNat) = len at short ⊢
  have put := io.tcpPutPkt env (tcpFlagAck ||| tcpFlagPsh) p.1.conn.sndUna p.1.conn.rcvNxt
    (p.1.conn.snd.sndb.read 0 len)
  simp only [io.conn.sndUna, io.conn.rcvNxt, io.conn.read_sndb short, put.ok]
  split
  · refine put.io.plain ?_
    exact .same (fun _ => rfl) (fun _ _ _ => rfl) fun _ => rfl
  · exact put.io.modify (put.io.conn.endRecovery.plain (plainOp_tcpRtoRearm env.ticks))

theorem TwinIo.tcpHandleDupAck (io : TwinIo k j whole True x y) (inFlight : Word) :
    TwinIo k j whole True (tcpHandleDupAck env inFlight x) (tcpHandleDupAck env inFlight y) := by
  have count : PlainOp k j countDupAck countDupAck :=
    .same (fun _ => rfl) (fun _ _ _ => rfl) fun _ => rfl
  obtain ⟨resent, ok⟩ := (io.plain count).sackRetransmit env
  simp only [CatOs.Tcp.tcpHandleDupAck, ok, resent.conn.dupacks, resent.conn.fastRecovery]
  split
  · exact resent.tcpFastRetransmit env inFlight _
  split
  · exact (resent.plain (plainOp_setCwnd fun cwnd _ => cwnd + lenWord tcpMss)).tcpXmitPending env
  · exact resent

theorem TwinIo.tcpHandleNewAck (io : TwinIo k j whole True x y) (ack : Word) :
    TwinIo k j whole True (tcpHandleNewAck env ack x) (tcpHandleNewAck env (ack + k) y) := by
  obtain ⟨resent, ok⟩ := (io.modify (io.conn.tcpAckAdvance env.ticks ack)).sackRetransmit env
  simp only [CatOs.Tcp.tcpHandleNewAck, ok]
  refine TwinIo.plain ?_ (plainOp_tcpAckTimer _)
  split
  · exact resent
  · exact resent.tcpXmitPending env

theorem TwinIo.tcpHandleAck (io : TwinIo k j whole True x y) (s : TcpIn) (oldWin : Half) :
    TwinIo k j whole True (tcpHandleAck env s oldWin x)
      (tcpHandleAck env (s.shift k j) oldWin y) := by
  have reported : y.conn.sackN = x.conn.sackN := (io.conn.blocks (.inr trivial)).count
  have acks : (s.shift k j).has tcpFlagAck = s.has tcpFlagAck := rfl
  have number : (s.shift k j).ack = s.ack + k := rfl
  simp only [CatOs.Tcp.tcpHandleAck, io.conn.inFlight, reported, acks, number]
  split
  · exact io
  have marked : TwinIo k j whole True (if x.conn.sackN ≠ 0 then x.modify tcpTxSack else x)
      (if x.conn.sackN ≠ 0 then y.modify tcpTxSack else y) :=
    TwinIo.ite Iff.rfl (fun _ => io.modify io.conn.tcpTxSack) fun _ => io
  revert marked
  generalize (if x.conn.sackN ≠ 0 then x.modify tcpTxSack else x) = p
  generalize (if x.conn.sackN ≠ 0 then y.modify tcpTxSack else y) = q
  intro marked
  simp only [marked.conn.sndUna, marked.conn.sndNxt, marked.conn.peerWin, add_left_inj,
    tcpSeqAfter_shift]
  split
  · exact marked.tcpHandleDupAck env _
  split
  · refine TwinIo.tcpXmitPending env (marked.plain ?_)
    exact .same (fun _ => rfl) (fun _ _ _ => rfl) fun _ => rfl
  split
  · exact marked.tcpHandleNewAck env _
  · exact marked

end Acknowledgement

def TcpConn.opening (c : TcpConn) : Prop := c.state = .synReceived ∨ c.state = .established

section Segment

variable {k j : Word} {whole fresh : Prop} {c d : TcpConn} {x y : TcpIo} (env : TcpEnv)

theorem unmoved (still : k = 0 ∨ c.opening) {state : TcpState} (at_ : c.state = state)
    (syn : state ≠ .synReceived) (est : state ≠ .established) : k = 0 := by
  rcases still with zero | first | second
  · exact zero
  · exact absurd (at_.symm.trans first) syn
  · exact absurd (at_.symm.trans second) est

section TwinIo

variable (io : TwinIo k j whole fresh x y)
include io

theorem TwinIo.tcpResendSynack :
    TwinIo k j whole fresh (tcpResendSynack env x) (tcpResendSynack env y) := by
  simp only [CatOs.Tcp.tcpResendSynack, io.conn.sndIsn]
  exact (io.tcpPutCtl env _ _).plain (plainOp_tcpRtoArm _)

theorem TwinIo.tcpHandleRst (s : TcpIn) :
    TwinIo k j whole fresh (tcpHandleRst env s x) (tcpHandleRst env (s.shift k j) y) := by
  have number : (s.shift k j).seq = s.seq + j := rfl
  simp only [CatOs.Tcp.tcpHandleRst, io.conn.rxn, io.conn.rcvNxt, number, ne_eq, add_left_inj,
    shift_lenWord, tcpSeqAfter_shift, tcpSeqBefore_shift]
  split
  · exact io.acknowledge env _
  split
  · exact io.plain (.enter (by decide : TcpState.closed ≠ .timeWait) (fun _ => rfl) (fun _ => rfl)
      (fun _ _ _ => rfl) (fun _ => ⟨rfl, rfl⟩) fun _ _ _ => rfl)
  · exact io

theorem TwinIo.tcpHandleData (s : TcpIn) :
    TwinIo k j whole fresh (tcpHandleData env s x) (tcpHandleData env (s.shift k j) y) := by
  have payload : (s.shift k j).data = s.data := rfl
  simp only [CatOs.Tcp.tcpHandleData, payload]
  split
  · exact io
  · exact TwinIo.acknowledge env (io.modify (io.conn.tcpAcceptData s.seq s.data)) _

theorem TwinIo.tcpSendFin {next : TcpState}
    (other : next ≠ .timeWait) :
    TwinIo k j whole fresh (tcpSendFin env next x) (tcpSendFin env next y) := by
  refine (io.acknowledge env tcpFlagFinack).plain (.enter other (fun _ => rfl) (fun _ => rfl)
    (fun c rtt recover => ?_) (fun _ => ⟨rfl, rfl⟩) fun _ _ same => same)
  simp only [tcpRtoArm, TcpConn.shift, add_right_comm c.sndNxt k 1]
  rfl

theorem TwinIo.tcpAckFin :
    TwinIo k j whole fresh (tcpAckFin env x) (tcpAckFin env y) := by
  have taken : PlainOp k j (fun c => { c with rcvNxt := c.rcvNxt + 1 })
      fun c => { c with rcvNxt := c.rcvNxt + 1 } := by
    refine .same (fun _ => rfl) (fun c rtt recover => ?_) fun _ => rfl
    simp only [TcpConn.shift, add_right_comm c.rcvNxt j 1]
  exact (io.plain taken).acknowledge env tcpFlagAck

theorem TwinIo.tcpFinState (still : k = 0 ∨ x.conn.opening) :
    TwinIo k j whole fresh (tcpFinState env x) (tcpFinState env y) := by
  have waits := io.plain (plainOp_enterTimeWait env.ticks)
  have closing : TwinIo k j whole fresh (x.modify fun c => { c with state := .closing })
      (y.modify fun c => { c with state := .closing }) :=
    io.plain (.enter (by decide : TcpState.closing ≠ .timeWait) (fun _ => rfl) (fun _ => rfl)
      (fun _ _ _ => rfl) (fun _ => ⟨rfl, rfl⟩) fun _ _ same => same)
  have left : TwinIo k j whole fresh (x.modify fun c => { c with state := .closeWait })
      (y.modify fun c => { c with state := .closeWait }) :=
    io.plain (.enter (by decide : TcpState.closeWait ≠ .timeWait) (fun _ => rfl) (fun _ => rfl)
      (fun _ _ _ => rfl) (fun _ => ⟨rfl, rfl⟩) fun _ _ same => same)
  unfold CatOs.Tcp.tcpFinState
  rw [io.conn.state]
  split
  · rename_i at_
    have zero := unmoved still at_ (by decide) (by decide)
    refine TwinIo.ite ?_ (fun _ => waits) fun _ => closing
    rw [io.conn.sndUna, io.conn.sndNxt, zero, add_zero, add_zero]
  · exact waits
  · exact waits
  · exact io
  · exact left.tcpSendFin env (by decide)

end TwinIo

theorem Twin.tcpFinishClose (twin : Twin k j whole fresh c d) (still : k = 0 ∨ c.opening)
    (ticks : Word) (s : TcpIn) :
    Twin k j whole fresh (tcpFinishClose ticks s c) (tcpFinishClose ticks (s.shift k j) d) := by
  have acked : ∀ {c d : TcpConn} {state : TcpState}, Twin k j whole fresh c d →
      k = 0 ∨ c.opening → state ≠ .synReceived → state ≠ .established →
      (d.state = state ∧ (s.shift k j).has tcpFlagAck ∧ d.sndUna ≥ d.sndNxt ↔
        c.state = state ∧ s.has tcpFlagAck ∧ c.sndUna ≥ c.sndNxt) := by
    intro c d state twin still syn est
    rw [twin.state]
    refine and_congr_right fun at_ => ?_
    rw [twin.sndUna, twin.sndNxt, unmoved still at_ syn est, add_zero, add_zero]
    rfl
  have first : Twin k j whole fresh
      (if c.state = .finWait1 ∧ s.has tcpFlagAck ∧ c.sndUna ≥ c.sndNxt then enterFinWait2 c else c)
      (if d.state = .finWait1 ∧ (s.shift k j).has tcpFlagAck ∧ d.sndUna ≥ d.sndNxt
        then enterFinWait2 d else d) := by
    refine Twin.ite (acked twin still (by decide) (by decide)) (fun _ => twin.plain ?_) fun _ => twin
    exact .enter (by decide : TcpState.finWait2 ≠ .timeWait) (fun _ => rfl) (fun _ => rfl)
      (fun _ _ _ => rfl) (fun _ => ⟨rfl, rfl⟩) fun _ _ same => same
  -- The second choice looks at what the first one left.
  have later : k = 0 ∨ TcpConn.opening
      (if c.state = .finWait1 ∧ s.has tcpFlagAck ∧ c.sndUna ≥ c.sndNxt then enterFinWait2 c
        else c) := by
    split
    · rename_i chosen
      exact .inl (unmoved still chosen.1 (by decide) (by decide))
    · exact still
  exact Twin.ite (acked first later (by decide) (by decide))
    (fun _ => first.plain (plainOp_enterTimeWait ticks)) fun _ => first

theorem TwinIo.tcpHandleOpen (io : TwinIo k j whole fresh x y) (s : TcpIn)
    (still : k = 0 ∨ x.conn.opening) :
    TwinIo k j whole fresh (tcpHandleOpen env s x) (tcpHandleOpen env (s.shift k j) y) := by
  have taken := io.tcpHandleData env s
  have closes : (s.shift k j).has tcpFlagFin = s.has tcpFlagFin := rfl
  have stop : (s.shift k j).seq + (s.shift k j).dlen = s.seq + s.dlen + j :=
    add_right_comm s.seq j s.dlen
  -- Neither the data nor an acknowledgement of it moves the connection on.
  have same : ∀ {z : TcpIo}, z.conn.state = x.conn.state → k = 0 ∨ z.conn.opening := by
    intro z kept
    rw [TcpConn.opening, kept]
    exact still
  have data := state_tcpHandleData env x s
  simp only [CatOs.Tcp.tcpHandleOpen, taken.conn.rcvNxt, closes, stop, add_left_inj]
  split
  · exact (taken.tcpAckFin env).tcpFinState env (same ((state_tcpAckFin env _).trans data))
  have answered := TwinIo.ite (Iff.refl (s.has tcpFlagFin = true))
    (fun _ => taken.acknowledge env tcpFlagAck) fun _ => taken
  refine answered.modify (answered.conn.tcpFinishClose (same ?_) env.ticks s)
  split
  · rw [state_tcpPutCtl, data]
  · exact data

theorem TwinIo.tcpHandleState (io : TwinIo k j whole fresh x y) (s : TcpIn)
    (still : k = 0 ∨ x.conn.opening) :
    TwinIo k j whole fresh (tcpHandleState env s x) (tcpHandleState env (s.shift k j) y) := by
  have acks : (s.shift k j).has tcpFlagAck = s.has tcpFlagAck := rfl
  have closes : (s.shift k j).has tcpFlagFin = s.has tcpFlagFin := rfl
  have payload : (s.shift k j).data = s.data := rfl
  have number : (s.shift k j).ack = s.ack + k := rfl
  have stop : (s.shift k j).seq + (s.shift k j).dlen + 1 = s.seq + s.dlen + 1 + j := by
    show s.seq + j + s.dlen + 1 = _
    rw [add_right_comm s.seq, add_right_comm _ j]
  unfold CatOs.Tcp.tcpHandleState
  rw [io.conn.state, acks, closes, payload, number, stop, io.conn.rcvNxt]
  split
  · refine TwinIo.tcpHandleData env ?_ s
    refine TwinIo.ite (by rw [io.conn.sndNxt, add_left_inj]) (fun _ => ?_) fun _ => io
    exact io.plain (.enter (by decide : TcpState.established ≠ .timeWait) (fun _ => rfl) (fun _ => rfl)
      (fun _ _ _ => rfl) (fun _ => ⟨rfl, rfl⟩) fun _ _ same => same)
  · exact io.tcpHandleOpen env s still
  · exact io.tcpHandleOpen env s still
  · exact io.tcpHandleOpen env s still
  · exact io.tcpHandleOpen env s still
  · exact io.tcpHandleOpen env s still
  · rename_i at_
    have zero := unmoved still at_ (by decide) (by decide)
    refine TwinIo.ite (by rw [add_left_inj]) (fun _ => io.acknowledge env _) fun _ => ?_
    refine TwinIo.ite (by rw [io.conn.sndNxt, zero, add_zero, add_zero]) (fun _ => ?_) fun _ => io
    exact io.plain (.enter (by decide : TcpState.closed ≠ .timeWait) (fun _ => rfl) (fun _ => rfl)
      (fun _ _ _ => rfl) (fun _ => ⟨rfl, rfl⟩) fun _ _ same => same)
  · exact TwinIo.ite Iff.rfl (fun _ => io.acknowledge env _) fun _ => io
  · exact io

theorem TwinIo.stale (io : TwinIo k j whole True x y) : TwinIo k j whole False x y :=
  { io with conn := io.conn.stale False fun none => none.elim }

theorem TwinIo.tcpSegment (io : TwinIo k j whole False x y) (s : TcpIn)
    (still : k = 0 ∨ x.conn.opening) :
    TwinIo k j whole False (tcpSegment env s x) (tcpSegment env (s.shift k j) y) := by
  have stale : isStale (s.shift k j) y.conn = isStale s x.conn := by
    rw [isStale, io.conn.state]
    rfl
  have isn : y.conn.rcvIsn = x.conn.rcvIsn + j := io.conn.field TcpConn.rcvIsn
  have number : (s.shift k j).seq = s.seq + j := rfl
  simp only [CatOs.Tcp.tcpSegment, CatOs.Tcp.tcpHandleConn, io.conn.used, stale, io.conn.state, isn,
    io.conn.peerWin, number, add_left_inj]
  split
  · exact io
  split
  · exact io.plain plainOp_releaseConn
  refine TwinIo.ite Iff.rfl (fun _ => io.tcpResendSynack env) fun _ => ?_
  refine TwinIo.ite Iff.rfl (fun _ => io.tcpHandleRst env s) fun _ => ?_
  have heard := io.modify (io.conn.tcpHandleWindow env.ticks s)
  -- Neither the window nor the acknowledgement moves the connection on.
  have kept : (CatOs.Tcp.tcpHandleAck env s x.conn.peerWin
      (x.modify (CatOs.Tcp.tcpHandleWindow env.ticks s))).conn.state = x.conn.state := by
    rw [state_tcpHandleAck]
    exact TcpConn.state_of_eraseSender (eraseSender_tcpHandleWindow x.conn env.ticks s)
  refine ((heard.tcpHandleAck env s x.conn.peerWin).tcpHandleState env s ?_).stale
  rw [TcpConn.opening, kept]
  exact still

end Segment

structure TwinCall (k j : Word) (whole fresh : Prop) (p q : TcpIo × Int) : Prop where
  io : TwinIo k j whole fresh p.1 q.1
  result : q.2 = p.2

section Calls

variable {k j : Word} {whole fresh : Prop} {x y : TcpIo} (env : TcpEnv)
  (io : TwinIo k j whole fresh x y)
include io

theorem TwinIo.tcpSend (data : List UInt8) :
    TwinCall k j whole fresh (tcpSend env x data) (tcpSend env y data) := by
  have len : sendLen y.conn data.length = sendLen x.conn data.length := by
    simp only [sendLen, io.conn.sndUsed]
  simp only [CatOs.Tcp.tcpSend, io.conn.dead, io.conn.state, len]
  split
  · exact ⟨io, rfl⟩
  split
  · exact ⟨io, rfl⟩
  split
  · exact ⟨io, rfl⟩
  split
  · exact ⟨io, rfl⟩
  refine ⟨TwinIo.tcpXmitPending env ?_, rfl⟩
  exact ⟨io.conn.queueSnd _ _ _, io.calls, io.wire, congrArg (· ++ _) io.accepted, io.delivered⟩

theorem TwinIo.tcpRecv (maxLen : Nat) :
    TwinCall k j whole fresh (tcpRecv env x maxLen) (tcpRecv env y maxLen) := by
  simp only [CatOs.Tcp.tcpRecv, io.conn.dead, io.conn.state, io.conn.rxn]
  split
  · exact ⟨io, rfl⟩
  split
  · split
    · exact ⟨io, rfl⟩
    · exact ⟨io, rfl⟩
  have short : (if x.conn.rx.rxn > maxLen then maxLen else x.conn.rx.rxn) ≤ x.conn.rx.rxn := by
    split <;> omega
  generalize (if x.conn.rx.rxn > maxLen then maxLen else x.conn.rx.rxn) = n at short ⊢
  have bytes : y.conn.rx.rxb.read 0 n = x.conn.rx.rxb.read 0 n :=
    Buffer.read_congr fun i within => io.conn.rxb (0 + i) (.inr (by omega))
  refine ⟨TwinIo.tcpWindowUpdateAck env ?_, rfl⟩
  exact ⟨io.conn.consumeRx n, io.calls, io.wire, io.accepted, by rw [io.delivered, bytes]⟩

theorem TwinIo.tcpClose : TwinIo k j whole fresh (tcpClose env x) (tcpClose env y) := by
  have left : PlainOp k j (fun c => { c with accepted := false })
      fun c => { c with accepted := false } := .same (fun _ => rfl) (fun _ _ _ => rfl) fun _ => rfl
  simp only [CatOs.Tcp.tcpClose, io.conn.state]
  refine TwinIo.plain ?_ left
  split
  · exact io.tcpSendFin env (by decide)
  split
  · exact io.tcpSendFin env (by decide)
  · exact io

theorem TwinIo.tcpTestSend : TwinIo k j whole fresh (tcpTestSend env x) (tcpTestSend env y) := by
  have sent : PlainOp k j (fun c => { c with testSent := true })
      fun c => { c with testSent := true } := .same (fun _ => rfl) (fun _ _ _ => rfl) fun _ => rfl
  simp only [CatOs.Tcp.tcpTestSend]
  refine TwinIo.plain ?_ sent
  refine TwinPut.io (forRange_related (TwinPut k j whole fresh) ⟨io, rfl⟩ ?_)
  intro block p q _ put
  simp only [put.ok]
  split
  · have sent := put.io.tcpSend env (testBlock block)
    exact ⟨sent.io, by rw [sent.result]⟩
  · exact put

theorem TwinIo.tcpTestTick : TwinIo k j whole fresh (tcpTestTick env x) (tcpTestTick env y) := by
  have port : y.conn.lport = x.conn.lport := io.conn.field TcpConn.lport
  have sent : y.conn.testSent = x.conn.testSent := io.conn.field TcpConn.testSent
  have closed : y.conn.testClosed = x.conn.testClosed := io.conn.field TcpConn.testClosed
  simp only [CatOs.Tcp.tcpTestTick, io.conn.state, port, sent, closed, io.conn.sndUsed,
    io.conn.sndNxt, io.conn.sndUna, add_left_inj]
  split
  · split
    · exact io.tcpTestSend env
    split
    · refine (io.tcpClose env).plain ?_
      exact .same (fun _ => rfl) (fun _ _ _ => rfl) fun _ => rfl
    · exact io
  · exact io

theorem TwinIo.tcpPersistTick :
    TwinIo k j whole fresh (tcpPersistTick env x) (tcpPersistTick env y) := by
  have deadline : y.conn.persistDeadline = x.conn.persistDeadline :=
    io.conn.field TcpConn.persistDeadline
  have probe : y.conn.snd.sndb.read 0 1 = x.conn.snd.sndb.read 0 1 :=
    io.conn.read_sndb (Nat.le_trans (by decide) (Nat.le_max_right _ _))
  simp only [CatOs.Tcp.tcpPersistTick, deadline, io.conn.peerWin, io.conn.sndUsed,
    io.conn.inFlight, io.conn.sndUna, io.conn.rcvNxt, probe]
  split
  · exact io
  split
  · exact io.plain plainOp_tcpPersistClear
  · refine (io.tcpPutPkt env _ _ _ _).io.plain ?_
    exact .same (fun _ => rfl) (fun _ _ _ => rfl) fun _ => rfl

omit io in
theorem Twin.noteTimeout {c d : TcpConn} (twin : Twin k j whole fresh c d) (inFlight : Nat) :
    Twin k j whole fresh (noteTimeout inFlight c) (noteTimeout inFlight d) := by
  have resent : PlainOp k j (fun c => { c with rttRetransmitted := true })
      fun c => { c with rttRetransmitted := true } :=
    .same (fun _ => rfl) (fun _ _ _ => rfl) fun _ => rfl
  exact (twin.tcpTxClearMarks.shrinkWindow _).plain resent

theorem TwinIo.tcpRtoData : TwinIo k j whole fresh (tcpRtoData env x) (tcpRtoData env y) := by
  simp only [CatOs.Tcp.tcpRtoData, io.conn.inFlight, io.conn.sndUsed, io.conn.sndUna,
    io.conn.rcvNxt]
  have short : 0 + (if x.conn.inFlight.toNat > x.conn.snd.sndUsed then x.conn.snd.sndUsed
      else x.conn.inFlight.toNat) ≤ max x.conn.snd.sndUsed tcpMss := by
    split <;> omega
  generalize (if x.conn.inFlight.toNat > x.conn.snd.sndUsed then x.conn.snd.sndUsed
    else x.conn.inFlight.toNat) = len at short ⊢
  rw [io.conn.read_sndb short]
  have lost := io.modify (io.conn.noteTimeout len)
  exact (lost.tcpPutPkt env _ _ _ _).io.plain (plainOp_tcpRtoRetry _)

theorem TwinIo.tcpRtoTick : TwinIo k j whole fresh (tcpRtoTick env x) (tcpRtoTick env y) := by
  have deadline : y.conn.rtoDeadline = x.conn.rtoDeadline := io.conn.field TcpConn.rtoDeadline
  have attempts : y.conn.rtoAttempts = x.conn.rtoAttempts := io.conn.field TcpConn.rtoAttempts
  simp only [CatOs.Tcp.tcpRtoTick, deadline, attempts, io.conn.sndIsn, io.conn.state,
    io.conn.sndUsed, io.conn.sndNxt, ← sub_add_eq_add_sub]
  generalize (if x.conn.state = .synReceived then tcpRtoRetrySynrcvd else tcpRtoRetryData) = r2
  split
  · exact io
  split
  · exact io.plain plainOp_releaseConn
  split
  · exact (io.tcpPutCtl env _ _).plain (plainOp_tcpRtoRetry _)
  split
  · exact (io.tcpPutCtl env _ _).plain (plainOp_tcpRtoRetry _)
  split
  · exact io.tcpRtoData env
  · refine io.plain ?_
    exact .same (fun _ => rfl) (fun _ _ _ => rfl) fun _ => rfl

theorem TwinIo.tcpTickConn : TwinIo k j whole fresh (tcpTickConn env x) (tcpTickConn env y) := by
  simp only [CatOs.Tcp.tcpTickConn, io.conn.used, io.conn.state]
  split
  · exact io
  split
  · -- The end of the last wait was set when the wait began.
    rename_i waiting
    rw [io.conn.waits (.inr waiting)]
    split
    · exact io.plain (.enter (by decide : TcpState.closed ≠ .timeWait) (fun _ => rfl) (fun _ => rfl)
      (fun _ _ _ => rfl) (fun _ => ⟨rfl, rfl⟩) fun _ _ same => same)
    · exact io
  · exact ((io.tcpTestTick env).tcpPersistTick env).tcpRtoTick env

end Calls

def tcpReturns (input : TcpEnv × TcpOp) (io : TcpIo) : Option Int :=
  match input.2 with
  | .send data => some (tcpSend input.1 io data).2
  | .recv maxLen => some (tcpRecv input.1 io maxLen).2
  | _ => none

theorem TwinIo.tcpStep {k j : Word} {whole : Prop} {x y : TcpIo} (io : TwinIo k j whole False x y)
    (env : TcpEnv) (op : TcpOp) (still : k = 0 ∨ x.conn.opening) :
    TwinIo k j whole False (tcpStep (env, op) x) (tcpStep (env, op.shift k j) y) ∧
      tcpReturns (env, op.shift k j) y = tcpReturns (env, op) x := by
  cases op with
  | send data => exact ⟨(io.tcpSend env data).io, congrArg some (io.tcpSend env data).result⟩
  | recv maxLen => exact ⟨(io.tcpRecv env maxLen).io, congrArg some (io.tcpRecv env maxLen).result⟩
  | segment s => exact ⟨io.tcpSegment env s still, rfl⟩
  | tick => exact ⟨io.tcpTickConn env, rfl⟩
  | close => exact ⟨io.tcpClose env, rfl⟩

end CatOs.Tcp
