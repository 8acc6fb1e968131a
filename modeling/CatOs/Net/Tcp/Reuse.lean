import CatOs.Net.Tcp.TwinStep

/-! What an earlier connection in the same slot can still do to a new one. -/

namespace CatOs.Tcp

structure SlotAlike (x y : OooSlot) : Prop where
  used : x.used = y.used
  same : x.used = true →
    x.seq = y.seq ∧ x.len = y.len ∧ x.data.read 0 x.len = y.data.read 0 x.len

theorem SlotAlike.unused {x y : OooSlot} (left : x.used = false) (right : y.used = false) :
    SlotAlike x y :=
  { used := left.trans right.symm, same := fun used => absurd (left.symm.trans used) Bool.false_ne_true }

theorem SlotAlike.twin {x y : OooSlot} (alike : SlotAlike x y) : SlotTwin 0 False x y := by
  obtain ⟨used, same⟩ := alike
  refine ⟨used.symm, fun need => ?_, fun need => ?_, fun i need => ?_⟩
  · rw [add_zero, (same (need.resolve_left id)).1]
  · exact (same (need.resolve_left id)).2.1.symm
  · obtain ⟨held, within⟩ := need.resolve_left id
    have bytes := Buffer.eq_of_read_eq (same held).2.2 within
    rw [Nat.zero_add] at bytes
    exact bytes.symm

section Accept

variable {c d : TcpConn}

/--
The leftovers of two slots that a connection request does not overwrite agree.

The window last announced only counts when the reply finds no frame to be built in, and of
the send buffer only the first segment can ever be read before it is written.
-/
structure LeftoversAgree (env : TcpEnv) (s : TcpIn) (srcIp isn : Word) (c d : TcpConn) : Prop where
  sackOk : (initSynConn s srcIp isn c).sackOk = (initSynConn s srcIp isn d).sackOk
  mss : effMss (initSynConn s srcIp isn c) = effMss (initSynConn s srcIp isn d)
  rto : rtoNow (initSynConn s srcIp isn c) = rtoNow (initSynConn s srcIp isn d)
  advWin : env.outcome 0 = .noFrame → c.advWin = d.advWin
  oooBytes : c.oooBytes = d.oooBytes
  ooo : ∀ i < tcpOooSlots, SlotAlike (c.ooo i) (d.ooo i)
  sndb : ∀ i < tcpMss, c.snd.sndb i = d.snd.sndb i

def settleSyn (ticks : Word) (window : Half) (c : TcpConn) : TcpConn :=
  tcpRtoArm ticks { c with advWin := window }

theorem LeftoversAgree.settled {env : TcpEnv} {s : TcpIn} {srcIp isn : Word}
    (agree : LeftoversAgree env s srcIp isn c d) (ticks : Word) (window : Half) :
    Twin 0 0 False False (settleSyn ticks window (initSynConn s srcIp isn c))
      (settleSyn ticks window (initSynConn s srcIp isn d)) := by
  obtain ⟨permitted, shift, size, left⟩ := initSynConn_fields c s srcIp isn
  obtain ⟨permitted', shift', size', right⟩ := initSynConn_fields d s srcIp isn
  have sackOk := agree.sackOk
  have mss := agree.mss
  have armed : ∀ e : TcpConn, settleSyn ticks window e =
      { e with advWin := window, rtoDeadline := ticks + rtoNow e, rtoBackoff := noBackoff
               rtoAttempts := 0 } := fun _ => rfl
  rw [armed, armed, agree.rto]
  generalize rtoNow (initSynConn s srcIp isn d) = rto
  simp only [left, right] at sackOk mss ⊢
  have sackOk : permitted = permitted' := sackOk
  -- Nothing is measured, recovered, counted or waited for yet.
  refine { scalars := ?_, rtt := fun waits => absurd waits Bool.false_ne_true
           recover := fun waits => absurd waits Bool.false_ne_true, waits := fun waiting => ?_
           unread := fun all => all.elim, mss := mss.symm
           blocks := fun now => (or_self_iff.mp now).elim, rxn := rfl, rxb := fun i need => ?_
           ooo := fun i need => (agree.ooo i (need.resolve_left id)).twin, sndUsed := rfl
           sndb := fun i need => ?_, tx := fun i need => ?_ }
  · simp only [TcpConn.scalars, TcpConn.shift, numberSlot, claimSlot, tcpCcInit, tcpTxReset, sackOk,
      agree.oooBytes, add_zero]
  · cases waiting.resolve_left id
  · exact absurd (need.resolve_left id) (Nat.not_lt_zero i)
  · have within : i < max 0 tcpMss := need.resolve_left id
    exact (agree.sndb i (by omega)).symm
  · exact absurd (need.resolve_left id) (Nat.not_lt_zero i)

theorem advWin_initSynConn (s : TcpIn) (srcIp isn : Word) (c : TcpConn) :
    (initSynConn s srcIp isn c).advWin = c.advWin := by
  obtain ⟨_, _, _, claimed⟩ := initSynConn_fields c s srcIp isn
  rw [claimed]
  rfl

theorem LeftoversAgree.tcpSynAccept {env : TcpEnv} {s : TcpIn} {srcIp isn : Word}
    (agree : LeftoversAgree env s srcIp isn c d) :
    TwinIo 0 0 False False (tcpSynAccept env s srcIp isn c) (tcpSynAccept env s srcIp isn d) := by
  have settled := agree.settled env.ticks
  -- The reply reads nothing that the leftovers could still change.
  have segment : buildSegment (initSynConn s srcIp isn c) tcpFlagSynack isn (s.seq + 1) [] =
      buildSegment (initSynConn s srcIp isn d) tcpFlagSynack isn (s.seq + 1) [] := by
    have built := (settled 0).buildSegment tcpFlagSynack isn (s.seq + 1) []
    rw [TcpOut.shift_zero, add_zero, add_zero] at built
    exact built.symm
  have reply : ∀ e, CatOs.Tcp.tcpSynAccept env s srcIp isn e =
      (tcpPutPkt env (startIo (initSynConn s srcIp isn e)) tcpFlagSynack isn (s.seq + 1) []).1.modify
        (tcpRtoArm env.ticks) := fun _ => rfl
  have unmoved : ∀ wire : List TcpOut, wire = wire.map (TcpOut.shift 0 0) := fun wire =>
    (TcpOut.map_shift_zero wire).symm
  rw [reply, reply]
  cases fate : env.outcome 0 with
  | noFrame =>
    have same : (initSynConn s srcIp isn c).advWin = (initSynConn s srcIp isn d).advWin := by
      rw [advWin_initSynConn, advWin_initSynConn, agree.advWin fate]
    have conn := settled (initSynConn s srcIp isn c).advWin
    simp only [tcpPutPkt, startIo, fate, if_true]
    refine ⟨?_, rfl, unmoved _, rfl, rfl⟩
    rw [show (settleSyn env.ticks (initSynConn s srcIp isn c).advWin (initSynConn s srcIp isn d)) =
      settleSyn env.ticks (initSynConn s srcIp isn d).advWin (initSynConn s srcIp isn d) by
        rw [same]] at conn
    exact conn
  | refused =>
    simp only [tcpPutPkt, startIo, fate, reduceCtorEq, if_false, segment]
    exact ⟨settled _, rfl, unmoved _, rfl, rfl⟩
  | sent =>
    simp only [tcpPutPkt, startIo, fate, reduceCtorEq, if_false, if_true, segment]
    exact ⟨settled _, rfl, unmoved _, rfl, rfl⟩

/--
A slot whose leftovers make no difference is as good as any other.

The two connections exchange the same with the peer and with the application, whatever
happens to them afterwards.
-/
theorem reused_slot_carries_nothing {env : TcpEnv} {s : TcpIn} {srcIp isn : Word}
    (agree : LeftoversAgree env s srcIp isn c d) (inputs : List (TcpEnv × TcpOp)) :
    let x := runInputs tcpStep inputs (tcpSynAccept env s srcIp isn c)
    let y := runInputs tcpStep inputs (tcpSynAccept env s srcIp isn d)
    x.wire = y.wire ∧ x.delivered = y.delivered ∧ x.accepted = y.accepted := by
  intro x y
  have twin : TwinIo 0 0 False False x y := by
    refine runInputs_related (fun input a b io => ?_) inputs agree.tcpSynAccept
    have step := (io.tcpStep input.1 input.2 (.inl rfl)).1
    rwa [TcpOp.shift_zero] at step
  have wire := twin.wire
  rw [TcpOut.map_shift_zero] at wire
  exact ⟨wire.symm, twin.delivered.symm, twin.accepted.symm⟩

def worn : TcpConn :=
  { zeroConn with
    state := .timeWait, rcvNxt := 5, sndNxt := 9, backlog := 3, twUntil := 77, rtoAttempts := 2
    rttStamp := 12, cwnd := 9000, dupacks := 2, fastRecovery := true, persistDeadline := 4
    sackLeft := fun _ => 8, sackRight := fun _ => 9, sackN := 2, txN := 8
    rx := { rxb := fun _ => 88, rxn := 7, rxn_le := by decide }, advWin := 1 }

/-- A worn slot and a zeroed one, whose connections answer a byte in the same way. -/
theorem reused_slot_carries_nothing_worn :
    let env : TcpEnv := { ticks := 5, outcome := fun _ => .sent }
    let syn := plainIn tcpFlagSyn 100 0 500
    let inputs := [(env, TcpOp.segment { plainIn tcpFlagAck 101 8 500 with data := [65] }),
      (env, .recv 10)]
    let x := runInputs tcpStep inputs (tcpSynAccept env syn 1 7 worn)
    let y := runInputs tcpStep inputs (tcpSynAccept env syn 1 7 zeroConn)
    x.wire.length = 2 ∧ x.delivered = [65] ∧
      x.wire = y.wire ∧ x.delivered = y.delivered ∧ x.accepted = y.accepted := by
  intro env syn inputs
  have agree : LeftoversAgree env syn 1 7 worn zeroConn :=
    { sackOk := by decide, mss := by decide, rto := by decide, advWin := nofun
      oooBytes := rfl, ooo := fun _ _ => .unused rfl rfl, sndb := fun _ _ => rfl }
  exact ⟨by decide, by decide, reused_slot_carries_nothing agree inputs⟩

def leftBehind : TcpConn :=
  { zeroConn with
    sackOk := true
    ooo := fun _ => { seq := 102, len := 1, len_lt := by decide, used := true, data := fun _ => 88 }
    oooBytes := 1 }

/--
Leftovers of an earlier connection reach the peer and the application of the next one.

The reply to the request carries an option that the peer did not offer, and after the first
byte of the new stream the application reads a byte of the old one.
-/
theorem reused_slot_carries_over :
    let env : TcpEnv := { ticks := 5, outcome := fun _ => .sent }
    let syn := plainIn tcpFlagSyn 100 0 500
    let inputs := [(env, TcpOp.segment { plainIn tcpFlagAck 101 8 500 with data := [65] }),
      (env, .recv 10)]
    leftBehind.used = false ∧ zeroConn.used = false ∧
    (tcpSynAccept env syn 1 7 leftBehind).wire ≠ (tcpSynAccept env syn 1 7 zeroConn).wire ∧
    (runInputs tcpStep inputs (tcpSynAccept env syn 1 7 leftBehind)).delivered = [65, 88] ∧
    (runInputs tcpStep inputs (tcpSynAccept env syn 1 7 zeroConn)).delivered = [65] := by
  intro env syn inputs
  exact ⟨rfl, rfl, by decide, by decide, by decide⟩

end Accept

end CatOs.Tcp
