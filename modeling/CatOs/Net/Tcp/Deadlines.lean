import CatOs.Net.Tcp.ScoreboardRun

/-! Which operations start, stop and keep the two timers of the send side. -/

namespace CatOs.Tcp

def TcpConn.timers (c : TcpConn) : Word × Word := (c.rtoDeadline, c.persistDeadline)

def DeadlinesNonzero (ticks : Word) : Prop := ticks < -tcpRtoMax ∨ -tcpRtoInit < ticks

instance (ticks : Word) : Decidable (DeadlinesNonzero ticks) :=
  inferInstanceAs (Decidable (_ ∨ _))

section Deadlines

variable {ticks : Word} (nonzero : DeadlinesNonzero ticks)

theorem rtoNow_bounds (c : TcpConn) : tcpRtoInit ≤ rtoNow c ∧ rtoNow c ≤ tcpRtoMax := by
  have base : tcpRtoInit ≤ rtoBase c ∧ rtoBase c ≤ tcpRtoMax := by
    unfold rtoBase clampRto
    generalize (if c.rtoTicks ≠ 0 then c.rtoTicks else tcpRtoInit) = r
    by_cases short : r < tcpRtoInit
    · rw [if_pos short]
      decide
    rw [if_neg short]
    by_cases long : r > tcpRtoMax
    · rw [if_pos long]
      decide
    · rw [if_neg long]
      exact ⟨BitVec.not_lt.mp short, BitVec.not_lt.mp long⟩
  obtain ⟨least, most⟩ := base
  simp only [rtoNow]
  generalize rtoBase c = r at least most
  -- The back-off is at most six, so that nothing is shifted out of the word.
  have power : 1 ≤ 2 ^ c.rtoBackoff.val := Nat.one_le_two_pow
  have bounded : 2 ^ c.rtoBackoff.val ≤ 2 ^ 6 :=
    Nat.pow_le_pow_right (by decide) (Nat.le_of_lt_succ c.rtoBackoff.isLt)
  have grown : r.toNat ≤ r.toNat * 2 ^ c.rtoBackoff.val := Nat.le_mul_of_pos_right _ power
  have small : r.toNat * 2 ^ c.rtoBackoff.val ≤ 240 * 2 ^ 6 :=
    Nat.mul_le_mul (by simpa [tcpRtoMax] using BitVec.le_def.mp most) bounded
  have value : (r <<< c.rtoBackoff.val).toNat = r.toNat * 2 ^ c.rtoBackoff.val := by
    rw [BitVec.toNat_shiftLeft, Nat.shiftLeft_eq, Nat.mod_eq_of_lt (by omega)]
  have least : 30 ≤ r.toNat := by simpa [tcpRtoInit] using BitVec.le_def.mp least
  split
  · exact ⟨by decide, BitVec.le_refl _⟩
  · rename_i short
    refine ⟨BitVec.le_def.mpr ?_, BitVec.not_lt.mp short⟩
    rw [value]
    exact Nat.le_trans least grown

include nonzero

theorem deadline_ne_zero {d : Word} (least : tcpRtoInit ≤ d) (most : d ≤ tcpRtoMax) :
    ticks + d ≠ 0 := by
  intro zero
  simp only [DeadlinesNonzero, tcpRtoInit, tcpRtoMax] at nonzero least most
  rcases nonzero with early | late <;> bv_omega

theorem rtoDeadline_tcpRtoRearm (c : TcpConn) : (tcpRtoRearm ticks c).rtoDeadline ≠ 0 :=
  deadline_ne_zero nonzero (rtoNow_bounds c).1 (rtoNow_bounds c).2

theorem rtoDeadline_tcpRtoRetry (c : TcpConn) : (tcpRtoRetry ticks c).rtoDeadline ≠ 0 :=
  rtoDeadline_tcpRtoRearm nonzero _

theorem persistDeadline_tcpPersistArm (c : TcpConn) :
    (tcpPersistArm ticks c).persistDeadline ≠ 0 := by
  unfold tcpPersistArm
  split
  · exact deadline_ne_zero nonzero (BitVec.le_refl _) (by decide)
  · assumption

theorem persistDeadline_tcpPersistRetry (c : TcpConn) :
    (tcpPersistRetry ticks c).persistDeadline ≠ 0 := by
  have delays : ∀ backoff : Fin 7, tcpRtoInit ≤ (tcpRtoInit <<< backoff.val : Word) := by decide
  show ticks + _ ≠ 0
  split
  · exact deadline_ne_zero nonzero (by decide) (BitVec.le_refl _)
  · rename_i short
    exact deadline_ne_zero nonzero (delays _) (BitVec.not_lt.mp short)

theorem rtoDeadline_noteSent (n : Nat) (c : TcpConn) : (noteSent ticks n c).rtoDeadline ≠ 0 :=
  rtoDeadline_tcpRtoRearm nonzero _

end Deadlines

section Frames

variable (c : TcpConn)

theorem timers_tcpAckAdvance (ticks ack : Word) :
    (tcpAckAdvance ticks ack c).timers = c.timers := by
  obtain ⟨_, _, _, _, _, advanced⟩ := tcpAckAdvance_fields ticks c ack
  rw [advanced]
  rfl

@[simp] theorem timers_enterRecovery (inFlight : Word) :
    (enterRecovery inFlight c).timers = c.timers := by
  have started : ∀ cwnd d, (startRecovery cwnd d).timers = d.timers := fun _ _ => rfl
  have shrunk : ∀ ssthresh d, (shrinkWindow ssthresh d).timers = d.timers := fun _ _ => rfl
  rw [enterRecovery, started, tcpLossWindow, shrunk]

@[simp] theorem timers_countDupAck : (countDupAck c).timers = c.timers := by
  simp only [countDupAck, TcpConn.timers]

@[simp] theorem timers_inflateCwnd : (inflateCwnd c).timers = c.timers := by
  have set : ∀ cwnd d, (setCwnd cwnd d).timers = d.timers := fun _ _ => rfl
  rw [inflateCwnd, set]

theorem timers_tcpAcceptData (seq : Word) (data : List UInt8) :
    (tcpAcceptData c seq data).1.timers = c.timers := by
  have same := congrArg TcpConn.timers (eraseReceive_tcpAcceptData c seq data)
  exact same

@[simp] theorem timers_tcpPutPkt (env : TcpEnv) (io : TcpIo) (flags : Flags) (seq ack : Word)
    (data : List UInt8) :
    (tcpPutPkt env io flags seq ack data).1.conn.timers = io.conn.timers := by
  obtain ⟨window, sent⟩ := tcpPutPkt_conn env io flags seq ack data
  rw [sent]
  rfl

end Frames

theorem TcpConn.inFlight_eq {c d : TcpConn} (same : c.sendView = d.sendView) :
    c.inFlight = d.inFlight :=
  congrArg (fun v : SendView => v.sndNxt - v.sndUna) same

theorem TcpConn.snd_eq {c d : TcpConn} (same : c.sendView = d.sendView) : c.snd = d.snd :=
  congrArg SendView.snd same

theorem TcpConn.rtoDeadline_eq {c d : TcpConn} (same : c.timers = d.timers) :
    c.rtoDeadline = d.rtoDeadline :=
  congrArg Prod.fst same

theorem TcpConn.persistDeadline_eq {c d : TcpConn} (same : c.timers = d.timers) :
    c.persistDeadline = d.persistDeadline :=
  congrArg Prod.snd same

theorem inFlight_noteSent (ticks : Word) (n : Nat) (c : TcpConn) :
    (noteSent ticks n c).inFlight = c.inFlight + lenWord n := by
  have flight : (noteSent ticks n c).inFlight = c.sndNxt + lenWord n - c.sndUna :=
    congrArg (fun v : SendView => v.sndNxt - v.sndUna) (sendView_noteSent ticks n c)
  rw [flight]
  exact add_sub_right_comm ..

section Transmit

variable {env : TcpEnv} {io : TcpIo}

theorem tcpPutPkt_outcome (flags : Flags) (seq ack : Word) (data : List UInt8) :
    (tcpPutPkt env io flags seq ack data).2 = decide (env.outcome io.calls = .sent) := by
  simp only [tcpPutPkt]
  cases fate : env.outcome io.calls <;> rfl

theorem xmitOne_cases (nonzero : DeadlinesNonzero env.ticks) (io : TcpIo) (window : Word)
    {mss : Nat} (positive : 0 < mss) :
    (((xmitOne env window mss io).1.conn.sendView = io.conn.sendView ∧
        (xmitOne env window mss io).1.conn.timers = io.conn.timers) ∨
      (xmitOne env window mss io).1.conn.rtoDeadline ≠ 0 ∧
        (xmitOne env window mss io).1.conn.inFlight ≠ 0) := by
  simp only [xmitOne]
  split
  · exact .inl ⟨rfl, rfl⟩
  rename_i guard
  obtain ⟨opened, unsent⟩ := not_or.mp guard
  obtain ⟨some, fits, -⟩ := nextSegmentLen_bounds positive (BitVec.not_le.mp opened)
    (Nat.not_le.mp unsent)
  generalize nextSegmentLen io.conn window mss = n at some fits
  have view := sendView_tcpPutPkt env io (tcpFlagAck ||| tcpFlagPsh) io.conn.sndNxt
    io.conn.rcvNxt (io.conn.snd.sndb.read io.conn.inFlight.toNat n)
  have timers := timers_tcpPutPkt env io (tcpFlagAck ||| tcpFlagPsh) io.conn.sndNxt
    io.conn.rcvNxt (io.conn.snd.sndb.read io.conn.inFlight.toNat n)
  generalize tcpPutPkt env io (tcpFlagAck ||| tcpFlagPsh) io.conn.sndNxt io.conn.rcvNxt
    (io.conn.snd.sndb.read io.conn.inFlight.toNat n) = put at view timers
  split
  · refine .inr ⟨rtoDeadline_noteSent nonzero n _, fun zero => ?_⟩
    -- The buffer bounds what is in flight, so that the new bytes do not wrap it to zero.
    have bounded := io.conn.snd.sndUsed_le
    simp only [tcpBufSize] at bounded
    have sum := congrArg BitVec.toNat zero
    rw [TcpIo.modify_conn, inFlight_noteSent, TcpConn.inFlight_eq view, BitVec.toNat_add, lenWord,
      BitVec.toNat_ofNat, Nat.mod_eq_of_lt (a := n) (by omega), Nat.mod_eq_of_lt (by omega)] at sum
    have none : (0 : Word).toNat = 0 := rfl
    omega
  · exact .inl ⟨view, timers⟩

theorem tcpXmitPending_cases (nonzero : DeadlinesNonzero env.ticks) (io : TcpIo) :
    ((tcpXmitPending env io).conn.sendView = io.conn.sendView ∧
        (tcpXmitPending env io).conn.rtoDeadline = io.conn.rtoDeadline) ∨
      ((tcpXmitPending env io).conn.rtoDeadline ≠ 0 ∧
        (tcpXmitPending env io).conn.inFlight ≠ 0) := by
  simp only [tcpXmitPending]
  split
  · left
    split
    · refine ⟨sendView_tcpPersistArm env.ticks io.conn, ?_⟩
      show (tcpPersistArm env.ticks io.conn).rtoDeadline = _
      unfold tcpPersistArm
      split <;> rfl
    · exact ⟨rfl, rfl⟩
  · refine doWhile_invariant (fun current : TcpIo =>
      (current.conn.sendView = io.conn.sendView ∧
          current.conn.rtoDeadline = io.conn.rtoDeadline) ∨
        (current.conn.rtoDeadline ≠ 0 ∧ current.conn.inFlight ≠ 0))
      (fun current before => ?_) _ io (.inl ⟨rfl, rfl⟩)
    -- A pass that sends nothing keeps whichever of the two held before it.
    rcases xmitOne_cases nonzero current (sendWin io.conn)
      (effMss_bounds io.conn).1 with ⟨view, timers⟩ | sent
    · rw [view, TcpConn.inFlight_eq view, TcpConn.rtoDeadline_eq timers]
      exact before
    · exact .inr sent

theorem tcpXmitPending_unsent (unsent : io.conn.snd.sndUsed ≤ io.conn.inFlight.toNat) :
    tcpXmitPending env io = io := by
  have stops : ∀ window mss, xmitOne env window mss io = (io, false) := fun window mss =>
    if_pos (.inr unsent)
  simp only [tcpXmitPending]
  split
  · exact if_neg (Nat.not_lt.mpr unsent)
  · rw [doWhile, stops]
    rfl

section DeadlinesNonzero

variable (nonzero : DeadlinesNonzero env.ticks)
include nonzero

/-- What waits after filling the window waits for the zero-window timer. -/
theorem tcpXmitPending_waits (first : io.conn.inFlight = 0 → env.outcome io.calls = .sent)
    (idle : (tcpXmitPending env io).conn.inFlight = 0) :
    (io.conn.inFlight = 0 ∧ (tcpXmitPending env io).calls = io.calls) ∧
      ((tcpXmitPending env io).conn.snd.sndUsed = 0 ∨
        (tcpXmitPending env io).conn.persistDeadline ≠ 0) := by
  have before : io.conn.inFlight = 0 := by
    rcases tcpXmitPending_cases nonzero io with ⟨view, -⟩ | ⟨-, flying⟩
    · rw [← TcpConn.inFlight_eq view]
      exact idle
    · exact (flying idle).elim
  have zero : io.conn.inFlight.toNat = 0 := congrArg BitVec.toNat before
  by_cases empty : io.conn.snd.sndUsed = 0
  · rw [tcpXmitPending_unsent (by omega)]
    exact ⟨⟨before, rfl⟩, .inl empty⟩
  by_cases shut : sendWin io.conn = 0
  · have armed : tcpXmitPending env io = io.modify (tcpPersistArm env.ticks) := by
      simp only [tcpXmitPending]
      rw [if_pos shut, if_pos (by omega)]
    rw [armed]
    exact ⟨⟨before, rfl⟩, .inr (persistDeadline_tcpPersistArm nonzero io.conn)⟩
  · -- The first segment goes out, and what is in flight then stays in flight.
    exfalso
    have guard : ¬(io.conn.inFlight ≥ sendWin io.conn ∨
        io.conn.snd.sndUsed ≤ io.conn.inFlight.toNat) := by
      rintro (full | sent)
      · rw [before] at full
        exact shut (BitVec.eq_of_toNat_eq (Nat.le_zero.mp full))
      · omega
    have went : (xmitOne env (sendWin io.conn) (effMss io.conn) io).2 = true := by
      simp only [xmitOne]
      rw [if_neg guard, if_pos (by rw [tcpPutPkt_outcome, first before]; rfl)]
    have flying : (xmitOne env (sendWin io.conn) (effMss io.conn) io).1.conn.inFlight ≠ 0 := by
      rcases xmitOne_cases nonzero io (sendWin io.conn)
        (effMss_bounds io.conn).1 with ⟨view, -⟩ | ⟨-, flying⟩
      · have less := xmitOne_progress env (sendWin io.conn) (effMss_bounds io.conn).1 io went
        rw [TcpConn.inFlight_eq view, TcpConn.snd_eq view] at less
        omega
      · exact flying
    have loop : tcpXmitPending env io = doWhile (xmitOne env (sendWin io.conn) (effMss io.conn))
        tcpBufSize (xmitOne env (sendWin io.conn) (effMss io.conn) io).1 := by
      simp only [tcpXmitPending]
      rw [if_neg shut, doWhile]
      simp only [went, if_true]
    rw [loop] at idle
    refine doWhile_invariant (fun current : TcpIo => current.conn.inFlight ≠ 0)
      (fun current before => ?_) _ _ flying idle
    rcases xmitOne_cases nonzero current (sendWin io.conn)
      (effMss_bounds io.conn).1 with ⟨view, -⟩ | ⟨-, sent⟩
    · rw [TcpConn.inFlight_eq view]
      exact before
    · exact sent

theorem rtoDeadline_tcpXmitPending
    (armed : io.conn.rtoDeadline ≠ 0) : (tcpXmitPending env io).conn.rtoDeadline ≠ 0 := by
  rcases tcpXmitPending_cases nonzero io with ⟨-, same⟩ | ⟨sent, -⟩
  · rwa [same]
  · exact sent

theorem rtoDeadline_sackRetransmit
    (armed : io.conn.rtoDeadline ≠ 0) : (sackRetransmit env io).1.conn.rtoDeadline ≠ 0 := by
  unfold sackRetransmit
  split
  · refine forRange_invariant (fun _ (state : TcpIo × Bool) => state.1.conn.rtoDeadline ≠ 0)
      armed ?_
    rintro i ⟨current, done⟩ _ before
    simp only [retransmitEntry]
    split
    · exact before
    split
    · exact rtoDeadline_tcpRtoRearm nonzero _
    · rw [TcpConn.rtoDeadline_eq (timers_tcpPutPkt ..)]
      exact before
  · exact armed

theorem rtoDeadline_tcpFastRetransmit (inFlight : Word)
    (sackRetx : Bool) (armed : io.conn.rtoDeadline ≠ 0) :
    (tcpFastRetransmit env inFlight sackRetx io).conn.rtoDeadline ≠ 0 := by
  have entered : (io.modify (enterRecovery inFlight)).conn.rtoDeadline ≠ 0 := by
    rwa [TcpIo.modify_conn, TcpConn.rtoDeadline_eq (timers_enterRecovery io.conn inFlight)]
  simp only [tcpFastRetransmit]
  obtain ⟨tried, trying⟩ : ∃ tried, (if sackRetx then (io.modify (enterRecovery inFlight), true)
      else sackRetransmit env (io.modify (enterRecovery inFlight))) = tried := ⟨_, rfl⟩
  have kept : tried.1.conn.rtoDeadline ≠ 0 := by
    rw [← trying]
    split
    · exact entered
    · exact rtoDeadline_sackRetransmit nonzero entered
  rw [trying]
  split
  · exact kept
  · -- Whether the segment goes out or not, the timer is restarted.
    generalize (if inFlight.toNat > tcpMss then tcpMss else inFlight.toNat) = len
    split
    · exact rtoDeadline_tcpRtoRearm nonzero _
    · exact rtoDeadline_tcpRtoRearm nonzero _

theorem rtoDeadline_tcpHandleDupAck (inFlight : Word)
    (armed : io.conn.rtoDeadline ≠ 0) :
    (tcpHandleDupAck env inFlight io).conn.rtoDeadline ≠ 0 := by
  have counted : (io.modify countDupAck).conn.rtoDeadline ≠ 0 := by
    rwa [TcpIo.modify_conn, TcpConn.rtoDeadline_eq (timers_countDupAck io.conn)]
  have tried := rtoDeadline_sackRetransmit nonzero counted
  simp only [tcpHandleDupAck]
  split
  · exact rtoDeadline_tcpFastRetransmit nonzero inFlight _ tried
  split
  · apply rtoDeadline_tcpXmitPending nonzero
    rwa [TcpIo.modify_conn, TcpConn.rtoDeadline_eq (timers_inflateCwnd _)]
  · exact tried

end DeadlinesNonzero

end Transmit

end CatOs.Tcp
