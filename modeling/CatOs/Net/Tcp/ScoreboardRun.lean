import CatOs.Net.Tcp.Moves

/-! In every established connection the scoreboard tiles the data in flight. -/

namespace CatOs.Tcp

theorem Live.of_open_step {base : Word} {io : TcpIo} (input : TcpEnv × TcpOp)
    (before : io.conn.state.isOpen = true → Live base false io)
    (after : (CatOs.Tcp.tcpStep input io).conn.state.isOpen = true) :
    Live base false (CatOs.Tcp.tcpStep input io) := by
  have was : io.conn.state.isOpen = true := by
    by_contra notOpen
    rw [(move_tcpStep io input).isOpen (Bool.eq_false_iff.mpr notOpen)] at after
    cases after
  rcases (before was).tcpStep_open input with ⟨closed, live⟩ | ⟨closing, -⟩
  · cases closed with
    | false => exact live
    | true =>
      rcases live.phase with released | closing
      · rw [released] at after
        cases after
      · rcases TcpState.eq_of_isOpen after with state | state <;> rw [state] at closing <;>
          cases closing
  · rcases TcpState.eq_of_isOpen after with state | state <;> rw [state] at closing <;>
      cases closing

theorem Live.of_open_run {base : Word} {start io : TcpIo} (initially : Live base false start)
    (run : TcpRun (fun _ _ => True) start io) (opened : io.conn.state.isOpen = true) :
    Live base false io :=
  run.invariant (fun io => io.conn.state.isOpen = true → Live base false io)
    (fun _ => initially) (fun input _ _ before after => Live.of_open_step input before after) opened

theorem Live.inFlight_le {base : Word} {closed : Bool} {io : TcpIo} (live : Live base closed io)
    (established : io.conn.state = .established) :
    io.conn.inFlight.toNat ≤ io.conn.snd.sndUsed := by
  obtain ⟨acked, sent, view⟩ := live.streaming.sending
  have flight : io.conn.inFlight.toNat = sent + closed.toNat - acked := view.inFlight_eq
  have used : io.conn.snd.sndUsed = io.accepted.length - acked := view.used_eq
  have within := view.within
  -- A connection that has sent its close is not established any more.
  cases closed with
  | false =>
    simp only [Bool.toNat_false, Nat.add_zero] at flight
    omega
  | true =>
    rcases live.phase with released | closing
    · rw [established] at released
      cases released
    · rw [established] at closing
      cases closing

/--
The scoreboard of an established connection tiles exactly what is in flight.

This holds for more segments than the scoreboard has entries, and whatever the peer
acknowledges.
-/
theorem scoreboard_tiling {env : TcpEnv} {s : TcpIn} {srcIp isn : Word} {c : TcpConn} {io : TcpIo}
    (run : TcpRun (fun _ _ => True) (tcpSynAccept env s srcIp isn c) io)
    (established : io.conn.state = .established) :
    io.conn.inFlight.toNat ≤ io.conn.snd.sndUsed ∧ io.conn.snd.sndUsed ≤ tcpBufSize ∧
      TxTiled io.conn.sndUna 0 io.conn.inFlight.toNat io.conn.tx io.conn.txN := by
  have live := (Live.tcpSynAccept env s srcIp isn c).of_open_run run (by rw [established]; rfl)
  obtain ⟨acked, sent, view⟩ := live.streaming.sending
  have flight : io.conn.inFlight.toNat = sent - acked := view.inFlight_eq
  have order : acked ≤ sent := view.order
  refine ⟨live.inFlight_le established, io.conn.snd.sndUsed_le, ?_⟩
  have una : io.conn.sndUna = serial (isn + 1) acked := view.una
  have scoreboard := view.scoreboard
  rw [Nat.max_eq_right order] at scoreboard
  refine { few := scoreboard.few, used := scoreboard.used, tiles := ?_ }
  rw [una, flight]
  apply Tiles.rebase
  rw [Nat.add_zero, Nat.add_sub_cancel' order]
  exact scoreboard.tiles

/-- Ten segments of one byte each, of which a scoreboard of eight entries keeps track. -/
theorem scoreboard_tiling_full :
    let env : TcpEnv := { ticks := 5, outcome := fun _ => .sent }
    let syn := { plainIn tcpFlagSyn 100 0 500 with opts := [2, 4, 0, 1] }
    ∃ io, TcpRun (fun _ _ => True) (tcpSynAccept env syn 1 7 zeroConn) io ∧
      io.wire.length = 11 ∧ io.conn.txN = 8 ∧ io.conn.inFlight.toNat ≤ io.conn.snd.sndUsed ∧
      io.conn.snd.sndUsed ≤ tcpBufSize ∧
      TxTiled io.conn.sndUna 0 io.conn.inFlight.toNat io.conn.tx io.conn.txN := by
  intro env syn
  have initially : TcpRun (fun _ _ => True) (tcpSynAccept env syn 1 7 zeroConn)
    (tcpSynAccept env syn 1 7 zeroConn) := .start
  have opened := initially.step (env, .segment (plainIn tcpFlagAck 101 8 500)) trivial
  have sent := opened.step (env, .send (List.replicate 10 65)) trivial
  exact ⟨_, sent, by decide, by decide, scoreboard_tiling sent (by decide)⟩

end CatOs.Tcp
