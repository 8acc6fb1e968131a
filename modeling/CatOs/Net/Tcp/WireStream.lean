import CatOs.Net.Tcp.SendStream

/-! Everything a connection puts on the wire is a part of the stream it was given. -/

namespace CatOs.Tcp

structure Streaming (base : Word) (closed : Bool) (io : TcpIo) : Prop where
  sending : ∃ acked sent, Sending base io.accepted acked sent closed io.conn.sendView
  wire : ∀ p ∈ io.wire, Carries base io.accepted p
  noClose : closed = false → ∀ p ∈ io.wire, p.flags.has tcpFlagFin = false

theorem tcpPutPkt_wire {env : TcpEnv} {io : TcpIo} {flags : Flags} {seq ack : Word}
    {data : List UInt8} {p : TcpOut} (member : p ∈ (tcpPutPkt env io flags seq ack data).1.wire) :
    p ∈ io.wire ∨ (p.seq = seq ∧ p.flags = flags ∧ p.data = data) := by
  simp only [tcpPutPkt] at member
  split at member
  · exact .inl member
  · split at member
    · rcases List.mem_append.mp member with before | here
      · exact .inl before
      · rw [List.mem_singleton.mp here]
        exact .inr ⟨rfl, rfl, rfl⟩
    · exact .inl member

section Wire

variable {base : Word} {closed : Bool} {io : TcpIo}

section Streaming

variable (inv : Streaming base closed io)
include inv

theorem Streaming.modify {f : TcpConn → TcpConn}
    (same : (f io.conn).sendView = io.conn.sendView) : Streaming base closed (io.modify f) := by
  refine { sending := ?_, wire := inv.wire, noClose := inv.noClose }
  obtain ⟨acked, sent, view⟩ := inv.sending
  refine ⟨acked, sent, ?_⟩
  show Sending base io.accepted acked sent closed (f io.conn).sendView
  rwa [same]

theorem Streaming.advance {f : TcpConn → TcpConn}
    (view : ∃ acked sent, Sending base io.accepted acked sent closed (f io.conn).sendView) :
    Streaming base closed (io.modify f) :=
  { sending := view, wire := inv.wire, noClose := inv.noClose }

theorem Streaming.setState {f : TcpConn → TcpConn}
    {state : TcpState} (same : (f io.conn).sendView = { io.conn.sendView with state := state }) :
    Streaming base closed (io.modify f) := by
  obtain ⟨acked, sent, view⟩ := inv.sending
  exact inv.advance ⟨acked, sent, same ▸ view.setState state⟩

theorem Streaming.marks {f : TcpConn → TcpConn}
    {tx : Buffer TxSeg} (marked : (f io.conn).sendView = { io.conn.sendView with tx := tx })
    (same : ∀ i, (tx i).span = (io.conn.tx i).span) : Streaming base closed (io.modify f) := by
  obtain ⟨acked, sent, view⟩ := inv.sending
  exact inv.advance ⟨acked, sent, marked ▸ view.marks same⟩

theorem Streaming.tcpPutPkt (env : TcpEnv) (flags : Flags)
    (seq ack : Word) (data : List UInt8)
    (payload : data ≠ [] → ∃ position, seq = serial base position ∧
      position + data.length ≤ io.accepted.length ∧
      data = (io.accepted.drop position).take data.length)
    (close : flags.has tcpFlagFin = true → closed = true ∧ seq = serial base io.accepted.length) :
    Streaming base closed (tcpPutPkt env io flags seq ack data).1 := by
  refine { sending := ?_, wire := fun p member => ?_, noClose := fun isOpen p member => ?_ }
  · rw [sendView_tcpPutPkt, tcpPutPkt_accepted]
    exact inv.sending
  · rw [tcpPutPkt_accepted]
    rcases tcpPutPkt_wire member with before | ⟨number, flagged, carried⟩
    · exact inv.wire p before
    · exact { payload := by rw [number, carried]; exact payload
              close := by rw [number, flagged]; exact fun fin => (close fin).2 }
  · rcases tcpPutPkt_wire member with before | ⟨-, flagged, -⟩
    · exact inv.noClose isOpen p before
    · rw [flagged, Bool.eq_false_iff]
      intro fin
      rw [(close fin).1] at isOpen
      cases isOpen

theorem Streaming.tcpPutCtl (env : TcpEnv) {flags : Flags}
    (noFin : flags.has tcpFlagFin = false) (seq : Word) :
    Streaming base closed (tcpPutCtl env io flags seq) :=
  inv.tcpPutPkt env flags seq io.conn.rcvNxt [] (fun absurd => (absurd rfl).elim)
    fun fin => by rw [noFin] at fin; cases fin

theorem Streaming.putData {acked sent : Nat}
    (view : Sending base io.accepted acked sent closed io.conn.sendView) (env : TcpEnv)
    {off len : Nat} (fits : off + len ≤ io.conn.snd.sndUsed) {seq : Word}
    (number : seq = serial base (acked + off)) (ack : Word) :
    Streaming base closed (CatOs.Tcp.tcpPutPkt env io (tcpFlagAck ||| tcpFlagPsh) seq ack
      (io.conn.snd.sndb.read off len)).1 := by
  refine inv.tcpPutPkt env _ seq ack _ (fun nonempty => ⟨acked + off, number, ?_, ?_⟩)
    fun fin => by simp [Flags.has, tcpFlagFin, tcpFlagAck, tcpFlagPsh] at fin
  · have used : io.conn.snd.sndUsed = io.accepted.length - acked := view.used_eq
    rw [Buffer.length_read]
    rcases Nat.eq_zero_or_pos len with none | some
    · rw [none] at nonempty
      exact (nonempty rfl).elim
    · omega
  · rw [Buffer.length_read]
    exact view.slice fits

end Streaming

theorem Carries.append {stream : List UInt8} {p : TcpOut} (carries : Carries base stream p)
    (noFin : p.flags.has tcpFlagFin = false) (more : List UInt8) :
    Carries base (stream ++ more) p := by
  refine { payload := fun nonempty => ?_, close := fun fin => by rw [noFin] at fin; cases fin }
  obtain ⟨position, number, inside, bytes⟩ := carries.payload nonempty
  refine ⟨position, number, by rw [List.length_append]; omega, ?_⟩
  rw [List.drop_append_of_le_length (by omega), List.take_append_of_le_length
    (by rw [List.length_drop]; omega)]
  exact bytes

theorem Streaming.accept (inv : Streaming base false io) (taken : List UInt8)
    (fits : io.conn.snd.sndUsed + taken.length ≤ tcpBufSize) :
    Streaming base false { io with
      conn := queueSnd io.conn taken fits
      accepted := io.accepted ++ taken } := by
  obtain ⟨acked, sent, view⟩ := inv.sending
  have order : acked ≤ sent := view.order
  have within := view.within
  refine { sending := ⟨acked, sent, ?_⟩, wire := fun p member => ?_, noClose := inv.noClose }
  · refine { una := view.una, nxt := view.nxt, order := view.order, complete := nofun,
             within := ?_, bytes := ?_, scoreboard := view.scoreboard }
    · rw [List.length_append]
      omega
    · show (io.conn.snd.sndb.write io.conn.snd.sndUsed taken).read 0
        (io.conn.snd.sndUsed + taken.length) = _
      have bytes : io.conn.snd.sndb.read 0 io.conn.snd.sndUsed = io.accepted.drop acked :=
        view.bytes
      rw [Buffer.read_write_append, bytes, List.drop_append_of_le_length (by omega)]
  · exact (inv.wire p member).append (inv.noClose rfl p member) taken

end Wire

theorem effMss_bounds (c : TcpConn) : 0 < effMss c ∧ effMss c ≤ tcpMss := by
  simp only [effMss]
  by_cases known : c.peerMss = 0
  · simp [known, tcpMss]
  · have positive : 0 < c.peerMss.toNat := by
      rw [Nat.pos_iff_ne_zero]
      exact fun zero => known (BitVec.eq_of_toNat_eq zero)
    rw [if_pos known]
    split
    · exact ⟨by decide, Nat.le_refl _⟩
    · exact ⟨positive, by omega⟩

theorem nextSegmentLen_bounds {c : TcpConn} {window : Word} {mss : Nat} (positive : 0 < mss)
    (opened : c.inFlight < window) (unsent : c.inFlight.toNat < c.snd.sndUsed) :
    0 < nextSegmentLen c window mss ∧
      c.inFlight.toNat + nextSegmentLen c window mss ≤ c.snd.sndUsed ∧
      nextSegmentLen c window mss ≤ mss := by
  have room : 0 < (window - c.inFlight).toNat := by
    rw [BitVec.toNat_sub_of_le (BitVec.le_of_lt opened)]
    have less := BitVec.lt_def.mp opened
    omega
  simp only [nextSegmentLen]
  split <;> split <;> omega

/-- Another pass of the filling loop follows only after a pass that sent part of the buffer. -/
theorem xmitOne_progress (env : TcpEnv) (window : Word) {mss : Nat} (positive : 0 < mss)
    (io : TcpIo) (again : (xmitOne env window mss io).2 = true) :
    (xmitOne env window mss io).1.conn.snd.sndUsed -
        (xmitOne env window mss io).1.conn.inFlight.toNat <
      io.conn.snd.sndUsed - io.conn.inFlight.toNat := by
  simp only [xmitOne] at again ⊢
  split at again
  · cases again
  rename_i guard
  obtain ⟨opened, unsent⟩ := not_or.mp guard
  obtain ⟨some, fits, -⟩ := nextSegmentLen_bounds positive (BitVec.not_le.mp opened)
    (Nat.not_le.mp unsent)
  generalize nextSegmentLen io.conn window mss = n at *
  rw [if_neg guard]
  split at again
  · rename_i ok
    rw [if_pos ok]
    -- Sending leaves the buffer alone and adds exactly the bytes sent to those in flight.
    have put := sendView_tcpPutPkt env io (tcpFlagAck ||| tcpFlagPsh) io.conn.sndNxt
      io.conn.rcvNxt (io.conn.snd.sndb.read io.conn.inFlight.toNat n)
    generalize (tcpPutPkt env io (tcpFlagAck ||| tcpFlagPsh) io.conn.sndNxt io.conn.rcvNxt
      (io.conn.snd.sndb.read io.conn.inFlight.toNat n)).1 = sent at put
    have view := sendView_noteSent env.ticks n sent.conn
    have buffer : (noteSent env.ticks n sent.conn).snd = io.conn.snd :=
      (congrArg SendView.snd view).trans (congrArg SendView.snd put)
    have before : sent.conn.inFlight = io.conn.inFlight :=
      congrArg (fun v : SendView => v.sndNxt - v.sndUna) put
    have after : (noteSent env.ticks n sent.conn).inFlight = sent.conn.inFlight + lenWord n := by
      have flight : (noteSent env.ticks n sent.conn).inFlight =
          sent.conn.sndNxt + lenWord n - sent.conn.sndUna :=
        congrArg (fun v : SendView => v.sndNxt - v.sndUna) view
      rw [flight]
      exact add_sub_right_comm ..
    have bounded := io.conn.snd.sndUsed_le
    simp only [tcpBufSize] at bounded
    rw [TcpIo.modify_conn, buffer, after, before, BitVec.toNat_add, lenWord, BitVec.toNat_ofNat,
      Nat.mod_eq_of_lt (a := n) (by omega), Nat.mod_eq_of_lt (by omega)]
    omega
  · cases again

/-- Sending stops for a reason: the window is full, nothing is unsent or a frame was refused. -/
theorem tcpXmitPending_drains (env : TcpEnv) (io : TcpIo) :
    let out := tcpXmitPending env io
    sendWin io.conn ≤ out.conn.inFlight ∨ out.conn.snd.sndUsed ≤ out.conn.inFlight.toNat ∨
      env.outcome (out.calls - 1) ≠ .sent := by
  by_cases shut : sendWin io.conn = 0
  · exact .inl (by rw [shut]; exact Nat.zero_le _)
  obtain ⟨positive, -⟩ := effMss_bounds io.conn
  have bounded := io.conn.snd.sndUsed_le
  obtain ⟨last, -, stopped, result⟩ := doWhile_exits (fun _ => True)
    (fun io : TcpIo => io.conn.snd.sndUsed - io.conn.inFlight.toNat) (fun _ _ => trivial)
    (fun current _ again => xmitOne_progress env (sendWin io.conn) positive current again)
    (tcpBufSize + 1) io trivial (by omega)
  simp only [tcpXmitPending, shut, if_false, result]
  simp only [xmitOne] at stopped ⊢
  split at stopped
  · rename_i full
    rw [if_pos full]
    exact or_assoc.mp (.inl full)
  · rename_i room
    rw [if_neg room]
    by_cases sent : env.outcome last.calls = .sent
    · simp [tcpPutPkt, sent] at stopped
    · right; right
      simp only [tcpPutPkt, sent, if_false]
      split <;> exact sent

section Transmit

variable {base : Word} {closed : Bool} {io : TcpIo}

theorem Streaming.xmitOne (inv : Streaming base closed io) (env : TcpEnv) {window : Word}
    {mss : Nat} (positive : 0 < mss) (short : mss ≤ tcpMss) :
    Streaming base closed (xmitOne env window mss io).1 := by
  obtain ⟨acked, sent, view⟩ := inv.sending
  simp only [CatOs.Tcp.xmitOne]
  split
  · exact inv
  rename_i guard
  obtain ⟨opened, unsent⟩ := not_or.mp guard
  have opened : io.conn.inFlight < window := BitVec.not_le.mp opened
  obtain ⟨some, fits, small⟩ := nextSegmentLen_bounds positive opened (Nat.not_le.mp unsent)
  have flight : io.conn.inFlight.toNat = sent + closed.toNat - acked := view.inFlight_eq
  have used : io.conn.snd.sndUsed = io.accepted.length - acked := view.used_eq
  have order := view.order
  -- After a close nothing is unsent, so this is an open connection.
  obtain rfl : closed = false := by
    cases closed with
    | false => rfl
    | true =>
      have complete := view.complete rfl
      simp only [Bool.toNat_true] at flight order
      omega
  simp only [Bool.toNat_false, Nat.add_zero] at flight order
  have number : io.conn.sndNxt = serial base (acked + io.conn.inFlight.toNat) := by
    rw [flight, Nat.add_sub_cancel' order]
    exact view.nxt
  have put := inv.putData view env fits number io.conn.rcvNxt
  split
  · refine put.advance ⟨acked, sent + nextSegmentLen io.conn window mss, ?_⟩
    rw [tcpPutPkt_accepted]
    refine Sending.noteSent ?_ env.ticks some (Nat.le_trans small short) (by omega)
    rwa [sendView_tcpPutPkt]
  · exact put

theorem sendView_noteRetransmitted (ticks : Word) (i : Nat) (c : TcpConn) :
    (noteRetransmitted ticks i c).sendView = { c.sendView with
      tx := Function.update c.tx i { c.tx i with retransmitted := true } } := rfl

theorem Streaming.retransmitEntry (inv : Streaming base closed io) (env : TcpEnv) (i : Nat)
    (done : Bool) :
    Streaming base closed (retransmitEntry env i (io, done)).1 := by
  obtain ⟨acked, sent, view⟩ := inv.sending
  simp only [CatOs.Tcp.retransmitEntry]
  split
  · exact inv
  rename_i due
  have due : retransmitDue io.conn (io.conn.tx i) = true := by
    simp only [Bool.or_eq_true, Bool.not_eq_true', not_or, Bool.not_eq_false] at due
    exact due.2
  have fits := retransmitDue_counted due
  have number : (io.conn.tx i).seq =
      serial base (acked + ((io.conn.tx i).seq - io.conn.sndUna).toNat) :=
    serial_eq_of_sub base _ (by rw [show io.conn.sndUna = serial base acked from view.una])
  have put := inv.putData view env fits number io.conn.rcvNxt
  split
  · exact put.marks (sendView_noteRetransmitted env.ticks i _) fun j =>
      span_update_retransmitted _ i j
  · exact put

end Transmit

end CatOs.Tcp
