import CatOs.Net.Tcp.TwinStep

/-! Until it closes, a connection behaves the same wherever its sequence numbers start. -/

namespace CatOs.Tcp

section Whole

variable {k j : Word} {fresh : Prop} {c d : TcpConn}

theorem Shifted.twin (shifted : Shifted k j c d) : Twin k j True fresh c d := by
  obtain ⟨moved, rtt, recover⟩ := shifted
  generalize d.rttSeq = r at moved rtt
  generalize d.recoverSeq = q at moved recover
  subst moved
  exact { scalars := rfl, rtt := rtt, recover := recover, waits := fun _ => rfl
          unread := fun _ => rfl, mss := rfl
          blocks := fun _ => ⟨rfl, fun _ _ => rfl, fun _ _ => rfl⟩, rxn := rfl
          rxb := fun _ _ => rfl
          ooo := fun _ _ => ⟨rfl, fun _ => rfl, fun _ => rfl, fun _ _ => rfl⟩, sndUsed := rfl
          sndb := fun _ _ => rfl, tx := fun _ _ => rfl }

def TcpConn.restore (s c : TcpConn) : TcpConn :=
  { s with
    backlog := c.unread.1
    peerMss := c.unread.2.1
    rx := c.rx
    ooo := c.ooo
    sackLeft := c.blocks.1.1
    sackRight := c.blocks.1.2
    sackN := c.blocks.2
    snd := c.snd
    tx := c.tx
    twUntil := c.twUntil
    nodelay := c.unread.2.2.1
    rcvWscale := c.unread.2.2.2.1
    sndWscale := c.unread.2.2.2.2 }

theorem SlotTwin.moved {x y : OooSlot} (slot : SlotTwin j True x y) : y = x.shift j := by
  obtain ⟨used, seq, len, data⟩ := slot
  have data : y.data = x.data := funext fun i => data i (.inl trivial)
  cases y
  cases used
  cases seq (.inl trivial)
  cases len (.inl trivial)
  cases data
  rfl

theorem Twin.shifted (twin : Twin k j True fresh c d) : Shifted k j c d := by
  refine ⟨?_, twin.rtt, twin.recover⟩
  have whole : ∀ e : TcpConn, e = e.scalars.restore e := fun _ => rfl
  have rx : d.rx = c.rx := by
    have bytes : d.rx.rxb = c.rx.rxb := funext fun i => twin.rxb i (.inl trivial)
    exact (TcpRx.mk.injEq ..).mpr ⟨bytes, twin.rxn⟩
  have snd : d.snd = c.snd := by
    have bytes : d.snd.sndb = c.snd.sndb := funext fun i => twin.sndb i (.inl trivial)
    exact (TcpSnd.mk.injEq ..).mpr ⟨bytes, twin.sndUsed⟩
  have ooo : d.ooo = OooSlot.shift j ∘ c.ooo := funext fun i => (twin.ooo i (.inl trivial)).moved
  have tx : d.tx = TxSeg.shift k ∘ c.tx := funext fun i => twin.tx i (.inl trivial)
  obtain ⟨count, left, right⟩ := twin.blocks (.inl trivial)
  have blocks : d.blocks = (((c.blocks.1.1 · + k), (c.blocks.1.2 · + k)), c.blocks.2) :=
    Prod.ext (Prod.ext (funext fun i => left i (.inl trivial)) (funext fun i => right i (.inl trivial)))
      count
  rw [whole d, twin.scalars]
  simp only [TcpConn.restore, rx, snd, ooo, tx, blocks, twin.waits (.inl trivial),
    twin.unread trivial]
  rfl

end Whole

section Operations

variable {k j : Word} {x y : TcpIo}

theorem ShiftedIo.twin (io : ShiftedIo k j x y) : TwinIo k j True False x y :=
  ⟨io.conn.twin, io.calls, io.wire, io.accepted, io.delivered⟩

theorem Shifted.startIo {c d : TcpConn} (shifted : Shifted k j c d) :
    ShiftedIo k j (startIo c) (startIo d) :=
  ⟨shifted, rfl, rfl, rfl, rfl⟩

/-- Until it closes, a connection does the same wherever its sequence numbers start. -/
theorem shift_invariance (env : TcpEnv) (op : TcpOp) (io : ShiftedIo k j x y)
    (opening : x.conn.opening) :
    ShiftedIo k j (tcpStep (env, op) x) (tcpStep (env, op.shift k j) y) ∧
      tcpReturns (env, op.shift k j) y = tcpReturns (env, op) x := by
  obtain ⟨step, returns⟩ := io.twin.tcpStep env op (.inr opening)
  exact ⟨⟨step.conn.shifted, step.calls, step.wire, step.accepted, step.delivered⟩, returns⟩

/-- Numbers that wrap around while a connection opens make no difference to it. -/
theorem shift_invariance_wrapped :
    let env : TcpEnv := { ticks := 5, outcome := fun _ => .sent }
    let c := (tcpSynAccept env (plainIn tcpFlagSyn 100 0 500) 1 7 zeroConn).conn
    let d := c.shift 0xFFFFFFF8 0xFFFFFF9B 0 0
    let s := { plainIn tcpFlagAck 101 8 500 with data := [65, 66] }
    d.sndNxt = 0 ∧ d.rcvNxt = 0 ∧
      ShiftedIo 0xFFFFFFF8 0xFFFFFF9B (tcpStep (env, .segment s) (startIo c))
        (tcpStep (env, .segment (s.shift 0xFFFFFFF8 0xFFFFFF9B)) (startIo d)) ∧
      (tcpStep (env, .segment s) (startIo c)).wire.length = 1 := by
  intro env c d s
  have shifted : Shifted 0xFFFFFFF8 0xFFFFFF9B c d := ⟨rfl, nofun, nofun⟩
  have opening : c.opening := .inl (by decide)
  have same := shift_invariance env (.segment s) shifted.startIo opening
  exact ⟨by decide, by decide, same.1, by decide⟩

end Operations

end CatOs.Tcp
