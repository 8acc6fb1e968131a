import CatOs.Net.Tcp.SizeView

/-! How large the segments of a connection can become, and the frames that carry them. -/

namespace CatOs.Tcp

structure Sized (limit : Nat) (io : TcpIo) : Prop where
  mss : effMss io.conn = limit
  wire : ∀ p ∈ io.wire, p.Fits limit

structure Roomy (limit : Nat) (io : TcpIo) : Prop extends Sized limit io where
  room : limit + (dataOpts io.conn).length ≤ tcpMss

section Send

variable {limit : Nat} {io : TcpIo}

theorem Sized.modify (sized : Sized limit io) {f : TcpConn → TcpConn}
    (same : (f io.conn).peerMss = io.conn.peerMss) : Sized limit (io.modify f) :=
  { mss := (effMss_congr same).trans sized.mss, wire := sized.wire }

theorem Roomy.modify (roomy : Roomy limit io) {f : TcpConn → TcpConn}
    (same : (f io.conn).sizeView = io.conn.sizeView) : Roomy limit (io.modify f) := by
  refine { toSized := roomy.toSized.modify (congrArg SizeView.peerMss same), room := ?_ }
  rw [TcpIo.modify_conn, dataOpts_congr same]
  exact roomy.room

theorem tcpPutPkt_sent {env : TcpEnv} {flags : Flags} {seq ack : Word} {data : List UInt8}
    {p : TcpOut} (member : p ∈ (tcpPutPkt env io flags seq ack data).1.wire) :
    p ∈ io.wire ∨ (p.opts = tcpBuildOpts io.conn flags ∧ p.data = data) := by
  simp only [tcpPutPkt] at member
  split at member
  · exact .inl member
  · split at member
    · rcases List.mem_append.mp member with before | here
      · exact .inl before
      · rw [List.mem_singleton.mp here]
        exact .inr ⟨rfl, rfl⟩
    · exact .inl member

theorem Sized.tcpPutPkt (sized : Sized limit io) (env : TcpEnv) (flags : Flags) (seq ack : Word)
    {data : List UInt8} (short : data.length ≤ limit)
    (frame : (tcpBuildOpts io.conn flags).length + data.length ≤ tcpMss) :
    Sized limit (tcpPutPkt env io flags seq ack data).1 := by
  have view := sizeView_tcpPutPkt env io flags seq ack data
  refine { mss := (effMss_congr (congrArg SizeView.peerMss view)).trans sized.mss,
           wire := fun p member => ?_ }
  rcases tcpPutPkt_sent member with before | ⟨opts, carried⟩
  · exact sized.wire p before
  · simp only [tcpMss] at frame
    refine ⟨carried ▸ short, ?_⟩
    rw [TcpOut.frameLen, opts, carried, ethFrameMax]
    omega

theorem Sized.tcpPutCtl (sized : Sized limit io) (env : TcpEnv) (flags : Flags) (seq : Word) :
    Sized limit (tcpPutCtl env io flags seq) := by
  have opts := length_tcpBuildOpts io.conn flags
  refine sized.tcpPutPkt env flags seq io.conn.rcvNxt (Nat.zero_le _) ?_
  simp only [List.length_nil, tcpMss]
  omega

theorem Roomy.putData (roomy : Roomy limit io) (env : TcpEnv) (seq ack : Word) (off : Nat)
    {len : Nat} (short : len ≤ limit) (snd : TcpSnd) :
    Roomy limit (tcpPutPkt env io (tcpFlagAck ||| tcpFlagPsh) seq ack
      (snd.sndb.read off len)).1 := by
  have room := roomy.room
  refine { toSized := roomy.toSized.tcpPutPkt env _ seq ack ?_ ?_, room := ?_ }
  · rwa [Buffer.length_read]
  · rw [Buffer.length_read]
    rw [dataOpts] at room
    omega
  · rw [dataOpts_congr (sizeView_tcpPutPkt ..)]
    exact room

theorem Roomy.xmitOne (roomy : Roomy limit io) (env : TcpEnv) (window : Word) :
    Roomy limit (xmitOne env window limit io).1 := by
  simp only [CatOs.Tcp.xmitOne]
  split
  · exact roomy
  have short : nextSegmentLen io.conn window limit ≤ limit := by
    simp only [nextSegmentLen]
    split <;> split <;> omega
  have put := roomy.putData env io.conn.sndNxt io.conn.rcvNxt io.conn.inFlight.toNat
    short io.conn.snd
  split
  · exact put.modify (eq_of_erased (eraseBooks_noteSent ..) TcpConn.sizeView fun _ => rfl)
  · exact put

theorem Roomy.tcpPutCtl (roomy : Roomy limit io) (env : TcpEnv) (flags : Flags) (seq : Word) :
    Roomy limit (tcpPutCtl env io flags seq) := by
  refine { toSized := roomy.toSized.tcpPutCtl env flags seq, room := ?_ }
  rw [CatOs.Tcp.tcpPutCtl, dataOpts_congr (sizeView_tcpPutPkt ..)]
  exact roomy.room

theorem Roomy.send {env : TcpEnv} {start next : TcpIo} {third : Prop} (roomy : Roomy limit io)
    (step : SendStep env start third io next) (fit : EntriesFit limit start.conn)
    (first : third → min start.conn.inFlight.toNat tcpMss ≤ limit) : Roomy limit next := by
  cases step with
  | control f same => exact roomy.modify (eq_of_erased same TcpConn.sizeView fun _ => rfl)
  | marks => exact roomy.modify rfl
  | answer seq plain => exact roomy.tcpPutCtl env _ _
  | xmit window =>
    rw [roomy.mss]
    exact roomy.xmitOne env window
  | @entry i done within short =>
    simp only [retransmitEntry]
    split
    · exact roomy
    have put := roomy.putData env (io.conn.tx i).seq io.conn.rcvNxt
      ((io.conn.tx i).seq - io.conn.sndUna).toNat (short limit fit) io.conn.snd
    split
    · exact put.modify rfl
    · exact put
  | resend due snd flight =>
    have short := first due
    rw [← flight] at short
    have amount : (if io.conn.inFlight.toNat > tcpMss then tcpMss else io.conn.inFlight.toNat) ≤
        limit := by split <;> omega
    simp only [resendFirst]
    generalize (if io.conn.inFlight.toNat > tcpMss then tcpMss else io.conn.inFlight.toNat) = len
      at amount
    have put := roomy.putData env io.conn.sndUna io.conn.rcvNxt 0 amount io.conn.snd
    split
    · exact put.modify rfl
    · exact put.modify rfl
  | queue data opened => exact { mss := roomy.mss, wire := roomy.wire, room := roomy.room }
  | acked number quiet after upTo =>
    exact roomy.modify (eq_of_erased (eraseBooks_tcpAckAdvance ..) TcpConn.sizeView fun _ => rfl)

theorem Roomy.sends {env : TcpEnv} {start next : TcpIo} {third : Prop} (roomy : Roomy limit io)
    (steps : SendSteps env start third io next) (fit : EntriesFit limit start.conn)
    (first : third → min start.conn.inFlight.toNat tcpMss ≤ limit) : Roomy limit next :=
  steps_keep steps (Roomy limit) (fun _ _ step kept => kept.send step fit first) roomy

end Send

section Receive

variable {limit : Nat} {io : TcpIo}

theorem Sized.tcpSendFin (sized : Sized limit io) (env : TcpEnv) (next : TcpState) :
    Sized limit (tcpSendFin env next io) :=
  Sized.modify (sized.tcpPutCtl env _ _) rfl

theorem Sized.step {env : TcpEnv} {s : TcpIn} {next : TcpIo} (sized : Sized limit io)
    (step : StateStep env s io next) : Sized limit next := by
  have mss : effMss next.conn = limit := by
    rw [effMss_congr (eq_of_erased step.eraseTurn TcpConn.peerMss fun _ => rfl)]
    exact sized.mss
  cases step with
  | answer => exact sized.tcpPutCtl env _ _
  | closes opened => exact Sized.tcpSendFin (sized.modify rfl) env .lastAck
  | data | count | opens | half | both | waits | ends => exact { mss := mss, wire := sized.wire }

theorem Sized.tcpHandleRst (sized : Sized limit io) (env : TcpEnv) (s : TcpIn) :
    Sized limit (tcpHandleRst env s io) := by
  simp only [CatOs.Tcp.tcpHandleRst]
  split
  · exact sized.tcpPutCtl env _ _
  split
  · exact sized.modify rfl
  · exact sized

theorem Sized.tcpResendSynack (sized : Sized limit io) (env : TcpEnv) :
    Sized limit (tcpResendSynack env io) :=
  Sized.modify (sized.tcpPutCtl env _ _) rfl

theorem Roomy.tcpSegment (roomy : Roomy limit io) (env : TcpEnv) (s : TcpIn)
    (fit : EntriesFit limit io.conn) (short : min io.conn.inFlight.toNat tcpMss ≤ limit) :
    Sized limit (tcpSegment env s io) := by
  have sized := roomy.toSized
  simp only [CatOs.Tcp.tcpSegment]
  split
  · exact sized
  split
  · exact sized.modify rfl
  simp only [tcpHandleConn]
  split
  · exact sized.tcpResendSynack env
  split
  · exact sized.tcpHandleRst env s
  · have flight : ThirdAck s io.conn.peerWin (tcpHandleWindow env.ticks s io.conn) →
        min io.conn.inFlight.toNat tcpMss ≤ limit := fun _ => short
    have acknowledged := roomy.sends (sends_acknowledge io s) fit flight
    exact steps_keep (steps_tcpHandleState env s _) (Sized limit)
      (fun _ _ step kept => kept.step step) acknowledged.toSized

end Receive

def TimeoutFits (limit : Nat) (env : TcpEnv) (io : TcpIo) : Prop :=
  let c := (tcpPersistTick env (tcpTestTick env io)).conn
  expired env.ticks c.rtoDeadline = true → min c.inFlight.toNat c.snd.sndUsed ≤ limit

instance (limit : Nat) (env : TcpEnv) (io : TcpIo) : Decidable (TimeoutFits limit env io) :=
  inferInstanceAs (Decidable (_ → _))

section Application

variable {limit : Nat} {io : TcpIo}

theorem Roomy.tcpSend (roomy : Roomy limit io) (env : TcpEnv) (data : List UInt8) :
    Roomy limit (tcpSend env io data).1 :=
  -- Nothing is resent, so the work may be taken to start from an empty scoreboard.
  roomy.sends (@sends_tcpSend env (startIo zeroConn) False io data)
    (fun i within => absurd within (Nat.not_lt_zero i)) False.elim

theorem Sized.tcpRecv (sized : Sized limit io) (env : TcpEnv) (maxLen : Nat) :
    Sized limit (tcpRecv env io maxLen).1 :=
  tcpRecv_keeps (Sized limit) sized (fun _ => { mss := sized.mss, wire := sized.wire })
    (fun _ read => read.tcpPutCtl env _ _) maxLen

theorem Sized.tcpClose (sized : Sized limit io) (env : TcpEnv) :
    Sized limit (tcpClose env io) := by
  simp only [CatOs.Tcp.tcpClose]
  refine Sized.modify ?_ rfl
  split
  · exact sized.tcpSendFin env _
  split
  · exact sized.tcpSendFin env _
  · exact sized

section TcpEnv

variable (roomy : Roomy limit io) (env : TcpEnv)
include roomy env

theorem Roomy.tcpTestTick :
    Roomy limit (tcpTestTick env io) := by
  simp only [CatOs.Tcp.tcpTestTick]
  split
  · split
    · simp only [tcpTestSend]
      refine Roomy.modify ?_ rfl
      refine forRange_invariant (fun _ (state : TcpIo × Bool) => Roomy limit state.1) roomy ?_
      rintro k ⟨current, going⟩ _ kept
      dsimp only
      split
      · exact kept.tcpSend env (testBlock k)
      · exact kept
    split
    · refine Roomy.modify { toSized := roomy.toSized.tcpClose env, room := ?_ } rfl
      rw [dataOpts_congr (tcpClose_frame env io TcpConn.sizeView (fun _ _ => rfl)
        (fun _ _ => rfl) fun _ => rfl)]
      exact roomy.room
    · exact roomy
  · exact roomy

theorem Roomy.tcpPersistTick :
    Roomy limit (tcpPersistTick env io) := by
  have positive : 1 ≤ limit := by
    rw [← roomy.mss]
    exact (effMss_bounds io.conn).1
  simp only [CatOs.Tcp.tcpPersistTick]
  split
  · exact roomy
  split
  · exact roomy.modify rfl
  · exact Roomy.modify (roomy.putData env _ _ _ positive io.conn.snd) rfl

theorem Roomy.tcpRtoTick (short : expired env.ticks io.conn.rtoDeadline = true →
      min io.conn.inFlight.toNat io.conn.snd.sndUsed ≤ limit) :
    Sized limit (tcpRtoTick env io) := by
  have sized := roomy.toSized
  simp only [CatOs.Tcp.tcpRtoTick]
  split
  · exact sized
  rename_i ran
  have short := short (by simpa using ran)
  generalize (if io.conn.state = .synReceived then tcpRtoRetrySynrcvd else tcpRtoRetryData) = r2
  split
  · exact sized.modify rfl
  split
  · exact Sized.modify (sized.tcpPutCtl env _ _) rfl
  split
  · exact Sized.modify (sized.tcpPutCtl env _ _) rfl
  split
  · simp only [tcpRtoData]
    have amount : (if io.conn.inFlight.toNat > io.conn.snd.sndUsed then io.conn.snd.sndUsed
        else io.conn.inFlight.toNat) ≤ limit := by split <;> omega
    generalize (if io.conn.inFlight.toNat > io.conn.snd.sndUsed then io.conn.snd.sndUsed
      else io.conn.inFlight.toNat) = len at amount
    have lost : Roomy limit (io.modify (noteTimeout len)) :=
      roomy.modify (eq_of_erased (eraseBooks_noteTimeout ..) TcpConn.sizeView fun _ => rfl)
    exact Sized.modify (lost.putData env _ _ _ amount io.conn.snd).toSized rfl
  · exact sized.modify rfl

theorem Roomy.tcpTickConn
    (short : TimeoutFits limit env io) : Sized limit (tcpTickConn env io) := by
  have sized := roomy.toSized
  simp only [CatOs.Tcp.tcpTickConn]
  split
  · exact sized
  split
  · split
    · exact sized.modify rfl
    · exact sized
  · exact ((roomy.tcpTestTick env).tcpPersistTick env).tcpRtoTick env short

end TcpEnv

end Application

def ResendFits (c : TcpConn) : Prop :=
  EntriesFit (effMss c) c ∧ min c.inFlight.toNat tcpMss ≤ effMss c

instance (c : TcpConn) : Decidable (ResendFits c) := inferInstanceAs (Decidable (_ ∧ _))

def OptionsFit (c : TcpConn) : Prop := effMss c + (dataOpts c).length ≤ tcpMss

instance (c : TcpConn) : Decidable (OptionsFit c) := inferInstanceAs (Decidable (_ ≤ _))

def SegmentsFit (input : TcpEnv × TcpOp) (io : TcpIo) : Prop :=
  match input.2 with
  | .send _ => OptionsFit io.conn
  | .segment _ => OptionsFit io.conn ∧ ResendFits io.conn
  | .tick => OptionsFit io.conn ∧ TimeoutFits (effMss io.conn) input.1 io
  | .recv _ | .close => True

instance (input : TcpEnv × TcpOp) (io : TcpIo) : Decidable (SegmentsFit input io) :=
  match input with
  | (_, .send _) => inferInstanceAs (Decidable (OptionsFit io.conn))
  | (_, .segment _) => inferInstanceAs (Decidable (_ ∧ _))
  | (env, .tick) => inferInstanceAs (Decidable (_ ∧ TimeoutFits _ env io))
  | (_, .recv _) | (_, .close) => inferInstanceAs (Decidable True)

theorem Sized.tcpSynAccept (env : TcpEnv) (s : TcpIn) (srcIp isn : Word) (c : TcpConn) :
    Sized (effMss (tcpSynAccept env s srcIp isn c).conn) (tcpSynAccept env s srcIp isn c) := by
  have fresh : Sized (effMss (initSynConn s srcIp isn c)) (startIo (initSynConn s srcIp isn c)) :=
    { mss := rfl, wire := fun p member => by cases member }
  have replied := fresh.tcpResendSynack env
  exact { mss := rfl, wire := replied.mss.symm ▸ replied.wire }

theorem Sized.tcpStep {limit : Nat} {io : TcpIo} (sized : Sized limit io)
    (input : TcpEnv × TcpOp) (fits : SegmentsFit input io) : Sized limit (tcpStep input io) := by
  obtain ⟨env, op⟩ := input
  have roomy : OptionsFit io.conn → Roomy limit io := by
    intro room
    rw [OptionsFit, sized.mss] at room
    exact { toSized := sized, room := room }
  cases op with
  | send data => exact ((roomy fits).tcpSend env data).toSized
  | recv maxLen => exact sized.tcpRecv env maxLen
  | segment s =>
    obtain ⟨room, resend⟩ := fits
    rw [ResendFits, sized.mss] at resend
    exact (roomy room).tcpSegment env s resend.1 resend.2
  | tick =>
    obtain ⟨room, timeout⟩ := fits
    rw [sized.mss] at timeout
    exact (roomy room).tcpTickConn env timeout
  | close => exact sized.tcpClose env

/--
No segment of a run exceeds the peer's segment size, and every frame fits its buffer.

Options must leave room for the payload, and what is resent as one segment must have been small
enough for one.
-/
theorem segments_fit_frames {env : TcpEnv} {s : TcpIn} {srcIp isn : Word} {c : TcpConn}
    {io : TcpIo} (run : TcpRun SegmentsFit (tcpSynAccept env s srcIp isn c) io) :
    ∀ p ∈ io.wire, p.data.length ≤ effMss io.conn ∧ p.frameLen ≤ ethFrameMax ∧
      p.frameLen ≤ txBufSize := by
  have sized := run.invariant (Sized (effMss (tcpSynAccept env s srcIp isn c).conn))
    (Sized.tcpSynAccept env s srcIp isn c) fun input io fits kept => kept.tcpStep input fits
  intro p member
  obtain ⟨short, frame⟩ := sized.wire p member
  rw [sized.mss]
  exact ⟨short, frame, Nat.le_trans frame (by decide)⟩

/-- A segment is sent, lost and resent by the timer. -/
theorem segments_fit_frames_resent :
    let env (ticks : Word) : TcpEnv := { ticks := ticks, outcome := fun _ => .sent }
    let start := tcpSynAccept (env 5) (plainIn tcpFlagSyn 100 0 4000) 1 7 zeroConn
    ∃ io, TcpRun SegmentsFit start io ∧ io.wire.length = 3 ∧
      ∀ p ∈ io.wire, p.data.length ≤ effMss io.conn ∧ p.frameLen ≤ ethFrameMax ∧
        p.frameLen ≤ txBufSize := by
  intro env start
  have initially : TcpRun SegmentsFit start start := .start
  have opened := initially.step (env 6, .segment (plainIn tcpFlagAck 101 8 4000))
    (by decide)
  have sent := opened.step (env 7, .send (List.replicate 3 65)) (by decide +kernel)
  have resent := sent.step (env 40, .tick) (by decide +kernel)
  exact ⟨_, resent, by decide +kernel, segments_fit_frames resent⟩

/--
Both the timer and the options can take a frame beyond its limit.

In the first run two round trips open the congestion window far enough for the whole send buffer
to be in flight, and the timer resends it as one segment that even the transmit buffer is too
small for.
In the second run a full segment of new data also reports data that arrived out of order.
-/
theorem frames_exceed_limits :
    let env (ticks : Word) : TcpEnv := { ticks := ticks, outcome := fun _ => .sent }
    let syn := plainIn tcpFlagSyn 100 0 8000
    (∃ io, TcpRun (fun _ _ => True) (tcpSynAccept (env 5) syn 1 7 zeroConn) io ∧
      effMss io.conn = 1460 ∧ ∃ p ∈ io.wire, p.data.length = 4096 ∧ txBufSize < p.frameLen) ∧
    ∃ io, TcpRun (fun _ _ => True)
        (tcpSynAccept (env 5) { syn with opts := [4, 2] } 1 7 zeroConn) io ∧
      effMss io.conn = 1460 ∧ ∃ p ∈ io.wire, p.data.length = 1460 ∧ ethFrameMax < p.frameLen := by
  intro env syn
  let acknowledge (ack : Word) := (env 6, TcpOp.segment (plainIn tcpFlagAck 101 ack 8000))
  let send (n : Nat) := (env 6, TcpOp.send (List.replicate n 65))
  let early := { plainIn tcpFlagAck 103 8 8000 with data := [66] }
  have run (start : TcpIo) (inputs : List (TcpEnv × TcpOp)) :
      TcpRun (fun _ _ => True) start (runInputs tcpStep inputs start) :=
    Run.start.inputs inputs (allAllowed_true inputs start)
  constructor
  · exact ⟨_, run _ [acknowledge 8, send 1460, acknowledge 1468, send 1460, send 1460,
      acknowledge 2928, acknowledge 4388, send 1460, send 1460, send 1176, (env 36, .tick)],
      by decide +kernel, by decide +kernel⟩
  · exact ⟨_, run _ [acknowledge 8, (env 6, .segment early), send 1460],
      by decide +kernel, by decide +kernel⟩

end CatOs.Tcp
