import CatOs.Net.Tcp.Dispatch
import CatOs.Net.Tcp.SendRun
import CatOs.Net.Tcp.Stable
import CatOs.Net.Tcp.WindowOffer

/-! Segments that no connection is for: resets, refusals and new connections. -/

namespace CatOs.Tcp

def Matched (s : TcpIn) (srcIp : Word) (w : TcpTable) (i : Nat) : Prop :=
  (w.conns i).used = true ∧ Addressed s srcIp (w.conns i)

def TcpIn.segLen (s : TcpIn) : Nat :=
  s.data.length + (if s.has tcpFlagSyn then 1 else 0) + if s.has tcpFlagFin then 1 else 0

def Accepts (w : TcpTable) (s : TcpIn) : Prop :=
  s.has tcpFlagSyn = true ∧
    (∃ l ∈ tcpConnFindListen w s.dstPort, tcpPendingCount w s.dstPort < (w.conns l).backlog) ∧
    (tcpConnFindFree w).isSome = true

def CanOpen (w : TcpTable) (s : TcpIn) : Prop :=
  Accepts w s ∧ s.has tcpFlagAck = false

instance (w : TcpTable) (s : TcpIn) : Decidable (Accepts w s) :=
  inferInstanceAs (Decidable (_ ∧ _ ∧ _))

instance (w : TcpTable) (s : TcpIn) : Decidable (CanOpen w s) :=
  inferInstanceAs (Decidable (_ ∧ _))

def GoesBack (s : TcpIn) (srcIp : Word) (p : TcpOut) : Prop :=
  p.dstIp = srcIp ∧ p.srcPort = s.dstPort ∧ p.dstPort = s.srcPort ∧ p.data = []

structure ResetsPeer (s : TcpIn) (srcIp : Word) (p : TcpOut) : Prop where
  back : GoesBack s srcIp p
  acked : s.has tcpFlagAck = true → p.flags = tcpFlagRst ∧ p.seq = s.ack
  unacked : s.has tcpFlagAck = false →
    p.flags = tcpFlagRst ||| tcpFlagAck ∧ p.seq = 0 ∧ p.ack = s.seq + lenWord s.segLen

structure AcceptsPeer (s : TcpIn) (srcIp : Word) (c : TcpConn) (p : TcpOut) : Prop where
  state : c.state = .synReceived
  back : GoesBack s srcIp p
  flags : p.flags = tcpFlagSynack
  numbers : p.seq = c.sndIsn ∧ p.ack = s.seq + 1

structure Answered (w : TcpTable) (s : TcpIn) (srcIp : Word) (after : TcpTable)
    (wire : List TcpOut) : Prop where
  reset : s.has tcpFlagRst = true → wire = [] ∧ ∀ i < tcpMaxConns, ¬Matched s srcIp after i
  opened : s.has tcpFlagRst = false → CanOpen w s →
    ∃ i < tcpMaxConns, Matched s srcIp after i ∧
      (∀ j < tcpMaxConns, Matched s srcIp after j → j = i) ∧
      ∃ p, wire = [p] ∧ AcceptsPeer s srcIp (after.conns i) p
  refused : s.has tcpFlagRst = false → ¬CanOpen w s → ∃ p, wire = [p] ∧ ResetsPeer s srcIp p

def RefusesRight (s : TcpIn) : Prop :=
  (s.has tcpFlagAck = true → s.seq = s.ack) ∧
    (s.has tcpFlagAck = false → ¬(s.has tcpFlagSyn = true ∧ s.has tcpFlagFin = true))

structure ListensRight (env : TcpEnv) (w seen : TcpTable) (s : TcpIn) : Prop where
  /-- A reset is answered like any other segment, so no answer may get out. -/
  reset : s.has tcpFlagRst = true → ¬Accepts seen s ∧ env.outcome 0 ≠ .sent
  sent : s.has tcpFlagRst = false → env.outcome 0 = .sent
  /-- The code does not look at the acknowledgement of a request. -/
  agrees : s.has tcpFlagRst = false → (Accepts seen s ↔ CanOpen w s)
  refuses : s.has tcpFlagRst = false → ¬Accepts seen s → RefusesRight s

def RepliesToReset (s : TcpIn) (c : TcpConn) : Prop :=
  (c.state = .synReceived ∧ s.has tcpFlagSyn = true ∧ s.seq = c.rcvIsn) ∨
    (s.seq ≠ c.rcvNxt ∧ tcpSeqAfter s.seq c.rcvNxt = true ∧
      tcpSeqBefore s.seq (c.rcvNxt + lenWord (tcpBufSize - c.rx.rxn)) = true)

/--
A segment that no connection is for is answered right.

The search compares the peer alone: what it mistakes for the connection of the segment gives way
to a request if it is closing, and otherwise takes the segment as its own.
-/
def AnswersRight (env : TcpEnv) (w : TcpTable) (s : TcpIn) (srcIp : Word) : Prop :=
  match tcpConnFindPeer w srcIp s.srcPort with
  | none => ListensRight env w w s
  | some i =>
    if isStale s (w.conns i) then
      ListensRight env w (w.setConn i (releaseConn (w.conns i))) s
    else s.has tcpFlagRst = true ∧ (env.outcome 0 = .sent → ¬RepliesToReset s (w.conns i))

section Listen

variable (env : TcpEnv) (w : TcpTable) (s : TcpIn) (srcIp : Word)

/-- A segment for no connection opens one in the first free slot, or is refused. -/
theorem tcpHandleListen_cases :
    (Accepts w s ∧ ∃ i, tcpConnFindFree w = some i ∧ tcpHandleListen env w s srcIp =
      ({ w.setConn i (tcpSynAccept env s srcIp w.seqGen (w.conns i)).conn with
          seqGen := w.seqGen + 1 },
        (tcpSynAccept env s srcIp w.seqGen (w.conns i)).wire)) ∨
    (¬Accepts w s ∧ tcpHandleListen env w s srcIp = (w, tcpSendRstAck env s srcIp)) := by
  unfold tcpHandleListen
  split
  · rename_i missing
    refine .inr ⟨?_, rfl⟩
    intro accepts
    obtain ⟨l, found, -⟩ := accepts.2.1
    rw [missing] at found
    cases found
  rename_i l listener
  split
  · rename_i other
    refine .inr ⟨?_, rfl⟩
    intro accepts
    rw [accepts.1] at other
    cases other
  rename_i asks
  split
  · rename_i full
    refine .inr ⟨?_, rfl⟩
    intro accepts
    obtain ⟨l', found, room⟩ := accepts.2.1
    have same : l = l' := Option.some.inj (listener.symm.trans found)
    rw [← same] at room
    omega
  rename_i room
  split
  · rename_i taken
    refine .inr ⟨?_, rfl⟩
    intro accepts
    have free := accepts.2.2
    rw [taken] at free
    cases free
  · rename_i i free
    refine .inl ⟨⟨by simpa using asks, ⟨l, listener, by omega⟩, by rw [free]; rfl⟩, i, free, rfl⟩

theorem has_syn_or_fin (flags : Flags) :
    flags.has (tcpFlagSyn ||| tcpFlagFin) = (flags.has tcpFlagSyn || flags.has tcpFlagFin) := by
  have all : ∀ flags : BitVec 8, Flags.has flags (tcpFlagSyn ||| tcpFlagFin) =
      (Flags.has flags tcpFlagSyn || Flags.has flags tcpFlagFin) := by decide
  exact all flags

theorem tcpSendRstAck_unsent (unsent : env.outcome 0 ≠ .sent) : tcpSendRstAck env s srcIp = [] :=
  if_pos unsent

theorem tcpSendRstAck_sent (sent : env.outcome 0 = .sent) :
    ∃ p, tcpSendRstAck env s srcIp = [p] ∧ (ResetsPeer s srcIp p ↔ RefusesRight s) := by
  refine ⟨_, if_neg (not_not_intro sent), ?_⟩
  have both := has_syn_or_fin s.flags
  cases ack : s.has tcpFlagAck with
  | true =>
    constructor
    · intro resets
      exact ⟨fun _ => (resets.acked ack).2, fun other => Bool.noConfusion (ack.symm.trans other)⟩
    · intro right
      exact { back := ⟨rfl, rfl, rfl, rfl⟩, acked := fun _ => ⟨rfl, right.1 ack⟩
              unacked := fun other => Bool.noConfusion (ack.symm.trans other) }
  | false =>
    -- The code counts a request and a close together as one.
    have number : s.seq + s.dlen +
          lenWord (if s.has (tcpFlagSyn ||| tcpFlagFin) then 1 else 0) =
          s.seq + lenWord s.segLen ↔
        ¬(s.has tcpFlagSyn = true ∧ s.has tcpFlagFin = true) := by
      rw [add_assoc, add_right_inj]
      simp only [TcpIn.has, TcpIn.segLen, TcpIn.dlen, both]
      by_cases syn : s.flags.has tcpFlagSyn = true
      · by_cases fin : s.flags.has tcpFlagFin = true
        · simp [syn, fin, lenWord, BitVec.ofNat_add, add_assoc]
        · simp [syn, fin, lenWord, BitVec.ofNat_add]
      · by_cases fin : s.flags.has tcpFlagFin = true
        · simp [syn, fin, lenWord, BitVec.ofNat_add]
        · simp [syn, fin, lenWord]
    constructor
    · intro resets
      exact ⟨fun other => Bool.noConfusion (ack.symm.trans other),
        fun _ => number.mp (resets.unacked ack).2.2⟩
    · intro right
      exact { back := ⟨rfl, rfl, rfl, rfl⟩
              acked := fun other => Bool.noConfusion (ack.symm.trans other)
              unacked := fun _ => ⟨rfl, rfl, number.mpr (right.2 ack)⟩ }

theorem matched_tcpSynAccept (isn : Word) (c : TcpConn) :
    (tcpSynAccept env s srcIp isn c).conn.used = true ∧
      Addressed s srcIp (tcpSynAccept env s srcIp isn c).conn := by
  obtain ⟨_, _, _, claimed⟩ := initSynConn_fields c s srcIp isn
  obtain ⟨_, conn⟩ := tcpSynAccept_conn c env s srcIp isn
  rw [conn, claimed]
  exact ⟨rfl, rfl, rfl, rfl, (by decide : TcpState.synReceived ≠ .listen),
    (by decide : TcpState.synReceived ≠ .closed)⟩

theorem wire_tcpSynAccept (isn : Word) (c : TcpConn) :
    (env.outcome 0 ≠ .sent → (tcpSynAccept env s srcIp isn c).wire = []) ∧
      (env.outcome 0 = .sent → ∃ p, (tcpSynAccept env s srcIp isn c).wire = [p] ∧
        AcceptsPeer s srcIp (tcpSynAccept env s srcIp isn c).conn p) := by
  obtain ⟨permitted, shift, size, parsed⟩ := tcpParseOpts_syn (claimSlot s srcIp c) s.opts
  constructor
  · intro unsent
    have calls : (startIo (initSynConn s srcIp isn c)).calls = 0 := rfl
    simp only [tcpSynAccept, tcpResendSynack, tcpPutCtl, tcpPutPkt, calls, unsent, if_false]
    split <;> rfl
  · intro sent
    have calls : (startIo (initSynConn s srcIp isn c)).calls = 0 := rfl
    simp only [tcpSynAccept, tcpResendSynack, tcpPutCtl, tcpPutPkt, calls, sent, if_true,
      reduceCtorEq, if_false]
    refine ⟨_, rfl, ?_⟩
    simp only [initSynConn, parsed]
    exact { state := rfl, back := ⟨rfl, rfl, rfl, rfl⟩, flags := rfl, numbers := ⟨rfl, rfl⟩ }

/-- What the code takes to be for no connection is answered right under a condition on it. -/
theorem listens_iff (seen : TcpTable) (unmatched : ∀ i < tcpMaxConns, ¬Matched s srcIp seen i) :
    Answered w s srcIp (tcpHandleListen env seen s srcIp).1 (tcpHandleListen env seen s srcIp).2 ↔
      ListensRight env w seen s := by
  rcases tcpHandleListen_cases env seen s srcIp with ⟨accepts, i, free, result⟩ | ⟨declines, result⟩
  · -- A connection is opened, whatever else the segment asks for.
    have within : i < tcpMaxConns := (TcpTable.findConn_some free).1
    obtain ⟨unsent, answered⟩ := wire_tcpSynAccept env s srcIp seen.seqGen (seen.conns i)
    rw [result]
    have here : ({ seen.setConn i (tcpSynAccept env s srcIp seen.seqGen (seen.conns i)).conn with
        seqGen := seen.seqGen + 1 } : TcpTable).conns i =
          (tcpSynAccept env s srcIp seen.seqGen (seen.conns i)).conn := Function.update_self ..
    have matched : Matched s srcIp
        { seen.setConn i (tcpSynAccept env s srcIp seen.seqGen (seen.conns i)).conn with
          seqGen := seen.seqGen + 1 } i := by
      rw [Matched, here]
      exact matched_tcpSynAccept env s srcIp seen.seqGen (seen.conns i)
    constructor
    · intro right
      have plain : s.has tcpFlagRst = false := by
        by_contra reset
        rw [Bool.not_eq_false] at reset
        exact (right.reset reset).2 i within matched
      have replies : ∃ p, (tcpSynAccept env s srcIp seen.seqGen (seen.conns i)).wire = [p] := by
        by_cases opens : CanOpen w s
        · obtain ⟨-, -, -, -, p, wire, -⟩ := right.opened plain opens
          exact ⟨p, wire⟩
        · obtain ⟨p, wire, -⟩ := right.refused plain opens
          exact ⟨p, wire⟩
      have sent : env.outcome 0 = .sent := by
        by_contra fails
        obtain ⟨p, wire⟩ := replies
        rw [unsent fails] at wire
        cases wire
      have opens : CanOpen w s := by
        by_contra refused
        obtain ⟨p, wire, resets⟩ := right.refused plain refused
        obtain ⟨q, wire', accepted⟩ := answered sent
        have same : p = q := List.head_eq_of_cons_eq (wire.symm.trans wire')
        rw [same] at resets
        -- A reply to a request is no reset.
        cases ack : s.has tcpFlagAck with
        | true =>
          have flags := accepted.flags.symm.trans (resets.acked ack).1
          exact absurd flags (by decide)
        | false =>
          have flags := accepted.flags.symm.trans (resets.unacked ack).1
          exact absurd flags (by decide)
      exact { reset := fun reset => Bool.noConfusion (plain.symm.trans reset), sent := fun _ => sent
              agrees := fun _ => ⟨fun _ => opens, fun _ => accepts⟩
              refuses := fun _ declines => absurd accepts declines }
    · intro right
      refine { reset := fun reset => absurd accepts (right.reset reset).1, opened := ?_,
               refused := fun plain refused => absurd ((right.agrees plain).mp accepts) refused }
      intro plain opens
      refine ⟨i, within, matched, ?_, ?_⟩
      · intro j below other
        by_contra apart
        have kept : ({ seen.setConn i (tcpSynAccept env s srcIp seen.seqGen (seen.conns i)).conn with
            seqGen := seen.seqGen + 1 } : TcpTable).conns j = seen.conns j :=
          Function.update_of_ne apart _ _
        rw [Matched, kept] at other
        exact unmatched j below other
      · rw [here]
        exact answered (right.sent plain)
  · rw [result]
    constructor
    · intro right
      have sent : s.has tcpFlagRst = false → env.outcome 0 = .sent := by
        intro plain
        by_contra fails
        have nothing := tcpSendRstAck_unsent env s srcIp fails
        by_cases opens : CanOpen w s
        · obtain ⟨-, -, -, -, p, wire, -⟩ := right.opened plain opens
          rw [nothing] at wire
          cases wire
        · obtain ⟨p, wire, -⟩ := right.refused plain opens
          rw [nothing] at wire
          cases wire
      have refused : s.has tcpFlagRst = false → ¬CanOpen w s := by
        intro plain opens
        obtain ⟨i, within, matched, -⟩ := right.opened plain opens
        exact unmatched i within matched
      refine { reset := fun reset => ⟨declines, ?_⟩, sent := sent
               agrees := fun plain => ⟨fun accepts => absurd accepts declines,
                 fun opens => absurd opens (refused plain)⟩
               refuses := ?_ }
      · intro goes
        obtain ⟨p, wire, -⟩ := tcpSendRstAck_sent env s srcIp goes
        have nothing : tcpSendRstAck env s srcIp = [] := (right.reset reset).1
        rw [nothing] at wire
        cases wire
      · intro plain _
        obtain ⟨p, wire, resets⟩ := right.refused plain (refused plain)
        obtain ⟨q, wire', form⟩ := tcpSendRstAck_sent env s srcIp (sent plain)
        have same : p = q := List.head_eq_of_cons_eq (wire.symm.trans wire')
        rw [same] at resets
        exact form.mp resets
    · intro right
      refine { reset := fun reset => ⟨tcpSendRstAck_unsent env s srcIp (right.reset reset).2,
                 unmatched⟩
               opened := fun plain opens => absurd ((right.agrees plain).mpr opens) declines
               refused := ?_ }
      intro plain _
      obtain ⟨p, wire, form⟩ := tcpSendRstAck_sent env s srcIp (right.sent plain)
      exact ⟨p, wire, form.mpr (right.refuses plain declines)⟩

end Listen

section Mistaken

variable (env : TcpEnv) {s : TcpIn} {srcIp : Word} {c : TcpConn}

theorem idle_tcpHandleConn (idle : c.state = .listen ∨ c.state = .closed) :
    (tcpHandleConn env s (startIo c)).conn.state = .listen ∨
      (tcpHandleConn env s (startIo c)).conn.state = .closed := by
  have waits : (startIo c).conn.state ≠ .synReceived := by
    intro waiting
    have waiting : c.state = .synReceived := waiting
    rw [waiting] at idle
    exact absurd idle (by decide)
  simp only [tcpHandleConn, waits, false_and, if_false]
  split
  · simp only [tcpHandleRst]
    split
    · rw [state_tcpPutCtl]
      exact idle
    split
    · exact .inr rfl
    · exact idle
  · have kept : (tcpHandleAck env s c.peerWin
        ((startIo c).modify (tcpHandleWindow env.ticks s))).conn.state = c.state := by
      rw [state_tcpHandleAck, TcpIo.modify_conn,
        TcpConn.state_of_eraseSender (eraseSender_tcpHandleWindow ..)]
      rfl
    have still : ∀ io : TcpIo, io.conn.state = .listen ∨ io.conn.state = .closed →
        tcpHandleState env s io = io := by
      intro io there
      rcases there with listens | closed
      · rw [tcpHandleState, listens]
      · rw [tcpHandleState, closed]
    have here : (startIo c).conn.peerWin = c.peerWin := rfl
    rw [here, still _ (by rw [kept]; exact idle), kept]
    exact idle

theorem addressed_tcpHandleConn (other : ¬Addressed s srcIp c) :
    ¬Addressed s srcIp (tcpHandleConn env s (startIo c)).conn := by
  have lasts : (tcpHandleConn env s (startIo c)).conn.stable = c.stable :=
    stable_tcpHandleConn env (startIo c) s
  have ip : (tcpHandleConn env s (startIo c)).conn.peerIp = c.peerIp := by
    show (tcpHandleConn env s (startIo c)).conn.stable.peerIp = c.stable.peerIp
    rw [lasts]
  have port : (tcpHandleConn env s (startIo c)).conn.peerPort = c.peerPort := by
    show (tcpHandleConn env s (startIo c)).conn.stable.peerPort = c.stable.peerPort
    rw [lasts]
  have lport : (tcpHandleConn env s (startIo c)).conn.lport = c.lport := by
    show (tcpHandleConn env s (startIo c)).conn.stable.lport = c.stable.lport
    rw [lasts]
  intro addressed
  obtain ⟨sameIp, samePort, sameLport, listens, closed⟩ := addressed
  rw [ip] at sameIp
  rw [port] at samePort
  rw [lport] at sameLport
  refine other ⟨sameIp, samePort, sameLport, ?_, ?_⟩
  · intro idle
    exact (idle_tcpHandleConn env (s := s) (.inl idle)).elim listens closed
  · intro idle
    exact (idle_tcpHandleConn env (s := s) (.inr idle)).elim listens closed

theorem wire_tcpPutCtl_startIo (flags : Flags) (seq : Word) :
    (tcpPutCtl env (startIo c) flags seq).wire = [] ↔ env.outcome 0 ≠ .sent := by
  have calls : (startIo c).calls = 0 := rfl
  by_cases sent : env.outcome 0 = .sent
  · simp [tcpPutCtl, tcpPutPkt, calls, sent]
  · simp only [tcpPutCtl, tcpPutPkt, calls, sent, if_false]
    split <;> simp [startIo, TcpIo.modify, sent]

theorem wire_tcpHandleConn_rst (reset : s.has tcpFlagRst = true) :
    (tcpHandleConn env s (startIo c)).wire = [] ↔
      (env.outcome 0 = .sent → ¬RepliesToReset s c) := by
  have conn : (startIo c).conn = c := rfl
  by_cases repeats : c.state = .synReceived ∧ s.has tcpFlagSyn = true ∧ s.seq = c.rcvIsn
  · have replies : RepliesToReset s c := .inl repeats
    simp only [tcpHandleConn, conn]
    rw [if_pos repeats]
    show (tcpPutCtl env (startIo c) tcpFlagSynack c.sndIsn).wire = [] ↔ _
    rw [wire_tcpPutCtl_startIo]
    exact ⟨fun unsent sent => absurd sent unsent, fun silent sent => silent sent replies⟩
  by_cases challenged : s.seq ≠ c.rcvNxt ∧ tcpSeqAfter s.seq c.rcvNxt = true ∧
      tcpSeqBefore s.seq (c.rcvNxt + lenWord (tcpBufSize - c.rx.rxn)) = true
  · have replies : RepliesToReset s c := .inr challenged
    have handled : tcpHandleConn env s (startIo c) =
        tcpPutCtl env (startIo c) tcpFlagAck c.sndNxt := by
      simp only [tcpHandleConn, tcpHandleRst, conn]
      rw [if_neg repeats, if_pos reset, if_pos challenged]
    rw [handled, wire_tcpPutCtl_startIo]
    exact ⟨fun unsent sent => absurd sent unsent, fun silent sent => silent sent replies⟩
  · have handled : (tcpHandleConn env s (startIo c)).wire = [] := by
      simp only [tcpHandleConn, tcpHandleRst, conn]
      rw [if_neg repeats, if_pos reset, if_neg challenged]
      split <;> rfl
    exact ⟨fun _ _ replies => replies.elim repeats challenged, fun _ => handled⟩

theorem plain_tcpHandleConn {p : TcpOut} (sent : p ∈ (tcpHandleConn env s (startIo c)).wire) :
    p.flags.has tcpFlagRst = false := by
  obtain ⟨moved, -, advances⟩ := @advances_tcpHandleConn env (startIo c) s
  obtain ⟨all, wire, offers, -⟩ := advances.wire
  rw [wire] at sent
  exact (offers p sent).plain

theorem ResetsPeer.has_rst {p : TcpOut} (resets : ResetsPeer s srcIp p) :
    p.flags.has tcpFlagRst = true := by
  cases ack : s.has tcpFlagAck with
  | true =>
    rw [(resets.acked ack).1]
    decide
  | false =>
    rw [(resets.unacked ack).1]
    decide

theorem mistaken_iff {w : TcpTable} {i : Nat} (within : i < tcpMaxConns)
    (used : (w.conns i).used = true) (unmatched : ∀ i < tcpMaxConns, ¬Matched s srcIp w i) :
    Answered w s srcIp (w.setConn i (tcpHandleConn env s (startIo (w.conns i))).conn)
        (tcpHandleConn env s (startIo (w.conns i))).wire ↔
      s.has tcpFlagRst = true ∧ (env.outcome 0 = .sent → ¬RepliesToReset s (w.conns i)) := by
  have other : ∀ j < tcpMaxConns, ¬Matched s srcIp
      (w.setConn i (tcpHandleConn env s (startIo (w.conns i))).conn) j := by
    intro j below matched
    by_cases here : j = i
    · rw [here, Matched, TcpTable.setConn_self] at matched
      exact addressed_tcpHandleConn env (fun addressed => unmatched i within ⟨used, addressed⟩)
        matched.2
    · rw [Matched, TcpTable.setConn_of_ne here] at matched
      exact unmatched j below matched
  constructor
  · intro right
    have reset : s.has tcpFlagRst = true := by
      by_contra plain
      rw [Bool.not_eq_true] at plain
      by_cases opens : CanOpen w s
      · obtain ⟨j, below, matched, -⟩ := right.opened plain opens
        exact other j below matched
      · -- The reply would have to be a reset, which connections never send.
        obtain ⟨p, wire, resets⟩ := right.refused plain opens
        have listed : p ∈ (tcpHandleConn env s (startIo (w.conns i))).wire := by
          rw [wire]
          exact List.mem_singleton_self p
        have silent := plain_tcpHandleConn env listed
        rw [resets.has_rst] at silent
        cases silent
    exact ⟨reset, (wire_tcpHandleConn_rst env reset).mp (right.reset reset).1⟩
  · intro right
    exact { reset := fun reset => ⟨(wire_tcpHandleConn_rst env reset).mpr right.2, other⟩
            opened := fun plain => Bool.noConfusion (plain.symm.trans right.1)
            refused := fun plain => Bool.noConfusion (plain.symm.trans right.1) }

end Mistaken

/--
Segments that no connection is for are answered as they should be exactly when the code takes
them for what they are.

A reset must not be answered, but is, with a reset of its own. A refusal must carry the number
that the peer expects, but copies the wrong one, or counts a request and a close as one. A request
with an acknowledgement must be refused, but opens a connection. And what shares its peer with
another connection is not looked at on its own.
-/
theorem unmatched_answered_iff (env : TcpEnv) {w : TcpTable} {seg : List UInt8} {s : TcpIn}
    (srcIp : Word) (parsed : tcpParseSegment seg = some s)
    (unmatched : ∀ i < tcpMaxConns, ¬Matched s srcIp w i) :
    Answered w s srcIp (tcpHandle env w seg srcIp).1 (tcpHandle env w seg srcIp).2 ↔
      AnswersRight env w s srcIp := by
  cases found : tcpConnFindPeer w srcIp s.srcPort with
  | none =>
    simp only [tcpHandle, parsed, AnswersRight, found]
    exact listens_iff env w s srcIp w unmatched
  | some i =>
    obtain ⟨within, used, -, -⟩ := tcpConnFindPeer_some found
    by_cases stale : isStale s (w.conns i) = true
    · simp only [tcpHandle, parsed, AnswersRight, found, stale, if_true]
      refine listens_iff env w s srcIp _ ?_
      -- Giving up the old connection matches the segment to nothing new.
      intro j below matched
      by_cases here : j = i
      · rw [here, Matched, TcpTable.setConn_self] at matched
        exact Bool.noConfusion matched.1
      · rw [Matched, TcpTable.setConn_of_ne here] at matched
        exact unmatched j below matched
    · simp only [tcpHandle, parsed, AnswersRight, found, stale]
      exact mistaken_iff env within used unmatched

def listening : TcpTable :=
  { conns := fun i => if i = 0 then
      { zeroConn with used := true, state := .listen, lport := 80, backlog := 1 } else zeroConn
    seqGen := 7 }

def flagBytes (flags : UInt8) : List UInt8 :=
  [0x0f, 0xa0, 0, 80, 0, 0, 0, 5, 0, 0, 0, 9, 0x50, flags, 1, 0, 0, 0, 0, 0]

/-- A plain request is answered right. -/
theorem unmatched_answered_iff_request :
    let env : TcpEnv := { ticks := 5, outcome := fun _ => .sent }
    let s : TcpIn := plainIn tcpFlagSyn 5 9 256
    tcpParseSegment (flagBytes 2) = some s ∧
      Answered listening s 1 (tcpHandle env listening (flagBytes 2) 1).1
        (tcpHandle env listening (flagBytes 2) 1).2 := by
  intro env s
  have parsed : tcpParseSegment (flagBytes 2) = some s := by decide
  have unmatched : ∀ i < tcpMaxConns, ¬Matched s 1 listening i := by
    intro i _ matched
    have peer := matched.2.1
    simp only [listening] at peer
    split at peer <;> exact absurd peer (by decide)
  have missing : tcpConnFindPeer listening 1 s.srcPort = none := by decide
  refine ⟨parsed, (unmatched_answered_iff env 1 parsed unmatched).mpr ?_⟩
  rw [AnswersRight, missing]
  exact { reset := fun reset => absurd reset (by decide)
          sent := fun _ => rfl
          agrees := fun _ => by decide
          refuses := fun _ declines => absurd declines (by decide) }

/--
Four ways to get a wrong answer.

A reset is answered with a reset; an acknowledgement is refused under its own number instead of
the one it acknowledges; a request with an acknowledgement opens a connection; and a request with
a close is refused one number short.
-/
theorem unmatched_answered_wrong :
    let env : TcpEnv := { ticks := 5, outcome := fun _ => .sent }
    let none : TcpTable := { conns := fun _ => zeroConn, seqGen := 7 }
    let reply (w : TcpTable) (flags : UInt8) := (tcpHandle env w (flagBytes flags) 1).2
    (reply none 4).map (fun p => p.flags) = [tcpFlagRst ||| tcpFlagAck] ∧
      (reply none 0x10).map (fun p => (p.flags, p.seq)) = [(tcpFlagRst, 5)] ∧
      (reply listening 0x12).map (fun p => p.flags) = [tcpFlagSynack] ∧
      (reply none 3).map (fun p => p.ack) = [6] := by
  decide

end CatOs.Tcp
