import CatOs.Net.Tcp.TwinBuffers

/-! Twins read moved options, send moved segments and stay twins doing so. -/

namespace CatOs.Tcp

open Function

section Reading

variable {k j : Word} {whole fresh : Prop} {c d : TcpConn}

theorem Twin.setSack (twin : Twin k j whole fresh c d) {left left' right right' : Buffer Word}
    {n n' : Nat} (agree : SackTwin k whole ((left, right), n) ((left', right'), n')) :
    Twin k j whole True { c with sackLeft := left, sackRight := right, sackN := n }
      { d with sackLeft := left', sackRight := right', sackN := n' } :=
  { twin with blocks := fun _ => agree }

theorem Twin.resetSack (twin : Twin k j whole fresh c d) :
    Twin k j whole True (resetSack c) (resetSack d) := by
  refine twin.setSack ⟨rfl, fun i need => ?_, fun i need => ?_⟩
  -- Nothing is reported yet, so that only connections taken as a whole have anything to agree on.
  · rcases need with all | none
    · exact (twin.blocks (.inl all)).left i (.inl all)
    · exact absurd none (Nat.not_lt_zero i)
  · rcases need with all | none
    · exact (twin.blocks (.inl all)).right i (.inl all)
    · exact absurd none (Nat.not_lt_zero i)

theorem push_agree {x y : Buffer Word} {n : Nat} (agree : ∀ i, whole ∨ i < n → y i = x i + k)
    (value : Word) : ∀ i, whole ∨ i < n + 1 →
      update y n (value + k) i = update x n value i + k := by
  intro i need
  by_cases new : i = n
  · rw [new, update_self, update_self]
  · rw [update_of_ne new, update_of_ne new]
    exact agree i (need.imp_right fun within => by omega)

theorem Twin.pushSackBlock (twin : Twin k j whole True c d) (l r : Word) :
    Twin k j whole True (pushSackBlock c l r) (pushSackBlock d (l + k) (r + k)) := by
  obtain ⟨count, left, right⟩ := twin.blocks (.inr trivial)
  have count : d.sackN = c.sackN := count
  simp only [CatOs.Tcp.pushSackBlock, count]
  exact twin.setSack ⟨rfl, push_agree left l, push_agree right r⟩

theorem Twin.addSackBlock (twin : Twin k j whole True c d) (l r : Word) :
    Twin k j whole True (addSackBlock c l r) (addSackBlock d (l + k) (r + k)) := by
  have sack := twin.blocks (.inr trivial)
  have count : d.sackN = c.sackN := sack.count
  have clipped : (if tcpSeqBefore l c.sndUna then c.sndUna + k else l + k) =
      (if tcpSeqBefore l c.sndUna then c.sndUna else l) + k := by
    split <;> rfl
  simp only [CatOs.Tcp.addSackBlock, twin.sndNxt, twin.sndUna, count, tcpSeqBefore_shift,
    tcpSeqAfter_shift, clipped]
  split
  · exact twin
  split
  · exact twin
  split
  · exact twin
  generalize (if tcpSeqBefore l c.sndUna = true then c.sndUna else l) = l
  have known : ((List.range c.sackN).any fun i => d.sackLeft i == l + k && d.sackRight i == r + k) =
      (List.range c.sackN).any fun i => c.sackLeft i == l && c.sackRight i == r := by
    refine any_range_congr fun i within => ?_
    have left : d.sackLeft i = c.sackLeft i + k := sack.left i (.inr within)
    have right : d.sackRight i = c.sackRight i + k := sack.right i (.inr within)
    rw [Bool.eq_iff_iff, Bool.and_eq_true, Bool.and_eq_true, beq_iff_eq, beq_iff_eq, beq_iff_eq,
      beq_iff_eq, left, right, add_left_inj, add_left_inj]
  rw [known]
  split
  · exact twin
  · exact twin.pushSackBlock l r

theorem Twin.parseSackBlocks (twin : Twin k j whole fresh c d) (body : List UInt8) :
    Twin k j whole True (parseSackBlocks c body) (parseSackBlocks d (shiftWords k body)) := by
  -- The count starts from zero, so whatever was registered before is out of sight.
  simp only [CatOs.Tcp.parseSackBlocks, length_shiftWords]
  refine forRange_related (Twin k j whole True) twin.resetSack fun i c d within twin => ?_
  have count : d.sackN = c.sackN := (twin.blocks (.inr trivial)).count
  have first : i * 8 = 4 * (2 * i) := by omega
  have second : i * 8 + 4 = 4 * (2 * i + 1) := by omega
  have room : i * 8 + 8 ≤ body.length := by omega
  rw [second, first, be32_shiftWords k (2 * i) body (by omega),
    be32_shiftWords k (2 * i + 1) body (by omega), count]
  split
  · exact twin.addSackBlock _ _
  · exact twin

theorem Twin.applyOption (twin : Twin k j whole True c d) (kind : UInt8) (body : List UInt8) :
    Twin k j whole True (applyOption c kind body false)
      (applyOption d kind (if kind = 5 then shiftWords k body else body) false) := by
  have permitted : d.sackOk = c.sackOk := twin.field TcpConn.sackOk
  simp only [CatOs.Tcp.applyOption, Bool.false_eq_true, and_false, if_false, permitted]
  by_cases sack : kind = 5
  · rw [if_pos sack, length_shiftWords]
    split
    · exact twin.parseSackBlocks body
    · exact twin
  · simp only [sack, false_and, if_false]
    exact twin

theorem Twin.parseOptsFrom (fuel : Nat) {c d : TcpConn} (twin : Twin k j whole True c d)
    (opt : List UInt8) :
    Twin k j whole True (parseOptsFrom fuel c opt false)
      (parseOptsFrom fuel d (shiftOptsFrom k fuel opt) false) := by
  -- Moving the blocks changes neither the kinds nor the lengths that the walk looks at.
  induction fuel generalizing c d opt with
  | zero => exact twin
  | succ fuel ih =>
    cases opt with
    | nil => exact twin
    | cons kind rest =>
      by_cases last : kind = 0
      · simp only [shiftOptsFrom, CatOs.Tcp.parseOptsFrom, last, if_true]
        exact twin
      by_cases pad : kind = 1
      · simp only [shiftOptsFrom, CatOs.Tcp.parseOptsFrom, pad, if_true]
        exact ih twin rest
      cases rest with
      | nil =>
        simp only [shiftOptsFrom, CatOs.Tcp.parseOptsFrom, last, pad, if_false]
        exact twin
      | cons olen tail =>
        by_cases bad : olen.toNat < 2 ∨ olen.toNat > tail.length + 2
        · simp only [shiftOptsFrom, CatOs.Tcp.parseOptsFrom, last, pad, if_false, List.length_cons,
            bad, if_true]
          exact twin
        · have fits : olen.toNat - 2 ≤ tail.length := by omega
          have next : olen.toNat - 1 = (olen.toNat - 2) + 1 := by omega
          have moved : (if kind = 5 then shiftWords k (tail.take (olen.toNat - 2))
              else tail.take (olen.toNat - 2)).length = olen.toNat - 2 := by
            split <;> simp only [length_shiftWords, List.length_take] <;> omega
          have total : (if kind = 5 then shiftWords k (tail.take (olen.toNat - 2))
              else tail.take (olen.toNat - 2)).length + (tail.drop (olen.toNat - 2)).length =
              tail.length := by
            rw [moved, List.length_drop]
            omega
          simp only [shiftOptsFrom, CatOs.Tcp.parseOptsFrom, last, pad, if_false, bad,
            List.length_cons, List.length_append, length_shiftOptsFrom, total, next,
            List.drop_succ_cons, List.drop_zero]
          rw [List.take_left' moved, List.drop_left' moved]
          exact ih (twin.applyOption kind _) _

theorem Twin.tcpParseOpts (twin : Twin k j whole True c d) (opt : List UInt8) :
    Twin k j whole True (tcpParseOpts c opt false) (tcpParseOpts d (shiftOpts k opt) false) := by
  simp only [CatOs.Tcp.tcpParseOpts, shiftOpts, length_shiftOptsFrom]
  exact Twin.parseOptsFrom opt.length twin opt

end Reading

section Writing

variable {k j : Word} {whole fresh : Prop} {c d : TcpConn} (twin : Twin k j whole fresh c d)
include twin

theorem Twin.tcpSackBlocks : tcpSackBlocks d = tcpSackBlocks c := by
  have counted : forRange tcpOooSlots (fun i n => if (d.ooo i).used then n + 1 else n) 0 =
      forRange tcpOooSlots (fun i n => if (c.ooo i).used then n + 1 else n) 0 := by
    refine forRange_related (fun x y : Nat => x = y) rfl ?_
    rintro i n _ within rfl
    rw [(twin.ooo i (.inr within)).used]
  simp only [CatOs.Tcp.tcpSackBlocks, counted]

theorem Twin.reported :
    sackBlockBytes d (CatOs.Tcp.tcpSackBlocks c) =
        shiftWords j (sackBlockBytes c (CatOs.Tcp.tcpSackBlocks c)) ∧
      (sackBlockBytes c (CatOs.Tcp.tcpSackBlocks c)).length = 8 * CatOs.Tcp.tcpSackBlocks c ∧
      CatOs.Tcp.tcpSackBlocks c ≤ 2 := by
  have moved : ∀ {x y : OooSlot} (rest : List UInt8), SlotTwin j whole x y → x.used = true →
      be32Bytes y.seq ++ (be32Bytes (y.seq + lenWord y.len) ++ shiftWords j rest) =
        shiftWords j (be32Bytes x.seq ++ (be32Bytes (x.seq + lenWord x.len) ++ rest)) := by
    intro x y rest slot used
    rw [shiftWords_be32Bytes, shiftWords_be32Bytes, slot.seq (.inr used), slot.len (.inr used),
      shift_lenWord]
  have slot0 := twin.ooo 0 (.inr (by decide))
  have slot1 := twin.ooo 1 (.inr (by decide))
  -- There are two slots, and either of them may hold data.
  cases first : (c.ooo 0).used <;> cases second : (c.ooo 1).used
  all_goals
    simp only [sackBlockBytes, CatOs.Tcp.tcpSackBlocks, tcpOooSlots, forRange,
      slot0.used, slot1.used, first, second, if_true, if_false, Bool.false_eq_true, and_false]
  · exact ⟨rfl, rfl, by decide⟩
  · exact ⟨moved [] slot1 second, rfl, by decide⟩
  · exact ⟨moved [] slot0 first, rfl, by decide⟩
  · have both := moved (be32Bytes (c.ooo 1).seq ++
      (be32Bytes ((c.ooo 1).seq + lenWord (c.ooo 1).len) ++ [])) slot0 first
    rw [← moved [] slot1 second] at both
    exact ⟨both, rfl, by decide⟩

omit twin

theorem shiftOpts_report {blocks : Nat} {body : List UInt8} (few : blocks ≤ 2)
    (announced : body.length = 8 * blocks) :
    shiftOpts j ([1, 1, 5, UInt8.ofNat (2 + 8 * blocks)] ++ body) =
      [1, 1, 5, UInt8.ofNat (2 + 8 * blocks)] ++ shiftWords j body := by
  have olen : (UInt8.ofNat (2 + 8 * blocks)).toNat = 2 + 8 * blocks := by
    rw [UInt8.toNat_ofNat']
    omega
  have fits : ¬(2 + 8 * blocks < 2 ∨ 2 + 8 * blocks > body.length + 2) := by omega
  have all : 2 + 8 * blocks - 2 = body.length := by omega
  have done : ∀ fuel, shiftOptsFrom j fuel [] = [] := by
    intro fuel
    cases fuel <;> rfl
  show shiftOptsFrom j (body.length + 4) (1 :: 1 :: 5 :: _ :: body) = _
  -- Two bytes of padding go by, and the option takes up the rest.
  simp only [shiftOptsFrom, olen, fits, all, List.take_length, List.drop_length, done, if_false,
    if_true, List.append_nil]
  rfl

include twin

theorem Twin.tcpBuildOpts (flags : Flags) :
    tcpBuildOpts d flags = shiftOpts j (tcpBuildOpts c flags) := by
  have permitted : d.sackOk = c.sackOk := twin.field TcpConn.sackOk
  obtain ⟨moved, announced, few⟩ := twin.reported
  simp only [CatOs.Tcp.tcpBuildOpts, permitted, twin.tcpSackBlocks, moved]
  by_cases syn : flags.has tcpFlagSyn = true
  · -- A connection request carries no blocks.
    cases c.sackOk <;> simp only [syn, Bool.and_true, Bool.and_false, if_true, if_false,
      Bool.false_eq_true] <;> rfl
  · simp only [syn, Bool.false_and, Bool.false_eq_true, if_false, List.nil_append]
    split
    · split
      · have even : (4 - ([1, 1, 5, UInt8.ofNat (2 + 8 * CatOs.Tcp.tcpSackBlocks c)] ++
            sackBlockBytes c (CatOs.Tcp.tcpSackBlocks c)).length % 4) % 4 = 0 := by
          rw [List.length_append, announced]
          simp only [List.length_cons, List.length_nil]
          omega
        have same : ([1, 1, 5, UInt8.ofNat (2 + 8 * CatOs.Tcp.tcpSackBlocks c)] ++
            shiftWords j (sackBlockBytes c (CatOs.Tcp.tcpSackBlocks c))).length =
            ([1, 1, 5, UInt8.ofNat (2 + 8 * CatOs.Tcp.tcpSackBlocks c)] ++
              sackBlockBytes c (CatOs.Tcp.tcpSackBlocks c)).length := by
          rw [List.length_append, List.length_append, length_shiftWords]
        rw [same, even, List.replicate_zero, List.append_nil, List.append_nil,
          shiftOpts_report few announced]
      · rfl
    · rfl

theorem Twin.tcpAdvertiseWindow : tcpAdvertiseWindow d = tcpAdvertiseWindow c := by
  simp only [CatOs.Tcp.tcpAdvertiseWindow, twin.rxn]

theorem Twin.buildSegment (flags : Flags) (seq ack : Word) (data : List UInt8) :
    buildSegment d flags (seq + k) (ack + j) data =
      (buildSegment c flags seq ack data).shift k j := by
  have ip : d.peerIp = c.peerIp := twin.field TcpConn.peerIp
  have port : d.lport = c.lport := twin.field TcpConn.lport
  have peer : d.peerPort = c.peerPort := twin.field TcpConn.peerPort
  simp only [CatOs.Tcp.buildSegment, TcpOut.shift, ip, port, peer, twin.tcpAdvertiseWindow,
    twin.tcpBuildOpts]

end Writing

structure TwinIo (k j : Word) (whole fresh : Prop) (x y : TcpIo) : Prop where
  conn : Twin k j whole fresh x.conn y.conn
  calls : y.calls = x.calls
  wire : y.wire = x.wire.map (TcpOut.shift k j)
  accepted : y.accepted = x.accepted
  delivered : y.delivered = x.delivered

structure TwinPut (k j : Word) (whole fresh : Prop) (p q : TcpIo × Bool) : Prop where
  io : TwinIo k j whole fresh p.1 q.1
  ok : q.2 = p.2

section Sending

variable {k j : Word} {whole fresh : Prop} {c d : TcpConn} {x y : TcpIo} (env : TcpEnv)

theorem Twin.noteSent (twin : Twin k j whole fresh c d) (ticks : Word) (n : Nat) :
    Twin k j whole fresh (noteSent ticks n c) (noteSent ticks n d) := by
  have advanced : PlainOp k j (advanceNxt n) (advanceNxt n) := by
    refine .same (fun _ => rfl) (fun c rtt recover => ?_) fun _ => rfl
    simp only [advanceNxt, TcpConn.shift, shift_lenWord]
  have sent := (twin.startRtt ticks n).plain advanced
  simp only [CatOs.Tcp.noteSent, sent.sndNxt, ← sub_add_eq_add_sub]
  exact ((sent.tcpTxAdd _ n).plain (plainOp_tcpRtoRearm ticks)).plain plainOp_tcpPersistClear

theorem Twin.noteRetransmitted (twin : Twin k j whole fresh c d) (ticks : Word) (i : Nat)
    (within : i < c.txN) :
    Twin k j whole fresh (noteRetransmitted ticks i c) (noteRetransmitted ticks i d) := by
  have resent : PlainOp k j (fun c => tcpRtoRearm ticks { c with rttRetransmitted := true })
      fun c => tcpRtoRearm ticks { c with rttRetransmitted := true } :=
    .same (fun _ => rfl) (fun _ _ _ => rfl) fun _ => rfl
  have entries : TxTwin k whole c.txN c.tx d.tx := twin.tx
  have entry : { d.tx i with retransmitted := true } =
      TxSeg.shift k { c.tx i with retransmitted := true } := by
    rw [entries i (.inr within)]
    rfl
  have marked := twin.setTx (entries.update i fun _ => entry)
  have same : { d with
      tx := update d.tx i { d.tx i with retransmitted := true }, txN := c.txN } =
      { d with tx := update d.tx i { d.tx i with retransmitted := true } } := by
    rw [← twin.txN]
  rw [same] at marked
  exact marked.plain resent

theorem TwinIo.modify (io : TwinIo k j whole fresh x y) {f g : TcpConn → TcpConn} {later : Prop}
    (conn : Twin k j whole later (f x.conn) (g y.conn)) :
    TwinIo k j whole later (x.modify f) (y.modify g) :=
  { io with conn := conn }

theorem TwinIo.plain (io : TwinIo k j whole fresh x y) {f g : TcpConn → TcpConn}
    (op : PlainOp k j f g) : TwinIo k j whole fresh (x.modify f) (y.modify g) :=
  io.modify (io.conn.plain op)

theorem TwinIo.ite {p q : Prop} [Decidable p] [Decidable q] {x' y' : TcpIo} (same : q ↔ p)
    (yes : p → TwinIo k j whole fresh x y) (no : ¬p → TwinIo k j whole fresh x' y') :
    TwinIo k j whole fresh (if p then x else x') (if q then y else y') := by
  by_cases chosen : p
  · rw [if_pos chosen, if_pos (same.mpr chosen)]
    exact yes chosen
  · rw [if_neg chosen, if_neg fun there => chosen (same.mp there)]
    exact no chosen

section TwinIo

variable (io : TwinIo k j whole fresh x y)
include io

theorem TwinIo.tcpPutPkt (flags : Flags) (seq ack : Word)
    (data : List UInt8) :
    TwinPut k j whole fresh (tcpPutPkt env x flags seq ack data)
      (tcpPutPkt env y flags (seq + k) (ack + j) data) := by
  have segment := io.conn.buildSegment flags seq ack data
  have announced : ∀ window, PlainOp k j (fun c => { c with advWin := window })
      fun c => { c with advWin := window } := fun _ =>
    .same (fun _ => rfl) (fun _ _ _ => rfl) fun _ => rfl
  simp only [CatOs.Tcp.tcpPutPkt, io.calls, segment]
  split
  · exact ⟨⟨io.conn, rfl, io.wire, io.accepted, io.delivered⟩, rfl⟩
  have conn := io.conn.plain (announced (CatOs.Tcp.buildSegment x.conn flags seq ack data).window)
  split
  · refine ⟨⟨conn, rfl, ?_, io.accepted, io.delivered⟩, rfl⟩
    show y.wire ++ _ = (x.wire ++ _).map _
    rw [io.wire, List.map_append]
    rfl
  · exact ⟨⟨conn, rfl, io.wire, io.accepted, io.delivered⟩, rfl⟩

theorem TwinIo.tcpPutCtl (flags : Flags) (seq : Word) :
    TwinIo k j whole fresh (tcpPutCtl env x flags seq) (tcpPutCtl env y flags (seq + k)) := by
  simp only [CatOs.Tcp.tcpPutCtl, io.conn.rcvNxt]
  exact (io.tcpPutPkt env flags seq _ []).io

theorem TwinIo.acknowledge (flags : Flags) :
    TwinIo k j whole fresh (CatOs.Tcp.tcpPutCtl env x flags x.conn.sndNxt)
      (CatOs.Tcp.tcpPutCtl env y flags y.conn.sndNxt) := by
  rw [io.conn.sndNxt]
  exact io.tcpPutCtl env flags x.conn.sndNxt

theorem TwinIo.tcpWindowUpdateAck :
    TwinIo k j whole fresh (tcpWindowUpdateAck env x) (tcpWindowUpdateAck env y) := by
  have announced : y.conn.advWin = x.conn.advWin := io.conn.field TcpConn.advWin
  simp only [CatOs.Tcp.tcpWindowUpdateAck, io.conn.state, io.conn.tcpAdvertiseWindow, announced]
  split
  · exact io
  split
  · exact io.acknowledge env _
  · exact io

theorem TwinIo.xmitOne (window : Word) (mss : Nat) :
    TwinPut k j whole fresh (xmitOne env window mss x) (xmitOne env window mss y) := by
  have conn := io.conn
  have len : nextSegmentLen y.conn window mss = nextSegmentLen x.conn window mss := by
    simp only [nextSegmentLen, conn.inFlight, conn.sndUsed]
  simp only [CatOs.Tcp.xmitOne, conn.inFlight, conn.sndUsed, conn.sndNxt, conn.rcvNxt, len]
  split
  · exact ⟨io, rfl⟩
  -- The segment carries counted bytes only.
  have counted : x.conn.inFlight.toNat + nextSegmentLen x.conn window mss ≤ x.conn.snd.sndUsed := by
    simp only [nextSegmentLen]
    split <;> split <;> omega
  have payload := conn.read_sndb (Nat.le_trans counted (Nat.le_max_left _ _))
  have put := io.tcpPutPkt env (tcpFlagAck ||| tcpFlagPsh) x.conn.sndNxt x.conn.rcvNxt
    (x.conn.snd.sndb.read x.conn.inFlight.toNat (nextSegmentLen x.conn window mss))
  simp only [payload, put.ok]
  split
  · exact ⟨put.io.modify (put.io.conn.noteSent _ _), rfl⟩
  · exact ⟨put.io, rfl⟩

theorem TwinIo.tcpXmitPending :
    TwinIo k j whole fresh (tcpXmitPending env x) (tcpXmitPending env y) := by
  have conn := io.conn
  have window : sendWin y.conn = sendWin x.conn := conn.field sendWin
  simp only [CatOs.Tcp.tcpXmitPending, window, conn.inFlight, conn.sndUsed, conn.mss]
  split
  · split
    · exact io.plain (plainOp_tcpPersistArm _)
    · exact io
  · refine doWhile_related (TwinIo k j whole fresh) (fun _ _ io => ?_) _ x y io
    have sent := io.xmitOne env (sendWin x.conn) (effMss x.conn)
    exact ⟨sent.io, sent.ok.symm⟩

end TwinIo

structure ResendTwin (k j : Word) (whole fresh : Prop) (n : Nat) (p q : TcpIo × Bool) : Prop where
  put : TwinPut k j whole fresh p q
  entries : p.1.conn.txN = n

theorem ResendTwin.retransmitEntry {n : Nat} {p q : TcpIo × Bool}
    (resend : ResendTwin k j whole fresh n p q) {i : Nat} (within : i < n) :
    ResendTwin k j whole fresh n (retransmitEntry env i p) (retransmitEntry env i q) := by
  obtain ⟨x, done⟩ := p
  obtain ⟨y, done'⟩ := q
  obtain ⟨⟨io, rfl : done' = done⟩, entries⟩ := resend
  have conn : Twin k j whole fresh x.conn y.conn := io.conn
  have counted : i < x.conn.txN := Nat.lt_of_lt_of_eq within entries.symm
  have entry := conn.tx i (.inr counted)
  have offset : ((x.conn.tx i).shift k).seq - (x.conn.sndUna + k) =
      (x.conn.tx i).seq - x.conn.sndUna := add_sub_add_right_eq_sub _ _ _
  have due : retransmitDue y.conn ((x.conn.tx i).shift k) =
      retransmitDue x.conn (x.conn.tx i) := by
    have before : tcpSeqBefore ((x.conn.tx i).shift k).seq (x.conn.sndUna + k) =
        tcpSeqBefore (x.conn.tx i).seq x.conn.sndUna := tcpSeqBefore_shift _ _ _
    simp only [retransmitDue, conn.sndUna, conn.sndUsed, offset, before]
    rfl
  simp only [CatOs.Tcp.retransmitEntry, entry, due, conn.sndUna, conn.rcvNxt, offset]
  split
  · exact ⟨⟨io, rfl⟩, entries⟩
  rename_i chosen
  have chosen : retransmitDue x.conn (x.conn.tx i) = true := by
    simp only [Bool.or_eq_true, Bool.not_eq_true', not_or, Bool.not_eq_false] at chosen
    exact chosen.2
  have payload : y.conn.snd.sndb.read ((x.conn.tx i).seq - x.conn.sndUna).toNat
      ((x.conn.tx i).shift k).len =
      x.conn.snd.sndb.read ((x.conn.tx i).seq - x.conn.sndUna).toNat (x.conn.tx i).len :=
    conn.read_sndb (Nat.le_trans (retransmitDue_counted chosen) (Nat.le_max_left _ _))
  rw [payload]
  have sent := io.tcpPutPkt env (tcpFlagAck ||| tcpFlagPsh) (x.conn.tx i).seq x.conn.rcvNxt
    (x.conn.snd.sndb.read ((x.conn.tx i).seq - x.conn.sndUna).toNat (x.conn.tx i).len)
  have kept : (CatOs.Tcp.tcpPutPkt env x (tcpFlagAck ||| tcpFlagPsh) (x.conn.tx i).seq
      x.conn.rcvNxt (x.conn.snd.sndb.read ((x.conn.tx i).seq - x.conn.sndUna).toNat
        (x.conn.tx i).len)).1.conn.txN = x.conn.txN := by
    obtain ⟨window, after⟩ := tcpPutPkt_conn env x (tcpFlagAck ||| tcpFlagPsh) (x.conn.tx i).seq
      x.conn.rcvNxt (x.conn.snd.sndb.read ((x.conn.tx i).seq - x.conn.sndUna).toNat
        (x.conn.tx i).len)
    rw [after]
  show ResendTwin k j whole fresh n _ (if (CatOs.Tcp.tcpPutPkt env y (tcpFlagAck ||| tcpFlagPsh)
    ((x.conn.tx i).seq + k) (x.conn.rcvNxt + j) (x.conn.snd.sndb.read
      ((x.conn.tx i).seq - x.conn.sndUna).toNat (x.conn.tx i).len)).2 = true then _ else _)
  rw [sent.ok]
  split
  · have noted := sent.io.conn.noteRetransmitted env.ticks i (counted.trans_eq kept.symm)
    exact ⟨⟨sent.io.modify noted, rfl⟩, kept.trans entries⟩
  · exact ⟨⟨sent.io, rfl⟩, kept.trans entries⟩

theorem TwinIo.sackRetransmit (io : TwinIo k j whole True x y) :
    TwinPut k j whole True (sackRetransmit env x) (sackRetransmit env y) := by
  have reported : y.conn.sackN = x.conn.sackN := (io.conn.blocks (.inr trivial)).count
  simp only [CatOs.Tcp.sackRetransmit, reported, tcpTxRetransmitLost, io.conn.txN]
  split
  · have resend : ResendTwin k j whole True x.conn.txN
        (forRange x.conn.txN (CatOs.Tcp.retransmitEntry env) (x, false))
        (forRange x.conn.txN (CatOs.Tcp.retransmitEntry env) (y, false)) :=
      forRange_related _ ⟨⟨io, rfl⟩, rfl⟩
        fun i p q within resend => resend.retransmitEntry env within
    exact resend.put
  · exact ⟨io, rfl⟩

end Sending

end CatOs.Tcp
