import Mathlib.Data.List.Find
import CatOs.Net.Tcp.Twin

/-! Operations on the buffers of a connection keep twins twins. -/

namespace CatOs.Tcp

open Function

section Scoreboard

variable {k j : Word} {whole fresh : Prop} {c d : TcpConn}

def TxTwin (k : Word) (whole : Prop) (n : Nat) (x y : Buffer TxSeg) : Prop :=
  ∀ i, whole ∨ i < n → y i = (x i).shift k

theorem TxTwin.update {n : Nat} {x y : Buffer TxSeg} (twin : TxTwin k whole n x y) (i : Nat)
    {seg seg' : TxSeg} (same : whole ∨ i < n → seg' = seg.shift k) :
    TxTwin k whole n (update x i seg) (update y i seg') :=
  Buffer.update_related (fun a b => b = TxSeg.shift k a) twin i same

theorem Twin.setTx (twin : Twin k j whole fresh c d) {tx tx' : Buffer TxSeg} {txN : Nat}
    (agree : TxTwin k whole txN tx tx') :
    Twin k j whole fresh { c with tx := tx, txN := txN } { d with tx := tx', txN := txN } :=
  { twin with
    scalars := congrArg (fun e : TcpConn => { e with txN := txN }) twin.scalars
    tx := agree }

theorem Twin.tcpTxAdd (twin : Twin k j whole fresh c d) (seq : Word) (len : Nat) :
    Twin k j whole fresh (tcpTxAdd c seq len) (tcpTxAdd d (seq + k) len) := by
  have entries : TxTwin k whole c.txN c.tx d.tx := twin.tx
  simp only [CatOs.Tcp.tcpTxAdd, twin.txN]
  split
  · exact twin
  split
  · -- A full scoreboard takes the run into its last entry, which both agree on.
    rename_i full
    have last : d.tx (tcpTxSegMax - 1) = (c.tx (tcpTxSegMax - 1)).shift k :=
      twin.tx _ (.inr (Nat.lt_of_lt_of_le (by decide) full))
    simp only [last]
    refine .ite ?_ (fun _ => twin.setTx (entries.update _ fun _ => rfl)) fun _ => twin
    show seq + k = (c.tx _).seq + k + lenWord (c.tx _).len ∧ _ ↔ _
    rw [shift_lenWord, add_left_inj]
    rfl
  · refine twin.setTx fun i need => ?_
    by_cases new : i = c.txN
    · rw [new, update_self, update_self]
      rfl
    · rw [update_of_ne new, update_of_ne new]
      exact twin.tx i (need.imp_right fun within => by omega)

theorem cutTxSeg_shift (seg : TxSeg) (ack : Word) :
    cutTxSeg (seg.shift k) (ack + k) = (cutTxSeg seg ack).shift k := by
  have rest : seg.seq + k + lenWord seg.len - (ack + k) = seg.seq + lenWord seg.len - ack := by
    rw [shift_lenWord, add_sub_add_right_eq_sub]
  simp only [cutTxSeg, TxSeg.shift, tcpSeqBefore_shift, rest]
  split <;> rfl

def AckTwin (k : Word) (whole : Prop) (n : Nat) (x y : Buffer TxSeg × Nat) : Prop :=
  y.2 = x.2 ∧ TxTwin k whole n x.1 y.1

theorem ackTxSeg_twin {n : Nat} {tx tx' : Buffer TxSeg} (twin : TxTwin k whole n tx tx')
    (ack : Word) :
    AckTwin k whole n (forRange n (ackTxSeg ack) (tx, 0)) (forRange n (ackTxSeg (ack + k)) (tx', 0)) := by
  refine forRange_related (AckTwin k whole n) ⟨rfl, twin⟩ ?_
  rintro i ⟨x, out⟩ ⟨y, out'⟩ within ⟨rfl : out' = out, same : TxTwin k whole n x y⟩
  -- Both look at the same entry, and put what is left of it at the same place.
  have ends : tcpSeqAfter ((x i).seq + k + lenWord (x i).len) (ack + k) =
      tcpSeqAfter ((x i).seq + lenWord (x i).len) ack := by
    rw [shift_lenWord, tcpSeqAfter_shift]
  simp only [ackTxSeg, same i (.inr within), cutTxSeg_shift, update_self]
  simp only [TxSeg.shift, ends]
  split
  · exact ⟨rfl, same⟩
  split
  · exact ⟨rfl, same⟩
  · exact ⟨rfl, (same.update i fun _ => rfl).update out' fun _ => rfl⟩

theorem ackTxSeg_count (n : Nat) (tx : Buffer TxSeg) (ack : Word) :
    (forRange n (ackTxSeg ack) (tx, 0)).2 ≤ n := by
  refine forRange_invariant (fun i (state : Buffer TxSeg × Nat) => state.2 ≤ i) (Nat.le_refl 0) ?_
  intro i state _ bound
  simp only [ackTxSeg]
  split
  · exact Nat.le_succ_of_le bound
  split
  · exact Nat.le_succ_of_le bound
  · exact Nat.succ_le_succ bound

theorem Twin.tcpTxAck (twin : Twin k j whole fresh c d) (ack : Word) :
    Twin k j whole fresh (tcpTxAck c ack) (tcpTxAck d (ack + k)) := by
  obtain ⟨count, entries⟩ := ackTxSeg_twin (n := c.txN) twin.tx ack
  have bound := ackTxSeg_count c.txN c.tx ack
  simp only [CatOs.Tcp.tcpTxAck, twin.txN, count]
  generalize forRange c.txN (ackTxSeg ack) (c.tx, 0) = acked at count entries bound
  -- The entries after the kept ones are only marked unused, so the kept ones still agree.
  have freed : TxTwin k whole acked.2
      (forRange tcpTxSegMax (fun i tx =>
        if acked.2 ≤ i then update tx i { tx i with used := false } else tx) acked.1)
      (forRange tcpTxSegMax (fun i tx =>
        if acked.2 ≤ i then update tx i { tx i with used := false } else tx)
        (forRange c.txN (ackTxSeg (ack + k)) (d.tx, 0)).1) := by
    refine forRange_related (TxTwin k whole acked.2) (fun i need => ?_) fun i x y _ same => ?_
    · exact entries i (need.imp_right fun kept => Nat.lt_of_lt_of_le kept bound)
    · split
      · refine same.update i fun need => ?_
        rw [same i need]
        rfl
      · exact same
  exact twin.setTx fun i need =>
    freed i (need.imp_right fun within => Nat.lt_of_lt_of_le within (Nat.mod_le _ _))

theorem Twin.tcpTxClearMarks (twin : Twin k j whole fresh c d) :
    Twin k j whole fresh (tcpTxClearMarks c) (tcpTxClearMarks d) := by
  simp only [CatOs.Tcp.tcpTxClearMarks, twin.txN]
  refine twin.setTx (forRange_related (TxTwin k whole c.txN) twin.tx fun i x y _ same => ?_)
  refine same.update i fun need => ?_
  rw [same i need]
  rfl

theorem any_range_congr {p q : Nat → Bool} {n : Nat} (agree : ∀ i < n, p i = q i) :
    (List.range n).any p = (List.range n).any q := by
  rw [Bool.eq_iff_iff, List.any_eq_true, List.any_eq_true]
  refine exists_congr fun i => and_congr_right fun member => ?_
  rw [agree i (List.mem_range.mp member)]

variable (sack : SackTwin k whole c.blocks d.blocks)
include sack

theorem SackTwin.sackHigh (una : d.sndUna = c.sndUna + k) : sackHigh d = sackHigh c + k := by
  have count : d.sackN = c.sackN := sack.count
  simp only [CatOs.Tcp.sackHigh, count]
  refine forRange_related (fun x y : Word => y = x + k) una ?_
  rintro i x _ within rfl
  have right : d.sackRight i = c.sackRight i + k := sack.right i (.inr within)
  rw [right, tcpSeqAfter_shift]
  split <;> rfl

theorem SackTwin.sackCovers (seg : TxSeg) : sackCovers d (seg.shift k) = sackCovers c seg := by
  have count : d.sackN = c.sackN := sack.count
  simp only [CatOs.Tcp.sackCovers, count]
  refine any_range_congr fun i within => ?_
  have left : d.sackLeft i = c.sackLeft i + k := sack.left i (.inr within)
  have right : d.sackRight i = c.sackRight i + k := sack.right i (.inr within)
  simp only [left, right, TxSeg.shift, shift_lenWord, tcpSeqBefore_shift, tcpSeqAfter_shift]

omit sack

theorem Twin.tcpTxSack (twin : Twin k j whole True c d) :
    Twin k j whole True (tcpTxSack c) (tcpTxSack d) := by
  have sack := twin.blocks (.inr trivial)
  simp only [CatOs.Tcp.tcpTxSack, twin.txN, sack.sackHigh twin.sndUna]
  refine twin.setTx (forRange_related (TxTwin k whole c.txN) twin.tx fun i x y within same => ?_)
  have before : tcpSeqBefore ((x i).shift k).seq (sackHigh c + k) =
      tcpSeqBefore (x i).seq (sackHigh c) := tcpSeqBefore_shift k _ _
  simp only [same i (.inr within), sack.sackCovers, before]
  by_cases unused : (!(x i).used) = true
  · have unused' : (!((x i).shift k).used) = true := unused
    rw [if_pos unused, if_pos unused']
    exact same
  · have used : ¬(!((x i).shift k).used) = true := unused
    rw [if_neg unused, if_neg used]
    exact same.update i fun _ => rfl

end Scoreboard

section Send

variable {k j : Word} {whole fresh : Prop} {c d : TcpConn} (twin : Twin k j whole fresh c d)
include twin

theorem Twin.setSnd {snd snd' : TcpSnd} (used : snd'.sndUsed = snd.sndUsed)
    (agree : ∀ i, whole ∨ i < max snd.sndUsed tcpMss → snd'.sndb i = snd.sndb i) :
    Twin k j whole fresh { c with snd := snd } { d with snd := snd' } :=
  { twin with sndUsed := used, sndb := agree }

theorem Twin.sndAck (una : Word) (acked : Nat) :
    Twin k j whole fresh { c with sndUna := una, snd := c.snd.ack acked }
      { d with sndUna := una + k, snd := d.snd.ack acked } := by
  have moved : Twin k j whole fresh { c with sndUna := una } { d with sndUna := una + k } :=
    twin.of_stores (congrArg (fun e : TcpConn => { e with sndUna := una + k }) twin.scalars)
      twin.rtt twin.recover twin.waits rfl rfl
  refine moved.setSnd ?_ fun i need => ?_
  · simp only [TcpSnd.ack, twin.sndUsed]
  · simp only [TcpSnd.ack] at need ⊢
    split
    · -- What moves to the front was counted, and the rest stays in place.
      rw [Buffer.copyWithin_apply _ (Nat.zero_le acked), Buffer.copyWithin_apply _ (Nat.zero_le acked),
        twin.sndUsed]
      split
      · exact twin.sndb _ (.inr (by omega))
      · exact twin.sndb i (need.imp_right fun within => by omega)
    · exact twin.sndb i (need.imp_right fun within => by omega)

theorem Twin.queueSnd (data : List UInt8) (fits : c.snd.sndUsed + data.length ≤ tcpBufSize)
    (fits' : d.snd.sndUsed + data.length ≤ tcpBufSize) :
    Twin k j whole fresh (queueSnd c data fits) (queueSnd d data fits') := by
  refine twin.setSnd ?_ fun i need => ?_
  · simp only [TcpSnd.append, twin.sndUsed]
  · simp only [TcpSnd.append, twin.sndUsed] at need ⊢
    exact Buffer.write_congr _ _ fun outside =>
      twin.sndb i (need.imp_right fun within => by omega)

theorem Twin.tcpAckAdvance (ticks ack : Word) :
    Twin k j whole fresh (tcpAckAdvance ticks ack c) (tcpAckAdvance ticks (ack + k) d) := by
  have distance : (ack + k - d.sndUna).toNat = (ack - c.sndUna).toNat := by
    rw [twin.sndUna, add_sub_add_right_eq_sub]
  have settled : PlainOp k j
      (fun c => { c with dupacks := 0, rtoBackoff := noBackoff, rtoAttempts := 0 })
      fun c => { c with dupacks := 0, rtoBackoff := noBackoff, rtoAttempts := 0 } :=
    .same (fun _ => rfl) (fun _ _ _ => rfl) fun _ => rfl
  simp only [CatOs.Tcp.tcpAckAdvance, distance, twin.sndUsed]
  generalize min (ack - c.sndUna).toNat c.snd.sndUsed = acked
  have advanced := (((twin.tcpAckRtt ticks ack).sndAck ack acked).tcpTxAck ack).plain
    (plainOp_tcpAckCwnd acked)
  exact (advanced.tcpAckRecovery ack).plain settled

end Send

section Receive

variable {k j : Word} {whole fresh : Prop} {c d : TcpConn} (twin : Twin k j whole fresh c d)
include twin

theorem Twin.setRx {rx rx' : TcpRx} (count : rx'.rxn = rx.rxn)
    (agree : ∀ i, whole ∨ i < rx.rxn → rx'.rxb i = rx.rxb i) :
    Twin k j whole fresh { c with rx := rx } { d with rx := rx' } :=
  { twin with rxn := count, rxb := agree }

theorem Twin.setOoo (i : Nat) {slot slot' : OooSlot} (agree : SlotTwin j whole slot slot') :
    Twin k j whole fresh (c.setOoo i slot) (d.setOoo i slot') :=
  { twin with ooo := Buffer.update_related (SlotTwin j whole) twin.ooo i fun _ => agree }

theorem Twin.setOooBytes {bytes bytes' : Word} (same : bytes' = bytes) :
    Twin k j whole fresh { c with oooBytes := bytes } { d with oooBytes := bytes' } := by
  subst same
  exact twin.plain (f := fun e => { e with oooBytes := bytes' })
    (.same (fun _ => rfl) (fun _ _ _ => rfl) fun _ => rfl)

theorem Twin.setRcvNxt {next next' : Word} (same : next' = next + j) :
    Twin k j whole fresh { c with rcvNxt := next } { d with rcvNxt := next' } := by
  subst same
  exact twin.of_stores (congrArg (fun e : TcpConn => { e with rcvNxt := next + j }) twin.scalars)
    twin.rtt twin.recover twin.waits rfl rfl

theorem Twin.tcpRxAppend (data : List UInt8) :
    Twin k j whole fresh (tcpRxAppend c data) (tcpRxAppend d data) := by
  by_cases fits : c.rx.rxn + data.length ≤ tcpBufSize
  · have fits' : d.rx.rxn + data.length ≤ tcpBufSize := twin.rxn.symm ▸ fits
    simp only [CatOs.Tcp.tcpRxAppend, dif_pos fits, dif_pos fits']
    refine twin.setRx (congrArg (· + data.length) twin.rxn) fun i need => ?_
    simp only [twin.rxn] at need ⊢
    exact Buffer.write_congr _ _ fun outside => twin.rxb i (need.imp_right fun within => by omega)
  · have fits' : ¬d.rx.rxn + data.length ≤ tcpBufSize := twin.rxn.symm ▸ fits
    simp only [CatOs.Tcp.tcpRxAppend, dif_neg fits, dif_neg fits']
    exact twin

theorem Twin.consumeRx (n : Nat) : Twin k j whole fresh (consumeRx n c) (consumeRx n d) := by
  refine twin.setRx (congrArg (· - n) twin.rxn) fun i need => ?_
  simp only [TcpRx.consume, twin.rxn] at need ⊢
  split
  · rw [Buffer.copyWithin_apply _ (Nat.zero_le n), Buffer.copyWithin_apply _ (Nat.zero_le n)]
    split
    · exact twin.rxb _ (.inr (by omega))
    · exact twin.rxb i (need.imp_right fun within => by omega)
  · exact twin.rxb i (need.imp_right fun within => by omega)

omit twin

theorem SlotTwin.unused {x y : OooSlot} (same : SlotTwin j whole x y) :
    SlotTwin j whole { x with used := false } { y with used := false } where
  used := rfl
  seq need := same.seq (need.imp_right fun used => absurd used Bool.false_ne_true)
  len need := same.len (need.imp_right fun used => absurd used Bool.false_ne_true)
  data i need := same.data i (need.imp_right fun both => absurd both.1 Bool.false_ne_true)

include twin

theorem Twin.dropOoo {i : Nat} (within : i < tcpOooSlots) (used : (c.ooo i).used = true) :
    Twin k j whole fresh (dropOoo c i) (dropOoo d i) := by
  have slot := twin.ooo i (.inr within)
  refine (twin.setOoo i slot.unused).setOooBytes ?_
  rw [twin.oooBytes, slot.len (.inr used)]

omit twin

theorem trim_le {seq next : Word} {len : Nat} (short : len < 2 ^ 16)
    (live : tcpSeqAfter (seq + lenWord len) next = true) (stale : tcpSeqBefore seq next = true) :
    (seq + lenWord len - next).toNat % 2 ^ 16 ≤ len - (next - seq).toNat := by
  -- Seen from the start of the slot, the next expected byte lies inside the slot.
  obtain ⟨position, rfl⟩ : ∃ position, next = seq + position := ⟨next - seq, by bv_omega⟩
  have ahead : seq + lenWord len - (seq + position) = lenWord len - position := by bv_omega
  have behind : seq - (seq + position) = -position := by bv_omega
  have offset : seq + position - seq = position := by bv_omega
  rw [tcpSeqAfter, ahead, decide_eq_true_eq, BitVec.toInt_eq_toNat_cond] at live
  rw [tcpSeqBefore, behind, decide_eq_true_eq, BitVec.toInt_eq_toNat_cond] at stale
  rw [ahead, offset]
  simp only [lenWord, BitVec.toNat_sub, BitVec.toNat_neg, BitVec.toNat_ofNat] at live stale ⊢
  split at live <;> split at stale <;> omega

include twin

theorem Twin.trimOoo {i : Nat} (within : i < tcpOooSlots) (used : (c.ooo i).used = true)
    (live : tcpSeqAfter ((c.ooo i).seq + lenWord (c.ooo i).len) c.rcvNxt = true)
    (stale : tcpSeqBefore (c.ooo i).seq c.rcvNxt = true) :
    Twin k j whole fresh (trimOoo c i) (trimOoo d i) := by
  have slot := twin.ooo i (.inr within)
  have kept := trim_le (c.ooo i).len_lt live stale
  have cut : d.rcvNxt - (d.ooo i).seq = c.rcvNxt - (c.ooo i).seq := by
    rw [twin.rcvNxt, slot.seq (.inr used), add_sub_add_right_eq_sub]
  have rest : (d.ooo i).seq + lenWord (d.ooo i).len - d.rcvNxt =
      (c.ooo i).seq + lenWord (c.ooo i).len - c.rcvNxt := by
    rw [slot.seq (.inr used), slot.len (.inr used), twin.rcvNxt, shift_lenWord,
      add_sub_add_right_eq_sub]
  refine (twin.setOoo i ?_).setOooBytes (by rw [cut, twin.oooBytes])
  refine { used := slot.used, seq := fun _ => twin.rcvNxt, len := fun _ => ?_
           data := fun l need => ?_ }
  · simp only [rest]
  -- Only moved bytes are counted, and they were counted before.
  simp only [cut, slot.len (.inr used)] at need ⊢
  rw [Buffer.copyWithin_apply _ (Nat.zero_le _), Buffer.copyWithin_apply _ (Nat.zero_le _)]
  split
  · exact slot.data _ (.inr ⟨used, by omega⟩)
  · exact slot.data l (need.imp_right fun both => ⟨used, by omega⟩)

theorem Twin.giveBack (i : Nat) {x y : OooSlot} (slot : SlotTwin j whole x y) (len : y.len = x.len) :
    Twin k j whole fresh
      { c.setOoo i { x with used := false } with
        rcvNxt := c.rcvNxt + lenWord x.len, oooBytes := c.oooBytes - lenWord x.len }
      { d.setOoo i { y with used := false } with
        rcvNxt := d.rcvNxt + lenWord y.len, oooBytes := d.oooBytes - lenWord y.len } := by
  have next : d.rcvNxt + lenWord y.len = c.rcvNxt + lenWord x.len + j := by
    rw [twin.rcvNxt, len, shift_lenWord]
  exact ((twin.setOoo i slot.unused).setRcvNxt next).setOooBytes (by rw [twin.oooBytes, len])

theorem Twin.deliverOoo {i : Nat} (within : i < tcpOooSlots) (used : (c.ooo i).used = true) :
    Twin k j whole fresh (deliverOoo c i) (deliverOoo d i) := by
  have slot := twin.ooo i (.inr within)
  have len := slot.len (.inr used)
  have data : (d.ooo i).data.read 0 (d.ooo i).len = (c.ooo i).data.read 0 (c.ooo i).len := by
    rw [len]
    exact Buffer.read_congr fun l below => slot.data (0 + l) (.inr ⟨used, by omega⟩)
  have appended : Twin k j whole fresh
      (CatOs.Tcp.tcpRxAppend c ((c.ooo i).data.read 0 (c.ooo i).len))
      (CatOs.Tcp.tcpRxAppend d ((d.ooo i).data.read 0 (d.ooo i).len)) := by
    rw [data]
    exact twin.tcpRxAppend _
  exact appended.giveBack i slot len

def MergeTwin (k j : Word) (whole fresh : Prop) (x y : TcpConn × Bool) : Prop :=
  Twin k j whole fresh x.1 y.1 ∧ y.2 = x.2

theorem Twin.tryDeliverOoo {i : Nat} (within : i < tcpOooSlots) (used : (c.ooo i).used = true)
    (again : Bool) :
    MergeTwin k j whole fresh (tryDeliverOoo i c again) (tryDeliverOoo i d again) := by
  have slot := twin.ooo i (.inr within)
  simp only [CatOs.Tcp.tryDeliverOoo, slot.seq (.inr used), slot.len (.inr used), twin.rcvNxt,
    twin.rxn, ne_eq, add_left_inj]
  split
  · exact ⟨twin, rfl⟩
  split
  · exact ⟨twin, rfl⟩
  · exact ⟨twin.deliverOoo within used, rfl⟩

theorem Twin.mergeOooSlot {i : Nat} (within : i < tcpOooSlots) (again : Bool) :
    MergeTwin k j whole fresh (mergeOooSlot i (c, again)) (mergeOooSlot i (d, again)) := by
  have slot := twin.ooo i (.inr within)
  simp only [CatOs.Tcp.mergeOooSlot, slot.used]
  split
  · exact ⟨twin, rfl⟩
  · rename_i notFree
    have used : (c.ooo i).used = true := by simpa using notFree
    simp only [slot.seq (.inr used), slot.len (.inr used), twin.rcvNxt, shift_lenWord,
      tcpSeqAfter_shift, tcpSeqBefore_shift]
    split
    · exact ⟨twin.dropOoo within used, rfl⟩
    · rename_i live
      have live : tcpSeqAfter ((c.ooo i).seq + lenWord (c.ooo i).len) c.rcvNxt = true := by
        simpa using live
      split
      · rename_i stale
        -- A slot that was cut is still in use when it is handed over.
        have still : ((CatOs.Tcp.trimOoo c i).ooo i).used = true := by
          simp [CatOs.Tcp.trimOoo, TcpConn.setOoo, used]
        exact (twin.trimOoo within used live stale).tryDeliverOoo within still true
      · exact twin.tryDeliverOoo within used again

theorem Twin.tcpMergeOoo : Twin k j whole fresh (tcpMergeOoo c) (tcpMergeOoo d) := by
  refine doWhile_related (Twin k j whole fresh) (fun c d twin => ?_) _ c d twin
  -- A pass is a loop over the slots that also agrees on whether anything was done.
  have pass : MergeTwin k j whole fresh (mergeOooPass c) (mergeOooPass d) := by
    refine forRange_related (MergeTwin k j whole fresh) ⟨twin, rfl⟩ ?_
    rintro i ⟨c, again⟩ ⟨d, again'⟩ within ⟨twin, rfl : again' = again⟩
    exact Twin.mergeOooSlot twin within again'
  exact ⟨pass.1, pass.2.symm⟩

theorem Twin.findOoo {test test' : OooSlot → Bool}
    (agree : ∀ x y, SlotTwin j whole x y → test' y = test x) : findOoo d test' = findOoo c test := by
  unfold CatOs.Tcp.findOoo
  exact List.find?_congr fun i member => agree _ _ (twin.ooo i (.inr (List.mem_range.mp member)))

omit twin

theorem SlotTwin.overlapsOoo {x y : OooSlot} (same : SlotTwin j whole x y) (seq : Word) (len : Nat) :
    overlapsOoo (seq + j) len y = overlapsOoo seq len x := by
  simp only [CatOs.Tcp.overlapsOoo, same.used]
  cases used : x.used with
  | false => simp only [Bool.false_and]
  | true =>
    rw [same.seq (.inr used), same.len (.inr used), shift_lenWord, shift_lenWord, tcpSeqBefore_shift,
      tcpSeqBefore_shift]

include twin

theorem Twin.fillOoo {i : Nat} (within : i < tcpOooSlots) (seq : Word) {len : Nat}
    {data : List UInt8} (width : data.length = len) (short : len < 2 ^ 16) :
    Twin k j whole fresh (fillOoo c i seq len data) (fillOoo d i (seq + j) len data) := by
  have slot := twin.ooo i (.inr within)
  have exact_ : len % 2 ^ 16 = len := Nat.mod_eq_of_lt short
  simp only [CatOs.Tcp.fillOoo, twin.oooBytes]
  refine (twin.setOoo i ?_).setOooBytes rfl
  refine { used := rfl, seq := fun _ => rfl, len := fun _ => rfl, data := fun l need => ?_ }
  simp only at need ⊢
  exact Buffer.write_congr _ _ fun outside =>
    slot.data l (need.imp_right fun both => absurd both.2 (by omega))

theorem Twin.tcpQueueOoo (seq : Word) (data : List UInt8) :
    Twin k j whole fresh (tcpQueueOoo c seq data).1 (tcpQueueOoo d (seq + j) data).1 := by
  simp only [CatOs.Tcp.tcpQueueOoo, twin.oooBytes, twin.rcvNxt, shift_lenWord, tcpSeqAfter_shift,
    add_sub_add_right_eq_sub]
  split
  · exact twin
  rename_i accepted
  split
  · exact twin
  generalize (if tcpSeqAfter seq c.rcvNxt = true then 0 else (c.rcvNxt - seq).toNat) = trim
  -- Both find the same overlapping slot and the same free one.
  rw [twin.findOoo fun x y same => same.overlapsOoo (seq + lenWord trim) (data.length - trim),
    @Twin.findOoo k j whole fresh c d twin (fun slot => !slot.used) (fun slot => !slot.used)
      fun x y same => congrArg not same.used]
  split
  · exact twin
  · exact twin
  · rename_i free
    have width : (data.drop trim).length = data.length - trim := List.length_drop
    have within := List.mem_range.mp (List.mem_of_find?_eq_some free)
    simp only [not_or, tcpMss] at accepted
    exact twin.fillOoo within _ width (by omega)

theorem Twin.tcpAcceptData (seq : Word) (data : List UInt8) :
    Twin k j whole fresh (tcpAcceptData c seq data).1 (tcpAcceptData d (seq + j) data).1 := by
  simp only [CatOs.Tcp.tcpAcceptData, twin.rcvNxt, twin.rxn, ne_eq, add_left_inj]
  split
  · exact twin.tcpQueueOoo seq data
  split
  · have appended := twin.tcpRxAppend data
    refine (appended.setRcvNxt ?_).tcpMergeOoo
    rw [appended.rcvNxt, shift_lenWord]
  · exact twin

end Receive

end CatOs.Tcp
