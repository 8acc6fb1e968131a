import CatOs.Lib.Tiling
import CatOs.Net.Tcp.Scoreboard

/-! The scoreboard covers the data in flight without gap or overlap. -/

namespace CatOs.Tcp

open Function

def TxSeg.span (seg : TxSeg) : Word × Nat × Bool := (seg.seq, seg.len, seg.used)

structure TxTiled (base : Word) (first last : Nat) (tx : Buffer TxSeg) (txN : Nat) : Prop where
  few : txN ≤ tcpTxSegMax
  used : ∀ seg ∈ tx.read 0 txN, seg.used = true
  tiles : Tiles TxSeg.seq TxSeg.len base first last (tx.read 0 txN)

section Scoreboard

variable {base : Word} {first last : Nat} {tx : Buffer TxSeg} {txN : Nat}

theorem TxTiled.congr (tiled : TxTiled base first last tx txN) {marked : Buffer TxSeg}
    (same : ∀ i, (marked i).span = (tx i).span) : TxTiled base first last marked txN := by
  refine { few := tiled.few, used := ?_, tiles := tiled.tiles.congr ?_ }
  · intro seg member
    obtain ⟨i, within, rfl⟩ := Buffer.mem_read.mp member
    have spans := same (0 + i)
    have before := tiled.used _ (Buffer.mem_read.mpr ⟨i, within, rfl⟩)
    exact (congrArg (fun span => span.2.2) spans).trans before
  · simp only [Buffer.read, List.map_map]
    apply List.map_congr_left
    intro i _
    have spans := same (0 + i)
    exact congrArg (fun span => (span.1, span.2.1)) spans

theorem tcpTxSack_span (c : TcpConn) (i : Nat) : ((tcpTxSack c).tx i).span = (c.tx i).span := by
  refine forRange_invariant (fun _ (tx : Buffer TxSeg) => (tx i).span = (c.tx i).span) rfl ?_
  intro j tx _ same
  dsimp only
  split
  · exact same
  · rw [← same]
    by_cases here : i = j
    · subst here
      rw [update_self]
      rfl
    · rw [update_of_ne here]

theorem tcpTxClearMarks_span (c : TcpConn) (i : Nat) :
    ((tcpTxClearMarks c).tx i).span = (c.tx i).span := by
  refine forRange_invariant (fun _ (tx : Buffer TxSeg) => (tx i).span = (c.tx i).span) rfl ?_
  intro j tx _ same
  rw [← same]
  by_cases here : i = j
  · subst here
    rw [update_self]
    rfl
  · rw [update_of_ne here]

theorem span_update_retransmitted (tx : Buffer TxSeg) (i j : Nat) :
    (update tx i { tx i with retransmitted := true } j).span = (tx j).span := by
  by_cases here : j = i
  · rw [here, update_self]
    rfl
  · rw [update_of_ne here]

/-- Recording the next run of data extends what the scoreboard covers by exactly that run. -/
theorem TxTiled.add {c : TcpConn} (tiled : TxTiled base first last c.tx c.txN) {len : Nat}
    (positive : 0 < len) (short : len ≤ tcpMss) (room : last + len ≤ first + tcpBufSize) :
    TxTiled base first (last + len) (tcpTxAdd c (serial base last) len).tx
      (tcpTxAdd c (serial base last) len).txN := by
  have narrow : len % 2 ^ 16 = len := Nat.mod_eq_of_lt (by simp only [tcpMss] at short; omega)
  have few := tiled.few
  simp only [tcpTxAdd, if_neg (show ¬(len = 0 ∨ len > tcpMss) by omega)]
  split
  · -- A full scoreboard takes the run into its last entry, which ends where the run starts.
    rename_i full
    have full : c.txN = 7 + 1 := by simp only [tcpTxSegMax] at few full; omega
    have entries := tiled.tiles
    have used := tiled.used
    rw [full, Buffer.read_add, Nat.zero_add, Buffer.read_one] at entries used
    obtain ⟨middle, front, back⟩ := tiles_append.mp entries
    obtain ⟨begins, nonempty, ends⟩ := tiles_singleton.mp back
    have start := front.le
    have fits : (c.tx 7).len + len ≤ tcpBufSize := by omega
    have adjacent : serial base last = (c.tx 7).seq + lenWord (c.tx 7).len := by
      rw [begins, serial_lenWord, ends]
    simp only [tcpTxSegMax, Nat.add_one_sub_one, adjacent, fits, and_self, if_true]
    have wide : ((c.tx 7).len + len) % 2 ^ 16 = (c.tx 7).len + len :=
      Nat.mod_eq_of_lt (by simp only [tcpBufSize] at fits; omega)
    refine { few := few, used := ?_, tiles := ?_ } <;> rw [full, Buffer.read_update_snoc]
    · intro seg member
      rcases List.mem_append.mp member with before | here
      · exact used seg (List.mem_append_left _ before)
      · rw [List.mem_singleton.mp here]
        exact used (c.tx 7) (List.mem_append_right _ (List.mem_singleton.mpr rfl))
    · refine tiles_append.mpr ⟨middle, front, tiles_singleton.mpr ⟨begins, ?_, ?_⟩⟩ <;>
        simp only [wide] <;> omega
  · -- Otherwise the run becomes a new last entry.
    rename_i space
    refine { few := by show c.txN + 1 ≤ tcpTxSegMax; omega, used := ?_, tiles := ?_ } <;>
      rw [Buffer.read_update_snoc]
    · intro seg member
      rcases List.mem_append.mp member with before | here
      · exact tiled.used seg before
      · rw [List.mem_singleton.mp here]
        rfl
    · refine tiles_append.mpr ⟨last, tiled.tiles, tiles_singleton.mpr ⟨rfl, ?_, ?_⟩⟩
      · simp only [freshTxSeg, narrow]
        omega
      · simp only [freshTxSeg, narrow]

def keepTxSeg (ack : Word) (seg : TxSeg) : Option TxSeg :=
  if seg.used && tcpSeqAfter (seg.seq + lenWord seg.len) ack then some (cutTxSeg seg ack) else none

theorem ackTxSeg_loop (ack : Word) (tx : Buffer TxSeg) (count : Nat) :
    let after := forRange count (ackTxSeg ack) (tx, 0)
    after.2 ≤ count ∧
      after.1.read 0 after.2 = (tx.read 0 count).filterMap (keepTxSeg ack) := by
  -- The entries still to be looked at are untouched, since fewer were written than read.
  have loop := @forRange_invariant _ count (ackTxSeg ack) (tx, 0)
    (fun done (state : Buffer TxSeg × Nat) => state.2 ≤ done ∧
      state.1.read 0 state.2 = (tx.read 0 done).filterMap (keepTxSeg ack) ∧
      ∀ j, done ≤ j → state.1 j = tx j) ⟨Nat.le_refl 0, rfl, fun _ _ => rfl⟩ ?_
  · exact ⟨loop.1, loop.2.1⟩
  · rintro i ⟨current, out⟩ _ ⟨behind, kept, ahead⟩
    have here : current i = tx i := ahead i (Nat.le_refl i)
    simp only [Buffer.read_add tx 0 i 1, Nat.zero_add, Buffer.read_one, List.filterMap_append,
      ← kept]
    cases keep : (tx i).used && tcpSeqAfter ((tx i).seq + lenWord (tx i).len) ack with
    | false =>
      have same : ackTxSeg ack i (current, out) = (current, out) := by
        simp only [ackTxSeg, here]
        rcases Bool.and_eq_false_iff.mp keep with unused | covered
        · simp [unused]
        · simp [covered]
      rw [same]
      refine ⟨by simp only at behind ⊢; omega, by simp [keepTxSeg, keep], fun j after => ?_⟩
      exact ahead j (by omega)
    | true =>
      obtain ⟨used, beyond⟩ := Bool.and_eq_true_iff.mp keep
      simp only at behind
      simp only [ackTxSeg, here, used, beyond, Bool.not_true, Bool.false_eq_true, if_false,
        update_self]
      refine ⟨by omega, ?_, fun j after => ?_⟩
      · rw [Buffer.read_update_snoc, Buffer.read_update_past current behind]
        simp [keepTxSeg, keep]
      · rw [update_of_ne (by omega), update_of_ne (by omega)]
        exact ahead j (by omega)

theorem tcpTxAck_entries (c : TcpConn) (ack : Word) (few : c.txN ≤ tcpTxSegMax) :
    (tcpTxAck c ack).txN ≤ tcpTxSegMax ∧
      (tcpTxAck c ack).tx.read 0 (tcpTxAck c ack).txN =
        (c.tx.read 0 c.txN).filterMap (keepTxSeg ack) := by
  obtain ⟨fewer, kept⟩ := ackTxSeg_loop ack c.tx c.txN
  simp only [tcpTxAck]
  generalize forRange c.txN (ackTxSeg ack) (c.tx, 0) = result at fewer kept
  obtain ⟨tx, out⟩ := result
  simp only at fewer kept ⊢
  simp only [tcpTxSegMax] at few
  have narrow : out % 2 ^ 8 = out := Nat.mod_eq_of_lt (by omega)
  -- Clearing the unused tail does not reach the entries that were kept.
  have tail : ∀ j < out, (forRange tcpTxSegMax
      (fun i tx => if out ≤ i then update tx i { tx i with used := false } else tx)
      tx) j = tx j := by
    intro j below
    refine forRange_frame (fun (tx : Buffer TxSeg) => tx j) (fun i tx _ => ?_) tx
    split
    · exact update_of_ne (by omega) _ _
    · rfl
  rw [narrow, ← kept]
  refine ⟨by simp only [tcpTxSegMax]; omega, Buffer.read_congr fun j below => tail _ (by omega)⟩

theorem keepTxSeg_cut {seg : TxSeg} (used : seg.used = true) {position cut : Nat}
    (begins : seg.seq = serial base position) (near : position + seg.len < cut + 2 ^ 16)
    (far : cut < position + 2 ^ 31) :
    (position + seg.len ≤ cut ∧ keepTxSeg (serial base cut) seg = none) ∨
      (cut < position + seg.len ∧ ∃ rest, keepTxSeg (serial base cut) seg = some rest ∧
        rest.seq = serial base (max position cut) ∧
        rest.len = position + seg.len - max position cut) := by
  have ends : tcpSeqAfter (seg.seq + lenWord seg.len) (serial base cut) =
      decide (cut < position + seg.len) := by
    rw [begins, serial_lenWord]
    exact tcpSeqAfter_serial base (by omega) (by omega)
  have starts : tcpSeqBefore seg.seq (serial base cut) = decide (position < cut) := by
    rw [begins]
    exact tcpSeqBefore_serial base (by omega) (by omega)
  by_cases beyond : cut < position + seg.len
  · refine .inr ⟨beyond, cutTxSeg seg (serial base cut), by simp [keepTxSeg, used, ends, beyond],
      ?_⟩
    by_cases inside : position < cut
    · have rest : (seg.seq + lenWord seg.len - serial base cut).toNat = position + seg.len - cut := by
        rw [begins, serial_lenWord, serial_sub_toNat base (by omega) (by omega)]
      simp only [cutTxSeg, starts, inside, decide_true, if_true, rest]
      exact ⟨by rw [Nat.max_eq_right (by omega)], by
        rw [Nat.max_eq_right (by omega), Nat.mod_eq_of_lt (by omega)]⟩
    · simp only [cutTxSeg, starts, inside, decide_false, Bool.false_eq_true, if_false]
      rw [Nat.max_eq_left (by omega)]
      exact ⟨begins, by omega⟩
  · exact .inl ⟨by omega, by simp [keepTxSeg, ends, beyond]⟩

theorem TxTiled.ack {c : TcpConn} (tiled : TxTiled base first last c.tx c.txN) {cut : Nat}
    (room : last ≤ first + tcpBufSize) (forward : first ≤ cut) (near : cut ≤ last + 1) :
    TxTiled base cut (max last cut) (tcpTxAck c (serial base cut)).tx
      (tcpTxAck c (serial base cut)).txN := by
  obtain ⟨few, kept⟩ := tcpTxAck_entries c (serial base cut) tiled.few
  simp only [tcpBufSize] at room
  refine { few := few, used := ?_, tiles := ?_ }
  · rw [kept]
    intro rest member
    obtain ⟨seg, before, keep⟩ := List.mem_filterMap.mp member
    have used := tiled.used seg before
    simp only [keepTxSeg] at keep
    split at keep
    · cases keep
      unfold cutTxSeg
      split <;> exact used
    · cases keep
  · have remaining : Tiles TxSeg.seq TxSeg.len base (max first cut) (max last cut) _ :=
      tiled.tiles.cut fun position seg member after before begins =>
        keepTxSeg_cut (tiled.used seg member) begins (by omega) (by omega)
    rwa [← kept, Nat.max_eq_right forward] at remaining

end Scoreboard

def EntriesFit (limit : Nat) (c : TcpConn) : Prop := ∀ i < c.txN, (c.tx i).len ≤ limit

instance (limit : Nat) (c : TcpConn) : Decidable (EntriesFit limit c) :=
  inferInstanceAs (Decidable (∀ i < c.txN, _))

theorem EntriesFit.marks {limit : Nat} {c d : TcpConn} (fit : EntriesFit limit c)
    (count : d.txN = c.txN) (same : ∀ i, (d.tx i).span = (c.tx i).span) : EntriesFit limit d := by
  intro i within
  have len : (d.tx i).len = (c.tx i).len := congrArg (fun span => span.2.1) (same i)
  rw [len]
  exact fit i (count ▸ within)

theorem len_cutTxSeg_le (seg : TxSeg) (ack : Word)
    (after : tcpSeqAfter (seg.seq + lenWord seg.len) ack = true) :
    (cutTxSeg seg ack).len ≤ seg.len := by
  unfold cutTxSeg
  split
  · rename_i before
    have short := seg.len_lt
    simp only [tcpSeqBefore, tcpSeqAfter, decide_eq_true_eq] at before after
    -- The start lies behind the acknowledgement and the end ahead, so the distance shrinks.
    have ends : seg.seq + lenWord seg.len - ack = seg.seq - ack + lenWord seg.len :=
      add_sub_right_comm ..
    rw [ends] at after
    show (seg.seq + lenWord seg.len - ack).toNat % 2 ^ 16 ≤ seg.len
    rw [ends]
    have sum : (seg.seq - ack + lenWord seg.len).toNat =
        ((seg.seq - ack).toNat + seg.len) % 2 ^ 32 := by
      rw [BitVec.toNat_add, lenWord, BitVec.toNat_ofNat, Nat.mod_eq_of_lt (a := seg.len) (by omega)]
    rw [BitVec.toInt_eq_toNat_cond] at before after
    rw [sum] at after ⊢
    have bounded := (seg.seq - ack).isLt
    split at before <;> split at after <;> omega
  · exact Nat.le_refl _

theorem EntriesFit.tcpTxAck {limit : Nat} {c : TcpConn} (fit : EntriesFit limit c) (ack : Word) :
    EntriesFit limit (tcpTxAck c ack) := by
  -- Entries are only ever moved to positions that the loop has passed already.
  have loop := @forRange_invariant (Buffer TxSeg × Nat) c.txN (ackTxSeg ack) (c.tx, 0)
    (fun i state => state.2 ≤ i ∧ ∀ j < c.txN, (state.1 j).len ≤ limit) ⟨Nat.le_refl 0, fit⟩ ?_
  · obtain ⟨fewer, short⟩ := loop
    intro j within
    have kept : j < c.txN := Nat.lt_of_lt_of_le within (Nat.le_trans (Nat.mod_le _ _) fewer)
    refine Nat.le_trans (Nat.le_of_eq ?_) (short j kept)
    -- Releasing the entries that are left over changes no length.
    refine forRange_frame (fun tx : Buffer TxSeg => (tx j).len) (fun i tx _ => ?_) _
    dsimp only
    split
    · by_cases here : j = i
      · subst here
        rw [update_self]
      · rw [update_of_ne here]
    · rfl
  · rintro i ⟨tx, out⟩ within ⟨passed, short⟩
    simp only [ackTxSeg]
    split
    · exact ⟨Nat.le_succ_of_le passed, short⟩
    split
    · exact ⟨Nat.le_succ_of_le passed, short⟩
    · rename_i after
      have cut := len_cutTxSeg_le (tx i) ack (by simpa using after)
      refine ⟨Nat.succ_le_succ passed, fun j below => ?_⟩
      dsimp only
      rw [update_self]
      by_cases moved : j = out
      · rw [moved, update_self]
        exact Nat.le_trans cut (short i within)
      rw [update_of_ne moved]
      by_cases here : j = i
      · rw [here, update_self]
        exact Nat.le_trans cut (short i within)
      · rw [update_of_ne here]
        exact short j below

end CatOs.Tcp
