import CatOs.Net.Tcp.Receive
import Mathlib.Algebra.BigOperators.Group.Finset.Basic
import Mathlib.Algebra.Order.BigOperators.Group.Finset

/-! The merge of out-of-order slots ends, and ends with every slot past the next expected byte. -/

namespace CatOs.Tcp

def slotWork (c : TcpConn) (i : Nat) : Nat :=
  if (c.ooo i).used then
    tcpOooSlots + 1 + if tcpSeqBefore (c.ooo i).seq c.rcvNxt then 1 else 0
  else 0

def mergeWork (c : TcpConn) : Nat :=
  ∑ i ∈ Finset.range tcpOooSlots, slotWork c i

def Settled (c : TcpConn) (i : Nat) : Prop :=
  (c.ooo i).used → tcpSeqAfter ((c.ooo i).seq + lenWord (c.ooo i).len) c.rcvNxt = true ∧
    tcpSeqBefore (c.ooo i).seq c.rcvNxt = false

structure Waits (c : TcpConn) (i : Nat) : Prop where
  settled : Settled c i
  blocked : (c.ooo i).used = true → (c.ooo i).seq = c.rcvNxt →
    tcpBufSize < c.rx.rxn + (c.ooo i).len

theorem slotWork_le (c : TcpConn) (i : Nat) : slotWork c i ≤ tcpOooSlots + 2 := by
  simp only [slotWork]
  split
  · split <;> omega
  · omega

theorem mergeWork_lt (c : TcpConn) :
    mergeWork c < (tcpOooSlots + 1) * tcpOooSlots + tcpOooSlots + 1 := by
  have bound : mergeWork c ≤ tcpOooSlots * (tcpOooSlots + 2) := by
    simpa [mergeWork] using
      Finset.sum_le_card_nsmul (Finset.range tcpOooSlots) (slotWork c) _ fun i _ => slotWork_le c i
  simp only [tcpOooSlots] at bound ⊢
  omega

@[simp] theorem setOoo_ooo (c : TcpConn) (i j : Nat) (slot : OooSlot) :
    (c.setOoo i slot).ooo j = if j = i then slot else c.ooo j := by
  by_cases same : j = i
  · subst same
    simp [TcpConn.setOoo]
  · simp [TcpConn.setOoo, same]

theorem mergeWork_decreases {c next : TcpConn} {i : Nat} (within : i < tcpOooSlots)
    (lower : slotWork next i + tcpOooSlots < slotWork c i)
    (others : ∀ j, j ≠ i → slotWork next j ≤ slotWork c j + 1) :
    mergeWork next < mergeWork c := by
  have member : i ∈ Finset.range tcpOooSlots := Finset.mem_range.mpr within
  simp only [mergeWork]
  rw [← Finset.add_sum_erase _ _ member, ← Finset.add_sum_erase _ (slotWork c) member]
  -- There are fewer other slots than the freed slot's work outweighs.
  have rest : ∑ j ∈ (Finset.range tcpOooSlots).erase i, slotWork next j ≤
      ∑ j ∈ (Finset.range tcpOooSlots).erase i, (slotWork c j + 1) :=
    Finset.sum_le_sum fun j other => others j (Finset.ne_of_mem_erase other)
  have count : ((Finset.range tcpOooSlots).erase i).card = tcpOooSlots - 1 := by
    rw [Finset.card_erase_of_mem member, Finset.card_range]
  rw [Finset.sum_add_distrib, Finset.sum_const, count, nsmul_one, Nat.cast_id] at rest
  omega

theorem mergeWork_decreases_of_frame {c next : TcpConn} {i : Nat} (within : i < tcpOooSlots)
    (lower : slotWork next i < slotWork c i)
    (others : ∀ j, j ≠ i → slotWork next j = slotWork c j) :
    mergeWork next < mergeWork c := by
  refine Finset.sum_lt_sum (fun j _ => ?_) ⟨i, Finset.mem_range.mpr within, lower⟩
  by_cases same : j = i
  · rw [same]
    exact Nat.le_of_lt lower
  · exact Nat.le_of_eq (others j same)

theorem mergeWork_dropOoo {c : TcpConn} {i : Nat} (within : i < tcpOooSlots)
    (used : (c.ooo i).used = true) : mergeWork (dropOoo c i) < mergeWork c := by
  apply mergeWork_decreases_of_frame within
  · simp only [slotWork, dropOoo, setOoo_ooo, used]
    simp
  · intro j other
    simp only [slotWork, dropOoo, setOoo_ooo, if_neg other]
    rfl

theorem mergeWork_trimOoo {c : TcpConn} {i : Nat} (within : i < tcpOooSlots)
    (used : (c.ooo i).used = true) (stale : tcpSeqBefore (c.ooo i).seq c.rcvNxt = true) :
    mergeWork (trimOoo c i) < mergeWork c := by
  apply mergeWork_decreases_of_frame within
  · have fresh : tcpSeqBefore c.rcvNxt c.rcvNxt = false := by simp [tcpSeqBefore]
    simp only [slotWork, trimOoo, setOoo_ooo, used, stale]
    simp [TcpConn.setOoo, fresh]
  · intro j other
    simp only [slotWork, trimOoo, setOoo_ooo, if_neg other]
    rfl

@[simp] theorem tcpRxAppend_ooo (c : TcpConn) (data : List UInt8) :
    (tcpRxAppend c data).ooo = c.ooo := by
  unfold tcpRxAppend
  split <;> rfl

theorem mergeWork_deliverOoo {c : TcpConn} {i : Nat} (within : i < tcpOooSlots)
    (used : (c.ooo i).used = true) : mergeWork (deliverOoo c i) < mergeWork c := by
  apply mergeWork_decreases within
  · have freed : slotWork (deliverOoo c i) i = 0 := by simp [slotWork, deliverOoo]
    have before : tcpOooSlots + 1 ≤ slotWork c i := by simp [slotWork, used]
    omega
  · intro j other
    simp only [slotWork, deliverOoo, setOoo_ooo, tcpRxAppend_ooo, if_neg other]
    split
    · split <;> split <;> omega
    · omega

/-- One slot either is left alone because it has to wait, or the step makes progress. -/
theorem mergeOooSlot_progress (c : TcpConn) {i : Nat} (within : i < tcpOooSlots) (again : Bool) :
    (mergeOooSlot i (c, again) = (c, again) ∧ Waits c i) ∨
      ((mergeOooSlot i (c, again)).2 = true ∧
        mergeWork (mergeOooSlot i (c, again)).1 < mergeWork c) := by
  cases used : (c.ooo i).used with
  | false =>
    refine .inl ⟨by simp [mergeOooSlot, used], fun claimed => ?_, fun claimed => ?_⟩
    · simp [used] at claimed
    · simp [used] at claimed
  | true =>
    cases live : tcpSeqAfter ((c.ooo i).seq + lenWord (c.ooo i).len) c.rcvNxt with
    | false =>
      have dropped : mergeOooSlot i (c, again) = (dropOoo c i, true) := by
        simp [mergeOooSlot, used, live]
      rw [dropped]
      exact .inr ⟨rfl, mergeWork_dropOoo within used⟩
    | true =>
      cases stale : tcpSeqBefore (c.ooo i).seq c.rcvNxt with
      | true =>
        have step : mergeOooSlot i (c, again) = tryDeliverOoo i (trimOoo c i) true := by
          simp [mergeOooSlot, used, live, stale]
        have trimmed := mergeWork_trimOoo within used stale
        have still : ((trimOoo c i).ooo i).used = true := by simp [trimOoo, used]
        rw [step, tryDeliverOoo]
        refine .inr ?_
        -- Whether or not the trimmed slot is delivered, the trim alone was progress.
        split
        · exact ⟨rfl, trimmed⟩
        · split
          · exact ⟨rfl, trimmed⟩
          · exact ⟨rfl, Nat.lt_trans (mergeWork_deliverOoo within still) trimmed⟩
      | false =>
        have step : mergeOooSlot i (c, again) = tryDeliverOoo i c again := by
          simp [mergeOooSlot, used, live, stale]
        rw [step, tryDeliverOoo]
        split
        · rename_i hole
          exact .inl ⟨rfl, fun _ => ⟨live, stale⟩, fun _ turn => absurd turn hole⟩
        · split
          · rename_i full
            exact .inl ⟨rfl, fun _ => ⟨live, stale⟩, fun _ _ => full⟩
          · exact .inr ⟨rfl, mergeWork_deliverOoo within used⟩

theorem mergeOooPass_progress (c : TcpConn) :
    ((mergeOooPass c).2 = false → (mergeOooPass c).1 = c ∧ ∀ i < tcpOooSlots, Waits c i) ∧
      ((mergeOooPass c).2 = true → mergeWork (mergeOooPass c).1 < mergeWork c) := by
  -- While nothing has been done the connection is the one the pass started from.
  have pass := @forRange_invariant _ tcpOooSlots mergeOooSlot (c, false)
    (fun done (state : TcpConn × Bool) =>
      (state.2 = false → state.1 = c ∧ ∀ i < done, Waits c i) ∧
        (state.2 = true → mergeWork state.1 < mergeWork c))
    ⟨fun _ => ⟨rfl, by simp⟩, by simp⟩ ?_
  · exact pass
  · rintro i ⟨current, again⟩ within ⟨idle, busy⟩
    rcases mergeOooSlot_progress current within again with ⟨same, settled⟩ | ⟨set, lower⟩
    · rw [same]
      refine ⟨fun stopped => ?_, busy⟩
      obtain ⟨unchanged, earlier⟩ := idle stopped
      have unchanged : current = c := unchanged
      subst unchanged
      refine ⟨rfl, fun j below => ?_⟩
      rcases Nat.lt_succ_iff_lt_or_eq.mp below with before | rfl
      · exact earlier j before
      · exact settled
    · refine ⟨fun stopped => by simp [stopped] at set, fun _ => ?_⟩
      cases again with
      | false =>
        obtain ⟨unchanged, -⟩ := idle rfl
        have unchanged : current = c := unchanged
        subst unchanged
        exact lower
      | true => exact Nat.lt_trans lower (busy rfl)

theorem tcpMergeOoo_waits (holds : TcpConn → Prop)
    (preserved : ∀ i c again, i < tcpOooSlots → holds c → holds (mergeOooSlot i (c, again)).1)
    {c : TcpConn} (initially : holds c) :
    holds (tcpMergeOoo c) ∧ ∀ i < tcpOooSlots, Waits (tcpMergeOoo c) i := by
  have pass : ∀ c, holds c → holds (mergeOooPass c).1 := fun c held =>
    forRange_invariant (fun _ (state : TcpConn × Bool) => holds state.1) held
      fun i state within current => preserved i state.1 state.2 within current
  obtain ⟨last, held, stopped, result⟩ := doWhile_exits holds mergeWork pass
    (fun state _ again => (mergeOooPass_progress state).2 again) _ c initially (mergeWork_lt c)
  obtain ⟨unchanged, settled⟩ := (mergeOooPass_progress last).1 stopped
  have ended : tcpMergeOoo c = last := result.trans unchanged
  rw [ended]
  exact ⟨held, settled⟩

/-- What dropping, trimming and delivering a slot keep, the merge keeps, and every slot waits. -/
theorem tcpMergeOoo_keeps (holds : TcpConn → Prop)
    (dropped : ∀ c i, i < tcpOooSlots → (c.ooo i).used = true → holds c → holds (dropOoo c i))
    (trimmed : ∀ c i, i < tcpOooSlots → (c.ooo i).used = true →
      tcpSeqAfter ((c.ooo i).seq + lenWord (c.ooo i).len) c.rcvNxt = true →
      tcpSeqBefore (c.ooo i).seq c.rcvNxt = true → holds c → holds (trimOoo c i))
    (delivered : ∀ c i, i < tcpOooSlots → (c.ooo i).used = true → (c.ooo i).seq = c.rcvNxt →
      c.rx.rxn + (c.ooo i).len ≤ tcpBufSize → holds c → holds (deliverOoo c i))
    {c : TcpConn} (initially : holds c) :
    holds (tcpMergeOoo c) ∧ ∀ i < tcpOooSlots, Waits (tcpMergeOoo c) i := by
  -- Handing over is the same step whether or not the slot was trimmed first.
  have handOver : ∀ i c again, i < tcpOooSlots → (c.ooo i).used = true → holds c →
      holds (tryDeliverOoo i c again).1 := by
    intro i c again within used held
    unfold tryDeliverOoo
    split
    · exact held
    · rename_i turn
      split
      · exact held
      · rename_i room
        exact delivered c i within used (by simpa using turn) (by omega) held
  refine tcpMergeOoo_waits holds ?_ initially
  intro i c again within held
  simp only [mergeOooSlot]
  split
  · exact held
  · rename_i used
    have used : (c.ooo i).used = true := by simpa using used
    split
    · exact dropped c i within used held
    · rename_i live
      have live : tcpSeqAfter ((c.ooo i).seq + lenWord (c.ooo i).len) c.rcvNxt = true := by
        simpa using live
      split
      · rename_i stale
        have still : ((trimOoo c i).ooo i).used = true := by simp [trimOoo, used]
        exact handOver i _ _ within still (trimmed c i within used live stale held)
      · exact handOver i c again within used held

theorem tcpMergeOoo_ends (c : TcpConn) (extra : Nat) :
    doWhile mergeOooPass ((tcpOooSlots + 1) * tcpOooSlots + tcpOooSlots + 1 + extra) c =
      tcpMergeOoo c :=
  doWhile_fuel mergeWork (fun state again => (mergeOooPass_progress state).2 again) _ extra c
    (mergeWork_lt c)

end CatOs.Tcp
