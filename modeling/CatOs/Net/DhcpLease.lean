import CatOs.Net.DhcpLaws

/-! The lifetime of a lease: when it is renewed, when it ends, and which leases end too early. -/

namespace CatOs.Net

def ticksFrom (conf : DhcpConf) (start : Word) (ids : Nat → Half) (c : DhcpClient) :
    Nat → DhcpClient
  | 0 => dhcpTick conf ⟨start, ids 0⟩ c
  | k + 1 => dhcpTick conf ⟨serial start (k + 1), ids (k + 1)⟩ (ticksFrom conf start ids c k)

def rebindAt (times : LeaseTimes) : Nat :=
  max times.r2.toNat (times.r1.toNat + 1)

structure LeaseLifetime (times : LeaseTimes) (address : Word) (run : Nat → DhcpClient) :
    Prop where
  kept : ∀ k, k < times.lt.toNat → (run k).gIp = address
  bound : ∀ k, k < times.lt.toNat → k < times.r1.toNat → (run k).state = .bound
  renewing : ∀ k, k < times.lt.toNat → times.r1.toNat ≤ k → k < rebindAt times →
    (run k).state = .renewing
  rebinding : ∀ k, k < times.lt.toNat → rebindAt times ≤ k → (run k).state = .rebinding
  cleared : (run times.lt.toNat).state = .waitOffer ∧ (run times.lt.toNat).gIp = 0

theorem dueBy_offset (start offset : Word) (k : Nat) (positive : 1 ≤ offset.toNat)
    (half : offset.toNat ≤ 2147483648) (near : k ≤ 2147483648) :
    dueBy (serial start k) (start + offset) = decide (offset.toNat ≤ k) := by
  -- The start cancels, and the signed distance of the two offsets does not overflow.
  have cancelled : serial start k - (start + offset) = BitVec.ofNat 32 k - offset := by
    rw [serial, add_sub_add_left_eq_sub]
  have distance : (BitVec.ofNat 32 k - offset).toInt = (k : Int) - offset.toNat := by
    rw [BitVec.toInt_sub, BitVec.toInt_ofNat', BitVec.toInt_eq_toNat_bmod, ← Int.sub_bmod]
    exact Int.bmod_eq_of_le_mul_two (by omega) (by omega)
  rw [dueBy, cancelled, distance, decide_eq_decide]
  omega

theorem dueBy_beyond_half (start offset : Word) (beyond : 2147483648 < offset.toNat) :
    dueBy start (start + offset) = true := by
  -- The distance wraps to a small positive number.
  have cancelled : start - (start + offset) = -offset := by rw [sub_add_cancel_left]
  have size := offset.isLt
  have wrapped : (-offset).toNat = 4294967296 - offset.toNat := by
    rw [BitVec.toNat_neg]
    omega
  rw [dueBy, cancelled, BitVec.toInt_eq_toNat_of_lt (by omega), decide_eq_true_eq]
  omega

theorem acquireTick_of_not_acquiring (conf : DhcpConf) (env : DhcpEnv) {c : DhcpClient}
    (settled : acquiring c.state = false) : acquireTick conf env c = c := by
  rw [acquireTick, settled, Bool.false_and]
  rfl

theorem acquireTick_leaseExpired (conf : DhcpConf) (env : DhcpEnv) (c : DhcpClient) :
    acquireTick conf env (dhcpLeaseExpired conf env c) = dhcpLeaseExpired conf env c := by
  -- The message that was just sent is less than its wait of two seconds old.
  have fresh : retryDue env (dhcpLeaseExpired conf env c) = false := by
    simp [retryDue, dhcpLeaseExpired, dhcpSend, dhcpRetryBaseSecs]
  rw [acquireTick, fresh, Bool.and_false]
  rfl

section Lifetime

variable (conf : DhcpConf) {start : Word} {times : LeaseTimes} {address : Word}

structure Under (start : Word) (times : LeaseTimes) (address : Word) (state : DhcpState)
    (c : DhcpClient) : Prop where
  state : c.state = state
  gIp : c.gIp = address
  t1 : c.t1Due = start + times.r1
  t2 : c.t2Due = start + times.r2
  expire : c.expireDue = start + times.lt

structure Short (times : LeaseTimes) : Prop where
  r1_pos : 1 ≤ times.r1.toNat
  r1_le_r2 : times.r1.toNat ≤ times.r2.toNat
  r2_le_lt : times.r2.toNat ≤ times.lt.toNat
  half : times.lt.toNat ≤ 2147483648

def phase (times : LeaseTimes) (k : Nat) : DhcpState :=
  if k < times.r1.toNat then .bound
  else if k < rebindAt times then .renewing
  else .rebinding

def phaseBefore (times : LeaseTimes) : Nat → DhcpState
  | 0 => .bound
  | k + 1 => phase times k

theorem phaseBefore_eq (times : LeaseTimes) (k : Nat) :
    phaseBefore times k =
      if k ≤ times.r1.toNat then .bound else if k ≤ rebindAt times then .renewing
      else .rebinding := by
  cases k with
  | zero => rfl
  | succ k => rfl

/-- Before the end of a lease the tick at an offset leads to the state of that offset. -/
theorem Under.tick (short : Short times) (env : DhcpEnv) {c : DhcpClient} {k : Nat}
    (under : Under start times address (phaseBefore times k) c)
    (now : env.ticks = serial start k) (before : k < times.lt.toNat) :
    Under start times address (phase times k) (dhcpTick conf env c) := by
  obtain ⟨state, gIp, t1, t2, expire⟩ := under
  have first := short.r1_pos
  have second := short.r1_le_r2
  have third := short.r2_le_lt
  have half := short.half
  have running : dueBy env.ticks c.expireDue = false := by
    rw [now, expire, dueBy_offset start times.lt k (by omega) half (by omega)]
    exact decide_eq_false (by omega)
  have renew : dueBy env.ticks c.t1Due = decide (times.r1.toNat ≤ k) := by
    rw [now, t1, dueBy_offset start times.r1 k first (by omega) (by omega)]
  have rebind : dueBy env.ticks c.t2Due = decide (times.r2.toNat ≤ k) := by
    rw [now, t2, dueBy_offset start times.r2 k (by omega) (by omega) (by omega)]
  rw [phaseBefore_eq times k] at state
  have widest : rebindAt times = max times.r2.toNat (times.r1.toNat + 1) := rfl
  unfold dhcpTick leaseTick phase
  by_cases early : k ≤ times.r1.toNat
  · -- The lease has not been renewed yet: this is the tick of the first renewal, or before it.
    rw [if_pos early] at state
    simp only [state, running, renew, Bool.false_eq_true, if_false, decide_eq_true_eq]
    by_cases due : times.r1.toNat ≤ k
    · rw [if_pos due, if_neg (by omega), if_pos (by omega),
        acquireTick_of_not_acquiring conf env (by rfl)]
      exact ⟨rfl, gIp, t1, t2, expire⟩
    · rw [if_neg due, if_pos (by omega),
        acquireTick_of_not_acquiring conf env (by rw [state]; rfl)]
      exact ⟨state, gIp, t1, t2, expire⟩
  rw [if_neg early] at state
  by_cases middle : k ≤ rebindAt times
  · rw [if_pos middle] at state
    simp only [state, running, rebind, Bool.false_eq_true, if_false, decide_eq_true_eq]
    by_cases due : times.r2.toNat ≤ k
    · rw [if_pos due, if_neg (by omega), if_neg (by omega),
        acquireTick_of_not_acquiring conf env (by rfl)]
      exact ⟨rfl, gIp, t1, t2, expire⟩
    · rw [if_neg due, if_neg (by omega), if_pos (by omega)]
      by_cases again : retryDue env c = true
      · rw [if_pos again, acquireTick_of_not_acquiring conf env
          (by simp [repeatRequest, dhcpSend, state, acquiring])]
        exact ⟨state, gIp, t1, t2, expire⟩
      · rw [if_neg again, acquireTick_of_not_acquiring conf env (by rw [state]; rfl)]
        exact ⟨state, gIp, t1, t2, expire⟩
  · -- Once everyone has been asked, only the requests are repeated.
    rw [if_neg middle] at state
    simp only [state, running, Bool.false_eq_true, if_false]
    rw [if_neg (by omega), if_neg (by omega)]
    by_cases again : retryDue env c = true
    · rw [if_pos again, acquireTick_of_not_acquiring conf env
        (by simp [repeatRequest, dhcpSend, state, acquiring])]
      exact ⟨state, gIp, t1, t2, expire⟩
    · rw [if_neg again, acquireTick_of_not_acquiring conf env (by rw [state]; rfl)]
      exact ⟨state, gIp, t1, t2, expire⟩

theorem dhcpTick_expired (conf : DhcpConf) (env : DhcpEnv) {c : DhcpClient}
    (lease : leased c.state = true) (ended : dueBy env.ticks c.expireDue = true) :
    dhcpTick conf env c = dhcpLeaseExpired conf env c := by
  have given : leaseTick conf env c = dhcpLeaseExpired conf env c := by
    unfold leaseTick
    cases state : c.state <;> simp_all [leased]
  rw [dhcpTick, given, acquireTick_leaseExpired]

theorem leased_phaseBefore (times : LeaseTimes) (k : Nat) :
    leased (phaseBefore times k) = true := by
  cases k with
  | zero => rfl
  | succ k =>
    simp only [phaseBefore, phase]
    split_ifs <;> rfl

theorem Under.run (short : Short times) (ids : Nat → Half) {c : DhcpClient}
    (under : Under start times address .bound c) (k : Nat) (before : k < times.lt.toNat) :
    Under start times address (phase times k) (ticksFrom conf start ids c k) := by
  induction k with
  | zero => exact under.tick conf short ⟨start, ids 0⟩ (serial_zero start).symm before
  | succ k ih => exact (ih (by omega)).tick conf short ⟨serial start (k + 1), ids (k + 1)⟩ rfl before

theorem Under.ended (short : Short times) (ids : Nat → Half) {c : DhcpClient}
    (under : Under start times address .bound c) :
    (ticksFrom conf start ids c times.lt.toNat).state = .waitOffer ∧
      (ticksFrom conf start ids c times.lt.toNat).gIp = 0 := by
  have first := short.r1_pos
  have second := short.r1_le_r2
  have third := short.r2_le_lt
  -- The lease is at least one tick long, so a tick before its end has been taken.
  obtain ⟨k, last⟩ : ∃ k, times.lt.toNat = k + 1 := ⟨times.lt.toNat - 1, by omega⟩
  have held := under.run conf short ids k (by omega)
  rw [last, ticksFrom, dhcpTick_expired]
  · exact ⟨rfl, rfl⟩
  · rw [held.state]
    exact leased_phaseBefore times (k + 1)
  · rw [held.expire, dueBy_offset start times.lt (k + 1) (by omega) short.half
      (by have := short.half; omega)]
    exact decide_eq_true (by omega)

end Lifetime

theorem dhcpHandle_ack (conf : DhcpConf) (env : DhcpEnv) (d : List UInt8) (c : DhcpClient)
    (accepted : acceptsAck conf d c = true) :
    dhcpHandle conf env d c =
      takeAck conf env d (dhcpParse d c) (storeOptions (dhcpParse d c) c) := by
  simp only [acceptsAck, Bool.and_eq_true, beq_iff_eq] at accepted
  obtain ⟨⟨reply, type⟩, awaits⟩ := accepted
  simp [dhcpHandle, reply, type, awaits]

/-- A lease lives as long as it should exactly when it is at most half the number space long. -/
theorem lease_lifetime_iff (conf : DhcpConf) (env : DhcpEnv) (d : List UInt8) (c : DhcpClient)
    (ids : Nat → Half) (accepted : acceptsAck conf d c = true)
    (lease : (dhcpParse d c).opt51 ≠ 0) :
    LeaseLifetime
        (leaseTimes conf (dhcpParse d c).opt51 (dhcpParse d c).opt58 (dhcpParse d c).opt59)
        (le32 (d.drop 16)) (ticksFrom conf env.ticks ids (dhcpHandle conf env d c)) ↔
      (leaseTimes conf (dhcpParse d c).opt51 (dhcpParse d c).opt58
        (dhcpParse d c).opt59).lt.toNat ≤ 2147483648 := by
  rw [dhcpHandle_ack conf env d c accepted]
  obtain ⟨first, second, third⟩ := leaseTimes_ordered conf (dhcpParse d c).opt51
    (dhcpParse d c).opt58 (dhcpParse d c).opt59
  have under : Under env.ticks (leaseTimes conf (dhcpParse d c).opt51 (dhcpParse d c).opt58
      (dhcpParse d c).opt59) (le32 (d.drop 16)) .bound
      (takeAck conf env d (dhcpParse d c) (storeOptions (dhcpParse d c) c)) := by
    rw [takeAck_leased conf env d _ _ lease]
    exact ⟨rfl, rfl, rfl, rfl, rfl⟩
  generalize leaseTimes conf _ _ _ = times at first second third under ⊢
  generalize takeAck conf env d _ _ = held at under ⊢
  rw [BitVec.le_def] at first second third
  have one : (1 : Word).toNat = 1 := rfl
  rw [one] at first
  constructor
  · -- A longer lease looks over at once, in the very tick of the acknowledgement.
    intro lifetime
    by_contra beyond
    have bound := lifetime.bound 0 (by omega) (by omega)
    rw [ticksFrom, dhcpTick_expired conf _ (by rw [under.state]; rfl)
      (by rw [under.expire]; exact dueBy_beyond_half env.ticks times.lt (by omega))] at bound
    cases bound
  · intro half
    have short : Short times := ⟨first, second, third, half⟩
    have run := fun k before => under.run conf short ids k before
    refine ⟨fun k before => (run k before).gIp, ?_, ?_, ?_, under.ended conf short ids⟩
    · intro k before early
      rw [(run k before).state, phase, if_pos early]
    · intro k before renewed early
      rw [(run k before).state, phase, if_neg (by omega), if_pos early]
    · intro k before late
      have widest : rebindAt times = max times.r2.toNat (times.r1.toNat + 1) := rfl
      rw [(run k before).state, phase, if_neg (by omega), if_neg (by omega)]

def ackFor (secs : Word) : List UInt8 :=
  replyBytes 0 0x0100000A ([53, 1, 5, 51, 4] ++ Tcp.be32Bytes secs ++ [255])

/-- A lease of an hour lives as long as it should. -/
theorem lease_lifetime_hour :
    LeaseLifetime (leaseTimes plainConf 3600 0 0) 0x0100000A
      (ticksFrom plainConf 0 (fun _ => 0)
        (dhcpHandle plainConf ⟨0, 0⟩ (ackFor 3600) (blankClient .waitAck))) := by
  have lease : (dhcpParse (ackFor 3600) (blankClient .waitAck)).opt51 = 3600 := by
    decide +kernel
  have noT1 : (dhcpParse (ackFor 3600) (blankClient .waitAck)).opt58 = 0 := by decide +kernel
  have noT2 : (dhcpParse (ackFor 3600) (blankClient .waitAck)).opt59 = 0 := by decide +kernel
  have address : le32 ((ackFor 3600).drop 16) = 0x0100000A := by decide +kernel
  have lifetime := lease_lifetime_iff plainConf ⟨0, 0⟩ (ackFor 3600) (blankClient .waitAck)
    (fun _ => 0) (by decide +kernel) (by decide +kernel)
  rw [lease, noT1, noT2, address] at lifetime
  exact lifetime.mpr (by decide +kernel)

/-- A lease without end is given up in the tick in which it was acknowledged. -/
theorem infinite_lease_expires :
    acceptsAck plainConf (ackFor 0xFFFFFFFF) (blankClient .waitAck) = true ∧
      (dhcpHandle plainConf ⟨0, 0⟩ (ackFor 0xFFFFFFFF) (blankClient .waitAck)).gIp =
        0x0100000A ∧
      (dhcpTick plainConf ⟨0, 0⟩
        (dhcpHandle plainConf ⟨0, 0⟩ (ackFor 0xFFFFFFFF) (blankClient .waitAck))).state =
        .waitOffer ∧
      (dhcpTick plainConf ⟨0, 0⟩
        (dhcpHandle plainConf ⟨0, 0⟩ (ackFor 0xFFFFFFFF) (blankClient .waitAck))).gIp = 0 := by
  decide +kernel

end CatOs.Net
