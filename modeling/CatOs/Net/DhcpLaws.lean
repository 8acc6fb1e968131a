import CatOs.Net.Dhcp
import CatOs.Lib.Run

/-! What the address client keeps: its configuration when it ignores a message, and its lease. -/

namespace CatOs.Net

open Tcp (be32 be32Bytes)

def acceptsType (state : DhcpState) (mt : UInt8) : Bool :=
  mt == 6 || (mt == 2 && state == .waitOffer) || (mt == 5 && awaitsAck state)

def accepts (conf : DhcpConf) (d : List UInt8) (c : DhcpClient) : Bool :=
  dhcpReply conf d c && acceptsType c.state (dhcpParse d c).mt

def acceptsAck (conf : DhcpConf) (d : List UInt8) (c : DhcpClient) : Bool :=
  dhcpReply conf d c && (dhcpParse d c).mt == 5 && awaitsAck c.state

theorem dhcpHandle_cases (conf : DhcpConf) (env : DhcpEnv) (d : List UInt8) (c : DhcpClient) :
    (dhcpReply conf d c = false ∧ dhcpHandle conf env d c = c) ∨
    (dhcpReply conf d c = true ∧ acceptsType c.state (dhcpParse d c).mt = false ∧
      dhcpHandle conf env d c = storeOptions (dhcpParse d c) c) ∨
    ((dhcpParse d c).mt = 6 ∧ accepts conf d c = true ∧
      dhcpHandle conf env d c = dhcpLeaseExpired conf env (storeOptions (dhcpParse d c) c)) ∨
    ((dhcpParse d c).mt = 2 ∧ c.state = .waitOffer ∧ accepts conf d c = true ∧
      dhcpHandle conf env d c = takeOffer conf env d (storeOptions (dhcpParse d c) c)) ∨
    (acceptsAck conf d c = true ∧ accepts conf d c = true ∧
      dhcpHandle conf env d c =
        takeAck conf env d (dhcpParse d c) (storeOptions (dhcpParse d c) c)) := by
  -- The cases are the branches of the handler, in the order in which it tries them.
  unfold dhcpHandle accepts acceptsAck acceptsType
  cases reply : dhcpReply conf d c with
  | false => exact .inl ⟨rfl, if_neg Bool.false_ne_true⟩
  | true =>
    rw [if_pos rfl]
    by_cases nak : (dhcpParse d c).mt = 6
    · exact .inr (.inr (.inl ⟨nak, by simp [nak], if_pos nak⟩))
    by_cases offer : (dhcpParse d c).mt = 2 ∧ c.state = .waitOffer
    · refine .inr (.inr (.inr (.inl ⟨offer.1, offer.2, by simp [offer.1, offer.2], ?_⟩)))
      rw [if_neg nak, if_pos offer]
    by_cases ack : (dhcpParse d c).mt = 5 ∧ awaitsAck c.state = true
    · refine .inr (.inr (.inr (.inr ⟨by simp [ack.1, ack.2], by simp [ack.1, ack.2], ?_⟩)))
      rw [if_neg nak, if_neg offer, if_pos ack]
    · refine .inr (.inl ⟨rfl, ?_, ?_⟩)
      · simp only [not_and, Bool.not_eq_true] at offer ack
        simpa [nak] using ⟨offer, ack⟩
      · rw [if_neg nak, if_neg offer, if_neg ack]

section Options

def announced (code : UInt8) (fits : Nat → Bool) (options : List DhcpOption) : Option Word :=
  (options.reverse.find? fun o => o.code == code && fits o.data.length).map fun o => le32 o.data

theorem foldl_readOption (field : DhcpParsed → Word) (code : UInt8) (fits : Nat → Bool)
    (reads : ∀ p o, field (readOption p o) =
      if o.code = code ∧ fits o.data.length = true then le32 o.data else field p)
    (options : List DhcpOption) (p : DhcpParsed) :
    field (options.foldl readOption p) = (announced code fits options).getD (field p) := by
  -- The last option decides if it is of the kind, and otherwise the ones before it do.
  induction options using List.reverseRecOn with
  | nil => rfl
  | append_singleton options last ih =>
    rw [List.foldl_append, List.foldl_cons, List.foldl_nil, reads, announced,
      List.reverse_append, List.reverse_singleton, List.singleton_append, List.find?_cons]
    by_cases kind : last.code = code ∧ fits last.data.length = true
    · simp [kind]
    · rw [if_neg kind, ih]
      have skipped : (last.code == code && fits last.data.length) = false := by
        simpa using kind
      rw [skipped]
      rfl

theorem readOption_server (p : DhcpParsed) (o : DhcpOption) :
    (readOption p o).server =
      if o.code = 54 ∧ (o.data.length == 4) = true then le32 o.data else p.server := by
  simp only [readOption, beq_iff_eq]
  split_ifs <;> simp_all

theorem readOption_mask (p : DhcpParsed) (o : DhcpOption) :
    (readOption p o).mask =
      if o.code = 1 ∧ (o.data.length == 4) = true then le32 o.data else p.mask := by
  simp only [readOption, beq_iff_eq]
  split_ifs <;> simp_all

theorem readOption_gw (p : DhcpParsed) (o : DhcpOption) :
    (readOption p o).gw =
      if o.code = 3 ∧ decide (4 ≤ o.data.length) = true then le32 o.data else p.gw := by
  simp only [readOption, decide_eq_true_eq]
  split_ifs <;> simp_all

theorem readOption_dns (p : DhcpParsed) (o : DhcpOption) :
    (readOption p o).dns =
      if o.code = 6 ∧ (o.data.length == 4) = true then le32 o.data else p.dns := by
  simp only [readOption, beq_iff_eq]
  split_ifs <;> simp_all

structure RepeatsConfig (d : List UInt8) (c : DhcpClient) : Prop where
  server : ∀ v, announced 54 (· == 4) (datagramOptions d) = some v → v = c.server
  mask : ∀ v, announced 1 (· == 4) (datagramOptions d) = some v → v = c.mask
  gw : ∀ v, announced 3 (4 ≤ ·) (datagramOptions d) = some v → v = c.gw
  dns : ∀ v, announced 6 (· == 4) (datagramOptions d) = some v → v = c.gDns

theorem getD_eq_self_iff {found : Option Word} {current : Word} :
    found.getD current = current ↔ ∀ v, found = some v → v = current := by
  cases found <;> simp

theorem storeOptions_eq_self_iff (d : List UInt8) (c : DhcpClient) :
    storeOptions (dhcpParse d c) c = c ↔ RepeatsConfig d c := by
  -- Each of the four variables ends with the last value announced for it.
  have server : (dhcpParse d c).server = _ :=
    foldl_readOption DhcpParsed.server 54 (· == 4) readOption_server (datagramOptions d) _
  have mask : (dhcpParse d c).mask = _ :=
    foldl_readOption DhcpParsed.mask 1 (· == 4) readOption_mask (datagramOptions d) _
  have gw : (dhcpParse d c).gw = _ :=
    foldl_readOption DhcpParsed.gw 3 (4 ≤ ·) readOption_gw (datagramOptions d) _
  have dns : (dhcpParse d c).dns = _ :=
    foldl_readOption DhcpParsed.dns 6 (· == 4) readOption_dns (datagramOptions d) _
  have fields : storeOptions (dhcpParse d c) c = c ↔
      (dhcpParse d c).server = c.server ∧ (dhcpParse d c).mask = c.mask ∧
        (dhcpParse d c).gw = c.gw ∧ (dhcpParse d c).dns = c.gDns := by
    rw [DhcpClient.ext_iff]
    simp [storeOptions]
  rw [fields, server, mask, gw, dns]
  simp only [getD_eq_self_iff]
  constructor
  · intro same
    exact ⟨same.1, same.2.1, same.2.2.1, same.2.2.2⟩
  · intro repeated
    exact ⟨repeated.server, repeated.mask, repeated.gw, repeated.dns⟩

end Options

section Ignored

def plainConf : DhcpConf where
  gMac := fun _ => 0
  leaseScale := 1
  leaseScale_ne_zero := by decide

def replyBytes (xid address : Word) (options : List UInt8) : List UInt8 :=
  [2, 1, 6, 0] ++ be32Bytes xid ++ List.replicate 8 0 ++ le32Bytes address ++
    List.replicate 216 0 ++ [99, 130, 83, 99] ++ options

def blankClient (state : DhcpState) : DhcpClient where
  xid := 0
  offer := 0
  server := 0
  mask := 0
  gw := 0
  last := 0
  wait := 0
  ciaddr := 0
  state := state
  retries := 0
  t1Due := 0
  t2Due := 0
  expireDue := 0
  timed := false
  gIp := 0
  gGw := 0
  gMask := 0
  gDns := 0
  out := []

/-- A datagram that makes no step leaves the client alone exactly when it repeats what is there. -/
theorem ignored_unchanged_iff (conf : DhcpConf) (env : DhcpEnv) (d : List UInt8)
    (c : DhcpClient) (ignored : accepts conf d c = false) :
    dhcpHandle conf env d c = c ↔ dhcpReply conf d c = false ∨ RepeatsConfig d c := by
  rcases dhcpHandle_cases conf env d c with ⟨stray, same⟩ | ⟨reply, -, stored⟩ |
    ⟨-, taken, -⟩ | ⟨-, -, taken, -⟩ | ⟨-, taken, -⟩
  · -- A datagram that is no reply is not read any further.
    exact iff_of_true same (.inl stray)
  · rw [stored, storeOptions_eq_self_iff, reply]
    simp
  -- The other branches are the steps that the datagram does not make.
  all_goals simp [ignored] at taken

/-- A repeated offer with the resolver that is already configured changes nothing. -/
theorem ignored_unchanged_repeat :
    dhcpHandle plainConf ⟨0, 0⟩ (replyBytes 0 0 [6, 4, 0, 0, 0, 0, 53, 1, 2, 255])
      (blankClient .done) = blankClient .done :=
  (ignored_unchanged_iff plainConf ⟨0, 0⟩ (replyBytes 0 0 [6, 4, 0, 0, 0, 0, 53, 1, 2, 255])
    (blankClient .done) (by decide +kernel)).mpr
    (.inr
      { server := getD_eq_self_iff.mp (by decide +kernel)
        mask := getD_eq_self_iff.mp (by decide +kernel)
        gw := getD_eq_self_iff.mp (by decide +kernel)
        dns := getD_eq_self_iff.mp (by decide +kernel) })

/-- An offer that the client ignores still replaces its resolver. -/
theorem ignored_offer_sets_dns :
    accepts plainConf (replyBytes 0 0 [6, 4, 1, 1, 1, 1, 53, 1, 2, 255])
        (blankClient .done) = false ∧
      (dhcpHandle plainConf ⟨0, 0⟩ (replyBytes 0 0 [6, 4, 1, 1, 1, 1, 53, 1, 2, 255])
        (blankClient .done)).gDns = 0x01010101 := by
  decide +kernel

end Ignored

section Consistency

structure DhcpSys where
  client : DhcpClient
  ackTick : Word

inductive DhcpOp where
  | datagram (d : List UInt8)
  | tick

def dhcpStep (conf : DhcpConf) (input : DhcpOp × DhcpEnv) (s : DhcpSys) : DhcpSys :=
  match input.1 with
  | .datagram d =>
    { client := dhcpHandle conf input.2 d s.client
      ackTick := if acceptsAck conf d s.client then input.2.ticks else s.ackTick }
  | .tick => { s with client := dhcpTick conf input.2 s.client }

def leased (state : DhcpState) : Bool :=
  state == .bound || state == .renewing || state == .rebinding

structure Ordered (ackTick : Word) (c : DhcpClient) : Prop where
  t1_pos : 1 ≤ (c.t1Due - ackTick).toNat
  t1_le_t2 : (c.t1Due - ackTick).toNat ≤ (c.t2Due - ackTick).toNat
  t2_le_expire : (c.t2Due - ackTick).toNat ≤ (c.expireDue - ackTick).toNat

structure Consistent (s : DhcpSys) : Prop where
  started : s.client.state ≠ .discover
  leased : leased s.client.state = true → s.client.timed = true ∧ s.client.gIp = s.client.ciaddr
  acquiring : acquiring s.client.state = true → s.client.gIp = 0 ∧ s.client.timed = false
  settled : s.client.state = .done →
    s.client.timed = false ∧ (s.client.gIp = s.client.ciaddr ∨ s.client.gIp = fallbackIp)
  ordered : s.client.timed = true → Ordered s.ackTick s.client

theorem limit_le (a b : Word) : (if a > b then b else a) ≤ b := by
  split_ifs with above
  · exact BitVec.le_refl b
  · exact BitVec.not_lt.mp above

theorem one_le_raise (a : Word) : 1 ≤ (if a = 0 then 1 else a) := by
  split_ifs with zero
  · exact BitVec.le_refl 1
  · bv_omega

theorem raise_le {a b : Word} (positive : 1 ≤ b) (within : a ≤ b) :
    (if a = 0 then 1 else a) ≤ b := by
  split_ifs
  · exact positive
  · exact within

theorem leaseTimes_ordered (conf : DhcpConf) (leaseS t1S t2S : Word) :
    1 ≤ (leaseTimes conf leaseS t1S t2S).r1 ∧
      (leaseTimes conf leaseS t1S t2S).r1 ≤ (leaseTimes conf leaseS t1S t2S).r2 ∧
      (leaseTimes conf leaseS t1S t2S).r2 ≤ (leaseTimes conf leaseS t1S t2S).lt := by
  -- Each time is first limited by the next one and then raised to one.
  have second : 1 ≤ (leaseTimes conf leaseS t1S t2S).r2 := one_le_raise _
  exact ⟨one_le_raise _, raise_le second (limit_le _ _), raise_le (one_le_raise _) (limit_le _ _)⟩

theorem consistent_leaseExpired (conf : DhcpConf) (env : DhcpEnv) (c : DhcpClient)
    (ackTick : Word) : Consistent ⟨dhcpLeaseExpired conf env c, ackTick⟩ where
  started := by simp [dhcpLeaseExpired, dhcpSend]
  leased := by simp [dhcpLeaseExpired, dhcpSend, Net.leased]
  acquiring := by simp [dhcpLeaseExpired, dhcpSend, clearNet]
  settled := by simp [dhcpLeaseExpired, dhcpSend]
  ordered := by simp [dhcpLeaseExpired, dhcpSend]

theorem Consistent.keep {s : DhcpSys} (ok : Consistent s) {c : DhcpClient}
    (state : c.state = s.client.state ∨
      Net.leased c.state = true ∧ Net.leased s.client.state = true)
    (timed : c.timed = s.client.timed) (address : c.gIp = s.client.gIp)
    (ciaddr : c.ciaddr = s.client.ciaddr) (t1 : c.t1Due = s.client.t1Due)
    (t2 : c.t2Due = s.client.t2Due) (expire : c.expireDue = s.client.expireDue) :
    Consistent { s with client := c } := by
  have order : c.timed = true → Ordered s.ackTick c := by
    intro running
    have before := ok.ordered (timed ▸ running)
    exact ⟨t1 ▸ before.t1_pos, t1 ▸ t2 ▸ before.t1_le_t2, t2 ▸ expire ▸ before.t2_le_expire⟩
  rcases state with same | ⟨after, before⟩
  · exact
      { started := same ▸ ok.started
        leased := by simpa only [same, timed, address, ciaddr] using ok.leased
        acquiring := by simpa only [same, timed, address] using ok.acquiring
        settled := by simpa only [same, timed, address, ciaddr] using ok.settled
        ordered := order }
  · -- Under a lease only the clause about leases applies.
    have lease := ok.leased before
    refine ⟨?_, fun _ => ⟨timed ▸ lease.1, by rw [address, ciaddr]; exact lease.2⟩, ?_, ?_, order⟩
    all_goals cases reached : c.state <;> simp_all [Net.leased, Net.acquiring]

theorem takeAck_leased (conf : DhcpConf) (env : DhcpEnv) (d : List UInt8) (p : DhcpParsed)
    (c : DhcpClient) (lease : p.opt51 ≠ 0) :
    takeAck conf env d p c =
      { c with
        offer := le32 (d.drop 16)
        ciaddr := le32 (d.drop 16)
        gIp := le32 (d.drop 16)
        gGw := c.gw
        gMask := c.mask
        t1Due := env.ticks + (leaseTimes conf p.opt51 p.opt58 p.opt59).r1
        t2Due := env.ticks + (leaseTimes conf p.opt51 p.opt58 p.opt59).r2
        expireDue := env.ticks + (leaseTimes conf p.opt51 p.opt58 p.opt59).lt
        timed := true
        state := .bound } := by
  simp only [takeAck, dhcpArmLease, if_neg lease, if_true]

theorem offset_toNat (start offset : Word) : (start + offset - start).toNat = offset.toNat := by
  rw [add_sub_cancel_left]

theorem consistent_takeAck (conf : DhcpConf) (env : DhcpEnv) (d : List UInt8) (p : DhcpParsed)
    (c : DhcpClient) : Consistent ⟨takeAck conf env d p c, env.ticks⟩ := by
  by_cases untimed : p.opt51 = 0
  · simp only [takeAck, dhcpArmLease, if_pos untimed]
    constructor <;> simp [Net.leased, Net.acquiring]
  · obtain ⟨first, second, third⟩ := leaseTimes_ordered conf p.opt51 p.opt58 p.opt59
    rw [takeAck_leased conf env d p c untimed]
    refine ⟨nofun, fun _ => ⟨rfl, rfl⟩, nofun, nofun, fun _ => ⟨?_, ?_, ?_⟩⟩
    · rw [offset_toNat]
      exact first
    · rw [offset_toNat, offset_toNat]
      exact second
    · rw [offset_toNat, offset_toNat]
      exact third

section DhcpConf

variable {s : DhcpSys} (ok : Consistent s) (conf : DhcpConf)
include ok conf

theorem Consistent.datagram (env : DhcpEnv)
    (d : List UInt8) : Consistent (dhcpStep conf (.datagram d, env) s) := by
  simp only [dhcpStep]
  rcases dhcpHandle_cases conf env d s.client with ⟨stray, same⟩ | ⟨reply, other, stored⟩ |
    ⟨nak, -, expired⟩ | ⟨type, waiting, -, offered⟩ | ⟨ack, -, taken⟩
  · have noAck : acceptsAck conf d s.client = false := by simp [acceptsAck, stray]
    rw [same, noAck]
    exact ok
  · -- The options touch neither the lease nor the address.
    have noAck : acceptsAck conf d s.client = false := by
      simp only [acceptsType, Bool.or_eq_false_iff] at other
      rw [acceptsAck, Bool.and_assoc, other.2, Bool.and_false]
    rw [stored, noAck]
    exact ok.keep (.inl rfl) rfl rfl rfl rfl rfl rfl
  · rw [expired]
    exact consistent_leaseExpired conf env _ _
  · -- An offer is taken before there is an address, and brings none.
    have noAck : acceptsAck conf d s.client = false := by simp [acceptsAck, type]
    obtain ⟨address, untimed⟩ := ok.acquiring (by simp [waiting, Net.acquiring])
    rw [offered, noAck]
    constructor <;>
      simp [takeOffer, dhcpSend, storeOptions, Net.leased, address, untimed]
  · rw [taken, ack]
    exact consistent_takeAck conf env d _ _

theorem Consistent.leaseTick
    (env : DhcpEnv) : Consistent { s with client := leaseTick conf env s.client } := by
  unfold Net.leaseTick
  cases state : s.client.state with
  | bound =>
    simp only
    split_ifs
    · exact consistent_leaseExpired conf env _ _
    · exact ok.keep (.inr (by simp [startRequest, dhcpSend, Net.leased, state]))
        rfl rfl rfl rfl rfl rfl
    · exact ok
  | renewing =>
    simp only
    split_ifs
    · exact consistent_leaseExpired conf env _ _
    · exact ok.keep (.inr (by simp [startRequest, dhcpSend, Net.leased, state]))
        rfl rfl rfl rfl rfl rfl
    · exact ok.keep (.inl rfl) rfl rfl rfl rfl rfl rfl
    · exact ok
  | rebinding =>
    simp only
    split_ifs
    · exact consistent_leaseExpired conf env _ _
    · exact ok.keep (.inl rfl) rfl rfl rfl rfl rfl rfl
    · exact ok
  | discover | waitOffer | waitAck | done => exact ok

theorem Consistent.acquireTick
    (env : DhcpEnv) : Consistent { s with client := acquireTick conf env s.client } := by
  unfold Net.acquireTick
  by_cases again : (Net.acquiring s.client.state && retryDue env s.client) = true
  · rw [if_pos again]
    obtain ⟨address, untimed⟩ := ok.acquiring (Bool.and_eq_true_iff.mp again).1
    by_cases last : s.client.retries ≥ 6
    · -- The last try gives the fallback address, without a lease.
      simp only [if_pos last]
      constructor <;> simp [fallback, Net.leased, Net.acquiring]
    · simp only [if_neg last]
      constructor <;> simp [dhcpSend, Net.leased, address, untimed]
  · rw [if_neg again]
    exact ok

theorem Consistent.step (input : DhcpOp × DhcpEnv) : Consistent (dhcpStep conf input s) := by
  obtain ⟨op, env⟩ := input
  cases op with
  | datagram d => exact ok.datagram conf env d
  | tick => exact (ok.leaseTick conf env).acquireTick conf env

end DhcpConf

theorem consistent_netInit (conf : DhcpConf) (env : DhcpEnv) (c : DhcpClient) (ackTick : Word) :
    Consistent ⟨netInit conf env c, ackTick⟩ := by
  constructor <;> simp [netInit, dhcpStart, dhcpSend, clearNet, Net.leased]

/-- Whatever arrives and whenever the timer runs, state, address and lease of the client agree. -/
theorem dhcp_run_consistent (conf : DhcpConf) (env : DhcpEnv) (c : DhcpClient)
    (inputs : List (DhcpOp × DhcpEnv)) :
    Consistent (runInputs (dhcpStep conf) inputs ⟨netInit conf env c, env.ticks⟩) := by
  have run : Run (dhcpStep conf) (fun _ _ => True) ⟨netInit conf env c, env.ticks⟩
      (runInputs (dhcpStep conf) inputs ⟨netInit conf env c, env.ticks⟩) :=
    Run.start.inputs inputs (allAllowed_true inputs _)
  exact run.invariant Consistent (consistent_netInit conf env c env.ticks)
    fun input state _ ok => ok.step conf input

end Consistency

end CatOs.Net
