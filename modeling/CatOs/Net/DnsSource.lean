import CatOs.Net.DnsQuery

/-! Where an answer comes from: the lookup checks its number, but not the host that sent it. -/

namespace CatOs.Net

open Tcp (be16)

def fromResolver (gDns : Word) (d : Datagram) : Bool := d.srcIp = gDns && d.sport = 53

def DnsRound.fromResolver (gDns : Word) (round : DnsRound) : DnsRound :=
  { round with arrived := round.arrived.filter (Net.fromResolver gDns) }

def QuietDrain (gDns : Word) : List Datagram → DnsLookup → Prop
  | [], _ => True
  | d :: rest, s =>
    (fromResolver gDns d = false →
      takeResponse s.txid (d.payload.take dnsRxMax) = .ok none) ∧
    (takeResponse s.txid (d.payload.take dnsRxMax) = .ok none → QuietDrain gDns rest s)

/--
A run in which no datagram of another host is taken for a response or costs one of the name
server its place in the queue.
-/
def QuietRun (gDns start : Word) : List DnsRound → List Datagram → DnsLookup → Prop
  | [], _, _ => True
  | round :: rest, queue, s =>
    round.ticks - start < dnsTotalTimeout →
      (queueAfter queue round.arrived).filter (fromResolver gDns) =
        queueAfter (queue.filter (fromResolver gDns))
          (round.arrived.filter (fromResolver gDns)) ∧
      QuietDrain gDns (queueAfter queue round.arrived) (s.resend round.ticks) ∧
      ∀ s' queue', drain round.seqGen (queueAfter queue round.arrived) (s.resend round.ticks) =
        .ok (s', queue') → s'.got = none → s'.cause = .timeout →
          QuietRun gDns start rest queue' s'

theorem QuietDrain.drain {gDns : Word} (seqGen : Word) {s : DnsLookup} {queue : List Datagram}
    (quiet : QuietDrain gDns queue s) :
    drain seqGen (queue.filter (fromResolver gDns)) s =
      (drain seqGen queue s).map fun r => (r.1, r.2.filter (fromResolver gDns)) := by
  induction queue with
  | nil => rfl
  | cons d rest ih =>
    obtain ⟨ignored, further⟩ := quiet
    by_cases own : fromResolver gDns d = true
    · -- What the name server sent is received in both runs.
      rw [List.filter_cons_of_pos own]
      unfold Net.drain
      cases taken : takeResponse s.txid (d.payload.take dnsRxMax) with
      | error fault => rfl
      | ok found =>
        cases found with
        | none => exact ih (further taken)
        | some said =>
          dsimp only
          cases s.answer seqGen (d.payload.take dnsRxMax) said with
          | error fault => rfl
          | ok after => rfl
    · -- What another host sent is skipped.
      have nothing := ignored (Bool.eq_false_iff.mpr own)
      rw [List.filter_cons_of_neg own, ih (further nothing), Net.drain.eq_2, nothing]

theorem QuietRun.lookupLoop {gDns start : Word} (rounds : List DnsRound) :
    ∀ {queue : List Datagram} {s : DnsLookup}, QuietRun gDns start rounds queue s →
      lookupLoop start rounds queue s =
        lookupLoop start (rounds.map (DnsRound.fromResolver gDns))
          (queue.filter (fromResolver gDns)) s := by
  induction rounds with
  | nil =>
    intro queue s _
    rfl
  | cons round rest ih =>
    intro queue s quiet
    rw [List.map_cons]
    unfold Net.lookupLoop
    have ticks : (round.fromResolver gDns).ticks = round.ticks := rfl
    have number : (round.fromResolver gDns).seqGen = round.seqGen := rfl
    have arrived : (round.fromResolver gDns).arrived =
        round.arrived.filter (fromResolver gDns) := rfl
    rw [ticks, number, arrived]
    by_cases late : round.ticks - start ≥ dnsTotalTimeout
    · rw [if_pos late, if_pos late]
    · rw [if_neg late, if_neg late]
      obtain ⟨queued, drained, further⟩ := quiet (BitVec.not_le.mp late)
      rw [← queued, drained.drain]
      cases run : drain round.seqGen (queueAfter queue round.arrived) (s.resend round.ticks) with
      | error fault => rfl
      | ok found =>
        obtain ⟨after, left⟩ := found
        rw [Except.map]
        dsimp only
        split
        · rfl
        · rename_i going
          have waiting := not_or.mp going
          exact ih (further after left run (Option.not_isSome_iff_eq_none.mp waiting.1)
            (not_not.mp waiting.2))

theorem mem_queueAfter {d : Datagram} {arrived : List Datagram} : ∀ {queue : List Datagram},
    d ∈ queueAfter queue arrived → d ∈ queue ∨ d ∈ arrived := by
  induction arrived with
  | nil => exact fun member => Or.inl member
  | cons new rest ih =>
    intro queue member
    -- The first datagram is dropped or goes to the end of the queue, and the others follow.
    rcases ih member with old | later
    · dsimp only at old
      split at old
      · rcases List.mem_append.mp old with held | added
        · exact Or.inl held
        · rw [List.mem_singleton.mp added]
          exact Or.inr List.mem_cons_self
      · exact Or.inl old
    · exact Or.inr (List.mem_cons_of_mem new later)

theorem takeResponse_number {txid : Half} {rxb : List UInt8} {said : DnsAnswer}
    (taken : takeResponse txid rxb = .ok (some said)) : be16 rxb = txid := by
  unfold takeResponse at taken
  split at taken
  · cases taken
  · rw [readRun_of_le (by omega)] at taken
    dsimp only at taken
    split at taken
    · cases taken
    · rename_i same
      have number : be16 ((rxb.drop 0).take 4) = be16 rxb := be16_take (by decide)
      rw [← number]
      exact not_not.mp same

theorem DnsLookup.outcome_ret {s : DnsLookup} (success : s.outcome.ret = 0) :
    ∃ ip, s.got = some ip ∧ s.outcome.outIp = some ip := by
  unfold DnsLookup.outcome at success ⊢
  cases got : s.got with
  | some ip => exact ⟨ip, rfl, rfl⟩
  | none =>
    rw [got] at success
    dsimp only at success
    split at success
    · exact absurd success (by decide)
    · exact absurd success (by decide)
    · exact absurd success (by decide)

structure DnsLookup.Waiting (s : DnsLookup) : Prop where
  asking : s.Asking
  nothing : s.got = none
  last : s.lastSend ≠ neverSent → s.sent.getLast? = some (s.pkt.take s.qlen)

theorem DnsLookup.Waiting.resend {s : DnsLookup} (waiting : s.Waiting) (ticks : Word) :
    (s.resend ticks).Waiting ∧
      (s.resend ticks).sent.getLast? = some ((s.resend ticks).pkt.take (s.resend ticks).qlen) := by
  have asking := waiting.asking.resend ticks
  unfold DnsLookup.resend at asking ⊢
  split
  · rename_i due
    rw [if_pos due] at asking
    have last : (s.sent ++ [s.pkt.take s.qlen]).getLast? = some (s.pkt.take s.qlen) :=
      List.getLast?_concat
    exact ⟨⟨asking, waiting.nothing, fun _ => last⟩, last⟩
  · rename_i early
    exact ⟨waiting, waiting.last (not_or.mp early).1⟩

theorem DnsLookup.answer_cases {s after : DnsLookup} {seqGen : Word} {rxb : List UInt8}
    {said : DnsAnswer} (answered : s.answer seqGen rxb said = .ok after) :
    (∃ ip, said = .address ip ∧ after = { s with got := some ip }) ∨
    (∃ pkt cause, after = { s with pkt := pkt, cause := cause } ∧
      (cause = .timeout → pkt = s.pkt)) ∨
    ∃ pkt qlen, after = { s with pkt := pkt, qlen := qlen, txid := nextTxid seqGen
                                 cnHops := s.cnHops + 1, lastSend := neverSent } := by
  unfold DnsLookup.answer at answered
  cases said with
  | failed cause => exact Or.inr (Or.inl ⟨s.pkt, cause, (Except.ok.inj answered).symm, fun _ => rfl⟩)
  | address ip => exact Or.inl ⟨ip, rfl, (Except.ok.inj answered).symm⟩
  | none => exact Or.inr (Or.inl ⟨s.pkt, s.cause, (Except.ok.inj answered).symm, fun _ => rfl⟩)
  | cname off =>
    dsimp only at answered
    split at answered
    · exact Or.inr (Or.inl ⟨s.pkt, .cnameDepth, (Except.ok.inj answered).symm, fun _ => rfl⟩)
    · split at answered
      · cases answered
      · rename_i pkt _
        exact Or.inr (Or.inl ⟨pkt, .format, (Except.ok.inj answered).symm,
          fun same => absurd same (by decide)⟩)
      · split at answered
        · cases answered
        · exact Or.inr (Or.inr ⟨_, _, (Except.ok.inj answered).symm⟩)

theorem DnsLookup.Waiting.answer {s after : DnsLookup} (waiting : s.Waiting)
    (last : s.sent.getLast? = some (s.pkt.take s.qlen)) {seqGen : Word} {rxb : List UInt8}
    {said : DnsAnswer} (answered : s.answer seqGen rxb said = .ok after) :
    after.sent = s.sent ∧ (∀ ip, after.got = some ip → said = .address ip) ∧
      (after.got = none → after.cause = .timeout → after.Waiting) := by
  have nothing := waiting.nothing
  obtain ⟨other, same, sent, asking⟩ := waiting.asking.answer seqGen rxb said
  obtain rfl : after = other := Except.ok.inj (answered.symm.trans same)
  refine ⟨sent, ?_, ?_⟩
  · intro ip got
    rcases DnsLookup.answer_cases answered with
      ⟨stored, rfl, rfl⟩ | ⟨pkt, cause, rfl, -⟩ | ⟨pkt, qlen, rfl⟩
    · rw [Option.some.inj got]
    · cases nothing.symm.trans got
    · cases nothing.symm.trans got
  · intro none going
    refine ⟨asking going, none, ?_⟩
    intro recent
    rcases DnsLookup.answer_cases answered with
      ⟨stored, -, rfl⟩ | ⟨pkt, cause, rfl, kept⟩ | ⟨pkt, qlen, rfl⟩
    · cases none
    · -- A lookup that goes on has the packet it sent.
      rw [kept going]
      exact last
    · exact absurd rfl recent

theorem DnsLookup.Waiting.drain {s : DnsLookup} (waiting : s.Waiting)
    (last : s.sent.getLast? = some (s.pkt.take s.qlen)) {seqGen : Word} :
    ∀ {queue rest : List Datagram} {after : DnsLookup},
      drain seqGen queue s = .ok (after, rest) →
      (∀ d ∈ rest, d ∈ queue) ∧ after.sent = s.sent ∧
      (∀ ip, after.got = some ip → ∃ d ∈ queue,
        takeResponse s.txid (d.payload.take dnsRxMax) = .ok (some (.address ip))) ∧
      (after.got = none → after.cause = .timeout → after.Waiting) := by
  intro queue
  induction queue with
  | nil =>
    intro rest after drained
    obtain ⟨rfl, rfl⟩ := Prod.mk.inj (Except.ok.inj drained)
    refine ⟨fun d member => member, rfl, ?_, fun _ _ => waiting⟩
    intro ip got
    cases waiting.nothing.symm.trans got
  | cons d others ih =>
    intro rest after drained
    unfold Net.drain at drained
    split at drained
    · cases drained
    · obtain ⟨kept, sent, found, further⟩ := ih drained
      refine ⟨fun e member => List.mem_cons_of_mem d (kept e member), sent, ?_, further⟩
      intro ip got
      obtain ⟨e, member, taken⟩ := found ip got
      exact ⟨e, List.mem_cons_of_mem d member, taken⟩
    · rename_i said taken
      split at drained
      · cases drained
      · rename_i answered
        obtain ⟨rfl, rfl⟩ := Prod.mk.inj (Except.ok.inj drained)
        obtain ⟨sent, address, further⟩ := waiting.answer last answered
        refine ⟨fun e member => List.mem_cons_of_mem d member, sent, ?_, further⟩
        intro ip got
        rw [address ip got] at taken
        exact ⟨d, List.mem_cons_self, taken⟩

/--
An address that a lookup stores was in a datagram that arrived during its run.

The number of that datagram is the number of the query that was outstanding then.
-/
theorem DnsLookup.Waiting.lookupLoop {start : Word} (known : Datagram → Prop)
    (rounds : List DnsRound) (arrivals : ∀ round ∈ rounds, ∀ d ∈ round.arrived, known d) :
    ∀ {queue : List Datagram} {s : DnsLookup}, s.Waiting → (∀ d ∈ queue, known d) →
      ∀ ended, lookupLoop start rounds queue s = .ok (some ended) → ended.ret = 0 →
        ∃ d ip query, known d ∧ ended.outIp = some ip ∧ ended.sent.getLast? = some query ∧
          takeResponse (be16 query) (d.payload.take dnsRxMax) = .ok (some (.address ip)) := by
  induction rounds with
  | nil =>
    intro queue s _ _ ended looped
    cases looped
  | cons round rest ih =>
    intro queue s waiting queued ended looped success
    unfold Net.lookupLoop at looped
    split at looped
    · -- A lookup that waits has no address when its time is up.
      obtain rfl := Option.some.inj (Except.ok.inj looped)
      obtain ⟨ip, got, -⟩ := DnsLookup.outcome_ret success
      cases waiting.nothing.symm.trans got
    · obtain ⟨resent, last⟩ := waiting.resend round.ticks
      split at looped
      · cases looped
      · rename_i after left drained
        obtain ⟨kept, sent, found, further⟩ := resent.drain last drained
        have arrived : ∀ d ∈ queueAfter queue round.arrived, known d := by
          intro d member
          rcases mem_queueAfter member with old | new
          · exact queued d old
          · exact arrivals round List.mem_cons_self d new
        split at looped
        · obtain rfl := Option.some.inj (Except.ok.inj looped)
          obtain ⟨ip, got, stored⟩ := DnsLookup.outcome_ret success
          obtain ⟨d, member, taken⟩ := found ip got
          obtain ⟨labels, asks⟩ := resent.asking.asks
          have asked : after.outcome.sent.getLast? =
              some ((s.resend round.ticks).pkt.take (s.resend round.ticks).qlen) := by
            rw [DnsLookup.sent_outcome, sent]
            exact last
          refine ⟨d, ip, _, arrived d member, stored, asked, ?_⟩
          rw [be16_take (by rw [asks.length]; omega), asks.number]
          exact taken
        · rename_i going
          have neither := not_or.mp going
          have none := Option.not_isSome_iff_eq_none.mp neither.1
          exact ih (fun round' member => arrivals round' (List.mem_cons_of_mem round member))
            (further none (not_not.mp neither.2)) (fun d member => arrived d (kept d member)) ended
            looped success

theorem resolveName_congr {name : Buffer UInt8} {seqGen start : Word} (socks : UdpSocks)
    {rounds others : List DnsRound}
    (same : ∀ pkt qlen, dnsQuery name (nextTxid seqGen) = .ok (some (pkt, qlen)) →
      lookupLoop start rounds [] (firstLookup (nextTxid seqGen) pkt qlen) =
        lookupLoop start others [] (firstLookup (nextTxid seqGen) pkt qlen)) :
    resolveName name seqGen socks start rounds = resolveName name seqGen socks start others := by
  unfold resolveName
  generalize nextTxid seqGen = txid at same ⊢
  generalize dnsBind socks txid = slot
  cases built : dnsQuery name txid with
  | error fault => rfl
  | ok found =>
    cases found with
    | none => rfl
    | some query =>
      obtain ⟨pkt, qlen⟩ := query
      cases slot with
      | none => rfl
      | some bound => exact same pkt qlen built

theorem waiting_firstLookup {txid : Half} {pkt : List UInt8} {qlen : Nat}
    {labels : List (List UInt8)} (asks : AsksFor txid pkt qlen labels) :
    (firstLookup txid pkt qlen).Waiting :=
  ⟨⟨⟨labels, asks⟩, fun _ member => absurd member List.not_mem_nil⟩, rfl,
    fun sent => absurd rfl sent⟩

theorem resolveName_success {name : Buffer UInt8} {chars : List UInt8} (text : CString name chars)
    {seqGen start : Word} {socks : UdpSocks} {rounds : List DnsRound} {ended : DnsOutcome}
    (resolved : resolveName name seqGen socks start rounds = .ok (some ended))
    (success : ended.ret = 0) :
    ∃ s : DnsLookup, s.Waiting ∧ lookupLoop start rounds [] s = .ok (some ended) := by
  obtain ⟨r, built, -, sound⟩ := dnsQuery_spec text (nextTxid seqGen)
  cases r with
  | none =>
    rw [resolveName_none built] at resolved
    rw [← Option.some.inj (Except.ok.inj resolved)] at success
    exact absurd success (by decide)
  | some found =>
    obtain ⟨labels, -, asks⟩ := sound found.1 found.2 rfl
    rcases resolveName_some built socks start rounds with full | looped
    · rw [full] at resolved
      rw [← Option.some.inj (Except.ok.inj resolved)] at success
      exact absurd success (by decide)
    · exact ⟨_, waiting_firstLookup asks, looped.symm.trans resolved⟩

def seedSeven : Word := 0x61CF8647

def letterQuery : List UInt8 := [0, 7, 1, 0, 0, 1, 0, 0, 0, 0, 0, 0, 1, 97, 0, 0, 1, 0, 1]

def strayDatagram : Datagram := { srcIp := le32 [6, 6, 6, 6], sport := 1000, payload := [0, 7] }

def answeredRound : DnsRound :=
  { ticks := 0, seqGen := 0
    arrived := [strayDatagram,
      { srcIp := le32 [10, 0, 2, 3], sport := 53, payload := rootResponse }] }

def forgedRound (payload : List UInt8) : DnsRound :=
  { ticks := 0, seqGen := 0
    arrived := [{ srcIp := le32 [6, 6, 6, 6], sport := 1000, payload := payload }] }

def refusal : List UInt8 := [0, 7, 0x80, 5, 0, 0, 0, 0, 0, 0, 0, 0]

end CatOs.Net
