import CatOs.Lib.Keyed
import CatOs.Lib.Run
import CatOs.Net.Arp

/-! The address cache as a bounded map: what it knows of each address, over any history. -/

namespace CatOs.Net

inductive ArpLog where
  | packet (source : Word) (mac : Mac)
  | request (target : Word)

structure ArpSys where
  arp : ArpState
  now : Nat
  log : List (Nat × ArpLog)

inductive ArpEvent where
  | wait (ticks : Nat)
  | handle (conf : ArpConf) (tx : Bool) (p : Buffer UInt8) (len : Word)
  | resolve (conf : ArpConf) (tx : Bool) (ip : Word)
  | tick

def ArpSys.ticks (s : ArpSys) : Word := serial 0 s.now

def arpStep (event : ArpEvent) (s : ArpSys) : ArpSys :=
  match event with
  | .wait ticks => { s with now := s.now + ticks }
  | .handle conf tx p len =>
    { s with
      arp := (arpHandle conf tx s.ticks p len s.arp).1
      log := if arpValid p len then (s.now, .packet (arpPkt p).spa (arpPkt p).sha) :: s.log
        else s.log }
  | .resolve conf tx ip =>
    let r := arpResolve conf tx s.ticks ip s.arp
    { s with
      arp := r.arp
      log := match r.sent with
        | some pkt => (s.now, .request pkt.tpa) :: s.log
        | none => s.log }
  | .tick => { s with arp := arpTick s.ticks s.arp }

def lastPacket (ip : Word) : List (Nat × ArpLog) → Option (Nat × Mac)
  | [] => none
  | (t, .packet source mac) :: rest =>
    if source = ip then some (t, mac) else lastPacket ip rest
  | (_, .request _) :: rest => lastPacket ip rest

def probesSince (ip : Word) : List (Nat × ArpLog) → List Nat
  | [] => []
  | (_, .packet source _) :: rest => if source = ip then [] else probesSince ip rest
  | (t, .request target) :: rest =>
    if target = ip then t :: probesSince ip rest else probesSince ip rest

structure EntryOk (now : Nat) (log : List (Nat × ArpLog)) (e : ArpEntry) : Prop where
  seen : ∃ t, t ≤ now ∧ e.seenTick = serial 0 t ∧ lastPacket e.ip log = some (t, e.mac)
  probes : e.probes.toNat = (probesSince e.ip log).length
  few : e.probes.toNat ≤ 3
  asked : ∀ t rest, probesSince e.ip log = t :: rest → e.reqTick = serial 0 t

structure CacheOk (s : ArpSys) : Prop where
  room : s.arp.n ≤ arpCacheMax
  distinct : DistinctKeys ArpEntry.ip s.arp.entries
  entry : ∀ e ∈ s.arp.entries, EntryOk s.now s.log e
  ordered : s.log.Pairwise fun later earlier => earlier.1 ≤ later.1
  past : ∀ item ∈ s.log, item.1 ≤ s.now

theorem EntryOk.other_packet {now t : Nat} {log : List (Nat × ArpLog)} {e : ArpEntry}
    (ok : EntryOk now log e) {source : Word} {mac : Mac} (other : source ≠ e.ip) :
    EntryOk now ((t, .packet source mac) :: log) e := by
  have packet : lastPacket e.ip ((t, .packet source mac) :: log) = lastPacket e.ip log :=
    if_neg other
  have probes : probesSince e.ip ((t, .packet source mac) :: log) = probesSince e.ip log :=
    if_neg other
  exact ⟨packet ▸ ok.seen, probes ▸ ok.probes, ok.few, probes ▸ ok.asked⟩

theorem EntryOk.other_request {now t : Nat} {log : List (Nat × ArpLog)} {e : ArpEntry}
    (ok : EntryOk now log e) {target : Word} (other : target ≠ e.ip) :
    EntryOk now ((t, .request target) :: log) e := by
  have probes : probesSince e.ip ((t, .request target) :: log) = probesSince e.ip log :=
    if_neg other
  exact ⟨ok.seen, probes ▸ ok.probes, ok.few, probes ▸ ok.asked⟩

theorem EntryOk.confirmed {now : Nat} {log : List (Nat × ArpLog)} {e : ArpEntry} {source : Word}
    {mac : Mac} (same : e.ip = source) (held : e.mac = mac) (seen : e.seenTick = serial 0 now)
    (probes : e.probes = 0) : EntryOk now ((now, .packet source mac) :: log) e := by
  subst same held
  have none : probesSince e.ip ((now, .packet e.ip e.mac) :: log) = [] := if_pos rfl
  refine ⟨⟨now, Nat.le_refl now, seen, if_pos rfl⟩, ?_, ?_, ?_⟩
  · rw [probes, none]
    rfl
  · rw [probes]
    decide
  · intro t rest some_
    rw [none] at some_
    cases some_

theorem EntryOk.wait {now later : Nat} {log : List (Nat × ArpLog)} {e : ArpEntry}
    (ok : EntryOk now log e) (passed : now ≤ later) : EntryOk later log e := by
  obtain ⟨t, past, seen, packet⟩ := ok.seen
  exact ⟨⟨t, Nat.le_trans past passed, seen, packet⟩, ok.probes, ok.few, ok.asked⟩

theorem EntryOk.probed {now : Nat} {log : List (Nat × ArpLog)} {e : ArpEntry}
    (ok : EntryOk now log e) (few : e.probes < arpProbeMax) :
    EntryOk now ((now, .request e.ip) :: log)
      { e with reqTick := serial 0 now, probes := e.probes + 1 } := by
  have below : e.probes.toNat < 3 := few
  have probes : probesSince e.ip ((now, .request e.ip) :: log) = now :: probesSince e.ip log :=
    if_pos rfl
  have count : (e.probes + 1).toNat = e.probes.toNat + 1 := by
    have one : (1 : UInt8).toNat = 1 := rfl
    rw [UInt8.toNat_add, one]
    omega
  refine ⟨ok.seen, ?_, ?_, ?_⟩
  · dsimp only
    rw [count, probes, List.length_cons, ok.probes]
  · dsimp only
    omega
  · intro t rest first
    dsimp only at first ⊢
    rw [probes] at first
    rw [(List.cons.inj first).1]

theorem CacheOk.log_cons {s : ArpSys} (ok : CacheOk s) (item : ArpLog) :
    ((s.now, item) :: s.log).Pairwise (fun later earlier => earlier.1 ≤ later.1) ∧
      ∀ entry ∈ (s.now, item) :: s.log, entry.1 ≤ s.now := by
  constructor
  · exact List.pairwise_cons.mpr ⟨fun entry member => ok.past entry member, ok.ordered⟩
  · intro entry member
    rcases List.mem_cons.mp member with rfl | later
    · exact Nat.le_refl _
    · exact ok.past entry later

/-- A valid packet keeps the cache in agreement with the history. -/
theorem CacheOk.packet {s : ArpSys} (ok : CacheOk s) (source : Word) (mac : Mac) :
    CacheOk { s with
      arp := arpCacheAdd s.ticks source mac s.arp
      log := (s.now, .packet source mac) :: s.log } := by
  obtain ⟨ordered, past⟩ := ok.log_cons (.packet source mac)
  have others : ∀ e ∈ s.arp.entries, e.ip ≠ source →
      EntryOk s.now ((s.now, .packet source mac) :: s.log) e :=
    fun e member other => (ok.entry e member).other_packet (Ne.symm other)
  cases arpCacheAdd_move s.ticks source mac s.arp with
  | refreshed i within same changed =>
    rw [changed]
    have held := getElem?_entries within
    refine ⟨ok.room, ?_, ?_, ordered, past⟩
    · dsimp only
      rw [entries_setEntry]
      exact ok.distinct.set_same held rfl
    · intro e member
      dsimp only at member ⊢
      rw [entries_setEntry] at member
      rcases ok.distinct.mem_set held member with rfl | ⟨old, other⟩
      · exact EntryOk.confirmed same rfl rfl rfl
      · exact others e old (same ▸ other)
  | appended absent room gate count entries =>
    refine ⟨?_, ?_, ?_, ordered, past⟩
    · dsimp only
      omega
    · dsimp only
      rw [entries]
      exact ok.distinct.append_new absent
    · intro e member
      dsimp only at member ⊢
      rw [entries] at member
      rcases List.mem_append.mp member with old | new
      · exact others e old (absent e old)
      · rw [List.mem_singleton.mp new]
        exact EntryOk.confirmed rfl rfl rfl rfl
  | replaced absent full changed =>
    rw [changed]
    refine ⟨ok.room, ?_, ?_, ordered, past⟩
    · dsimp only
      rw [entries_setEntry]
      exact ok.distinct.set_new absent _
    · intro e member
      dsimp only at member ⊢
      rw [entries_setEntry] at member
      rcases List.mem_or_eq_of_mem_set member with old | rfl
      · exact others e old (absent e old)
      · exact EntryOk.confirmed rfl rfl rfl rfl

theorem CacheOk.resolve {s : ArpSys} (ok : CacheOk s) (conf : ArpConf) (tx : Bool) (ip : Word) :
    CacheOk (arpStep (.resolve conf tx ip) s) := by
  unfold arpStep
  dsimp only
  cases arpResolve_move conf tx s.ticks ip s.arp with
  | silent sent kept =>
    rw [sent, kept]
    exact ok
  | probed i pkt within same sent target few due changed =>
    obtain ⟨ordered, past⟩ := ok.log_cons (.request ip)
    have held := getElem?_entries within
    rw [sent, changed]
    dsimp only
    rw [target]
    refine ⟨ok.room, ?_, ?_, ordered, past⟩
    · dsimp only
      rw [entries_setEntry]
      exact ok.distinct.set_same held rfl
    · intro e member
      dsimp only at member ⊢
      rw [entries_setEntry] at member
      rcases ok.distinct.mem_set held member with rfl | ⟨old, other⟩
      · rw [← same]
        exact (ok.entry _ (cache_mem_entries within)).probed few
      · exact (ok.entry e old).other_request (fun equal => other (equal.symm.trans same.symm))
  | asked pkt absent sent target due changed =>
    obtain ⟨ordered, past⟩ := ok.log_cons (.request ip)
    rw [sent, changed]
    dsimp only
    rw [target]
    refine ⟨ok.room, ok.distinct, ?_, ordered, past⟩
    intro e member
    exact (ok.entry e member).other_request (Ne.symm (absent e member))

theorem CacheOk.step {s : ArpSys} (ok : CacheOk s) (event : ArpEvent) :
    CacheOk (arpStep event s) := by
  cases event with
  | wait ticks =>
    exact ⟨ok.room, ok.distinct,
      fun e member => (ok.entry e member).wait (Nat.le_add_right s.now ticks), ok.ordered,
      fun item member => Nat.le_trans (ok.past item member) (Nat.le_add_right s.now ticks)⟩
  | handle conf tx p len =>
    unfold arpStep
    dsimp only
    rw [arpHandle_arp]
    split
    · exact ok.packet (arpPkt p).spa (arpPkt p).sha
    · exact ok
  | resolve conf tx ip => exact ok.resolve conf tx ip
  | tick =>
    have scanned := (entries_arpTick s.ticks s.arp).1
    refine ⟨?_, ?_, ?_, ok.ordered, ok.past⟩
    · have shorter := List.length_filter_le (fun e => !arpDead s.ticks e) s.arp.entries
      rw [← scanned, length_entries, length_entries] at shorter
      exact Nat.le_trans shorter ok.room
    · unfold arpStep
      dsimp only
      rw [scanned]
      exact ok.distinct.filter _
    · intro e member
      unfold arpStep at member
      dsimp only at member
      rw [scanned] at member
      exact ok.entry e (List.mem_of_mem_filter member)

def confirmedAt (log : List (Nat × ArpLog)) (e : ArpEntry) : Nat :=
  ((lastPacket e.ip log).map Prod.fst).getD 0

def TicksClose (s : ArpSys) : Prop :=
  ∀ e ∈ s.arp.entries, s.now < confirmedAt s.log e + 2 ^ 31

theorem EntryOk.confirmation {now : Nat} {log : List (Nat × ArpLog)} {e : ArpEntry}
    (ok : EntryOk now log e) : confirmedAt log e ≤ now ∧
      e.seenTick = serial 0 (confirmedAt log e) ∧
      lastPacket e.ip log = some (confirmedAt log e, e.mac) := by
  obtain ⟨t, past, seen, packet⟩ := ok.seen
  have time : confirmedAt log e = t := by
    rw [confirmedAt, packet]
    rfl
  rw [time]
  exact ⟨past, seen, packet⟩

theorem EntryOk.stale {s : ArpSys} {e : ArpEntry} (ok : EntryOk s.now s.log e)
    (old : ¬s.ticks - e.seenTick < arpReachTimeout) : confirmedAt s.log e + 3000 ≤ s.now := by
  obtain ⟨past, seen, -⟩ := ok.confirmation
  have distance := serial_sub_toNat_le (0 : Word) past
  have large : ¬(s.ticks - e.seenTick).toNat < 3000 := old
  rw [seen] at large
  unfold ArpSys.ticks at large
  omega

theorem EntryOk.fresh {s : ArpSys} {e : ArpEntry} (ok : EntryOk s.now s.log e)
    (near : s.now < confirmedAt s.log e + 2 ^ 31)
    (young : s.ticks - e.seenTick < arpReachTimeout) : s.now < confirmedAt s.log e + 3000 := by
  obtain ⟨past, seen, -⟩ := ok.confirmation
  have distance := serial_sub_toNat (0 : Word) past (by omega)
  have small : (s.ticks - e.seenTick).toNat < 3000 := young
  rw [seen] at small
  unfold ArpSys.ticks at small
  omega

/-- Without a stale entry, a full cache gives up one that was confirmed first. -/
theorem arpVictim_oldest {ticks : Word} {cache : Buffer ArpEntry} (time : Nat → Nat)
    (held : ∀ i < arpCacheMax, (cache i).seenTick = serial 0 (time i))
    (near : ∀ i < arpCacheMax, ∀ j < arpCacheMax, time i < time j + 2 ^ 31)
    (young : ∀ i < arpCacheMax, ¬ticks - (cache i).seenTick ≥ arpReachTimeout) :
    ∀ i < arpCacheMax, time (arpVictim ticks cache) ≤ time i := by
  have none : (List.range arpCacheMax).find?
      (fun i => ticks - (cache i).seenTick ≥ arpReachTimeout) = none := by
    apply List.find?_eq_none.mpr
    intro i member
    rw [decide_eq_true_eq]
    exact young i (List.mem_range.mp member)
  rw [arpVictim, none]
  -- After some passes the choice was confirmed first among the positions passed.
  have chosen := @forRange_invariant Nat (arpCacheMax - 1) (fun k e =>
      if ((cache (k + 1)).seenTick - (cache e).seenTick).toInt < 0 then k + 1 else e) 0
    (fun k e => e ≤ k ∧ ∀ i ≤ k, time e ≤ time i) ?_ ?_
  · intro i within
    exact chosen.2 i (Nat.le_pred_of_lt within)
  · refine ⟨Nat.le_refl 0, ?_⟩
    intro i first
    rw [Nat.le_zero.mp first]
  · intro k e below chosen
    obtain ⟨within, oldest⟩ := chosen
    have inside : e < arpCacheMax := by omega
    have next : k + 1 < arpCacheMax := by omega
    have distance := serial_sub_toInt (0 : Word) (near (k + 1) next e inside)
      (near e inside (k + 1) next)
    rw [← held (k + 1) next, ← held e inside] at distance
    have upTo : ∀ i ≤ k + 1, i ≤ k ∨ i = k + 1 := by
      intro i bound
      omega
    split
    · rename_i earlier
      refine ⟨Nat.le_refl _, ?_⟩
      intro i bound
      rcases upTo i bound with before | rfl
      · have first := oldest i before
        omega
      · exact Nat.le_refl _
    · rename_i later
      refine ⟨by omega, ?_⟩
      intro i bound
      rcases upTo i bound with before | rfl
      · exact oldest i before
      · omega

theorem arpVictim_cases (ticks : Word) (cache : Buffer ArpEntry) :
    arpVictim ticks cache < arpCacheMax ∧
      (ticks - (cache (arpVictim ticks cache)).seenTick ≥ arpReachTimeout ∨
        ∀ i < arpCacheMax, ¬ticks - (cache i).seenTick ≥ arpReachTimeout) := by
  unfold arpVictim
  cases found : (List.range arpCacheMax).find?
      (fun i => ticks - (cache i).seenTick ≥ arpReachTimeout) with
  | some i =>
    have member := List.mem_range.mp (List.mem_of_find?_eq_some found)
    have old := List.find?_some found
    rw [decide_eq_true_eq] at old
    exact ⟨member, Or.inl old⟩
  | none =>
    dsimp only
    constructor
    · have bounded := @forRange_invariant Nat (arpCacheMax - 1) (fun k e =>
          if ((cache (k + 1)).seenTick - (cache e).seenTick).toInt < 0 then k + 1 else e) 0
        (fun k e => e ≤ k) (Nat.le_refl 0) ?_
      · exact Nat.lt_of_le_of_lt bounded (by decide)
      · intro k e _ below
        split
        · exact Nat.le_refl _
        · exact Nat.le_succ_of_le below
    · right
      intro i within old
      exact List.find?_eq_none.mp found i (List.mem_range.mpr within) (decide_eq_true old)

def Removed (event : ArpEvent) (s : ArpSys) (ip : Word) : Prop :=
  ∀ e ∈ (arpStep event s).arp.entries, e.ip ≠ ip

theorem exists_set_same {s : ArpState} {e : ArpEntry} (member : e ∈ s.entries) {i : Nat}
    (within : i < s.n) (new : ArpEntry) (same : new.ip = (s.cache i).ip) :
    ∃ other ∈ (s.setEntry i new).entries, other.ip = e.ip := by
  rw [entries_setEntry]
  rcases mem_set_of_mem member i new with kept | here
  · exact ⟨e, kept, rfl⟩
  · rw [getElem?_entries within] at here
    refine ⟨new, List.mem_set (by rw [length_entries]; exact within) new, ?_⟩
    rw [same, Option.some.inj here]

inductive LossOf (s : ArpSys) (e : ArpEntry) : ArpEvent → Prop
  | dropped (dead : arpDead s.ticks e = true) : LossOf s e .tick
  | replaced (conf : ArpConf) (tx : Bool) (p : Buffer UInt8) (len : Word)
      (valid : arpValid p len = true)
      (absent : ∀ other ∈ s.arp.entries, other.ip ≠ (arpPkt p).spa)
      (full : ¬s.arp.n < arpCacheMax) (victim : s.arp.cache (arpVictim s.ticks s.arp.cache) = e) :
      LossOf s e (.handle conf tx p len)

/-- An entry is lost in one of those ways only. -/
theorem CacheOk.lossOf {s : ArpSys} (ok : CacheOk s) {e : ArpEntry} (member : e ∈ s.arp.entries)
    {event : ArpEvent} (removed : Removed event s e.ip) : LossOf s e event := by
  cases event with
  | wait ticks => exact absurd rfl (removed e member)
  | resolve conf tx ip =>
    exfalso
    unfold Removed arpStep at removed
    dsimp only at removed
    cases arpResolve_move conf tx s.ticks ip s.arp with
    | silent sent kept =>
      rw [kept] at removed
      exact removed e member rfl
    | probed i pkt within same sent target few due changed =>
      rw [changed] at removed
      obtain ⟨other, kept, equal⟩ := exists_set_same member within
        { s.arp.cache i with reqTick := s.ticks, probes := (s.arp.cache i).probes + 1 } rfl
      exact removed other kept equal
    | asked pkt absent sent target due changed =>
      rw [changed] at removed
      exact removed e member rfl
  | tick =>
    apply LossOf.dropped
    by_contra alive
    have kept : e ∈ (arpTick s.ticks s.arp).entries := by
      rw [(entries_arpTick s.ticks s.arp).1]
      apply List.mem_filter.mpr
      exact ⟨member, by rw [Bool.not_eq_true] at alive; rw [alive]; rfl⟩
    exact removed e kept rfl
  | handle conf tx p len =>
    unfold Removed arpStep at removed
    dsimp only at removed
    rw [arpHandle_arp] at removed
    split at removed
    · rename_i valid
      cases arpCacheAdd_move s.ticks (arpPkt p).spa (arpPkt p).sha s.arp with
      | refreshed i within same changed =>
        rw [changed] at removed
        obtain ⟨other, kept, equal⟩ := exists_set_same member within
          { s.arp.cache i with mac := (arpPkt p).sha, seenTick := s.ticks, probes := 0 } rfl
        exact absurd equal (removed other kept)
      | appended absent room gate count entries =>
        rw [entries] at removed
        exact absurd rfl (removed e (List.mem_append_left _ member))
      | replaced absent full changed =>
        rw [changed, entries_setEntry] at removed
        have small : s.arp.n = arpCacheMax := Nat.le_antisymm ok.room (Nat.not_lt.mp full)
        have within : arpVictim s.ticks s.arp.cache < s.arp.n :=
          small.symm ▸ (arpVictim_cases s.ticks s.arp.cache).1
        rcases mem_set_of_mem member (arpVictim s.ticks s.arp.cache)
          (arpCacheFill s.ticks (arpPkt p).spa (arpPkt p).sha) with kept | here
        · exact absurd rfl (removed e kept)
        · rw [getElem?_entries within] at here
          exact .replaced conf tx p len valid absent full (Option.some.inj here)
    · exact absurd rfl (removed e member)

/-- A fresh entry is lost only to a new address in a cache of fresh entries, as the oldest. -/
theorem CacheOk.fresh_lost {s : ArpSys} (ok : CacheOk s) (close : TicksClose s) {e : ArpEntry}
    (member : e ∈ s.arp.entries) (young : s.now < confirmedAt s.log e + 3000) {event : ArpEvent}
    (removed : Removed event s e.ip) :
    (∃ conf tx p len, event = .handle conf tx p len ∧ arpValid p len = true ∧
      ∀ other ∈ s.arp.entries, other.ip ≠ (arpPkt p).spa) ∧
    s.arp.n = arpCacheMax ∧ ∀ other ∈ s.arp.entries,
      s.now < confirmedAt s.log other + 3000 ∧ confirmedAt s.log e ≤ confirmedAt s.log other := by
  cases ok.lossOf member removed with
  | dropped dead =>
    -- The scan passes over every entry that looks fresh.
    exfalso
    rw [arpDead, Bool.and_eq_true, Bool.not_eq_true', decide_eq_false_iff_not] at dead
    have old := (ok.entry e member).stale dead.1
    omega
  | replaced conf tx p len valid absent full victim =>
    have small : s.arp.n = arpCacheMax := Nat.le_antisymm ok.room (Nat.not_lt.mp full)
    have entry : ∀ i < arpCacheMax, s.arp.cache i ∈ s.arp.entries :=
      fun i within => cache_mem_entries (small.symm ▸ within)
    obtain ⟨within, stale | allYoung⟩ := arpVictim_cases s.ticks s.arp.cache
    · exfalso
      rw [victim] at stale
      have old := (ok.entry e member).stale (Nat.not_lt.mpr stale)
      omega
    · refine ⟨⟨conf, tx, p, len, rfl, valid, absent⟩, small, ?_⟩
      have fresh : ∀ i < arpCacheMax,
          s.now < confirmedAt s.log (s.arp.cache i) + 3000 :=
        fun i within => (ok.entry _ (entry i within)).fresh (close _ (entry i within))
          (Nat.not_le.mp (allYoung i within))
      have past : ∀ i < arpCacheMax, confirmedAt s.log (s.arp.cache i) ≤ s.now :=
        fun i within => (ok.entry _ (entry i within)).confirmation.1
      have oldest := arpVictim_oldest (fun i => confirmedAt s.log (s.arp.cache i))
        (fun i within => (ok.entry _ (entry i within)).confirmation.2.1)
        (fun i first j second => by have := fresh j second; have := past i first; omega) allYoung
      intro other inside
      obtain ⟨i, counted, rfl⟩ := mem_entries.mp inside
      rw [small] at counted
      have first := oldest i counted
      rw [victim] at first
      exact ⟨fresh i counted, first⟩

theorem probesSince_sublist (ip : Word) (log : List (Nat × ArpLog)) :
    (probesSince ip log).Sublist (log.map Prod.fst) := by
  induction log with
  | nil => exact List.Sublist.slnil
  | cons item rest ih =>
    obtain ⟨t, what⟩ := item
    cases what with
    | packet source mac =>
      unfold probesSince
      split
      · exact List.nil_sublist _
      · exact ih.cons t
    | request target =>
      unfold probesSince
      split
      · exact ih.cons_cons t
      · exact ih.cons t

/-- The scan drops an entry only after three probes that stayed without an answer. -/
theorem CacheOk.dropped {s : ArpSys} (ok : CacheOk s) {e : ArpEntry}
    (member : e ∈ s.arp.entries) (removed : Removed .tick s e.ip) :
    (probesSince e.ip s.log).length = 3 ∧ (∀ t ∈ probesSince e.ip s.log, t + 300 ≤ s.now) ∧
      confirmedAt s.log e + 3000 ≤ s.now := by
  cases ok.lossOf member removed with
  | dropped dead =>
    rw [arpDead, Bool.and_eq_true, Bool.and_eq_true, Bool.not_eq_true', decide_eq_false_iff_not,
      decide_eq_true_eq, decide_eq_true_eq] at dead
    obtain ⟨old, spent, waited⟩ := dead
    have entry := ok.entry e member
    have three : 3 ≤ e.probes.toNat := spent
    have few := entry.few
    have count : (probesSince e.ip s.log).length = 3 := by rw [← entry.probes]; omega
    refine ⟨count, ?_, entry.stale old⟩
    cases probes : probesSince e.ip s.log with
    | nil =>
      rw [probes] at count
      cases count
    | cons last earlier =>
      -- The latest probe set the time that the scan looks at.
      have sorted : (probesSince e.ip s.log).Pairwise fun later earlier => earlier ≤ later :=
        List.Pairwise.sublist (probesSince_sublist e.ip s.log)
          (List.pairwise_map.mpr ok.ordered)
      have within : ∀ t ∈ probesSince e.ip s.log, t ≤ s.now := by
        intro t inside
        obtain ⟨item, logged, rfl⟩ :=
          List.mem_map.mp ((probesSince_sublist e.ip s.log).subset inside)
        exact ok.past item logged
      rw [probes] at sorted within
      have past := within last List.mem_cons_self
      have distance := serial_sub_toNat_le (0 : Word) past
      have long : 300 ≤ (s.ticks - e.reqTick).toNat := waited
      rw [entry.asked last earlier probes] at long
      unfold ArpSys.ticks at long
      intro t inside
      rcases List.mem_cons.mp inside with rfl | before
      · omega
      · have order := (List.pairwise_cons.mp sorted).1 t before
        omega

def ArpSys.Empty (s : ArpSys) : Prop := s.arp.n = 0 ∧ s.log = []

theorem CacheOk.run {start s : ArpSys} (empty : start.Empty)
    (run : Run arpStep (fun _ _ => True) start s) : CacheOk s := by
  refine run.invariant CacheOk ?_ (fun event state _ ok => ok.step event)
  have none : start.arp.entries = [] := by rw [ArpState.entries, empty.1, Buffer.read_zero]
  refine ⟨empty.1 ▸ Nat.zero_le _, ?_, ?_, ?_, ?_⟩
  · rw [none]
    exact List.nodup_nil
  · rw [none]
    exact fun e member => absurd member List.not_mem_nil
  · rw [empty.2]
    exact List.Pairwise.nil
  · rw [empty.2]
    exact fun item member => absurd member List.not_mem_nil

/-- Over every history the cache is a bounded map from addresses to their latest packets. -/
theorem arp_cache_bounded_map {start s : ArpSys} (empty : start.Empty)
    (run : Run arpStep (fun _ _ => True) start s) :
    (s.arp.entries.length ≤ 8 ∧ (s.arp.entries.map ArpEntry.ip).Nodup ∧
      ∀ e ∈ s.arp.entries, e.probes ≤ 3) ∧
    (∀ conf tx ip, ip ≠ 0xFFFFFFFF →
      ((arpResolve conf tx s.ticks ip s.arp).mac.isSome = true ↔
        ∃ e ∈ s.arp.entries, e.ip = ip) ∧
      ∀ mac, (arpResolve conf tx s.ticks ip s.arp).mac = some mac →
        ∃ t, lastPacket ip s.log = some (t, mac)) ∧
    (TicksClose s → ∀ e ∈ s.arp.entries, s.now < confirmedAt s.log e + 3000 →
      ∀ event, Removed event s e.ip →
        (∃ conf tx p len, event = .handle conf tx p len ∧ arpValid p len = true ∧
          ∀ other ∈ s.arp.entries, other.ip ≠ (arpPkt p).spa) ∧
        s.arp.entries.length = 8 ∧ ∀ other ∈ s.arp.entries,
          s.now < confirmedAt s.log other + 3000 ∧
            confirmedAt s.log e ≤ confirmedAt s.log other) ∧
    (∀ e ∈ s.arp.entries, Removed .tick s e.ip →
      (probesSince e.ip s.log).length = 3 ∧ (∀ t ∈ probesSince e.ip s.log, t + 300 ≤ s.now) ∧
        ∃ t mac, lastPacket e.ip s.log = some (t, mac) ∧ t + 3000 ≤ s.now) := by
  have ok := CacheOk.run empty run
  refine ⟨⟨?_, ok.distinct, fun e member => (ok.entry e member).few⟩, ?_, ?_, ?_⟩
  · rw [length_entries]
    exact ok.room
  · intro conf tx ip single
    rw [arpResolve_mac conf tx s.arp single, Option.isSome_map]
    refine ⟨arpLookup_isSome, ?_⟩
    intro mac given
    obtain ⟨i, found, rfl⟩ := Option.map_eq_some_iff.mp given
    obtain ⟨within, same⟩ := arpLookup_some found
    obtain ⟨t, -, -, packet⟩ := (ok.entry _ (cache_mem_entries within)).seen
    exact ⟨t, same ▸ packet⟩
  · intro close e member young event removed
    rw [length_entries]
    exact ok.fresh_lost close member young removed
  · intro e member removed
    obtain ⟨count, waited, old⟩ := ok.dropped member removed
    exact ⟨count, waited, _, _, (ok.entry e member).confirmation.2.2, old⟩

def answerFrom (byte : UInt8) : Buffer UInt8 := fun i =>
  ([255, 255, 255, 255, 255, 255, 2, 0, 0, 0, 0, byte, 8, 6, 0, 1, 8, 0, 6, 4, 0, 2,
    2, 0, 0, 0, 0, byte, byte, 0, 0, 0] : List UInt8).getD i 0

def someConf : ArpConf := { gMac := Vector.replicate 6 1, gIp := 77 }

def emptyArp : ArpSys where
  arp := { cache := fun _ => arpCacheFill 0 0 (Vector.replicate 6 0), n := 0, reqGate := 0 }
  now := 0
  log := []

/-- After one answer its sender is found. -/
theorem arp_cache_bounded_map_one :
    let s := runInputs arpStep [.wait 5, .handle someConf true (answerFrom 9) 42] emptyArp
    (arpResolve someConf true s.ticks 9 s.arp).mac.isSome = true := by
  have map := @arp_cache_bounded_map emptyArp _ ⟨rfl, rfl⟩
    (Run.start.inputs [.wait 5, .handle someConf true (answerFrom 9) 42]
      (allAllowed_true _ _))
  refine (map.2.1 someConf true 9 (by decide)).1.mpr ?_
  exact ⟨_, cache_mem_entries (i := 0) (by decide), by decide⟩

end CatOs.Net
