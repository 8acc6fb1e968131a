import CatOs.Net.ArpCache

/-! The rate of requests for one address, and the replacements that lose count of it. -/

namespace CatOs.Net

def requestTime (ip : Word) (item : Nat × ArpLog) : Option Nat :=
  match item.2 with
  | .request target => if target = ip then some item.1 else none
  | .packet _ _ => none

def requestTimes (ip : Word) (log : List (Nat × ArpLog)) : List Nat :=
  log.filterMap (requestTime ip)

def ReplacesQuiet (event : ArpEvent) (s : ArpSys) : Prop :=
  match event with
  | .handle conf tx p len => ∀ e ∈ s.arp.entries, Removed (.handle conf tx p len) s e.ip →
      ∀ t ∈ requestTimes e.ip s.log, t + 100 ≤ s.now
  | _ => True

def Covers (tick : Word) (ip : Word) (s : ArpSys) : Prop :=
  ∃ t, t ≤ s.now ∧ tick = serial 0 t ∧ ∀ r ∈ requestTimes ip s.log, r ≤ t

def QuietIp (ip : Word) (s : ArpSys) : Prop := ∀ r ∈ requestTimes ip s.log, r + 100 ≤ s.now

structure RateOk (s : ArpSys) : Prop where
  cache : CacheOk s
  limited : ∀ ip, (requestTimes ip s.log).Pairwise fun later earlier => earlier + 100 ≤ later
  entry : ∀ e ∈ s.arp.entries, Covers e.reqTick e.ip s
  gate : ∀ ip, (∀ e ∈ s.arp.entries, e.ip ≠ ip) → Covers s.arp.reqGate ip s ∨ QuietIp ip s

theorem requestTimes_same (ip : Word) (t : Nat) (log : List (Nat × ArpLog)) :
    requestTimes ip ((t, .request ip) :: log) = t :: requestTimes ip log := by
  have time : requestTime ip (t, .request ip) = some t := if_pos rfl
  rw [requestTimes, List.filterMap_cons_some time, requestTimes]

theorem requestTimes_other {ip target : Word} (other : target ≠ ip) (t : Nat)
    (log : List (Nat × ArpLog)) :
    requestTimes ip ((t, .request target) :: log) = requestTimes ip log := by
  have time : requestTime ip (t, .request target) = none := if_neg other
  rw [requestTimes, List.filterMap_cons_none time, requestTimes]

theorem Covers.quiet {tick ip : Word} {s : ArpSys} (covers : Covers tick ip s) {least : Nat}
    (old : least ≤ (s.ticks - tick).toNat) (second : 100 ≤ least) : QuietIp ip s := by
  obtain ⟨t, past, rfl, before⟩ := covers
  have distance := serial_sub_toNat_le (0 : Word) past
  unfold ArpSys.ticks at old
  intro r asked
  have order := before r asked
  omega

theorem CacheOk.request_past {s : ArpSys} (ok : CacheOk s) {ip : Word} {t : Nat}
    (asked : t ∈ requestTimes ip s.log) : t ≤ s.now := by
  obtain ⟨item, logged, time⟩ := List.mem_filterMap.mp asked
  have past := ok.past item logged
  unfold requestTime at time
  split at time
  · split at time
    · rw [← Option.some.inj time]
      exact past
    · cases time
  · cases time

theorem CacheOk.covers_now {s : ArpSys} (ok : CacheOk s) (ip : Word) : Covers s.ticks ip s :=
  ⟨s.now, Nat.le_refl _, rfl, fun _ asked => ok.request_past asked⟩

theorem Covers.congr {tick ip : Word} {s after : ArpSys} (covers : Covers tick ip s)
    (passed : s.now ≤ after.now) (same : requestTimes ip after.log = requestTimes ip s.log) :
    Covers tick ip after := by
  obtain ⟨t, past, word, before⟩ := covers
  exact ⟨t, Nat.le_trans past passed, word, same ▸ before⟩

theorem QuietIp.congr {ip : Word} {s after : ArpSys} (quiet : QuietIp ip s)
    (passed : s.now ≤ after.now) (same : requestTimes ip after.log = requestTimes ip s.log) :
    QuietIp ip after := by
  intro r asked
  rw [same] at asked
  exact Nat.le_trans (quiet r asked) passed

theorem RateOk.keep {s after : ArpSys} (ok : RateOk s) (cache : CacheOk after)
    (passed : s.now ≤ after.now)
    (same : ∀ ip, requestTimes ip after.log = requestTimes ip s.log)
    (gate : after.arp.reqGate = s.arp.reqGate)
    (entry : ∀ e ∈ after.arp.entries, Covers e.reqTick e.ip s)
    (lost : ∀ e ∈ s.arp.entries, (∀ other ∈ after.arp.entries, other.ip ≠ e.ip) →
      QuietIp e.ip s) : RateOk after := by
  refine ⟨cache, ?_, ?_, ?_⟩
  · intro ip
    rw [same]
    exact ok.limited ip
  · intro e member
    exact (entry e member).congr passed (same e.ip)
  · intro ip absent
    by_cases before : ∀ e ∈ s.arp.entries, e.ip ≠ ip
    · rw [gate]
      exact (ok.gate ip before).imp (fun covers => covers.congr passed (same ip))
        (fun quiet => quiet.congr passed (same ip))
    · -- The address had an entry, which this event has lost.
      obtain ⟨e, member, equal⟩ : ∃ e ∈ s.arp.entries, e.ip = ip := by
        simpa only [not_forall, not_not, exists_prop] using before
      subst equal
      exact Or.inr ((lost e member absent).congr passed (same e.ip))

section RateOk

variable {s : ArpSys} (ok : RateOk s)
include ok

theorem RateOk.asked_limited {target : Word}
    (quiet : QuietIp target s) (ip : Word) :
    (requestTimes ip ((s.now, .request target) :: s.log)).Pairwise
      fun later earlier => earlier + 100 ≤ later := by
  rcases eq_or_ne target ip with rfl | other
  · rw [requestTimes_same]
    exact List.pairwise_cons.mpr ⟨quiet, ok.limited target⟩
  · rw [requestTimes_other other]
    exact ok.limited ip

theorem RateOk.handle {conf : ArpConf} {tx : Bool}
    {p : Buffer UInt8} {len : Word} (quiet : ReplacesQuiet (.handle conf tx p len) s) :
    RateOk (arpStep (.handle conf tx p len) s) := by
  have logged : ∀ ip, requestTimes ip (arpStep (.handle conf tx p len) s).log =
      requestTimes ip s.log := by
    intro ip
    unfold arpStep
    dsimp only
    split <;> rfl
  have arp : (arpStep (.handle conf tx p len) s).arp =
      if arpValid p len then arpCacheAdd s.ticks (arpPkt p).spa (arpPkt p).sha s.arp
      else s.arp := arpHandle_arp conf tx s.ticks p len s.arp
  -- The gate stays, and every entry is an old one, an old one confirmed, or a new one.
  have changes : (arpStep (.handle conf tx p len) s).arp.reqGate = s.arp.reqGate ∧
      ∀ e ∈ (arpStep (.handle conf tx p len) s).arp.entries, Covers e.reqTick e.ip s := by
    rw [arp]
    split
    · cases arpCacheAdd_move s.ticks (arpPkt p).spa (arpPkt p).sha s.arp with
      | refreshed i within same changed =>
        rw [changed]
        refine ⟨rfl, ?_⟩
        intro e member
        rw [entries_setEntry] at member
        rcases List.mem_or_eq_of_mem_set member with old | rfl
        · exact ok.entry e old
        · exact ok.entry (s.arp.cache i) (cache_mem_entries within)
      | appended absent room gate count entries =>
        refine ⟨gate, ?_⟩
        intro e member
        rw [entries] at member
        rcases List.mem_append.mp member with old | new
        · exact ok.entry e old
        · rw [List.mem_singleton.mp new]
          exact ok.cache.covers_now _
      | replaced absent full changed =>
        rw [changed]
        refine ⟨rfl, ?_⟩
        intro e member
        rw [entries_setEntry] at member
        rcases List.mem_or_eq_of_mem_set member with old | rfl
        · exact ok.entry e old
        · exact ok.cache.covers_now _
    · exact ⟨rfl, ok.entry⟩
  exact ok.keep (ok.cache.step _) (Nat.le_refl _) logged changes.1 changes.2
    (fun e member removed => quiet e member removed)

theorem RateOk.resolve (conf : ArpConf) (tx : Bool) (ip : Word) :
    RateOk (arpStep (.resolve conf tx ip) s) := by
  have cache := ok.cache.step (.resolve conf tx ip)
  unfold arpStep at cache ⊢
  dsimp only at cache ⊢
  cases arpResolve_move conf tx s.ticks ip s.arp with
  | silent sent kept =>
    rw [sent, kept]
    exact ok
  | probed i pkt within same sent target few due changed =>
    rw [sent, changed] at cache ⊢
    dsimp only at cache ⊢
    rw [target] at cache ⊢
    have quiet : QuietIp ip s :=
      (same ▸ ok.entry _ (cache_mem_entries within)).quiet (Nat.not_lt.mp due) (Nat.le_refl _)
    have held := getElem?_entries within
    refine ⟨cache, ok.asked_limited quiet, ?_, ?_⟩
    · intro e member
      dsimp only at member
      rw [entries_setEntry] at member
      rcases ok.cache.distinct.mem_set held member with rfl | ⟨old, other⟩
      · exact cache.covers_now _
      · exact (ok.entry e old).congr (Nat.le_refl _)
          (requestTimes_other (fun equal => other (equal.symm.trans same.symm)) _ _)
    · intro other absent
      have before : ∀ e ∈ s.arp.entries, e.ip ≠ other := by
        intro e member equal
        obtain ⟨kept, inside, again⟩ := exists_set_same member within
          { s.arp.cache i with reqTick := s.ticks, probes := (s.arp.cache i).probes + 1 } rfl
        exact absent kept inside (again.trans equal)
      have different : ip ≠ other := by
        rw [← same]
        exact before _ (cache_mem_entries within)
      exact (ok.gate other before).imp
        (fun covers => covers.congr (Nat.le_refl _) (requestTimes_other different _ _))
        (fun quiet => quiet.congr (Nat.le_refl _) (requestTimes_other different _ _))
  | asked pkt absent sent target due changed =>
    rw [sent, changed] at cache ⊢
    dsimp only at cache ⊢
    rw [target] at cache ⊢
    have quiet : QuietIp ip s :=
      (ok.gate ip absent).elim (fun covers => covers.quiet (Nat.not_lt.mp due) (Nat.le_refl _)) id
    refine ⟨cache, ok.asked_limited quiet, ?_, ?_⟩
    · intro e member
      exact (ok.entry e member).congr (Nat.le_refl _)
        (requestTimes_other (Ne.symm (absent e member)) _ _)
    · intro other _
      exact Or.inl (cache.covers_now other)

theorem RateOk.tick : RateOk (arpStep .tick s) := by
  obtain ⟨scanned, gate⟩ := entries_arpTick s.ticks s.arp
  refine ok.keep (ok.cache.step _) (Nat.le_refl _) (fun _ => rfl) gate ?_ ?_
  · intro e member
    have inside : e ∈ (arpTick s.ticks s.arp).entries := member
    rw [scanned] at inside
    exact ok.entry e (List.mem_of_mem_filter inside)
  · intro e member removed
    have loss : LossOf s e .tick := ok.cache.lossOf member removed
    cases loss with
    | dropped dead =>
      rw [arpDead, Bool.and_eq_true, Bool.and_eq_true, decide_eq_true_eq, decide_eq_true_eq]
        at dead
      exact (ok.entry e member).quiet dead.2.2 (by decide)

theorem RateOk.step {event : ArpEvent}
    (quiet : ReplacesQuiet event s) : RateOk (arpStep event s) := by
  cases event with
  | wait ticks =>
    have passed : s.now ≤ s.now + ticks := Nat.le_add_right s.now ticks
    exact ok.keep (ok.cache.step _) passed (fun _ => rfl) rfl ok.entry
      (fun e member removed => absurd rfl (removed e member))
  | handle conf tx p len => exact ok.handle quiet
  | resolve conf tx ip => exact ok.resolve conf tx ip
  | tick => exact ok.tick

end RateOk

def twoRequests : List ArpEvent :=
  [.wait 100, .resolve someConf true 9, .wait 100, .resolve someConf true 9]

def replacedProbe : List ArpEvent :=
  ([1, 2, 3, 4, 5, 6, 7, 8].map fun byte => .handle someConf true (answerFrom byte) 42) ++
    [.wait 3000, .resolve someConf true 1, .wait 1, .handle someConf true (answerFrom 9) 42,
      .resolve someConf true 1]

end CatOs.Net
