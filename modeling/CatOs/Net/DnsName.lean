import CatOs.Net.Dns

/-! The name reader: which names it accepts, what it makes of them, and that it always ends. -/

namespace CatOs.Net

def encodeLabels (labels : List (List UInt8)) : List UInt8 :=
  labels.flatMap fun label => UInt8.ofNat label.length :: label

/--
A way through a message that ends at a zero byte.

It has the labels it passes, the pointers it takes and the bytes these take up, and the end of
the part that stands in place: behind the zero byte, or behind the first pointer.
-/
inductive NameWalk (msg : List UInt8) : Nat → List (List UInt8) → Nat → Nat → Nat → Prop
  | zero {p : Nat} (head : msg[p]? = some 0) : NameWalk msg p [] 0 0 (p + 1)
  | label {p : Nat} {l : UInt8} {labels : List (List UInt8)} {jumps used past : Nat}
      (head : msg[p]? = some l) (nonzero : l ≠ 0) (plain : l &&& 0xC0 = 0)
      (inside : p + l.toNat < msg.length)
      (next : NameWalk msg (p + (1 + l.toNat)) labels jumps used past) :
      NameWalk msg p ((msg.drop (p + 1)).take l.toNat :: labels) jumps (1 + l.toNat + used) past
  | pointer {p : Nat} {l low : UInt8} {labels : List (List UInt8)} {jumps used past : Nat}
      (head : msg[p]? = some l) (kind : l &&& 0xC0 = 0xC0) (second : msg[p + 1]? = some low)
      (behind : 12 ≤ (l &&& 0x3F).toNat * 256 + low.toNat)
      (back : (l &&& 0x3F).toNat * 256 + low.toNat < p)
      (next : NameWalk msg ((l &&& 0x3F).toNat * 256 + low.toNat) labels jumps used past) :
      NameWalk msg p labels (jumps + 1) (2 + used) (p + 2)

structure NameState.Wrote (s : NameState) (room : Option (List UInt8)) (cap : Nat)
    (front : List UInt8) : Prop where
  out : s.out = room.map fun room => front ++ room.drop front.length
  fits : ∀ array, room = some array →
    s.ol = front.length ∧ front.length ≤ cap ∧ cap ≤ array.length

structure Reads (msg : List UInt8) (cap : Nat) (room : Option (List UInt8))
    (front : List UInt8) (s : NameState) (labels : List (List UInt8)) (jumps used past : Nat) :
    Prop where
  walk : NameWalk msg s.p labels jumps used past
  jumps : s.jumps + jumps ≤ dnsNamePtrMax
  used : s.used + used ≤ msg.length
  fits : room.isSome = true → front.length + (encodeLabels labels).length + 1 ≤ cap

inductive NameMove (msg : List UInt8) (cap : Nat) (room : Option (List UInt8))
    (front : List UInt8) (s : NameState) : NameStep → Prop
  | refused {r : NameResult} (no : r.ok = false)
      (stuck : ∀ labels jumps used past, ¬Reads msg cap room front s labels jumps used past) :
      NameMove msg cap room front s (.stop r)
  | ended {r : NameResult} (head : msg[s.p]? = some 0) (ok : r.ok = true)
      (off : r.off = if s.jumped then s.off else s.p + 1)
      (out : r.out = room.map fun room => front ++ [0] ++ room.drop (front ++ [0]).length)
      (dlen : room.isSome = true → r.dlen = some (front.length + 1))
      (fits : room.isSome = true → front.length + 1 ≤ cap) :
      NameMove msg cap room front s (.stop r)
  | jumped {l low : UInt8} {next : NameState} (head : msg[s.p]? = some l)
      (kind : l &&& 0xC0 = 0xC0) (second : msg[s.p + 1]? = some low)
      (behind : 12 ≤ (l &&& 0x3F).toNat * 256 + low.toNat)
      (back : (l &&& 0x3F).toNat * 256 + low.toNat < s.p)
      (few : s.jumps + 1 ≤ dnsNamePtrMax) (within : s.used + 2 ≤ msg.length)
      (place : next.p = (l &&& 0x3F).toNat * 256 + low.toNat)
      (jumps : next.jumps = s.jumps + 1) (used : next.used = s.used + 2)
      (flag : next.jumped = true) (off : next.off = if s.jumped then s.off else s.p + 2)
      (wrote : next.Wrote room cap front) : NameMove msg cap room front s (.next next)
  | passed {l : UInt8} {next : NameState} (head : msg[s.p]? = some l) (nonzero : l ≠ 0)
      (plain : l &&& 0xC0 = 0) (inside : s.p + l.toNat < msg.length)
      (within : s.used + (1 + l.toNat) ≤ msg.length)
      (place : next.p = s.p + (1 + l.toNat)) (jumps : next.jumps = s.jumps)
      (used : next.used = s.used + (1 + l.toNat)) (flag : next.jumped = s.jumped)
      (off : next.off = s.off)
      (wrote : next.Wrote room cap (front ++ (l :: (msg.drop (s.p + 1)).take l.toNat))) :
      NameMove msg cap room front s (.next next)

theorem encodeLabels_cons (label : List UInt8) (labels : List (List UInt8)) :
    encodeLabels (label :: labels) = UInt8.ofNat label.length :: label ++ encodeLabels labels := by
  rw [encodeLabels, List.flatMap_cons, encodeLabels]

section List

variable {msg : List UInt8} {p : Nat}

theorem encodeLabels_read {l : UInt8}
    (inside : p + l.toNat < msg.length) (labels : List (List UInt8)) :
    encodeLabels ((msg.drop (p + 1)).take l.toNat :: labels) =
      l :: (msg.drop (p + 1)).take l.toNat ++ encodeLabels labels := by
  rw [encodeLabels_cons, length_run (by omega), UInt8.ofNat_toNat]

theorem NameWalk.of_zero {labels : List (List UInt8)}
    {jumps used past : Nat} (head : msg[p]? = some 0)
    (walk : NameWalk msg p labels jumps used past) :
    labels = [] ∧ jumps = 0 ∧ used = 0 ∧ past = p + 1 := by
  cases walk with
  | zero _ => exact ⟨rfl, rfl, rfl, rfl⟩
  | label found nonzero _ _ _ =>
    rw [head] at found
    exact absurd (Option.some.inj found).symm nonzero
  | pointer found kind _ _ _ _ =>
    rw [head] at found
    rw [← Option.some.inj found] at kind
    exact absurd kind (by decide)

theorem NameWalk.of_plain {l : UInt8} {labels : List (List UInt8)}
    {jumps used past : Nat} (head : msg[p]? = some l) (nonzero : l ≠ 0) (plain : l &&& 0xC0 = 0)
    (walk : NameWalk msg p labels jumps used past) :
    p + l.toNat < msg.length ∧ ∃ rest usedRest,
      labels = (msg.drop (p + 1)).take l.toNat :: rest ∧ used = 1 + l.toNat + usedRest ∧
      NameWalk msg (p + (1 + l.toNat)) rest jumps usedRest past := by
  cases walk with
  | zero found =>
    rw [head] at found
    exact absurd (Option.some.inj found) nonzero
  | label found _ _ inside next =>
    rw [head] at found
    obtain rfl := Option.some.inj found
    exact ⟨inside, _, _, rfl, rfl, next⟩
  | pointer found kind _ _ _ _ =>
    rw [head] at found
    rw [← Option.some.inj found, plain] at kind
    exact absurd kind (by decide)

theorem NameWalk.of_pointer {l : UInt8}
    {labels : List (List UInt8)} {jumps used past : Nat} (head : msg[p]? = some l)
    (kind : l &&& 0xC0 = 0xC0) (walk : NameWalk msg p labels jumps used past) :
    ∃ low jumpsRest usedRest pastRest, msg[p + 1]? = some low ∧
      12 ≤ (l &&& 0x3F).toNat * 256 + low.toNat ∧ (l &&& 0x3F).toNat * 256 + low.toNat < p ∧
      jumps = jumpsRest + 1 ∧ used = 2 + usedRest ∧ past = p + 2 ∧
      NameWalk msg ((l &&& 0x3F).toNat * 256 + low.toNat) labels jumpsRest usedRest pastRest := by
  cases walk with
  | zero found =>
    rw [head] at found
    rw [Option.some.inj found] at kind
    exact absurd kind (by decide)
  | label found _ plain _ _ =>
    rw [head] at found
    rw [← Option.some.inj found, kind] at plain
    exact absurd plain (by decide)
  | pointer found _ second behind back next =>
    rw [head] at found
    obtain rfl := Option.some.inj found
    exact ⟨_, _, _, _, second, behind, back, rfl, rfl, rfl, next⟩

theorem NameWalk.start {labels : List (List UInt8)}
    {jumps used past : Nat} (walk : NameWalk msg p labels jumps used past) :
    ∃ l, msg[p]? = some l ∧ (l &&& 0xC0 = 0 ∨ l &&& 0xC0 = 0xC0) := by
  cases walk with
  | zero head => exact ⟨0, head, Or.inl (by decide)⟩
  | label head _ plain _ _ => exact ⟨_, head, Or.inl plain⟩
  | pointer head kind _ _ _ _ => exact ⟨_, head, Or.inr kind⟩

end List

section Steps

variable {msg : List UInt8} {cap : Nat} {room : Option (List UInt8)} {front : List UInt8}
  {s : NameState}

theorem nameEnd_move (wrote : s.Wrote room cap front) (head : msg[s.p]? = some 0) :
    ∃ st, nameEnd cap s = .ok st ∧ NameMove msg cap room front s st := by
  unfold nameEnd
  cases room with
  | none =>
    have out : s.out = none := wrote.out
    rw [out]
    exact ⟨_, rfl, .ended head rfl rfl rfl (fun given => absurd given Bool.false_ne_true)
      (fun given => absurd given Bool.false_ne_true)⟩
  | some array =>
    have out : s.out = some (front ++ array.drop front.length) := wrote.out
    obtain ⟨length, below, large⟩ := wrote.fits array rfl
    rw [out, length]
    dsimp only
    split
    · rename_i full
      refine ⟨_, rfl, .refused rfl ?_⟩
      intro labels jumps used past reads
      have fits := reads.fits rfl
      rw [(reads.walk.of_zero head).1] at fits
      exact absurd fits (Nat.not_le.mpr full)
    · rename_i fits
      have inside : front.length + [(0 : UInt8)].length ≤ array.length := by
        rw [List.length_singleton]
        omega
      rw [writeRun_front inside]
      exact ⟨_, rfl, .ended head rfl rfl rfl (fun _ => rfl) (fun _ => by omega)⟩

/-- A pointer is taken if it points back behind the header and no limit is passed. -/
theorem namePointer_move {l : UInt8} (wrote : s.Wrote room cap front)
    (head : msg[s.p]? = some l) (kind : l &&& 0xC0 = 0xC0) :
    ∃ st, namePointer msg l s = .ok st ∧ NameMove msg cap room front s st := by
  unfold namePointer
  split
  · rename_i short
    refine ⟨_, rfl, .refused rfl ?_⟩
    intro labels jumps used past reads
    obtain ⟨low, _, _, _, second, _⟩ := reads.walk.of_pointer head kind
    have within := (List.getElem?_eq_some_iff.mp second).1
    omega
  · rename_i long
    obtain ⟨low, second⟩ : ∃ low, msg[s.p + 1]? = some low :=
      ⟨_, List.getElem?_eq_getElem (by omega)⟩
    rw [readAt_of_some second]
    dsimp only
    -- Whatever way there is goes on at this target, with one jump and two bytes less.
    have follow : ∀ {labels jumps used past}, Reads msg cap room front s labels jumps used past →
        12 ≤ (l &&& 0x3F).toNat * 256 + low.toNat ∧
        (l &&& 0x3F).toNat * 256 + low.toNat < s.p ∧ s.jumps + 1 ≤ dnsNamePtrMax ∧
        s.used + 2 ≤ msg.length := by
      intro labels jumps used past reads
      obtain ⟨other, _, _, _, found, behind, back, rfl, rfl, -, -⟩ :=
        reads.walk.of_pointer head kind
      obtain rfl := Option.some.inj (second.symm.trans found)
      have few := reads.jumps
      have within := reads.used
      omega
    split
    · rename_i bad
      refine ⟨_, rfl, .refused rfl ?_⟩
      intro labels jumps used past reads
      have good := follow reads
      omega
    · rename_i good
      split
      · rename_i many
        refine ⟨_, rfl, .refused rfl ?_⟩
        intro labels jumps used past reads
        have few := (follow reads).2.2.1
        omega
      · rename_i few
        split
        · rename_i large
          refine ⟨_, rfl, .refused rfl ?_⟩
          intro labels jumps used past reads
          have within := (follow reads).2.2.2
          omega
        · rename_i within
          exact ⟨_, rfl, .jumped head kind second (by omega) (by omega) (by omega) (by omega) rfl
            rfl rfl rfl rfl ⟨wrote.out, wrote.fits⟩⟩

/-- A label that stands inside the message is copied whole, if there is room for it. -/
theorem copyLabel_cases {l : UInt8} (wrote : s.Wrote room cap front)
    (inside : s.p + l.toNat < msg.length) :
    (copyLabel msg cap l s = .ok none ∧ room.isSome = true ∧
      cap < front.length + (1 + l.toNat)) ∨
    ∃ out ol, copyLabel msg cap l s = .ok (some { s with out := out, ol := ol }) ∧
      NameState.Wrote { s with out := out, ol := ol } room cap
        (front ++ (l :: (msg.drop (s.p + 1)).take l.toNat)) := by
  have width : (l :: (msg.drop (s.p + 1)).take l.toNat).length = 1 + l.toNat := by
    rw [List.length_cons, length_run (by omega), Nat.add_comm]
  unfold copyLabel
  cases room with
  | none =>
    right
    have out : s.out = none := wrote.out
    refine ⟨s.out, s.ol, ?_, out, fun array given => absurd given (by simp)⟩
    split
    · rfl
    · rename_i given
      rw [out] at given
      cases given
  | some array =>
    have out : s.out = some (front ++ array.drop front.length) := wrote.out
    obtain ⟨length, below, large⟩ := wrote.fits array rfl
    rw [out, length]
    dsimp only
    split
    · rename_i full
      exact Or.inl ⟨rfl, rfl, by omega⟩
    · rename_i fits
      right
      rw [readRun_of_le (show s.p + 1 + l.toNat ≤ msg.length by omega)]
      dsimp only
      rw [writeRun_front (by rw [width]; omega)]
      refine ⟨_, _, rfl, rfl, ?_⟩
      intro other same
      obtain rfl := Option.some.inj same
      dsimp only
      rw [List.length_append, width]
      omega

/-- A label is passed if it lies inside the message and no limit is passed. -/
theorem nameLabel_move {l : UInt8} (wrote : s.Wrote room cap front)
    (head : msg[s.p]? = some l) (nonzero : l ≠ 0) (plain : l &&& 0xC0 = 0) :
    ∃ st, nameLabel msg cap l s = .ok st ∧ NameMove msg cap room front s st := by
  have start := (List.getElem?_eq_some_iff.mp head).1
  -- Whatever way there is goes on behind this label, with its bytes less.
  have follow : ∀ {labels jumps used past}, Reads msg cap room front s labels jumps used past →
      s.p + l.toNat < msg.length ∧ s.used + (1 + l.toNat) ≤ msg.length ∧
      (room.isSome = true → front.length + (1 + l.toNat) ≤ cap) := by
    intro labels jumps used past reads
    obtain ⟨inside, rest, usedRest, rfl, rfl, -⟩ := reads.walk.of_plain head nonzero plain
    have within := reads.used
    refine ⟨inside, by omega, ?_⟩
    intro given
    have fits := reads.fits given
    rw [encodeLabels_read inside, List.length_append, List.length_cons, length_run (by omega)]
      at fits
    omega
  unfold nameLabel
  split
  · rename_i outside
    refine ⟨_, rfl, .refused rfl ?_⟩
    intro labels jumps used past reads
    have inside := (follow reads).1
    omega
  · rename_i within
    have inside : s.p + l.toNat < msg.length := by omega
    rcases copyLabel_cases wrote inside with ⟨copied, given, full⟩ | ⟨out, ol, copied, wrote'⟩
    · rw [copied]
      refine ⟨_, rfl, .refused rfl ?_⟩
      intro labels jumps used past reads
      have fits := (follow reads).2.2 given
      omega
    · rw [copied]
      dsimp only
      split
      · rename_i large
        refine ⟨_, rfl, .refused rfl ?_⟩
        intro labels jumps used past reads
        have few := (follow reads).2.1
        omega
      · rename_i few
        exact ⟨_, rfl, .passed head nonzero plain inside (by omega) rfl rfl rfl rfl rfl
          ⟨wrote'.out, wrote'.fits⟩⟩

theorem nameStep_move (wrote : s.Wrote room cap front) :
    ∃ st, nameStep msg cap s = .ok st ∧ NameMove msg cap room front s st := by
  unfold nameStep
  split
  · rename_i outside
    refine ⟨_, rfl, .refused rfl ?_⟩
    intro labels jumps used past reads
    obtain ⟨l, head, -⟩ := reads.walk.start
    have within := (List.getElem?_eq_some_iff.mp head).1
    omega
  · rename_i within
    obtain ⟨l, head⟩ : ∃ l, msg[s.p]? = some l := ⟨_, List.getElem?_eq_getElem (by omega)⟩
    rw [readAt_of_some head]
    dsimp only
    by_cases zero : l = 0
    · subst zero
      rw [if_pos rfl]
      exact nameEnd_move wrote head
    · rw [if_neg zero]
      by_cases pointer : l &&& 0xC0 = 0xC0
      · rw [if_pos pointer]
        exact namePointer_move wrote head pointer
      · rw [if_neg pointer]
        by_cases plain : l &&& 0xC0 = 0
        · rw [if_neg (not_not.mpr plain)]
          exact nameLabel_move wrote head zero plain
        · rw [if_pos plain]
          refine ⟨_, rfl, .refused rfl ?_⟩
          intro labels jumps used past reads
          obtain ⟨other, found, kinds⟩ := reads.walk.start
          rw [← Option.some.inj (head.symm.trans found)] at kinds
          exact kinds.elim plain pointer

structure NameRead (room : Option (List UInt8)) (front : List UInt8) (s : NameState)
    (labels : List (List UInt8)) (past : Nat) (r : NameResult) : Prop where
  off : r.off = if s.jumped then s.off else past
  out : r.out = room.map fun room =>
    front ++ encodeLabels labels ++ [0] ++ room.drop (front ++ encodeLabels labels ++ [0]).length
  dlen : room.isSome = true → r.dlen = some (front.length + (encodeLabels labels).length + 1)

/-- With a pass for every byte left, the reader ends, and accepts what keeps to the limits. -/
theorem nameLoop_spec : ∀ (fuel : Nat) (s : NameState) (front : List UInt8),
    s.Wrote room cap front → s.jumps ≤ dnsNamePtrMax → s.used ≤ msg.length →
    msg.length + 1 ≤ s.used + fuel →
    ∃ r, nameLoop msg cap fuel s = .ok r ∧
      ((∃ labels jumps used past, Reads msg cap room front s labels jumps used past) →
        r.ok = true) ∧
      (r.ok = true → ∃ labels jumps used past,
        Reads msg cap room front s labels jumps used past ∧
        NameRead room front s labels past r) := by
  intro fuel
  -- Every pass that goes on uses up at least two bytes, so the fuel outlasts the message.
  induction fuel with
  | zero =>
    intro s front _ _ few enough
    omega
  | succ fuel ih =>
    intro s front wrote limit few enough
    obtain ⟨st, stepped, move⟩ := @nameStep_move msg cap room front s wrote
    unfold nameLoop
    rw [stepped]
    cases move with
    | refused no stuck =>
      refine ⟨_, rfl, ?_, fun yes => absurd (no.symm.trans yes) Bool.false_ne_true⟩
      intro found
      obtain ⟨labels, jumps, used, past, reads⟩ := found
      exact absurd reads (stuck labels jumps used past)
    | ended head ok off out dlen fits =>
      refine ⟨_, rfl, fun _ => ok, fun _ => ?_⟩
      refine ⟨[], 0, 0, s.p + 1, ⟨.zero head, limit, few, fits⟩, off, ?_, dlen⟩
      rw [out]
      simp only [encodeLabels, List.flatMap_nil, List.append_nil]
    | @jumped l low next head kind second behind back few' within place jumps used flag off
        wrote' =>
      obtain ⟨r, looped, accepted, sound⟩ := ih next front wrote' (by omega) (by omega) (by omega)
      refine ⟨r, looped, ?_, ?_⟩
      · intro found
        obtain ⟨labels, j, u, past, reads⟩ := found
        obtain ⟨other, jRest, uRest, pastRest, found, -, -, rfl, rfl, -, walk⟩ :=
          reads.walk.of_pointer head kind
        obtain rfl := Option.some.inj (second.symm.trans found)
        have total := reads.jumps
        have bytes := reads.used
        exact accepted ⟨labels, jRest, uRest, pastRest, place.symm ▸ walk, by omega, by omega,
          reads.fits⟩
      · intro yes
        obtain ⟨labels, j, u, past, reads, read⟩ := sound yes
        have total := reads.jumps
        have bytes := reads.used
        refine ⟨labels, j + 1, 2 + u, s.p + 2,
          ⟨.pointer head kind second behind back (place ▸ reads.walk), by omega, by omega,
            reads.fits⟩, ?_, read.out, read.dlen⟩
        rw [read.off, flag, if_pos rfl, off]
    | @passed l next head nonzero plain inside within place jumps used flag off wrote' =>
      obtain ⟨r, looped, accepted, sound⟩ := ih next _ wrote' (by omega) (by omega) (by omega)
      -- The label goes from the rest of the name to the front that is written.
      have moved : ∀ rest, front ++ (l :: (msg.drop (s.p + 1)).take l.toNat) ++ encodeLabels rest =
          front ++ encodeLabels ((msg.drop (s.p + 1)).take l.toNat :: rest) := by
        intro rest
        rw [encodeLabels_read inside, List.append_assoc]
      have length : ∀ rest, (front ++ (l :: (msg.drop (s.p + 1)).take l.toNat)).length +
          (encodeLabels rest).length = front.length +
          (encodeLabels ((msg.drop (s.p + 1)).take l.toNat :: rest)).length := by
        intro rest
        rw [← List.length_append, ← List.length_append, moved]
      refine ⟨r, looped, ?_, ?_⟩
      · intro found
        obtain ⟨labels, j, u, past, reads⟩ := found
        obtain ⟨-, rest, uRest, rfl, rfl, walk⟩ := reads.walk.of_plain head nonzero plain
        have total := reads.jumps
        have bytes := reads.used
        refine accepted ⟨rest, j, uRest, past, place.symm ▸ walk, by omega, by omega, ?_⟩
        intro given
        rw [length]
        exact reads.fits given
      · intro yes
        obtain ⟨labels, j, u, past, reads, read⟩ := sound yes
        have total := reads.jumps
        have bytes := reads.used
        refine ⟨(msg.drop (s.p + 1)).take l.toNat :: labels, j, 1 + l.toNat + u, past,
          ⟨.label head nonzero plain inside (place ▸ reads.walk), by omega, by omega, ?_⟩, ?_, ?_,
          ?_⟩
        · intro given
          rw [← length]
          exact reads.fits given
        · rw [read.off, flag, off]
        · rw [read.out, moved]
        · intro given
          rw [read.dlen given, length]

end Steps

theorem wrote_start (off : Nat) {room : Option (List UInt8)} {cap : Nat}
    (fits : ∀ array, room = some array → cap ≤ array.length) :
    NameState.Wrote { p := off, jumps := 0, used := 0, ol := 0, jumped := false, off := off
                      out := room } room cap [] := by
  refine ⟨?_, fun array given => ⟨rfl, Nat.zero_le _, fits array given⟩⟩
  cases room with
  | none => rfl
  | some array => rfl

theorem NameWalk.unique {msg : List UInt8} {p : Nat} {labels : List (List UInt8)}
    {jumps used past : Nat} (walk : NameWalk msg p labels jumps used past) :
    ∀ {labels' jumps' used' past'}, NameWalk msg p labels' jumps' used' past' →
      labels' = labels ∧ jumps' = jumps ∧ used' = used ∧ past' = past := by
  induction walk with
  | zero head =>
    intro labels' jumps' used' past' other
    exact other.of_zero head
  | label head nonzero plain inside next ih =>
    intro labels' jumps' used' past' other
    obtain ⟨-, rest, usedRest, rfl, rfl, further⟩ := other.of_plain head nonzero plain
    obtain ⟨rfl, rfl, rfl, rfl⟩ := ih further
    exact ⟨rfl, rfl, rfl, rfl⟩
  | pointer head kind second behind back next ih =>
    intro labels' jumps' used' past' other
    obtain ⟨low, _, _, _, found, -, -, rfl, rfl, rfl, further⟩ := other.of_pointer head kind
    obtain rfl := Option.some.inj (second.symm.trans found)
    obtain ⟨rfl, rfl, rfl, -⟩ := ih further
    exact ⟨rfl, rfl, rfl, rfl⟩

/-- What the reader does from an offset on, in terms of the way to the end of the name. -/
theorem dnsReadName_spec (msg : List UInt8) (off : Nat) {room : Option (List UInt8)} {cap : Nat}
    (fits : ∀ array, room = some array → cap ≤ array.length) :
    ∃ r, dnsReadName msg off room cap = .ok r ∧
      (r.ok = true ↔ ∃ labels jumps used past, NameWalk msg off labels jumps used past ∧
        jumps ≤ dnsNamePtrMax ∧ used ≤ msg.length ∧
        (room.isSome = true → (encodeLabels labels).length + 1 ≤ cap)) ∧
      (r.ok = true → ∀ labels jumps used past, NameWalk msg off labels jumps used past →
        r.off = past ∧ ∀ array, room = some array →
          r.out = some (encodeLabels labels ++ [0] ++
            array.drop ((encodeLabels labels).length + 1)) ∧
          r.dlen = some ((encodeLabels labels).length + 1)) := by
  obtain ⟨r, looped, accepted, sound⟩ := @nameLoop_spec msg cap room (msg.length + 1) _ []
    (wrote_start off fits) (Nat.zero_le _) (Nat.zero_le _) (by omega)
  have limits : ∀ labels jumps used past,
      Reads msg cap room [] { p := off, jumps := 0, used := 0, ol := 0, jumped := false
                              off := off, out := room } labels jumps used past ↔
        NameWalk msg off labels jumps used past ∧ jumps ≤ dnsNamePtrMax ∧ used ≤ msg.length ∧
        (room.isSome = true → (encodeLabels labels).length + 1 ≤ cap) := by
    intro labels jumps used past
    constructor
    · intro reads
      have few := reads.jumps
      have bytes := reads.used
      have inside := reads.fits
      simp only [Nat.zero_add, List.length_nil] at few bytes inside
      exact ⟨reads.walk, few, bytes, inside⟩
    · intro found
      obtain ⟨walk, few, bytes, inside⟩ := found
      refine ⟨walk, ?_, ?_, ?_⟩ <;> simpa only [Nat.zero_add, List.length_nil]
  refine ⟨r, looped, ⟨?_, ?_⟩, ?_⟩
  · intro yes
    obtain ⟨labels, jumps, used, past, reads, -⟩ := sound yes
    exact ⟨labels, jumps, used, past, (limits labels jumps used past).mp reads⟩
  · intro found
    obtain ⟨labels, jumps, used, past, within⟩ := found
    exact accepted ⟨labels, jumps, used, past, (limits labels jumps used past).mpr within⟩
  · intro yes labels jumps used past walk
    obtain ⟨labels', jumps', used', past', reads, read⟩ := sound yes
    obtain ⟨rfl, -, -, rfl⟩ := walk.unique reads.walk
    refine ⟨read.off, ?_⟩
    intro array given
    subst given
    have out := read.out
    have dlen := read.dlen rfl
    simp only [List.nil_append, Option.map_some, List.length_append, List.length_singleton,
      List.length_nil, Nat.zero_add] at out dlen
    exact ⟨out, dlen⟩

/-- The reader always ends inside its arrays, and accepts exactly the names within the limits. -/
theorem dns_read_name_correct (msg : List UInt8) (off cap : Nat) (room : Option (List UInt8))
    (size : ∀ array, room = some array → array.length = cap) :
    ∃ r, dnsReadName msg off room cap = .ok r ∧
      (r.ok = true ↔ ∃ labels jumps used past, NameWalk msg off labels jumps used past ∧
        jumps ≤ 8 ∧ used ≤ msg.length ∧
        (room.isSome = true → (encodeLabels labels).length + 1 ≤ cap)) ∧
      (r.ok = true → ∀ labels jumps used past, NameWalk msg off labels jumps used past →
        r.off = past ∧ ∀ array, room = some array →
          r.out = some (encodeLabels labels ++ [0] ++
            array.drop ((encodeLabels labels).length + 1)) ∧
          r.dlen = some ((encodeLabels labels).length + 1)) :=
  dnsReadName_spec msg off fun array given => (size array given).ge

def aliasMessage : List UInt8 := List.replicate 12 0 ++ [1, 97, 0, 1, 98, 0xC0, 12]

/-- The second name of that message has the two labels, and ends behind the pointer. -/
theorem dns_read_name_correct_alias :
    dnsReadName aliasMessage 15 (some (List.replicate 5 9)) 5 =
      .ok { ok := true, off := 19, out := some [1, 98, 1, 97, 0], dlen := some 5 } ∧
    NameWalk aliasMessage 15 [[98], [97]] 1 6 19 := by
  have first : NameWalk aliasMessage 12 [[97]] 0 2 15 :=
    @NameWalk.label aliasMessage 12 1 [] 0 0 15 rfl (by decide) (by decide) (by decide) (.zero rfl)
  have pointer : NameWalk aliasMessage 17 [[97]] 1 4 19 :=
    @NameWalk.pointer aliasMessage 17 0xC0 12 [[97]] 0 2 15 rfl (by decide) rfl (by decide)
      (by decide) first
  have walk : NameWalk aliasMessage 15 [[98], [97]] 1 6 19 :=
    @NameWalk.label aliasMessage 15 1 [[97]] 1 4 19 rfl (by decide) (by decide) (by decide) pointer
  obtain ⟨r, read, accepts, gives⟩ := dns_read_name_correct aliasMessage 15 5
    (some (List.replicate 5 9)) (by intro array same; rw [← Option.some.inj same]; rfl)
  have yes := accepts.mpr ⟨_, _, _, _, walk, by decide, by decide, fun _ => by decide⟩
  obtain ⟨off, out⟩ := gives yes _ _ _ _ walk
  obtain ⟨bytes, dlen⟩ := out _ rfl
  refine ⟨?_, walk⟩
  rw [read]
  cases r
  simp only at yes off bytes dlen
  rw [yes, off, bytes, dlen]
  rfl

end CatOs.Net
