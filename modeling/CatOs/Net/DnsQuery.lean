import CatOs.Net.DnsResponse
import CatOs.Net.Ipv4Text

/-! Queries: which names are encoded, and that the name reader gives their labels back. -/

namespace CatOs.Net

open Tcp (be16 be16Bytes be16_be16Bytes)

structure ValidLabel (label : List UInt8) : Prop where
  nonempty : 1 ≤ label.length
  short : label.length ≤ 63
  chars : ∀ c ∈ label, dnsLabelChar c = true

structure NameRest (cur chars : List UInt8) (labels : List (List UInt8)) : Prop where
  parts : ∃ run runs, chars = run ++ runs.flatMap (fun label => dot :: label) ∧
    labels = (cur ++ run) :: runs
  valid : ∀ label ∈ labels, ValidLabel label

theorem nameRest_nil {cur : List UInt8} {labels : List (List UInt8)} :
    NameRest cur [] labels ↔ labels = [cur] ∧ ValidLabel cur := by
  constructor
  · intro rest
    obtain ⟨run, runs, text, rfl⟩ := rest.parts
    obtain ⟨rfl, none⟩ := List.append_eq_nil_iff.mp text.symm
    cases runs with
    | cons label others => cases none
    | nil =>
      rw [List.append_nil] at rest ⊢
      exact ⟨rfl, rest.valid cur List.mem_cons_self⟩
  · intro last
    obtain ⟨rfl, valid⟩ := last
    refine ⟨⟨[], [], rfl, by rw [List.append_nil]⟩, ?_⟩
    intro label member
    rw [List.mem_singleton.mp member]
    exact valid

theorem nameRest_dot {cur rest : List UInt8} {labels : List (List UInt8)} :
    NameRest cur (dot :: rest) labels ↔
      ValidLabel cur ∧ ∃ more, labels = cur :: more ∧ NameRest [] rest more := by
  constructor
  · intro found
    obtain ⟨run, runs, text, rfl⟩ := found.parts
    cases run with
    | cons head tail =>
      -- A dot is no character of a label.
      obtain ⟨rfl, -⟩ := List.cons.inj text
      have char := (found.valid _ List.mem_cons_self).chars dot (by simp)
      exact absurd char (by decide)
    | nil =>
      cases runs with
      | nil => cases text
      | cons label others =>
        rw [List.append_nil] at found ⊢
        refine ⟨found.valid cur List.mem_cons_self, label :: others, rfl,
          ⟨label, others, (List.cons.inj text).2, rfl⟩, ?_⟩
        exact fun other member => found.valid other (List.mem_cons_of_mem _ member)
  · intro found
    obtain ⟨valid, more, rfl, further⟩ := found
    obtain ⟨run, runs, rfl, rfl⟩ := further.parts
    refine ⟨⟨[], run :: runs, rfl, by rw [List.append_nil, List.nil_append]⟩, ?_⟩
    intro label member
    rcases List.mem_cons.mp member with rfl | later
    · exact valid
    · exact further.valid label later

theorem nameRest_char {cur rest : List UInt8} {c : UInt8} {labels : List (List UInt8)}
    (other : c ≠ dot) : NameRest cur (c :: rest) labels ↔ NameRest (cur ++ [c]) rest labels := by
  constructor
  · intro found
    obtain ⟨run, runs, text, rfl⟩ := found.parts
    cases run with
    | nil =>
      cases runs with
      | nil => cases text
      | cons label others => exact absurd (List.cons.inj text).1 other
    | cons head tail =>
      obtain ⟨rfl, later⟩ := List.cons.inj text
      exact ⟨⟨tail, runs, later, by rw [List.append_assoc, List.singleton_append]⟩, found.valid⟩
  · intro found
    obtain ⟨run, runs, rfl, rfl⟩ := found.parts
    exact ⟨⟨c :: run, runs, rfl, by rw [List.append_assoc, List.singleton_append]⟩, found.valid⟩

theorem NameRest.cur_chars {cur chars : List UInt8} {labels : List (List UInt8)}
    (rest : NameRest cur chars labels) : ∀ c ∈ cur, dnsLabelChar c = true := by
  obtain ⟨run, runs, -, rfl⟩ := rest.parts
  intro c member
  exact (rest.valid _ List.mem_cons_self).chars c (List.mem_append_left _ member)

structure Encoded (blank : List UInt8) (s : DnsEncode) (labels : List (List UInt8)) : Prop where
  pkt : s.pkt = (blank.take 12 ++ encodeLabels labels) ++
    blank.drop (blank.take 12 ++ encodeLabels labels).length
  np : s.np = (blank.take 12 ++ encodeLabels labels).length

structure Encoding (name : Buffer UInt8) (blank : List UInt8) (i : Nat) (s : DnsEncode)
    (done : List (List UInt8)) (cur : List UInt8) : Prop where
  size : blank.length = dnsPktSize
  encoded : Encoded blank s done
  place : s.np = 12 + s.labpos
  index : s.labpos + cur.length = i
  read : name.read s.labpos cur.length = cur
  chars : ∀ c ∈ cur, dnsLabelChar c = true

theorem encodeLabels_append (first second : List (List UInt8)) :
    encodeLabels (first ++ second) = encodeLabels first ++ encodeLabels second :=
  List.flatMap_append

theorem Encoding.endLabel {name : Buffer UInt8} {blank : List UInt8} {i : Nat} {s : DnsEncode}
    {done : List (List UInt8)} {cur : List UInt8} (state : Encoding name blank i s done cur)
    (few : i ≤ dnsNameMax) :
    (endLabel name i s = .ok none ∧ ¬ValidLabel cur) ∨
    ∃ after, Net.endLabel name i s = .ok (some after) ∧ ValidLabel cur ∧
      Encoded blank after (done ++ [cur]) ∧ after.np = 12 + (i + 1) := by
  have max : dnsNameMax = 64 := rfl
  have cap : dnsQnameCap = 80 := rfl
  have all : dnsPktSize = 96 := rfl
  have size := state.size
  have place := state.place
  have index := state.index
  have length : i - s.labpos = cur.length := by omega
  unfold Net.endLabel
  rw [length]
  dsimp only
  by_cases bad : cur.length = 0 ∨ cur.length > 63
  · rw [if_pos bad]
    refine Or.inl ⟨rfl, ?_⟩
    intro valid
    have least := valid.nonempty
    have most := valid.short
    omega
  · -- The name is too short to reach the end of its room.
    rw [if_neg bad, if_neg (by omega)]
    have width : (UInt8.ofNat cur.length :: cur).length = 1 + cur.length := by
      rw [List.length_cons, Nat.add_comm]
    have front : blank.take 12 ++ encodeLabels (done ++ [cur]) =
        blank.take 12 ++ encodeLabels done ++ (UInt8.ofNat cur.length :: cur) := by
      rw [encodeLabels_append, encodeLabels_cons, List.append_assoc]
      simp only [encodeLabels, List.flatMap_nil, List.append_nil]
    have written : writeRun s.pkt s.np (UInt8.ofNat cur.length :: name.read s.labpos cur.length) =
        .ok (blank.take 12 ++ encodeLabels (done ++ [cur]) ++
          blank.drop (blank.take 12 ++ encodeLabels (done ++ [cur])).length) := by
      rw [front, state.read, state.encoded.pkt, state.encoded.np]
      apply writeRun_front
      rw [← state.encoded.np, width]
      omega
    rw [written]
    refine Or.inr ⟨_, rfl, ⟨by omega, by omega, state.chars⟩, ⟨rfl, ?_⟩, ?_⟩
    · dsimp only
      rw [front, @List.length_append _ (blank.take 12 ++ encodeLabels done), ← state.encoded.np,
        width]
      omega
    · dsimp only
      omega

/-- The encoder accepts exactly the rests of names that are short enough, and encodes them. -/
theorem encodeFrom_spec (name : Buffer UInt8) (blank chars : List UInt8) :
    ∀ (left i : Nat) (s : DnsEncode) (done : List (List UInt8)) (cur : List UInt8),
      name.read i chars.length = chars → name (i + chars.length) = 0 → (∀ c ∈ chars, c ≠ 0) →
      Encoding name blank i s done cur → i ≤ dnsNameMax → dnsNameMax + 1 ≤ left + i →
      ∃ r, encodeFrom name left i s = .ok r ∧
        (∀ labels, i + chars.length ≤ dnsNameMax → NameRest cur chars labels →
          r.isSome = true) ∧
        ∀ after, r = some after → ∃ labels, i + chars.length ≤ dnsNameMax ∧
          NameRest cur chars labels ∧ Encoded blank after (done ++ labels) := by
  -- The induction is on the characters that are left, and follows the encoder's own cases.
  induction chars with
  | nil =>
    intro left i s done cur _ ended _ state few enough
    cases left with
    | zero => omega
    | succ left =>
      have last : name i = 0 := ended
      unfold encodeFrom
      rw [last]
      dsimp only
      rw [if_neg (by simp), if_pos (Or.inr rfl)]
      rcases state.endLabel few with ⟨refused, bad⟩ | ⟨after, written, valid, encoded, -⟩
      · rw [refused]
        refine ⟨none, rfl, ?_, fun after same => absurd same (by simp)⟩
        intro labels _ rest
        exact absurd (nameRest_nil.mp rest).2 bad
      · rw [written]
        refine ⟨some after, rfl, fun _ _ _ => rfl, ?_⟩
        intro other same
        refine ⟨[cur], few, nameRest_nil.mpr ⟨rfl, valid⟩, ?_⟩
        rw [← Option.some.inj same]
        exact encoded
  | cons c rest ih =>
    intro left i s done cur held ended inner state few enough
    rw [List.length_cons, Nat.add_comm rest.length 1, Buffer.read_add, Buffer.read_one] at held
    obtain ⟨head, tail⟩ := List.cons.inj held
    rw [List.length_cons, Nat.add_comm rest.length 1, ← Nat.add_assoc] at ended
    have later : ∀ d ∈ rest, d ≠ 0 := fun d member => inner d (List.mem_cons_of_mem c member)
    have nonzero : c ≠ 0 := inner c List.mem_cons_self
    have longer : i + (c :: rest).length = i + 1 + rest.length := by
      rw [List.length_cons]
      omega
    rw [longer]
    cases left with
    | zero => omega
    | succ left =>
      unfold encodeFrom
      rw [head]
      dsimp only
      by_cases full : i ≥ dnsNameMax
      · rw [if_pos ⟨nonzero, full⟩]
        exact ⟨none, rfl, fun _ bound _ => absurd bound (by omega),
          fun after same => absurd same (by simp)⟩
      · rw [if_neg (fun both => full both.2)]
        by_cases separator : c = dot
        · subst separator
          rw [if_pos (Or.inl (by decide))]
          rcases state.endLabel few with ⟨refused, bad⟩ | ⟨after, written, valid, encoded, np⟩
          · rw [refused]
            refine ⟨none, rfl, ?_, fun after same => absurd same (by simp)⟩
            intro labels _ found
            exact absurd (nameRest_dot.mp found).1 bad
          · rw [written]
            dsimp only
            rw [if_neg nonzero]
            -- The next label starts behind the dot.
            have next : Encoding name blank (i + 1) { after with labpos := i + 1 }
                (done ++ [cur]) [] :=
              ⟨state.size, ⟨encoded.pkt, encoded.np⟩, np, rfl, rfl,
                fun c member => absurd member List.not_mem_nil⟩
            obtain ⟨r, looped, accepted, sound⟩ := ih left (i + 1) _ _ _ tail ended later next
              (by omega) (by omega)
            refine ⟨r, looped, ?_, ?_⟩
            · intro labels bound found
              obtain ⟨-, more, -, further⟩ := nameRest_dot.mp found
              exact accepted more bound further
            · intro last same
              obtain ⟨more, bound, further, whole⟩ := sound last same
              refine ⟨cur :: more, bound, nameRest_dot.mpr ⟨valid, more, rfl, further⟩, ?_⟩
              rw [List.append_assoc, List.singleton_append] at whole
              exact whole
        · have plain : ¬(c = 46 ∨ c = 0) := fun either => either.elim separator nonzero
          rw [if_neg plain]
          by_cases char : dnsLabelChar c = true
          · rw [if_pos char]
            have next : Encoding name blank (i + 1) s done (cur ++ [c]) := by
              have index := state.index
              refine ⟨state.size, state.encoded, state.place, ?_, ?_, ?_⟩
              · rw [List.length_append, List.length_singleton]
                omega
              · rw [List.length_append, List.length_singleton, Buffer.read_add, state.read, index,
                  Buffer.read_one, head]
              · intro d member
                rcases List.mem_append.mp member with old | new
                · exact state.chars d old
                · rw [List.mem_singleton.mp new]
                  exact char
            obtain ⟨r, looped, accepted, sound⟩ := ih left (i + 1) _ _ _ tail ended later next
              (by omega) (by omega)
            refine ⟨r, looped, ?_, ?_⟩
            · intro labels bound found
              exact accepted labels bound ((nameRest_char separator).mp found)
            · intro last same
              obtain ⟨labels, bound, found, whole⟩ := sound last same
              exact ⟨labels, bound, (nameRest_char separator).mpr found, whole⟩
          · rw [if_neg char]
            refine ⟨none, rfl, ?_, fun after same => absurd same (by simp)⟩
            intro labels _ found
            have chars := ((nameRest_char separator).mp found).cur_chars
            exact absurd (chars c (by simp)) char

theorem label_head : ∀ {n : Nat}, 1 ≤ n → n ≤ 63 →
    (UInt8.ofNat n).toNat = n ∧ UInt8.ofNat n ≠ 0 ∧ UInt8.ofNat n &&& 0xC0 = 0 := by
  have each : ∀ n < 64, 1 ≤ n →
      (UInt8.ofNat n).toNat = n ∧ UInt8.ofNat n ≠ 0 ∧ UInt8.ofNat n &&& 0xC0 = 0 := by decide
  intro n least most
  exact each n (by omega) least

theorem plain_le {l : UInt8} (plain : l &&& 0xC0 = 0) : l.toNat ≤ 63 := by
  have each : ∀ n < 256, UInt8.ofNat n &&& 0xC0 = 0 → n ≤ 63 := by decide +kernel
  apply each l.toNat l.toNat_lt
  rw [UInt8.ofNat_toNat]
  exact plain

theorem NameWalk.labels_short {msg : List UInt8} {p : Nat} {labels : List (List UInt8)}
    {jumps used past : Nat} (walk : NameWalk msg p labels jumps used past) :
    ∀ label ∈ labels, 1 ≤ label.length ∧ label.length ≤ 63 := by
  induction walk with
  | zero _ => exact fun label member => absurd member List.not_mem_nil
  | @label p l labels jumps used past head nonzero plain inside next ih =>
    intro label member
    rcases List.mem_cons.mp member with rfl | later
    · rw [length_run (by omega)]
      have positive : l.toNat ≠ 0 := fun zero => nonzero (UInt8.toNat_inj.mp zero)
      exact ⟨by omega, plain_le plain⟩
    · exact ih label later
  | pointer _ _ _ _ _ _ ih => exact ih

/-- The encoding of labels is a name with these labels, wherever it stands. -/
theorem nameWalk_encoded (labels : List (List UInt8)) (rest : List UInt8)
    (short : ∀ label ∈ labels, 1 ≤ label.length ∧ label.length ≤ 63) : ∀ head : List UInt8,
    NameWalk (head ++ encodeLabels labels ++ 0 :: rest) head.length labels 0
      (encodeLabels labels).length (head.length + (encodeLabels labels).length + 1) := by
  -- The labels that are passed go to the bytes in front.
  induction labels with
  | nil =>
    intro head
    simp only [encodeLabels, List.flatMap_nil, List.append_nil, List.length_nil, Nat.add_zero]
    apply NameWalk.zero
    rw [List.getElem?_append_right (Nat.le_refl _), Nat.sub_self]
    rfl
  | cons label labels ih =>
    intro head
    obtain ⟨least, most⟩ := short label List.mem_cons_self
    obtain ⟨count, nonzero, plain⟩ := label_head least most
    have further := ih (fun other member => short other (List.mem_cons_of_mem _ member))
      (head ++ UInt8.ofNat label.length :: label)
    have front : head ++ encodeLabels (label :: labels) ++ 0 :: rest =
        head ++ UInt8.ofNat label.length :: label ++ encodeLabels labels ++ 0 :: rest := by
      rw [encodeLabels_cons]
      simp only [List.append_assoc, List.cons_append]
    have width : (encodeLabels (label :: labels)).length =
        1 + label.length + (encodeLabels labels).length := by
      rw [encodeLabels_cons, List.length_append, List.length_cons]
      omega
    rw [front, width]
    have first : (head ++ UInt8.ofNat label.length :: label ++ encodeLabels labels ++
        0 :: rest)[head.length]? = some (UInt8.ofNat label.length) := by
      simp [List.append_assoc]
    have body : ((head ++ UInt8.ofNat label.length :: label ++ encodeLabels labels ++
        0 :: rest).drop (head.length + 1)).take (UInt8.ofNat label.length).toNat = label := by
      have split : head ++ UInt8.ofNat label.length :: label ++ encodeLabels labels ++ 0 :: rest =
          (head ++ [UInt8.ofNat label.length]) ++ (label ++ (encodeLabels labels ++ 0 :: rest)) := by
        simp only [List.append_assoc, List.cons_append, List.nil_append]
      rw [count, split, List.drop_left' (by rw [List.length_append, List.length_singleton]),
        List.take_left' rfl]
    have place : (head ++ UInt8.ofNat label.length :: label).length =
        head.length + (1 + (UInt8.ofNat label.length).toNat) := by
      rw [count, List.length_append, List.length_cons]
      omega
    rw [place] at further
    have walk := NameWalk.label first nonzero plain (by
      rw [count]
      simp only [List.length_append, List.length_cons]
      omega) further
    rw [body, count] at walk
    have past : head.length + (1 + label.length) + (encodeLabels labels).length + 1 =
        head.length + (1 + label.length + (encodeLabels labels).length) + 1 := by omega
    rw [past] at walk
    exact walk

structure AsksFor (txid : Half) (pkt : List UInt8) (qlen : Nat) (labels : List (List UInt8)) :
    Prop where
  number : be16 pkt = txid
  size : pkt.length = dnsPktSize
  short : ∀ label ∈ labels, 1 ≤ label.length ∧ label.length ≤ 63
  shape : ∃ head tail, head.length = 12 ∧
    pkt = head ++ encodeLabels labels ++ [0] ++ [0, 1, 0, 1] ++ tail
  length : qlen = 12 + (encodeLabels labels).length + 1 + 4

structure QueryDecodes (query : List UInt8) (labels : List (List UInt8)) : Prop where
  fits : query.length ≤ dnsPktSize
  walk : ∃ used, NameWalk query 12 labels 0 used (query.length - 4)
  read : ∀ room : List UInt8, dnsQnameCap ≤ room.length →
    dnsReadName query 12 (some room) dnsQnameCap =
      .ok { ok := true, off := query.length - 4
            out := some (encodeLabels labels ++ [0] ++
              room.drop ((encodeLabels labels).length + 1))
            dlen := some ((encodeLabels labels).length + 1) }
  type : query.drop (query.length - 4) = [0, 1, 0, 1]

/-- What is sent of such a packet is decoded to its labels. -/
theorem AsksFor.decodes {txid : Half} {pkt : List UInt8} {qlen : Nat}
    {labels : List (List UInt8)} (asks : AsksFor txid pkt qlen labels) : QueryDecodes (pkt.take qlen) labels := by
  have cap : dnsQnameCap = 80 := rfl
  have all : dnsPktSize = 96 := rfl
  obtain ⟨head, tail, header, shape⟩ := asks.shape
  have size := asks.size
  have end' := asks.length
  have total : (head ++ encodeLabels labels ++ [0] ++ [0, 1, 0, 1]).length = qlen := by
    simp only [List.length_append, header, List.length_cons, List.length_nil]
    omega
  have sent : pkt.take qlen = head ++ encodeLabels labels ++ [0] ++ [0, 1, 0, 1] := by
    rw [shape, ← total, List.take_left' rfl]
  have within : qlen ≤ pkt.length := by
    rw [shape, List.length_append, total]
    omega
  have length : (pkt.take qlen).length = qlen := by
    rw [List.length_take]
    omega
  have walk : NameWalk (pkt.take qlen) 12 labels 0 (encodeLabels labels).length (qlen - 4) := by
    have found := nameWalk_encoded labels [0, 1, 0, 1] asks.short head
    have same : head ++ encodeLabels labels ++ 0 :: [0, 1, 0, 1] = pkt.take qlen := by
      rw [sent, List.append_assoc (head ++ encodeLabels labels)]
      rfl
    have past : head.length + (encodeLabels labels).length + 1 = qlen - 4 := by omega
    rw [same, past, header] at found
    exact found
  refine ⟨by omega, ⟨(encodeLabels labels).length, ?_⟩, ?_, ?_⟩
  · rw [length]
    exact walk
  · intro room large
    have fits : ∀ array, some room = some array → dnsQnameCap ≤ array.length := by
      intro array same
      rw [← Option.some.inj same]
      exact large
    obtain ⟨r, read, accepts, gives⟩ := dnsReadName_spec (pkt.take qlen) 12 fits
    have yes := accepts.mpr ⟨labels, 0, _, _, walk, Nat.zero_le _, by omega, fun _ => by omega⟩
    obtain ⟨off, outputs⟩ := gives yes _ _ _ _ walk
    obtain ⟨out, dlen⟩ := outputs room rfl
    rw [read, length]
    cases r
    simp only at yes off out dlen
    rw [yes, off, out, dlen]
  · rw [length, sent]
    apply List.drop_left'
    rw [← total]
    simp only [List.length_append, List.length_cons, List.length_nil]
    omega

theorem dnsHeader_drop (txid : Half) {k : Nat} (behind : 6 ≤ k) :
    (dnsHeader txid).drop k = List.replicate (dnsPktSize - k) 0 := by
  have front : (be16Bytes txid ++ [0x01, 0, 0, 1]).length = 6 := rfl
  rw [dnsHeader, List.drop_append, List.drop_of_length_le (by omega), List.nil_append, front,
    List.drop_replicate]
  congr 1
  omega

/-- Behind the labels come the root, the type and the class. -/
theorem Encoded.query {txid : Half} {s : DnsEncode} {labels : List (List UInt8)}
    (encoded : Encoded (dnsHeader txid) s labels)
    (short : ∀ label ∈ labels, 1 ≤ label.length ∧ label.length ≤ 63) (room : s.np + 5 ≤ dnsPktSize) :
    ∃ first second third, writeRun s.pkt s.np [0] = .ok first ∧
      writeRun first (s.np + 1) [0, 1] = .ok second ∧
      writeRun second (s.np + 1 + 3) [1] = .ok third ∧ AsksFor txid third (s.np + 1 + 4) labels := by
  have all : dnsPktSize = 96 := rfl
  have size : (dnsHeader txid).length = 96 := rfl
  obtain ⟨pkt, np, labpos⟩ := s
  obtain ⟨held, place⟩ := encoded
  dsimp only at held place room ⊢
  subst held place
  have header : ((dnsHeader txid).take 12).length = 12 := rfl
  generalize shape : (dnsHeader txid).take 12 ++ encodeLabels labels = front at room ⊢
  have behind : 12 ≤ front.length := by
    rw [← shape, List.length_append]
    omega
  have first : writeRun (front ++ (dnsHeader txid).drop front.length) front.length [0] =
      .ok (front ++ [0] ++ (dnsHeader txid).drop (front ++ [0]).length) :=
    writeRun_front (by rw [List.length_singleton]; omega)
  have length : (front ++ [0]).length = front.length + 1 := by
    rw [List.length_append, List.length_singleton]
  have second := @writeRun_front _ (front ++ [0]) (dnsHeader txid) [0, 1]
    (by rw [length, List.length_cons, List.length_singleton]; omega)
  -- The first byte of the class is left as it is, and is zero.
  have blank : front ++ [0] ++ [0, 1] ++ (dnsHeader txid).drop (front ++ [0] ++ [0, 1]).length =
      front ++ [0] ++ [0, 1, 0] ++ (dnsHeader txid).drop (front ++ [0] ++ [0, 1, 0]).length := by
    have here : (front ++ [0] ++ [0, 1]).length = front.length + 3 := by
      rw [List.length_append, length]
      rfl
    have next : (front ++ [0] ++ [0, 1, 0]).length = front.length + 4 := by
      rw [List.length_append, length]
      rfl
    have more : dnsPktSize - (front.length + 3) = dnsPktSize - (front.length + 4) + 1 := by omega
    rw [here, next, dnsHeader_drop txid (by omega), dnsHeader_drop txid (by omega), more,
      List.replicate_succ]
    simp only [List.append_assoc, List.cons_append, List.nil_append]
  have last : (front ++ [0] ++ [0, 1, 0]).length = front.length + 1 + 3 := by
    rw [List.length_append, length]
    rfl
  have third := @writeRun_front _ (front ++ [0] ++ [0, 1, 0]) (dnsHeader txid) [1]
    (by rw [last, List.length_singleton]; omega)
  rw [length] at first second
  rw [← blank, last] at third
  refine ⟨_, _, _, first, second, third, ?_, ?_, short,
    ⟨(dnsHeader txid).take 12,
      (dnsHeader txid).drop (front ++ [0] ++ [0, 1, 0] ++ [1]).length, header, ?_⟩, ?_⟩
  · rw [← shape]
    exact be16_be16Bytes txid _
  · rw [List.length_append, List.length_append, last, List.length_drop, List.length_singleton]
    omega
  · rw [shape]
    simp only [List.append_assoc, List.cons_append, List.nil_append]
  · rw [← shape, List.length_append, header]

theorem NameRest.length_encode {cur chars : List UInt8} {labels : List (List UInt8)}
    (rest : NameRest cur chars labels) :
    (encodeLabels labels).length = cur.length + chars.length + 1 := by
  obtain ⟨run, runs, rfl, rfl⟩ := rest.parts
  -- Every later label has a dot in the name, and a byte for its length in the encoding.
  have later : (encodeLabels runs).length = (runs.flatMap fun label => dot :: label).length := by
    rw [encodeLabels, List.length_flatMap, List.length_flatMap]
    rfl
  rw [encodeLabels_cons, List.length_append, List.length_cons, later, List.length_append,
    List.length_append]
  omega

theorem NameRest.unique {chars : List UInt8} : ∀ {cur : List UInt8} {labels others},
    NameRest cur chars labels → NameRest cur chars others → others = labels := by
  induction chars with
  | nil =>
    intro cur labels others first second
    rw [(nameRest_nil.mp first).1, (nameRest_nil.mp second).1]
  | cons c rest ih =>
    intro cur labels others first second
    by_cases separator : c = dot
    · subst separator
      obtain ⟨-, more, rfl, further⟩ := nameRest_dot.mp first
      obtain ⟨-, more', rfl, further'⟩ := nameRest_dot.mp second
      rw [ih further further']
    · exact ih ((nameRest_char separator).mp first) ((nameRest_char separator).mp second)

def HostName (chars : List UInt8) (labels : List (List UInt8)) : Prop :=
  chars.length ≤ 64 ∧ NameRest [] chars labels

/-- The query of a host name asks for its labels. Nothing else gives a query. -/
theorem dnsQuery_spec {name : Buffer UInt8} {chars : List UInt8} (text : CString name chars)
    (txid : Half) :
    ∃ r, dnsQuery name txid = .ok r ∧
      ((∃ labels, HostName chars labels) → r.isSome = true) ∧
      ∀ pkt qlen, r = some (pkt, qlen) →
        ∃ labels, HostName chars labels ∧ AsksFor txid pkt qlen labels := by
  have max : dnsNameMax = 64 := rfl
  have all : dnsPktSize = 96 := rfl
  have start : Encoding name (dnsHeader txid) 0 { pkt := dnsHeader txid, np := 12, labpos := 0 }
      [] [] :=
    ⟨rfl, ⟨rfl, rfl⟩, rfl, rfl, rfl, fun c member => absurd member List.not_mem_nil⟩
  obtain ⟨r, encoded, accepted, sound⟩ := encodeFrom_spec name (dnsHeader txid) chars
    (dnsNameMax + 1) 0 _ [] [] text.held (by rw [Nat.zero_add]; exact text.ended) text.inner start
    (Nat.zero_le _) (Nat.le_refl _)
  rw [Nat.zero_add] at accepted sound
  unfold dnsQuery
  rw [encoded]
  cases r with
  | none =>
    refine ⟨none, rfl, ?_, fun pkt qlen same => absurd same (by simp)⟩
    intro found
    obtain ⟨labels, few, rest⟩ := found
    exact accepted labels few rest
  | some s =>
    obtain ⟨labels, few, rest, whole⟩ := sound s rfl
    have length := rest.length_encode
    have header : ((dnsHeader txid).take 12).length = 12 := rfl
    have np : s.np = 12 + (chars.length + 1) := by
      rw [whole.np, List.length_append, header, List.nil_append, length, List.length_nil,
        Nat.zero_add]
    have short : ∀ label ∈ labels, 1 ≤ label.length ∧ label.length ≤ 63 := fun label member =>
      ⟨(rest.valid label member).nonempty, (rest.valid label member).short⟩
    obtain ⟨first, second, third, root, type, cls, asks⟩ :=
      whole.query short (by omega)
    dsimp only
    rw [if_neg (by omega), root]
    dsimp only
    rw [type]
    dsimp only
    rw [cls]
    refine ⟨_, rfl, fun _ => rfl, ?_⟩
    intro pkt qlen same
    obtain ⟨rfl, rfl⟩ := Prod.mk.inj (Option.some.inj same)
    exact ⟨labels, ⟨few, rest⟩, asks⟩

theorem takeResponse_ok (txid : Half) (rxb : List UInt8) :
    ∃ answer, takeResponse txid rxb = .ok answer := by
  unfold takeResponse
  split
  · exact ⟨_, rfl⟩
  · rw [readRun_of_le (by omega)]
    dsimp only
    split
    · exact ⟨_, rfl⟩
    · split
      · exact ⟨_, rfl⟩
      · have read : ∃ answer, readResponse rxb = .ok answer := by
          unfold readResponse
          rw [readRun_of_le (by omega)]
          dsimp only
          split
          · exact ⟨_, rfl⟩
          · split
            · exact ⟨_, rfl⟩
            · obtain ⟨found, skipped, -⟩ := skipQuestions_spec rxb
                (be16 (((rxb.drop 0).take 12).drop 4)).toNat 12
              rw [skipped]
              cases found with
              | none => exact ⟨_, rfl⟩
              | some off =>
                dsimp only
                split
                · exact ⟨_, rfl⟩
                · obtain ⟨answer, answered, -⟩ := readAnswers_spec rxb
                    (be16 (((rxb.drop 0).take 12).drop 6)).toNat off none
                  exact ⟨answer, answered⟩
        obtain ⟨answer, answered⟩ := read
        rw [answered]
        exact ⟨_, rfl⟩

theorem followCname_asks (rxb : List UInt8) (off : Nat) {pkt : List UInt8}
    (size : pkt.length = dnsPktSize) :
    ∃ after len, followCname rxb off pkt = .ok (after, len) ∧
      ∀ qlen, len = some qlen → ∃ labels,
        (∃ jumps used past, NameWalk rxb off labels jumps used past) ∧
        AsksFor (be16 pkt) after qlen labels := by
  have cap : dnsQnameCap = 80 := rfl
  have all : dnsPktSize = 96 := rfl
  obtain ⟨after, len, followed, gives⟩ := followCname_spec rxb off size
  refine ⟨after, len, followed, ?_⟩
  intro qlen given
  obtain ⟨labels, -, ⟨jumps, used, past, walk⟩, fits, length, shape⟩ := gives qlen given
  have header : (pkt.take 12).length = 12 := by
    rw [List.length_take]
    omega
  refine ⟨labels, ⟨jumps, used, past, walk⟩, ?_, ?_, walk.labels_short,
    ⟨pkt.take 12, _, header, shape⟩, length⟩
  · -- The header is not touched.
    rw [← @be16_take after 12 (by decide), shape]
    simp only [List.append_assoc]
    rw [List.take_left' header, be16_take (by decide)]
  · rw [shape]
    simp only [List.length_append, List.length_cons, List.length_nil, List.length_drop, header]
    omega

theorem AsksFor.renumber {old : Half} {pkt : List UInt8} {qlen : Nat}
    {labels : List (List UInt8)} (asks : AsksFor old pkt qlen labels) (txid : Half) :
    ∃ after, writeRun pkt 0 (be16Bytes txid) = .ok after ∧ AsksFor txid after qlen labels := by
  have all : dnsPktSize = 96 := rfl
  have two : (be16Bytes txid).length = 2 := rfl
  have size := asks.size
  obtain ⟨head, tail, header, shape⟩ := asks.shape
  have inside : 0 + (be16Bytes txid).length ≤ pkt.length := by omega
  refine ⟨_, if_pos inside, ?_, ?_, asks.short, ⟨be16Bytes txid ++ head.drop 2, tail, ?_, ?_⟩,
    asks.length⟩
  · exact be16_be16Bytes txid _
  · simp only [List.take_zero, List.nil_append, List.length_append, List.length_drop, two]
    omega
  · rw [List.length_append, List.length_drop]
    omega
  · rw [shape, two]
    simp only [List.take_zero, List.nil_append, List.append_assoc]
    rw [List.drop_append_of_le_length (by omega)]

theorem DnsLookup.sent_outcome (s : DnsLookup) : s.outcome.sent = s.sent := by
  unfold DnsLookup.outcome
  split
  · rfl
  · rfl

structure DnsLookup.Asking (s : DnsLookup) : Prop where
  asks : ∃ labels, AsksFor s.txid s.pkt s.qlen labels
  sent : ∀ query ∈ s.sent, ∃ labels, QueryDecodes query labels

theorem DnsLookup.Asking.resend {s : DnsLookup} (state : s.Asking) (ticks : Word) :
    (s.resend ticks).Asking := by
  unfold DnsLookup.resend
  split
  · obtain ⟨labels, asks⟩ := state.asks
    refine ⟨⟨labels, asks⟩, ?_⟩
    intro query member
    rcases List.mem_append.mp member with old | new
    · exact state.sent query old
    · rw [List.mem_singleton.mp new]
      exact ⟨labels, asks.decodes⟩
  · exact state

theorem DnsLookup.Asking.answer {s : DnsLookup} (state : s.Asking) (seqGen : Word)
    (rxb : List UInt8) (said : DnsAnswer) :
    ∃ after, s.answer seqGen rxb said = .ok after ∧ after.sent = s.sent ∧
      (after.cause = .timeout → after.Asking) := by
  obtain ⟨labels, asks⟩ := state.asks
  unfold DnsLookup.answer
  cases said with
  | failed cause | address ip => exact ⟨_, rfl, rfl, fun _ => ⟨state.asks, state.sent⟩⟩
  | none => exact ⟨_, rfl, rfl, fun _ => state⟩
  | cname off =>
    dsimp only
    split
    · exact ⟨_, rfl, rfl, fun going => absurd going (by simp)⟩
    · obtain ⟨pkt, len, followed, gives⟩ := followCname_asks rxb off asks.size
      rw [followed]
      cases len with
      | none =>
        -- What a refused alias left in the packet is never sent.
        exact ⟨_, rfl, rfl, fun going => absurd going (by simp)⟩
      | some qlen =>
        obtain ⟨target, -, further⟩ := gives qlen rfl
        obtain ⟨after, numbered, whole⟩ := further.renumber (nextTxid seqGen)
        dsimp only
        rw [numbered]
        exact ⟨_, rfl, rfl, fun _ => ⟨⟨target, whole⟩, state.sent⟩⟩

theorem DnsLookup.Asking.drain {s : DnsLookup} (state : s.Asking) (seqGen : Word)
    (queue : List Datagram) :
    ∃ after rest, drain seqGen queue s = .ok (after, rest) ∧ after.sent = s.sent ∧
      (after.cause = .timeout → after.Asking) := by
  induction queue with
  | nil => exact ⟨s, [], rfl, rfl, fun _ => state⟩
  | cons d rest ih =>
    unfold Net.drain
    obtain ⟨taken, took⟩ := takeResponse_ok s.txid (d.payload.take dnsRxMax)
    rw [took]
    cases taken with
    | none => exact ih
    | some said =>
      obtain ⟨after, answered, sent, going⟩ :=
        state.answer seqGen (d.payload.take dnsRxMax) said
      dsimp only
      rw [answered]
      exact ⟨after, rest, rfl, sent, going⟩

theorem DnsLookup.Asking.lookupLoop (start : Word) (rounds : List DnsRound) :
    ∀ {s : DnsLookup} (queue : List Datagram), s.Asking →
      ∃ outcome, lookupLoop start rounds queue s = .ok outcome ∧
        ∀ ended, outcome = some ended →
          ∀ query ∈ ended.sent, ∃ labels, QueryDecodes query labels := by
  -- The invariant of a round is that the lookup has not ended and has a query in its packet.
  induction rounds with
  | nil =>
    intro s queue _
    exact ⟨none, rfl, fun ended same => absurd same (by simp)⟩
  | cons round rest ih =>
    intro s queue state
    unfold Net.lookupLoop
    split
    · refine ⟨_, rfl, ?_⟩
      intro ended same
      rw [← Option.some.inj same, DnsLookup.sent_outcome]
      exact state.sent
    · obtain ⟨after, left, drained, sent, going⟩ :=
        (state.resend round.ticks).drain round.seqGen (queueAfter queue round.arrived)
      rw [drained]
      dsimp only
      split
      · refine ⟨_, rfl, ?_⟩
        intro ended same
        rw [← Option.some.inj same, DnsLookup.sent_outcome, sent]
        exact (state.resend round.ticks).sent
      · rename_i waiting
        have timeout : after.cause = .timeout := by
          by_contra other
          exact waiting (Or.inr other)
        exact ih left (going timeout)

theorem netDnsResolve_known (name : Buffer UInt8) {gDns : Word} (known : gDns ≠ 0) (seqGen : Word)
    (socks : UdpSocks) (start : Word) (rounds : List DnsRound) :
    netDnsResolve (some name) true gDns seqGen socks start rounds =
      resolveName name seqGen socks start rounds := if_neg known

theorem resolveName_none {name : Buffer UInt8} {seqGen : Word}
    (built : dnsQuery name (nextTxid seqGen) = .ok none) (socks : UdpSocks) (start : Word)
    (rounds : List DnsRound) :
    resolveName name seqGen socks start rounds =
      .ok (some { ret := netdnsEargs, outIp := none, sent := [] }) := by
  rw [resolveName, built]

theorem resolveName_some {name : Buffer UInt8} {seqGen : Word} {pkt : List UInt8} {qlen : Nat}
    (built : dnsQuery name (nextTxid seqGen) = .ok (some (pkt, qlen))) (socks : UdpSocks)
    (start : Word) (rounds : List DnsRound) :
    resolveName name seqGen socks start rounds =
        .ok (some { ret := netdnsEnoresolver, outIp := none, sent := [] }) ∨
    resolveName name seqGen socks start rounds =
      lookupLoop start rounds [] (firstLookup (nextTxid seqGen) pkt qlen) := by
  unfold resolveName
  -- The number is kept closed, because its arithmetic would be unfolded with the port.
  generalize nextTxid seqGen = txid at built ⊢
  generalize dnsBind socks txid = slot
  rw [built]
  cases slot with
  | none => exact Or.inl rfl
  | some bound => exact Or.inr rfl

theorem resolveName_refused {name : Buffer UInt8} {chars : List UInt8} (text : CString name chars)
    (bad : ¬∃ labels, HostName chars labels) (seqGen : Word) (socks : UdpSocks) (start : Word)
    (rounds : List DnsRound) :
    resolveName name seqGen socks start rounds =
      .ok (some { ret := netdnsEargs, outIp := none, sent := [] }) := by
  obtain ⟨r, built, -, sound⟩ := dnsQuery_spec text (nextTxid seqGen)
  cases r with
  | none => exact resolveName_none built socks start rounds
  | some found =>
    obtain ⟨labels, good, -⟩ := sound found.1 found.2 rfl
    exact absurd ⟨labels, good⟩ bad

theorem resolveName_sent {name : Buffer UInt8} {chars : List UInt8} (text : CString name chars)
    (seqGen : Word) (socks : UdpSocks) (start : Word) (rounds : List DnsRound) :
    ∃ outcome, resolveName name seqGen socks start rounds = .ok outcome ∧
      ∀ ended, outcome = some ended →
        ∀ query ∈ ended.sent, ∃ labels, QueryDecodes query labels := by
  -- A lookup that is refused has sent nothing.
  have refused : ∀ (ret : Int) (ended : DnsOutcome),
      some { ret := ret, outIp := none, sent := [] } = some ended →
        ∀ query ∈ ended.sent, ∃ labels, QueryDecodes query labels := by
    intro ret ended same query member
    rw [← Option.some.inj same] at member
    exact absurd member List.not_mem_nil
  obtain ⟨r, built, -, sound⟩ := dnsQuery_spec text (nextTxid seqGen)
  cases r with
  | none => exact ⟨_, resolveName_none built socks start rounds, refused _⟩
  | some found =>
    obtain ⟨labels, -, asks⟩ := sound found.1 found.2 rfl
    rcases resolveName_some built socks start rounds with full | looped
    · exact ⟨_, full, refused _⟩
    · rw [looped]
      exact DnsLookup.Asking.lookupLoop start rounds []
        ⟨⟨labels, asks⟩, fun _ member => absurd member List.not_mem_nil⟩

def noSockets : UdpSocks := fun _ =>
  { used := false, bound := false, owned := false, lport := 0, rxb := fun _ => 0, head := 0, n := 0 }

def letterName : Buffer UInt8 := fun i => [97].getD i 0

end CatOs.Net
