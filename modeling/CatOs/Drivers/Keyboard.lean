import CatOs.Lib.Simulation
import Mathlib.Logic.Function.Basic
import Mathlib.Tactic.SplitIfs

/-! The keyboard decoder: prefixes, modifiers, and the ring of characters. -/

namespace CatOs.Keyboard

abbrev kbBreakBit : UInt8 := 0x80
abbrev kbExtPrefix : UInt8 := 0xE0
abbrev kbPausePrefix : UInt8 := 0xE1
abbrev kbPauseTrail : UInt8 := 7
abbrev scLctrl : UInt8 := 0x1D
abbrev scLalt : UInt8 := 0x38
abbrev scLshift : UInt8 := 0x2A
abbrev scRshift : UInt8 := 0x36

/-- What the next code belongs to: a key of its own, an extended key, or the Pause sequence. -/
inductive Kbstate where
  | base
  | e0
  | e1
  deriving DecidableEq, Repr

/-- The ring of characters: where the next one goes, and where the next one is read. -/
structure Ring where
  q : UInt8 → UInt8
  h : UInt8
  t : UInt8

/-- The variables of the driver. -/
structure Kb where
  ring : Ring
  shift : Bool
  ctrl : Bool
  ks : Kbstate
  e1Left : UInt8

def putcQ (c : UInt8) (r : Ring) : Ring :=
  let n := r.h + 1
  if n = r.t then r else { r with q := Function.update r.q r.h c, h := n }

def putcQStr (s : List UInt8) (r : Ring) : Ring := s.foldl (fun r c => putcQ c r) r

def lo : List UInt8 :=
  [0, 0, 0x31, 0x32, 0x33, 0x34, 0x35, 0x36, 0x37, 0x38, 0x39, 0x30, 0x2d, 0x3d, 0x08, 0x09,
    0x71, 0x77, 0x65, 0x72, 0x74, 0x79, 0x75, 0x69, 0x6f, 0x70, 0x5b, 0x5d, 0x0a, 0, 0x61, 0x73,
    0x64, 0x66, 0x67, 0x68, 0x6a, 0x6b, 0x6c, 0x3b, 0x27, 0x60, 0, 0x5c, 0x7a, 0x78, 0x63, 0x76,
    0x62, 0x6e, 0x6d, 0x2c, 0x2e, 0x2f, 0, 0, 0, 0x20, 0, 0, 0, 0, 0, 0]

def hi : List UInt8 :=
  [0, 0, 0x21, 0x40, 0x23, 0x24, 0x25, 0x5e, 0x26, 0x2a, 0x28, 0x29, 0x5f, 0x2b, 0x08, 0x09,
    0x51, 0x57, 0x45, 0x52, 0x54, 0x59, 0x55, 0x49, 0x4f, 0x50, 0x7b, 0x7d, 0x0a, 0, 0x41, 0x53,
    0x44, 0x46, 0x47, 0x48, 0x4a, 0x4b, 0x4c, 0x3a, 0x22, 0x7e, 0, 0x7c, 0x5a, 0x58, 0x43, 0x56,
    0x42, 0x4e, 0x4d, 0x3c, 0x3e, 0x3f, 0, 0, 0, 0x20, 0, 0, 0, 0, 0, 0]

/-- What the extended keys are read as: arrows, Home, End, Delete, and two of the keypad. -/
def extMap : List (UInt8 × List UInt8) :=
  [(0x48, [0x1b, 0x5b, 0x41]), (0x50, [0x1b, 0x5b, 0x42]), (0x4D, [0x1b, 0x5b, 0x43]),
    (0x4B, [0x1b, 0x5b, 0x44]), (0x47, [0x1b, 0x5b, 0x48]), (0x4F, [0x1b, 0x5b, 0x46]),
    (0x53, [0x7f]), (0x1C, [0x0a]), (0x35, [0x2f])]

def extSeq (s : UInt8) : List UInt8 := (extMap.lookup s).getD []

/-- The character of a key under the two modifiers, if it has one. -/
def keyChar (shift ctrl : Bool) (s : UInt8) : List UInt8 :=
  let c := (if shift then hi else lo).getD s.toNat 0
  if c = 0 then []
  else if ctrl then
    if 0x61 ≤ c ∧ c ≤ 0x7a then [c - 0x61 + 1]
    else if 0x41 ≤ c ∧ c ≤ 0x5a then [c - 0x41 + 1]
    else if c = 0x5b then [0x1b]
    else []
  else [c]

/-- The handler of one code. -/
def kh (s : UInt8) (k : Kb) : Kb :=
  match k.ks with
  | .e1 =>
    if k.e1Left - 1 = 0 then { k with e1Left := k.e1Left - 1, ks := .base }
    else { k with e1Left := k.e1Left - 1 }
  | .e0 =>
    if s &&& kbBreakBit ≠ 0 then
      if s &&& 0x7f = scLctrl then { k with ks := .base, ctrl := false }
      else { k with ks := .base }
    else { k with ks := .base, ring := putcQStr (extSeq s) k.ring }
  | .base =>
    if s = kbExtPrefix then { k with ks := .e0 }
    else if s = kbPausePrefix then { k with ks := .e1, e1Left := kbPauseTrail }
    else if s &&& kbBreakBit ≠ 0 then
      if s &&& 0x7f = scLshift ∨ s &&& 0x7f = scRshift then { k with shift := false }
      else if s &&& 0x7f = scLctrl then { k with ctrl := false }
      else k
    else if s = scLshift ∨ s = scRshift then { k with shift := true }
    else if s = scLctrl then { k with ctrl := true }
    else if s = scLalt then k
    else { k with ring := putcQStr (keyChar k.shift k.ctrl s) k.ring }

def feed (codes : List UInt8) (k : Kb) : Kb := codes.foldl (fun k s => kh s k) k

/-- The characters in the ring and the modifiers. -/
def Kb.seen (k : Kb) : Ring × Bool × Bool := (k.ring, k.shift, k.ctrl)

section Pause

/-- The codes of the Pause key. -/
def pause : List UInt8 := [0xE1, 0x1D, 0x45, 0xE1, 0x9D, 0xC5]

/-- Outside the sequence the count of what is left of it has no effect. -/
theorem kh_e1Left (s left : UInt8) {k : Kb} (outside : k.ks ≠ .e1) :
    kh s { k with e1Left := left } = kh s k ∨
      (kh s k).ks ≠ .e1 ∧ kh s { k with e1Left := left } = { kh s k with e1Left := left } := by
  rcases k with ⟨ring, shift, ctrl, ks, count⟩
  cases ks with
  | e1 => exact absurd rfl outside
  | e0 =>
    simp only [kh]
    split_ifs <;> exact .inr ⟨by simp, rfl⟩
  | base =>
    simp only [kh]
    -- The prefix of the sequence sets the count anew.
    split_ifs <;> first | exact .inr ⟨by simp, rfl⟩ | exact .inl rfl

theorem seen_feed_e1Left (codes : List UInt8) (left : UInt8) {k : Kb} (outside : k.ks ≠ .e1) :
    (feed codes { k with e1Left := left }).seen = (feed codes k).seen := by
  induction codes generalizing k with
  | nil => rfl
  | cons s rest ih =>
    rcases kh_e1Left s left outside with same | ⟨still, same⟩
    · exact congrArg (fun next => (feed rest next).seen) same
    · refine Eq.trans (congrArg (fun next => (feed rest next).seen) same) ?_
      exact ih still

/-- The decoder as it starts. -/
def bootKb : Kb :=
  { ring := { q := fun _ => 0, h := 0, t := 0 }, shift := false, ctrl := false, ks := .base
    e1Left := 0 }

end Pause

section Modifiers

/-- A key: whether its codes have the prefix, and its code. -/
structure Key where
  ext : Bool
  code : UInt8
  small : code < 0x80
  /-- No key has a code whose release would be a prefix. -/
  plain : ext = false → code ≠ 0x60 ∧ code ≠ 0x61
  deriving DecidableEq

def lshift : Key := { ext := false, code := scLshift, small := by decide, plain := by decide }
def rshift : Key := { ext := false, code := scRshift, small := by decide, plain := by decide }
def lctrl : Key := { ext := false, code := scLctrl, small := by decide, plain := by decide }
def rctrl : Key := { ext := true, code := scLctrl, small := by decide, plain := by decide }

/-- A key goes down or up. -/
structure KeyEvent where
  key : Key
  down : Bool

def KeyEvent.codes (e : KeyEvent) : List UInt8 :=
  let code := if e.down then e.key.code else e.key.code ||| kbBreakBit
  if e.key.ext then [kbExtPrefix, code] else [code]

/-- The keys that are held down. -/
abbrev Held := Key → Bool

def Held.after (held : Held) (e : KeyEvent) : Held := Function.update held e.key e.down

def Held.shift (held : Held) : Bool := held lshift || held rshift
def Held.ctrl (held : Held) : Bool := held lctrl || held rctrl

/-- Every key is pressed only when it is up, and released only when it is down. -/
def Alternates : Held → List KeyEvent → Prop
  | _, [] => True
  | held, e :: rest => held e.key = !e.down ∧ Alternates (held.after e) rest

/-- What a key types under two modifiers. -/
def typed (shift ctrl : Bool) (e : KeyEvent) : List UInt8 :=
  if !e.down then []
  else if e.key.ext then extSeq e.key.code
  else if e.key = lshift ∨ e.key = rshift ∨ e.key = lctrl ∨ e.key.code = scLalt then []
  else keyChar shift ctrl e.key.code

/-- The flags are those of the keys that are held. -/
def Tracks (k : Kb) (held : Held) : Prop :=
  k.ks = .base ∧ k.shift = held.shift ∧ k.ctrl = held.ctrl

/-- After every code the flags are right, and what was typed is in the ring. -/
def TracksAll : Kb → Held → List KeyEvent → Prop
  | _, _, [] => True
  | k, held, e :: rest =>
    Tracks (feed e.codes k) (held.after e) ∧
      (feed e.codes k).ring = putcQStr (typed held.shift held.ctrl e) k.ring ∧
      TracksAll (feed e.codes k) (held.after e) rest

/--
The other key of a modifier is up when one of its keys is released, and the right Ctrl key goes
down only while the left one is held.
-/
def Covered (held : Held) (e : KeyEvent) : Prop :=
  (e.down = false → (e.key = lshift → held rshift = false) ∧ (e.key = rshift → held lshift = false) ∧
      (e.key = lctrl → held rctrl = false) ∧ (e.key = rctrl → held lctrl = false)) ∧
    (e.down = true → e.key = rctrl → held lctrl = true)

def CoveredAll : Held → List KeyEvent → Prop
  | _, [] => True
  | held, e :: rest => Covered held e ∧ CoveredAll (held.after e) rest

section Codes

variable {held : Held} {k : Kb} {e : KeyEvent}

/-- The release of a key is its code with one bit more. -/
theorem break_code (c : UInt8) (small : c < 0x80) :
    c &&& kbBreakBit = 0 ∧ (c ||| kbBreakBit) &&& kbBreakBit ≠ 0 ∧
      (c ||| kbBreakBit) &&& 0x7f = c ∧ c ≠ kbExtPrefix ∧ c ≠ kbPausePrefix ∧
      (c ||| kbBreakBit = kbExtPrefix → c = 0x60) ∧
      (c ||| kbBreakBit = kbPausePrefix → c = 0x61) := by
  obtain ⟨c⟩ := c
  revert c
  decide +kernel

/-- A whole code leaves no prefix, and changes the flags and the ring. -/
theorem feed_codes (boundary : k.ks = .base) : feed e.codes k =
    { k with
      shift := if e.key = lshift ∨ e.key = rshift then e.down else k.shift
      ctrl := if e.key = lctrl then e.down
        else if e.key = rctrl ∧ e.down = false then false else k.ctrl
      ring := putcQStr (typed k.shift k.ctrl e) k.ring } := by
  rcases e with ⟨⟨ext, code, small, plain⟩, down⟩
  rcases k with ⟨ring, shift, ctrl, ks, left⟩
  cases boundary
  obtain ⟨make, broken, back, noExt, noPause, extOnly, pauseOnly⟩ := break_code code small
  have distinct : scLshift ≠ scLctrl ∧ scRshift ≠ scLctrl ∧ scLalt ≠ scLctrl ∧
      scLalt ≠ scLshift ∧ scLalt ≠ scRshift := by decide
  have released : ext = false →
      code ||| kbBreakBit ≠ kbExtPrefix ∧ code ||| kbBreakBit ≠ kbPausePrefix := fun plainKey =>
    ⟨fun same => (plain plainKey).1 (extOnly same), fun same => (plain plainKey).2 (pauseOnly same)⟩
  cases ext <;> cases down <;>
    simp only [KeyEvent.codes, feed, kh, lshift, rshift, lctrl, rctrl, typed, putcQStr,
      Key.mk.injEq] <;>
    grind

theorem tracks_iff (tracks : Tracks k held) (alternates : held e.key = !e.down) :
    Tracks (feed e.codes k) (held.after e) ↔ Covered held e := by
  obtain ⟨boundary, shift, ctrl⟩ := tracks
  rw [feed_codes boundary]
  have distinct : lshift ≠ rshift ∧ lshift ≠ lctrl ∧ lshift ≠ rctrl ∧ rshift ≠ lctrl ∧
      rshift ≠ rctrl ∧ lctrl ≠ rctrl := by decide
  rcases e with ⟨key, down⟩
  simp only [Tracks, Covered, boundary, shift, ctrl, Held.shift, Held.ctrl, Held.after,
    Function.update_apply]
  grind

end Codes

/--
After every code the flags are those of the keys that are held, exactly if every code finds the
other key of its modifier as it needs it.

Two keys share one flag, and the press of the right Ctrl key sets none.
-/
theorem modifiers_tracked_iff {events : List KeyEvent} {k : Kb} {held : Held}
    (start : Tracks k held) (alternates : Alternates held events) :
    TracksAll k held events ↔ CoveredAll held events := by
  -- By induction on the events: as long as the flags are right, so is what is typed.
  induction events generalizing k held with
  | nil => exact Iff.rfl
  | cons e rest ih =>
    have step := tracks_iff start alternates.1
    have written : (feed e.codes k).ring = putcQStr (typed held.shift held.ctrl e) k.ring := by
      rw [feed_codes start.1, start.2.1, start.2.2]
    simp only [TracksAll, CoveredAll]
    constructor
    · intro all
      exact ⟨step.mp all.1, (ih all.1 alternates.2).mp all.2.2⟩
    · intro all
      have next := step.mpr all.1
      exact ⟨next, written, (ih next alternates.2).mpr all.2⟩

def nothingHeld : Held := fun _ => false

/-- The key of the letter a. -/
def aKey : Key := { ext := false, code := 0x1E, small := by decide, plain := by decide }

/-- A letter is typed while the left Shift key is held. -/
theorem modifiers_tracked_iff_letter :
    TracksAll bootKb nothingHeld [⟨lshift, true⟩, ⟨aKey, true⟩, ⟨lshift, false⟩] := by
  have alternates : Alternates nothingHeld [⟨lshift, true⟩, ⟨aKey, true⟩, ⟨lshift, false⟩] :=
    ⟨by decide, by decide, by decide, trivial⟩
  refine (modifiers_tracked_iff ⟨rfl, rfl, rfl⟩ alternates).mpr ⟨?_, ?_, ?_, trivial⟩
  all_goals exact ⟨by decide, by decide⟩

/-- With both Shift keys held, the release of one clears the flag. -/
theorem released_shift_drops_other :
    let events : List KeyEvent := [⟨lshift, true⟩, ⟨rshift, true⟩, ⟨lshift, false⟩]
    Alternates nothingHeld events ∧ (events.foldl Held.after nothingHeld).shift = true ∧
      (feed (events.flatMap KeyEvent.codes) bootKb).shift = false := by
  exact ⟨⟨by decide, by decide, by decide, trivial⟩, by decide, by decide⟩

end Modifiers

section Queue

def keyboardGetchar (r : Ring) : Ring × Option UInt8 :=
  if r.t = r.h then (r, none) else ({ r with t := r.t + 1 }, some (r.q r.t))

/-- A character is stored, or one is read. -/
def ringStep : Option UInt8 → Ring → Ring × Option UInt8
  | some c, r => (putcQ c r, none)
  | none, r => keyboardGetchar r

/-- A queue that drops what comes while it holds 255 characters. -/
def queueStep : Option UInt8 → List UInt8 → List UInt8 × Option UInt8
  | some c, queue => (if queue.length = 255 then queue else queue ++ [c], none)
  | none, queue => (queue.tail, queue.head?)

def Holds (q : UInt8 → UInt8) (h t : UInt8) : List UInt8 → Prop
  | [] => t = h
  | c :: rest => t ≠ h ∧ q t = c ∧ Holds q h (t + 1) rest

variable {q : UInt8 → UInt8} {h t : UInt8} {queue : List UInt8}

theorem Holds.length (held : Holds q h t queue) : queue.length = (h - t).toNat := by
  induction queue generalizing t with
  | nil => simp [show t = h from held]
  | cons c rest ih =>
    have differs := held.1
    rw [List.length_cons, ih held.2.2]
    rw [ne_eq, ← UInt8.toNat_inj] at differs
    simp only [UInt8.toNat_sub, UInt8.toNat_add, UInt8.toNat_one]
    grind [UInt8.toNat_lt]

theorem Holds.putcQ (held : Holds q h t queue) (room : h + 1 ≠ t) (c : UInt8) :
    Holds (Function.update q h c) (h + 1) t (queue ++ [c]) := by
  -- The character goes where reading ends, so no position before it changes.
  induction queue generalizing t with
  | nil =>
    obtain rfl : t = h := held
    exact ⟨room.symm, Function.update_self .., rfl⟩
  | cons d rest ih =>
    obtain ⟨differs, here, rest⟩ := held
    exact ⟨room.symm, (Function.update_of_ne differs ..).trans here, ih rest (by grind)⟩

/-- Written and read in any order, the ring is a queue of 255 characters. -/
theorem ring_refines_queue (q : UInt8 → UInt8) (h : UInt8) (ops : List (Option UInt8)) :
    runOutputs ringStep ops ⟨q, h, h⟩ = runOutputs queueStep ops [] := by
  have matched : Simulates ringStep queueStep (fun _ _ => True) fun r => Holds r.q r.h r.t := by
    rintro (_ | c) r queue - held
    · cases queue <;> simp_all [Holds, ringStep, keyboardGetchar, queueStep]
    · have full : queue.length = 255 ↔ r.h + 1 = r.t := by
        rw [held.length, ← UInt8.toNat_inj, UInt8.toNat_sub, UInt8.toNat_add, UInt8.toNat_one]
        grind [UInt8.toNat_lt]
      simp only [ringStep, CatOs.Keyboard.putcQ, queueStep, full, and_true]
      split
      · exact held
      · exact held.putcQ ‹_› c
  exact (matched.run ops (allAllowed_true ops _) (show Holds q h h [] from rfl)).1

end Queue

end CatOs.Keyboard
