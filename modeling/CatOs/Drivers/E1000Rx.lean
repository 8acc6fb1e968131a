import CatOs.Lib.Buffer
import CatOs.Lib.Run

/-! The receive ring of the network card, polled by a task that a timer poll may interrupt. -/

namespace CatOs.E1000

def rxN : Nat := 256

def batchLimit : Nat := 32

structure RxDesc where
  dd : Bool
  frame : Nat
  deriving DecidableEq, Repr

/--
The receive ring, with the hardware's head and tail registers.

Frames are numbered in the order in which the hardware received them.
-/
structure RxRing where
  rx : Buffer RxDesc
  rxLast : Nat
  rdh : Nat
  rdt : Nat
  received : Nat
  handled : List Nat

inductive PollPoint where
  | test
  | handle (i : Nat)
  | clear (i : Nat)
  | advance (i : Nat)
  | next (i : Nat)
  | finish
  deriving DecidableEq, Repr

structure Poll where
  point : PollPoint
  processed : Nat
  lastRdt : Nat
  deriving DecidableEq, Repr

def Poll.begin : Poll := { point := .test, processed := 0, lastRdt := 0 }

def RxRing.arrive (ring : RxRing) : RxRing :=
  if ring.rdh = ring.rdt then ring
  else
    { ring with
      rx := Function.update ring.rx ring.rdh { dd := true, frame := ring.received }
      rdh := (ring.rdh + 1) % rxN
      received := ring.received + 1 }

def RxRing.handle (ring : RxRing) (i : Nat) : RxRing :=
  { ring with handled := ring.handled ++ [(ring.rx i).frame] }

def RxRing.clear (ring : RxRing) (i : Nat) : RxRing :=
  { ring with rx := Function.update ring.rx i { ring.rx i with dd := false } }

def RxRing.advance (ring : RxRing) (i : Nat) : RxRing :=
  { ring with rxLast := (i + 1) % rxN }

def RxRing.writeTail (ring : RxRing) (poll : Poll) : RxRing :=
  if 0 < poll.processed then { ring with rdt := poll.lastRdt } else ring

def e1000Poll (poll : Poll) (ring : RxRing) : RxRing × Option Poll :=
  match poll.point with
  | .test =>
    if poll.processed < batchLimit ∧ (ring.rx ring.rxLast).dd then
      (ring, some { poll with point := .handle ring.rxLast })
    else (ring, some { poll with point := .finish })
  | .handle i => (ring.handle i, some { poll with point := .clear i })
  | .clear i => (ring.clear i, some { poll with point := .advance i })
  | .advance i => (ring.advance i, some { poll with point := .next i })
  | .next i =>
    (ring, some { point := .test, processed := poll.processed + 1, lastRdt := i })
  | .finish => (ring.writeTail poll, none)

structure RxSystem where
  ring : RxRing
  task : Option Poll
  irq : Option Poll

inductive RxInput where
  | arrive
  | call
  | interrupt
  | step
  deriving DecidableEq, Repr

def rxStep (input : RxInput) (sys : RxSystem) : RxSystem :=
  match input with
  | .arrive => { sys with ring := sys.ring.arrive }
  | .call =>
    match sys.task, sys.irq with
    | none, none => { sys with task := some Poll.begin }
    | _, _ => sys
  -- The timer gate masks interrupts, so a timer poll is never itself interrupted.
  | .interrupt =>
    match sys.irq with
    | none => { sys with irq := some Poll.begin }
    | some _ => sys
  | .step =>
    match sys.irq, sys.task with
    | some poll, _ =>
      let (ring, rest) := e1000Poll poll sys.ring
      { sys with ring := ring, irq := rest }
    | none, some poll =>
      let (ring, rest) := e1000Poll poll sys.ring
      { sys with ring := ring, task := rest }
    | none, none => sys

def rxInit : RxSystem where
  ring :=
    { rx := fun _ => { dd := false, frame := 0 }, rxLast := 0, rdh := 0, rdt := rxN - 1,
      received := 0, handled := [] }
  task := none
  irq := none

end CatOs.E1000
