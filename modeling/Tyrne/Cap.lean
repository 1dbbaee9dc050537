import Tyrne.Lib.Effect

/-!
# Handles, rights and capabilities

The data of `kernel/src/cap/mod.rs`, `cap/rights.rs` and the typed handles of
`kernel/src/obj`. Slot indices are `u16` in the source and only compared and used
to index, so they are natural numbers here; generations are `u32` and wrap.
-/

namespace Tyrne.Cap

set_option autoImplicit false

abbrev Index : Type := Nat

abbrev Generation : Type := UInt32

/-- `SlotId` of `obj/arena.rs`. -/
structure SlotId where
  index : Index
  generation : Generation
  deriving DecidableEq, Repr

structure TaskHandle where
  slot : SlotId
  deriving DecidableEq, Repr

structure EndpointHandle where
  slot : SlotId
  deriving DecidableEq, Repr

structure NotificationHandle where
  slot : SlotId
  deriving DecidableEq, Repr

/-- `CapHandle` of `cap/table.rs`. -/
structure CapHandle where
  index : Index
  generation : Generation
  deriving DecidableEq, Repr

structure CapRights where
  bits : BitVec 32
  deriving DecidableEq, Repr

namespace CapRights

def empty : CapRights := ⟨0⟩
def duplicate : CapRights := ⟨1 <<< 0⟩
def derive : CapRights := ⟨1 <<< 1⟩
def revoke : CapRights := ⟨1 <<< 2⟩
def transfer : CapRights := ⟨1 <<< 3⟩
def send : CapRights := ⟨1 <<< 4⟩
def recv : CapRights := ⟨1 <<< 5⟩
def notify : CapRights := ⟨1 <<< 6⟩

/-- Every flag in `other` is set in `self`. -/
def contains (self other : CapRights) : Bool := (self.bits &&& other.bits) == other.bits

def union (self other : CapRights) : CapRights := ⟨self.bits ||| other.bits⟩

end CapRights

inductive CapObject where
  | task (handle : TaskHandle)
  | endpoint (handle : EndpointHandle)
  | notification (handle : NotificationHandle)
  deriving DecidableEq, Repr

structure Capability where
  rights : CapRights
  object : CapObject
  deriving DecidableEq, Repr

inductive CapError where
  | capsExhausted
  | invalidHandle
  | widenedRights
  | insufficientRights
  | derivationTooDeep
  | hasChildren
  deriving DecidableEq, Repr

/-- Every way a table, arena or message operation can stop the kernel: the
`unreachable!` and `debug_assert!` sites of the source, array accesses out of range,
and a loop that does not end. -/
inductive Fault where
  | indexOutOfBounds
  | divergence
  | derivationCycle
  | freeHeadOutOfBounds
  | endpointNotDrained
  | unreachableSend
  deriving DecidableEq, Repr

/-- Whether `debug_assert!` is compiled in. -/
structure Build where
  debugAssertions : Bool
  deriving DecidableEq, Repr

open Tyrne.Lib.Effect

/-- `debug_assert!`: in a release build it does nothing. -/
def debugAssert {Fault State Error : Type} (build : Build) (condition : Bool) (fault : Fault) :
    Eff Fault State Error Unit :=
  if build.debugAssertions && !condition then abort fault else pure ()

@[simp] theorem debug_assert_true {Fault State Error : Type} (build : Build) (fault : Fault)
    (state : State) :
    (debugAssert build true fault : Eff Fault State Error Unit) state = .ok () state := by
  simp [debugAssert]

end Tyrne.Cap
