import Mathlib.Data.Set.Insert
import Mathlib.Logic.Function.Basic
import Mathlib.Logic.Relation
import Tyrne.Cap

/-!
# Capability spaces

What a capability table is for, without its array: each index holds at most one
capability, placed under a parent or at the top, and carries a generation that
tells the present holder of the index from earlier ones. An operation either
changes nothing, places one capability at a free index, or clears some indices,
and clearing is the only thing that advances a generation.
-/

namespace Tyrne.CapSpace

open Tyrne.Cap

set_option autoImplicit false

structure Held where
  capability : Capability
  parent : Option Index
  depth : Nat
  deriving DecidableEq, Repr

@[ext] structure Space where
  held : Index → Option Held
  generation : Index → Generation

inductive TableOp where
  | insertRoot (cap : Capability)
  | capCopy (src : CapHandle) (newRights : CapRights)
  | capDerive (src : CapHandle) (newRights : CapRights) (newObject : CapObject)
  | capRevoke (src : CapHandle)
  | capDrop (handle : CapHandle)
  | capTake (handle : CapHandle)
  deriving DecidableEq, Repr

inductive TableReply where
  | handle (handle : CapHandle)
  | done
  | capability (capability : Capability)
  deriving DecidableEq, Repr

/-- One call of a table operation together with what it returned. -/
structure TableCall where
  op : TableOp
  result : Except CapError TableReply

namespace Space

def Resolves (space : Space) (handle : CapHandle) (held : Held) : Prop :=
  space.held handle.index = some held ∧ space.generation handle.index = handle.generation

def ParentOf (space : Space) (child parent : Index) : Prop :=
  (space.held child).bind Held.parent = some parent

/-- `index` holds a strict descendant of what `root` holds. -/
def Below (space : Space) (root index : Index) : Prop :=
  Relation.TransGen space.ParentOf index root

def place (space : Space) (index : Index) (held : Held) : Space :=
  { space with held := Function.update space.held index (some held) }

open scoped Classical in
noncomputable def clear (space : Space) (cut : Set Index) : Space where
  held := fun index => if index ∈ cut then none else space.held index
  generation := fun index =>
    if index ∈ cut then space.generation index + 1 else space.generation index

end Space

/-- Everything a call can do to a space. A refused call changes nothing; which
calls are refused is the table's business, not the space's. -/
inductive SpaceStep : Space → TableCall → Space → Prop where
  | refused (space : Space) (op : TableOp) (error : CapError) :
      SpaceStep space ⟨op, .error error⟩ space
  | rooted {space : Space} {index : Index} (cap : Capability)
      (free : space.held index = none) :
      SpaceStep space ⟨.insertRoot cap, .ok (.handle ⟨index, space.generation index⟩)⟩
        (space.place index ⟨cap, none, 0⟩)
  | copied {space : Space} {index : Index} {src : CapHandle} {held : Held}
      {newRights : CapRights} (resolves : space.Resolves src held)
      (narrowed : held.capability.rights.contains newRights)
      (free : space.held index = none) :
      SpaceStep space ⟨.capCopy src newRights, .ok (.handle ⟨index, space.generation index⟩)⟩
        (space.place index ⟨⟨newRights, held.capability.object⟩, held.parent, held.depth⟩)
  | derived {space : Space} {index : Index} {src : CapHandle} {held : Held}
      {newRights : CapRights} {newObject : CapObject} (resolves : space.Resolves src held)
      (narrowed : held.capability.rights.contains newRights)
      (free : space.held index = none) :
      SpaceStep space
        ⟨.capDerive src newRights newObject, .ok (.handle ⟨index, space.generation index⟩)⟩
        (space.place index ⟨⟨newRights, newObject⟩, some src.index, held.depth + 1⟩)
  | revoked {space : Space} {src : CapHandle} {held : Held}
      (resolves : space.Resolves src held) (allowed : held.capability.rights.contains .revoke) :
      SpaceStep space ⟨.capRevoke src, .ok .done⟩
        (space.clear { index | space.Below src.index index })
  | dropped {space : Space} {handle : CapHandle} {held : Held}
      (resolves : space.Resolves handle held)
      (leaf : ∀ child, ¬ space.ParentOf child handle.index) :
      SpaceStep space ⟨.capDrop handle, .ok .done⟩ (space.clear {handle.index})
  | taken {space : Space} {handle : CapHandle} {held : Held}
      (resolves : space.Resolves handle held)
      (leaf : ∀ child, ¬ space.ParentOf child handle.index) :
      SpaceStep space ⟨.capTake handle, .ok (.capability held.capability)⟩
        (space.clear {handle.index})

end Tyrne.CapSpace
