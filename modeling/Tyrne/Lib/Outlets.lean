import Tyrne.Lib.Runs

/-!
# A writer that looks before it puts

A writer hands items to a buffer of bounded size that somebody else empties. Before each
item it looks whether there is room. Whatever the order of looking, putting and emptying,
no item is lost, doubled or overtaken, as long as one writer at a time is at work. A writer
that is cut off leaves what it has not handed over, and nothing else.
-/

namespace Tyrne.Lib.Outlets

open Tyrne.Lib.Runs

set_option autoImplicit false

variable {State Label Item : Type}

structure Outlet (Item : Type) where
  pending : List Item
  /-- The writer's last look found room. -/
  ready : Bool
  buffer : List Item
  gone : List Item

inductive Move (Item : Type) where
  | begin (items : List Item)
  | cut (items : List Item)
  | look
  | put
  | take
  deriving DecidableEq

/-- A full buffer has no place for one more item. -/
def store (size : Nat) (buffer : List Item) (item : Item) : List Item :=
  if buffer.length < size then buffer ++ [item] else buffer

inductive Moves (size : Nat) : Outlet Item → Move Item → Outlet Item → Prop where
  | begin {ready : Bool} {buffer gone : List Item} (items : List Item) :
      Moves size ⟨[], ready, buffer, gone⟩ (.begin items) ⟨items, false, buffer, gone⟩
  | cut {ready : Bool} {pending buffer gone : List Item} (items : List Item) :
      Moves size ⟨pending, ready, buffer, gone⟩ (.cut items) ⟨items, false, buffer, gone⟩
  | look {item : Item} {rest buffer gone : List Item} :
      Moves size ⟨item :: rest, false, buffer, gone⟩ .look
        ⟨item :: rest, decide (buffer.length < size), buffer, gone⟩
  | put {item : Item} {rest buffer gone : List Item} :
      Moves size ⟨item :: rest, true, buffer, gone⟩ .put
        ⟨rest, false, store size buffer item, gone⟩
  | take {ready : Bool} {item : Item} {pending rest gone : List Item} :
      Moves size ⟨pending, ready, item :: rest, gone⟩ .take ⟨pending, ready, rest, gone ++ [item]⟩

/-- The writer has checked for the room it is about to use. -/
structure Sound (size : Nat) (outlet : Outlet Item) : Prop where
  bounded : outlet.buffer.length ≤ size
  room : outlet.ready = true → outlet.buffer.length < size ∧ outlet.pending ≠ []

/-- Everything handed over or still to be handed over, oldest first. -/
def Outlet.output (outlet : Outlet Item) : List Item :=
  outlet.gone ++ outlet.buffer ++ outlet.pending

/-- What the output becomes. A cut takes back what was not handed over. -/
def asks (outlet : Outlet Item) (sofar : List Item) : Move Item → List Item
  | .begin items => sofar ++ items
  | .cut items => sofar.take (sofar.length - outlet.pending.length) ++ items
  | _ => sofar

section Moves

variable {size : Nat} {before after : Outlet Item} {move : Move Item}

theorem store_room {buffer : List Item} (room : buffer.length < size) (item : Item) :
    store size buffer item = buffer ++ [item] := if_pos room

theorem Moves.was_ready (moved : Moves size before .put after) : before.ready = true := by
  cases moved with
  | put => rfl

theorem Sound.kept (sound : Sound size before) (moved : Moves size before move after) :
    Sound size after := by
  cases moved with
  | begin items => exact ⟨sound.bounded, nofun⟩
  | cut items => exact ⟨sound.bounded, nofun⟩
  | look =>
      constructor
      · exact sound.bounded
      · intro found
        exact ⟨of_decide_eq_true found, List.cons_ne_nil _ _⟩
  | @put item rest buffer gone =>
      have bound : buffer.length < size := (sound.room rfl).1
      constructor
      · rw [store_room bound, List.length_append]
        exact bound
      · intro again
        cases again
  | @take ready item pending rest gone =>
      have bound : rest.length < size := sound.bounded
      constructor
      · exact Nat.le_of_lt bound
      · intro isReady
        exact ⟨bound, (sound.room isReady).2⟩

/-- Each move changes the output by what it asks for. -/
theorem Sound.output_moved (sound : Sound size before) (moved : Moves size before move after) :
    after.output = asks before before.output move := by
  cases moved with
  | begin items => simp [Outlet.output, asks]
  | @cut ready pending buffer gone items =>
      have handed : (gone ++ buffer ++ pending).length - pending.length =
          (gone ++ buffer).length := by
        simp only [List.length_append]
        omega
      simp only [Outlet.output, asks]
      rw [handed, List.take_left]
  | look => rfl
  | put =>
      have stored := store_room (sound.room rfl).1
      simp [Outlet.output, asks, stored]
  | take => simp [Outlet.output, asks]

end Moves

/-! ## Whole runs -/

/-- A system with a writer in it. Steps that are nobody's move leave the outlet alone. -/
structure Embeds (Step : State → Label → State → Prop) (size : Nat) (view : State → Outlet Item)
    (moveOf : Label → Move Item) : Prop where
  moves : ∀ {before label after}, Step before label after →
    Moves size (view before) (moveOf label) (view after)

def asked (view : State → Outlet Item) (moveOf : Label → Move Item) (sofar : List Item)
    (trace : List (Transition State Label)) : List Item :=
  trace.foldl (fun sofar taken => asks (view taken.before) sofar (moveOf taken.label)) sofar

section Runs

variable {Step : State → Label → State → Prop} {size : Nat} {view : State → Outlet Item}
  {moveOf : Label → Move Item} {start after : State} {trace : List (Transition State Label)}

theorem run_sound (embeds : Embeds Step size view moveOf) (initial : Sound size (view start))
    (run : Run Step start trace after) : Sound size (view after) := by
  induction run with
  | nil => exact initial
  | snoc earlier step ih => exact ih.kept (embeds.moves step)

theorem run_output (embeds : Embeds Step size view moveOf) (initial : Sound size (view start))
    (run : Run Step start trace after) :
    (view after).output = asked view moveOf (view start).output trace := by
  induction run with
  | nil => rfl
  | snoc earlier step ih =>
      have reached := run_sound embeds initial earlier
      rw [reached.output_moved (embeds.moves step), ih]
      simp [asked]

end Runs

/-! ## How long it takes -/

/-- The moves still needed: a look and a put for each pending item, and a take for each item
that is not out. -/
def Outlet.remaining (outlet : Outlet Item) : Nat :=
  3 * outlet.pending.length + outlet.buffer.length - outlet.ready.toNat

def idles (size : Nat) (outlet : Outlet Item) : Move Item → Bool
  | .look => decide (size ≤ outlet.buffer.length)
  | _ => false

def Move.asking : Move Item → Bool
  | .begin _ | .cut _ => true
  | _ => false

section Progress

variable {Step : State → Label → State → Prop} {size : Nat} {view : State → Outlet Item}
  {moveOf : Label → Move Item} {start finish : State} {trace : List (Transition State Label)}
  {before after : Outlet Item} {move : Move Item}

theorem Sound.remaining_moved (sound : Sound size before) (quiet : move.asking = false)
    (moved : Moves size before move after) :
    (!idles size before move).toNat + after.remaining = before.remaining := by
  cases moved with
  | begin items => cases quiet
  | cut items => cases quiet
  | @look item rest buffer gone =>
      by_cases full : size ≤ buffer.length
      · have noRoom : ¬ buffer.length < size := Nat.not_lt.mpr full
        simp [idles, full, noRoom]
      · have room : buffer.length < size := Nat.lt_of_not_le full
        simp only [idles, full, room, decide_true, decide_false, Outlet.remaining, List.length_cons,
          Bool.not_false, Bool.toNat_true, Bool.toNat_false]
        omega
  | @put item rest buffer gone =>
      have stored := store_room (sound.room rfl).1 item
      simp only [idles, Outlet.remaining, stored, List.length_cons, List.length_append,
        List.length_nil, Bool.not_false, Bool.toNat_true, Bool.toNat_false]
      omega
  | @take ready item pending rest gone =>
      have used : ready.toNat ≤ 3 * pending.length + rest.length := by
        cases ready with
        | false => simp
        | true =>
            have more : 0 < pending.length := List.length_pos_iff.mpr (sound.room rfl).2
            simp only [Bool.toNat_true]
            omega
      simp only [idles, Outlet.remaining, List.length_cons, Bool.not_false, Bool.toNat_true]
      omega

theorem run_remaining (embeds : Embeds Step size view moveOf) (initial : Sound size (view start))
    (run : Run Step start trace finish)
    (quiet : ∀ taken ∈ trace, (moveOf taken.label).asking = false) :
    trace.countP (fun taken => !idles size (view taken.before) (moveOf taken.label)) +
      (view finish).remaining = (view start).remaining := by
  induction run with
  | nil => simp
  | @snoc trace middle finish label earlier step ih =>
      have sofar := ih fun taken member => quiet taken (List.mem_append_left _ member)
      have reached := run_sound embeds initial earlier
      have last := reached.remaining_moved
        (quiet _ (List.mem_append_right _ (List.mem_singleton_self _)))
        (embeds.moves step)
      rw [List.countP_append, List.countP_singleton]
      rw [← sofar, ← last]
      cases idles size (view middle) (moveOf label) with
      | false => simp; omega
      | true => simp

end Progress

end Tyrne.Lib.Outlets
