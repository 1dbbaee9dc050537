import Tyrne.Lib.Outlets

/-!
# The console

`write_bytes` of `bsp-qemu-virt/src/console.rs`, one volatile access at a time, against a
PL011 that sends from its FIFO whenever it likes. `panic` is the panic handler of `main.rs`
taking over in the middle of a call: the call it takes over from never goes on.
`FakeConsole` is the console of `test-hal/src/console.rs`.
-/

namespace Tyrne.Console

open Tyrne.Lib.Runs
open Tyrne.Lib.Outlets

set_option autoImplicit false

/-! ## The driver -/

def uartdr : UInt64 := 0x00
def uartfr : UInt64 := 0x18
def uartfrTxff : UInt32 := (1 : UInt32) <<< 5

structure Pl011Uart where
  base : UInt64

inductive Access where
  | readVolatile (address : UInt64)
  | writeVolatile (address : UInt64) (value : UInt32)
  deriving DecidableEq

/-- A call of `write_bytes` between two accesses. -/
structure WriteBytes where
  /-- The byte at work and those behind it. -/
  bytes : List UInt8
  /-- The call stands at the condition of its `while`. -/
  polling : Bool
  deriving DecidableEq

def writeBytes (bytes : List UInt8) : WriteBytes := ⟨bytes, true⟩

/-- The next access. A call without one has returned. -/
def Pl011Uart.access (uart : Pl011Uart) (call : WriteBytes) : Option Access :=
  match call.bytes with
  | [] => none
  | byte :: _ =>
      if call.polling then some (.readVolatile (uart.base + uartfr))
      else some (.writeVolatile (uart.base + uartdr) byte.toUInt32)

def WriteBytes.hasRead (call : WriteBytes) (value : UInt32) : WriteBytes :=
  { call with polling := value &&& uartfrTxff != 0 }

def WriteBytes.hasWritten (call : WriteBytes) : WriteBytes := ⟨call.bytes.tail, true⟩

/-! ## The device -/

structure Transmitter where
  fifo : List UInt8
  sent : List UInt8
  deriving DecidableEq

/-- TXFF says whether the FIFO is full; the other flags may read as anything. -/
def Transmitter.answers (device : Transmitter) (base : UInt64) (depth : Nat) (address : UInt64)
    (value : UInt32) : Bool :=
  address == base + uartfr && (value &&& uartfrTxff != 0) == decide (depth ≤ device.fifo.length)

def Transmitter.accepts (device : Transmitter) (base : UInt64) (depth : Nat) (address : UInt64)
    (value : UInt32) : Option Transmitter :=
  if address = base + uartdr then some { device with fifo := store depth device.fifo value.toUInt8 }
  else none

/-! ## Both together -/

structure State where
  call : WriteBytes
  device : Transmitter
  deriving DecidableEq

def fresh : State := ⟨writeBytes [], ⟨[], []⟩⟩

inductive Label where
  | writeBytes (bytes : List UInt8)
  | panic (bytes : List UInt8)
  | read (value : UInt32)
  | write
  | send
  deriving DecidableEq

section Machine

variable (uart : Pl011Uart) (depth : Nat)

def next (state : State) : Label → Option State
  | .writeBytes bytes =>
      if (uart.access state.call).isNone then some { state with call := writeBytes bytes } else none
  | .panic bytes => some { state with call := writeBytes bytes }
  | .read value =>
      match uart.access state.call with
      | some (.readVolatile address) =>
          if state.device.answers uart.base depth address value then
            some { state with call := state.call.hasRead value }
          else none
      | _ => none
  | .write =>
      match uart.access state.call with
      | some (.writeVolatile address value) =>
          (state.device.accepts uart.base depth address value).map fun device =>
            ⟨state.call.hasWritten, device⟩
      | _ => none
  | .send =>
      match state.device.fifo with
      | byte :: rest => some { state with device := ⟨rest, state.device.sent ++ [byte]⟩ }
      | [] => none

def ConsoleStep (before : State) (label : Label) (after : State) : Prop :=
  next uart depth before label = some after

instance (before : State) (label : Label) (after : State) :
    Decidable (ConsoleStep uart depth before label after) :=
  inferInstanceAs (Decidable (next uart depth before label = some after))

end Machine

def State.outlet (state : State) : Outlet UInt8 where
  pending := state.call.bytes
  ready := !state.call.polling
  buffer := state.device.fifo
  gone := state.device.sent

def Label.move : Label → Move UInt8
  | .writeBytes bytes => .begin bytes
  | .panic bytes => .cut bytes
  | .read _ => .look
  | .write => .put
  | .send => .take

section Machine

variable {uart : Pl011Uart} {depth : Nat} {before after : State} {label : Label}

theorem access_none {call : WriteBytes} (returned : uart.access call = none) : call.bytes = [] := by
  unfold Pl011Uart.access at returned
  split at returned
  · assumption
  · split at returned <;> cases returned

theorem access_read {call : WriteBytes} {address : UInt64}
    (reads : uart.access call = some (.readVolatile address)) :
    address = uart.base + uartfr ∧ call.polling = true ∧ ∃ byte rest, call.bytes = byte :: rest := by
  unfold Pl011Uart.access at reads
  split at reads
  · cases reads
  · next byte rest isBytes =>
      split at reads
      · next polling =>
          cases reads
          exact ⟨rfl, polling, byte, rest, isBytes⟩
      · cases reads

theorem access_write {call : WriteBytes} {address : UInt64} {value : UInt32}
    (writes : uart.access call = some (.writeVolatile address value)) :
    address = uart.base + uartdr ∧ call.polling = false ∧
      ∃ byte rest, call.bytes = byte :: rest ∧ value = byte.toUInt32 := by
  unfold Pl011Uart.access at writes
  split at writes
  · cases writes
  · next byte rest isBytes =>
      split at writes
      · cases writes
      · next done =>
          cases writes
          exact ⟨rfl, by simpa using done, byte, rest, isBytes, rfl⟩

theorem step_moves (step : ConsoleStep uart depth before label after) :
    Moves depth before.outlet label.move after.outlet := by
  rcases before with ⟨⟨bytes, polling⟩, ⟨fifo, sent⟩⟩
  cases label with
  | writeBytes more =>
      simp only [ConsoleStep, next, Option.ite_none_right_eq_some, Option.isNone_iff_eq_none,
        Option.some.injEq] at step
      have returned := access_none step.1
      rw [← step.2]
      cases returned
      exact .begin more
  | panic more =>
      simp only [ConsoleStep, next, Option.some.injEq] at step
      rw [← step]
      exact .cut more
  | read value =>
      simp only [ConsoleStep, next] at step
      split at step
      · next address reads =>
          rcases access_read reads with ⟨rfl, rfl, byte, rest, rfl⟩
          split at step
          · next answered =>
              simp only [Transmitter.answers, beq_self_eq_true, Bool.true_and, beq_iff_eq] at answered
              cases step
              have found : (!(value &&& uartfrTxff != 0)) = decide (fifo.length < depth) := by
                rw [answered, ← decide_not, decide_eq_decide]
                omega
              simp only [State.outlet, Label.move, WriteBytes.hasRead, found]
              exact .look
          · cases step
      · cases step
  | write =>
      simp only [ConsoleStep, next] at step
      split at step
      · next address value writes =>
          rcases access_write writes with ⟨rfl, rfl, byte, rest, rfl, rfl⟩
          simp only [Transmitter.accepts, if_true, Option.map_some, Option.some.injEq] at step
          rw [← step]
          simp only [State.outlet, Label.move, WriteBytes.hasWritten, UInt8.toUInt8_toUInt32]
          exact .put
      · cases step
  | send =>
      simp only [ConsoleStep, next] at step
      split at step
      · next byte rest =>
          cases step
          exact .take
      · cases step

theorem embeds : Embeds (ConsoleStep uart depth) depth State.outlet Label.move := ⟨step_moves⟩

end Machine

theorem fresh_sound (depth : Nat) : Sound depth fresh.outlet := ⟨Nat.zero_le depth, nofun⟩

/-! ## What comes out -/

/-- The console of the host tests. -/
structure FakeConsole where
  captured : List UInt8

def FakeConsole.writeBytes (console : FakeConsole) (bytes : List UInt8) : FakeConsole :=
  ⟨console.captured ++ bytes⟩

def writeStr (piece : String) : Label := .writeBytes piece.toByteArray.data.toList

/-- The same calls, made on the console of the host tests. -/
def mirrored : List Label → FakeConsole → FakeConsole
  | [], console => console
  | .writeBytes bytes :: rest, console => mirrored rest (console.writeBytes bytes)
  | _ :: rest, console => mirrored rest console

def FakeConsole.new : FakeConsole := ⟨[]⟩

def Label.panics : Label → Bool
  | .panic _ => true
  | _ => false

def Label.calls : Label → Bool
  | .writeBytes _ | .panic _ => true
  | _ => false

theorem mirrored_calls (path : List Label) (console : FakeConsole) :
    mirrored (path.filter Label.calls) console = mirrored path console := by
  induction path generalizing console with
  | nil => rfl
  | cons label rest ih => cases label <;> exact ih _

def State.handedOver (state : State) : List UInt8 := state.device.sent ++ state.device.fifo

theorem pieces_captured (pieces : List String) (console : FakeConsole) :
    (mirrored (pieces.map writeStr) console).captured =
      console.captured ++ (pieces.flatMap fun piece => piece.toByteArray.data.toList) := by
  induction pieces generalizing console with
  | nil => simp [mirrored]
  | cons piece rest ih =>
      rw [List.map_cons, List.flatMap_cons, ← List.append_assoc]
      exact ih (console.writeBytes piece.toByteArray.data.toList)

section Runs

variable {uart : Pl011Uart} {depth : Nat} {start after : State}
  {trace : List (Transition State Label)}

theorem asked_captured (sofar : List UInt8)
    (calm : ∀ taken ∈ trace, taken.label.panics = false) :
    asked State.outlet Label.move sofar trace = (mirrored (labels trace) ⟨sofar⟩).captured := by
  induction trace generalizing sofar with
  | nil => rfl
  | cons taken rest ih =>
      have others := ih (asks taken.before.outlet sofar taken.label.move)
        fun other member => calm other (List.mem_cons_of_mem taken member)
      have here := calm taken List.mem_cons_self
      rcases taken with ⟨before, label, middle⟩
      cases label with
      | panic bytes => cases here
      | writeBytes bytes => exact others
      | read value => exact others
      | write => exact others
      | send => exact others

theorem panic_output {front back : List (Transition State Label)}
    {panicked : Transition State Label} {text : List UInt8}
    (run : Run (ConsoleStep uart depth) fresh (front ++ panicked :: back) after)
    (panics : panicked.label = .panic text) (calm : ∀ taken ∈ back, taken.label.panics = false) :
    after.handedOver ++ after.call.bytes =
      (mirrored (labels back) ⟨panicked.before.handedOver ++ text⟩).captured := by
  rcases run_at run with ⟨early, step⟩
  rcases run_split run with ⟨middle, _, late⟩
  rcases run_cons late with ⟨same, _, rest⟩
  have cut : panicked.after = { panicked.before with call := writeBytes text } := by
    simp only [ConsoleStep, panics, next, Option.some.injEq] at step
    exact step.symm
  have sound := (run_sound embeds (fresh_sound depth) early).kept (step_moves step)
  have out := run_output embeds sound rest
  rw [asked_captured _ calm, cut] at out
  exact out

/-- The bytes come out in the order of the calls, none lost and none twice. A panic takes
nothing back that was handed over, and its own text comes out whole. -/
theorem uart_writes_in_order (run : Run (ConsoleStep uart depth) fresh trace after) :
    (∀ taken ∈ trace, taken.label = .write → taken.before.device.fifo.length < depth) ∧
      ((∀ taken ∈ trace, taken.label.panics = false) →
        after.handedOver ++ after.call.bytes = (mirrored (labels trace) .new).captured) ∧
      (∀ front panicked back text, trace = front ++ panicked :: back →
        panicked.label = .panic text → (∀ taken ∈ back, taken.label.panics = false) →
        after.handedOver ++ after.call.bytes =
          (mirrored (labels back) ⟨panicked.before.handedOver ++ text⟩).captured) := by
  refine ⟨?_, ?_, ?_⟩
  · intro taken member writes
    rcases run_member run member with ⟨front, early, step, _⟩
    have sound := run_sound embeds (fresh_sound depth) early
    have moved := step_moves step
    rw [writes] at moved
    exact (sound.room moved.was_ready).1
  · intro calm
    have out := run_output embeds (fresh_sound depth) run
    rw [asked_captured _ calm] at out
    exact out
  · intro front panicked back text split panics calm
    subst split
    exact panic_output run panics calm

end Runs

def virtUart : Pl011Uart := ⟨0x09000000⟩

def twoBytes : List Label :=
  [.writeBytes [0x6F, 0x6B], .read 0, .write, .read uartfrTxff, .send, .read 0, .write]

theorem uart_writes_two_bytes : ∃ trace after,
    labels trace = twoBytes ∧ Run (ConsoleStep virtUart 1) fresh trace after ∧
      after.handedOver ++ after.call.bytes = (mirrored (labels trace) .new).captured := by
  obtain ⟨last, followed⟩ : ∃ last, follow (next virtUart 1) fresh twoBytes = some last :=
    Option.isSome_iff_exists.mp (by decide)
  obtain ⟨trace, run, same⟩ := run_of_follow followed
  have calm : ∀ label ∈ twoBytes, label.panics = false := by decide
  refine ⟨trace, last, same, run, (uart_writes_in_order run).2.1 fun taken member => ?_⟩
  apply calm
  rw [← same]
  exact List.mem_map_of_mem member

/-! ## How long a call takes -/

def waits (depth : Nat) (state : State) : Label → Bool
  | .read _ => decide (depth ≤ state.device.fifo.length)
  | _ => false

section Runs

variable {uart : Pl011Uart} {depth : Nat} {start after : State}
  {early trace : List (Transition State Label)}

theorem calls_move (label : Label) : label.move.asking = label.calls := by
  cases label <;> rfl

theorem waits_move (state : State) (label : Label) :
    idles depth state.outlet label.move = waits depth state label := by
  cases label <;> rfl

theorem flags_clear {state : State} (room : state.device.fifo.length < depth) :
    state.device.answers uart.base depth (uart.base + uartfr) 0 = true := by
  have notFull : ¬ depth ≤ state.device.fifo.length := Nat.not_le.mpr room
  simp [Transmitter.answers, notFull]

theorem never_stuck (sized : 0 < depth) (state : State) :
    (uart.access state.call = none ∧ state.device.fifo = []) ∨
      ∃ label later, label.calls = false ∧ waits depth state label = false ∧
        ConsoleStep uart depth state label later := by
  cases queued : state.device.fifo with
  | cons byte rest =>
      right
      exact ⟨.send, { state with device := ⟨rest, state.device.sent ++ [byte]⟩ }, rfl, rfl, by
        simp only [ConsoleStep, next, queued]⟩
  | nil =>
      have room : state.device.fifo.length < depth := by simpa [queued] using sized
      cases waiting : uart.access state.call with
      | none =>
          left
          exact ⟨rfl, rfl⟩
      | some access =>
          right
          cases access with
          | readVolatile address =>
              have place := (access_read waiting).1
              subst place
              refine ⟨.read 0, { state with call := state.call.hasRead 0 }, rfl, ?_, ?_⟩
              · simpa [waits] using room
              · simp only [ConsoleStep, next, waiting, flags_clear room, if_true]
          | writeVolatile address value =>
              have place := (access_write waiting).1
              subst place
              refine ⟨.write, ⟨state.call.hasWritten,
                { state.device with fifo := store depth state.device.fifo value.toUInt8 }⟩,
              rfl, rfl, ?_⟩
              simp only [ConsoleStep, next, waiting, Transmitter.accepts, if_true, Option.map_some]

/-- A call comes back, and its bytes are sent, after a bounded number of steps that are not
waiting, and such a step can always be made. -/
theorem uart_write_finishes (sized : 0 < depth)
    (reached : Run (ConsoleStep uart depth) fresh early start)
    (run : Run (ConsoleStep uart depth) start trace after)
    (quiet : ∀ taken ∈ trace, taken.label.calls = false) :
    trace.countP (fun taken => !waits depth taken.before taken.label) ≤
        3 * start.call.bytes.length + start.device.fifo.length ∧
      ((uart.access after.call = none ∧ after.device.fifo = []) ∨
        ∃ label later, label.calls = false ∧ waits depth after label = false ∧
          ConsoleStep uart depth after label later) := by
  constructor
  · have sound := run_sound embeds (fresh_sound depth) reached
    have total := run_remaining embeds sound run fun taken member => by
      rw [calls_move]
      exact quiet taken member
    simp only [waits_move] at total
    have most : start.outlet.remaining ≤
        3 * start.call.bytes.length + start.device.fifo.length := Nat.sub_le _ _
    omega
  · exact never_stuck sized after

end Runs

theorem uart_write_finishes_one_byte : ∃ later trace after,
    labels trace = [.read 0] ∧
      Run (ConsoleStep virtUart 16) ⟨writeBytes [0x6B], ⟨[], []⟩⟩ trace after ∧
      trace.countP (fun taken => !waits 16 taken.before taken.label) ≤ 3 * 1 + 0 ∧
      ConsoleStep virtUart 16 after .write later := by
  have reached : Run (ConsoleStep virtUart 16) fresh
      [⟨fresh, .writeBytes [0x6B], ⟨writeBytes [0x6B], ⟨[], []⟩⟩⟩] ⟨writeBytes [0x6B], ⟨[], []⟩⟩ :=
    run_single (by decide)
  have run : Run (ConsoleStep virtUart 16) ⟨writeBytes [0x6B], ⟨[], []⟩⟩
      [⟨⟨writeBytes [0x6B], ⟨[], []⟩⟩, .read 0, ⟨⟨[0x6B], false⟩, ⟨[], []⟩⟩⟩]
      ⟨⟨[0x6B], false⟩, ⟨[], []⟩⟩ := run_single (by decide)
  exact ⟨⟨⟨[], true⟩, ⟨[0x6B], []⟩⟩, _, _, rfl, run,
    (uart_write_finishes (by decide) reached run (by simp [Label.calls])).1, by decide⟩

end Tyrne.Console
