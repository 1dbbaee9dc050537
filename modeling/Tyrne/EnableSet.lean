import Tyrne.GicInit

/-!
# The set of enabled lines

What `init` and any sequence of `enable` and `disable` calls after it make of the enable
bits: each call sets or clears the one line it names.
-/

namespace Tyrne.Gic

open Tyrne.Lib.Effect
open Tyrne.Lib.Overwrite
open Tyrne.Lib.Runs
open Tyrne.Lib.Saturating
open Tyrne.Deadline (IrqNumber gicMaxIrq)
open Tyrne.Timer (Panic)

set_option autoImplicit false

/-! ## The calls -/

inductive Call where
  | enable (irq : IrqNumber)
  | disable (irq : IrqNumber)
  deriving DecidableEq, Repr

namespace Call

def irq : Call → IrqNumber
  | enable irq | disable irq => irq

def line (call : Call) : Nat := call.irq.toNat

/-- The enable bit the call leaves. -/
def turnsOn : Call → Bool
  | enable _ => true
  | disable _ => false

def bank : Call → Bank
  | enable _ => .gicdIsenabler
  | disable _ => .gicdIcenabler

def run (gic : QemuVirtGic) : Call → Driver Unit
  | enable irq => gic.enable irq
  | disable irq => gic.disable irq

def write (call : Call) : RegisterWrite :=
  ⟨⟨call.bank, call.line / 32⟩, BitVec.twoPow 32 (call.line % 32)⟩

end Call

def CallStep (gic : QemuVirtGic) (before : Bus) (call : Call) (after : Bus) : Prop :=
  call.run gic before = .ok () after

section Calls

variable {gic : QemuVirtGic} {before after : Bus} {call : Call}

theorem write_line_run {name : String} {bank : Bank} {bankBase : Usize} {irq : IrqNumber}
    (here : bank.window = .distributor) (wide : bank.words = 32)
    (start : bankBase.toNat = bank.first) (valid : irq < gicMaxIrq) (bus : Bus) :
    gic.writeLine name bankBase irq bus =
      .ok () (bus.performAll [⟨⟨bank, irq.toNat / 32⟩, BitVec.twoPow 32 (irq.toNat % 32)⟩]) := by
  have bound : irq.toNat < 1020 := UInt32.lt_iff_toNat_lt.mp valid
  have number : (irq.toBitVec.setWidth 64 : Usize).toNat = irq.toNat := by
    rw [BitVec.toNat_setWidth]
    exact Nat.mod_eq_of_lt (show irq.toNat < 2 ^ 64 by omega)
  have word : ((irq.toBitVec.setWidth 64 : Usize) / 32).toNat = irq.toNat / 32 := by
    rw [BitVec.toNat_udiv, number]
    rfl
  have inside : Register.Inside ⟨bank, ((irq.toBitVec.setWidth 64 : Usize) / 32).toNat⟩ :=
    show ((irq.toBitVec.setWidth 64 : Usize) / 32).toNat < bank.words by omega
  have lane : (((irq.toBitVec.setWidth 64 : Usize) % 32).setWidth 32 : Word).toNat =
      irq.toNat % 32 := by
    rw [BitVec.toNat_setWidth, BitVec.toNat_umod, number]
    change irq.toNat % 32 % 2 ^ 32 = _
    omega
  have bit : (1 : Word) <<< (((irq.toBitVec.setWidth 64 : Usize) % 32).setWidth 32 : Word) =
      BitVec.twoPow 32 (irq.toNat % 32) := by
    rw [BitVec.shiftLeft_eq', lane]
    rfl
  have offset := QemuVirtGic.word_offset start inside
  rw [QemuVirtGic.writeLine, if_pos valid, bit, ← word]
  exact QemuVirtGic.write_distributor_run inside here offset _ bus

theorem Call.run_valid (valid : call.irq < gicMaxIrq) (bus : Bus) :
    call.run gic bus = .ok () (bus.performAll [call.write]) := by
  cases call with
  | enable irq => exact write_line_run rfl rfl rfl valid bus
  | disable irq => exact write_line_run rfl rfl rfl valid bus

theorem write_line_invalid {irq : IrqNumber} (invalid : ¬ irq < gicMaxIrq) (name : String)
    (bankBase : Usize) (bus : Bus) :
    gic.writeLine name bankBase irq bus = .fault (.panic (QemuVirtGic.outOfRange name irq)) := by
  rw [QemuVirtGic.writeLine, if_neg invalid]
  rfl

theorem Call.write_inside (valid : call.irq < gicMaxIrq) : call.write.register.Inside := by
  have bound : call.line < 1020 := UInt32.lt_iff_toNat_lt.mp valid
  have words : call.bank.words = 32 := by cases call <;> rfl
  show call.line / 32 < call.bank.words
  omega

theorem lane_bit (line lane : Nat) :
    (BitVec.twoPow 32 (line % 32)).getLsbD lane = decide (line % 32 = lane) := by
  rw [BitVec.getLsbD_twoPow, decide_eq_true (Nat.mod_lt line (by decide)), Bool.true_and]

theorem Call.effect (call : Call) (device : Gicv2) :
    device.perform call.write =
      { device with enabled := Function.update device.enabled call.line call.turnsOn } := by
  cases call with
  | enable irq =>
      have updated : setBits (irq.toNat / 32) (BitVec.twoPow 32 (irq.toNat % 32)) device.enabled =
          Function.update device.enabled irq.toNat true := by
        apply group_updated
        · rw [lane_bit, decide_eq_true rfl, Bool.or_true]
        · intro lane other old
          rw [lane_bit, decide_eq_false (Ne.symm other), Bool.or_false]
      exact congrArg (fun enabled => { device with enabled := enabled }) updated
  | disable irq =>
      have updated : clearBits (irq.toNat / 32) (BitVec.twoPow 32 (irq.toNat % 32))
          device.enabled = Function.update device.enabled irq.toNat false := by
        apply group_updated
        · rw [lane_bit, decide_eq_true rfl, Bool.not_true, Bool.and_false]
        · intro lane other old
          rw [lane_bit, decide_eq_false (Ne.symm other), Bool.not_false, Bool.and_true]
      exact congrArg (fun enabled => { device with enabled := enabled }) updated

theorem call_returns (valid : call.irq < gicMaxIrq) (before : Bus) :
    CallStep gic before call (before.performAll [call.write]) :=
  Call.run_valid valid before

theorem CallStep.wrote (step : CallStep gic before call after) :
    call.irq < gicMaxIrq ∧ after = before.performAll [call.write] := by
  by_cases valid : call.irq < gicMaxIrq
  · have ran := (Call.run_valid valid before).symm.trans step
    injection ran with _ same
    exact ⟨valid, same.symm⟩
  · cases call with
    | enable irq => cases (write_line_invalid valid _ _ before).symm.trans step
    | disable irq => cases (write_line_invalid valid _ _ before).symm.trans step

theorem CallStep.device (step : CallStep gic before call after) :
    after.device =
      { before.device with
        enabled := Function.update before.device.enabled call.line call.turnsOn } := by
  rw [step.wrote.2]
  exact call.effect before.device

def Names (line : Nat) (taken : Transition Bus Call) : Prop := taken.label.line = line

/-- The last call for a line decides, and where there was none nothing changed. -/
theorem enabled_after_run {start : Bus} {trace : List (Transition Bus Call)}
    (run : Run (CallStep gic) start trace after) (line : Nat) :
    after.device.enabled line = true ↔
      (∃ taken irq, Latest (Names line) trace taken ∧ taken.label = .enable irq) ∨
        ((∀ taken ∈ trace, ¬ Names line taken) ∧ start.device.enabled line = true) := by
  have written : ∀ before call after, CallStep gic before call after →
      after.device.enabled =
        Function.update before.device.enabled call.line call.turnsOn := by
    intro before call after step
    rw [step.device]
  have turned : ∀ call : Call, call.turnsOn = true ↔ ∃ irq, call = .enable irq := by
    intro call
    cases call <;> simp [Call.turnsOn]
  rcases run_last_write (fun bus => bus.device.enabled) written run line with
    ⟨taken, latest, held⟩ | ⟨untouched, held⟩
  · constructor
    · intro on
      obtain ⟨irq, enabled⟩ := (turned _).mp (held.symm.trans on)
      exact .inl ⟨taken, irq, latest, enabled⟩
    · rintro (⟨other, irq, otherLatest, enabled⟩ | ⟨noneNamed, _⟩)
      · have same : taken = other := latest.unique otherLatest
        subst same
        exact held.trans ((turned _).mpr ⟨irq, enabled⟩)
      · exact absurd latest.member.2 (noneNamed taken latest.member.1)
  · constructor
    · intro on
      exact .inr ⟨untouched, held.symm.trans on⟩
    · rintro (⟨taken, irq, latest, _⟩ | ⟨_, on⟩)
      · exact absurd latest.member.2 (untouched taken latest.member.1)
      · exact held.trans on

end Calls

/-! ## The laws of the driver -/

/-- What `init` makes of the lines, and how it gets there. -/
structure Initialised (before ready : Bus) : Prop where
  count : (QemuVirtGic.irqCountOf before.device.gicdTyper).toNat =
    32 * (before.device.gicdTyper.toNat % 32 + 1)
  shared : ∀ line, 32 ≤ line →
    line < (QemuVirtGic.irqCountOf before.device.gicdTyper).toNat →
    ready.device.enabled line = false ∧ ready.device.priority line = 0xA0 ∧
      ready.device.target line = 0x01
  others : ∀ line,
    line < 32 ∨ (QemuVirtGic.irqCountOf before.device.gicdTyper).toNat ≤ line →
    ready.device.enabled line = before.device.enabled line ∧
      ready.device.priority line = before.device.priority line ∧
      ready.device.target line = before.device.target line
  on : ready.device.gicdCtlr = 1 ∧ ready.device.giccCtlr = 1 ∧ ready.device.giccPmr = 0xFF
  writes : ready.writes = before.writes ++ initWrites (wordCount before.device.gicdTyper)
  banked : ∀ write ∈ initWrites (wordCount before.device.gicdTyper), write.register.Inside

/-- What the calls do, from any state of the controller. -/
structure CallLaws (gic : QemuVirtGic) : Prop where
  returns : ∀ before (call : Call), call.irq < gicMaxIrq → ∃ after, CallStep gic before call after
  alone : ∀ before call after, CallStep gic before call after →
    (∀ line ≠ call.line, after.device.enabled line = before.device.enabled line) ∧
      after.device.priority = before.device.priority ∧
      after.device.target = before.device.target
  banked : ∀ before call after, CallStep gic before call after →
    after.writes = before.writes ++ [call.write] ∧ call.write.register.Inside
  idempotent : ∀ before call once twice, CallStep gic before call once →
    CallStep gic once call twice → twice.device = once.device
  commute : ∀ (start : Bus) (left right : Call) (middle after other final : Bus),
    left.line ≠ right.line → CallStep gic start left middle → CallStep gic middle right after →
    CallStep gic start right other → CallStep gic other left final → final.device = after.device

theorem bank_writes_inside {bank : Bank} {value : Word} {first count : Nat}
    (fits : first + count ≤ bank.words) {write : RegisterWrite}
    (member : write ∈ bankWrites bank value first count) : write.register.Inside := by
  rcases List.mem_map.mp member with ⟨index, indexMember, rfl⟩
  have bound := List.mem_range'_1.mp indexMember
  show index < bank.words
  omega

theorem init_writes_inside {words : Nat} (one : 1 ≤ words) (small : words ≤ 32)
    {write : RegisterWrite} (member : write ∈ initWrites words) : write.register.Inside := by
  simp only [initWrites, List.mem_append, List.mem_singleton] at member
  rcases member with rfl | disabled | priorities | targets | rfl | rfl | rfl
  · decide
  · exact bank_writes_inside (show 1 + (words - 1) ≤ 32 by omega) disabled
  · exact bank_writes_inside (show 8 + 8 * (words - 1) ≤ 256 by omega) priorities
  · exact bank_writes_inside (show 8 + 8 * (words - 1) ≤ 256 by omega) targets
  · decide
  · decide
  · decide

theorem init_initialises (gic : QemuVirtGic) (bus : Bus) :
    ∃ ready, gic.init bus = .ok () ready ∧ Initialised bus ready := by
  rcases word_count_bounds bus.device.gicdTyper with ⟨one, small⟩
  have count := irq_count_value bus.device.gicdTyper
  have effect := init_effect bus.device one
  refine ⟨_, init_run gic bus, count, ?_, ?_, ?_, rfl, fun _ => init_writes_inside one small⟩
  · intro line lower upper
    rw [count] at upper
    rw [Bus.performAll, effect]
    exact ⟨fill_inside lower upper, fill_inside lower upper, fill_inside lower upper⟩
  · intro line outside
    rw [count] at outside
    rw [Bus.performAll, effect]
    exact ⟨fill_outside outside, fill_outside outside, fill_outside outside⟩
  · rw [Bus.performAll, effect]
    exact ⟨rfl, rfl, rfl⟩

theorem call_laws (gic : QemuVirtGic) : CallLaws gic where
  returns before _ valid := ⟨_, call_returns valid before⟩
  alone := by
    intro before call after step
    rw [step.device]
    exact ⟨fun line other => Function.update_of_ne other _ _, rfl, rfl⟩
  banked := by
    intro before call after step
    rcases step.wrote with ⟨valid, rfl⟩
    exact ⟨rfl, call.write_inside valid⟩
  idempotent := by
    intro before call once twice first second
    rw [second.device, first.device, Function.update_idem]
  commute := by
    intro start left right middle after other final different first second third fourth
    rw [second.device, first.device, fourth.device, third.device]
    exact congrArg (fun enabled => { start.device with enabled := enabled })
      (Function.update_comm different _ _ _).symm

/-- The lines that are on are those `init` left on and the calls since then turned on. -/
theorem enable_set_exact (gic : QemuVirtGic) (bus : Bus) :
    ∃ ready, gic.init bus = .ok () ready ∧ Initialised bus ready ∧
      (∀ calls : List Call, (∀ call ∈ calls, call.irq < gicMaxIrq) →
        ∃ trace after, Run (CallStep gic) ready trace after ∧ labels trace = calls) ∧
      (∀ trace after, Run (CallStep gic) ready trace after → ∀ line,
        (after.device.enabled line = true ↔
          (∃ taken irq, Latest (Names line) trace taken ∧ taken.label = .enable irq) ∨
            ((∀ taken ∈ trace, ¬ Names line taken) ∧ ready.device.enabled line = true))) ∧
      CallLaws gic := by
  obtain ⟨ready, ran, initialised⟩ := init_initialises gic bus
  refine ⟨ready, ran, initialised, ?_, ?_, call_laws gic⟩
  · intro calls allowed
    have enabled : ∀ (before : Bus) (call : Call), True → call.irq < gicMaxIrq →
        ∃ after, CallStep gic before call after ∧ True :=
      fun before _ _ valid => ⟨_, call_returns valid before, trivial⟩
    exact run_of_labels enabled trivial calls allowed
  · intro trace after run line
    exact enabled_after_run run line

/-! ## The words of the timer model -/

section TimerModel

open Tyrne.Deadline (Registers Write)

/-- What a write of the timer model is to the controller: nothing, unless it is to a word of
enable bits. -/
def controllerWrite : Write → List RegisterWrite
  | .gicdIsenabler word bits => [⟨⟨.gicdIsenabler, word⟩, bits⟩]
  | .gicdIcenabler word bits => [⟨⟨.gicdIcenabler, word⟩, bits⟩]
  | _ => []

def Shows (device : Gicv2) (registers : Registers) : Prop :=
  ∀ line, (registers.gicdIsenabler (line / 32)).getLsbD (line % 32) = device.enabled line

def Call.timerModel : Call → Except Panic Write
  | .enable irq => Tyrne.Deadline.QemuVirtGic.enable irq
  | .disable irq => Tyrne.Deadline.QemuVirtGic.disable irq

variable {device : Gicv2} {registers : Registers}

theorem shows_performed (shows : Shows device registers) (write : Write) :
    Shows (device.performAll (controllerWrite write)) (write.perform registers) := by
  intro line
  cases write with
  | gicdIsenabler word bits =>
      change (Function.update registers.gicdIsenabler word
        (registers.gicdIsenabler word ||| bits) (line / 32)).getLsbD (line % 32) =
          setBits word bits device.enabled line
      by_cases here : line / 32 = word
      · subst word
        rw [Function.update_self, BitVec.getLsbD_or, shows, setBits, onGroup, if_pos rfl]
      · rw [Function.update_of_ne here, shows, setBits, onGroup, if_neg here]
  | gicdIcenabler word bits =>
      have lane : line % 32 < 32 := Nat.mod_lt _ (by decide)
      change (Function.update registers.gicdIsenabler word
        (registers.gicdIsenabler word &&& ~~~bits) (line / 32)).getLsbD (line % 32) =
          clearBits word bits device.enabled line
      by_cases here : line / 32 = word
      · subst word
        rw [Function.update_self, BitVec.getLsbD_and, shows, BitVec.getLsbD_not,
          decide_eq_true lane, Bool.true_and, clearBits, onGroup, if_pos rfl]
      · rw [Function.update_of_ne here, shows, clearBits, onGroup, if_neg here]
  | cntvCval value => exact shows line
  | cntvCtl value => exact shows line
  | giccEoir irq => exact shows line

theorem Call.run_of_timer_model (gic : QemuVirtGic) (call : Call) (bus : Bus) :
    call.run gic bus =
      match call.timerModel with
      | .ok write => .ok () (bus.performAll (controllerWrite write))
      | .error panic => .fault (.panic panic) := by
  cases call with
  | enable irq =>
      by_cases valid : irq < gicMaxIrq
      · rw [timerModel, Tyrne.Deadline.QemuVirtGic.enable, if_pos valid]
        exact write_line_run rfl rfl rfl valid bus
      · rw [timerModel, Tyrne.Deadline.QemuVirtGic.enable, if_neg valid]
        exact write_line_invalid valid "enable" gicdIsenablerBase bus
  | disable irq =>
      by_cases valid : irq < gicMaxIrq
      · rw [timerModel, Tyrne.Deadline.QemuVirtGic.disable, if_pos valid]
        exact write_line_run rfl rfl rfl valid bus
      · rw [timerModel, Tyrne.Deadline.QemuVirtGic.disable, if_neg valid]
        exact write_line_invalid valid "disable" gicdIcenablerBase bus

theorem CallStep.timer_model {gic : QemuVirtGic} {before after : Bus} {call : Call}
    (step : CallStep gic before call after) :
    ∃ write, call.timerModel = .ok write ∧
      after.device = before.device.performAll (controllerWrite write) := by
  have ran := call.run_of_timer_model gic before
  cases account : call.timerModel with
  | ok write =>
      rw [account] at ran
      injection step.symm.trans ran with _ same
      exact ⟨write, rfl, congrArg Bus.device same⟩
  | error panic =>
      rw [account] at ran
      cases step.symm.trans ran

theorem shows_after_run {gic : QemuVirtGic} {start after : Bus}
    {trace : List (Transition Bus Call)} (run : Run (CallStep gic) start trace after)
    (shows : Shows start.device registers) :
    ∃ writes, (labels trace).mapM Call.timerModel = .ok writes ∧
      Shows after.device (writes.foldl Write.perform registers) := by
  induction run with
  | nil => exact ⟨[], rfl, shows⟩
  | @snoc trace middle after call earlier step ih =>
      obtain ⟨writes, accounts, shown⟩ := ih
      obtain ⟨write, account, same⟩ := step.timer_model
      refine ⟨writes ++ [write], ?_, ?_⟩
      · have last : labels (trace ++ [⟨middle, call, after⟩]) = labels trace ++ [call] := by
          simp [labels]
        rw [last, List.mapM_append, accounts]
        simp only [List.mapM_cons, List.mapM_nil, account]
        rfl
      · rw [List.foldl_append, same]
        exact shows_performed shown write

theorem timer_model_follows {gic : QemuVirtGic} {start after : Bus}
    {trace : List (Transition Bus Call)} (run : Run (CallStep gic) start trace after)
    (shows : Shows start.device registers) :
    ∃ writes, (labels trace).mapM Call.timerModel = .ok writes ∧
      ∀ irq : IrqNumber, (writes.foldl Write.perform registers).irqEnabled irq ↔
        after.device.enabled irq.toNat = true := by
  obtain ⟨writes, accounts, shown⟩ := shows_after_run run shows
  refine ⟨writes, accounts, ?_⟩
  intro irq
  rw [Registers.irqEnabled, shown]

end TimerModel

end Tyrne.Gic
