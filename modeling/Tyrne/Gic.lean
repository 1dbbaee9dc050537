import Tyrne.Deadline
import Tyrne.Lib.Effect
import Tyrne.Lib.Overwrite
import Tyrne.Lib.Saturating

/-!
# The interrupt controller

`QemuVirtGic` of `bsp-qemu-virt/src/gic.rs`: `init`, `enable` and `disable`, on a bus with
the registers of a GICv2.
-/

namespace Tyrne.Gic

open Tyrne.Lib.Effect
open Tyrne.Lib.Overwrite
open Tyrne.Lib.Saturating
open Tyrne.Deadline (IrqNumber gicMaxIrq)
open Tyrne.Timer (Panic)

set_option autoImplicit false

abbrev Usize : Type := BitVec 64

abbrev Word : Type := BitVec 32

/-! ## Registers -/

inductive Window where
  | distributor
  | cpuInterface
  deriving DecidableEq, Repr

/-- Words of one register each, and arrays with one bit or one byte for each line. -/
inductive Bank where
  | gicdCtlr
  | gicdTyper
  | gicdIsenabler
  | gicdIcenabler
  | gicdIpriorityr
  | gicdItargetsr
  | giccCtlr
  | giccPmr
  deriving DecidableEq, Repr

namespace Bank

def window : Bank → Window
  | giccCtlr | giccPmr => .cpuInterface
  | _ => .distributor

def first : Bank → Nat
  | gicdCtlr | giccCtlr => 0x000
  | gicdTyper | giccPmr => 0x004
  | gicdIsenabler => 0x100
  | gicdIcenabler => 0x180
  | gicdIpriorityr => 0x400
  | gicdItargetsr => 0x800

def words : Bank → Nat
  | gicdIsenabler | gicdIcenabler => 32
  | gicdIpriorityr | gicdItargetsr => 256
  | _ => 1

def Covers (bank : Bank) (window : Window) (offset : Nat) : Prop :=
  bank.window = window ∧ bank.first ≤ offset ∧ offset < bank.first + 4 * bank.words

instance (bank : Bank) (window : Window) (offset : Nat) : Decidable (bank.Covers window offset) :=
  inferInstanceAs (Decidable (_ ∧ _ ∧ _))

def all : List Bank :=
  [gicdCtlr, gicdTyper, gicdIsenabler, gicdIcenabler, gicdIpriorityr, gicdItargetsr, giccCtlr,
    giccPmr]

theorem mem_all (bank : Bank) : bank ∈ all := by cases bank <;> decide

/-- No two banks overlap. -/
theorem covers_unique {left right : Bank} {window : Window} {offset : Nat}
    (leftCovers : left.Covers window offset) (rightCovers : right.Covers window offset) :
    left = right := by
  rcases leftCovers with ⟨leftWindow, leftLower, leftUpper⟩
  rcases rightCovers with ⟨rightWindow, rightLower, rightUpper⟩
  have windows := leftWindow.trans rightWindow.symm
  cases left <;> cases right <;> first
    | rfl
    | (simp only [first, words] at leftLower leftUpper rightLower rightUpper; omega)
    | cases windows

end Bank

/-- The word `index` of a bank. -/
structure Register where
  bank : Bank
  index : Nat
  deriving DecidableEq, Repr

namespace Register

def Inside (register : Register) : Prop := register.index < register.bank.words

instance (register : Register) : Decidable register.Inside :=
  inferInstanceAs (Decidable (_ < _))

def offset (register : Register) : Nat := register.bank.first + 4 * register.index

/-- The register at an offset of a window. -/
def at? (window : Window) (offset : Nat) : Option Register :=
  if offset % 4 = 0 then
    (Bank.all.find? fun bank => bank.Covers window offset).map fun bank =>
      ⟨bank, (offset - bank.first) / 4⟩
  else none

theorem at_iff {window : Window} {offset : Nat} {register : Register} :
    at? window offset = some register ↔
      register.Inside ∧ register.bank.window = window ∧ register.offset = offset := by
  constructor
  · intro found
    unfold at? at found
    split at found
    · next aligned =>
        rcases Option.map_eq_some_iff.mp found with ⟨bank, search, rfl⟩
        rcases of_decide_eq_true (List.find?_some search :) with ⟨window, lower, upper⟩
        have start : bank.first % 4 = 0 := by cases bank <;> rfl
        refine ⟨?_, window, ?_⟩
        · show (offset - bank.first) / 4 < bank.words
          omega
        · show bank.first + 4 * ((offset - bank.first) / 4) = offset
          omega
    · cases found
  · rintro ⟨inside, here, same⟩
    rcases register with ⟨bank, index⟩
    have bound : index < bank.words := inside
    have start : bank.first % 4 = 0 := by cases bank <;> rfl
    change bank.first + 4 * index = offset at same
    have covers : bank.Covers window offset := ⟨here, by omega, by omega⟩
    have found : (Bank.all.find? fun other => other.Covers window offset) = some bank := by
      cases search : Bank.all.find? fun other => other.Covers window offset with
      | none =>
          have missed := List.find?_eq_none.mp search bank bank.mem_all
          exact absurd (decide_eq_true covers) missed
      | some other =>
          have otherCovers : other.Covers _ _ := of_decide_eq_true (List.find?_some search :)
          rw [Bank.covers_unique otherCovers covers]
    have place : (offset - bank.first) / 4 = index := by omega
    rw [at?, if_pos (by omega), found, Option.map_some, place]

theorem offset_bound {register : Register} (inside : register.Inside) :
    register.offset < 0x1000 := by
  rcases register with ⟨bank, index⟩
  have bound : index < bank.words := inside
  cases bank <;> simp only [offset, Bank.first, Bank.words] at bound ⊢ <;> omega

end Register

structure RegisterWrite where
  register : Register
  value : Word
  deriving DecidableEq, Repr

/-! ## The controller -/

/-- The state of a GICv2 that software can set: the enable bits, priorities and targets of
the lines, and the words that hold one register. -/
structure Gicv2 where
  gicdCtlr : Word
  gicdTyper : Word
  enabled : Nat → Bool
  priority : Nat → BitVec 8
  target : Nat → BitVec 8
  giccCtlr : Word
  giccPmr : Word

/-- A one in a word of `ISENABLER` sets the enable bit of its line and a zero leaves it. -/
def setBits (word : Nat) (bits : Word) (enabled : Nat → Bool) : Nat → Bool :=
  onGroup 32 word (fun bit old => old || bits.getLsbD bit) enabled

/-- A one in a word of `ICENABLER` clears the enable bit of its line and a zero leaves it. -/
def clearBits (word : Nat) (bits : Word) (enabled : Nat → Bool) : Nat → Bool :=
  onGroup 32 word (fun bit old => old && !bits.getLsbD bit) enabled

def storeBytes (word : Nat) (value : Word) (bytes : Nat → BitVec 8) : Nat → BitVec 8 :=
  onGroup 4 word (fun byte _ => value.extractLsb' (8 * byte) 8) bytes

def Gicv2.perform (device : Gicv2) (write : RegisterWrite) : Gicv2 :=
  match write.register.bank with
  | .gicdCtlr => { device with gicdCtlr := write.value }
  | .gicdTyper => device
  | .gicdIsenabler =>
      { device with enabled := setBits write.register.index write.value device.enabled }
  | .gicdIcenabler =>
      { device with enabled := clearBits write.register.index write.value device.enabled }
  | .gicdIpriorityr =>
      { device with priority := storeBytes write.register.index write.value device.priority }
  | .gicdItargetsr =>
      { device with target := storeBytes write.register.index write.value device.target }
  | .giccCtlr => { device with giccCtlr := write.value }
  | .giccPmr => { device with giccPmr := write.value }

/-- The words that hold one register can be read. -/
def Gicv2.load (device : Gicv2) (register : Register) : Option Word :=
  match register.bank with
  | .gicdCtlr => some device.gicdCtlr
  | .gicdTyper => some device.gicdTyper
  | .giccCtlr => some device.giccCtlr
  | .giccPmr => some device.giccPmr
  | _ => none

def Gicv2.performAll (device : Gicv2) (writes : List RegisterWrite) : Gicv2 :=
  writes.foldl Gicv2.perform device

/-- The controller, and the writes that have reached a register of it. -/
structure Bus where
  device : Gicv2
  writes : List RegisterWrite

def Bus.performAll (bus : Bus) (writes : List RegisterWrite) : Bus where
  device := bus.device.performAll writes
  writes := bus.writes ++ writes

theorem Bus.perform_all_nil (bus : Bus) : bus.performAll [] = bus := by
  simp only [performAll, Gicv2.performAll, List.foldl_nil, List.append_nil]

theorem Bus.perform_all_append (bus : Bus) (first second : List RegisterWrite) :
    (bus.performAll first).performAll second = bus.performAll (first ++ second) := by
  simp only [performAll, Gicv2.performAll, List.foldl_append, List.append_assoc]

/-! ## The driver -/

def qemuVirtGicDistributorBase : Usize := 0x08000000

def qemuVirtGicCpuInterfaceBase : Usize := 0x08010000

def gicdCtlr : Usize := 0x000

def gicdTyper : Usize := 0x004

def gicdIsenablerBase : Usize := 0x100

def gicdIcenablerBase : Usize := 0x180

def gicdIpriorityrBase : Usize := 0x400

def gicdItargetsrBase : Usize := 0x800

def giccCtlr : Usize := 0x000

def giccPmr : Usize := 0x004

def firstSpi : Usize := 32

def defaultPriorityByte : Word := 0xA0

def targetCpu0Byte : Word := 0x01

inductive GicFault where
  | panic (reason : Panic)
  | busError (address : Usize)
  deriving DecidableEq, Repr

abbrev Driver (Value : Type) : Type := Eff GicFault Bus Empty Value

/-- The contract of `new`: the bases are those of the two pages of a controller. -/
structure QemuVirtGic where
  distributorBase : Usize
  cpuInterfaceBase : Usize
  distributorPage : distributorBase.toNat % 0x1000 = 0
  cpuInterfacePage : cpuInterfaceBase.toNat % 0x1000 = 0
  apart : distributorBase ≠ cpuInterfaceBase

/-- The controller of the board. -/
instance : Inhabited QemuVirtGic where
  default :=
    { distributorBase := qemuVirtGicDistributorBase
      cpuInterfaceBase := qemuVirtGicCpuInterfaceBase
      distributorPage := by decide
      cpuInterfacePage := by decide
      apart := by decide }

namespace QemuVirtGic

variable (gic : QemuVirtGic)

def base : Window → Usize
  | .distributor => gic.distributorBase
  | .cpuInterface => gic.cpuInterfaceBase

/-- The register at an address. -/
def decode (address : Usize) : Option Register :=
  if address.toNat / 0x1000 = (gic.base .distributor).toNat / 0x1000 then
    Register.at? .distributor (address.toNat % 0x1000)
  else if address.toNat / 0x1000 = (gic.base .cpuInterface).toNat / 0x1000 then
    Register.at? .cpuInterface (address.toNat % 0x1000)
  else none

def readVolatile (address : Usize) : Driver Word := do
  let bus ← read
  match (gic.decode address).bind bus.device.load with
  | some value => pure value
  | none => abort (.busError address)

def writeVolatile (address : Usize) (value : Word) : Driver Unit := do
  let bus ← read
  match gic.decode address with
  | some register => write (bus.performAll [⟨register, value⟩])
  | none => abort (.busError address)

def readDistributor (offset : Usize) : Driver Word :=
  gic.readVolatile (saturatingAdd gic.distributorBase offset)

def writeDistributor (offset : Usize) (value : Word) : Driver Unit :=
  gic.writeVolatile (saturatingAdd gic.distributorBase offset) value

def writeCpuInterface (offset : Usize) (value : Word) : Driver Unit :=
  gic.writeVolatile (saturatingAdd gic.cpuInterfaceBase offset) value

/-- The number of lines, from `GICD_TYPER`. -/
def irqCountOf (typer : Word) : Usize :=
  saturatingMul (saturatingAdd ((typer &&& 0x1F).setWidth 64) 1) 32

def replicated (byte : Word) : Word :=
  byte ||| (byte <<< 8) ||| (byte <<< 16) ||| (byte <<< 24)

/-- Step 3 of `init`, from word `n` on. -/
def disableSpis (irqCount n : Usize) : Driver Unit :=
  if saturatingMul n 32 < irqCount then do
    gic.writeDistributor (saturatingAdd gicdIcenablerBase (saturatingMul n 4)) 0xFFFFFFFF
    disableSpis irqCount (saturatingAdd n 1)
  else pure ()
  termination_by irqCount.toNat - n.toNat
  decreasing_by
    rename_i more
    have product : _ = min (n.toNat * 32) (2 ^ 64 - 1) := saturating_mul_value n 32
    have next : _ = min (n.toNat + 1) (2 ^ 64 - 1) := saturating_add_value n 1
    have bound := BitVec.lt_def.mp more
    omega

/-- Steps 4 and 5 of `init`, from line `byteIdx` on. -/
def fillBytes (bankBase : Usize) (word : Word) (irqCount byteIdx : Usize) : Driver Unit :=
  if byteIdx < irqCount then do
    gic.writeDistributor (saturatingAdd bankBase byteIdx) word
    fillBytes bankBase word irqCount (saturatingAdd byteIdx 4)
  else pure ()
  termination_by irqCount.toNat - byteIdx.toNat
  decreasing_by
    rename_i more
    have next : _ = min (byteIdx.toNat + 4) (2 ^ 64 - 1) := saturating_add_value byteIdx 4
    have bound := BitVec.lt_def.mp more
    omega

def setPriorities (irqCount : Usize) : Driver Unit :=
  gic.fillBytes gicdIpriorityrBase (replicated defaultPriorityByte) irqCount firstSpi

def setTargets (irqCount : Usize) : Driver Unit :=
  gic.fillBytes gicdItargetsrBase (replicated targetCpu0Byte) irqCount firstSpi

def init : Driver Unit := do
  gic.writeDistributor gicdCtlr 0
  let typer ← gic.readDistributor gicdTyper
  let irqCount := irqCountOf typer
  gic.disableSpis irqCount 1
  gic.setPriorities irqCount
  gic.setTargets irqCount
  gic.writeDistributor gicdCtlr 1
  gic.writeCpuInterface giccPmr 0xFF
  gic.writeCpuInterface giccCtlr 1

def outOfRange (name : String) (irq : IrqNumber) : Panic :=
  .assertion s!"QemuVirtGic::{name}: irq.0 = {irq} exceeds GICv2 architectural max {gicMaxIrq}"

/-- `enable` and `disable` differ in the bank they write to. -/
def writeLine (name : String) (bankBase : Usize) (irq : IrqNumber) : Driver Unit :=
  if irq < gicMaxIrq then
    let n : Usize := irq.toBitVec.setWidth 64
    let regOffset := saturatingAdd bankBase (saturatingMul (n / 32) 4)
    let bit := (1 : Word) <<< ((n % 32).setWidth 32 : Word)
    gic.writeDistributor regOffset bit
  else
    abort (.panic (outOfRange name irq))

def enable (irq : IrqNumber) : Driver Unit := gic.writeLine "enable" gicdIsenablerBase irq

def disable (irq : IrqNumber) : Driver Unit := gic.writeLine "disable" gicdIcenablerBase irq

/-! ## What an access does -/

variable {gic}

theorem base_page (window : Window) : (gic.base window).toNat % 0x1000 = 0 := by
  cases window with
  | distributor => exact gic.distributorPage
  | cpuInterface => exact gic.cpuInterfacePage

/-- An address is decoded to the register that lies there, and only to one in its bank. -/
theorem decode_iff {address : Usize} {register : Register} :
    gic.decode address = some register ↔
      register.Inside ∧
        address.toNat = (gic.base register.bank.window).toNat + register.offset := by
  have distributorPage := @base_page gic .distributor
  have cpuInterfacePage := @base_page gic .cpuInterface
  constructor
  · intro decoded
    unfold decode at decoded
    split at decoded
    · next page =>
        rcases Register.at_iff.mp decoded with ⟨inside, here, same⟩
        refine ⟨inside, ?_⟩
        rw [here]
        omega
    · split at decoded
      · next page =>
          rcases Register.at_iff.mp decoded with ⟨inside, here, same⟩
          refine ⟨inside, ?_⟩
          rw [here]
          omega
      · cases decoded
  · rintro ⟨inside, same⟩
    have bound := Register.offset_bound inside
    cases here : register.bank.window with
    | distributor =>
        rw [here] at same
        rw [decode, if_pos (by omega)]
        exact Register.at_iff.mpr ⟨inside, here, by omega⟩
    | cpuInterface =>
        rw [here] at same
        have other : address.toNat / 0x1000 ≠ (gic.base .distributor).toNat / 0x1000 := by
          intro clash
          have values : (gic.base .distributor).toNat = (gic.base .cpuInterface).toNat := by omega
          exact gic.apart (BitVec.eq_of_toNat_eq values)
        rw [decode, if_neg other, if_pos (by omega)]
        exact Register.at_iff.mpr ⟨inside, here, by omega⟩

theorem decode_register {window : Window} {register : Register} {offset : Usize}
    (inside : register.Inside) (here : register.bank.window = window)
    (same : offset.toNat = register.offset) :
    gic.decode (saturatingAdd (gic.base window) offset) = some register := by
  have page := @base_page gic window
  have room := (gic.base window).isLt
  have bound := Register.offset_bound inside
  refine decode_iff.mpr ⟨inside, ?_⟩
  rw [here, ← same]
  exact saturating_add_exact (by omega)

theorem word_offset {bank : Bank} {bankBase word : Usize} (start : bankBase.toNat = bank.first)
    (inside : Register.Inside ⟨bank, word.toNat⟩) :
    (saturatingAdd bankBase (saturatingMul word 4)).toNat =
      Register.offset ⟨bank, word.toNat⟩ := by
  have bound : bank.first + 4 * word.toNat < 0x1000 := Register.offset_bound inside
  have scaled : (saturatingMul word 4).toNat = word.toNat * 4 :=
    saturating_mul_exact (show word.toNat * 4 < 2 ^ 64 by omega)
  rw [saturating_add_exact (by omega), start, scaled, Nat.mul_comm, Register.offset]

theorem write_volatile_run {address : Usize} {register : Register}
    (decoded : gic.decode address = some register) (value : Word) (bus : Bus) :
    gic.writeVolatile address value bus = .ok () (bus.performAll [⟨register, value⟩]) := by
  simp only [writeVolatile, bind_run, read_run, and_then_ok, decoded, write_run]

theorem write_distributor_run {register : Register} {offset : Usize} (inside : register.Inside)
    (here : register.bank.window = .distributor) (same : offset.toNat = register.offset)
    (value : Word) (bus : Bus) :
    gic.writeDistributor offset value bus = .ok () (bus.performAll [⟨register, value⟩]) :=
  write_volatile_run (decode_register inside here same) value bus

theorem write_cpu_interface_run {register : Register} {offset : Usize}
    (inside : register.Inside) (here : register.bank.window = .cpuInterface)
    (same : offset.toNat = register.offset) (value : Word) (bus : Bus) :
    gic.writeCpuInterface offset value bus = .ok () (bus.performAll [⟨register, value⟩]) :=
  write_volatile_run (decode_register inside here same) value bus

theorem read_typer_run (bus : Bus) :
    gic.readDistributor gicdTyper bus = .ok bus.device.gicdTyper bus := by
  have inside : Register.Inside ⟨.gicdTyper, 0⟩ := by decide
  have decoded : gic.decode (saturatingAdd (gic.base .distributor) gicdTyper) =
      some ⟨.gicdTyper, 0⟩ :=
    decode_register inside rfl rfl
  change gic.decode (saturatingAdd gic.distributorBase gicdTyper) = _ at decoded
  simp only [readDistributor, readVolatile, bind_run, read_run, and_then_ok, decoded,
    Option.bind_some, Gicv2.load, pure_run]

end QemuVirtGic

end Tyrne.Gic
