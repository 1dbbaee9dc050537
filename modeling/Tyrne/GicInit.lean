import Tyrne.Gic

/-!
# Initialising the interrupt controller

The register writes of `init`, for every number of lines the controller can have, and what
they make of the lines.
-/

namespace Tyrne.Gic

open Tyrne.Lib.Effect
open Tyrne.Lib.Overwrite
open Tyrne.Lib.Saturating

set_option autoImplicit false

/-! ## The writes -/

/-- The number of words of enable bits that `GICD_TYPER` announces. -/
def wordCount (typer : Word) : Nat := typer.toNat % 32 + 1

theorem word_count_bounds (typer : Word) : 1 ≤ wordCount typer ∧ wordCount typer ≤ 32 := by
  unfold wordCount
  omega

theorem irq_count_value (typer : Word) :
    (QemuVirtGic.irqCountOf typer).toNat = 32 * wordCount typer := by
  have field : ((typer &&& 0x1F).setWidth 64 : Usize).toNat = typer.toNat % 32 := by
    have low : typer.toNat &&& 31 = typer.toNat % 32 := Nat.and_two_pow_sub_one_eq_mod _ 5
    rw [BitVec.toNat_setWidth, BitVec.toNat_and]
    change (typer.toNat &&& 31) % 2 ^ 64 = _
    omega
  have words : (saturatingAdd ((typer &&& 0x1F).setWidth 64) (1 : Usize)).toNat =
      min (typer.toNat % 32 + 1) (2 ^ 64 - 1) := by
    rw [saturating_add_value, field]
    rfl
  rw [QemuVirtGic.irqCountOf, saturating_mul_value, words]
  change min (_ * 32) _ = _
  unfold wordCount
  omega

def bankWrites (bank : Bank) (value : Word) (first count : Nat) : List RegisterWrite :=
  (List.range' first count).map fun word => ⟨⟨bank, word⟩, value⟩

theorem bank_writes_succ (bank : Bank) (value : Word) (first count : Nat) :
    bankWrites bank value first (count + 1) =
      [⟨⟨bank, first⟩, value⟩] ++ bankWrites bank value (first + 1) count := by
  rw [bankWrites, List.range'_succ, List.map_cons, bankWrites]
  rfl

section Loops

variable {gic : QemuVirtGic} {irqCount : Usize} {words : Nat}

/-- By induction on the words left: each of them is written once, in order. -/
theorem disable_spis_run (count : irqCount.toNat = 32 * words) (small : words ≤ 32)
    (left : Nat) (n : Usize) (bus : Bus) (reached : n.toNat + left = words) :
    gic.disableSpis irqCount n bus =
      .ok () (bus.performAll (bankWrites .gicdIcenabler 0xFFFFFFFF n.toNat left)) := by
  have product (n : Usize) (bound : n.toNat ≤ words) : (saturatingMul n 32).toNat = n.toNat * 32 :=
    saturating_mul_exact (show n.toNat * 32 < 2 ^ 64 by omega)
  induction left generalizing n bus with
  | zero =>
      have done : ¬ saturatingMul n 32 < irqCount := by
        rw [BitVec.lt_def, product n (by omega)]
        omega
      rw [QemuVirtGic.disableSpis, if_neg done]
      exact congrArg _ bus.perform_all_nil.symm
  | succ left ih =>
      have next : (saturatingAdd n 1).toNat = n.toNat + 1 :=
        saturating_add_exact (show n.toNat + 1 < 2 ^ 64 by omega)
      have more : saturatingMul n 32 < irqCount := by
        rw [BitVec.lt_def, product n (by omega)]
        omega
      have inside : Register.Inside ⟨.gicdIcenabler, n.toNat⟩ :=
        show n.toNat < 32 by omega
      have offset := QemuVirtGic.word_offset (show gicdIcenablerBase.toNat = _ from rfl) inside
      rw [QemuVirtGic.disableSpis, if_pos more, bind_run,
        QemuVirtGic.write_distributor_run inside rfl offset, and_then_ok, ih _ _ (by omega),
        Bus.perform_all_append, bank_writes_succ, next]

/-- By induction on the words left, of four bytes each. -/
theorem fill_bytes_run {bank : Bank} {bankBase : Usize} (here : bank.window = .distributor)
    (wide : bank.words = 256) (start : bankBase.toNat = bank.first)
    (count : irqCount.toNat = 32 * words) (small : words ≤ 32) (value : Word)
    (left : Nat) (byteIdx : Usize) (bus : Bus) (first : Nat) (aligned : byteIdx.toNat = 4 * first)
    (reached : first + left = 8 * words) :
    gic.fillBytes bankBase value irqCount byteIdx bus =
      .ok () (bus.performAll (bankWrites bank value first left)) := by
  induction left generalizing byteIdx bus first with
  | zero =>
      have done : ¬ byteIdx < irqCount := by
        rw [BitVec.lt_def]
        omega
      rw [QemuVirtGic.fillBytes, if_neg done]
      exact congrArg _ bus.perform_all_nil.symm
  | succ left ih =>
      have next : (saturatingAdd byteIdx 4).toNat = byteIdx.toNat + 4 :=
        saturating_add_exact (show byteIdx.toNat + 4 < 2 ^ 64 by omega)
      have more : byteIdx < irqCount := by
        rw [BitVec.lt_def]
        omega
      have inside : Register.Inside ⟨bank, first⟩ :=
        show first < bank.words by omega
      have bound := Register.offset_bound inside
      have offset : (saturatingAdd bankBase byteIdx).toNat = Register.offset ⟨bank, first⟩ := by
        rw [Register.offset, ← start, ← aligned] at bound ⊢
        exact saturating_add_exact (by omega)
      rw [QemuVirtGic.fillBytes, if_pos more, bind_run,
        QemuVirtGic.write_distributor_run inside here offset, and_then_ok,
        ih _ _ (first + 1) (by omega) (by omega), Bus.perform_all_append, bank_writes_succ]

def initWrites (words : Nat) : List RegisterWrite :=
  [⟨⟨.gicdCtlr, 0⟩, 0⟩] ++ (bankWrites .gicdIcenabler 0xFFFFFFFF 1 (words - 1) ++
    (bankWrites .gicdIpriorityr (QemuVirtGic.replicated 0xA0) 8 (8 * (words - 1)) ++
    (bankWrites .gicdItargetsr (QemuVirtGic.replicated 0x01) 8 (8 * (words - 1)) ++
    ([⟨⟨.gicdCtlr, 0⟩, 1⟩] ++ ([⟨⟨.giccPmr, 0⟩, 0xFF⟩] ++ [⟨⟨.giccCtlr, 0⟩, 1⟩])))))

theorem init_run (gic : QemuVirtGic) (bus : Bus) :
    gic.init bus = .ok () (bus.performAll (initWrites (wordCount bus.device.gicdTyper))) := by
  have count := irq_count_value bus.device.gicdTyper
  rcases word_count_bounds bus.device.gicdTyper with ⟨one, small⟩
  generalize wordCount bus.device.gicdTyper = words at count one small ⊢
  have ctlr (value : Word) (bus : Bus) : gic.writeDistributor gicdCtlr value bus = _ :=
    QemuVirtGic.write_distributor_run (show Register.Inside ⟨.gicdCtlr, 0⟩ by decide) rfl rfl _ _
  have typer : (bus.performAll [⟨⟨.gicdCtlr, 0⟩, 0⟩]).device.gicdTyper =
      bus.device.gicdTyper := rfl
  have disabled (bus : Bus) := @disable_spis_run gic _ words count small (words - 1) 1 bus
    (show 1 + (words - 1) = words by omega)
  have priorities (bus : Bus) : gic.setPriorities _ bus = _ :=
    @fill_bytes_run gic _ words .gicdIpriorityr _ rfl rfl rfl count small _ (8 * (words - 1))
      firstSpi bus 8 rfl (by omega)
  have targets (bus : Bus) : gic.setTargets _ bus = _ :=
    @fill_bytes_run gic _ words .gicdItargetsr _ rfl rfl rfl count small _ (8 * (words - 1))
      firstSpi bus 8 rfl (by omega)
  have pmr (bus : Bus) : gic.writeCpuInterface giccPmr 0xFF bus = _ :=
    QemuVirtGic.write_cpu_interface_run (show Register.Inside ⟨.giccPmr, 0⟩ by decide) rfl rfl _ _
  have interface (bus : Bus) : gic.writeCpuInterface giccCtlr 1 bus = _ :=
    QemuVirtGic.write_cpu_interface_run (show Register.Inside ⟨.giccCtlr, 0⟩ by decide) rfl rfl _ _
  simp only [QemuVirtGic.init, bind_run, ctlr, and_then_ok, QemuVirtGic.read_typer_run, typer,
    disabled, priorities, targets, pmr, interface, Bus.perform_all_append, initWrites,
    List.append_assoc]
  rfl

end Loops

/-! ## What the writes make of the lines -/

section Effects

variable {Cells : Type} {bank : Bank} {value : Word}

theorem bank_performed (put : Cells → Gicv2) {change : Nat → Cells → Cells}
    (each : ∀ cells word, (put cells).perform ⟨⟨bank, word⟩, value⟩ = put (change word cells))
    (first count : Nat) (cells : Cells) :
    (put cells).performAll (bankWrites bank value first count) =
      put ((List.range' first count).foldl (fun cells word => change word cells) cells) := by
  rw [Gicv2.performAll, bankWrites, List.foldl_map]
  exact List.foldl_hom put each

theorem all_bits_cleared (bit : Nat) (inside : bit < 32) (old : Bool) :
    (old && !(0xFFFFFFFF : Word).getLsbD bit) = false := by
  have ones : (0xFFFFFFFF : Word) = BitVec.allOnes 32 := by decide
  rw [ones, BitVec.getLsbD_allOnes, decide_eq_true inside, Bool.not_true, Bool.and_false]

theorem priority_bytes :
    ∀ lane < 4, (QemuVirtGic.replicated 0xA0).extractLsb' (8 * lane) 8 = 0xA0 := by decide

theorem target_bytes :
    ∀ lane < 4, (QemuVirtGic.replicated 0x01).extractLsb' (8 * lane) 8 = 0x01 := by decide

variable (device : Gicv2) (first count : Nat)

theorem lines_disabled :
    device.performAll (bankWrites .gicdIcenabler 0xFFFFFFFF first count) =
      { device with
        enabled := fill false (32 * first) (32 * (first + count)) device.enabled } := by
  rw [← groups_filled (by decide) all_bits_cleared]
  exact bank_performed (fun enabled => { device with enabled := enabled }) (fun _ _ => rfl)
    first count device.enabled

theorem priorities_set :
    device.performAll (bankWrites .gicdIpriorityr (QemuVirtGic.replicated 0xA0) first count) =
      { device with
        priority := fill 0xA0 (4 * first) (4 * (first + count)) device.priority } := by
  rw [← groups_filled (by decide) fun lane inside _ => priority_bytes lane inside]
  exact bank_performed (fun priority => { device with priority := priority }) (fun _ _ => rfl)
    first count device.priority

theorem targets_set :
    device.performAll (bankWrites .gicdItargetsr (QemuVirtGic.replicated 0x01) first count) =
      { device with target := fill 0x01 (4 * first) (4 * (first + count)) device.target } := by
  rw [← groups_filled (by decide) fun lane inside _ => target_bytes lane inside]
  exact bank_performed (fun target => { device with target := target }) (fun _ _ => rfl)
    first count device.target

end Effects

theorem init_effect (device : Gicv2) {words : Nat} (one : 1 ≤ words) :
    device.performAll (initWrites words) =
      { device with
        gicdCtlr := 1
        enabled := fill false 32 (32 * words) device.enabled
        priority := fill 0xA0 32 (32 * words) device.priority
        target := fill 0x01 32 (32 * words) device.target
        giccCtlr := 1
        giccPmr := 0xFF } := by
  have last : 32 * (1 + (words - 1)) = 32 * words := by omega
  have lastByte : 4 * (8 + 8 * (words - 1)) = 32 * words := by omega
  have append (device : Gicv2) (first second : List RegisterWrite) :
      device.performAll (first ++ second) = (device.performAll first).performAll second :=
    List.foldl_append
  simp only [initWrites, append, lines_disabled, priorities_set, targets_set, last, lastByte]
  rfl

end Tyrne.Gic
