/-!
# Px4Firmware.Drivers.I2cBus

The I2C bus, as its drivers see it (`device/i2c.cpp`, and the drivers that call `I2C_TRANSFER`
themselves). A transfer that fails is tried again a number of times; which attempts succeed, and
what the device answers, is left to the bus.

`Bus.received` is what a driver gets that makes one transfer after the other until one fails.
-/

namespace Px4Firmware.Drivers

/-- The bytes that are received in a transfer, as many as are asked for. -/
abbrev Bytes := Nat → UInt8

/-- A bus: what each attempt of a transfer is answered with, nothing if it fails, and how many
attempts have been made. -/
structure Bus where
  answers : Nat → Option Bytes
  attempts : Nat

namespace Bus

/-- `I2C_TRANSFER`. -/
def i2cTransfer (bus : Bus) : Option Bytes × Bus :=
  (bus.answers bus.attempts, { bus with attempts := bus.attempts + 1 })

/-- A transfer, which is tried again this many times. `I2C::transfer` does so `_retries` times. -/
def transfer : Nat → Bus → Option Bytes × Bus
  | 0, bus => bus.i2cTransfer
  | retries + 1, bus =>
      match bus.i2cTransfer with
      | (some bytes, bus) => (some bytes, bus)
      | (none, bus) => bus.transfer retries

/-- What is received in transfers one after the other, up to the first that fails. -/
def received (retries : Nat) : Nat → Bus → List Bytes
  | 0, _ => []
  | count + 1, bus =>
      match bus.transfer retries with
      | (some bytes, bus) => bytes :: bus.received retries count
      | (none, _) => []

variable {retries count : Nat} {bus bus' : Bus} {bytes : Bytes}

theorem received_of_some (h : bus.transfer retries = (some bytes, bus')) :
    bus.received retries (count + 1) = bytes :: bus'.received retries count := by
  rw [received, h]

theorem received_of_none (h : bus.transfer retries = (none, bus')) :
    bus.received retries (count + 1) = [] := by
  rw [received, h]

theorem length_received_le (retries count : Nat) (bus : Bus) :
    (bus.received retries count).length ≤ count := by
  induction count generalizing bus with
  | zero => exact Nat.le_refl 0
  | succ count ih =>
      match h : bus.transfer retries with
      | (some bytes, bus') =>
          rw [received_of_some h, List.length_cons]
          exact Nat.succ_le_succ (ih bus')
      | (none, bus') =>
          rw [received_of_none h]
          exact Nat.zero_le _

/-- Fewer transfers bring the same, as far as they go. -/
theorem length_received_of_le {count' : Nat} (h : count' ≤ count) :
    (bus.received retries count').length = min count' (bus.received retries count).length := by
  induction count' generalizing count bus with
  | zero => rw [Nat.zero_min]; rfl
  | succ count' ih =>
      obtain ⟨rest, rfl⟩ : ∃ rest, count = rest + 1 := ⟨count - 1, by omega⟩
      match htransfer : bus.transfer retries with
      | (some bytes, bus') =>
          rw [received_of_some htransfer, received_of_some htransfer, List.length_cons,
            List.length_cons, ih (Nat.le_of_succ_le_succ h), Nat.add_min_add_right]
      | (none, bus') =>
          rw [received_of_none htransfer, received_of_none htransfer]
          exact (Nat.min_zero _).symm

end Bus

end Px4Firmware.Drivers
