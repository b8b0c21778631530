import LinuxDriverFramework.NvI2c.Binding
import LinuxDriverFramework.NvPci.Binding
import LinuxDriverFramework.NvSdio.Binding
import LinuxDriverFramework.NvSpi.Binding
import LinuxDriverFramework.NvUsb.Binding

/-! # The contexts behind the bus devices

`nv_pci`, `nv_usb`, `nv_spi`, `nv_i2c` and `nv_sdio` each let a bus device refer to a context while
it is bound. `nv_i2c` and `nv_sdio` take the pointer back whenever they refuse or release a device.
`nv_pci` leaves it on both exits after the allocation, `nv_usb` and `nv_spi` on the one between the
allocation and `ops->probe`. -/

namespace LinuxDriverFramework.BoundContexts
open Foundations Foundations.Binding LinuxDriverFramework.Binding
set_option autoImplicit false

/-- No unbound device refers to a context in any of the five, exactly when no attempt leaves through
`nv_pci_enable` or `ops->probe` of `nv_pci`, `nv_usb_select_altsetting` or `nv_spi_setup`. -/
theorem contexts_dropped_iff
    (pdev : NvPci.binding.Unbound)
    (pciEvents : List (Event (Attempt NvPci.Context NvPci.ProbeOutcomes) (Removal NvPci.Context)))
    (intf : NvUsb.binding.Unbound)
    (usbEvents : List (Event (Attempt NvUsb.Context (Option Errno)) (Removal NvUsb.Context)))
    (spi : NvSpi.binding.Unbound)
    (spiEvents : List (Event (Attempt NvSpi.NvSpiDev NvSpi.SetupOutcome) (Removal NvSpi.NvSpiDev)))
    (client : NvI2c.binding.Unbound)
    (i2cEvents : List (Event (Attempt NvI2c.NvI2cDev Unit) (Removal NvI2c.NvI2cDev)))
    (func : NvSdio.binding.Unbound) (sdioEvents : List (Event NvSdio.Attempt NvSdio.Removal)) :
    (Throughout NvPci.binding.step NvPci.binding.Cleared pdev.start pciEvents ∧
      Throughout NvUsb.binding.step NvUsb.binding.Cleared intf.start usbEvents ∧
      Throughout NvSpi.binding.step NvSpi.binding.Cleared spi.start spiEvents ∧
      Throughout NvI2c.binding.step NvI2c.binding.Cleared client.start i2cEvents ∧
      Throughout NvSdio.binding.step NvSdio.binding.Cleared func.start sdioEvents) ↔
    Along NvPci.binding.step (Spares NvPci.leaks) pdev.start pciEvents ∧
      Along NvUsb.binding.step (Spares NvUsb.leaks) intf.start usbEvents ∧
      Along NvSpi.binding.step (Spares NvSpi.leaks) spi.start spiEvents := by
  have hpci := cleared_throughout_iff NvPci.leaks_exactly pdev pciEvents
  have husb := cleared_throughout_iff NvUsb.leaks_exactly intf usbEvents
  have hspi := cleared_throughout_iff NvSpi.leaks_exactly spi spiEvents
  constructor
  · rintro ⟨hp, hu, hs, -, -⟩
    exact ⟨hpci.mp hp, husb.mp hu, hspi.mp hs⟩
  · rintro ⟨hp, hu, hs⟩
    exact ⟨hpci.mpr hp, husb.mpr hu, hspi.mpr hs, cleared_throughout NvI2c.leaks_never client i2cEvents,
      cleared_throughout NvSdio.leaks_never func sdioEvents⟩

/-! ## Three attempts that leave the pointer -/

def demoDriver : BusDriver := ⟨"nv_demo", some ⟨true, true⟩, 0⟩

def pciRefused : Attempt NvPci.Context NvPci.ProbeOutcomes where
  fromId := none
  fromDev := some demoDriver
  kzalloc := true
  outcomes := ⟨1, none, none⟩
  opsProbe := id
  opsResult := .error .ENOENT

/-- Setting 1 is current and the request for setting 0 fails. -/
def usbInterface : NvUsb.UsbInterface := ⟨[⟨0, []⟩, ⟨1, []⟩], ⟨1, []⟩, by decide⟩

def usbRefused : Attempt NvUsb.Context (Option Errno) where
  fromId := none
  fromDev := some demoDriver
  kzalloc := true
  outcomes := some (.kernel 32)
  opsProbe := id
  opsResult := .ok ()

def spiRefused : Attempt NvSpi.NvSpiDev NvSpi.SetupOutcome where
  fromId := none
  fromDev := some demoDriver
  kzalloc := true
  outcomes := ⟨.error .EINVAL, ⟨0, 0, 8⟩⟩
  opsProbe := id
  opsResult := .ok ()

theorem contexts_left_behind :
    ¬ Throughout NvPci.binding.step NvPci.binding.Cleared ⟨⟨0, none, false⟩, false⟩
      [.bind pciRefused] ∧
    ¬ Throughout NvUsb.binding.step NvUsb.binding.Cleared ⟨⟨usbInterface, 0, none, false⟩, false⟩
      [.bind usbRefused] ∧
    ¬ Throughout NvSpi.binding.step NvSpi.binding.Cleared
      ⟨⟨0, 0, 0, ⟨0, 0, 8⟩, none⟩, false⟩ [.bind spiRefused] := by
  refine ⟨fun h => ?_, fun h => ?_, fun h => ?_⟩
  · exact Bool.noConfusion (h.2 _ rfl rfl)
  · exact Bool.noConfusion (h.2 _ rfl rfl)
  · exact Bool.noConfusion (h.2 _ rfl rfl)

end LinuxDriverFramework.BoundContexts
