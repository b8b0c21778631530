import LinuxDriverFramework.RegDemo.Body

/-! # `nv_spi_demo`

The register is written with a transfer of two bytes, command and value. -/

namespace LinuxDriverFramework.NvSpi
open RegDemo
set_option autoImplicit false

/-- `nv_spi_write` from a buffer that is not NULL. -/
def spiWrite (dev : Option BusDev) (buf : List UInt8) : Code Ret :=
  if !dev.any BusDev.bus || buf.isEmpty then return .error .EINVAL
  else call (.bus (.spiWrite buf))

def demoSend : Send := fun dev reg => spiWrite dev [0x00, reg]

def regShow : Option BusDev → Code (Except Errno String) := regShowBody

def regStore : Option BusDev → List UInt8 → ℕ → Code (Except Errno ℕ) := regStoreBody demoSend

def demoProbe : BusDev → Code (BusDev × Ret) := demoProbeBody demoSend

end LinuxDriverFramework.NvSpi
