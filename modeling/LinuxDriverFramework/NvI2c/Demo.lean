import LinuxDriverFramework.RegDemo.Body

/-! # `nv_i2c_demo`

The register is written with an SMBus "write byte data" message. -/

namespace LinuxDriverFramework.NvI2c
open RegDemo
set_option autoImplicit false

/-- `NV_I2C_DEMO_REG`. -/
def demoReg : UInt8 := 0x00

/-- `nv_i2c_smbus_write_byte_data`. -/
def smbusWriteByteData (dev : Option BusDev) (command value : UInt8) : Code Ret :=
  if !dev.any BusDev.bus then return .error .EINVAL
  else call (.bus (.smbusWriteByteData command value))

def demoSend : Send := fun dev reg => smbusWriteByteData dev demoReg reg

def regShow : Option BusDev → Code (Except Errno String) := regShowBody

def regStore : Option BusDev → List UInt8 → ℕ → Code (Except Errno ℕ) := regStoreBody demoSend

def demoProbe : BusDev → Code (BusDev × Ret) := demoProbeBody demoSend

end LinuxDriverFramework.NvI2c
