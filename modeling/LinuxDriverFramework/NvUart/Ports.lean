import LinuxDriverFramework.Foundations.SlotDirectory
import LinuxDriverFramework.Kernel.Base
import Mathlib.Tactic.Simps.Basic

/-! # `nv_uart`: drivers and their ports

`nv_uart_driver_register`, `nv_uart_driver_unregister`, `nv_uart_port_add` and
`nv_uart_port_remove` of `nv_uart.c`, over what the uart core does with its table of ports.

* `UartDriver`, `UartPort`: the core's own structures inside the framework's.
* `NvUartDriver`, `NvUartPort`: the structures of `nv_uart.h`.
* `Call`, `step`, `init`: runs over any number of drivers and ports. -/

namespace LinuxDriverFramework.NvUart
open Foundations
set_option autoImplicit false

/-- `struct uart_driver`; `state` is NULL or the core's table, with a port or NULL in each slot. -/
structure UartDriver where
  owner : Option ℕ
  driverName : Option String
  devName : Option String
  nr : ℕ
  major : ℕ
  minor : ℕ
  state : Option (ℕ → Option ℕ)

structure NvUartDriver where
  name : Option String
  owner : Option ℕ
  devName : Option String
  nrPorts : ℤ
  uartDrv : UartDriver
  registered : Bool

/-- The members of `struct uart_port` that `nv_uart_port_add` sets; `ops` tells whether they are
`nv_uart_core_ops`. -/
structure UartPort where
  ops : Bool
  type : ℕ
  iotype : ℕ
  line : ℕ
  uartclk : ℕ
  fifosize : ℕ
  flags : ℕ
  deriving DecidableEq

structure NvUartPort where
  port : UartPort
  driver : Option ℕ
  uartclk : ℕ
  fifosize : ℕ
  line : ℤ
  added : Bool

/-- Calls into the uart core. A removal records the driver that the port was added to, and whether
the driver it is made for has a table with a slot for the port's line. -/
inductive KCall
  | registerDriver (d : ℕ)
  | unregisterDriver (d : ℕ)
  | addOnePort (d p : ℕ)
  | removeOnePort (d p : ℕ) (owner : Option ℕ) (live : Bool)
  deriving DecidableEq, Repr

structure World where
  drv : ℕ → NvUartDriver
  port : ℕ → NvUartPort
  calls : List KCall

@[simps] def World.modDrv (w : World) (d : ℕ) (f : NvUartDriver → NvUartDriver) : World :=
  { w with drv := Function.update w.drv d (f (w.drv d)) }

@[simps] def World.modPort (w : World) (p : ℕ) (f : NvUartPort → NvUartPort) : World :=
  { w with port := Function.update w.port p (f (w.port p)) }

@[simps] def World.log (w : World) (c : KCall) : World := { w with calls := c :: w.calls }

/-! ## The uart core -/

/-- `drv->state` of driver `d`. -/
def World.setState (w : World) (d : ℕ) (t : Option (ℕ → Option ℕ)) : World :=
  w.modDrv d fun drv => { drv with uartDrv := { drv.uartDrv with state := t } }

@[simp] theorem setState_port (w : World) (d : ℕ) (t : Option (ℕ → Option ℕ)) :
    (w.setState d t).port = w.port := rfl

@[simp] theorem setState_calls (w : World) (d : ℕ) (t : Option (ℕ → Option ℕ)) :
    (w.setState d t).calls = w.calls := rfl

def uartRegisterDriver (w : World) (d : ℕ) (fails : Option Errno) : Except Errno World :=
  match fails with
  | some e => .error e
  | none => .ok ((w.setState d (some fun _ => none)).log (.registerDriver d))

def uartUnregisterDriver (w : World) (d : ℕ) : World :=
  (w.setState d none).log (.unregisterDriver d)

/-- The line must be one of the driver's, and its slot free. -/
def uartAddOnePort (w : World) (d p : ℕ) (fails : Option Errno) : Except Errno World :=
  let line := (w.port p).port.line
  match (w.drv d).uartDrv.state, fails with
  | _, some e => .error e
  | none, none => .error .EINVAL   -- a registered driver has its table
  | some t, none =>
    if (w.drv d).uartDrv.nr ≤ line ∨ (t line).isSome then .error .EINVAL
    else .ok ((w.setState d (some (Function.update t line (some p)))).log (.addOnePort d p))

/-- Clears the slot of the port's line in the table of `d`, whatever port is in it. -/
def uartRemoveOnePort (w : World) (d p : ℕ) : World :=
  let line := (w.port p).port.line
  let drv := (w.drv d).uartDrv
  let w := w.log (.removeOnePort d p (w.port p).driver (drv.state.isSome && decide (line < drv.nr)))
  match drv.state with
  | some t => w.setState d (some (Function.update t line none))
  | none => w

/-! ## `nv_uart.c` -/

def portUnknown : ℕ := 0
def upioMem : ℕ := 2
/-- `UPF_BOOT_AUTOCONF | UPF_LOW_LATENCY` -/
def upfFlags : ℕ := 1 <<< 28 ||| 1 <<< 13

/-- The assignments before `uart_add_one_port`. -/
def NvUartPort.setUp (np : NvUartPort) (d : ℕ) (line : ℤ) : NvUartPort :=
  { np with
    port :=
      { ops := true
        type := portUnknown
        iotype := upioMem
        line := line.toNat
        uartclk := if np.uartclk ≠ 0 then np.uartclk else 1843200
        fifosize := if np.fifosize ≠ 0 then np.fifosize else 16
        flags := upfFlags }
    driver := some d
    line := line }

def portAdd (w : World) (drv np : Option ℕ) (line : ℤ) (fails : Option Errno) : World × Ret :=
  match drv, np with
  | some d, some p =>
    if (w.drv d).registered = false ∨ line < 0 ∨ (w.drv d).nrPorts ≤ line then (w, .error .EINVAL)
    else if (w.port p).added then (w, .error .EBUSY)
    else
      let w := w.modPort p fun np => np.setUp d line
      match uartAddOnePort w d p fails with
      | .error e => (w, .error e)
      | .ok w => (w.modPort p fun np => { np with added := true }, .ok ())
  | _, _ => (w, .error .EINVAL)

def portRemove (w : World) (drv np : Option ℕ) : World :=
  match drv, np with
  | some d, some p =>
    if (w.port p).added then
      (uartRemoveOnePort w d p).modPort p fun np => { np with added := false }
    else w
  | _, _ => w

/-- `!drv->name || !drv->owner || !drv->dev_name || drv->nr_ports < 1`. -/
def NvUartDriver.invalid (drv : NvUartDriver) : Bool :=
  drv.name.isNone || drv.owner.isNone || drv.devName.isNone || decide (drv.nrPorts < 1)

/-- The assignments before `uart_register_driver`. -/
def NvUartDriver.fillIn (drv : NvUartDriver) : NvUartDriver :=
  { drv with
    uartDrv :=
      { drv.uartDrv with
        owner := drv.owner
        driverName := drv.name
        devName := drv.devName
        nr := drv.nrPorts.toNat
        major := 0
        minor := 0 } }

def driverRegister (w : World) (drv : Option ℕ) (fails : Option Errno) : World × Ret :=
  match drv with
  | none => (w, .error .EINVAL)
  | some d =>
    if (w.drv d).invalid then (w, .error .EINVAL)
    else if (w.drv d).registered then (w, .error .EBUSY)
    else
      let w := w.modDrv d NvUartDriver.fillIn
      match uartRegisterDriver w d fails with
      | .error e => (w, .error e)
      | .ok w => (w.modDrv d fun drv => { drv with registered := true }, .ok ())

def driverUnregister (w : World) (drv : Option ℕ) : World :=
  match drv with
  | none => w
  | some d =>
    if (w.drv d).registered then
      (uartUnregisterDriver w d).modDrv d fun drv => { drv with registered := false }
    else w

/-! ## Runs -/

inductive Call
  | driverRegister (drv : Option ℕ) (fails : Option Errno)
  | driverUnregister (drv : Option ℕ)
  | portAdd (drv np : Option ℕ) (line : ℤ) (fails : Option Errno)
  | portRemove (drv np : Option ℕ)

def exec (w : World) : Call → World × Ret
  | .driverRegister drv fails => driverRegister w drv fails
  | .driverUnregister drv => (driverUnregister w drv, .ok ())
  | .portAdd drv np line fails => portAdd w drv np line fails
  | .portRemove drv np => (portRemove w drv np, .ok ())

def step (w : World) (c : Call) : Option World := some (exec w c).1

/-- What a module fills in before it registers a driver, and before it adds a port. -/
structure DriverConfig where
  name : Option String
  owner : Option ℕ
  devName : Option String
  nrPorts : ℤ

structure PortConfig where
  uartclk : ℕ
  fifosize : ℕ

def init (drivers : ℕ → DriverConfig) (ports : ℕ → PortConfig) : World where
  drv := fun d =>
    { name := (drivers d).name
      owner := (drivers d).owner
      devName := (drivers d).devName
      nrPorts := (drivers d).nrPorts
      uartDrv :=
        { owner := none, driverName := none, devName := none, nr := 0, major := 0, minor := 0,
          state := none }
      registered := false }
  port := fun p =>
    { port :=
        { ops := false, type := 0, iotype := 0, line := 0, uartclk := 0, fifosize := 0, flags := 0 }
      driver := none
      uartclk := (ports p).uartclk
      fifosize := (ports p).fifosize
      line := 0
      added := false }
  calls := []

end LinuxDriverFramework.NvUart
