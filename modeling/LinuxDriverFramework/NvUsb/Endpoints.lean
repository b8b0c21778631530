import LinuxDriverFramework.Foundations.Runs
import LinuxDriverFramework.Kernel.Base
import Mathlib.Data.UInt

/-! # `nv_usb`: alternate settings, endpoints and bulk transfers

`nv_usb_select_altsetting`, `nv_usb_find_endpoints`, `nv_usb_bulk_in` and `nv_usb_bulk_out`.

* `EndpointDesc`, `HostInterface`, `UsbInterface`: the descriptors of an interface and which of its
  alternate settings is current.
* `NvUsbEndpoints`: the endpoints that `nv_usb_find_endpoints` has looked up.
* `World`: the device and its interface, with the transfer that the last call submitted. -/

namespace LinuxDriverFramework.NvUsb
open Foundations
set_option autoImplicit false

/-! ## Descriptors -/

structure EndpointDesc where
  bEndpointAddress : UInt8
  bmAttributes : UInt8
  wMaxPacketSize : UInt16
  deriving DecidableEq, Repr

def xferBulk : UInt8 := 2

def xferInt : UInt8 := 3

def EndpointDesc.type (ep : EndpointDesc) : UInt8 := ep.bmAttributes &&& 3

def EndpointDesc.dirIn (ep : EndpointDesc) : Bool := ep.bEndpointAddress &&& 0x80 == 0x80

def EndpointDesc.maxp (ep : EndpointDesc) : UInt16 := ep.wMaxPacketSize &&& 0x7ff

structure HostInterface where
  bAlternateSetting : ℕ
  endpoints : List EndpointDesc
  deriving DecidableEq, Repr

/-- An interface; its current setting is one of those it has. -/
structure UsbInterface where
  altsettings : List HostInterface
  cur : HostInterface
  cur_mem : cur ∈ altsettings

inductive Dir
  | input
  | output
  deriving DecidableEq, Repr

def Dir.isIn : Dir → Bool
  | .input => true
  | .output => false

def EndpointDesc.isBulk (dir : Dir) (ep : EndpointDesc) : Bool :=
  ep.type == xferBulk && ep.dirIn == dir.isIn

/-- The setting has a bulk endpoint of this direction and address. -/
def HostInterface.Lists (alt : HostInterface) (dir : Dir) (addr : UInt8) : Prop :=
  ∃ ep ∈ alt.endpoints, ep.isBulk dir = true ∧ ep.bEndpointAddress = addr

instance (alt : HostInterface) (dir : Dir) (addr : UInt8) : Decidable (alt.Lists dir addr) :=
  inferInstanceAs (Decidable (∃ _ ∈ _, _))

/-! ## The device -/

structure NvUsbEndpoints where
  bulkIn : Option EndpointDesc
  bulkOut : Option EndpointDesc
  intIn : Option EndpointDesc
  bulkInAddr : UInt8
  bulkOutAddr : UInt8
  intInAddr : UInt8
  bulkInMps : UInt16
  bulkOutMps : UInt16
  intInMps : UInt16
  deriving DecidableEq, Repr

/-- `memset(&dev->eps, 0, sizeof(dev->eps))`. -/
def NvUsbEndpoints.zero : NvUsbEndpoints := ⟨none, none, none, 0, 0, 0, 0, 0, 0⟩

structure Transfer where
  dir : Dir
  addr : UInt8
  deriving DecidableEq, Repr

structure World where
  intf : Option UsbInterface
  udev : Option ℕ
  eps : NvUsbEndpoints
  altsetting : ℤ
  /-- the setting that the last `nv_usb_find_endpoints` looked at -/
  filledFrom : Option HostInterface
  /-- the transfer that the last call submitted -/
  submitted : Option Transfer

/-! ## `nv_usb_select_altsetting` -/

/-- `usb_set_interface`; `outcome` is the result of the request on the bus. -/
def UsbInterface.setInterface (i : UsbInterface) (alt : ℤ) (outcome : Option Errno) :
    UsbInterface × Ret :=
  match h : i.altsettings.find? fun a => (a.bAlternateSetting : ℤ) == alt with
  | none => (i, .error .EINVAL)
  | some a =>
    match outcome with
    | some e => (i, .error e)
    | none => ({ i with cur := a, cur_mem := List.mem_of_find?_eq_some h }, .ok ())

def selectAltsetting (w : World) (alt : ℤ) (outcome : Option Errno) : World × Ret :=
  match w.intf with
  | none => (w, .error .EINVAL)
  | some i =>
    if w.altsetting = alt then (w, .ok ())
    else
      match i.setInterface alt outcome with
      | (_, .error e) => (w, .error e)
      | (i', .ok ()) => ({ w with intf := some i', altsetting := alt }, .ok ())

/-! ## `nv_usb_find_endpoints` -/

/-- One round of the loop: the first endpoint of each kind is kept. -/
def NvUsbEndpoints.note (eps : NvUsbEndpoints) (ep : EndpointDesc) : NvUsbEndpoints :=
  if ep.type = xferBulk then
    if ep.dirIn && eps.bulkIn.isNone then
      { eps with bulkIn := some ep, bulkInAddr := ep.bEndpointAddress, bulkInMps := ep.maxp }
    else if !ep.dirIn && eps.bulkOut.isNone then
      { eps with bulkOut := some ep, bulkOutAddr := ep.bEndpointAddress, bulkOutMps := ep.maxp }
    else eps
  else if ep.type = xferInt && ep.dirIn && eps.intIn.isNone then
    { eps with intIn := some ep, intInAddr := ep.bEndpointAddress, intInMps := ep.maxp }
  else eps

def HostInterface.lookUp (alt : HostInterface) : NvUsbEndpoints :=
  alt.endpoints.foldl NvUsbEndpoints.note .zero

def findEndpoints (w : World) : World × Ret :=
  match w.intf with
  | none => (w, .error .EINVAL)
  | some i => ({ w with eps := i.cur.lookUp, filledFrom := some i.cur }, .ok ())

/-! ## Bulk transfers -/

/-- The body that `nv_usb_bulk_in` and `nv_usb_bulk_out` share. `buf` says that the buffer is there,
`outcome` is what `usb_bulk_msg` returns. -/
def bulkMsg (w : World) (addr : UInt8) (dir : Dir) (buf : Bool) (len : ℤ) (outcome : Option Errno) :
    World × Ret :=
  if w.udev.isNone || addr == 0 || !buf || decide (len ≤ 0) then (w, .error .EINVAL)
  else
    ({ w with submitted := some ⟨dir, addr⟩ },
      match outcome with
      | some e => .error e
      | none => .ok ())

def bulkIn (w : World) (buf : Bool) (len : ℤ) (outcome : Option Errno) : World × Ret :=
  bulkMsg w w.eps.bulkInAddr .input buf len outcome

def bulkOut (w : World) (buf : Bool) (len : ℤ) (outcome : Option Errno) : World × Ret :=
  bulkMsg w w.eps.bulkOutAddr .output buf len outcome

/-! ## Runs -/

inductive Call
  | select (alt : ℤ) (outcome : Option Errno)
  | find
  | bulk (dir : Dir) (buf : Bool) (len : ℤ) (outcome : Option Errno)
  deriving DecidableEq

def step (w : World) (c : Call) : World :=
  let w := { w with submitted := none }
  match c with
  | .select alt outcome => (selectAltsetting w alt outcome).1
  | .find => (findEndpoints w).1
  | .bulk .input buf len outcome => (bulkIn w buf len outcome).1
  | .bulk .output buf len outcome => (bulkOut w buf len outcome).1

/-- The device as `nv_usb_probe` sets it up. -/
def World.probed (i : UsbInterface) (udev : ℕ) : World where
  intf := some i
  udev := some udev
  eps := .zero
  altsetting := i.cur.bAlternateSetting
  filledFrom := none
  submitted := none

end LinuxDriverFramework.NvUsb
