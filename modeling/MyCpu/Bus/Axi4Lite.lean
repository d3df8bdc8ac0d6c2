import MyCpu.Core.MemoryAccess

/-! # AXI4-Lite

`AXI4Lite.scala`: the channel signals and the registered master and slave state
machines.  A channel bundle is split into the half that the master drives and the
half that the slave drives. -/

namespace MyCpu

/-! ## Channels -/

/-- The signals a master drives; addresses are `addrWidth` bits wide. -/
structure AXI4LiteMasterChannels (addrWidth : ℕ) where
  ARVALID : Bool
  ARADDR : BitVec addrWidth
  RREADY : Bool
  AWVALID : Bool
  AWADDR : BitVec addrWidth
  WVALID : Bool
  WDATA : Word
  WSTRB : Strobe
  BREADY : Bool
deriving DecidableEq, Repr

/-- The signals a slave drives. -/
structure AXI4LiteSlaveChannels where
  ARREADY : Bool
  RVALID : Bool
  RDATA : Word
  RRESP : BitVec 2
  AWREADY : Bool
  WREADY : Bool
  BVALID : Bool
  BRESP : BitVec 2
deriving DecidableEq, Repr

inductive AXI4LiteStates where
  | idle
  | readAddr
  | readData
  | writeAddr
  | writeData
  | writeResp
deriving DecidableEq, Repr

/-! ## Slave -/

/-- `AXI4LiteSlaveBundle`, the part the device drives. -/
structure AXI4LiteDevice where
  readData : Word
  readValid : Bool
deriving DecidableEq, Repr

structure AXI4LiteSlave (addrWidth : ℕ) where
  state : AXI4LiteStates
  addr : BitVec addrWidth
  read : Bool
  readData : Word
  ARREADY : Bool
  RVALID : Bool
  RRESP : BitVec 2
  write : Bool
  writeData : Word
  writeStrobe : Strobe
  AWREADY : Bool
  WREADY : Bool
  BVALID : Bool
deriving DecidableEq, Repr

namespace AXI4LiteSlave

variable {addrWidth : ℕ}

def reset (addrWidth : ℕ) : AXI4LiteSlave addrWidth where
  state := .idle
  addr := 0
  read := false
  readData := 0#32
  ARREADY := false
  RVALID := false
  RRESP := 0#2
  write := false
  writeData := 0#32
  writeStrobe := 0#4
  AWREADY := false
  WREADY := false
  BVALID := false

def channels (slave : AXI4LiteSlave addrWidth) : AXI4LiteSlaveChannels where
  ARREADY := slave.ARREADY
  RVALID := slave.RVALID
  RDATA := slave.readData
  RRESP := slave.RRESP
  AWREADY := slave.AWREADY
  WREADY := slave.WREADY
  BVALID := slave.BVALID
  BRESP := 0#2

/-- The device answers in `ReadData`: its data is captured and the read strobe falls. -/
def captureRead (slave : AXI4LiteSlave addrWidth) (device : AXI4LiteDevice) :
    AXI4LiteSlave addrWidth :=
  if device.readValid then
    { slave with readData := device.readData, RVALID := true, RRESP := 0#2, read := false }
  else slave

def step (slave : AXI4LiteSlave addrWidth) (io : AXI4LiteMasterChannels addrWidth)
    (device : AXI4LiteDevice) :
    AXI4LiteSlave addrWidth :=
  match slave.state with
  | .idle =>
    if io.ARVALID then { slave with read := false, write := false, state := .readAddr, ARREADY := true }
    else if io.AWVALID then { slave with read := false, write := false, state := .writeAddr, AWREADY := true }
    else { slave with read := false, write := false }
  | .readAddr =>
    if io.ARVALID && slave.ARREADY then
      { slave with addr := io.ARADDR, ARREADY := false, read := true, state := .readData }
    else slave
  | .readData =>
    -- both `when` blocks assign `RVALID`; the handshake comes last and wins
    if slave.RVALID && io.RREADY then
      { captureRead slave device with RVALID := false, state := .idle }
    else captureRead slave device
  | .writeAddr =>
    if io.AWVALID && slave.AWREADY then
      { slave with addr := io.AWADDR, AWREADY := false, WREADY := true, state := .writeData }
    else slave
  | .writeData =>
    if io.WVALID && slave.WREADY then
      { slave with writeData := io.WDATA, writeStrobe := io.WSTRB, WREADY := false, write := true, state := .writeResp }
    else slave
  | .writeResp =>
    if slave.BVALID && io.BREADY then { slave with write := false, BVALID := false, state := .idle }
    else { slave with write := false, BVALID := true }

end AXI4LiteSlave

/-! ## Master -/

/-- `AXI4LiteMasterBundle`, the part the CPU drives. -/
structure AXI4LiteRequest (addrWidth : ℕ) where
  address : BitVec addrWidth
  read : Bool
  write : Bool
  writeData : Word
  writeStrobe : Strobe
deriving DecidableEq, Repr

structure AXI4LiteMaster (addrWidth : ℕ) where
  state : AXI4LiteStates
  addr : BitVec addrWidth
  readValid : Bool
  readData : Word
  ARVALID : Bool
  RREADY : Bool
  writeValid : Bool
  writeData : Word
  writeStrobe : Strobe
  AWVALID : Bool
  WVALID : Bool
  BREADY : Bool
  writeDataAccepted : Bool
deriving DecidableEq, Repr

namespace AXI4LiteMaster

variable {addrWidth : ℕ}

def reset (addrWidth : ℕ) : AXI4LiteMaster addrWidth where
  state := .idle
  addr := 0
  readValid := false
  readData := 0#32
  ARVALID := false
  RREADY := false
  writeValid := false
  writeData := 0#32
  writeStrobe := 0#4
  AWVALID := false
  WVALID := false
  BREADY := false
  writeDataAccepted := false

def busy (master : AXI4LiteMaster addrWidth) : Bool := master.state ≠ .idle

def channels (master : AXI4LiteMaster addrWidth) : AXI4LiteMasterChannels addrWidth where
  ARVALID := master.ARVALID
  ARADDR := master.addr
  RREADY := master.RREADY
  AWVALID := master.AWVALID
  AWADDR := master.addr
  WVALID := master.WVALID
  WDATA := master.writeData
  WSTRB := master.writeStrobe
  BREADY := master.BREADY

def step (master : AXI4LiteMaster addrWidth) (bundle : AXI4LiteRequest addrWidth)
    (io : AXI4LiteSlaveChannels) :
    AXI4LiteMaster addrWidth :=
  match master.state with
  | .idle =>
    let cleared :=
      { master with readValid := false, writeValid := false, writeDataAccepted := false }
    if bundle.read && !bundle.write then
      { cleared with addr := bundle.address, ARVALID := true, RREADY := true, state := .readData }
    else if bundle.write then
      { cleared with
        addr := bundle.address, writeData := bundle.writeData, writeStrobe := bundle.writeStrobe
        AWVALID := true, WVALID := true, state := .writeData }
    else cleared
  | .readData =>
    let addressed := { master with ARVALID := master.ARVALID && !io.ARREADY }
    if io.RVALID && master.RREADY then
      { addressed with readData := io.RDATA, RREADY := false, readValid := true, state := .idle }
    else addressed
  | .writeData =>
    let addressed := { master with AWVALID := master.AWVALID && !io.AWREADY }
    if master.WVALID && io.WREADY then
      { addressed with WVALID := false, BREADY := true, writeDataAccepted := true, state := .writeResp }
    else addressed
  | .writeResp =>
    let addressed := { master with AWVALID := master.AWVALID && !io.AWREADY }
    if io.BVALID && master.BREADY then
      { addressed with BREADY := false, writeValid := true, state := .idle }
    else addressed
  | .readAddr | .writeAddr => master

end AXI4LiteMaster

/-! ## Control words -/

namespace AXI4LiteMaster

/-- The handshake registers. -/
structure Control where
  state : AXI4LiteStates
  ARVALID : Bool
  RREADY : Bool
  AWVALID : Bool
  WVALID : Bool
  BREADY : Bool
  readValid : Bool
  writeValid : Bool
deriving DecidableEq, Repr

def control {w : ℕ} (master : AXI4LiteMaster w) : Control where
  state := master.state
  ARVALID := master.ARVALID
  RREADY := master.RREADY
  AWVALID := master.AWVALID
  WVALID := master.WVALID
  BREADY := master.BREADY
  readValid := master.readValid
  writeValid := master.writeValid

end AXI4LiteMaster

namespace AXI4LiteSlave

/-- The handshake registers. -/
structure Control where
  state : AXI4LiteStates
  read : Bool
  ARREADY : Bool
  RVALID : Bool
  write : Bool
  AWREADY : Bool
  WREADY : Bool
  BVALID : Bool
deriving DecidableEq, Repr

def control {w : ℕ} (slave : AXI4LiteSlave w) : Control where
  state := slave.state
  read := slave.read
  ARREADY := slave.ARREADY
  RVALID := slave.RVALID
  write := slave.write
  AWREADY := slave.AWREADY
  WREADY := slave.WREADY
  BVALID := slave.BVALID

def Control.idle : Control := ⟨.idle, false, false, false, false, false, false, false⟩

end AXI4LiteSlave

end MyCpu
