import MyCpu.Bus.Axi4Lite

/-! # UART

`UART.scala`: the transmitter, the receiver, the one-byte buffer in front of the
transmitter and the AXI4-Lite registers, with the four-entry queue of received
bytes. -/

namespace MyCpu

abbrev Byte := BitVec 8

/-! ## Parameters -/

/-- The clock frequency and the baud rate of a `Tx`, `Rx` or `Uart`. -/
structure UartConfig where
  frequency : ℕ
  baudRate : ℕ
deriving DecidableEq, Repr

namespace UartConfig

/-- `BIT_CNT` before it is stored in a counter. -/
def bitClocks (config : UartConfig) : ℕ :=
  (config.frequency + config.baudRate / 2) / config.baudRate - 1

/-- `START_CNT` before it is stored in a counter. -/
def startClocks (config : UartConfig) : ℕ :=
  (3 * config.frequency / 2 + config.baudRate / 2) / config.baudRate - 1

/-- `BIT_CNT` as the 16-bit counter receives it. -/
def bitCnt (config : UartConfig) : ℕ := config.bitClocks % 2 ^ 16

/-- `START_CNT` as the 16-bit counter receives it. -/
def startCnt (config : UartConfig) : ℕ := config.startClocks % 2 ^ 16

/-- Length of one bit in cycles. -/
def bitTime (config : UartConfig) : ℕ := config.bitCnt + 1

end UartConfig

namespace UartConstants

def DATA_BITS : ℕ := 8
def TX_FRAME_BITS : ℕ := 11
def TX_IDLE : BitVec 11 := 0x7ff#11

def REG_STATUS : BitVec 8 := 0x00#8
def REG_BAUD_RATE : BitVec 8 := 0x04#8
def REG_INTERRUPT : BitVec 8 := 0x08#8
def REG_RX_DATA : BitVec 8 := 0x0c#8
def REG_TX_DATA : BitVec 8 := 0x10#8

end UartConstants

open UartConstants

/-- The producer's side of a `UartIO`. -/
structure UartIO where
  valid : Bool
  bits : Byte
deriving DecidableEq, Repr

/-! ## Transmitter -/

structure Tx where
  shiftReg : BitVec 11
  cntReg : ℕ
  bitsReg : ℕ
deriving DecidableEq, Repr

namespace Tx

def reset : Tx := ⟨TX_IDLE, 0, 0⟩

variable (config : UartConfig) (tx : Tx)

def ready : Bool := tx.cntReg = 0 && tx.bitsReg = 0

def txd : Bool := tx.shiftReg.getLsbD 0

def step (channel : UartIO) : Tx :=
  if tx.cntReg = 0 then
    if tx.bitsReg ≠ 0 then
      { shiftReg := 1#1 ++ tx.shiftReg.extractLsb' 1 10
        cntReg := config.bitCnt
        bitsReg := tx.bitsReg - 1 }
    else if channel.valid then
      { shiftReg := 3#2 ++ channel.bits ++ 0#1, cntReg := config.bitCnt, bitsReg := TX_FRAME_BITS }
    else { tx with shiftReg := TX_IDLE, cntReg := config.bitCnt }
  else { tx with cntReg := tx.cntReg - 1 }

end Tx

/-! ## Receiver -/

structure Rx where
  /-- First stage of the synchroniser. -/
  rxSync : Bool
  rxReg : Bool
  shiftReg : Byte
  cntReg : ℕ
  bitsReg : ℕ
  valReg : Bool
deriving DecidableEq, Repr

namespace Rx

def reset : Rx := ⟨true, true, 0#8, 0, 0, false⟩

variable (config : UartConfig) (rx : Rx)

/-- The start bit is seen in this cycle. -/
def starts : Bool := rx.cntReg = 0 && rx.bitsReg = 0 && !rx.rxReg && !rx.valReg

/-- A data bit is sampled in this cycle. -/
def samples : Bool := rx.cntReg = 0 && rx.bitsReg ≠ 0

def step (rxd ready : Bool) : Rx where
  rxSync := rxd
  rxReg := rx.rxSync
  shiftReg := if rx.samples then
    BitVec.ofBool rx.rxReg ++ rx.shiftReg.extractLsb' 1 7 else rx.shiftReg
  cntReg :=
    if rx.cntReg ≠ 0 then rx.cntReg - 1
    else if rx.bitsReg ≠ 0 then config.bitCnt
    else if rx.starts then config.startCnt
    else rx.cntReg
  bitsReg := if rx.samples then rx.bitsReg - 1 else if rx.starts then DATA_BITS else rx.bitsReg
  valReg := if rx.valReg && ready then false
    else if rx.samples && rx.bitsReg = 1 then true else rx.valReg

end Rx

/-! ## Buffer -/

structure Buffer where
  full : Bool
  dataReg : Byte
deriving DecidableEq, Repr

namespace Buffer

def reset : Buffer := ⟨false, 0#8⟩

def inReady (buffer : Buffer) : Bool := !buffer.full

def out (buffer : Buffer) : UartIO := ⟨buffer.full, buffer.dataReg⟩

def step (buffer : Buffer) (channel : UartIO) (outReady : Bool) : Buffer :=
  if !buffer.full then if channel.valid then ⟨true, channel.bits⟩ else buffer
  else if outReady then { buffer with full := false }
  else buffer

end Buffer

/-- A transmitter behind a buffer. -/
structure BufferedTx where
  tx : Tx
  buf : Buffer
deriving DecidableEq, Repr

namespace BufferedTx

def reset : BufferedTx := ⟨Tx.reset, Buffer.reset⟩

def ready (bufferedTx : BufferedTx) : Bool := bufferedTx.buf.inReady

def step (config : UartConfig) (bufferedTx : BufferedTx) (channel : UartIO) : BufferedTx where
  tx := bufferedTx.tx.step config bufferedTx.buf.out
  buf := bufferedTx.buf.step channel bufferedTx.tx.ready

end BufferedTx

/-! ## Queue of received bytes -/

/-- Chisel's `Queue` with four entries and `pipe`: a ring of entries with two pointers. -/
structure Queue where
  ram : BitVec 2 → Byte
  enqPtr : BitVec 2
  deqPtr : BitVec 2
  maybeFull : Bool

namespace Queue

def reset : Queue := ⟨fun _ => 0#8, 0#2, 0#2, false⟩

variable (queue : Queue)

def ptrMatch : Bool := queue.enqPtr = queue.deqPtr
def empty : Bool := queue.ptrMatch && !queue.maybeFull
def full : Bool := queue.ptrMatch && queue.maybeFull

def count : ℕ := if queue.full then 4 else (queue.enqPtr - queue.deqPtr).toNat

def deq : UartIO := ⟨!queue.empty, queue.ram queue.deqPtr⟩

/-- With `pipe` a full queue accepts an entry in the cycle in which it gives one away. -/
def enqReady (deqReady : Bool) : Bool := !queue.full || deqReady

def step (enq : UartIO) (deqReady : Bool) : Queue :=
  let doEnq := enq.valid && queue.enqReady deqReady
  let doDeq := queue.deq.valid && deqReady
  { ram := if doEnq then Function.update queue.ram queue.enqPtr enq.bits else queue.ram
    enqPtr := if doEnq then queue.enqPtr + 1#2 else queue.enqPtr
    deqPtr := if doDeq then queue.deqPtr + 1#2 else queue.deqPtr
    maybeFull := if doEnq ≠ doDeq then doEnq else queue.maybeFull }

end Queue

/-! ## Registers -/

structure Uart where
  interrupt : Bool
  slave : AXI4LiteSlave 8
  tx : BufferedTx
  rx : Rx
  rxFifo : Queue

namespace Uart

structure Inputs where
  channels : AXI4LiteMasterChannels 8
  rxd : Bool

def reset : Uart where
  interrupt := false
  slave := AXI4LiteSlave.reset 8
  tx := BufferedTx.reset
  rx := Rx.reset
  rxFifo := Queue.reset

variable (config : UartConfig) (uart : Uart)

/-- The register that the slave addresses; the mask keeps all eight bits. -/
def addr : BitVec 8 := uart.slave.addr &&& 0xff#8

def txd : Bool := uart.tx.tx.txd

/-- `read_data_prepared`. -/
def readData : Word :=
  if uart.addr = REG_STATUS then
    0#30 ++ BitVec.ofBool uart.rxFifo.deq.valid ++ BitVec.ofBool uart.tx.ready
  else if uart.addr = REG_BAUD_RATE then BitVec.ofNat 32 config.baudRate
  else if uart.addr = REG_RX_DATA then uart.rxFifo.deq.bits.zeroExtend 32
  else 0#32

/-- A read is answered in the cycle in which it is seen. -/
def device : AXI4LiteDevice := ⟨uart.readData config, uart.slave.read⟩

def deqReady : Bool := uart.slave.read && uart.addr = REG_RX_DATA

/-- A byte for a full buffer is dropped. -/
def txChannel : UartIO :=
  if uart.slave.write && uart.addr = REG_TX_DATA && uart.tx.ready then
    ⟨true, uart.slave.writeData.setWidth 8⟩
  else ⟨false, 0#8⟩

def rxChannel : UartIO := ⟨uart.rx.valReg, uart.rx.shiftReg⟩

def enqReady : Bool := uart.rxFifo.enqReady uart.deqReady

def nextInterrupt : Bool :=
  if uart.slave.write && uart.addr = REG_INTERRUPT then uart.slave.writeData ≠ 0#32
  else if uart.rxChannel.valid && uart.enqReady then true
  else if uart.slave.read && uart.addr = REG_RX_DATA && uart.rxFifo.deq.valid &&
    uart.rxFifo.count = 1 then false
  else uart.interrupt

def step (io : Inputs) : Uart where
  interrupt := uart.nextInterrupt
  slave := uart.slave.step io.channels (uart.device config)
  tx := uart.tx.step config uart.txChannel
  rx := uart.rx.step config io.rxd uart.enqReady
  rxFifo := uart.rxFifo.step uart.rxChannel uart.deqReady

end Uart

end MyCpu
