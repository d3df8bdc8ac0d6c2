import MyCpu.Peripheral.Uart

/-! # The terminal of the simulator

`UartTerminal` of `sim.cpp`: once per clock cycle `process_tx` looks at the line that
the UART drives, and prints the bytes it makes out, and `get_rx_line` drives the line
that the UART listens to, with the bytes typed in. -/

namespace MyCpu

/-- The states of `process_tx`, and those of `get_rx_line`. -/
inductive TerminalState where
  | IDLE
  | START
  | DATA
  | STOP
deriving DecidableEq, Repr

structure UartTerminal where
  tx_state : TerminalState
  tx_counter : ℕ
  tx_bit_idx : ℕ
  tx_data : Byte
  tx_prev : Bool
  rx_state : TerminalState
  rx_counter : ℕ
  rx_bit_idx : ℕ
  rx_shift : Byte
  rx_fifo : List Byte
  /-- `current_rx_line()` -/
  rx_line_value : Bool
  ctrl_c_received : Bool
  ctrl_c_in_flight : Bool
  ctrl_c_sent : Bool
deriving DecidableEq, Repr

namespace UartTerminal

def CYCLES_PER_BIT : ℕ := 434

def HALF_BIT : ℕ := CYCLES_PER_BIT / 2

def reset : UartTerminal where
  tx_state := .IDLE
  tx_counter := 0
  tx_bit_idx := 0
  tx_data := 0#8
  tx_prev := true
  rx_state := .IDLE
  rx_counter := 0
  rx_bit_idx := 0
  rx_shift := 0#8
  rx_fifo := []
  rx_line_value := true
  ctrl_c_received := false
  ctrl_c_in_flight := false
  ctrl_c_sent := false

variable (terminal : UartTerminal)

/-! ## From the CPU -/

/-- `process_tx` apart from its last line, with what it prints. -/
def receiveTx (tx_line : Bool) : UartTerminal × List Byte :=
  match terminal.tx_state with
  | .IDLE =>
    if terminal.tx_prev && !tx_line then
      ({ terminal with tx_state := .START, tx_counter := HALF_BIT, tx_data := 0#8, tx_bit_idx := 0 }, [])
    else (terminal, [])
  | .START =>
    if CYCLES_PER_BIT ≤ terminal.tx_counter + 1 then
      if !tx_line then ({ terminal with tx_state := .DATA, tx_counter := 0 }, [])
      else ({ terminal with tx_state := .IDLE, tx_counter := terminal.tx_counter + 1 }, [])
    else ({ terminal with tx_counter := terminal.tx_counter + 1 }, [])
  | .DATA =>
    if CYCLES_PER_BIT ≤ terminal.tx_counter + 1 then
      ({ terminal with
          tx_counter := 0
          tx_data := terminal.tx_data |||
            (BitVec.ofBool tx_line).zeroExtend 8 <<< terminal.tx_bit_idx
          tx_bit_idx := terminal.tx_bit_idx + 1
          tx_state := if 8 ≤ terminal.tx_bit_idx + 1 then .STOP else .DATA }, [])
    else ({ terminal with tx_counter := terminal.tx_counter + 1 }, [])
  | .STOP =>
    if CYCLES_PER_BIT * 2 ≤ terminal.tx_counter + 1 then
      ({ terminal with tx_state := .IDLE, tx_counter := terminal.tx_counter + 1 },
      [terminal.tx_data])
    else ({ terminal with tx_counter := terminal.tx_counter + 1 }, [])

def process_tx (tx_line : Bool) : UartTerminal × List Byte :=
  ({ (terminal.receiveTx tx_line).1 with tx_prev := tx_line }, (terminal.receiveTx tx_line).2)

/-! ## To the CPU -/

/-- The bytes that `read` returns. -/
def poll_input (typed : List Byte) : UartTerminal :=
  { terminal with
    rx_fifo := terminal.rx_fifo ++ typed
    ctrl_c_received := terminal.ctrl_c_received || typed.contains 0x03#8 }

def get_rx_line : UartTerminal :=
  match terminal.rx_state with
  | .IDLE =>
    match terminal.rx_fifo with
    | byte :: rest =>
      { terminal with
        rx_shift := byte
        rx_fifo := rest
        rx_state := .START
        rx_counter := 0
        rx_bit_idx := 0
        rx_line_value := false
        ctrl_c_in_flight :=
          terminal.ctrl_c_in_flight || (byte = 0x03#8 && terminal.ctrl_c_received) }
    | [] => { terminal with rx_line_value := true }
  | .START =>
    if CYCLES_PER_BIT ≤ terminal.rx_counter + 1 then
      { terminal with rx_line_value := false, rx_counter := 0, rx_state := .DATA }
    else { terminal with rx_line_value := false, rx_counter := terminal.rx_counter + 1 }
  | .DATA =>
    if CYCLES_PER_BIT ≤ terminal.rx_counter + 1 then
      { terminal with
        rx_line_value := terminal.rx_shift.getLsbD terminal.rx_bit_idx
        rx_counter := 0
        rx_bit_idx := terminal.rx_bit_idx + 1
        rx_state := if 8 ≤ terminal.rx_bit_idx + 1 then .STOP else .DATA }
    else
      { terminal with
        rx_line_value := terminal.rx_shift.getLsbD terminal.rx_bit_idx
        rx_counter := terminal.rx_counter + 1 }
  | .STOP =>
    if CYCLES_PER_BIT * 2 ≤ terminal.rx_counter + 1 then
      { terminal with
        rx_line_value := true
        rx_counter := terminal.rx_counter + 1
        rx_state := .IDLE
        ctrl_c_sent := terminal.ctrl_c_sent || terminal.ctrl_c_in_flight
        ctrl_c_in_flight := false }
    else { terminal with rx_line_value := true, rx_counter := terminal.rx_counter + 1 }

end UartTerminal

end MyCpu
