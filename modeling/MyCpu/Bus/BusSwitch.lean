import MyCpu.Bus.Axi4Lite
import Mathlib.Data.List.FinRange
import Mathlib.Tactic.FinCases

/-! # Bus switch and dummy slave

`BusSwitch.scala`: the address decoder between one master and eight slaves, with
the selection latched for the response channels.  `DummySlave.scala`: the slave
of the unmapped regions. -/

namespace MyCpu

/-! ## One-hot selection -/

/-- The switch has at least one port, so that ports are written as numerals. -/
instance somePorts : NeZero 8 := ⟨by decide⟩

/-- One selection bit for each of the eight slaves. -/
abbrev Selection := BitVec 8

/-- `UIntToOH`. -/
def uintToOH (index : Fin 8) : Selection := 1#8 <<< index.val

/-- `Mux1H` on one-bit inputs: the OR of the selected inputs. -/
def mux1HBool (sel : Selection) (inputs : Fin 8 → Bool) : Bool :=
  (List.finRange 8).any fun i : Fin 8 => sel.getLsbD i && inputs i

/-- `Mux1H`: the OR of the selected inputs. -/
def mux1H {w : ℕ} (sel : Selection) (inputs : Fin 8 → BitVec w) : BitVec w :=
  ((List.finRange 8).map fun i : Fin 8 => if sel.getLsbD i then inputs i else 0#w).foldr
    (· ||| ·) 0#w

theorem uintToOH_getLsbD (index i : Fin 8) : (uintToOH index).getLsbD i = decide (index = i) := by
  revert index i
  decide

@[simp] theorem uintToOH_getElem (index i : Fin 8) :
    (uintToOH index)[i.val] = decide (index = i) := by
  rw [← BitVec.getLsbD_eq_getElem, uintToOH_getLsbD]

@[simp] theorem mux1HBool_uintToOH (index : Fin 8) (inputs : Fin 8 → Bool) :
    mux1HBool (uintToOH index) inputs = inputs index := by
  rw [Bool.eq_iff_iff]
  simp only [mux1HBool, uintToOH_getLsbD, List.any_eq_true, List.mem_finRange,
    true_and, Bool.and_eq_true, decide_eq_true_eq, exists_eq_left']

theorem mux1HBool_zero (inputs : Fin 8 → Bool) : mux1HBool 0#8 inputs = false := by
  simp [mux1HBool]

/-- A latched selection passes a response that is only high when it is selected. -/
theorem mux1HBool_response {sel : Selection} {index : Fin 8} {inputs : Fin 8 → Bool}
    (latched : sel = 0#8 ∨ sel = uintToOH index)
    (needed : inputs index = true → sel = uintToOH index) :
    mux1HBool sel inputs = inputs index := by
  by_cases high : inputs index = true
  · rw [needed high, mux1HBool_uintToOH]
  · cases latched with
    | inl none => rw [none, mux1HBool_zero, Bool.eq_false_iff.mpr high]
    | inr selected => rw [selected, mux1HBool_uintToOH]

@[simp] theorem mux1H_uintToOH {w : ℕ} (index : Fin 8) (inputs : Fin 8 → BitVec w) :
    mux1H (uintToOH index) inputs = inputs index := by
  simp only [mux1H, uintToOH_getLsbD, decide_eq_true_eq]
  fin_cases index <;> simp [List.finRange_succ]

/-! ## Switch -/

structure BusSwitch where
  readSel : Selection
  writeSel : Selection
deriving DecidableEq, Repr

namespace BusSwitch

def reset : BusSwitch := ⟨0#8, 0#8⟩

/-- The region number of an address, its top three bits. -/
def index (address : Word) : Fin 8 := (address.extractLsb' 29 3).toFin

def sel (address : Word) : Selection := uintToOH (index address)

variable (switch : BusSwitch) (address : Word) (master : AXI4LiteMasterChannels 32)
  (slaves : Fin 8 → AXI4LiteSlaveChannels)

/-- What slave `i` sees: requests are gated by the address, response handshakes by the latched
    selection. -/
def slaveInputs (i : Fin 8) : AXI4LiteMasterChannels 32 where
  ARVALID := master.ARVALID && (sel address).getLsbD i
  ARADDR := master.ARADDR
  RREADY := master.RREADY && switch.readSel.getLsbD i
  AWVALID := master.AWVALID && (sel address).getLsbD i
  AWADDR := master.AWADDR
  WVALID := master.WVALID && (sel address).getLsbD i
  WDATA := master.WDATA
  WSTRB := master.WSTRB
  BREADY := master.BREADY && switch.writeSel.getLsbD i

/-- What the master sees. -/
def masterInputs : AXI4LiteSlaveChannels where
  ARREADY := mux1HBool (sel address) fun i => (slaves i).ARREADY
  RVALID := mux1HBool switch.readSel fun i => (slaves i).RVALID
  RDATA := mux1H switch.readSel fun i => (slaves i).RDATA
  RRESP := mux1H switch.readSel fun i => (slaves i).RRESP
  AWREADY := mux1HBool (sel address) fun i => (slaves i).AWREADY
  WREADY := mux1HBool (sel address) fun i => (slaves i).WREADY
  BVALID := mux1HBool switch.writeSel fun i => (slaves i).BVALID
  BRESP := mux1H switch.writeSel fun i => (slaves i).BRESP

def step : BusSwitch where
  readSel :=
    if master.ARVALID then sel address
    else if (masterInputs switch address slaves).RVALID && master.RREADY then 0#8
    else switch.readSel
  writeSel :=
    if master.AWVALID || master.WVALID then sel address
    else if (masterInputs switch address slaves).BVALID && master.BREADY then 0#8
    else switch.writeSel

end BusSwitch

/-! ## Dummy slave -/

structure DummySlave where
  readPending : Bool
  writePending : Bool
  writeDataOk : Bool
deriving DecidableEq, Repr

namespace DummySlave

def reset : DummySlave := ⟨false, false, false⟩

def decerr : BitVec 2 := 3#2

def channels (dummy : DummySlave) : AXI4LiteSlaveChannels where
  ARREADY := !dummy.readPending
  RVALID := dummy.readPending
  RDATA := 0xDEADBEEF#32
  RRESP := decerr
  AWREADY := !dummy.writePending
  WREADY := dummy.writePending && !dummy.writeDataOk
  BVALID := dummy.writeDataOk
  BRESP := decerr

def step (dummy : DummySlave) (io : AXI4LiteMasterChannels 4) : DummySlave where
  readPending :=
    if dummy.readPending && io.RREADY then false
    else if io.ARVALID && dummy.channels.ARREADY then true
    else dummy.readPending
  writePending :=
    if dummy.writeDataOk && io.BREADY then false
    else if io.AWVALID && dummy.channels.AWREADY then true
    else dummy.writePending
  writeDataOk :=
    if dummy.writeDataOk && io.BREADY then false
    else if dummy.writePending && io.WVALID && dummy.channels.WREADY then true
    else dummy.writeDataOk

end DummySlave

end MyCpu
